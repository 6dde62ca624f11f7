import Text2Image.Services.AuthReplies

/-! One call of the authentication service while nobody else touches the users or the
tokens: what becomes of the tokens.
-/

set_option autoImplicit false

namespace Text2Image.Auth

open Concurrency Concurrency.Prog

/-- Between two operations of the call only time passes. -/
def undisturbed : Setting interface World Choice where
  perform := perform
  drift world met := met = { world with clock := met.clock } ∧ world.clock ≤ met.clock

variable {d : Deployment} {token_store : RefreshTokenStore} {world after : World} {trace : Trace}

/-- What a consume would answer at this time. -/
def World.tokenAt (w : World) (now : TimePoint) (token_store : RefreshTokenStore) (jti : String) :
    Option Int :=
  match token_store with
  | .Redis => (w.redis.textAt now (refreshTokenKey jti)).join.bind stoll
  | .InMemory => (MapOp.fresh now w.tokens jti).map (·.user_id)

/-- What the operation of this moment was answered. -/
def takenAt (moment : Op × Choice × World) : Taken interface :=
  ⟨moment.1, (perform moment.1 moment.2.1 moment.2.2).1⟩

/-- The operation takes effect, whatever its caller is told. -/
def Choice.effective (choice : Choice) : Bool := choice.outcome ≠ .failed

/-- The operation takes this token out of its store. -/
def Takes (jti : String) : Op × Choice × World → Bool
  | (.redis command, choice, _) => choice.effective && command = .getDel (refreshTokenKey jti)
  | (.map (.consume other), _, _) => other = jti
  | _ => false

/-- The operation draws the id of a token anew. -/
def Draws (jti : String) : Op × Choice × World → Bool
  | (.random, choice, _) => utils.uuid choice.bytes = jti
  | _ => false

/-! ## Tokens that are gone -/

/-- The store will never again find the token. -/
def Gone (token_store : RefreshTokenStore) (jti : String) (w : World) : Prop :=
  match token_store with
  | .Redis => w.redis.Textless w.clock (refreshTokenKey jti)
  | .InMemory => w.tokens jti = none

/-- The operation is not one that puts the token there. -/
def Op.SparesId (jti : String) : Op → Prop
  | .redis (.setex key _ _) => key ≠ refreshTokenKey jti
  | .map (.store other _ _) => other ≠ jti
  | _ => True

theorem Gone.tokenAt {jti : String} (gone : Gone token_store jti world) {now : TimePoint}
    (later : world.clock ≤ now) : world.tokenAt now token_store jti = none := by
  cases token_store with
  | Redis =>
    have textless : world.redis.Textless world.clock (refreshTokenKey jti) := gone
    simp only [World.tokenAt, Keyspace.State.textAt]
    cases found : world.redis.live now (refreshTokenKey jti) with
    | none => rfl
    | some entry =>
      obtain ⟨value, expiry⟩ := entry
      cases value with
      | text text => exact absurd found (textless now later text expiry)
      | members members => rfl
  | InMemory =>
    have absent : world.tokens jti = none := gone
    simp [World.tokenAt, MapOp.fresh, absent]

theorem Gone.drift {jti : String} {met : World} (gone : Gone token_store jti world)
    (drifts : undisturbed.drift world met) : Gone token_store jti met := by
  obtain ⟨same, forward⟩ := drifts
  rw [same]
  cases token_store with
  | Redis => exact Keyspace.State.Textless.later gone forward
  | InMemory => exact gone

theorem perform_redis (command : Keyspace.Command) (choice : Choice) (w : World) :
    (perform (.redis command) choice w).2 =
      { w with redis := if choice.effective then (command.run w.clock w.redis).2 else w.redis } := by
  cases settled : choice.outcome <;> simp [perform, Choice.effective, settled]

theorem perform_sql (s : UserStmt) (choice : Choice) (w : World) :
    (perform (.sql s) choice w).2 =
      { w with users := if choice.effective then (s.run w.users).2 else w.users } := by
  cases settled : choice.outcome <;> simp [perform, Choice.effective, settled]

theorem perform_clock (op : Op) (choice : Choice) (w : World) : (perform op choice w).2.clock = w.clock := by
  cases op with
  | redis command => rw [perform_redis]
  | sql s => rw [perform_sql]
  | _ => rfl

theorem Gone.perform {jti : String} (gone : Gone token_store jti world) {op : Op}
    (spares : op.SparesId jti) (choice : Choice) : Gone token_store jti (perform op choice world).2 := by
  cases op with
  | redis command =>
    rw [perform_redis]
    cases token_store with
    | InMemory => exact gone
    | Redis =>
      simp only [Gone] at gone ⊢
      split
      · refine gone.run fun value ttl same => ?_
        rw [same] at spares
        exact spares rfl
      · exact gone
  | sql s =>
    rw [perform_sql]
    cases token_store <;> exact gone
  | map op =>
    cases token_store with
    | Redis => exact gone
    | InMemory =>
      have absent : world.tokens jti = none := gone
      cases op with
      | store other userId ttl =>
        exact (Function.update_of_ne (Ne.symm spares) _ _).trans absent
      | consume other =>
        show Function.update (MapOp.fresh world.clock world.tokens) other none jti = none
        by_cases same : jti = other
        · rw [same, Function.update_self]
        · rw [Function.update_of_ne same, MapOp.fresh, absent]
          rfl
      | revoke other =>
        show Function.update world.tokens other none jti = none
        by_cases same : jti = other
        · rw [same, Function.update_self]
        · rw [Function.update_of_ne same, absent]
      | revokeUser userId =>
        show Option.filter _ (world.tokens jti) = none
        rw [absent]
        rfl
  | _ => exact gone

/-- A token that is gone stays gone. -/
theorem Gone.executes {jti : String} {α : Type} {program : Program α} {value : α}
    (gone : Gone token_store jti world) (ran : Executes undisturbed program world trace value after)
    (only : ∀ moment ∈ trace, moment.1.SparesId jti) : Gone token_store jti after := by
  induction ran with
  | done => exact gone
  | @call op next choice world met after trace value drifts ran ih =>
    refine ih ?_ fun moment member => only moment (List.mem_cons_of_mem _ member)
    exact (gone.drift drifts).perform (only (op, choice, met) List.mem_cons_self) choice

/-! ## Calls of the stores -/

theorem refreshTokenKey_injective {jti other : String}
    (same : refreshTokenKey jti = refreshTokenKey other) : jti = other :=
  (String.append_right_inj _).mp same

/-- The store is not there, or the body runs. -/
theorem executes_guarded {α : Type} {body : Fallible interface String α} {reply : ServiceResult α}
    (ran : Executes undisturbed (RedisRefreshTokenStore.guarded body) world trace reply after) :
    ∃ choice met rest, undisturbed.drift world met ∧ trace = (.redisAvailable, choice, met) :: rest ∧
      ((rest = [] ∧ after = met ∧ ∃ error, reply = .error error) ∨
        ∃ result, Executes undisturbed body.run met rest result after ∧
          reply = result.mapError fun _ => refreshStoreUnavailable "refresh token store failed") := by
  obtain ⟨choice, met, rest, drifts, rfl, goes⟩ := Executes.of_call ran
  refine ⟨choice, met, rest, drifts, rfl, ?_⟩
  have asked : (undisturbed.perform Op.redisAvailable choice met).1 = choice.available := rfl
  cases available : choice.available with
  | false =>
    rw [asked, available] at goes
    obtain ⟨rfl, rfl, rfl⟩ := Executes.of_done goes
    exact .inl ⟨rfl, rfl, _, rfl⟩
  | true =>
    rw [asked, available] at goes
    dsimp only [Prog.bind] at goes
    rw [if_pos rfl] at goes
    obtain ⟨first, second, middle, result, rfl, left, ended⟩ := Executes.of_bind goes
    refine .inr ⟨result, ?_⟩
    cases result <;> obtain ⟨rfl, rfl, rfl⟩ := Executes.of_done ended <;> rw [List.append_nil] <;>
      exact ⟨left, rfl⟩

theorem executes_getDel {jti : String} {reply : Except String (Option String)}
    (ran : Executes undisturbed (redis (.getDel (refreshTokenKey jti))).run world trace reply after) :
    ∃ moment, trace = [moment] ∧
      ((Takes jti moment = false ∧ after.redis = world.redis ∧ after.tokens = world.tokens ∧
          ∃ what, reply = .error what) ∨
        Takes jti moment = true ∧ Gone .Redis jti after) := by
  obtain ⟨choice, met, ⟨same, _⟩, rfl, answered, became⟩ := Executes.of_perform ran
  have left : after = { met with redis := if choice.effective then
      ((Keyspace.Command.getDel (refreshTokenKey jti)).run met.clock met.redis).2 else met.redis } :=
    became.trans (perform_redis _ choice met)
  refine ⟨_, rfl, ?_⟩
  simp only [Takes, decide_true, Bool.and_true]
  cases effective : choice.effective with
  | false =>
    rw [effective, if_neg Bool.false_ne_true] at left
    have failed : choice.outcome = .failed := by simpa [Choice.effective] using effective
    have refused : (perform (.redis (.getDel (refreshTokenKey jti))) choice met).1 =
        .error choice.what := by
      simp only [perform, failed]
      rfl
    refine .inl ⟨rfl, ?_, ?_, choice.what, answered.trans refused⟩ <;> rw [left, same]
  | true =>
    rw [effective, if_pos rfl] at left
    rw [left]
    exact .inr ⟨rfl, Keyspace.State.textless_getDel⟩

theorem spares_redis {jti : String} (command : Keyspace.Command)
    (other : ∀ key value ttl, command = .setex key value ttl → key ≠ refreshTokenKey jti) :
    Only (I := interface) (Op.SparesId jti) (redis command).run := by
  refine ⟨?_, fun _ => trivial⟩
  cases command with
  | setex key value ttl => exact other key value ttl rfl
  | _ => trivial

/-- Either a consume takes nothing, and fails; or the token is gone. -/
theorem executes_consume {jti : String} {reply : ServiceResult (Option Int)}
    (ran : Executes undisturbed (token_store.consume jti) world trace reply after) :
    ((∀ moment ∈ trace, Takes jti moment = false) ∧ after.redis = world.redis ∧
      after.tokens = world.tokens ∧ ∃ error, reply = .error error) ∨
    (∃ moment ∈ trace, Takes jti moment = true) ∧ Gone token_store jti after := by
  cases token_store with
  | InMemory =>
    obtain ⟨choice, met, rest, drifts, rfl, goes⟩ := Executes.of_call ran
    obtain ⟨rfl, rfl, rfl⟩ := Executes.of_done goes
    refine .inr ⟨⟨_, List.mem_cons_self, decide_eq_true rfl⟩, ?_⟩
    exact Function.update_self jti none (MapOp.fresh met.clock met.tokens)
  | Redis =>
    obtain ⟨choice, met, rest, ⟨same, _⟩, rfl, ⟨rfl, rfl, refused⟩ | ⟨result, body, rfl⟩⟩ :=
      executes_guarded ran
    · exact .inl ⟨List.forall_mem_singleton.mpr rfl, by rw [same], by rw [same], refused⟩
    · rcases Executes.of_fallible body with ⟨what, rfl, asked⟩ | ⟨earlier, later, middle, found, rfl, asked, goes⟩
      · obtain ⟨moment, rfl, ⟨spared, redis, tokens, _⟩ | ⟨taken, gone⟩⟩ := executes_getDel asked
        · refine .inl ⟨List.forall_mem_cons.mpr ⟨rfl, List.forall_mem_singleton.mpr spared⟩, ?_, ?_, _, rfl⟩
          · rw [redis, same]
          · rw [tokens, same]
        · exact .inr ⟨⟨moment, List.mem_cons_of_mem _ List.mem_cons_self, taken⟩, gone⟩
      · obtain ⟨moment, rfl, ⟨_, _, _, what, refused⟩ | ⟨taken, gone⟩⟩ := executes_getDel asked
        · cases refused
        · refine .inr ⟨⟨moment, List.mem_cons_of_mem _ (List.mem_append_left _ List.mem_cons_self), taken⟩, ?_⟩
          refine gone.executes goes (goes.only ?_)
          cases found with
          | none => trivial
          | some value =>
            refine Only.fallible trivial fun userId => ?_
            exact Only.fallible (spares_redis _ nofun) fun _ => trivial

/-! ## Tokens that are issued -/

theorem only_guarded {α : Type} {kind : Op → Prop} {body : Fallible interface String α}
    (asks : kind .redisAvailable) (only : Only (I := interface) kind body.run) :
    Only (I := interface) kind (RedisRefreshTokenStore.guarded body) := by
  refine ⟨asks, fun available => ?_⟩
  cases available with
  | false => trivial
  | true => exact only.bind fun result => by cases result <;> trivial

theorem spares_store {jti other : String} (different : other ≠ jti) (userId ttl : Int) :
    Only (I := interface) (Op.SparesId jti) (token_store.store other userId ttl) := by
  cases token_store with
  | InMemory => exact ⟨different, fun _ => trivial⟩
  | Redis =>
    refine only_guarded trivial ?_
    refine Only.fallible (spares_redis _ ?_) fun _ =>
      Only.fallible (spares_redis _ nofun) fun _ => spares_redis _ nofun
    rintro key value ttl same
    cases same
    exact fun equal => different (refreshTokenKey_injective equal)

theorem only_createToken {kind : Op → Prop} (times : kind .now) (draws : kind .random) (userId : Int)
    (username role : String) : Only (I := interface) kind (utils.createToken d userId username role) :=
  ⟨times, fun _ => ⟨times, fun _ => ⟨draws, fun _ => trivial⟩⟩⟩

theorem only_issueRefreshToken {kind : Op → Prop} (times : kind .now) (userId : Int) (jti : String) :
    Only (I := interface) kind (utils.issueRefreshToken d userId jti) :=
  ⟨times, fun _ => ⟨times, fun _ => trivial⟩⟩

/-- Issuing tokens spares every id that is not drawn. -/
theorem spares_issueTokenPair {jti : String} {user : User} {reply : Except Failure LoginResult}
    (ran : Executes undisturbed (AuthService.issueTokenPair d token_store user).run world trace reply after)
    (fresh : ∀ moment ∈ trace, Draws jti moment = false) : ∀ moment ∈ trace, moment.1.SparesId jti := by
  rcases Executes.of_fallible ran with ⟨failure, rfl, drawn⟩ | ⟨earlier, later, middle, other, rfl, drawn, goes⟩
  · obtain ⟨_, same, _⟩ := Executes.of_always drawn
    cases same
  · obtain ⟨_, same, drawn⟩ := Executes.of_always drawn
    cases same
    obtain ⟨choice, met, rest, _, rfl, ended⟩ := Executes.of_call drawn
    obtain ⟨rfl, rfl, rfl⟩ := Executes.of_done ended
    have undrawn : Draws jti (.random, choice, middle) = false := fresh _ List.mem_cons_self
    have different : utils.uuid choice.bytes ≠ jti := by simpa only [Draws, decide_eq_false_iff_not] using undrawn
    refine List.forall_mem_append.mpr ⟨List.forall_mem_singleton.mpr trivial, goes.only ?_⟩
    refine Only.fallible (Only.relabel (spares_store different _ _)) fun _ => ?_
    refine Only.fallible (Only.always (only_createToken trivial trivial _ _ _)) fun _ => ?_
    exact Only.fallible (Only.always (only_issueRefreshToken trivial _ _)) fun _ => trivial

/-! ## Refreshes -/

/-- The token that a refresh presents verifies; this is what it claims. -/
def Presents (d : Deployment) (payload : Json) (trace : Trace) (claims : utils.RefreshTokenClaims) :
    Prop :=
  ∃ token choice met rest, presentedToken payload = some token ∧ trace = (.now, choice, met) :: rest ∧
    utils.verified d met.clock token = some claims

theorem only_findBy {kind : Op → Prop} {key : UserKey} (reads : kind (.sql (.select key))) :
    Only (I := interface) kind (findBy key).run :=
  Only.fallible (Only.relabel ⟨reads, fun _ => trivial⟩) fun _ => trivial

/-- A refresh once its token has been consumed. -/
def refreshConsumed (d : Deployment) (token_store : RefreshTokenStore) (claims : utils.RefreshTokenClaims)
    (storedUserId : Option Int) : Action RefreshResult := do
  refuseIf (storedUserId ≠ some claims.user_id) 401 "refresh_token_revoked"
    "refresh token has been revoked"
  match ← findBy (.id claims.user_id) with
  | none => refuse 401 "invalid_refresh_token" "invalid refresh token"
  | some user =>
    if user.enabled then AuthService.issueTokenPair d token_store user
    else refuse 401 "invalid_refresh_token" "invalid refresh token"

theorem spares_refreshConsumed {jti : String} {claims : utils.RefreshTokenClaims}
    {storedUserId : Option Int} {reply : Except Failure RefreshResult}
    (ran : Executes undisturbed (refreshConsumed d token_store claims storedUserId).run world trace reply
      after)
    (fresh : ∀ moment ∈ trace, Draws jti moment = false) : ∀ moment ∈ trace, moment.1.SparesId jti := by
  rw [refreshConsumed, refuseIf_bind] at ran
  split at ran
  · obtain ⟨rfl, _⟩ := Executes.of_done ran
    exact fun _ member => by cases member
  · rcases Executes.of_fallible ran with ⟨failure, rfl, found⟩ | ⟨earlier, later, middle, user, rfl, found, goes⟩
    · exact found.only (only_findBy trivial)
    · refine List.forall_mem_append.mpr ⟨found.only (only_findBy trivial), ?_⟩
      have later_fresh := (List.forall_mem_append.mp fresh).2
      cases user with
      | none => exact goes.only trivial
      | some user =>
        dsimp only at goes
        split at goes
        · exact spares_issueTokenPair goes later_fresh
        · exact goes.only trivial

/-- The operation that takes a token out of the store. -/
def RefreshTokenStore.consuming : RefreshTokenStore → (jti : String) → Op
  | .Redis, jti => .redis (.getDel (refreshTokenKey jti))
  | .InMemory, jti => .map (.consume jti)

/-- The only token a refresh takes out of its store is this one. -/
def Op.Refreshes (token_store : RefreshTokenStore) (jti : String) (op : Op) : Prop :=
  op.plain = true ∨ op = token_store.consuming jti ∨ ∃ key, op = .sql (.select key)

theorem refreshes_redis {jti : String} (command : Keyspace.Command) (plain : (Op.redis command).plain = true) :
    Only (I := interface) (Op.Refreshes token_store jti) (redis command).run := ⟨.inl plain, fun _ => trivial⟩

theorem refreshes_consume (jti : String) :
    Only (I := interface) (Op.Refreshes token_store jti) (token_store.consume jti) := by
  cases token_store with
  | InMemory => exact ⟨.inr (.inl rfl), fun _ => trivial⟩
  | Redis =>
    refine only_guarded (.inl rfl) (Only.fallible ⟨.inr (.inl rfl), fun _ => trivial⟩ fun found => ?_)
    cases found with
    | none => trivial
    | some value =>
      refine Only.fallible ?_ fun userId => Only.fallible (refreshes_redis _ rfl) fun _ => trivial
      unfold RedisRefreshTokenStore.readUserId
      cases stoll value <;> trivial

theorem plain_issueTokenPair (user : User) :
    Only (I := interface) (fun op => op.plain = true) (AuthService.issueTokenPair d token_store user).run := by
  refine Only.fallible (Only.always ⟨rfl, fun _ => trivial⟩) fun jti => ?_
  refine Only.fallible (Only.relabel ?_) fun _ => ?_
  · cases token_store with
    | InMemory => exact ⟨rfl, fun _ => trivial⟩
    | Redis =>
      exact only_guarded rfl (Only.fallible ⟨rfl, fun _ => trivial⟩ fun _ =>
        Only.fallible ⟨rfl, fun _ => trivial⟩ fun _ => ⟨rfl, fun _ => trivial⟩)
  · refine Only.fallible (Only.always (only_createToken ?_ ?_ _ _ _)) fun _ => ?_
    · rfl
    · rfl
    · refine Only.fallible (Only.always (only_issueRefreshToken ?_ _ _)) fun _ => trivial
      rfl

theorem refreshes_refreshWith (claims : utils.RefreshTokenClaims) :
    Only (I := interface) (Op.Refreshes token_store claims.jti) (refreshWith d token_store claims).run := by
  refine Only.fallible (Only.relabel (refreshes_consume claims.jti)) fun stored => ?_
  rw [refuseIf_bind]
  split
  · trivial
  · refine Only.fallible (only_findBy (.inr (.inr ⟨_, rfl⟩))) fun user => ?_
    cases user with
    | none => trivial
    | some user =>
      dsimp only
      split
      · exact (plain_issueTokenPair user).mono fun _ plain => .inl plain
      · trivial

/-- A refresh fails and takes nothing, or its token is gone, unless its id is drawn anew. -/
theorem executes_refreshWith {claims : utils.RefreshTokenClaims} {reply : Except Failure RefreshResult}
    (ran : Executes undisturbed (refreshWith d token_store claims).run world trace reply after) :
    ((∀ moment ∈ trace, Takes claims.jti moment = false) ∧ after.redis = world.redis ∧
      after.tokens = world.tokens ∧ ∃ failure, reply = .error failure) ∨
    (∃ moment ∈ trace, Takes claims.jti moment = true) ∧
      ((∀ moment ∈ trace, Draws claims.jti moment = false) → Gone token_store claims.jti after) := by
  rcases Executes.of_fallible ran with ⟨failure, rfl, consumed⟩ | ⟨earlier, later, middle, stored, rfl, consumed, goes⟩
  · obtain ⟨result, _, consumed⟩ := Executes.of_relabel consumed
    rcases executes_consume consumed with ⟨spared, redis, tokens, _⟩ | ⟨taken, gone⟩
    · exact .inl ⟨spared, redis, tokens, failure, rfl⟩
    · exact .inr ⟨taken, fun _ => gone⟩
  · obtain ⟨result, same, consumed⟩ := Executes.of_relabel consumed
    rcases executes_consume consumed with ⟨_, _, _, error, rfl⟩ | ⟨⟨moment, member, taken⟩, gone⟩
    · cases same
    · refine .inr ⟨⟨moment, List.mem_append_left _ member, taken⟩, fun fresh => gone.executes goes ?_⟩
      have goes : Executes undisturbed (refreshConsumed d token_store claims stored).run middle later reply
        after := goes
      exact spares_refreshConsumed goes fun moment member => fresh moment (List.mem_append_right _ member)

/-! ## Changes of passwords -/

/-- The operation may take tokens away, but puts none. -/
def Op.Removes : Op → Prop
  | .redis (.del _) | .redis (.smembers _) | .map (.revokeUser _) => True
  | .redis _ | .map _ => False
  | _ => True

def Op.KeepsUsers : Op → Prop
  | .sql (.select _) => True
  | .sql _ => False
  | _ => True

/-- What is live afterwards was live before. -/
def Fewer (token_store : RefreshTokenStore) (before later : World) : Prop :=
  ∀ now jti userId, later.tokenAt now token_store jti = some userId →
    before.tokenAt now token_store jti = some userId

theorem fewer_perform {op : Op} (removes : op.Removes) (choice : Choice) (w : World) :
    Fewer token_store w (perform op choice w).2 := by
  intro now jti userId live
  cases op with
  | redis command =>
    rw [perform_redis] at live
    cases token_store with
    | InMemory => exact live
    | Redis =>
      split at live
      · cases command with
        | del key =>
          by_cases same : refreshTokenKey jti = key
          · subst same
            simp [World.tokenAt, Keyspace.Command.run, Keyspace.State.textAt] at live
          · have other : ((Keyspace.Command.del key).run w.clock w.redis).2.live now
                (refreshTokenKey jti) = w.redis.live now (refreshTokenKey jti) :=
              Keyspace.State.live_of_ne same
            simpa only [World.tokenAt, Keyspace.State.textAt, other] using live
        | smembers key =>
          simp only [Keyspace.Command.run] at live
          split at live <;> exact live
        | _ => exact removes.elim
      · exact live
  | sql s =>
    rw [perform_sql] at live
    cases token_store <;> exact live
  | map op =>
    cases token_store with
    | Redis => exact live
    | InMemory =>
      cases op with
      | revokeUser other =>
        obtain ⟨entry, fresh, same⟩ := Option.map_eq_some_iff.mp live
        obtain ⟨kept, young⟩ := Option.filter_eq_some_iff.mp fresh
        have there : w.tokens jti = some entry := (Option.filter_eq_some_iff.mp kept).1
        exact Option.map_eq_some_iff.mpr ⟨entry, Option.filter_eq_some_iff.mpr ⟨there, young⟩, same⟩
      | _ => exact removes.elim
  | _ => exact live

theorem keepsUsers_perform {op : Op} (keeps : op.KeepsUsers) (choice : Choice) (w : World) :
    (perform op choice w).2.users = w.users := by
  cases op with
  | redis command => rw [perform_redis]
  | sql s =>
    cases s with
    | select key =>
      rw [perform_sql]
      exact ite_self _
    | _ => exact keeps.elim
  | _ => rfl

/-- The operation changes a user, or which tokens are live at this time. -/
def Changes (token_store : RefreshTokenStore) (now : TimePoint) (moment : Op × Choice × World) : Prop :=
  (perform moment.1 moment.2.1 moment.2.2).2.users ≠ moment.2.2.users ∨
    ∃ jti, (perform moment.1 moment.2.1 moment.2.2).2.tokenAt now token_store jti ≠
      moment.2.2.tokenAt now token_store jti

/-- The users, and the tokens that are live at this time, are as before. -/
def Unchanged (token_store : RefreshTokenStore) (now : TimePoint) (before later : World) : Prop :=
  later.users = before.users ∧
    ∀ jti, later.tokenAt now token_store jti = before.tokenAt now token_store jti

theorem unchanged_of_drift {met : World} (now : TimePoint) (drifts : undisturbed.drift world met) :
    Unchanged token_store now world met := by
  rw [drifts.1]
  cases token_store <;> exact ⟨rfl, fun _ => rfl⟩

theorem fewer_of_drift {met : World} (drifts : undisturbed.drift world met) :
    Fewer token_store world met := by
  intro now jti userId live
  rw [← (unchanged_of_drift now drifts).2 jti]
  exact live

theorem unchanged_executes {α : Type} {program : Program α} {value : α} {now : TimePoint}
    (ran : Executes undisturbed program world trace value after)
    (none : ∀ moment ∈ trace, ¬ Changes token_store now moment) :
    Unchanged token_store now world after := by
  induction ran with
  | done => exact ⟨rfl, fun _ => rfl⟩
  | @call op next choice world met after trace value drifts ran ih =>
    obtain ⟨first, rest⟩ := List.forall_mem_cons.mp none
    simp only [Changes, not_or, not_exists, not_not] at first
    have left := ih rest
    have drifted : Unchanged token_store now world met := unchanged_of_drift now drifts
    refine ⟨left.1.trans (first.1.trans drifted.1), fun jti => ?_⟩
    exact (left.2 jti).trans ((first.2 jti).trans (drifted.2 jti))

/-- A token that an operation takes away is missed at the end. -/
theorem changed_tokens {α : Type} {program : Program α} {value : α} {now : TimePoint} {jti : String}
    {moment : Op × Choice × World} (ran : Executes undisturbed program world trace value after)
    (only : ∀ moment ∈ trace, moment.1.Removes) (member : moment ∈ trace)
    (changes : (perform moment.1 moment.2.1 moment.2.2).2.tokenAt now token_store jti ≠
      moment.2.2.tokenAt now token_store jti) :
    after.tokenAt now token_store jti ≠ world.tokenAt now token_store jti := by
  obtain ⟨_, around⟩ := ran.related (R := Fewer token_store) only
    (fun _ _ _ _ live => live) (fun first second now jti userId live => first _ _ _ (second _ _ _ live))
    (fun _ _ => fewer_of_drift) fun op choice met removes => fewer_perform removes choice met
  obtain ⟨before, behind⟩ := around moment.1 moment.2.1 moment.2.2 member
  have step : Fewer token_store moment.2.2 (perform moment.1 moment.2.1 moment.2.2).2 :=
    fewer_perform (only moment member) moment.2.1 moment.2.2
  intro same
  cases live : moment.2.2.tokenAt now token_store jti with
  | none =>
    rw [live] at changes
    obtain ⟨userId, put⟩ := Option.ne_none_iff_exists'.mp changes
    cases live.symm.trans (step now jti userId put)
  | some userId =>
    have started := before now jti userId live
    have ended := behind now jti userId (same.trans started)
    exact changes (ended.trans live.symm)

theorem executes_refuseIf {condition : Bool} {status : Nat} {code message : String}
    {reply : Except Failure Unit} {trace : List (interface.Op × Choice × World)}
    (ran : Executes undisturbed (refuseIf condition status code message).run world trace reply after) :
    trace = [] ∧ after = world ∧ (condition = true → ∃ failure, reply = .error failure) := by
  cases condition with
  | false =>
    obtain ⟨rfl, rfl, rfl⟩ := Executes.of_done ran
    exact ⟨rfl, rfl, fun refused => by cases refused⟩
  | true =>
    obtain ⟨rfl, rfl, rfl⟩ := Executes.of_done ran
    exact ⟨rfl, rfl, fun _ => ⟨_, rfl⟩⟩

/-- Only the last operation, if any, changes users. -/
def UsersLast (world after : World) (trace : Trace) : Prop :=
  ∃ earlier last, trace = earlier ++ last ∧ (∀ moment ∈ earlier, moment.1.KeepsUsers) ∧
    (last = [] ∨ ∃ moment, last = [moment] ∧ moment.2.2.users = world.users ∧
      after = (perform moment.1 moment.2.1 moment.2.2).2)

theorem UsersLast.of_keeps (keeps : ∀ moment ∈ trace, moment.1.KeepsUsers) :
    UsersLast world after trace := ⟨trace, [], (List.append_nil trace).symm, keeps, .inl rfl⟩

theorem UsersLast.behind {middle : World} {front : Trace} (last : UsersLast middle after trace)
    (keeps : ∀ moment ∈ front, moment.1.KeepsUsers) (same : middle.users = world.users) :
    UsersLast world after (front ++ trace) := by
  obtain ⟨earlier, last, rfl, keeps', ends⟩ := last
  refine ⟨front ++ earlier, last, (List.append_assoc ..).symm, List.forall_mem_append.mpr ⟨keeps, keeps'⟩, ?_⟩
  rw [← same]
  exact ends

/-- A change of the users is there at the end. -/
theorem UsersLast.changed {moment : Op × Choice × World} (last : UsersLast world after trace)
    (member : moment ∈ trace)
    (changes : (perform moment.1 moment.2.1 moment.2.2).2.users ≠ moment.2.2.users) :
    after.users ≠ world.users := by
  obtain ⟨earlier, last, rfl, keeps, ends⟩ := last
  rcases List.mem_append.mp member with member | member
  · exact absurd (keepsUsers_perform (keeps moment member) _ _) changes
  · rcases ends with rfl | ⟨_, rfl, same, rfl⟩
    · cases member
    · rw [List.mem_singleton.mp member] at changes
      rw [← same]
      exact changes

theorem users_executes {α : Type} {program : Program α} {value : α}
    (ran : Executes undisturbed program world trace value after) (only : Only Op.KeepsUsers program) :
    after.users = world.users :=
  ran.keeps only (fun _ _ drifts => by rw [drifts.1]) fun _ choice met keeps =>
    keepsUsers_perform keeps choice met

theorem only_delEach {kind : Op → Prop} (deletes : ∀ key, kind (.redis (.del key))) (jtis : List String) :
    Only (I := interface) kind (RedisRefreshTokenStore.delEach jtis).run := by
  induction jtis with
  | nil => trivial
  | cons jti rest ih => exact Only.fallible ⟨deletes _, fun _ => trivial⟩ fun _ => ih

theorem only_revokeUser {kind : Op → Prop} (asks : kind .redisAvailable)
    (reads : ∀ key, kind (.redis (.smembers key))) (deletes : ∀ key, kind (.redis (.del key)))
    (revokes : ∀ userId, kind (.map (.revokeUser userId))) (userId : Int) :
    Only (I := interface) kind (token_store.revokeUser userId) := by
  cases token_store with
  | InMemory => exact ⟨revokes userId, fun _ => trivial⟩
  | Redis =>
    refine only_guarded asks ?_
    refine Only.fallible ⟨reads _, fun _ => trivial⟩ fun members => ?_
    refine Only.fallible (only_delEach deletes members) fun _ => ?_
    exact Only.fallible ⟨deletes _, fun _ => trivial⟩ fun _ => trivial

theorem only_hashPassword {kind : Op → Prop} (salts : kind .salt) (plain : String) :
    Only (I := interface) kind (AuthService.hashPassword d plain).run := by
  refine Only.fallible (Only.always ⟨salts, fun _ => trivial⟩) fun salt => ?_
  exact Only.fallible trivial fun _ => trivial

theorem only_getProfile {kind : Op → Prop} (reads : ∀ key, kind (.sql (.select key))) (userId : Int) :
    Only (I := interface) kind (AuthService.getProfile userId).run := by
  refine Only.fallible (by unfold refuseIf; split <;> trivial) fun _ => ?_
  refine Only.fallible (only_findBy (reads _)) fun user => ?_
  cases user <;> trivial

theorem usersLast_changeWith {userId : Int} {newPassword : String} {reply : Except Failure Unit}
    (ran : Executes undisturbed (changeWith d token_store userId newPassword).run world trace reply after) :
    UsersLast world after trace := by
  have revokes : Only Op.KeepsUsers (service (token_store.revokeUser userId)).run :=
    Only.relabel (only_revokeUser trivial (fun _ => trivial) (fun _ => trivial) (fun _ => trivial) userId)
  have hashes : Only Op.KeepsUsers (AuthService.hashPassword d newPassword).run :=
    only_hashPassword trivial newPassword
  rcases Executes.of_fallible ran with ⟨failure, rfl, revoked⟩ | ⟨first, rest, middle, _, rfl, revoked, goes⟩
  · exact .of_keeps (revoked.only revokes)
  refine UsersLast.behind ?_ (revoked.only revokes) (users_executes revoked revokes)
  rcases Executes.of_fallible goes with ⟨failure, rfl, hashed⟩ | ⟨first, rest, middle, stored, rfl, hashed, goes⟩
  · exact .of_keeps (hashed.only hashes)
  refine UsersLast.behind ?_ (hashed.only hashes) (users_executes hashed hashes)
  -- The UPDATE is the last operation, however it ends.
  have single : ∀ {trace : Trace} {middle after : World} {reply : Except Failure Bool},
      Executes undisturbed (repo (.updatePassword userId stored)).run middle trace reply after →
      UsersLast middle after trace := by
    intro trace middle after reply updated
    obtain ⟨result, _, updated⟩ := Executes.of_relabel updated
    obtain ⟨choice, met, drifts, rfl, _, rfl⟩ := Executes.of_perform updated
    exact ⟨[], _, rfl, (fun _ member => by cases member), .inr ⟨_, rfl, by rw [drifts.1], rfl⟩⟩
  rcases Executes.of_fallible goes with ⟨failure, rfl, updated⟩ | ⟨first, rest, middle, updated, rfl, changed, ended⟩
  · exact single updated
  · obtain ⟨rfl, rfl, _⟩ := executes_refuseIf ended
    rw [List.append_nil]
    exact single changed

def Op.Reads : Op → Prop
  | .sql (.select _) => True
  | _ => False

theorem Op.Reads.keepsUsers {op : Op} (reads : op.Reads) : op.KeepsUsers := by
  cases op with
  | sql s => cases s <;> exact reads
  | _ => trivial

theorem unchanged_of_reads {moment : Op × Choice × World} (reads : moment.1.Reads) (now : TimePoint) :
    ¬ Changes token_store now moment := by
  obtain ⟨op, choice, met⟩ := moment
  have same : (perform op choice met).2 = met := by
    cases op with
    | sql s =>
      cases s with
      | select key => exact (perform_sql _ _ _).trans (by simp [UserStmt.run])
      | _ => exact reads.elim
    | _ => exact reads.elim
  rintro (users | ⟨jti, tokens⟩)
  · exact users (congrArg World.users same)
  · exact tokens (congrArg (World.tokenAt · now token_store jti) same)

/-- A change of a password fails after looking at the user, or goes on to revoke tokens. -/
theorem executes_changeFor {userId : Int} {oldPassword newPassword : String}
    {reply : Except Failure Unit}
    (ran : Executes undisturbed (changeFor d token_store userId oldPassword newPassword).run world trace
      reply after) :
    (∃ failure, reply = .error failure) ∧ (∀ moment ∈ trace, moment.1.Reads) ∨
    ∃ earlier later middle, trace = earlier ++ later ∧ (∀ moment ∈ earlier, moment.1.Reads) ∧
      middle.users = world.users ∧
      Executes undisturbed (changeWith d token_store userId newPassword).run middle later reply after := by
  have reads : Only Op.Reads (AuthService.getProfile userId).run := only_getProfile (fun _ => trivial) userId
  have keeps : Only Op.KeepsUsers (AuthService.getProfile userId).run :=
    only_getProfile (fun _ => trivial) userId
  rcases Executes.of_fallible ran with ⟨failure, rfl, looked⟩ | ⟨earlier, later, middle, user, rfl, looked, verifies⟩
  · exact .inl ⟨⟨failure, rfl⟩, looked.only reads⟩
  have users : middle.users = world.users := users_executes looked keeps
  rcases Executes.of_fallible verifies with ⟨failure, rfl, fails⟩ | ⟨first, second, next, correct, rfl, given, decides⟩
  · obtain ⟨rfl, _⟩ := Executes.of_given fails
    rw [List.append_nil]
    exact .inl ⟨⟨failure, rfl⟩, looked.only reads⟩
  obtain ⟨rfl, _, rfl⟩ := Executes.of_given given
  rcases Executes.of_fallible decides with ⟨failure, rfl, fails⟩ | ⟨third, rest, last, _, rfl, passes, goes⟩
  · obtain ⟨rfl, _⟩ := executes_refuseIf fails
    rw [List.nil_append, List.append_nil]
    exact .inl ⟨⟨failure, rfl⟩, looked.only reads⟩
  obtain ⟨rfl, rfl, _⟩ := executes_refuseIf passes
  exact .inr ⟨earlier, rest, _, rfl, looked.only reads, users, goes⟩

theorem usersLast_changeFor {userId : Int} {oldPassword newPassword : String}
    {reply : Except Failure Unit}
    (ran : Executes undisturbed (changeFor d token_store userId oldPassword newPassword).run world trace
      reply after) :
    UsersLast world after trace := by
  rcases executes_changeFor ran with ⟨_, reads⟩ | ⟨earlier, later, middle, rfl, reads, users, goes⟩
  · exact .of_keeps fun moment member => (reads moment member).keepsUsers
  · exact (usersLast_changeWith goes).behind (fun moment member => (reads moment member).keepsUsers) users

theorem removes_changeFor (userId : Int) (oldPassword newPassword : String) :
    Only Op.Removes (changeFor d token_store userId oldPassword newPassword).run := by
  refine Only.fallible (only_getProfile (fun _ => trivial) userId) fun user => ?_
  refine Only.fallible trivial fun correct => ?_
  refine Only.fallible (by unfold refuseIf; split <;> trivial) fun _ => ?_
  refine Only.fallible (Only.relabel (only_revokeUser trivial (fun _ => trivial) (fun _ => trivial)
    (fun _ => trivial) userId)) fun _ => ?_
  refine Only.fallible (only_hashPassword trivial newPassword) fun stored => ?_
  refine Only.fallible (Only.relabel ⟨trivial, fun _ => trivial⟩) fun updated => ?_
  cases updated <;> trivial

/-- What an operation changes is not as before at the end. -/
theorem changed_changeFor {userId : Int} {oldPassword newPassword : String} {now : TimePoint}
    {reply : Except Failure Unit} {moment : Op × Choice × World}
    (ran : Executes undisturbed (changeFor d token_store userId oldPassword newPassword).run world trace
      reply after)
    (member : moment ∈ trace) (changes : Changes token_store now moment) :
    ¬ Unchanged token_store now world after := by
  rintro ⟨users, tokens⟩
  rcases changes with changes | ⟨jti, changes⟩
  · exact (usersLast_changeFor ran).changed member changes users
  · exact changed_tokens ran (ran.only (removes_changeFor userId oldPassword newPassword)) member changes
      (tokens jti)

end Text2Image.Auth
