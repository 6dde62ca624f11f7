import Text2Image.Services.StoreRuns
import Text2Image.Services.TokenLineage

/-! What descends from the time before a password was changed: the tokens there were, what a call
at work then still stores, and whatever is refreshed from these.
-/

set_option autoImplicit false

namespace Text2Image.Auth

open Concurrency Concurrency.Prog Concurrency.System

variable {d : Deployment} {token_store : RefreshTokenStore}

/-! ## Tokens and their users -/

/-- The key an operation stores a token under, and the user it is read back as. -/
def Op.stored (token_store : RefreshTokenStore) : Op → Option (String × Option Int)
  | .redis (.setex key text ttl) =>
    if token_store = .Redis ∧ 0 < ttl then some (key, stoll text) else none
  | .map (.store jti userId _) =>
    if token_store = .InMemory then some (refreshTokenKey jti, some userId) else none
  | _ => none

/-- What the operation stores if it takes effect. -/
def putting (token_store : RefreshTokenStore) (op : Op) (choice : Choice) : Option (String × Option Int) :=
  match op with
  | .redis _ => if choice.effective then op.stored token_store else none
  | _ => op.stored token_store

/-- The key of the token an answer has found, and its user. -/
def found (token_store : RefreshTokenStore) : (op : Op) → Answer op → Option (String × Option Int)
  | .redis (.getDel key), .ok (some text) => if token_store = .Redis then some (key, stoll text) else none
  | .map (.consume jti), some userId =>
    if token_store = .InMemory then some (refreshTokenKey jti, some userId) else none
  | _, _ => none

/-- The user a consume would now answer. -/
def World.accepts (w : World) (token_store : RefreshTokenStore) (jti : String) : Option Int :=
  w.tokenAt w.clock token_store jti

theorem accepts_redis {w : World} {jti : String} {userId : Int} :
    w.accepts .Redis jti = some userId ↔
      ∃ text, w.redis.textAt w.clock (refreshTokenKey jti) = some (some text) ∧ stoll text = some userId := by
  simp [World.accepts, World.tokenAt, Option.bind_eq_some_iff, Option.join_eq_some_iff]

theorem accepts_map {w : World} {jti : String} {userId : Int} :
    w.accepts .InMemory jti = some userId ↔
      ∃ entry, w.tokens jti = some entry ∧ w.clock < entry.expires_at ∧ entry.user_id = userId := by
  simp [World.accepts, World.tokenAt, MapOp.fresh, Option.filter_eq_some_iff, and_assoc]

/-- A token is accepted where an operation has just put it, or it was before. -/
theorem accepts_perform {op : Op} {choice : Choice} {w : World} {jti : String} {userId : Int}
    (accepted : (perform op choice w).2.accepts token_store jti = some userId) :
    putting token_store op choice = some (refreshTokenKey jti, some userId) ∨
      (w.accepts token_store jti = some userId ∧
        ∀ user, putting token_store op choice ≠ some (refreshTokenKey jti, user)) := by
  cases token_store with
  | Redis =>
    obtain ⟨text, there, read⟩ := accepts_redis.mp accepted
    rw [perform_clock] at there
    cases op with
    | redis command =>
      rw [perform_redis] at there
      simp only [putting]
      cases effective : choice.effective with
      | false =>
        rw [effective] at there
        exact .inr ⟨accepts_redis.mpr ⟨text, there, read⟩, by simp⟩
      | true =>
        rw [effective] at there
        -- the text is there since this command, or it was there and is not written over
        rcases Keyspace.State.textAt_run there with ⟨ttl, rfl, positive⟩ | ⟨before, other⟩
        · left
          simp [Op.stored, positive, read]
        · refine .inr ⟨accepts_redis.mpr ⟨text, before, read⟩, fun user put => ?_⟩
          cases command with
          | setex key value ttl =>
            simp only [Op.stored, if_true, true_and, Option.ite_none_right_eq_some, Option.some.injEq,
              Prod.mk.injEq] at put
            obtain ⟨positive, rfl, _⟩ := put
            exact other value ttl positive rfl
          | _ => simp [Op.stored] at put
    | sql s =>
      rw [perform_sql] at there
      exact .inr ⟨accepts_redis.mpr ⟨text, there, read⟩, by simp [putting, Op.stored]⟩
    | map op =>
      refine .inr ⟨accepts_redis.mpr ⟨text, there, read⟩, ?_⟩
      cases op <;> simp [putting, Op.stored]
    | now | random | salt | redisAvailable =>
      exact .inr ⟨accepts_redis.mpr ⟨text, there, read⟩, by simp [putting, Op.stored]⟩
  | InMemory =>
    obtain ⟨entry, there, fresh, own⟩ := accepts_map.mp accepted
    rw [perform_clock] at fresh
    cases op with
    | map op =>
      have kept : ∀ {there : w.tokens jti = some entry}
          {other : ∀ user, putting .InMemory (.map op) choice ≠ some (refreshTokenKey jti, user)},
          w.accepts .InMemory jti = some userId ∧
            ∀ user, putting .InMemory (.map op) choice ≠ some (refreshTokenKey jti, user) := by
        intro there other
        exact ⟨accepts_map.mpr ⟨entry, there, fresh, own⟩, other⟩
      cases op with
      | store other user ttl =>
        have became : Function.update w.tokens other (some ⟨user, Chrono.after w.clock (max ttl 1)⟩) jti =
            some entry := there
        by_cases same : jti = other
        · subst same
          rw [Function.update_self] at became
          cases became
          left
          simp only [putting, Op.stored, if_true, ← own]
        · rw [Function.update_of_ne same] at became
          refine .inr ⟨accepts_map.mpr ⟨entry, became, fresh, own⟩, fun user put => ?_⟩
          simp only [putting, Op.stored, if_true, Option.some.injEq, Prod.mk.injEq] at put
          exact same (refreshTokenKey_injective put.1).symm
      | consume other =>
        have became : Function.update (MapOp.fresh w.clock w.tokens) other none jti = some entry := there
        by_cases same : jti = other
        · rw [same, Function.update_self] at became
          cases became
        · rw [Function.update_of_ne same] at became
          have before := (Option.filter_eq_some_iff.mp became).1
          exact .inr ⟨accepts_map.mpr ⟨entry, before, fresh, own⟩, by simp [putting, Op.stored]⟩
      | revoke other =>
        have became : Function.update w.tokens other none jti = some entry := there
        by_cases same : jti = other
        · rw [same, Function.update_self] at became
          cases became
        · rw [Function.update_of_ne same] at became
          exact .inr ⟨accepts_map.mpr ⟨entry, became, fresh, own⟩, by simp [putting, Op.stored]⟩
      | revokeUser other =>
        have before := (Option.filter_eq_some_iff.mp there).1
        exact .inr ⟨accepts_map.mpr ⟨entry, before, fresh, own⟩, by simp [putting, Op.stored]⟩
    | redis command =>
      rw [perform_redis] at there
      refine .inr ⟨accepts_map.mpr ⟨entry, there, fresh, own⟩, ?_⟩
      cases command <;> simp [putting, Op.stored]
    | sql s =>
      rw [perform_sql] at there
      exact .inr ⟨accepts_map.mpr ⟨entry, there, fresh, own⟩, by simp [putting, Op.stored]⟩
    | now | random | salt | redisAvailable =>
      exact .inr ⟨accepts_map.mpr ⟨entry, there, fresh, own⟩, by simp [putting, Op.stored]⟩

theorem accepts_env {event : Env} {w : World} {jti : String} {userId : Int}
    (accepted : (event.apply w).accepts token_store jti = some userId) :
    w.accepts token_store jti = some userId := by
  cases event with
  | setEnabled other enabled => exact accepted
  | passTime ticks =>
    cases token_store with
    | Redis =>
      obtain ⟨text, there, read⟩ := accepts_redis.mp accepted
      have forward : w.clock ≤ w.clock + ticks := Int.le_add_of_nonneg_right (Int.natCast_nonneg ticks)
      exact accepts_redis.mpr ⟨text, Keyspace.State.textAt_later forward there, read⟩
    | InMemory =>
      obtain ⟨entry, there, fresh, own⟩ := accepts_map.mp accepted
      have forward : w.clock ≤ w.clock + ticks := Int.le_add_of_nonneg_right (Int.natCast_nonneg ticks)
      exact accepts_map.mpr ⟨entry, there, Int.lt_of_le_of_lt forward fresh, own⟩

/-- What an answer has found was accepted. -/
theorem accepts_of_found {op : Op} {choice : Choice} {w : World} {jti : String} {userId : Int}
    (finds : found token_store op (perform op choice w).1 = some (refreshTokenKey jti, some userId)) :
    w.accepts token_store jti = some userId := by
  generalize answered : (perform op choice w).1 = answer at finds
  unfold found at finds
  split at finds
  · rename_i key text
    simp only [Option.ite_none_right_eq_some, Option.some.injEq, Prod.mk.injEq] at finds
    obtain ⟨rfl, rfl, read⟩ := finds
    have replied := (redis_answered answered).1
    refine accepts_redis.mpr ⟨text, ?_, read⟩
    simp only [Keyspace.Command.run] at replied
    split at replied
    · rename_i there
      rw [there]
      exact congrArg some (Except.ok.inj replied)
    · cases replied
    · cases replied
  · rename_i other user
    simp only [Option.ite_none_right_eq_some, Option.some.injEq, Prod.mk.injEq] at finds
    obtain ⟨rfl, same, rfl⟩ := finds
    obtain rfl := refreshTokenKey_injective same
    exact answered
  · cases finds

/-! ## What descends from before -/

/-- An answer by which a call may store a token: the row a login checks, or the token a refresh
presents.
-/
def authorizes (token_store : RefreshTokenStore) : (op : Op) → Answer op → Bool
  | .sql (.select _), .ok (some _) => true
  | op, answer => (found token_store op answer).isSome

def changedUser : (op : Op) → Answer op → Option Int
  | .sql (.updatePassword userId _), .ok true => some userId
  | _, _ => none

/-- The first operation of `revokeUser` on the tokens. -/
def Op.revokes (userId : Int) : Op → Bool
  | .redis (.smembers key) => key = userRefreshSetKey userId
  | .map (.revokeUser other) => other = userId
  | _ => false

section Events

variable (event : (backend d token_store).Event)

def stored : Option (String × Option Int) := putting token_store event.op event.choice

/-- The event has changed the user's password. -/
def changing (userId : Int) : Bool := changedUser event.op event.answer = some userId

/-- The process has been given what it may store a token by. -/
def acquiring (pid : Nat) : Bool := event.pid = pid && authorizes token_store event.op event.answer

/-- The process has begun to revoke the user's tokens. -/
def revoking (pid : Nat) (userId : Int) : Bool := event.pid = pid && Op.revokes userId event.op

/-- A token of the user has been stored. -/
def storing (userId : Int) : Bool := (stored event).any fun token => token.2 = some userId

end Events

/-- Tokens, by their keys, and processes that may store one. -/
structure Lines where
  tokens : String → Bool
  holders : Nat → Bool

def Lines.none : Lines := ⟨fun _ => false, fun _ => false⟩

/-- A holder's token belongs to the lines, any other token does not; who finds a token of the
lines is a holder.
-/
def Lines.next (lines : Lines) (event : (backend d token_store).Event) : Lines where
  tokens key := ((stored event).filter (·.1 = key)).elim (lines.tokens key) fun _ => lines.holders event.pid
  holders pid := lines.holders pid ||
    (event.pid = pid && (found token_store event.op event.answer).any fun token => lines.tokens token.1)

/-- All there is: every token, and everyone who has been authorized. -/
def Lines.whole (log : List (backend d token_store).Entry) : Lines where
  tokens _ := true
  holders pid := log.any (Entry.performs fun event => acquiring event pid)

/-- What descends from before this process changed the user's password. -/
def Lines.since (changer : Nat) (userId : Int) : List (backend d token_store).Entry → Lines
  | [] => .none
  | .performed event :: past =>
    if event.pid = changer ∧ changing event userId = true then .whole past
    else (Lines.since changer userId past).next event
  | _ :: past => Lines.since changer userId past

/-! ## By what a token is stored -/

/-- A row that was read by its id has this id. -/
def NamesRow (taken : Taken interface) : Prop :=
  ∀ id row, taken = ⟨.sql (.select (.id id)), .ok (some row)⟩ → row.id = id

/-- A token is stored for the user of each token that was found. -/
def Granted (token_store : RefreshTokenStore) : Protocol interface := fun past op =>
  (∀ taken ∈ past, NamesRow taken) → ∀ key userId, op.stored token_store = some (key, some userId) →
    ∀ taken ∈ past, ∀ token, found token_store taken.op taken.answer = some token →
      ∃ jti, token = (refreshTokenKey jti, some userId)

/-- The operation takes a token out of its store. -/
def Op.Consumes : Op → Prop
  | .redis (.getDel _) | .map (.consume _) => True
  | _ => False

theorem consumes_of_found {op : Op} {answer : Answer op} {token : String × Option Int}
    (finds : found token_store op answer = some token) : op.Consumes := by
  unfold found at finds
  split at finds
  · trivial
  · trivial
  · cases finds

theorem stored_of_not_stores {op : Op} (not : ¬ op.Stores) : op.stored token_store = none := by
  cases op with
  | redis command =>
    cases command with
    | setex key text ttl => exact absurd rfl not
    | _ => rfl
  | map op =>
    cases op with
    | store jti userId ttl => exact absurd rfl not
    | _ => rfl
  | _ => rfl

theorem granted_of_unstored {past : List (Taken interface)} {op : Op} (none : op.stored token_store = none) :
    Granted token_store past op := by
  intro _ key userId stores
  rw [none] at stores
  cases stores

theorem granted_of_without {α : Type} {program : Program α} {past : List (Taken interface)}
    (without : Without Op.Stores program) :
    program.Follows (Granted token_store) (fun _ _ => True) past :=
  (without.follows past).weaken fun _ _ not => granted_of_unstored (stored_of_not_stores not)

/-- Who has found no token is not held to one. -/
theorem granted_of_unfound {past : List (Taken interface)} {op : Op}
    (none : ∀ taken ∈ past, ¬ Op.Consumes taken.op) : Granted token_store past op :=
  fun _ _ _ _ taken member _ finds => absurd (consumes_of_found finds) (none taken member)

/-- The operation stores for this user only, and takes nothing. -/
def Op.Issues (token_store : RefreshTokenStore) (id : Int) (op : Op) : Prop :=
  ¬ op.Consumes ∧ ∀ key userId, op.stored token_store = some (key, some userId) →
    userId = id ∨ (token_store = .Redis ∧ stoll (toString id) = some userId)

theorem issues_store (jti : String) (userId ttl : Int) :
    Only (I := interface) (Op.Issues token_store userId) (token_store.store jti userId ttl) := by
  cases token_store with
  | InMemory =>
    refine ⟨⟨id, fun key other stores => ?_⟩, fun _ => trivial⟩
    simp only [Op.stored, if_true, Option.some.injEq, Prod.mk.injEq] at stores
    exact .inl stores.2.symm
  | Redis =>
    refine only_guarded ⟨id, nofun⟩ ?_
    refine Only.fallible (only_redis ⟨id, fun key other stores => ?_⟩) fun _ =>
      Only.fallible (only_redis ⟨id, nofun⟩) fun _ => only_redis ⟨id, nofun⟩
    simp only [Op.stored, true_and, Option.ite_none_right_eq_some, Option.some.injEq, Prod.mk.injEq] at stores
    exact .inr ⟨rfl, stores.2.2⟩

/-- Beside the store, issuing tokens takes the time and draws ids. -/
theorem only_issueTokenPair {kind : Op → Prop} {user : User} (times : kind .now) (draws : kind .random)
    (stores : ∀ jti ttl, Only (I := interface) kind (token_store.store jti user.id ttl)) :
    Only (I := interface) kind (AuthService.issueTokenPair d token_store user).run := by
  refine Only.fallible (Only.always ⟨draws, fun _ => trivial⟩) fun jti => ?_
  refine Only.fallible (Only.relabel (stores jti _)) fun _ => ?_
  refine Only.fallible (Only.always (only_createToken times draws _ _ _)) fun _ => ?_
  exact Only.fallible (Only.always (only_issueRefreshToken times _ _)) fun _ => trivial

/-- A login reads a row, and may issue tokens for it. -/
theorem only_login {kind : Op → Prop} (reads : ∀ key, kind (.sql (.select key)))
    (issues : ∀ user, Only (I := interface) kind (AuthService.issueTokenPair d token_store user).run)
    (payload : Json) : Only (I := interface) kind (AuthService.login d token_store payload).run := by
  rcases login_run d token_store payload with ⟨failure, _, ends⟩ | ⟨credentials, _, goes⟩
  · rw [ends]
    trivial
  · rw [goes]
    refine Only.fallible (only_findBy (reads _)) fun user => ?_
    cases user with
    | none => trivial
    | some user =>
      refine Only.fallible (I := interface) trivial fun correct => ?_
      cases correct with
      | false => trivial
      | true => exact issues user

theorem issues_issueTokenPair (user : User) : Only (I := interface) (Op.Issues token_store user.id)
    (AuthService.issueTokenPair d token_store user).run :=
  only_issueTokenPair ⟨id, nofun⟩ ⟨id, nofun⟩ fun jti ttl => issues_store jti user.id ttl

theorem granted_login (payload : Json) : (AuthService.login d token_store payload).run.Follows
    (Granted token_store) (fun _ _ => True) [] := by
  -- a login presents no token, so it is held to none
  have takesNothing : Only (I := interface) (fun op => ¬ Op.Consumes op)
      (AuthService.login d token_store payload).run :=
    only_login (fun _ => id) (fun user => (issues_issueTokenPair user).mono fun _ issues => issues.1) payload
  refine (@Only.grows _ _ _ _ takesNothing [] [] nofun).weaken ?_
  rintro past op ⟨_, added, rfl, none⟩
  rw [List.append_nil]
  exact granted_of_unfound none

/-- A refresh that has found its token stores one for the same user. -/
theorem granted_issueTokenPair {past : List (Taken interface)} {row : UserRow} {jti : String} {id : Int}
    (read : token_store = .Redis → stoll (toString id) = some id)
    (finds : ∀ taken ∈ past, ∀ token, found token_store taken.op taken.answer = some token →
      token = (refreshTokenKey jti, some id))
    (row_read : (⟨.sql (.select (.id id)), .ok (some row)⟩ : Taken interface) ∈ past) :
    (AuthService.issueTokenPair d token_store (rowToUser row)).run.Follows (Granted token_store)
      (fun _ _ => True) past := by
  refine (@Only.grows _ _ _ _ (@issues_issueTokenPair d _ (rowToUser row)) past [] nofun).weaken ?_
  rintro later op ⟨⟨_, issues⟩, added, rfl, all⟩ credible key userId stores taken member token found
  have own : row.id = id := credible _ (List.mem_append_right _ row_read) id row rfl
  have same : userId = id := by
    rcases issues key userId stores with same | ⟨inRedis, same⟩
    · exact same.trans own
    · have again : stoll (toString row.id) = some userId := same
      rw [own, read inRedis] at again
      exact (Option.some.inj again).symm
  rcases List.mem_append.mp member with new | old
  · exact absurd (consumes_of_found found) (all taken new).1
  · exact ⟨jti, same ▸ finds taken old token found⟩

theorem follows_guarded {α : Type} {P : Protocol interface} {body : Fallible interface String α}
    {post : List (Taken interface) → ServiceResult α → Prop} {past : List (Taken interface)}
    (asks : P past .redisAvailable) (fails : ∀ later error, post later (.error error))
    (follows : body.run.Follows P (fun later result => ∀ value, result = .ok value → post later (.ok value))
      (⟨.redisAvailable, true⟩ :: past)) : (RedisRefreshTokenStore.guarded body).Follows P post past := by
  refine .call asks fun available => ?_
  cases available with
  | false => exact .done (fails _ _)
  | true =>
    refine follows.bind fun later result _ told => ?_
    cases result with
    | error error => exact .done (fails _ _)
    | ok value => exact .done (told value rfl)

/-- A command on its own. -/
theorem follows_redis {P : Protocol interface} {command : Keyspace.Command} {past : List (Taken interface)}
    (allowed : P past (.redis command)) : (redis command).run.Follows P
      (fun later reply => later = (⟨.redis command, reply⟩ : Taken interface) :: past) past :=
  .call allowed fun _ => .done rfl

/-- What a consume that yields a user has found. -/
def Yields (token_store : RefreshTokenStore) (jti : String) (later : List (Taken interface))
    (result : Except ServiceError (Option Int)) : Prop :=
  ∀ userId, result = .ok (some userId) → (token_store = .Redis → stoll (toString userId) = some userId) ∧
    ∀ taken ∈ later, ∀ token, found token_store taken.op taken.answer = some token →
      token = (refreshTokenKey jti, some userId)

theorem granted_consume {past : List (Taken interface)} (jti : String)
    (none : ∀ taken ∈ past, ¬ Op.Consumes taken.op) :
    (token_store.consume jti).Follows (Granted token_store) (Yields token_store jti) past := by
  have unfound : ∀ taken ∈ past, ∀ token, found token_store taken.op taken.answer ≠ some token :=
    fun taken member token finds => none taken member (consumes_of_found finds)
  cases token_store with
  | InMemory =>
    refine .call (granted_of_unstored rfl) fun answer => .done ?_
    rintro userId same
    obtain rfl : answer = some userId := Except.ok.inj same
    refine ⟨fun inRedis => (by cases inRedis), fun taken member token finds => ?_⟩
    rcases List.mem_cons.mp member with rfl | old
    · exact (Option.some.inj finds).symm
    · exact absurd finds (unfound taken old token)
  | Redis =>
    have unstored : ∀ {command : Keyspace.Command} {past : List (Taken interface)},
        Op.stored .Redis (.redis command) = Option.none → Granted .Redis past (.redis command) :=
      fun none => granted_of_unstored none
    refine follows_guarded (granted_of_unstored rfl) (fun _ _ _ same => by cases same) ?_
    refine Follows.fallible (follows_redis (unstored rfl)) (fun _ _ _ _ same => by cases same)
      fun later reply asked => ?_
    cases reply with
    | none =>
      refine .done ?_
      rintro value same userId ok
      cases same
      cases ok
    | some text =>
      cases read : stoll text with
      | none =>
        simp only [RedisRefreshTokenStore.readUserId, read]
        exact .done fun _ same => by cases same
      | some number =>
        simp only [RedisRefreshTokenStore.readUserId, read]
        show Follows (I := interface) _ _
          (redis (.srem (userRefreshSetKey number) jti) >>= fun _ => pure (some number)).run later
        refine Follows.fallible (follows_redis (unstored rfl)) (fun _ _ _ _ same => by cases same)
          fun last reply removed => ?_
        refine .done ?_
        rintro value same userId ok
        cases same
        obtain rfl : number = userId := Option.some.inj (Except.ok.inj ok)
        refine ⟨fun _ => stoll_of_read read, fun taken member token finds => ?_⟩
        -- of the three commands only `GETDEL` has found a token
        rw [removed, asked] at member
        rcases List.mem_cons.mp member with rfl | member
        · cases finds
        · rcases List.mem_cons.mp member with rfl | member
          · rw [← read]
            exact (Option.some.inj finds).symm
          · rcases List.mem_cons.mp member with rfl | old
            · cases finds
            · exact absurd finds (unfound taken old token)

theorem granted_refreshWith {past : List (Taken interface)} (claims : utils.RefreshTokenClaims)
    (none : ∀ taken ∈ past, ¬ Op.Consumes taken.op) :
    (refreshWith d token_store claims).run.Follows (Granted token_store) (fun _ _ => True) past := by
  have consumes : (service (token_store.consume claims.jti)).run.Follows (Granted token_store)
      (fun later result => ∀ userId, result = .ok (some userId) →
        Yields token_store claims.jti later (.ok (some userId))) past := by
    refine (granted_consume claims.jti none).bind fun later result _ yields => ?_
    cases result with
    | error error => exact .done nofun
    | ok stored =>
      refine .done fun userId same => ?_
      cases same
      exact yields
  refine Follows.fallible consumes (fun _ _ _ => trivial) fun later stored yields => ?_
  rw [refuseIf_bind]
  split
  · exact .done trivial
  · rename_i same
    obtain rfl : stored = some claims.user_id := by simpa using same
    obtain ⟨read, finds⟩ := yields _ rfl _ rfl
    -- the row is read by the id that the token has named
    refine .call (granted_of_unstored rfl) fun answer => ?_
    rcases answer with error | none | row
    · exact .done trivial
    · exact .done trivial
    · show Follows (I := interface) (Granted token_store) (fun _ _ => True) (if (rowToUser row).enabled then
        AuthService.issueTokenPair d token_store (rowToUser row)
        else refuse 401 "invalid_refresh_token" "invalid refresh token").run _
      split
      · have finds' : ∀ taken ∈ (⟨.sql (.select (.id claims.user_id)), .ok (some row)⟩ : Taken interface) :: later,
            ∀ token, found token_store taken.op taken.answer = some token →
              token = (refreshTokenKey claims.jti, some claims.user_id) := by
          intro taken member token found
          rcases List.mem_cons.mp member with rfl | old
          · cases found
          · exact finds taken old token found
        exact granted_issueTokenPair read finds' List.mem_cons_self
      · exact .done trivial

theorem granted_refresh (payload : Json) : (AuthService.refresh d token_store payload).run.Follows
    (Granted token_store) (fun _ _ => True) [] := by
  rcases refresh_run d token_store payload with ⟨failure, _, ends⟩ | ⟨token, _, goes⟩
  · rw [ends]
    exact .done trivial
  · rw [goes]
    refine .call (granted_of_unstored rfl) fun time => ?_
    unfold refreshFrom
    split
    · exact granted_refreshWith _ (List.forall_mem_singleton.mpr id)
    · exact .done trivial

theorem granted_call (call : Call) : ((backend d token_store).program call).Follows
    (Granted token_store) (fun _ _ => True) [] := by
  cases call with
  | register payload => exact granted_of_without ((without_register payload).bind fun _ => trivial)
  | login payload => exact (granted_login payload).bind fun _ _ _ _ => .done trivial
  | refresh payload => exact (granted_refresh payload).bind fun _ _ _ _ => .done trivial
  | logout payload => exact granted_of_without ((without_logout payload).bind fun _ => trivial)
  | changePassword userId payload =>
    exact granted_of_without ((without_changePassword userId payload).bind fun _ => trivial)

/-! ## Before a password is changed -/

/-- The call has revoked every token of the user that it was told of. -/
def Revoked (token_store : RefreshTokenStore) (userId : Int) (past : List (Taken interface)) : Prop :=
  match token_store with
  | .InMemory => (⟨.map (.revokeUser userId), ()⟩ : Taken interface) ∈ past
  | .Redis => ∃ (newest older : List (Taken interface)) (members : List String),
      past = newest ++ ⟨.redis (.smembers (userRefreshSetKey userId)), .ok members⟩ :: older ∧
        ∀ jti ∈ members, ∃ there, ⟨.redis (.del (refreshTokenKey jti)), .ok there⟩ ∈ newest

theorem Revoked.suffix {userId : Int} {past later : List (Taken interface)}
    (revoked : Revoked token_store userId past) (grown : past <:+ later) : Revoked token_store userId later := by
  obtain ⟨added, rfl⟩ := grown
  cases token_store with
  | InMemory =>
    have asked : (⟨.map (.revokeUser userId), ()⟩ : Taken interface) ∈ past := revoked
    exact List.mem_append_right added asked
  | Redis =>
    obtain ⟨newest, older, members, rfl, deleted⟩ := revoked
    refine ⟨added ++ newest, older, members, (List.append_assoc _ _ _).symm, fun jti member => ?_⟩
    obtain ⟨there, answered⟩ := deleted jti member
    exact ⟨there, List.mem_append_right _ answered⟩

/-- A password is changed once the user's tokens have been revoked. -/
def RevokesFirst (token_store : RefreshTokenStore) : Protocol interface := fun past op =>
  ∀ userId passwordHash, op = .sql (.updatePassword userId passwordHash) → Revoked token_store userId past

def Op.Updates : Op → Prop
  | .sql (.updatePassword ..) => True
  | _ => False

theorem revokesFirst_of_without {α : Type} {program : Program α} {past : List (Taken interface)}
    (without : Without Op.Updates program) :
    program.Follows (RevokesFirst token_store) (fun _ _ => True) past := by
  refine (without.follows past).weaken ?_
  rintro _ _ not userId passwordHash rfl
  exact absurd trivial not

theorem revokesFirst_of_keepsUsers {α : Type} {program : Program α} {past : List (Taken interface)}
    (keeps : program.Only Op.KeepsUsers) : program.Follows (RevokesFirst token_store) (fun _ _ => True) past := by
  refine revokesFirst_of_without (keeps.mono ?_)
  rintro op keeps updates
  cases op with
  | sql s => cases s <;> first | exact updates | exact keeps
  | _ => exact updates

/-- The loop deletes all it is given. -/
theorem follows_delEach (jtis : List String) {past : List (Taken interface)} :
    (RedisRefreshTokenStore.delEach jtis).run.Follows (RevokesFirst token_store)
      (fun later result => ∃ added, later = added ++ past ∧ (result = .ok () → ∀ jti ∈ jtis, ∃ there,
        (⟨.redis (.del (refreshTokenKey jti)), .ok there⟩ : Taken interface) ∈ added)) past := by
  induction jtis generalizing past with
  | nil => exact .done ⟨[], rfl, fun _ => nofun⟩
  | cons first rest ih =>
    refine Follows.fallible (follows_redis nofun) ?_ fun later there deleted => ?_
    · rintro later error rfl
      exact ⟨[_], rfl, nofun⟩
    · subst deleted
      refine ih.mono fun last result _ => ?_
      rintro ⟨added, rfl, all⟩
      refine ⟨added ++ [_], (List.append_assoc added [_] past).symm, fun ok jti member => ?_⟩
      rcases List.mem_cons.mp member with rfl | member
      · exact ⟨there, by simp⟩
      · obtain ⟨there, answered⟩ := all ok jti member
        exact ⟨there, List.mem_append_left _ answered⟩

theorem revoked_revokeUser (userId : Int) {past : List (Taken interface)} :
    (token_store.revokeUser userId).Follows (RevokesFirst token_store)
      (fun later result => result = .ok () → Revoked token_store userId later) past := by
  cases token_store with
  | InMemory =>
    have first : ∀ past, Revoked .InMemory userId (⟨.map (.revokeUser userId), ()⟩ :: past) :=
      fun _ => List.mem_cons_self
    exact .call nofun fun _ => .done fun _ => first past
  | Redis =>
    refine follows_guarded nofun (fun _ _ => nofun) ?_
    refine Follows.fallible (follows_redis nofun) (fun _ _ _ _ => nofun) fun later members listed => ?_
    subst listed
    refine Follows.fallible (follows_delEach members) (fun _ _ _ _ => nofun) fun later value deleted => ?_
    obtain ⟨added, rfl, all⟩ := deleted
    refine Follows.fallible (follows_redis nofun) (fun _ _ _ _ => nofun) fun last there removed => .done ?_
    intro _ _ _
    rw [removed]
    -- what was deleted since the set was listed, and the removal of the set itself
    refine ⟨_ :: added, _, members, rfl, fun jti member => ?_⟩
    obtain ⟨there, answered⟩ := all rfl jti member
    exact ⟨there, List.mem_cons_of_mem _ answered⟩

/-- Whoever is told that the password is changed has changed it. -/
def ChangedBy (userId : Int) (later : List (Taken interface)) : Prop :=
  ∃ taken ∈ later, changedUser taken.op taken.answer = some userId

theorem revokesFirst_changeWith (userId : Int) (newPassword : String) {past : List (Taken interface)} :
    (changeWith d token_store userId newPassword).run.Follows (RevokesFirst token_store)
      (fun later result => result = .ok () → ChangedBy userId later) past := by
  have revokes : (service (token_store.revokeUser userId)).run.Follows (RevokesFirst token_store)
      (fun later result => result = .ok () → Revoked token_store userId later) past := by
    refine (revoked_revokeUser userId).bind fun later result _ revoked => ?_
    cases result with
    | error error => exact .done nofun
    | ok value => exact .done fun _ => revoked rfl
  refine Follows.fallible revokes (fun _ _ _ => nofun) fun later _ revoked => ?_
  have hashes : (AuthService.hashPassword d newPassword).run.Follows (RevokesFirst token_store)
      (fun last _ => later <:+ last) later :=
    (revokesFirst_of_without (only_hashPassword id newPassword)).suffix.mono fun _ _ _ => And.right
  refine Follows.fallible hashes (fun _ _ _ => nofun) fun last hash grown => ?_
  refine .call ?_ fun answer => ?_
  · -- hashing comes between, and takes nothing back
    intro other passwordHash same
    cases same
    exact (revoked rfl).suffix grown
  · rcases answer with error | updated
    · exact .done nofun
    · cases updated with
      | false => exact .done nofun
      | true => exact .done fun _ => ⟨_, List.mem_cons_self, rfl⟩

theorem revokesFirst_changePassword (userId : Int) (payload : Json) :
    (AuthService.changePassword d token_store userId payload).run.Follows (RevokesFirst token_store)
      (fun later result => result = .ok () → ChangedBy userId later) [] := by
  rcases changePassword_run d token_store userId payload with ⟨failure, ends⟩ | ⟨old, new, _, goes⟩
  · rw [ends]
    exact .done nofun
  · rw [goes]
    refine Follows.fallible (revokesFirst_of_without (only_getProfile (fun _ => id) userId))
      (fun _ _ _ => nofun) fun later user _ => ?_
    refine Follows.fallible (revokesFirst_of_without trivial) (fun _ _ _ => nofun) fun later correct _ => ?_
    refine Follows.fallible (revokesFirst_of_without only_refuseIf) (fun _ _ _ => nofun) fun later _ _ => ?_
    exact revokesFirst_changeWith userId new

/-- What the reply to a change of password tells. -/
def Tells (past : List (Taken interface)) : Call → Reply → Prop
  | .changePassword userId _, .finished (.ok _) => ChangedBy userId past
  | _, _ => True

theorem keepsUsers_tokens (user : User) :
    Only (I := interface) Op.KeepsUsers (AuthService.issueTokenPair d token_store user).run := by
  have stores : ∀ jti userId ttl, Only (I := interface) Op.KeepsUsers (token_store.store jti userId ttl) := by
    intro jti userId ttl
    cases token_store with
    | InMemory => exact ⟨trivial, fun _ => trivial⟩
    | Redis =>
      exact only_guarded trivial (Only.fallible (only_redis trivial) fun _ =>
        Only.fallible (only_redis trivial) fun _ => only_redis trivial)
  exact only_issueTokenPair trivial trivial fun jti ttl => stores jti user.id ttl

theorem keepsUsers_login (payload : Json) :
    Only (I := interface) Op.KeepsUsers (AuthService.login d token_store payload).run :=
  only_login (fun _ => trivial) keepsUsers_tokens payload

theorem keepsUsers_presented (payload : Json) :
    Only (I := interface) Op.KeepsUsers (AuthService.presentedClaims d payload).run := by
  rcases presentedClaims_run (d := d) payload with ⟨failure, _, ends⟩ | ⟨token, _, goes⟩
  · rw [ends]
    trivial
  · rw [goes]
    refine Only.relabel ⟨trivial, fun time => ?_⟩
    dsimp only [Prog.bind]
    split <;> trivial

theorem keepsUsers_refresh (payload : Json) :
    Only (I := interface) Op.KeepsUsers (AuthService.refresh d token_store payload).run := by
  have consumes : ∀ jti, Only (I := interface) Op.KeepsUsers (token_store.consume jti) := by
    intro jti
    cases token_store with
    | InMemory => exact ⟨trivial, fun _ => trivial⟩
    | Redis =>
      refine only_guarded trivial (Only.fallible (only_redis trivial) fun found => ?_)
      cases found with
      | none => trivial
      | some text =>
        have removes : ∀ userId, Only (I := interface) Op.KeepsUsers
          (redis (.srem (userRefreshSetKey userId) jti)).run := fun _ => only_redis trivial
        exact Only.fallible trivial fun userId => Only.fallible (removes userId) fun _ => trivial
  refine Only.fallible (keepsUsers_presented payload) fun claims => ?_
  refine Only.fallible (Only.relabel (consumes claims.jti)) fun stored => ?_
  refine Only.fallible only_refuseIf fun _ => ?_
  refine Only.fallible (only_findBy trivial) fun user => ?_
  cases user with
  | none => trivial
  | some user =>
    dsimp only
    split
    · exact keepsUsers_tokens user
    · trivial

theorem keepsUsers_logout (payload : Json) :
    Only (I := interface) Op.KeepsUsers (AuthService.logout d token_store payload).run := by
  refine Only.fallible (keepsUsers_presented payload) fun claims => Only.relabel ?_
  cases token_store with
  | InMemory => exact ⟨trivial, fun _ => trivial⟩
  | Redis =>
    refine only_guarded trivial (Only.fallible (only_redis trivial) fun found => ?_)
    have deletes : Only (I := interface) Op.KeepsUsers (redis (.del (refreshTokenKey claims.jti))).run :=
      only_redis trivial
    cases found with
    | none => exact Only.fallible deletes fun _ => trivial
    | some text =>
      have removes : ∀ userId, Only (I := interface) Op.KeepsUsers
        (redis (.srem (userRefreshSetKey userId) claims.jti)).run := fun _ => only_redis trivial
      exact Only.fallible trivial fun userId => Only.fallible (removes userId) fun _ =>
        Only.fallible deletes fun _ => trivial

theorem without_updates_register (payload : Json) :
    Without (I := interface) Op.Updates (AuthService.registerUser d payload).run := by
  have exists' : ∀ key, Without (I := interface) Op.Updates (existsBy key).run :=
    fun key => Only.fallible (Only.relabel ⟨id, fun _ => trivial⟩) fun _ => trivial
  refine Only.fallible (I := interface) trivial fun user => ?_
  refine Only.fallible only_refuseIf fun _ => Only.fallible (exists' _) fun _ => ?_
  refine Only.fallible only_refuseIf fun _ => Only.fallible (exists' _) fun _ => ?_
  refine Only.fallible only_refuseIf fun _ => Only.fallible (only_hashPassword id _) fun _ => ?_
  exact Only.fallible (Only.relabel ⟨id, fun _ => trivial⟩) fun _ => trivial

theorem revokesFirst_call (call : Call) : ((backend d token_store).program call).Follows
    (RevokesFirst token_store) (fun past reply => Tells past call reply) [] := by
  cases call with
  | register payload =>
    exact (revokesFirst_of_without (without_updates_register payload)).bind fun _ _ _ _ => .done trivial
  | login payload =>
    exact (revokesFirst_of_keepsUsers (keepsUsers_login payload)).bind fun _ _ _ _ => .done trivial
  | refresh payload =>
    exact (revokesFirst_of_keepsUsers (keepsUsers_refresh payload)).bind fun _ _ _ _ => .done trivial
  | logout payload =>
    exact (revokesFirst_of_keepsUsers (keepsUsers_logout payload)).bind fun _ _ _ _ => .done trivial
  | changePassword userId payload =>
    refine (revokesFirst_changePassword userId payload).bind fun later result _ changed => ?_
    cases result with
    | error failure => exact .done trivial
    | ok value => exact .done (changed rfl)

end Text2Image.Auth
