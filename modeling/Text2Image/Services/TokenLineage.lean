import Mathlib.Logic.Relation
import Text2Image.Concurrency.Observation
import Text2Image.Services.AuthBackend
import Text2Image.Services.AuthExecution

/-! Where the refresh tokens of a run come from: a login stores the first, and a refresh that
finds one stores the next.
-/

set_option autoImplicit false

namespace Text2Image.Auth

open Concurrency Concurrency.Prog Concurrency.System

variable {d : Deployment} {token_store : RefreshTokenStore}

/-! ## Operations on one token -/

/-- The key of the token the operation is about. -/
def Op.namedKey : Op → Option String
  | .redis command => some command.key
  | .map (.store jti _ _) | .map (.consume jti) | .map (.revoke jti) => some (refreshTokenKey jti)
  | _ => none

/-- The key of the token the operation stores. -/
def Op.storedKey : Op → Option String
  | .redis (.setex key _ _) => some key
  | .map (.store jti _ _) => some (refreshTokenKey jti)
  | _ => none

/-- The answer says that the token was there; now it is not. -/
def Finds (token_store : RefreshTokenStore) (jti : String) : (op : Op) → Answer op → Bool
  | .redis (.getDel key), .ok (some _) => token_store = .Redis ∧ key = refreshTokenKey jti
  | .map (.consume other), some _ => token_store = .InMemory ∧ other = jti
  | _, _ => false

/-- The answer says that the token is not there any more. -/
def Ends (token_store : RefreshTokenStore) (jti : String) : (op : Op) → Answer op → Bool
  | .redis (.del key), .ok _ => token_store = .Redis ∧ key = refreshTokenKey jti
  | .map (.revoke other), _ => token_store = .InMemory ∧ other = jti
  | op, answer => Finds token_store jti op answer

theorem spares_iff {jti : String} {op : Op} :
    op.SparesId jti ↔ op.storedKey ≠ some (refreshTokenKey jti) := by
  cases op with
  | redis command => cases command <;> simp [Op.SparesId, Op.storedKey]
  | map op =>
    cases op with
    | store other userId ttl =>
      have key : refreshTokenKey other = refreshTokenKey jti ↔ other = jti :=
        ⟨refreshTokenKey_injective, congrArg _⟩
      simp [Op.SparesId, Op.storedKey, key]
    | _ => simp [Op.SparesId, Op.storedKey]
  | _ => simp [Op.SparesId, Op.storedKey]

theorem named_of_finds {jti : String} {op : Op} {answer : Answer op}
    (finds : Finds token_store jti op answer = true) : op.namedKey = some (refreshTokenKey jti) := by
  unfold Finds at finds
  split at finds
  · obtain ⟨_, rfl⟩ := of_decide_eq_true finds
    rfl
  · obtain ⟨_, rfl⟩ := of_decide_eq_true finds
    rfl
  · cases finds

theorem named_of_ends {jti : String} {op : Op} {answer : Answer op}
    (ends : Ends token_store jti op answer = true) : op.namedKey = some (refreshTokenKey jti) := by
  unfold Ends at ends
  split at ends
  · obtain ⟨_, rfl⟩ := of_decide_eq_true ends
    rfl
  · obtain ⟨_, rfl⟩ := of_decide_eq_true ends
    rfl
  · exact named_of_finds ends

/-- A command that is answered has been carried out. -/
theorem redis_answered {command : Keyspace.Command} {choice : Choice} {world : World} {reply : command.Reply}
    (answered : (perform (.redis command) choice world).1 = .ok reply) :
    (command.run world.clock world.redis).1 = .ok reply ∧
      (perform (.redis command) choice world).2 =
        { world with redis := (command.run world.clock world.redis).2 } := by
  simp only [perform] at answered ⊢
  cases settled : choice.outcome with
  | done =>
    simp only [settled] at answered
    exact ⟨answered, rfl⟩
  | failed | lost =>
    simp only [settled] at answered
    cases answered

theorem ends_of_finds {jti : String} {op : Op} {answer : Answer op}
    (finds : Finds token_store jti op answer = true) : Ends token_store jti op answer = true := by
  unfold Ends
  split
  · cases finds
  · cases finds
  · exact finds

/-- What has been found, or deleted, is gone. -/
theorem gone_of_ends {jti : String} {op : Op} {choice : Choice} {world : World}
    (ends : Ends token_store jti op (perform op choice world).1 = true) :
    Gone token_store jti (perform op choice world).2 := by
  generalize answered : (perform op choice world).1 = answer at ends
  unfold Ends Finds at ends
  split at ends
  · obtain ⟨rfl, rfl⟩ := of_decide_eq_true ends
    obtain ⟨_, became⟩ := redis_answered answered
    rw [became]
    exact Keyspace.State.textless_remove
  · rename_i other answer
    obtain ⟨rfl, same⟩ := of_decide_eq_true ends
    show Function.update world.tokens other none jti = none
    rw [same, Function.update_self]
  · split at ends
    · obtain ⟨rfl, rfl⟩ := of_decide_eq_true ends
      obtain ⟨_, became⟩ := redis_answered answered
      rw [became]
      exact Keyspace.State.textless_getDel
    · rename_i other userId _ _
      obtain ⟨rfl, same⟩ := of_decide_eq_true ends
      show Function.update (MapOp.fresh world.clock world.tokens) other none jti = none
      rw [same, Function.update_self]
    · cases ends

/-- What is gone is not found. -/
theorem finds_of_gone {jti : String} {world : World} (gone : Gone token_store jti world) (op : Op)
    (choice : Choice) : Finds token_store jti op (perform op choice world).1 = false := by
  refine Bool.eq_false_iff.mpr fun finds => ?_
  generalize answered : (perform op choice world).1 = answer at finds
  unfold Finds at finds
  split at finds
  · obtain ⟨rfl, rfl⟩ := of_decide_eq_true finds
    have found := (redis_answered answered).1
    simp only [Keyspace.Command.run, Keyspace.State.textAt] at found
    cases live : world.redis.live world.clock (refreshTokenKey jti) with
    | none =>
      rw [live] at found
      cases found
    | some entry =>
      obtain ⟨value, expiry⟩ := entry
      cases value with
      | text text => exact gone world.clock (Int.le_refl _) text expiry live
      | members members =>
        rw [live] at found
        cases found
  · rename_i other userId
    obtain ⟨rfl, same⟩ := of_decide_eq_true finds
    have absent : world.tokens jti = none := gone
    have taken : (MapOp.fresh world.clock world.tokens other).map (·.user_id) = some userId := answered
    rw [same, MapOp.fresh, absent] at taken
    cases taken
  · cases finds

/-! ## One token for each call -/

def Op.Stores (op : Op) : Prop := op.storedKey.isSome = true

theorem stores_of_removes {op : Op} (removes : op.Removes) : ¬ op.Stores := by
  intro stores
  cases op with
  | redis command => cases command <;> first | exact removes.elim | cases stores
  | map op => cases op <;> first | exact removes.elim | cases stores
  | _ => cases stores

theorem only_redis {kind : Op → Prop} {command : Keyspace.Command} (holds : kind (.redis command)) :
    Only (I := interface) kind (redis command).run := ⟨holds, fun _ => trivial⟩

theorem single_store (jti : String) (userId ttl : Int) :
    Single (I := interface) Op.Stores (token_store.store jti userId ttl) := by
  cases token_store with
  | InMemory => exact single_call _ fun _ => trivial
  | Redis =>
    refine Only.bind_single (I := interface) ⟨nofun, fun _ => trivial⟩ fun available => ?_
    cases available with
    | false => exact Only.single trivial
    | true =>
      refine Single.bind_left (I := interface) (Single.fallible_left (single_call _ fun _ => trivial) fun _ => ?_) ?_
      · exact Only.fallible (only_redis nofun) fun _ => only_redis nofun
      · intro result
        cases result <;> trivial

theorem single_issueTokenPair (user : User) :
    Single (I := interface) Op.Stores (AuthService.issueTokenPair d token_store user).run := by
  refine Only.fallible_single (Only.always ⟨nofun, fun _ => trivial⟩) fun jti => ?_
  refine Single.fallible_left (Single.relabel (single_store jti _ _)) fun _ => ?_
  refine Only.fallible (Only.always (only_createToken nofun nofun _ _ _)) fun _ => ?_
  exact Only.fallible (Only.always (only_issueRefreshToken nofun _ _)) fun _ => trivial

theorem single_login (payload : Json) :
    Single (I := interface) Op.Stores (AuthService.login d token_store payload).run := by
  rcases login_run d token_store payload with ⟨failure, _, ends⟩ | ⟨credentials, _, goes⟩
  · rw [ends]
    exact Only.single trivial
  · rw [goes]
    refine Only.fallible_single (only_findBy nofun) fun user => ?_
    cases user with
    | none => exact Only.single trivial
    | some user =>
      refine Only.fallible_single (I := interface) trivial fun correct => ?_
      cases correct with
      | false => exact Only.single trivial
      | true => exact single_issueTokenPair user

theorem without_consume (jti : String) :
    Without (I := interface) Op.Stores (token_store.consume jti) := by
  cases token_store with
  | InMemory => exact ⟨nofun, fun _ => trivial⟩
  | Redis =>
    refine only_guarded nofun (Only.fallible (only_redis nofun) fun found => ?_)
    cases found with
    | none => trivial
    | some text =>
      refine Only.fallible trivial fun userId => ?_
      have removes : Without (I := interface) Op.Stores (redis (.srem (userRefreshSetKey userId) jti)).run :=
        only_redis nofun
      exact Only.fallible removes fun _ => trivial

theorem without_revoke (jti : String) :
    Without (I := interface) Op.Stores (token_store.revoke jti) := by
  cases token_store with
  | InMemory => exact ⟨nofun, fun _ => trivial⟩
  | Redis =>
    refine only_guarded nofun (Only.fallible (only_redis nofun) fun found => ?_)
    have deletes : Without (I := interface) Op.Stores (redis (.del (refreshTokenKey jti))).run :=
      only_redis nofun
    cases found with
    | none => exact Only.fallible deletes fun _ => trivial
    | some text =>
      refine Only.fallible trivial fun userId => ?_
      have removes : Without (I := interface) Op.Stores (redis (.srem (userRefreshSetKey userId) jti)).run :=
        only_redis nofun
      exact Only.fallible removes fun _ => Only.fallible deletes fun _ => trivial

theorem only_refuseIf {kind : Op → Prop} {condition : Bool} {status : Nat} {code message : String} :
    Only (I := interface) kind (refuseIf condition status code message).run := by
  cases condition <;> trivial

theorem single_refreshWith (claims : utils.RefreshTokenClaims) :
    Single (I := interface) Op.Stores (refreshWith d token_store claims).run := by
  refine Only.fallible_single (Only.relabel (without_consume claims.jti)) fun stored => ?_
  refine Only.fallible_single only_refuseIf fun _ => ?_
  refine Only.fallible_single (only_findBy nofun) fun user => ?_
  cases user with
  | none => exact Only.single trivial
  | some user =>
    dsimp only
    split
    · exact single_issueTokenPair user
    · exact Only.single trivial

theorem single_refresh (payload : Json) :
    Single (I := interface) Op.Stores (AuthService.refresh d token_store payload).run := by
  rcases refresh_run d token_store payload with ⟨failure, _, ends⟩ | ⟨token, _, goes⟩
  · rw [ends]
    exact Only.single trivial
  · rw [goes]
    refine Single.call nofun fun time => ?_
    unfold refreshFrom
    split
    · exact single_refreshWith _
    · exact Only.single trivial

theorem without_logout (payload : Json) :
    Without (I := interface) Op.Stores (AuthService.logout d token_store payload).run := by
  refine Only.fallible ?_ fun claims => Only.relabel (without_revoke claims.jti)
  rcases presentedClaims_run (d := d) payload with ⟨failure, _, ends⟩ | ⟨token, _, goes⟩
  · rw [ends]
    trivial
  · rw [goes]
    refine Only.relabel ⟨nofun, fun time => ?_⟩
    dsimp only [Prog.bind]
    split <;> trivial

theorem without_register (payload : Json) :
    Without (I := interface) Op.Stores (AuthService.registerUser d payload).run := by
  have exists' : ∀ key, Without (I := interface) Op.Stores (existsBy key).run :=
    fun key => Only.fallible (Only.relabel ⟨nofun, fun _ => trivial⟩) fun _ => trivial
  refine Only.fallible (I := interface) trivial fun user => ?_
  refine Only.fallible only_refuseIf fun _ => Only.fallible (exists' _) fun _ => ?_
  refine Only.fallible only_refuseIf fun _ => Only.fallible (exists' _) fun _ => ?_
  refine Only.fallible only_refuseIf fun _ => Only.fallible (only_hashPassword nofun _) fun _ => ?_
  exact Only.fallible (Only.relabel ⟨nofun, fun _ => trivial⟩) fun _ => trivial

theorem without_changePassword (userId : Int) (payload : Json) :
    Without (I := interface) Op.Stores (AuthService.changePassword d token_store userId payload).run := by
  rcases changePassword_run d token_store userId payload with ⟨failure, ends⟩ | ⟨old, new, _, goes⟩
  · rw [ends]
    trivial
  · rw [goes]
    exact (removes_changeFor userId old new).mono fun _ => stores_of_removes

theorem call_single (call : Call) :
    Single (I := interface) Op.Stores ((backend d token_store).program call) := by
  cases call with
  | register payload => exact Only.single ((without_register payload).bind fun _ => trivial)
  | login payload => exact (single_login payload).bind_left fun _ => trivial
  | refresh payload => exact (single_refresh payload).bind_left fun _ => trivial
  | logout payload => exact Only.single ((without_logout payload).bind fun _ => trivial)
  | changePassword userId payload =>
    exact Only.single ((without_changePassword userId payload).bind fun _ => trivial)

/-! ## Runs with fresh ids -/

/-- The key of the token the entry is about. -/
def namedIn : (backend d token_store).Entry → Option String
  | .performed event => Op.namedKey event.op
  | _ => none

/-- A token is stored under an id that no operation of the run has named before. -/
def freshIds (d : Deployment) (token_store : RefreshTokenStore) : Condition (backend d token_store) where
  starts _ _ := True
  performs _ _ op _ view := ∀ key ∈ Op.storedKey op, ∀ entry ∈ view.log, namedIn entry ≠ some key

instance decideFreshStarts (call : (backend d token_store).Call) (view : (backend d token_store).View) :
    Decidable ((freshIds d token_store).starts call view) := isTrue trivial

instance decideFreshIds (pid : Nat) (call : (backend d token_store).Call) (op : (backend d token_store).I.Op)
    (choice : (backend d token_store).Choice) (view : (backend d token_store).View) :
    Decidable ((freshIds d token_store).performs pid call op choice view) :=
  inferInstanceAs (Decidable (∀ key ∈ Op.storedKey op, ∀ entry ∈ view.log, namedIn entry ≠ some key))

instance decideFreshEnv (event : (backend d token_store).Env) (view : (backend d token_store).View) :
    Decidable ((freshIds d token_store).env event view) := isTrue trivial

/-- The event has found the token. -/
def finding (jti : String) (event : (backend d token_store).Event) : Prop :=
  Finds token_store jti event.op event.answer = true

/-- The event has found the token, or deleted it. -/
def ending (jti : String) (event : (backend d token_store).Event) : Prop :=
  Ends token_store jti event.op event.answer = true

theorem gone_env {jti : String} {world : World} (gone : Gone token_store jti world) (event : Env) :
    Gone token_store jti (event.apply world) := by
  cases event with
  | setEnabled userId enabled => cases token_store <;> exact gone
  | passTime ticks =>
    cases token_store with
    | InMemory => exact gone
    | Redis => exact Keyspace.State.Textless.later gone (Int.le_add_of_nonneg_right (Int.natCast_nonneg ticks))

/-- A token that has ended is gone for good. -/
theorem ending_lasts (jti : String) :
    LastsFrom (freshIds d token_store) (ending jti) (Gone token_store jti) where
  performed event genuine ends := by
    have both : (event.answer, event.after) = perform event.op event.choice event.before := genuine
    have answered : event.answer = (perform event.op event.choice event.before).1 := congrArg Prod.fst both
    have became : event.after = (perform event.op event.choice event.before).2 := congrArg Prod.snd both
    unfold ending at ends
    rw [answered] at ends
    rw [became]
    exact gone_of_ends ends
  keeps view pid call op choice := by
    rintro ⟨event, member, ends⟩ gone fresh
    refine gone.perform (spares_iff.mpr fun stored => ?_) choice
    -- the operation would store an id that has been named
    exact fresh _ stored (.performed event) member (named_of_ends ends)
  leave pid world := id
  env event world gone := gone_env gone event

variable {world : World} {labels : List (backend d token_store).Label} {jti : String}

theorem genuine_run (world : World) (labels : List (backend d token_store).Label) :
    AllGenuine (run (initial world) labels).view.log := by
  have free : (backend d token_store).Obeys fun _ _ _ => True := fun call => Prog.follows_free _ []
  exact ((State.follows_initial world).run free labels).genuine

theorem not_finding {event : (backend d token_store).Event} (genuine : event.Genuine)
    (gone : Gone token_store jti event.before) : ¬ finding jti event := by
  have both : (event.answer, event.after) = perform event.op event.choice event.before := genuine
  have answered : event.answer = (perform event.op event.choice event.before).1 := congrArg Prod.fst both
  intro finds
  unfold finding at finds
  rw [answered] at finds
  exact Bool.false_ne_true ((finds_of_gone gone event.op event.choice).symm.trans finds)

/-- A token that has ended is not found any more. -/
theorem not_finding_after (meets : Meets (freshIds d token_store) (initial world) labels)
    {newer older : List (backend d token_store).Entry} {event : (backend d token_store).Event}
    (split : (run (initial world) labels).view.log = newer ++ .performed event :: older)
    (ended : Occurred (ending jti) older) : ¬ finding jti event := by
  have genuine := genuine_run world labels event (split ▸ by simp)
  exact not_finding genuine (((ending_lasts jti).run meets).before newer event older split ended)

/-- Only one consume finds a token. -/
theorem finding_once (meets : Meets (freshIds d token_store) (initial world) labels)
    {first second : (backend d token_store).Event}
    (member : .performed first ∈ (run (initial world) labels).view.log)
    (member' : .performed second ∈ (run (initial world) labels).view.log)
    (finds : finding jti first) (finds' : finding jti second) : first = second := by
  obtain ⟨newer, older, split⟩ := List.append_of_mem member
  obtain ⟨newer', older', split'⟩ := List.append_of_mem member'
  rcases compare (split.symm.trans split') with ⟨between, rfl, _⟩ | ⟨same, _⟩ | ⟨between, rfl, _⟩
  · exact absurd finds (not_finding_after meets split ⟨second, by simp, ends_of_finds finds'⟩)
  · cases same
    rfl
  · exact absurd finds' (not_finding_after meets split' ⟨first, by simp, ends_of_finds finds⟩)

/-- A process stores only one token. -/
theorem storing_once {first second : (backend d token_store).Event}
    (member : .performed first ∈ (run (initial world) labels).view.log)
    (member' : .performed second ∈ (run (initial world) labels).view.log) (own : first.pid = second.pid)
    (stores : Op.Stores first.op) (stores' : Op.Stores second.op) : first = second := by
  have asked := allAsked_run world labels
  have unhelped := unhelped_run (S := backend d token_store) (fun _ _ _ => rfl) world labels
  have once : ∀ call, ((backend d token_store).program call).Follows (Prog.Once Op.Stores) (fun _ _ => True) [] :=
    fun call => call_single call [] nofun
  obtain ⟨newer, older, split⟩ := List.append_of_mem member
  obtain ⟨newer', older', split'⟩ := List.append_of_mem member'
  rcases compare (split.symm.trans split') with ⟨between, rfl, _⟩ | ⟨same, _⟩ | ⟨between, rfl, _⟩
  · exact absurd stores' (asked.once once unhelped split own.symm stores)
  · cases same
    rfl
  · exact absurd stores (asked.once once unhelped split' own stores')

/-! ## Lines of tokens -/

/-- A login has stored the token. -/
def Issued (log : List (backend d token_store).Entry) (root : Nat) (jti : String) : Prop :=
  ∃ event payload, .performed event ∈ log ∧ event.pid = root ∧ event.call = Call.login payload ∧
    Op.storedKey event.op = some (refreshTokenKey jti)

/-- A process has found the one token and stored the other. -/
def Rotated (log : List (backend d token_store).Entry) (jti next : String) : Prop :=
  ∃ consumed stored, .performed consumed ∈ log ∧ .performed stored ∈ log ∧
    consumed.pid = stored.pid ∧ finding jti consumed ∧
    Op.storedKey stored.op = some (refreshTokenKey next)

/-- The token comes from this login, through any number of refreshes. -/
def Descends (log : List (backend d token_store).Entry) (root : Nat) (jti : String) : Prop :=
  ∃ first, Issued log root first ∧ Relation.ReflTransGen (Rotated log) first jti

theorem stores_of_key {op : Op} {key : String} (stored : op.storedKey = some key) : op.Stores := by
  unfold Op.Stores
  rw [stored]
  rfl

theorem rotated_once (meets : Meets (freshIds d token_store) (initial world) labels) :
    Relator.RightUnique (Rotated (run (initial world) labels).view.log) := by
  rintro jti next other ⟨consumed, stored, found, put, own, finds, key⟩
    ⟨consumed', stored', found', put', own', finds', key'⟩
  obtain rfl := finding_once meets found found' finds finds'
  obtain rfl := storing_once put put' (own.symm.trans own') (stores_of_key key) (stores_of_key key')
  exact refreshTokenKey_injective (Option.some.inj (key.symm.trans key'))

/-- Of the tokens of one login only the last can still be there. -/
theorem Descends.last (meets : Meets (freshIds d token_store) (initial world) labels) {root : Nat}
    {jti other : String} (descends : Descends (run (initial world) labels).view.log root jti)
    (descends' : Descends (run (initial world) labels).view.log root other)
    (there : ¬ Gone token_store jti (run (initial world) labels).view.world)
    (there' : ¬ Gone token_store other (run (initial world) labels).view.world) : jti = other := by
  have ahead : ∀ {jti other : String},
      ¬ Gone token_store jti (run (initial world) labels).view.world →
      Relation.ReflTransGen (Rotated (run (initial world) labels).view.log) jti other → jti = other := by
    intro jti other there reaches
    rcases Relation.ReflTransGen.cases_head reaches with same | ⟨next, ⟨consumed, _, found, _, _, finds, _⟩, _⟩
    · exact same
    · exact absurd (((ending_lasts jti).run meets).now ⟨consumed, found, ends_of_finds finds⟩) there
  obtain ⟨first, ⟨event, _, put, own, _, key⟩, line⟩ := descends
  obtain ⟨first', ⟨event', _, put', own', _, key'⟩, line'⟩ := descends'
  obtain rfl := storing_once put put' (own.trans own'.symm) (stores_of_key key) (stores_of_key key')
  obtain rfl := refreshTokenKey_injective (Option.some.inj (key.symm.trans key'))
  rcases Relation.ReflTransGen.total_of_right_unique (rotated_once meets) line line' with forth | back
  · exact ahead there forth
  · exact (ahead there' back).symm

end Text2Image.Auth
