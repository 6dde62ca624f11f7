import Text2Image.Properties.DisabledAccounts
import Text2Image.Services.SessionLines

/-! A change of password ends the sessions there were, unless a call races it. -/

set_option autoImplicit false

namespace Text2Image.Auth

open Concurrency Concurrency.Prog Concurrency.System

variable {d : Deployment} {token_store : RefreshTokenStore} {world : World}
  {labels : List (backend d token_store).Label} {view : (backend d token_store).View} {userId : Int}
  {jti : String}

/-! ## Races -/

/-- The set of the user names every token of theirs that would be accepted. -/
def AllNamed (userId : Int) (w : World) : Prop :=
  ∀ jti members, w.accepts .Redis jti = some userId →
    w.redis.membersAt w.clock (userRefreshSetKey userId) = some members → jti ∈ members

def Op.updated : Op → Option Int
  | .sql (.updatePassword userId _) => some userId
  | _ => none

/-- What a run has to respect. A password is changed only if the call has found all tokens of the user
in the set, and none has been stored since; and a call stores a token only if the password has not
been changed since it checked the old one, or found the old token.
-/
def unraced (d : Deployment) (token_store : RefreshTokenStore) : Condition (backend d token_store) where
  starts _ _ := True
  performs pid _ op choice view :=
    (∀ userId ∈ Op.updated op, choice.outcome = .done →
      (token_store = .Redis → ∀ event, .performed event ∈ view.log → revoking event pid userId = true →
        AllNamed userId event.before) ∧
      after (storing · userId) (revoking · pid userId) view.log = false) ∧
    ∀ token ∈ putting token_store op choice, ∀ userId ∈ token.2,
      after (changing · userId) (acquiring · pid) view.log = false

/-! ## The revocation -/

/-- The token is accepted as this user's. -/
def Accepted (token_store : RefreshTokenStore) (jti : String) (userId : Int) (w : World) : Prop :=
  w.accepts token_store jti = some userId

/-- The event stores the token for the user. -/
def Put (jti : String) (userId : Int) (event : (backend d token_store).Event) : Prop :=
  stored event = some (refreshTokenKey jti, some userId)

theorem accepted_broughtBy (jti : String) (userId : Int) :
    BroughtBy (S := backend d token_store) (Accepted token_store jti userId) (Put jti userId) where
  performed event genuine holds := by
    have both : (event.answer, event.after) = perform event.op event.choice event.before := genuine
    have became : event.after = (perform event.op event.choice event.before).2 := congrArg Prod.snd both
    rw [became] at holds
    exact (accepts_perform holds).symm.imp_left And.left
  leave pid world := id
  env event world := accepts_env

theorem storing_of_put {event : (backend d token_store).Event} (put : Put jti userId event) :
    storing event userId = true := by
  unfold storing
  rw [show stored event = _ from put]
  simp

theorem not_put_of_revokes {event : (backend d token_store).Event} (revokes : Op.revokes userId event.op = true) :
    ¬ Put jti userId event := by
  have unstored : ∀ (op : Op) (choice : Choice), op.revokes userId = true → putting token_store op choice = none := by
    intro op choice revokes
    cases op with
    | redis command => cases command <;> first | cases revokes | simp [putting, Op.stored]
    | map op => cases op <;> first | cases revokes | rfl
    | _ => rfl
  intro put
  cases (unstored event.op event.choice revokes).symm.trans put

/-- What an operation of a process was answered is in what the process has learnt. -/
theorem performed_as {event : (backend d token_store).Event} (genuine : event.Genuine) {op : Op}
    {answer : Answer op} (taken : (⟨event.op, event.answer⟩ : Taken interface) = ⟨op, answer⟩) :
    event.op = op ∧ ∃ choice, (perform op choice event.before).1 = answer ∧
      event.after = (perform op choice event.before).2 := by
  obtain ⟨pid, call, helper, op', choice, answer', before, later⟩ := event
  have both : (answer', later) = perform op' choice before := genuine
  cases taken
  exact ⟨rfl, choice, (congrArg Prod.fst both).symm, congrArg Prod.snd both⟩

/-- The revocation of a call: what was accepted before it is gone by what follows it. -/
theorem exists_revocation (jti : String) {pid : Nat} {log : List (backend d token_store).Entry} (genuine : AllGenuine log)
    (revoked : Revoked token_store userId (history pid log))
    (listed : token_store = .Redis → ∀ event, .performed event ∈ log → revoking event pid userId = true →
      AllNamed userId event.before) :
    ∃ (newer : List (backend d token_store).Entry) (revocation : (backend d token_store).Event)
      (older : List (backend d token_store).Entry), log = newer ++ .performed revocation :: older ∧
        revoking revocation pid userId = true ∧
        ¬ Lasts (Accepted token_store jti userId) (newer ++ [.performed revocation]) := by
  cases token_store with
  | InMemory =>
    have asked : (⟨.map (.revokeUser userId), ()⟩ : Taken interface) ∈ history pid log := revoked
    obtain ⟨event, member, own, _, taken⟩ := mem_history asked
    obtain ⟨newer, older, split⟩ := List.append_of_mem member
    obtain ⟨op, choice, _, became⟩ := performed_as (genuine event member) taken
    refine ⟨newer, event, older, split, ?_, fun lasts => ?_⟩
    · simp [revoking, own, op, Op.revokes]
    · have accepted : event.after.accepts .InMemory jti = some userId := (lasts event (by simp)).2
      rw [became] at accepted
      obtain ⟨entry, there, _, own⟩ := accepts_map.mp accepted
      have other : entry.user_id ≠ userId := of_decide_eq_true (Option.filter_eq_some_iff.mp there).2
      exact other own
  | Redis =>
    obtain ⟨newest, past, members, split, deleted⟩ := revoked
    obtain ⟨newer, event, older, rfl, own, _, taken, newest_eq, _⟩ := history_parts split
    have performed : .performed event ∈ newer ++ .performed event :: older := by simp
    obtain ⟨op, choice, answered, became⟩ := performed_as (genuine event performed) taken
    have begins : revoking event pid userId = true := by simp [revoking, own, op, Op.revokes]
    refine ⟨newer, event, older, rfl, begins, fun lasts => ?_⟩
    have set : event.before.redis.membersAt event.before.clock (userRefreshSetKey userId) = some members := by
      have replied := (redis_answered answered).1
      simp only [Keyspace.Command.run] at replied
      split at replied
      · rename_i there
        rw [there]
        exact congrArg some (Except.ok.inj replied)
      · cases replied
    have member : jti ∈ members := listed rfl event performed begins jti members (lasts event (by simp)).1 set
    obtain ⟨there, asked⟩ := deleted jti member
    rw [← newest_eq] at asked
    obtain ⟨deletion, among, _, _, taken⟩ := mem_history asked
    obtain ⟨_, choice, answered, became⟩ := performed_as (genuine deletion (by simp [among])) taken
    have accepted : deletion.after.accepts .Redis jti = some userId := (lasts deletion (by simp [among])).2
    have gone : Gone .Redis jti deletion.after := by
      have ends : Ends .Redis jti (.redis (.del (refreshTokenKey jti)))
          (perform (.redis (.del (refreshTokenKey jti))) choice deletion.before).1 = true := by
        rw [answered]
        exact decide_eq_true ⟨rfl, rfl⟩
      rw [became]
      exact gone_of_ends ends
    cases (gone.tokenAt (Int.le_refl _)).symm.trans accepted

/-- Once all tokens of a user have been found and deleted, and none is stored, none is left. -/
theorem unaccepted_of_revoked {start : World} {pid : Nat}
    (traced : Traced (Accepted token_store jti userId) (Put jti userId) start view.world view.log)
    (genuine : AllGenuine view.log) (revoked : Revoked token_store userId (history pid view.log))
    (listed : token_store = .Redis → ∀ event, .performed event ∈ view.log →
      revoking event pid userId = true → AllNamed userId event.before)
    (quiet : after (storing · userId) (revoking · pid userId) view.log = false) :
    ¬ Accepted token_store jti userId view.world := by
  intro accepted
  obtain ⟨newer, revocation, older, split, begins, outlasts⟩ :=
    exists_revocation jti genuine revoked listed
  refine outlasts ?_
  rcases traced accepted with ⟨_, lasts⟩ | ⟨newer', put, older', split', stores, lasts⟩
  · refine fun event member => lasts event ?_
    rw [split]
    simp only [List.mem_append, List.mem_cons, List.not_mem_nil, or_false] at member ⊢
    exact member.imp_right .inl
  · rcases compare (split'.symm.trans split) with ⟨between, rfl, rfl⟩ | ⟨same, _⟩ | ⟨between, rfl, rfl⟩
    · -- the token would have been stored since
      have raced : after (storing · userId) (revoking · pid userId) view.log = true := by
        rw [split']
        exact after_of_mem (storing_of_put stores) (by simp) begins
      rw [quiet] at raced
      cases raced
    · cases same
      exact absurd stores (not_put_of_revokes (Bool.and_eq_true_iff.mp begins).2)
    · refine fun event member => lasts event ?_
      simp only [List.mem_append, List.mem_cons, List.not_mem_nil, or_false] at member ⊢
      exact member.imp_right .inl

/-! ## What descends from before -/

/-- A row read by its id has this id. -/
theorem namesRow_of_genuine {event : (backend d token_store).Event} (genuine : event.Genuine) :
    NamesRow (⟨event.op, event.answer⟩ : Taken interface) := by
  intro id row taken
  obtain ⟨_, choice, answered, _⟩ := performed_as genuine taken
  simp only [perform, UserStmt.run] at answered
  cases settled : choice.outcome with
  | failed | lost =>
    simp only [settled] at answered
    cases answered
  | done =>
    simp only [settled] at answered
    have found : event.before.users.find (.id id) = some row := Except.ok.inj answered
    exact of_decide_eq_true (UserTable.find_mem found).2

/-- The process has found a token that was not this user's. -/
def Estranged (pid : Nat) (userId : Int) (log : List (backend d token_store).Entry) : Prop :=
  ∃ event, .performed event ∈ log ∧ event.pid = pid ∧ event.helper = false ∧
    ∃ token, found token_store event.op event.answer = some token ∧
      ∀ jti, token ≠ (refreshTokenKey jti, some userId)

/-- No token of the user that is accepted descends from before the change, and who holds something
from before stores no token for the user.
-/
structure Clean (changer : Nat) (userId : Int) (start : World) (view : (backend d token_store).View) : Prop where
  traced : ∀ jti, AllTraced (Accepted token_store jti userId) (Put jti userId) start view
  tokens : ∀ jti, Accepted token_store jti userId view.world →
    (Lines.since changer userId view.log).tokens (refreshTokenKey jti) = false
  holders : ∀ pid, (Lines.since changer userId view.log).holders pid = true →
    after (changing · userId) (acquiring · pid) view.log = true ∨ Estranged pid userId view.log

variable {changer pid : Nat} {start : World} {call : Call} {op : Op} {choice : Choice}

theorem Estranged.cons {log : List (backend d token_store).Entry} (estranged : Estranged pid userId log)
    (entry : (backend d token_store).Entry) : Estranged pid userId (entry :: log) := by
  obtain ⟨event, member, rest⟩ := estranged
  exact ⟨event, List.mem_cons_of_mem _ member, rest⟩

/-- A token that was not the user's does not let the process store one for the user. -/
theorem not_estranged {token : String × Option Int} (genuine : AllGenuine view.log)
    (asks : AsksFor (backend d token_store) call (history pid view.log) op)
    (puts : putting token_store op choice = some token) (own : token.2 = some userId) :
    ¬ Estranged pid userId view.log := by
  rintro ⟨event, member, rfl, program, other, finds, foreign⟩
  have stores : op.stored token_store = some (token.1, some userId) := by
    have same : op.stored token_store = some token := by
      cases op with
      | redis command =>
        simp only [putting, Option.ite_none_right_eq_some] at puts
        exact puts.2
      | _ => exact puts
    rw [same, ← own]
  have credible : ∀ taken ∈ history event.pid view.log, NamesRow taken := by
    intro taken member
    obtain ⟨past, performed, _, _, rfl⟩ := mem_history member
    exact namesRow_of_genuine (genuine past performed)
  have learnt : (⟨event.op, event.answer⟩ : Taken interface) ∈ history event.pid view.log := by
    obtain ⟨newer, older, split⟩ := List.append_of_mem member
    have own : history event.pid (.performed event :: older) =
        ⟨event.op, event.answer⟩ :: history event.pid older := by simp [history, program]
    rw [split, history_append, own]
    exact List.mem_append_right _ List.mem_cons_self
  obtain ⟨jti, same⟩ := asks.allowed (granted_call call) credible _ _ stores _ learnt other finds
  exact foreign jti same

/-- A change that is reported has been made. -/
theorem updates_of_changed {w : World} (changed : changedUser op (perform op choice w).1 = some userId) :
    ∃ passwordHash, op = .sql (.updatePassword userId passwordHash) ∧ choice.outcome = .done := by
  generalize answered : (perform op choice w).1 = answer at changed
  unfold changedUser at changed
  split at changed
  · rename_i other passwordHash
    cases changed
    refine ⟨passwordHash, rfl, ?_⟩
    -- a change that fails, or whose answer is lost, is not reported
    cases settled : choice.outcome with
    | done => rfl
    | failed | lost =>
      simp only [perform, settled] at answered
      cases answered
  · cases changed

/-- A change of password leaves the tokens alone. -/
theorem accepted_of_update {passwordHash : String} {w : World}
    (accepted : Accepted token_store jti userId (perform (.sql (.updatePassword userId passwordHash)) choice w).2) :
    Accepted token_store jti userId w := by
  rcases accepts_perform accepted with put | ⟨before, _⟩
  · cases put
  · exact before

/-- When the password is changed, no token of the user is accepted. -/
theorem Clean.unaccepted (clean : Clean changer userId start view) (genuine : AllGenuine view.log)
    (asks : AsksFor (backend d token_store) call (history pid view.log) op)
    (meets : (unraced d token_store).performs pid call op choice view)
    (changes : changedUser op (perform op choice view.world).1 = some userId) :
    ¬ Accepted token_store jti userId (perform op choice view.world).2 := by
  obtain ⟨passwordHash, rfl, settled⟩ := updates_of_changed changes
  obtain ⟨listed, quiet⟩ := meets.1 userId rfl settled
  have revoked := asks.allowed (revokesFirst_call call) userId passwordHash rfl
  exact fun accepted =>
    unaccepted_of_revoked (clean.traced jti).now genuine revoked listed quiet (accepted_of_update accepted)

section Next

variable (lines : Lines) (event : (backend d token_store).Event)

theorem next_tokens_of_put (put : stored event = some (refreshTokenKey jti, some userId)) :
    (lines.next event).tokens (refreshTokenKey jti) = lines.holders event.pid := by
  have chosen : (stored event).filter (·.1 = refreshTokenKey jti) = some (refreshTokenKey jti, some userId) := by
    rw [put]
    exact if_pos (decide_eq_true rfl)
  exact congrArg (Option.elim · _ fun _ => lines.holders event.pid) chosen

theorem next_tokens_of_other (other : ∀ user, stored event ≠ some (refreshTokenKey jti, user)) :
    (lines.next event).tokens (refreshTokenKey jti) = lines.tokens (refreshTokenKey jti) := by
  have chosen : (stored event).filter (·.1 = refreshTokenKey jti) = none := by
    refine Option.filter_eq_none_iff.mpr fun token puts same => other token.2 (puts.trans ?_)
    rw [← of_decide_eq_true same]
  exact congrArg (Option.elim · _ fun _ => lines.holders event.pid) chosen

/-- A new holder has found a token of the lines. -/
theorem next_holders (holds : (lines.next event).holders pid = true) :
    lines.holders pid = true ∨ (event.pid = pid ∧
      ∃ token, found token_store event.op event.answer = some token ∧ lines.tokens token.1 = true) := by
  refine (Bool.or_eq_true_iff.mp holds).imp_right fun new => ?_
  obtain ⟨own, some⟩ := Bool.and_eq_true_iff.mp new
  obtain ⟨token, finds, tainted⟩ := (Option.any_eq_true _ _).mp some
  exact ⟨of_decide_eq_true own, token, finds, tainted⟩

end Next

/-- The newest event, if it is not the change itself. -/
theorem Clean.goes_on (clean : Clean changer userId start view) (genuine : AllGenuine view.log)
    (asks : AsksFor (backend d token_store) call (history pid view.log) op)
    (meets : (unraced d token_store).performs pid call op choice view) :
    (∀ jti, Accepted token_store jti userId (perform op choice view.world).2 →
      ((Lines.since changer userId view.log).next (view.event pid call false op choice)).tokens
        (refreshTokenKey jti) = false) ∧
    ∀ other, ((Lines.since changer userId view.log).next (view.event pid call false op choice)).holders other =
      true → after (changing · userId) (acquiring · other) view.log = true ∨
        Estranged other userId (.performed (view.event pid call false op choice) :: view.log) := by
  constructor
  · intro jti accepted
    rcases accepts_perform accepted with put | ⟨before, other⟩
    · -- a holder would have stored it: it raced the change, or it had found another user's token
      refine (next_tokens_of_put _ (view.event pid call false op choice) put).trans (Bool.eq_false_iff.mpr fun holds => ?_)
      rcases clean.holders pid holds with raced | estranged
      · rw [meets.2 _ put userId rfl] at raced
        cases raced
      · exact not_estranged genuine asks put rfl estranged
    · exact (next_tokens_of_other _ (view.event pid call false op choice) other).trans (clean.tokens jti before)
  · intro other holds
    rcases next_holders _ _ holds with old | ⟨own, token, finds, tainted⟩
    · exact (clean.holders other old).imp_right (Estranged.cons · _)
    · refine .inr ⟨_, List.mem_cons_self, own, rfl, token, finds, fun jti same => ?_⟩
      -- a token of the user that is found was accepted, so it is none of the lines
      rw [same] at finds tainted
      have accepted : Accepted token_store jti userId view.world := accepts_of_found finds
      rw [clean.tokens jti accepted] at tainted
      cases tainted

theorem Clean.performs (clean : Clean changer userId start view) (genuine : AllGenuine view.log)
    (asks : AsksFor (backend d token_store) call (history pid view.log) op)
    (meets : (unraced d token_store).performs pid call op choice view) :
    Clean changer userId start (view.performs pid call false op choice) := by
  have traced jti := (clean.traced jti).performs (accepted_broughtBy jti userId) pid call false op choice
  by_cases change : pid = changer ∧ changing (view.event pid call false op choice) userId = true
  · -- the change itself: the lines begin with all tokens, and none is accepted any more
    have begins : Lines.since changer userId (view.performs pid call false op choice).log = .whole view.log :=
      if_pos change
    refine ⟨traced, fun jti accepted => ?_, fun other holds => .inl ?_⟩
    · have changes : changedUser op (perform op choice view.world).1 = some userId := of_decide_eq_true change.2
      exact absurd accepted (clean.unaccepted genuine asks meets changes)
    · rw [begins] at holds
      exact after_cons_of_any change.2 holds
  · have goes : Lines.since changer userId (view.performs pid call false op choice).log =
        (Lines.since changer userId view.log).next (view.event pid call false op choice) := if_neg change
    obtain ⟨tokens, holders⟩ := clean.goes_on genuine asks meets
    refine ⟨traced, fun jti accepted => ?_, fun other holds => ?_⟩
    · rw [goes]
      exact tokens jti accepted
    · rw [goes] at holds
      exact (holders other holds).imp_left (after_cons _)

/-- An entry that is no operation adds nothing. -/
theorem Clean.push (clean : Clean changer userId start view) {entry : (backend d token_store).Entry}
    (silent : ∀ event, entry ≠ .performed event) : Clean changer userId start (view.push entry) := by
  have same : Lines.since changer userId (entry :: view.log) = Lines.since changer userId view.log := by
    cases entry with
    | performed event => exact absurd rfl (silent event)
    | _ => rfl
  refine ⟨fun jti => (clean.traced jti).push silent id, fun jti accepted => ?_, fun other holds => ?_⟩
  · exact same ▸ clean.tokens jti accepted
  · exact (clean.holders other (same ▸ holds)).imp (after_cons entry) (Estranged.cons · entry)

theorem clean_upheld : Upheld (unraced d token_store) (@Clean d token_store changer userId start) where
  performed _ pid call op next choice genuine clean _ leads meets := clean.performs genuine ⟨next, leads⟩ meets
  background view pid call op choice _ clean _ permitted := by cases permitted
  started view pid call clean _ _ := clean.push (fun event same => by cases same)
  returned view pid call reply clean _ _ := clean.push (fun event same => by cases same)
  crashed view pid clean := clean.push (fun event same => by cases same)
  env view event clean _ := by
    refine ⟨fun jti => ⟨fun now => ?_, (clean.traced jti).before⟩, fun jti accepted => ?_, clean.holders⟩
    · exact (clean.traced jti).now (accepts_env now)
    · exact clean.tokens jti (accepts_env accepted)

theorem clean_run (meets : Meets (unraced d token_store) (initial world) labels) :
    Clean changer userId world (run (initial world) labels).view := by
  refine clean_upheld.run world [] labels ⟨fun jti => ?_, ?_, ?_⟩ meets
  · refine ⟨fun now => .inl ⟨now, ?_⟩, fun newer event older split => ?_⟩
    · intro event member
      cases member
    · cases newer <;> cases split
  · intro jti accepted
    rfl
  · intro pid holds
    cases holds

/-! ## Every run -/

/-- A call that is told the password is changed has changed it. And no token of the user that is
still accepted descends from before a change.
-/
structure EndsSessions (view : (backend d token_store).View) : Prop where
  told : ∀ newer older pid userId payload, view.log = newer ++ .returned pid (Reply.finished (.ok ())) :: older →
    live pid older = some (Call.changePassword userId payload) →
    older.any (Entry.performs fun event => event.pid = pid && changing event userId) = true
  ended : ∀ pid userId jti, Accepted token_store jti userId view.world →
    (Lines.since pid userId view.log).tokens (refreshTokenKey jti) = false

/-- In every run in which no call races a change of password, a change ends the sessions there were. -/
theorem password_ends_sessions (meets : Meets (unraced d token_store) (initial world) labels) :
    EndsSessions (run (initial world) labels).view := by
  constructor
  · intro newer older pid userId payload split alive
    obtain ⟨call, alive', tells⟩ := (tracks_run world labels).promised revokesFirst_call split
    cases alive.symm.trans alive'
    obtain ⟨taken, member, changes⟩ := tells
    obtain ⟨event, performed, own, _, rfl⟩ := mem_history member
    refine List.any_eq_true.mpr ⟨_, performed, ?_⟩
    exact Bool.and_eq_true_iff.mpr ⟨decide_eq_true own, decide_eq_true changes⟩
  · exact fun pid userId jti => (clean_run meets).tokens jti

/-! ## A changed password -/

instance decideUnracedStarts (call : (backend d .InMemory).Call) (view : (backend d .InMemory).View) :
    Decidable ((unraced d .InMemory).starts call view) := isTrue trivial

/-- The tokens in memory need no set. -/
instance decideUnraced (pid : Nat) (call : (backend d .InMemory).Call) (op : (backend d .InMemory).I.Op)
    (choice : (backend d .InMemory).Choice) (view : (backend d .InMemory).View) :
    Decidable ((unraced d .InMemory).performs pid call op choice view) :=
  decidable_of_iff ((∀ userId ∈ Op.updated op, choice.outcome = .done →
      after (storing · userId) (revoking · pid userId) view.log = false) ∧
    ∀ token ∈ putting .InMemory op choice, ∀ userId ∈ token.2,
      after (changing · userId) (acquiring · pid) view.log = false)
    ⟨fun quiet => ⟨fun userId updates done => ⟨nofun, quiet.1 userId updates done⟩, quiet.2⟩,
      fun quiet => ⟨fun userId updates done => (quiet.1 userId updates done).2, quiet.2⟩⟩

instance decideUnracedEnv (event : (backend d .InMemory).Env) (view : (backend d .InMemory).View) :
    Decidable ((unraced d .InMemory).env event view) := isTrue trivial

/-- A login, a change of the password, a login with the new one, and a refresh. -/
def changedRun : List (backend plainDeployment .InMemory).Label :=
  let withPassword (password : String) : Json :=
    .object [("username", .string "alice"), ("password", .string password)]
  let passwords : Json := .object [("old_password", .string "secret"), ("new_password", .string "hidden secret")]
  .start (.login (withPassword "secret")) :: List.replicate 8 (.act 0 {}) ++
    .start (.changePassword 1 passwords) :: List.replicate 8 (.act 1 {}) ++
    .start (.login (withPassword "hidden secret")) :: List.replicate 8 (.act 2 { bytes := fun _ => 1 }) ++
    .start (.refresh (.object [("refresh_token", .string (utils.uuid fun _ => 1))])) ::
      List.replicate 10 (.act 3 { bytes := fun _ => 2 })

theorem password_ends_sessions_changed : EndsSessions (run (initial aliceWorld) changedRun).view :=
  password_ends_sessions (by decide +kernel)

end Text2Image.Auth
