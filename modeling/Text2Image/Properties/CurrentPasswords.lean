import Text2Image.Concurrency.Observation
import Text2Image.Properties.DisabledAccounts
import Text2Image.Services.StoredPasswords

/-! Whom a login lets in: whoever knows the password that was stored last for the user, up to what
PBKDF2 tells apart.
-/

set_option autoImplicit false

namespace Text2Image.Auth

open Concurrency System

variable {d : Deployment} {token_store : RefreshTokenStore}

/-! ## What is stored -/

/-- A user of this id has this text for a password. -/
def HasHash (id : Int) (stored : String) (w : World) : Prop :=
  ∃ row ∈ w.users.rows, row.id = id ∧ row.password = stored

/-- The event stores the text for the user of this id. -/
def GivesHash (id : Int) (stored : String) (event : (backend d token_store).Event) : Prop :=
  (∃ user, event.op = .sql (.insert user) ∧ user.password = stored ∧ event.before.users.users.next = id) ∨
    event.op = .sql (.updatePassword id stored)

/-- A change of some rows either leaves the user's or makes it what it is. -/
theorem hasHash_modify (t : UserTable) {changed id : Int} {stored : String} (change : UserRow → UserRow)
    (keeps : ∀ row, (change row).id = row.id ∧ (change row).username = row.username ∧ (change row).email = row.email)
    (now : ∃ row ∈ (t.modify changed change keeps).rows, row.id = id ∧ row.password = stored) :
    (∃ row ∈ t.rows, row.id = id ∧ row.password = stored) ∨
      ∃ row ∈ t.rows, row.id = id ∧ changed = id ∧ (change row).password = stored := by
  obtain ⟨row, member, same, text⟩ := now
  obtain ⟨old, present, rfl⟩ := List.mem_map.mp member
  by_cases named : old.id = changed
  · simp only [named, decide_true, if_true] at same text
    rw [(keeps old).1] at same
    exact .inr ⟨old, present, same, named.symm.trans same, text⟩
  · simp only [named, decide_false, Bool.false_eq_true, if_false] at same text
    exact .inl ⟨old, present, same, text⟩

theorem perform_hasHash {op : Op} {choice : Choice} {w : World} {id : Int} {stored : String}
    (now : HasHash id stored (perform op choice w).2) : HasHash id stored w ∨
      (∃ user, op = .sql (.insert user) ∧ user.password = stored ∧ w.users.users.next = id) ∨
      op = .sql (.updatePassword id stored) := by
  have effect : ∀ s, op = .sql s → HasHash id stored w ∨
      ∃ row ∈ (s.run w.users).2.rows, row.id = id ∧ row.password = stored := by
    rintro s rfl
    unfold HasHash at now
    rw [perform_sql] at now
    split at now
    · exact .inr now
    · exact .inl now
  cases op with
  | sql s =>
    rcases effect s rfl with before | wrote
    · exact .inl before
    cases s with
    | select key => exact .inl wrote
    | insert user =>
      simp only [UserStmt.run, UserTable.insert] at wrote
      split at wrote
      · rename_i t' inserted
        split at inserted
        case isFalse => cases inserted
        cases inserted
        obtain ⟨row, member, same, text⟩ := wrote
        rcases List.mem_append.mp member with old | new
        · exact .inl ⟨row, old, same, text⟩
        · obtain rfl := List.mem_singleton.mp new
          exact .inr (.inl ⟨user, rfl, text, same⟩)
      · exact .inl wrote
    | updatePassword changed hash =>
      have modified := hasHash_modify w.users (fun row => { row with password := hash }) (fun _ => ⟨rfl, rfl, rfl⟩) wrote
      rcases modified with before | ⟨row, _, _, rfl, rfl⟩
      · exact .inl before
      · exact .inr (.inr rfl)
  | _ =>
    left
    unfold HasHash at now
    rwa [keepsUsers_perform (by trivial)] at now

theorem hasHash_brought (id : Int) (stored : String) :
    BroughtBy (S := backend d token_store) (HasHash id stored) (GivesHash id stored) where
  performed event genuine now := by
    have after : event.after = (perform event.op event.choice event.before).2 := congrArg Prod.snd genuine
    exact perform_hasHash (after ▸ now)
  leave pid world now := now
  env event world now := by
    cases event with
    | passTime ticks => exact now
    | setEnabled userId enabled =>
      have modified := hasHash_modify world.users (fun row => { row with enabled := enabled })
        (fun _ => ⟨rfl, rfl, rfl⟩) now
      rcases modified with before | ⟨row, member, same, _, text⟩
      · exact before
      · exact ⟨row, member, same, text⟩

/-! ## Who is let in -/

/-- The user's password, as it was stored last, is one that PBKDF2 does not tell from this one: what is
stored is its hash with a fresh salt, was written by the registration or the change of password that
was given it, and has stood since.
-/
def Opens (password : String) (row : UserRow) (log : List (backend d token_store).Entry) : Prop :=
  ∃ newer writer older salt given past, log = newer ++ .performed writer :: older ∧
    GivesHash row.id row.password writer ∧ Lasts (HasHash row.id row.password) newer ∧
    history writer.pid older = (⟨.salt, some salt⟩ : Taken interface) :: past ∧
    writer.call.newPassword = some given ∧ IsHash d salt given row.password ∧
    d.digest salt password = d.digest salt given

section

variable {world : World} {labels : List (backend d token_store).Label}
  {newer older : List (backend d token_store).Entry} {event : (backend d token_store).Event}

theorem program_of_split
    (split : (System.run (initial world) labels).view.log = newer ++ .performed event :: older) :
    event.helper = false := by
  cases helper : event.helper with
  | false => rfl
  | true =>
    -- there are no helper threads here
    have may := allHelped_run world labels event (by rw [split]; simp) helper
    cases may

/-- What is stored is the hash of the password the call was given, with the salt drawn just before. -/
theorem hashed_of_gives {id : Int} {stored : String}
    (split : (System.run (initial world) labels).view.log = newer ++ .performed event :: older)
    (gives : GivesHash id stored event) : Hashed d event.call (history event.pid older) stored := by
  obtain ⟨_, asks⟩ := allAsked_run world labels newer event older split (program_of_split split)
  have allowed := asks.allowed (hashes_call d token_store event.call)
  rcases gives with ⟨user, inserts, rfl, _⟩ | updates
  · rw [inserts] at allowed
    exact allowed
  · rw [updates] at allowed
    exact allowed

/-- A password fits the row a read has found exactly if it opens it. -/
theorem opens_iff (empty : world.users.rows = []) {key : UserKey} {row : UserRow}
    (split : (System.run (initial world) labels).view.log = newer ++ .performed event :: older)
    (reads : (⟨event.op, event.answer⟩ : Taken interface) = ⟨.sql (.select key), .ok (some row)⟩)
    (password : String) :
    Opens password row older ↔ AuthService.verifyPassword d password row.password = .ok true := by
  have genuine := allGenuine_run world labels event (by rw [split]; simp)
  have present : HasHash row.id row.password event.before := by
    obtain ⟨pid, call, helper, op, choice, given, before, after⟩ := event
    cases reads
    have found : (perform (.sql (.select key)) choice before).1 = .ok (some row) :=
      (congrArg Prod.fst genuine).symm
    simp only [perform] at found
    cases settled : choice.outcome <;> simp only [settled] at found
    · have same : before.users.find key = some row := Except.ok.inj found
      exact ⟨row, (UserTable.find_mem same).1, rfl, rfl⟩
    all_goals cases found
  constructor
  · rintro ⟨between, writer, first, salt, given, past, rfl, gives, _, drawn, asked, hash, alike⟩
    rw [hash.verifies, decide_eq_true alike]
  · intro verifies
    have traced := ((hasHash_brought row.id row.password).run world labels).before newer event older split
    rcases traced present with ⟨⟨first, member, _⟩, _⟩ | ⟨between, writer, first, rfl, gives, lasts⟩
    · rw [empty] at member
      cases member
    have before : (System.run (initial world) labels).view.log =
        (newer ++ .performed event :: between) ++ .performed writer :: first := by
      rw [split, List.append_assoc, List.cons_append]
    obtain ⟨salt, given, past, drawn, asked, hash⟩ := hashed_of_gives before gives
    rw [hash.verifies] at verifies
    have alike := of_decide_eq_true (Except.ok.inj verifies)
    exact ⟨between, writer, first, salt, given, past, rfl, gives, lasts, drawn, asked, hash, alike⟩

end

/-- A login gives tokens exactly if it presents credentials, all it asks for is answered, and the
password it presents is, up to its digest, the one that was stored last for the user it has read.
-/
theorem login_opens {world : World} {labels : List (backend d token_store).Label} (empty : world.users.rows = [])
    {newer older : List (backend d token_store).Entry} {pid : Nat} {payload : Json}
    {result : Except Failure LoginResult}
    (split : (System.run (initial world) labels).view.log = newer ++ .returned pid (.tokens result) :: older)
    (alive : live pid older = some (.login payload)) :
    result.isOk = true ↔ ∃ credentials, presentedCredentials payload = some credentials ∧
      ∀ newest event first, older = newest ++ .performed event :: first → event.pid = pid →
        event.op.answered event.answer = true ∧ ∀ key, event.op = .sql (.select key) →
          ∃ row, (⟨event.op, event.answer⟩ : Taken interface) = ⟨.sql (.select key), .ok (some row)⟩ ∧
            Opens credentials.password row first := by
  have grants : result.isOk = true ↔ LoginGrants d payload (history pid older) := by
    obtain ⟨call, alive', told⟩ := (tracks_run world labels).promised call_grants split
    cases alive.symm.trans alive'
    exact told
  rw [grants]
  refine exists_congr fun credentials => and_congr_right fun _ => ?_
  constructor
  · rintro served newest event first rfl rfl
    have place : (System.run (initial world) labels).view.log =
        (newer ++ .returned event.pid (.tokens result) :: newest) ++ .performed event :: first := by
      rw [split, List.append_assoc, List.cons_append]
    obtain ⟨answered, wanted⟩ := served _ (history_of_performed (by simp) (program_of_split place))
    refine ⟨answered, fun key selects => ?_⟩
    obtain ⟨pid, call, helper, op, choice, answer, before, after⟩ := event
    cases selects
    rcases answer with error | none | row
    · cases wanted
    · cases wanted
    · refine ⟨row, rfl, (opens_iff empty place rfl credentials.password).mpr ?_⟩
      simp only [loginWants] at wanted
      split at wanted
      · rename_i correct verifies
        rwa [wanted] at verifies
      · cases wanted
  · intro opens taken member
    obtain ⟨event, performed, own, _, rfl⟩ := mem_history member
    obtain ⟨newest, first, rfl⟩ := List.append_of_mem performed
    have place : (System.run (initial world) labels).view.log =
        (newer ++ .returned pid (.tokens result) :: newest) ++ .performed event :: first := by
      rw [split, List.append_assoc, List.cons_append]
    obtain ⟨answered, opened⟩ := opens newest event first rfl own
    refine ⟨answered, ?_⟩
    obtain ⟨owner, call, helper, op, choice, answer, before, after⟩ := event
    cases op with
    | sql s =>
      cases s with
      | select key =>
        obtain ⟨row, found, opens⟩ := opened key rfl
        have verifies := (opens_iff empty place found credentials.password).mp opens
        cases found
        simp only [loginWants, verifies]
      | _ => rfl
    | _ => rfl

/-! ## A registration and a login -/

def enrolment : Json :=
  .object [("username", .string "alice"), ("email", .string "alice@example.com"), ("password", .string "secret")]

def enrolledRun : List (backend plainDeployment .InMemory).Label :=
  .start (.register enrolment) :: List.replicate 4 (.act 0 {}) ++
    .start (.login aliceLogin) :: List.replicate 8 (.act 1 {})

/-- Whether the login that has just replied was granted tokens. -/
def loginReply : List (backend d token_store).Entry → Option Bool
  | .returned pid (.tokens result) :: older =>
    match live pid older with
    | some (.login _) => some result.isOk
    | _ => none
  | _ => none

theorem loginReply_eq {log : List (backend d token_store).Entry} {granted : Bool}
    (replied : loginReply log = some granted) : ∃ pid payload result older,
      log = .returned pid (.tokens result) :: older ∧ live pid older = some (.login payload) ∧
        result.isOk = granted := by
  unfold loginReply at replied
  split at replied
  · rename_i pid result older
    split at replied
    · rename_i payload alive
      exact ⟨pid, payload, result, older, rfl, alive, Option.some.inj replied⟩
    · cases replied
  · cases replied

/-- The login with the password of the registration is granted tokens, and its read opens the account. -/
theorem login_opens_enrolled : ∃ pid payload credentials, ∃ older : List (backend plainDeployment .InMemory).Entry,
    live pid older = some (.login payload) ∧ presentedCredentials payload = some credentials ∧
      ∀ newest (event : (backend plainDeployment .InMemory).Event) first,
        older = newest ++ .performed event :: first → event.pid = pid →
          event.op.answered event.answer = true ∧ ∀ key, event.op = .sql (.select key) →
            ∃ row, (⟨event.op, event.answer⟩ : Taken interface) = ⟨.sql (.select key), .ok (some row)⟩ ∧
              Opens credentials.password row first := by
  have replied : loginReply (run (initial World.empty) enrolledRun).view.log = some true := by decide +kernel
  obtain ⟨pid, payload, result, older, split, alive, granted⟩ := loginReply_eq replied
  have opens := login_opens rfl (show _ = [] ++ _ from split) alive
  obtain ⟨credentials, presented, opened⟩ := opens.mp granted
  exact ⟨pid, payload, credentials, older, alive, presented, opened⟩

end Text2Image.Auth
