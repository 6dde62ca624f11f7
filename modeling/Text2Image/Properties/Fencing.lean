import Text2Image.Properties.Transitions
import Text2Image.Services.Executions

/-! Fencing: who holds a claim, and who writes back under it. -/

set_option autoImplicit false

namespace Text2Image

open Concurrency System TaskStatus

variable {config : Config}

/-- The process that has claimed the row last. -/
def holder (id : Int) : List (backend config).Entry → Option Nat
  | [] => none
  | entry :: older => if (taken id entry).isSome then some entry.pid else holder id older

/-- The process has claimed the row for this worker. -/
def Took (pid : Nat) (workerId : String) (id : Int) (log : List (backend config).Entry) : Prop :=
  ∃ entry ∈ log, entry.pid = pid ∧ taken id entry = some workerId

/-- The statements a worker writes back with. -/
def Stmt.writesBack : Stmt → Bool
  | .renewLease .. | .finishClaimedTask _ | .deferClaimedTask .. => true
  | _ => false

/-- What is written back to a row comes from the process that holds its claim. -/
def fenced (entry : (backend config).Entry) (older : List (backend config).Entry) : Bool :=
  (statementOf entry).all fun found => ! found.2.writesBack ||
    found.1.rows.all fun row => ! found.2.hits found.1 row || holder row.id older = some entry.pid

variable {s : Stmt} {t : ImageTable} {row row' : Row} {call : Call} {workerId : String} {pid : Nat}
  {id : Int} {log : List (backend config).Entry} {entry : (backend config).Entry}

theorem fenced_of (found : statementOf entry = some (t, s))
    (own : s.writesBack = true → ∀ row ∈ t.rows, s.hits t row = true →
      holder row.id log = some entry.pid) : fenced entry log = true := by
  unfold fenced
  rw [found, Option.all_some, Bool.or_eq_true]
  by_cases writes : s.writesBack = true
  · right
    refine List.all_eq_true.mpr fun row member => ?_
    by_cases hit : s.hits t row = true
    · simp [own writes row member hit]
    · simp [hit]
  · left
    simp [writes]

theorem taken_silent (silent : statementOf entry = none) : taken id entry = none := by
  simp [taken, silent]

theorem taken_present (found : statementOf entry = some (t, s)) (present : row ∈ t.rows) :
    taken row.id entry = if s.hits t row then s.claimant else none := by
  have there : t.find row.id = some row := Keyed.Table.find_eq_some.mpr ⟨present, rfl⟩
  simp [taken, found, there]

theorem taken_found (found : statementOf entry = some (t, s)) (took : taken id entry = some workerId) :
    ∃ row ∈ t.rows, row.id = id ∧ s.hits t row = true ∧ s.claimant = some workerId := by
  simp only [taken, found, Option.bind_some] at took
  split at took
  · rename_i matched
    obtain ⟨row, present, hit⟩ := (Option.any_eq_true _ _).mp matched
    obtain ⟨member, key⟩ := Keyed.Table.find_eq_some.mp present
    exact ⟨row, member, key, hit, took⟩
  · cases took

theorem holder_of_taken (entry : (backend config).Entry) (took : taken id entry = none) :
    holder id (entry :: log) = holder id log := by
  simp [holder, took]

theorem Took.grow (took : Took pid workerId id log) : Took pid workerId id (entry :: log) := by
  obtain ⟨old, member, rest⟩ := took
  exact ⟨old, List.mem_cons_of_mem _ member, rest⟩

theorem Took.cons (took : Took pid workerId id (entry :: log)) :
    (entry.pid = pid ∧ taken id entry = some workerId) ∨ Took pid workerId id log := by
  obtain ⟨old, member, own, claimed⟩ := took
  rcases List.mem_cons.mp member with rfl | older
  · exact .inl ⟨own, claimed⟩
  · exact .inr ⟨old, older, own, claimed⟩

/-! ## One statement -/

/-- A claim leaves the rows it does not match alone. -/
theorem Stmt.onRow_of_claimant (claim : s.claimant = some workerId)
    (became : s.onRow t row = some row') :
    (s.hits t row = true ∧ row'.worker_id = some workerId) ∨ (s.hits t row = false ∧ row' = row) := by
  cases s with
  | claimNextTask worker now expiresAt | claimTaskById id worker now expiresAt =>
    have same : worker = workerId := Option.some.inj claim
    simp only [onRow, rowUpdate] at became
    split at became
    · rename_i guarded
      cases became
      exact .inl ⟨guarded, congrArg some same⟩
    · rename_i unguarded
      cases became
      exact .inr ⟨Bool.eq_false_iff.mpr unguarded, rfl⟩
  | _ => cases claim

/-- Only a claim gives a row to a worker. -/
theorem Change.held (change : Change s row (some row')) (unclaimed : s.claimant = none)
    (running : row'.status = Generating) (held : row'.heldBy workerId = true) :
    row.status = Generating ∧ row.heldBy workerId = true := by
  cases change with
  | kept => exact ⟨running, held⟩
  | claimNext | claimById => cases unclaimed
  | renew _ before => exact ⟨before, held⟩
  | requeue | timeout | finish | defer | cancel | retry => cases held

theorem Row.heldBy_trans {first second : String} (held : row.heldBy first = true)
    (same : collates first second = true) : row.heldBy second = true := by
  obtain ⟨worker, found, first'⟩ := (Option.any_eq_true _ _).mp held
  exact (Option.any_eq_true _ _).mpr ⟨worker, found, collates_trans first' same⟩

/-! ## The condition -/

/-- No other process at work has claimed a row under a name that the database
takes for the claimant's. -/
def Stmt.claimsAlone (pid : Nat) (view : (backend config).View) (s : Stmt) : Bool :=
  s.claimant.all fun workerId => view.world.db.rows.all fun row => ! s.hits view.world.db row ||
    view.log.all fun entry => entry.pid = pid || (live entry.pid view.log).isNone ||
      (taken row.id entry).all fun worker => ! collates worker workerId

/-- The read-back after a claim matches no row but the one the process has claimed. -/
def Stmt.readsOwn (pid : Nat) (view : (backend config).View) : Stmt → Bool
  | .readClaimed workerId expiresAt => (rowsClaimed view.world.db workerId expiresAt).all fun row =>
      view.log.any fun entry => entry.pid = pid && taken row.id entry = some workerId
  | _ => true

abbrev claimsApart : Condition (backend config) where
  starts _ _ := True
  performs pid _ op choice view :=
    (executed op choice).all fun s => s.claimsAlone pid view && s.readsOwn pid view

theorem Stmt.claimsAlone_apply {view : (backend config).View} (alone : s.claimsAlone pid view = true)
    (claim : s.claimant = some workerId) (member : row ∈ view.world.db.rows)
    (hit : s.hits view.world.db row = true) {other : Nat} (different : other ≠ pid)
    (alive : live other view.log = some call) {worker : String}
    (took : Took other worker row.id view.log) : collates worker workerId = false := by
  obtain ⟨entry, there, own, claimed⟩ := took
  rw [claimsAlone, claim, Option.all_some] at alone
  have apart := List.all_eq_true.mp alone row member
  rw [hit, Bool.not_true, Bool.false_or] at apart
  have each := List.all_eq_true.mp apart entry there
  simpa [own, different, alive, claimed] using each

theorem Stmt.readsOwn_apply {view : (backend config).View} {expiresAt : DbTime}
    (own : (Stmt.readClaimed workerId expiresAt).readsOwn pid view = true)
    (member : row ∈ rowsClaimed view.world.db workerId expiresAt) :
    Took pid workerId row.id view.log := by
  have found := List.all_eq_true.mp own row member
  obtain ⟨entry, there, claimed⟩ := List.any_eq_true.mp found
  rw [Bool.and_eq_true, decide_eq_true_eq, decide_eq_true_eq] at claimed
  exact ⟨entry, there, claimed.1, claimed.2⟩

/-! ## The invariant -/

/-- A row that a process at work has claimed, and that is still held under its
name, has not been claimed by anyone since; and what was read back is one's own. -/
structure Held (view : (backend config).View) : Prop where
  born : ∀ entry ∈ view.log, ∀ id workerId, taken id entry = some workerId → id < view.world.db.next
  current : ∀ pid call workerId id, live pid view.log = some call → Took pid workerId id view.log →
    ∀ row ∈ view.world.db.rows, row.id = id → row.status = Generating →
      row.heldBy workerId = true → holder id view.log = some pid
  reads : ∀ event, .performed event ∈ view.log → ∀ workerId expiresAt row,
    (⟨event.op, event.answer⟩ : Taken interface) =
      ⟨.sql (.readClaimed workerId expiresAt), .ok (some row)⟩ →
    Took event.pid workerId row.id view.log

/-- The row a turn works on is one it has claimed. -/
theorem Claimed.took {view : (backend config).View} (held : Held view) (genuine : AllGenuine view.log)
    (claimed : Claimed workerId (history pid view.log) row) :
    row.heldBy workerId = true ∧ Took pid workerId row.id view.log := by
  cases claimed with
  | @next now expiresAt changed _ claim some' read =>
    obtain ⟨event, member, own, _, same⟩ := mem_history read
    obtain ⟨_, answer⟩ := got_genuine (genuine event member) same
    have matched := (Keyed.Table.mem_select.mp (fetchOne_mem answer.symm)).2
    refine ⟨(of_decide_eq_true matched).1, ?_⟩
    exact own ▸ held.reads event member workerId expiresAt row same
  | @byId id now expiresAt changed _ claim some' read =>
    obtain ⟨event, member, own, _, found, counted⟩ := got_mem genuine claim
    obtain ⟨_, _, _, _, _, answer⟩ := got_mem genuine read
    have matched := (Keyed.Table.mem_select.mp (fetchOne_mem answer.symm)).2
    obtain ⟨key, holds, _⟩ := of_decide_eq_true matched
    refine ⟨holds, .performed event, member, own, ?_⟩
    -- the claim has changed a row, and only the row with this id can be it
    have positive : 0 < Stmt.affected (.claimTaskById id workerId now expiresAt) event.before.db :=
      Nat.lt_of_lt_of_eq some' counted
    obtain ⟨old, chosen⟩ := List.exists_mem_of_length_pos positive
    obtain ⟨there, guarded⟩ := Keyed.Table.mem_select.mp chosen
    have hit : (Stmt.claimTaskById id workerId now expiresAt).hits event.before.db old = true :=
      (of_decide_eq_true guarded).1
    have same : old.id = id := (of_decide_eq_true hit).1
    rw [key, ← same, taken_present found there, if_pos hit]
    rfl

/-- Whatever is executed on behalf of a turn, the row it matches is held by that turn. -/
theorem Acts.fenced {view : (backend config).View} {op : Op} {helper : Bool} {choice : Choice}
    (may : Acts config view pid call op helper) (owned : KeepersOwned config view) (held : Held view)
    (genuine : AllGenuine view.log) (alive : live pid view.log = some call)
    (found : executed op choice = some s) (writes : s.writesBack = true)
    (member : row ∈ view.world.db.rows) (hit : s.hits view.world.db row = true) :
    holder row.id view.log = some pid := by
  have current : ∀ {workerId : String} {copy : Row},
      Claimed workerId (history pid view.log) copy → row.id = copy.id → row.status = Generating →
      row.heldBy workerId = true → holder row.id view.log = some pid := by
    intro workerId copy claimed key running holds
    obtain ⟨_, took⟩ := claimed.took held genuine
    rw [← key] at took
    exact held.current pid call workerId row.id alive took row member rfl running holds
  obtain ⟨rfl, _⟩ := executed_eq_some.mp found
  cases s with
  | renewLease expiresAt id userId workerId =>
    obtain ⟨key, _, running, holds⟩ : row.id = id ∧ row.user_id = userId ∧
      row.status = Generating ∧ row.heldBy workerId = true := of_decide_eq_true hit
    cases helper with
    | false => cases call <;> exact may.elim
    | true =>
      rcases leaseKeeperMay_iff.mp may with ⟨_, _, _, other⟩ | ⟨keeper, present, own, same⟩
      · cases other
      · cases same
        subst own
        obtain ⟨_, copy, _, _, claimed, task, _⟩ := (owned keeper present).turn call alive
        exact current claimed (key.trans task) running holds
  | finishClaimedTask image =>
    obtain ⟨key, _, running, holds⟩ : row.id = image.id ∧ row.user_id = image.user_id ∧
      row.status = Generating ∧ row.heldBy image.worker_id = true := of_decide_eq_true hit
    cases helper with
    | true => cases may
    | false =>
      obtain ⟨index, copy, _, claimed, concludes⟩ := sends_finish may
      obtain ⟨read, _⟩ := claimed.took held genuine
      obtain ⟨worker, named, same⟩ := (Option.any_eq_true _ _).mp read
      have name : image.worker_id = worker := by
        rw [concludes.same.worker_id, named]
        rfl
      exact current claimed (key.trans concludes.same.id) running
        (Row.heldBy_trans (name ▸ holds) same)
  | deferClaimedTask id userId workerId failureCode errorMessage =>
    obtain ⟨key, _, running, holds⟩ : row.id = id ∧ row.user_id = userId ∧
      row.status = Generating ∧ row.heldBy workerId = true := of_decide_eq_true hit
    cases helper with
    | true => cases may
    | false =>
      obtain ⟨index, copy, _, claimed, task, _, named, _⟩ := sends_defer may
      exact current claimed (key.trans task) running (named ▸ holds)
  | _ => cases writes

/-- A statement executed under the condition keeps the invariant. -/
theorem Held.executed {view : (backend config).View} {op : Op} {helper : Bool} {choice : Choice}
    (held : Held view) (found : executed op choice = some s) (alone : s.claimsAlone pid view = true)
    (own : s.readsOwn pid view = true) : Held (view.performs pid call helper op choice) := by
  have newest : statementOf (.performed (view.event pid call helper op choice)) =
      some (view.world.db, s) := by
    rw [statementOf_performs, found]
    rfl
  have table : (view.performs pid call helper op choice).world.db = s.table view.world.db :=
    performs_db_executed found
  constructor
  · intro entry member id workerId took
    rw [table]
    refine Int.lt_of_lt_of_le ?_ (Stmt.next_le s _)
    rcases List.mem_cons.mp member with rfl | older
    · obtain ⟨row, there, rfl, _⟩ := taken_found newest took
      exact view.world.db.below row there
    · exact held.born entry older id workerId took
  · intro other otherCall workerId id alive took row' after key running holds
    rw [table] at after
    have alive' : live other view.log = some otherCall := alive
    rcases Stmt.mem_table.mp after with ⟨row, before, became⟩ | inserted
    · have same := Stmt.onRow_id became
      rw [← key, same] at took ⊢
      have newly := taken_present newest before
      -- what is still to show where nobody is given the row
      have kept : (if s.hits view.world.db row then s.claimant else none) = none →
          row.status = Generating → row.heldBy workerId = true →
          holder row.id (view.performs pid call helper op choice).log = some other := by
        intro none running' holds'
        rw [View.performs_log, holder_of_taken _ (newly.trans none)]
        rcases took.cons with ⟨_, now⟩ | older
        · rw [newly, none] at now
          cases now
        · exact held.current other otherCall workerId row.id alive' older row before rfl running' holds'
      cases claim : s.claimant with
      | none =>
        have change := s.onRow_change before
        rw [became] at change
        obtain ⟨running', holds'⟩ := change.held claim running holds
        exact kept (by rw [claim]; exact ite_self _) running' holds'
      | some claimant =>
        rcases Stmt.onRow_of_claimant claim became with ⟨hit, given⟩ | ⟨unhit, rfl⟩
        · rw [hit, if_pos rfl, claim] at newly
          simp only [View.performs_log, holder, newly, Option.isSome_some, if_true]
          by_cases different : other = pid
          · exact congrArg some different.symm
          · rcases took.cons with ⟨own', _⟩ | older
            · exact (different own'.symm).elim
            · -- the row is now held under a name the database tells from the other's
              have apart := Stmt.claimsAlone_apply alone claim before hit different alive' older
              have same' : collates claimant workerId = true := by
                simpa [Row.heldBy, given] using holds
              rw [collates_comm, same'] at apart
              cases apart
        · exact kept (by rw [unhit]; rfl) running holds
    · cases s with
      | insert values =>
        have fresh : row'.id = view.world.db.next := congrArg Row.id (Option.some.inj inserted).symm
        have older : id < view.world.db.next := by
          rcases took.cons with ⟨_, now⟩ | ⟨entry, there, _, before⟩
          · obtain ⟨row, there, rfl, _⟩ := taken_found newest now
            exact view.world.db.below row there
          · exact held.born entry there id workerId before
        omega
      | _ => cases inserted
  · intro event member workerId expiresAt row same
    rcases List.mem_cons.mp member with newer | older
    · cases newer
      have real : (view.event pid call helper op choice).Genuine := rfl
      obtain ⟨found', answer⟩ := got_genuine real same
      have sent := newest.symm.trans found'
      cases sent
      exact (Stmt.readsOwn_apply own (fetchOne_mem answer.symm)).grow
    · exact (held.reads event older workerId expiresAt row same).grow

/-- An entry that executes nothing keeps the invariant. -/
theorem Held.silent {view : (backend config).View} {after : World} (held : Held view)
    (same : after.db = view.world.db) (silent : statementOf entry = none)
    (real : ∀ event, entry = .performed event → event.Genuine)
    (fresh : ∀ pid call, entry = .started pid call → ∀ old ∈ view.log, old.pid ≠ pid) :
    Held ⟨after, entry :: view.log⟩ := by
  have older : ∀ {pid workerId id}, Took pid workerId id (entry :: view.log) →
      Took pid workerId id view.log := by
    intro pid workerId id took
    rcases took.cons with ⟨_, now⟩ | older
    · rw [taken_silent silent] at now
      cases now
    · exact older
  constructor
  · intro old member id workerId took
    rw [same]
    rcases List.mem_cons.mp member with rfl | earlier
    · rw [taken_silent silent] at took
      cases took
    · exact held.born old earlier id workerId took
  · intro pid call workerId id alive took row after' key running holds
    rw [holder_of_taken entry (taken_silent silent)]
    rw [same] at after'
    rcases live_cons alive with started | before
    · obtain ⟨old, member, own, _⟩ := older took
      exact (fresh pid call started old member own).elim
    · exact held.current pid call workerId id before (older took) row after' key running holds
  · intro event member workerId expiresAt row answered
    rcases List.mem_cons.mp member with newer | earlier
    · obtain ⟨found, _⟩ := got_genuine (real event newer.symm) answered
      rw [newer, silent] at found
      cases found
    · exact (held.reads event earlier workerId expiresAt row answered).grow

theorem held_kept : Kept config claimsApart fun view =>
    Held view ∧ LogAll (fun entry older => fenced entry older = true) view.log where
  acts view pid call helper op choice genuine owned holds alive may meets := by
    obtain ⟨held, all⟩ := holds
    have real : (view.event pid call helper op choice).Genuine := rfl
    cases found : executed op choice with
    | none =>
      have silent : statementOf (.performed (view.event pid call helper op choice)) = none := by
        rw [statementOf_performs, found]
        rfl
      refine ⟨?_, by simp [fenced, silent], all⟩
      have table : (view.performs pid call helper op choice).world.db = view.world.db :=
        performs_db_silent found
      refine held.silent table silent (fun event same => ?_) ?_
      · cases same
        exact real
      · intro _ _ same
        cases same
    | some s =>
      have suits : s.claimsAlone pid view = true ∧ s.readsOwn pid view = true := by
        simpa [claimsApart, found] using meets
      refine ⟨held.executed found suits.1 suits.2, ?_, all⟩
      have newest : statementOf (.performed (view.event pid call helper op choice)) =
          some (view.world.db, s) := by
        rw [statementOf_performs, found]
        rfl
      refine fenced_of newest fun writes row member hit => ?_
      exact may.fenced owned held genuine alive found writes member hit
  started view pid call holds unused _ := by
    refine ⟨?_, rfl, holds.2⟩
    refine Held.silent holds.1 rfl rfl (fun event same => by cases same) ?_
    intro other call' same old member
    cases same
    exact unused old member
  quiet view entry after holds settles unstarted unperformed := by
    have silent : statementOf entry = none := by
      cases entry with
      | performed event => exact (unperformed event rfl).elim
      | _ => rfl
    refine ⟨?_, by simp [fenced, silent], holds.2⟩
    refine Held.silent holds.1 settles.db silent (fun event same => (unperformed event same).elim) ?_
    intro pid call same
    exact (unstarted pid call same).elim
  passes view after holds settles := by
    obtain ⟨⟨born, current, reads⟩, all⟩ := holds
    refine ⟨⟨?_, ?_, reads⟩, all⟩
    · exact settles.db ▸ born
    · rw [← settles.db] at current
      exact current

/-- In every run in which no row is claimed under a name that another process at
work, which has claimed it before, goes by, and in which the read-back of a claim
finds no row but the claimed one: whatever a worker writes back to a row, or
renews, is written by the process that holds the row's claim. -/
theorem writes_fenced (world : World) (labels : List (backend config).Label)
    (apart : Meets claimsApart (boot config world) labels) :
    LogAll (fun entry older => fenced entry older = true)
      (run (boot config world) labels).view.log := by
  have start : Held (boot config world).view := by
    constructor
    · intro entry member
      cases member
    · intro pid call workerId id alive
      cases alive
    · intro event member
      cases member
  exact (held_kept.run ⟨start, trivial⟩ labels apart).2

/-- A worker claims a task and puts it back, the model service being unavailable. -/
def putBackRun : List (backend defaultConfig).Label :=
  .start (.create 1 (promptPayload "a") false) :: succeeds 0 5 ++
    .start (.workerTurn 0) :: acts 1 [refused, {}, {}, {}, {}, {}, {}, unavailable, {}]

/-- Two replicas run a first worker each. The first one's lease runs out, the
second one claims the task, and then the first one puts it back. -/
def takeoverRun : List (backend defaultConfig).Label :=
  .start (.create 1 (promptPayload "a") false) :: succeeds 0 5 ++
    .start (.workerTurn 0) :: acts 1 [refused, {}, {}, {}] ++
    .env (.setClock (Chrono.seconds 901)) ::
    .start (.workerTurn 0) :: acts 2 [refused, {}, {}, {}] ++ acts 1 [{}, {}, {}, unavailable, {}]

theorem writes_fenced_putBackRun :
    (rowsOf (run (boot defaultConfig World.empty) putBackRun)).map Row.retry_count = [1] ∧
      LogAll (fun entry older => fenced entry older = true)
        (run (boot defaultConfig World.empty) putBackRun).view.log :=
  ⟨by decide, writes_fenced World.empty putBackRun (by decide)⟩

/-- A worker puts back the newer claim of a worker of the same name. -/
theorem writes_unfenced :
    ¬ ∀ labels : List (backend defaultConfig).Label,
      LogAll (fun entry older => fenced entry older = true)
        (run (boot defaultConfig World.empty) labels).view.log := by
  intro claim
  have broken : ¬ LogAll (fun entry older => fenced entry older = true)
      (run (boot defaultConfig World.empty) takeoverRun).view.log := by decide
  exact broken (claim takeoverRun)

end Text2Image
