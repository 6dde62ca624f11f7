import Text2Image.Properties.RowShape
import Text2Image.Properties.Transitions
import Text2Image.Services.Executions

/-! The retry budget: what raises `retry_count`, and how far. -/

set_option autoImplicit false

namespace Text2Image

open Concurrency System TaskStatus

variable {config : Config}

def Stmt.isDeferral : Stmt → Bool
  | .deferClaimedTask .. => true
  | _ => false

variable {s : Stmt} {t : ImageTable} {row row' : Row} {call : Call}

/-- A deferral raises the count whatever the budget is; everything else that
raises it looks at the budget first. -/
theorem Change.retry_count (change : Change s row (some row')) (t : ImageTable) :
    row'.retry_count = row.retry_count ∨
      row'.retry_count = row.retry_count + 1 ∧
        (row.retry_count < row.max_retries ∨ (s.isDeferral && s.hits t row) = true) := by
  cases change with
  | requeue running expired budget => exact .inr ⟨rfl, .inl budget⟩
  | retry status budget => exact .inr ⟨rfl, .inl budget⟩
  | defer failureCode errorMessage running held =>
    refine .inr ⟨rfl, .inr ?_⟩
    simp [Stmt.isDeferral, Stmt.hits, Stmt.rowUpdate, Row.claimedBy, running, held]
  | _ => exact .inl rfl

/-! ## The budget, and the deferrals on top of it -/

/-- Beyond its budget a row has only been taken by deferrals. -/
def WithinBudget (t : ImageTable) (log : List (backend config).Entry) : Prop :=
  ∀ row ∈ t.rows, 0 ≤ row.retry_count ∧
    row.retry_count ≤ row.max_retries + executions Stmt.isDeferral row.id log

theorem WithinBudget.wrote {log : List (backend config).Entry} {entry : (backend config).Entry}
    (within : WithinBudget t log) (found : statementOf entry = some (t, s))
    (issued : Issued config call s) (documented : call.Documented) :
    WithinBudget (s.table t) (entry :: log) := by
  intro row' after
  rcases Stmt.mem_table.mp after with ⟨row, before, became⟩ | inserted
  · have change := s.onRow_change before
    rw [became] at change
    obtain ⟨positive, bound⟩ := within row before
    have budget := change.sameInput.max_retries
    have counted := executions_present Stmt.isDeferral log found before
    rw [Stmt.onRow_id became, counted]
    rcases change.retry_count t with same | ⟨raised, under | deferred⟩
    · constructor
      · omega
      · split <;> omega
    · constructor
      · omega
      · split <;> omega
    · rw [if_pos deferred]
      constructor <;> omega
  · cases issued with
    | renewed => cases inserted
    | sent sends =>
      cases s with
      | insert values =>
        obtain ⟨_, _, _, rfl, creates, _⟩ := sends_insert sends
        have pristine := creates.pristine documented
        cases inserted
        have first : values.retry_count = 0 := pristine.retry_count
        have most : values.max_retries = 3 := pristine.max_retries
        constructor
        · exact Int.le_of_eq first.symm
        · simp only [first, most]
          omega
      | _ => cases inserted

theorem withinBudget_kept : Kept config (.starting Call.Documented) fun view =>
    WithinBudget view.world.db view.log := by
  refine Kept.of_statements ?_ ?_
  · intro t log entry silent within row member
    rw [executions_silent _ _ _ silent]
    exact within row member
  · intro view pid call helper op choice s within found issued documented
    refine within.wrote ?_ issued documented
    rw [statementOf_performs, found]
    rfl

/-! ## The gate's own budget -/

/-- A deferral is only sent for a task that its turn has read with fewer than
nine attempts behind it. -/
def DefersWithinAttempts : (backend config).Entry → List (backend config).Entry → Prop
  | .performed event, older => ∀ id userId workerId failureCode errorMessage,
      event.op = .sql (.deferClaimedTask id userId workerId failureCode errorMessage) →
      ∃ copy, Claimed workerId (history event.pid older) copy ∧ copy.id = id ∧
        copy.user_id = userId ∧ copy.retry_count < model_health.kMaxModelHealthAttempts - 1
  | _, _ => True

theorem Acts.defersWithinAttempts {view : (backend config).View} {pid : Nat} {op : Op}
    {helper : Bool} (may : Acts config view pid call op helper) (choice : Choice) :
    DefersWithinAttempts (.performed (view.event pid call helper op choice)) view.log := by
  intro id userId workerId failureCode errorMessage same
  have deferral : op = .sql (.deferClaimedTask id userId workerId failureCode errorMessage) := same
  subst deferral
  cases helper with
  | false =>
    obtain ⟨index, copy, _, claimed, id', user, named, few⟩ := sends_defer may
    rw [← named] at claimed
    exact ⟨copy, claimed, id'.symm, user.symm, few⟩
  | true => cases may

theorem defersWithinAttempts_kept : Kept config .free fun view =>
    LogAll DefersWithinAttempts view.log where
  acts _ _ _ _ _ choice _ _ all _ may _ := ⟨may.defersWithinAttempts choice, all⟩
  started _ _ _ all _ _ := ⟨trivial, all⟩
  quiet _ entry _ all _ _ unperformed := by
    refine ⟨?_, all⟩
    cases entry with
    | performed event => exact (unperformed event rfl).elim
    | _ => trivial
  passes _ _ all _ := all

/-- No task is deferred by a turn that has read it before someone else changed
its count. -/
def defersAsRead : Condition (backend config) where
  starts _ _ := True
  performs pid _ op _ view := ∀ id userId workerId failureCode errorMessage copy,
    op = .sql (.deferClaimedTask id userId workerId failureCode errorMessage) →
    Claimed workerId (history pid view.log) copy →
    ∀ row ∈ view.world.db.rows, row.id = copy.id → row.retry_count = copy.retry_count

/-- No count exceeds both its budget and the gate's. -/
def WithinAttempts (t : ImageTable) : Prop :=
  ∀ row ∈ t.rows, row.retry_count ≤ max row.max_retries (model_health.kMaxModelHealthAttempts - 1)

theorem Stmt.of_isDeferral (deferral : (s.isDeferral && s.hits t row) = true) :
    ∃ userId workerId failureCode errorMessage,
      s = .deferClaimedTask row.id userId workerId failureCode errorMessage := by
  rw [Bool.and_eq_true] at deferral
  obtain ⟨kind, matched⟩ := deferral
  cases s with
  | deferClaimedTask id userId workerId failureCode errorMessage =>
    have guarded : row.claimedBy id userId workerId = true := matched
    simp only [Row.claimedBy, decide_eq_true_eq] at guarded
    rw [guarded.1]
    exact ⟨userId, workerId, failureCode, errorMessage, rfl⟩
  | _ => cases kind

theorem withinAttempts_kept :
    Kept config ((Condition.starting Call.Documented).and defersAsRead) fun view =>
      WithinAttempts view.world.db where
  acts view pid call helper op choice _ owned within alive may meets := by
    obtain ⟨documented, asRead⟩ := meets
    cases found : executed op choice with
    | none =>
      rw [performs_db_silent found]
      exact within
    | some s =>
      rw [performs_db_executed found]
      intro row' after
      rcases Stmt.mem_table.mp after with ⟨row, before, became⟩ | inserted
      · have change := s.onRow_change before
        rw [became] at change
        have budget := change.sameInput.max_retries
        have bound := within row before
        rcases change.retry_count view.world.db with same | ⟨raised, under | deferred⟩
        · rwa [same, budget]
        · omega
        · -- the turn has read the count the row still has
          obtain ⟨userId, workerId, failureCode, errorMessage, rfl⟩ := Stmt.of_isDeferral deferred
          obtain ⟨rfl, _⟩ := executed_eq_some.mp found
          obtain ⟨copy, claimed, task, _, few⟩ :=
            may.defersWithinAttempts choice row.id userId workerId failureCode errorMessage rfl
          have read := asRead row.id userId workerId failureCode errorMessage copy rfl claimed row
            before task.symm
          omega
      · cases may.issued owned alive found with
        | renewed => cases inserted
        | sent sends =>
          cases s with
          | insert values =>
            obtain ⟨_, _, _, rfl, creates, _⟩ := sends_insert sends
            have pristine := creates.pristine documented
            cases inserted
            have first : values.retry_count = 0 := pristine.retry_count
            have most : values.max_retries = 3 := pristine.max_retries
            simp only [first, most]
            omega
          | _ => cases inserted
  started _ _ _ within _ _ := within
  quiet _ _ _ within settles _ _ := settles.db ▸ within
  passes _ _ within settles := settles.db ▸ within

/-- In every run from a table within its budgets: a count is never negative and
exceeds its budget by at most the deferrals of its row; a deferral is only sent
by a turn that has read fewer than nine attempts; and as long as each deferral
finds the count its turn has read, no count exceeds both its budget and nine. -/
theorem retry_budget (world : World) (labels : List (backend config).Label)
    (documented : ∀ call : Call, .start call ∈ labels → call.Documented)
    (budget : ∀ row ∈ world.db.rows, 0 ≤ row.retry_count ∧ row.retry_count ≤ row.max_retries) :
    (∀ row ∈ rowsOf (run (boot config world) labels), 0 ≤ row.retry_count ∧
      row.retry_count ≤ row.max_retries +
        executions Stmt.isDeferral row.id (run (boot config world) labels).view.log) ∧
    LogAll DefersWithinAttempts (run (boot config world) labels).view.log ∧
    (Meets defersAsRead (boot config world) labels →
      ∀ row ∈ rowsOf (run (boot config world) labels), row.retry_count ≤ max row.max_retries 9) := by
  have started := @boot_meets config _ world labels documented
  refine ⟨?_, ?_, ?_⟩
  · refine withinBudget_kept.run ?_ labels started
    intro row member
    obtain ⟨positive, bound⟩ := budget row member
    constructor
    · exact positive
    · omega
  · exact defersWithinAttempts_kept.run trivial labels (meets_free _ _)
  · intro asRead
    refine withinAttempts_kept.run ?_ labels (started.and asRead)
    intro row member
    have bound := (budget row member).2
    omega

/-- A waiting task that has used up its retries. -/
def spentTask : Row :=
  ImageRepo.insertValues { user_id := 1, prompt := "abc", status := Queued, retry_count := 3 } 0

def spentWorld : World := { World.empty with db := (Stmt.insert spentTask).table .empty }

theorem spentWorld_budget :
    ∀ row ∈ spentWorld.db.rows, 0 ≤ row.retry_count ∧ row.retry_count ≤ row.max_retries := by
  decide

/-- A worker claims the task over the database path, finds the model service
unavailable and defers. -/
def deferRun : List (backend defaultConfig).Label :=
  .start (.workerTurn 0) :: acts 0 [refused, {}, {}, {}, {}, {}, {}, unavailable, {}]

theorem deferRun_counts : (rowsOf (run (boot defaultConfig spentWorld) deferRun)).map
    (fun row => (row.retry_count, row.max_retries)) = [(4, 3)] := by decide

theorem deferRun_calls (call : Call) (member : .start call ∈ deferRun) : call = .workerTurn 0 := by
  simpa [deferRun, acts] using member

theorem retry_budget_deferRun :
    (rowsOf (run (boot defaultConfig spentWorld) deferRun)).map
        (fun row => (row.retry_count, row.max_retries)) = [(4, 3)] ∧
      ∀ row ∈ rowsOf (run (boot defaultConfig spentWorld) deferRun), 0 ≤ row.retry_count ∧
        row.retry_count ≤ row.max_retries +
          executions Stmt.isDeferral row.id (run (boot defaultConfig spentWorld) deferRun).view.log := by
  refine ⟨deferRun_counts, (retry_budget spentWorld deferRun ?_ spentWorld_budget).1⟩
  intro call member
  rw [deferRun_calls call member]
  trivial

/-- Without creating any task, a deferral takes a count beyond its budget. -/
theorem retry_budget_overrun :
    ¬ ∀ (world : World) (labels : List (backend defaultConfig).Label),
      (∀ row ∈ world.db.rows, 0 ≤ row.retry_count ∧ row.retry_count ≤ row.max_retries) →
      (∀ userId payload isAdmin, .start (.create userId payload isAdmin) ∉ labels) →
      ∀ row ∈ rowsOf (run (boot defaultConfig world) labels),
        0 ≤ row.retry_count ∧ row.retry_count ≤ row.max_retries := by
  intro claim
  have counted : (4, 3) ∈ (rowsOf (run (boot defaultConfig spentWorld) deferRun)).map
      fun row => (row.retry_count, row.max_retries) := by
    rw [deferRun_counts]
    exact List.mem_singleton_self _
  obtain ⟨row, member, counts⟩ := List.mem_map.mp counted
  have within := claim spentWorld deferRun spentWorld_budget (fun _ _ _ creates => by
    cases deferRun_calls _ creates) row member
  have four : row.retry_count = 4 := congrArg Prod.fst counts
  have three : row.max_retries = 3 := congrArg Prod.snd counts
  omega

end Text2Image
