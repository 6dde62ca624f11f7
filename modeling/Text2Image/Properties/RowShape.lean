import Text2Image.Services.Steps

/-! The shape of a row: which columns are set in which status. -/

set_option autoImplicit false

namespace Text2Image

open Concurrency System TaskStatus

variable {config : Config}

/-! ## Documented requests -/

/-- The request fields of the API, with their camel-case aliases. -/
def documentedFields : List String :=
  ["prompt", "negative_prompt", "negativePrompt", "num_steps", "numSteps", "height", "width", "seed",
    "request_id", "requestId"]

def Json.Documented (payload : Json) : Prop := ∀ key, key ∉ documentedFields → payload.find key = none

/-- A create call carries only documented fields. -/
def Call.Documented : Call → Prop
  | .create _ payload _ => payload.Documented
  | _ => True

/-- The server's columns of a row that has just been created. -/
structure Pristine (values : Row) : Prop where
  status : values.status = Queued
  retry_count : values.retry_count = 0
  max_retries : values.max_retries = 3
  failure_code : values.failure_code = ""
  worker_id : values.worker_id = some ""
  thumbnail_url : values.thumbnail_url = ""
  storage_key : values.storage_key = ""
  started_at : values.started_at = none
  completed_at : values.completed_at = none
  cancelled_at : values.cancelled_at = none
  lease_expires_at : values.lease_expires_at = none

theorem readTimeAny_none {payload : Json} {keys : List String}
    (absent : ∀ key ∈ keys, payload.find key = none) :
    ImageGeneration.readTimeAny payload keys = none := by
  unfold ImageGeneration.readTimeAny
  rw [Json.readStringAny_none absent]
  rfl

/-- What a documented request inserts is pristine. -/
theorem CreatesRow.pristine {userId : Int} {payload : Json} {values : Row}
    (creates : CreatesRow userId payload values) (documented : payload.Documented) :
    Pristine values := by
  obtain ⟨now, createdAt, requestId, rfl⟩ := creates
  have absent : ∀ keys : List String, (∀ key ∈ keys, key ∉ documentedFields) →
      ∀ key ∈ keys, payload.find key = none :=
    fun keys outside key member => documented key (outside key member)
  have text : ∀ keys : List String, (∀ key ∈ keys, key ∉ documentedFields) →
      payload.readStringAny keys = none :=
    fun keys outside => Json.readStringAny_none (absent keys outside)
  have number : ∀ keys : List String, (∀ key ∈ keys, key ∉ documentedFields) →
      payload.readIntAny keys = none := fun keys outside => Json.readIntAny_none (absent keys outside)
  have time : ∀ keys : List String, (∀ key ∈ keys, key ∉ documentedFields) →
      ImageGeneration.readTimeAny payload keys = none :=
    fun keys outside => readTimeAny_none (absent keys outside)
  constructor
  · rfl
  · exact congrArg (·.getD 0) (number ["retry_count", "retryCount"] (by decide))
  · exact congrArg (·.getD 3) (number ["max_retries", "maxRetries"] (by decide))
  · exact congrArg (·.getD "") (text ["failure_code", "failureCode"] (by decide))
  · exact congrArg (fun worker => some (Option.getD worker ""))
      (text ["worker_id", "workerId"] (by decide))
  · exact congrArg (·.getD "") (text ["thumbnail_url", "thumbnailUrl"] (by decide))
  · exact congrArg (·.getD "") (text ["storage_key", "storage_key", "storageKey"] (by decide))
  · exact congrArg (Option.map Chrono.toDbTime) (time ["started_at", "startedAt"] (by decide))
  · rfl
  · exact congrArg (Option.map Chrono.toDbTime) (time ["cancelled_at", "cancelledAt"] (by decide))
  · exact congrArg (Option.map Chrono.toDbTime)
      (time ["lease_expires_at", "leaseExpiresAt"] (by decide))

/-! ## Shape -/

/-- A worker is named, by more than the empty text. -/
def Row.hasWorker (row : Row) : Bool := row.worker_id.any fun worker => worker ≠ ""

def Row.Unclaimed (row : Row) : Prop := row.hasWorker = false ∧ row.lease_expires_at = none

def Row.Open (row : Row) : Prop := row.completed_at = none ∧ row.cancelled_at = none

/-- Which columns are set in which status; the two statuses left out never occur. -/
def Row.Shaped (row : Row) : Prop :=
  match row.status with
  | Queued => row.Unclaimed ∧ row.Open
  | Generating => row.hasWorker = true ∧ row.lease_expires_at.isSome = true ∧
      row.started_at.isSome = true ∧ row.Open
  | Success | Failed | Cancelled | Timeout => row.Unclaimed ∧ row.completed_at.isSome = true
  | Pending | Unknown => False

theorem Pristine.shaped {values : Row} (pristine : Pristine values) (id : Int) :
    ({ values with id := id } : Row).Shaped := by
  unfold Row.Shaped
  simp only [pristine.status]
  refine ⟨⟨?_, pristine.lease_expires_at⟩, pristine.completed_at, pristine.cancelled_at⟩
  simp [Row.hasWorker, pristine.worker_id]

theorem Row.shaped_of_terminal {row : Row} (terminal : row.status.isTerminal = true)
    (unclaimed : row.Unclaimed) (completed : row.completed_at.isSome = true) : row.Shaped := by
  unfold Row.Shaped
  cases status : row.status with
  | Success | Failed | Cancelled | Timeout => exact ⟨unclaimed, completed⟩
  | _ =>
    rw [status] at terminal
    cases terminal

theorem workerId_ne_empty (index : Nat) : TaskEngine.workerId config index ≠ "" := by
  intro same
  have sizes := congrArg String.length same
  have dash : "-".length = 1 := rfl
  simp only [TaskEngine.workerId, String.length_append, String.length_empty, dash] at sizes
  omega

theorem Row.Shaped.generating {row : Row} (shaped : row.Shaped) (running : row.status = Generating) :
    row.hasWorker = true ∧ row.lease_expires_at.isSome = true ∧ row.started_at.isSome = true ∧
      row.Open := by
  unfold Row.Shaped at shaped
  rwa [running] at shaped

/-- A row that can be claimed, and so is not done, has neither end time. -/
theorem Row.Shaped.open_of_claimable {row : Row} (shaped : row.Shaped) {now : DbTime}
    (free : claimable now row = true) : row.Open := by
  unfold Row.Shaped at shaped
  simp only [claimable, Row.isQueued, decide_eq_true_eq] at free
  rcases free with (queued | pending) | ⟨running, _⟩
  · rw [queued] at shaped
    exact shaped.2
  · rw [pending] at shaped
    exact shaped.elim
  · rw [running] at shaped
    exact shaped.2.2.2

theorem Row.Shaped.claimed {row : Row} (shaped : row.Shaped) {now : DbTime} (expiresAt : DbTime)
    (free : claimable now row = true) {worker : String} (named : worker ≠ "") :
    (row.claimed worker now expiresAt).Shaped := by
  have unfinished := shaped.open_of_claimable free
  refine ⟨?_, rfl, rfl, unfinished⟩
  simp [Row.hasWorker, Row.claimed, named]

/-- Every statement that is issued keeps the shape of every row. -/
theorem Change.shaped {call : Call} {s : Stmt} {row row' : Row} (change : Change s row (some row'))
    (issued : Issued config call s) (shaped : row.Shaped) : row'.Shaped := by
  cases change with
  | kept => exact shaped
  | claimNext workerId expiresAt free =>
    cases issued with
    | sent sends =>
      obtain ⟨index, _, rfl⟩ := sends_claimNext sends
      exact shaped.claimed expiresAt free (workerId_ne_empty index)
  | claimById workerId now expiresAt queued =>
    cases issued with
    | sent sends =>
      obtain ⟨index, _, rfl⟩ := sends_claimById sends
      have free : claimable now row = true := by simp [claimable, queued]
      exact shaped.claimed expiresAt free (workerId_ne_empty index)
  | requeue running =>
    obtain ⟨_, _, _, unfinished⟩ := shaped.generating running
    exact ⟨⟨rfl, rfl⟩, unfinished⟩
  | timeout => exact ⟨⟨rfl, rfl⟩, rfl⟩
  | renew expiresAt running =>
    obtain ⟨worker, _, started, unfinished⟩ := shaped.generating running
    unfold Row.Shaped
    have running' : (row.renewed expiresAt).status = Generating := running
    rw [running']
    exact ⟨worker, rfl, started, unfinished⟩
  | @finish _ image =>
    cases issued with
    | sent sends =>
      obtain ⟨_, _, _, _, concludes⟩ := sends_finish sends
      have unclaimed : (row.finished image).Unclaimed := ⟨rfl, rfl⟩
      have completed : (row.finished image).completed_at.isSome = true := by
        simpa [Row.finished] using concludes.completed
      have terminal : (row.finished image).status.isTerminal = true := concludes.terminal
      exact Row.shaped_of_terminal terminal unclaimed completed
  | defer failureCode errorMessage running =>
    obtain ⟨_, _, _, unfinished⟩ := shaped.generating running
    exact ⟨⟨rfl, rfl⟩, unfinished⟩
  | cancel => exact ⟨⟨rfl, rfl⟩, rfl⟩
  | retry => exact ⟨⟨rfl, rfl⟩, rfl, rfl⟩

/-! ## Runs -/

/-- Every row of the table is shaped. -/
def AllShaped (t : ImageTable) : Prop := ∀ row ∈ t.rows, row.Shaped

theorem TableStep.shaped {call : Call} {op : Op} {t t' : ImageTable} (documented : call.Documented)
    (step : TableStep config (some (call, op)) t t') (shaped : AllShaped t) : AllShaped t' := by
  cases step with
  | same => exact shaped
  | @wrote _ s issued _ =>
    intro row after
    rcases Stmt.mem_table.mp after with ⟨old, before, became⟩ | inserted
    · have change := s.onRow_change before
      rw [became] at change
      exact change.shaped issued (shaped old before)
    · cases issued with
      | renewed => cases inserted
      | sent sends =>
        cases s with
        | insert values =>
          obtain ⟨_, _, _, rfl, creates, _⟩ := sends_insert sends
          cases inserted
          exact (creates.pristine documented).shaped t.next
        | _ => cases inserted

/-- Which columns are set in which status. -/
structure StatusShape (row : Row) : Prop where
  generating : row.status = Generating ↔ row.hasWorker = true
  leased : row.status = Generating →
    row.lease_expires_at.isSome = true ∧ row.started_at.isSome = true
  queued : row.status = Queued → row.hasWorker = false ∧ row.lease_expires_at = none ∧
    row.completed_at = none ∧ row.cancelled_at = none
  ended : row.status.isTerminal = true → row.hasWorker = false ∧ row.lease_expires_at = none ∧
    row.completed_at.isSome = true
  known : row.status = Queued ∨ row.status = Generating ∨ row.status.isTerminal = true

theorem Row.Shaped.statusShape {row : Row} (shaped : row.Shaped) : StatusShape row := by
  unfold Row.Shaped Row.Unclaimed Row.Open at shaped
  cases status : row.status <;> rw [status] at shaped <;> constructor <;>
    simp_all [isTerminal]

/-- In every run from an empty table whose create calls carry only documented
fields, every row has the shape of its status. -/
theorem rows_shaped (world : World) (labels : List (backend config).Label)
    (documented : ∀ call : Call, .start call ∈ labels → call.Documented) :
    ∀ row ∈ rowsOf (run (boot config { world with db := .empty }) labels), StatusShape row := by
  have shaped : AllShaped (run (boot config { world with db := .empty }) labels).view.world.db := by
    refine table_invariant (fun call op t t' kind step => step.shaped kind) _ ?_ labels documented
    intro row member
    cases member
  intro row member
  exact (shaped row member).statusShape

/-- A task is created and claimed over the database path. -/
def claimRun : List (backend defaultConfig).Label :=
  .start (.create 1 (.object [("prompt", .string "abc")]) false) :: succeeds 0 7 ++
    .start (.workerTurn 0) :: acts 1 [refused, {}, {}]

theorem rows_shaped_claimRun :
    (rowsOf (run (boot defaultConfig World.empty) claimRun)).map Row.status = [Generating] ∧
      ∀ row ∈ rowsOf (run (boot defaultConfig World.empty) claimRun), StatusShape row := by
  refine ⟨by decide, rows_shaped World.empty claimRun ?_⟩
  intro call member
  have calls : call = .create 1 (.object [("prompt", .string "abc")]) false ∨
      call = .workerTurn 0 := by
    simpa [claimRun, succeeds, acts] using member
  rcases calls with rfl | rfl
  · intro key outside
    have different : key ≠ "prompt" := fun same => outside (by rw [same]; decide)
    simp [Json.find, List.lookup_cons, beq_false_of_ne different]
  · trivial

end Text2Image
