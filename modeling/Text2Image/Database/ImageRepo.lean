import Text2Image.Services.Operation

/-! The image repository: each function is the sequence of statements it sends,
with a failing statement turned into a `RepoError`.
-/

set_option autoImplicit false

namespace Text2Image

open Concurrency

def sql (statement : Stmt) : Program (RepoResult statement.Answer) :=
  Prog.perform (I := interface) (.sql statement)

/-- `std::chrono::system_clock::now()`. -/
def readClock : Program TimePoint := Prog.perform (I := interface) .now

namespace ImageRepo

def rowToImageGeneration (row : Row) : ImageGeneration where
  id := row.id
  user_id := row.user_id
  request_id := row.request_id
  prompt := row.prompt
  negative_prompt := row.negative_prompt
  num_steps := row.num_steps
  height := row.height
  width := row.width
  seed := row.seed
  status := row.status
  retry_count := row.retry_count
  max_retries := row.max_retries
  failure_code := row.failure_code
  worker_id := row.worker_id.getD ""
  image_url := row.image_url
  thumbnail_url := row.thumbnail_url
  storage_key := row.storage_key
  error_message := row.error_message
  generation_time := row.generation_time
  created_at := Chrono.fromTimeT row.created_at
  started_at := row.started_at.bind Chrono.fromDbTime
  completed_at := row.completed_at.bind Chrono.fromDbTime
  cancelled_at := row.cancelled_at.bind Chrono.fromDbTime
  lease_expires_at := row.lease_expires_at.bind Chrono.fromDbTime

/-- The values bound to the INSERT; the id is the table's to give. -/
def insertValues (generation : ImageGeneration) (createdAt : TimePoint) : Row where
  id := 0
  user_id := generation.user_id
  request_id := generation.request_id
  prompt := generation.prompt
  negative_prompt := generation.negative_prompt
  num_steps := generation.num_steps
  height := generation.height
  width := generation.width
  seed := generation.seed
  status := generation.status
  retry_count := generation.retry_count
  max_retries := generation.max_retries
  failure_code := generation.failure_code
  worker_id := some generation.worker_id
  image_url := generation.image_url
  thumbnail_url := generation.thumbnail_url
  storage_key := generation.storage_key
  error_message := generation.error_message
  generation_time := generation.generation_time
  created_at := Chrono.toDbTime createdAt
  started_at := generation.started_at.map Chrono.toDbTime
  completed_at := generation.completed_at.map Chrono.toDbTime
  cancelled_at := generation.cancelled_at.map Chrono.toDbTime
  lease_expires_at := generation.lease_expires_at.map Chrono.toDbTime

/-- A generation without a creation time is created now. -/
def createdAtOf (generation : ImageGeneration) : Program TimePoint :=
  if generation.created_at = 0 then readClock else return generation.created_at

def insert (generation : ImageGeneration) : Program (RepoResult Int) := do
  let createdAt ← createdAtOf generation
  match ← sql (.insert (insertValues generation createdAt)) with
  | .error error => return .error error
  | .ok _ => Prog.perform (I := interface) .lastInsertId

/-- A page of rows together with the number of rows on all pages. -/
structure PageResult where
  content : List ImageGeneration
  total_elements : Int

def normalizePage (page : Int) : Int := if page < 0 then 0 else page

def normalizeSize (size : Int) : Int := if size ≤ 0 then 10 else size

def collectPagedResultRows (rows : List (Row × Int)) : PageResult where
  content := rows.map fun row => rowToImageGeneration row.1
  total_elements := ((rows.map Prod.snd).find? fun total => total ≠ 0).getD 0

/-- `findByUserId` and `findByUserIdAndStatus`: the same two statements, with
and without the condition on the status. -/
def findPage (userId : Int) (status : Option TaskStatus) (page size : Int) :
    Program (RepoResult PageResult) := do
  let safePage := normalizePage page
  let safeSize := normalizeSize size
  let offset := safePage * safeSize
  match ← sql (.selectPage userId status safeSize offset) with
  | .error error => return .error error
  | .ok (rows : List (Row × Int)) =>
    let pageResult := collectPagedResultRows rows
    if pageResult.content.isEmpty ∧ offset > 0 then
      match ← sql (.countByUser userId status) with
      | .error error => return .error error
      | .ok (total : Int) => return .ok { pageResult with total_elements := total }
    else return .ok pageResult

def findByUserId (userId page size : Int) : Program (RepoResult PageResult) :=
  findPage userId none page size

def findByUserIdAndStatus (userId : Int) (status : TaskStatus) (page size : Int) :
    Program (RepoResult PageResult) :=
  findPage userId (some status) page size

def fetchImage (row : Option Row) : RepoResult (Option ImageGeneration) :=
  .ok (row.map rowToImageGeneration)

def findByIdAndUserId (id userId : Int) : Program (RepoResult (Option ImageGeneration)) := do
  match ← sql (.selectByIdAndUserId id userId) with
  | .error error => return .error error
  | .ok (row : Option Row) => return fetchImage row

def findByRequestIdAndUserId (requestId : String) (userId : Int) :
    Program (RepoResult (Option ImageGeneration)) := do
  match ← sql (.selectByRequestIdAndUserId requestId userId) with
  | .error error => return .error error
  | .ok (row : Option Row) => return fetchImage row

def countActiveTasksByUserId (userId : Int) : Program (RepoResult Int) :=
  sql (.countActiveTasks userId)

/-- An UPDATE whose caller only learns whether it changed anything. -/
def updates (statement : Stmt) (answer : statement.Answer = Nat) : Program (RepoResult Bool) := do
  match ← sql statement with
  | .error error => return .error error
  | .ok affected => return .ok (decide ((answer ▸ affected : Nat) > 0))

def deleteByIdAndUserId (id userId : Int) : Program (RepoResult Bool) :=
  updates (.deleteByIdAndUserId id userId) rfl

def claimNextTask (workerId : String) (leaseSeconds : Int) :
    Program (RepoResult (Option ImageGeneration)) := do
  let now ← readClock
  let expiresAt := Chrono.toDbTime (now + leaseDuration leaseSeconds)
  match ← updates (.claimNextTask workerId (Chrono.toDbTime now) expiresAt) rfl with
  | .error error => return .error error
  | .ok false => return .ok none
  | .ok true =>
    match ← sql (.readClaimed workerId expiresAt) with
    | .error error => return .error error
    | .ok (row : Option Row) => return fetchImage row

def claimTaskById (taskId : Int) (workerId : String) (leaseSeconds : Int) :
    Program (RepoResult (Option ImageGeneration)) := do
  let now ← readClock
  let expiresAt := Chrono.toDbTime (now + leaseDuration leaseSeconds)
  match ← updates (.claimTaskById taskId workerId (Chrono.toDbTime now) expiresAt) rfl with
  | .error error => return .error error
  | .ok false => return .ok none
  | .ok true =>
    match ← sql (.readClaimedById taskId workerId) with
    | .error error => return .error error
    | .ok (row : Option Row) => return fetchImage row

def findQueuedTaskIds : Program (RepoResult (List Int)) := sql .selectQueuedIds

structure ExpiredLease where
  id : Int
  user_id : Int
  requeue : Bool

def expireLeasesUnsafe : Program (RepoResult Nat) := do
  let now ← readClock
  match ← sql (.requeueExpired (Chrono.toDbTime now)) with
  | .error error => return .error error
  | .ok (requeued : Nat) =>
    match ← sql (.timeoutExpired (Chrono.toDbTime now)) with
    | .error error => return .error error
    | .ok (timedOut : Nat) => return .ok (requeued + timedOut)

def expireLeasesReturningExpired : Program (RepoResult (List ExpiredLease)) := do
  let now ← readClock
  match ← sql (.selectExpired (Chrono.toDbTime now) true) with
  | .error error => return .error error
  | .ok (requeued : List (Int × Int)) =>
    match ← sql (.selectExpired (Chrono.toDbTime now) false) with
    | .error error => return .error error
    | .ok (timedOut : List (Int × Int)) =>
      match ← expireLeasesUnsafe with
      | .error error => return .error error
      | .ok _ => return .ok (
          requeued.map (fun row => ⟨row.1, row.2, true⟩) ++
          timedOut.map (fun row => ⟨row.1, row.2, false⟩))

def finishClaimedTask (generation : ImageGeneration) : Program (RepoResult Bool) :=
  updates (.finishClaimedTask generation) rfl

def deferClaimedTaskForModelHealth (id userId : Int) (workerId failureCode errorMessage : String) :
    Program (RepoResult Bool) :=
  updates (.deferClaimedTask id userId workerId failureCode errorMessage) rfl

/-- Read a row back after an UPDATE; a row that vanished meanwhile is an error. -/
def readBack (function : String) (id userId : Int) :
    Program (RepoResult (Option ImageGeneration)) := do
  match ← sql (.selectByIdAndUserId id userId) with
  | .error error => return .error error
  | .ok (none : Option Row) =>
    return .error ⟨.Internal, s!"{function}: updated row vanished, id={id}, user_id={userId}"⟩
  | .ok (some row) => return fetchImage (some row)

def cancelByIdAndUserId (id userId : Int) : Program (RepoResult (Option ImageGeneration)) := do
  let now ← readClock
  match ← updates (.cancelByIdAndUserId (Chrono.toDbTime now) id userId) rfl with
  | .error error => return .error error
  | .ok false => return .ok none
  | .ok true => readBack "cancelByIdAndUserId" id userId

def retryByIdAndUserId (id userId : Int) : Program (RepoResult (Option ImageGeneration)) := do
  match ← updates (.retryByIdAndUserId id userId) rfl with
  | .error error => return .error error
  | .ok false => return .ok none
  | .ok true => readBack "retryByIdAndUserId" id userId

end ImageRepo

end Text2Image
