import Mathlib.Data.List.DropRight
import Text2Image.Database.Table
import Text2Image.Models.ImageGeneration

/-! The `image_generations` table and the SQL statements the repository sends.

Each statement is atomic. A column that is always written from `statusToString`
holds the status itself; text columns that are never NULL hold a string.
-/

set_option autoImplicit false

namespace Text2Image

open TaskStatus

structure Row where
  id : Int
  user_id : Int
  request_id : String
  prompt : String
  negative_prompt : String
  num_steps : Int
  height : Int
  width : Int
  seed : Option Int
  status : TaskStatus
  retry_count : Int
  max_retries : Int
  failure_code : String
  worker_id : Option String
  image_url : String
  thumbnail_url : String
  storage_key : String
  error_message : String
  generation_time : Rat
  created_at : DbTime
  started_at : Option DbTime
  completed_at : Option DbTime
  cancelled_at : Option DbTime
  lease_expires_at : Option DbTime
  deriving DecidableEq, Repr

abbrev ImageTable := Keyed.Table Row.id

/-- The letters that a character weighs as, without case and accent; a combining accent weighs nothing. -/
def baseLetters (c : Char) : List Char :=
  let code := c.toNat
  if code < 0xC0 then [asciiToLower c]
  else if code ≤ 0xC5 ∨ (0xE0 ≤ code ∧ code ≤ 0xE5) then ['a']
  else if code = 0xC7 ∨ code = 0xE7 then ['c']
  else if (0xC8 ≤ code ∧ code ≤ 0xCB) ∨ (0xE8 ≤ code ∧ code ≤ 0xEB) then ['e']
  else if (0xCC ≤ code ∧ code ≤ 0xCF) ∨ (0xEC ≤ code ∧ code ≤ 0xEF) then ['i']
  else if code = 0xD1 ∨ code = 0xF1 then ['n']
  else if (0xD2 ≤ code ∧ code ≤ 0xD6) ∨ (0xF2 ≤ code ∧ code ≤ 0xF6) then ['o']
  else if (0xD9 ≤ code ∧ code ≤ 0xDC) ∨ (0xF9 ≤ code ∧ code ≤ 0xFC) then ['u']
  else if code = 0xDD ∨ code = 0xFD ∨ code = 0xFF then ['y']
  else if code = 0xDF then ['s', 's']
  else if 0x300 ≤ code ∧ code ≤ 0x36F then []
  else [c]

/-- What a text is compared by: blanks at its end do not count. -/
def collationKey (text : String) : List Char := (text.toList.flatMap baseLetters).rdropWhile (· = ' ')

/-- Equality of text columns under `utf8mb4_unicode_ci`, for text in Latin-1. -/
def collates (a b : String) : Bool := collationKey a = collationKey b

example : collates "Résumé " "resume" = true := by decide

@[simp] theorem collates_self (a : String) : collates a a = true := by
  simp [collates]

theorem collates_comm (a b : String) : collates a b = collates b a := by
  simp [collates, eq_comm]

theorem collates_trans {a b c : String} (first : collates a b = true) (second : collates b c = true) :
    collates a c = true := by
  simp only [collates, decide_eq_true_eq] at first second ⊢
  exact first.trans second

/-- `worker_id = ?`; NULL equals nothing. -/
def Row.heldBy (row : Row) (workerId : String) : Bool :=
  row.worker_id.any fun held => collates held workerId

def Row.isQueued (row : Row) : Bool := row.status = Queued ∨ row.status = Pending

def Row.isActive (row : Row) : Bool :=
  row.status = Queued ∨ row.status = Pending ∨ row.status = Generating

/-- `lease_expires_at IS NOT NULL AND lease_expires_at < ?`. -/
def Row.leaseExpired (row : Row) (now : DbTime) : Bool :=
  row.lease_expires_at.any fun expires => expires < now

inductive Stmt where
  | insert (values : Row)
  | selectPage (userId : Int) (status : Option TaskStatus) (limit offset : Int)
  | countByUser (userId : Int) (status : Option TaskStatus)
  | selectByIdAndUserId (id userId : Int)
  | selectByRequestIdAndUserId (requestId : String) (userId : Int)
  | countActiveTasks (userId : Int)
  | claimNextTask (workerId : String) (now expiresAt : DbTime)
  | readClaimed (workerId : String) (expiresAt : DbTime)
  | claimTaskById (id : Int) (workerId : String) (now expiresAt : DbTime)
  | readClaimedById (id : Int) (workerId : String)
  | selectQueuedIds
  | selectExpired (now : DbTime) (requeue : Bool)
  | requeueExpired (now : DbTime)
  | timeoutExpired (now : DbTime)
  | renewLease (expiresAt : DbTime) (id userId : Int) (workerId : String)
  | finishClaimedTask (image : ImageGeneration)
  | deferClaimedTask (id userId : Int) (workerId failureCode errorMessage : String)
  | cancelByIdAndUserId (now : DbTime) (id userId : Int)
  | retryByIdAndUserId (id userId : Int)
  | deleteByIdAndUserId (id userId : Int)

/-! ## The UPDATE statements -/

/-- A guard and the columns written where it holds; the primary key is never written. -/
structure RowUpdate where
  guard : Row → Bool
  change : Row → Row
  keeps : ∀ row, (change row).id = row.id

/-- `ORDER BY created_at ASC, id ASC`. -/
def olderThan (a b : Row) : Bool :=
  a.created_at < b.created_at ∨ a.created_at = b.created_at ∧ a.id ≤ b.id

def oldest : List Row → Option Row
  | [] => none
  | row :: rows =>
    match oldest rows with
    | none => some row
    | some best => if olderThan row best then some row else some best

/-- Waiting rows, and generating ones whose lease is missing or has run out. -/
def claimable (now : DbTime) (row : Row) : Bool :=
  row.isQueued ∨
    row.status = Generating ∧ (row.lease_expires_at.isNone ∨ row.leaseExpired now)

/-- The inner SELECT of the claim: the oldest claimable row. -/
def nextClaimable (t : ImageTable) (now : DbTime) : Option Row :=
  oldest (t.select (claimable now))

/-- The columns both claim statements write. -/
def Row.claimed (row : Row) (workerId : String) (now expiresAt : DbTime) : Row :=
  { row with
    status := Generating
    worker_id := some workerId
    started_at := some (row.started_at.getD now)
    lease_expires_at := some expiresAt
    failure_code := ""
    error_message := "" }

def Row.requeued (row : Row) : Row :=
  { row with
    status := Queued
    worker_id := none
    lease_expires_at := none
    retry_count := row.retry_count + 1
    failure_code := "lease_expired"
    error_message := "worker lease expired, re-queued for retry" }

def Row.timedOut (row : Row) (now : DbTime) : Row :=
  { row with
    status := Timeout
    worker_id := none
    lease_expires_at := none
    completed_at := some now
    failure_code := "lease_expired_max_retries"
    error_message := "worker lease expired and max retries reached" }

def Row.renewed (row : Row) (expiresAt : DbTime) : Row := { row with lease_expires_at := some expiresAt }

def Row.finished (row : Row) (image : ImageGeneration) : Row :=
  { row with
    status := image.status
    image_url := image.image_url
    error_message := image.error_message
    generation_time := image.generation_time
    completed_at := image.completed_at.map Chrono.toDbTime
    cancelled_at := image.cancelled_at.map Chrono.toDbTime
    failure_code := image.failure_code
    thumbnail_url := image.thumbnail_url
    storage_key := image.storage_key
    lease_expires_at := none
    worker_id := none }

def Row.deferred (row : Row) (failureCode errorMessage : String) : Row :=
  { row with
    status := Queued
    retry_count := row.retry_count + 1
    failure_code := failureCode
    error_message := errorMessage
    worker_id := none
    lease_expires_at := none
    started_at := none }

def Row.cancelled (row : Row) (now : DbTime) : Row :=
  { row with
    status := Cancelled
    cancelled_at := some now
    lease_expires_at := none
    worker_id := none
    error_message := ""
    failure_code := ""
    completed_at := some now }

def Row.retried (row : Row) : Row :=
  { row with
    status := Queued
    retry_count := row.retry_count + 1
    failure_code := ""
    error_message := ""
    image_url := ""
    thumbnail_url := ""
    storage_key := ""
    generation_time := 0
    worker_id := none
    lease_expires_at := none
    started_at := none
    completed_at := none
    cancelled_at := none }

/-- `id = ? AND user_id = ? AND status = 'generating' AND worker_id = ?`. -/
def Row.claimedBy (row : Row) (id userId : Int) (workerId : String) : Bool :=
  row.id = id ∧ row.user_id = userId ∧ row.status = Generating ∧ row.heldBy workerId

def Row.hasRetriesLeft (row : Row) : Bool := row.retry_count < row.max_retries

def Stmt.rowUpdate (t : ImageTable) : Stmt → Option RowUpdate
  | .claimNextTask workerId now expiresAt => some
    { guard := fun row => (nextClaimable t now).any fun next => row.id = next.id
      change := fun row => row.claimed workerId now expiresAt
      keeps := fun _ => rfl }
  | .claimTaskById id workerId now expiresAt => some
    { guard := fun row => row.id = id ∧ row.isQueued
      change := fun row => row.claimed workerId now expiresAt
      keeps := fun _ => rfl }
  | .requeueExpired now => some
    { guard := fun row => row.status = Generating ∧ row.leaseExpired now ∧ row.hasRetriesLeft
      change := Row.requeued
      keeps := fun _ => rfl }
  | .timeoutExpired now => some
    { guard := fun row => row.status = Generating ∧ row.leaseExpired now ∧ ¬ row.hasRetriesLeft
      change := fun row => row.timedOut now
      keeps := fun _ => rfl }
  | .renewLease expiresAt id userId workerId => some
    { guard := fun row => row.claimedBy id userId workerId
      change := fun row => row.renewed expiresAt
      keeps := fun _ => rfl }
  | .finishClaimedTask image => some
    { guard := fun row => row.claimedBy image.id image.user_id image.worker_id
      change := fun row => row.finished image
      keeps := fun _ => rfl }
  | .deferClaimedTask id userId workerId failureCode errorMessage => some
    { guard := fun row => row.claimedBy id userId workerId
      change := fun row => row.deferred failureCode errorMessage
      keeps := fun _ => rfl }
  | .cancelByIdAndUserId now id userId => some
    { guard := fun row => row.id = id ∧ row.user_id = userId ∧ row.isActive
      change := fun row => row.cancelled now
      keeps := fun _ => rfl }
  | .retryByIdAndUserId id userId => some
    { guard := fun row => row.id = id ∧ row.user_id = userId ∧
        (row.status = Failed ∨ row.status = Timeout ∨ row.status = Cancelled) ∧ row.hasRetriesLeft
      change := Row.retried
      keeps := fun _ => rfl }
  | _ => none

/-! ## Executing a statement -/

/-- The DELETE names the terminal statuses itself. -/
def deletable (id userId : Int) (row : Row) : Bool :=
  row.id = id ∧ row.user_id = userId ∧ (row.status = Success ∨ row.status = Failed ∨
    row.status = Cancelled ∨ row.status = Timeout)

/-- The table after the statement has committed. -/
def Stmt.table (s : Stmt) (t : ImageTable) : ImageTable :=
  match s with
  | .insert values => t.insert (fun id => { values with id := id }) rfl
  | .deleteByIdAndUserId id userId => t.delete (deletable id userId)
  | s =>
    match s.rowUpdate t with
    | some update => t.update update.guard update.change update.keeps
    | none => t

def Stmt.Answer : Stmt → Type
  | .insert _ => Unit
  | .selectPage .. => List (Row × Int)
  | .countByUser .. | .countActiveTasks _ => Int
  | .selectByIdAndUserId .. | .selectByRequestIdAndUserId .. | .readClaimed ..
  | .readClaimedById .. => Option Row
  | .selectQueuedIds => List Int
  | .selectExpired .. => List (Int × Int)
  | _ => Nat

/-- Rows whose values the statement really changed, as MySQL reports them. -/
def Stmt.affected (s : Stmt) (t : ImageTable) : Nat :=
  match s.rowUpdate t with
  | some update => (t.select fun row => update.guard row ∧ update.change row ≠ row).length
  | none => 0

/-- The row an unordered query happens to return first. -/
def fetchOne (pick : Nat) (rows : List Row) : Option Row := rows[pick]?.or rows.head?

theorem fetchOne_mem {pick : Nat} {rows : List Row} {row : Row}
    (found : fetchOne pick rows = some row) : row ∈ rows := by
  rcases Option.or_eq_some_iff.mp found with chosen | ⟨_, first⟩
  · exact List.mem_of_getElem? chosen
  · exact List.mem_of_head? first

/-- Each row that is matched may be the one that is fetched. -/
theorem fetchOne_of_mem {rows : List Row} {row : Row} (member : row ∈ rows) :
    ∃ pick, fetchOne pick rows = some row := by
  obtain ⟨pick, there⟩ := List.mem_iff_getElem?.mp member
  exact ⟨pick, by simp [fetchOne, there]⟩

theorem fetchOne_of_ne_nil {rows : List Row} (some' : rows ≠ []) (pick : Nat) :
    ∃ row ∈ rows, fetchOne pick rows = some row := by
  obtain ⟨first, rest, rfl⟩ := List.exists_cons_of_ne_nil some'
  cases found : fetchOne pick (first :: rest) with
  | none => simp [fetchOne] at found
  | some row => exact ⟨row, fetchOne_mem found, rfl⟩

/-- The rows a worker may take for the one it has just claimed. -/
def rowsClaimed (t : ImageTable) (workerId : String) (expiresAt : DbTime) : List Row :=
  t.select fun row =>
    row.heldBy workerId ∧ row.status = Generating ∧ row.lease_expires_at = some expiresAt

def rowsClaimedById (t : ImageTable) (id : Int) (workerId : String) : List Row :=
  t.select fun row => row.id = id ∧ row.heldBy workerId ∧ row.status = Generating

def ofUser (userId : Int) (status : Option TaskStatus) (row : Row) : Bool :=
  row.user_id = userId ∧ status.all fun wanted => row.status = wanted

def expiredRows (now : DbTime) (requeue : Bool) (row : Row) : Bool :=
  row.status = Generating ∧ row.leaseExpired now ∧ row.hasRetriesLeft = requeue

def Stmt.answer (s : Stmt) (t : ImageTable) (pick : Nat) : s.Answer :=
  match s with
  | .insert _ => ()
  | .selectPage userId status limit offset =>
    let rows := t.select (ofUser userId status)
    (rows.reverse.drop offset.toNat |>.take limit.toNat).map fun row => (row, (rows.length : Int))
  | .countByUser userId status => ((t.select (ofUser userId status)).length : Int)
  | .countActiveTasks userId =>
    ((t.select fun row => row.user_id = userId ∧ row.isActive).length : Int)
  | .selectByIdAndUserId id userId =>
    fetchOne pick (t.select fun row => row.id = id ∧ row.user_id = userId)
  | .selectByRequestIdAndUserId requestId userId =>
    fetchOne pick (t.select fun row => collates row.request_id requestId ∧ row.user_id = userId)
  | .readClaimed workerId expiresAt => fetchOne pick (rowsClaimed t workerId expiresAt)
  | .readClaimedById id workerId => fetchOne pick (rowsClaimedById t id workerId)
  | .selectQueuedIds => ((t.select Row.isQueued).mergeSort olderThan).map Row.id
  | .selectExpired now requeue =>
    (t.select (expiredRows now requeue)).map fun row => (row.id, row.user_id)
  | .deleteByIdAndUserId id userId => (t.select (deletable id userId)).length
  | .claimNextTask workerId now expiresAt =>
    Stmt.affected (.claimNextTask workerId now expiresAt) t
  | .claimTaskById id workerId now expiresAt =>
    Stmt.affected (.claimTaskById id workerId now expiresAt) t
  | .requeueExpired now => Stmt.affected (.requeueExpired now) t
  | .timeoutExpired now => Stmt.affected (.timeoutExpired now) t
  | .renewLease expiresAt id userId workerId =>
    Stmt.affected (.renewLease expiresAt id userId workerId) t
  | .finishClaimedTask image => Stmt.affected (.finishClaimedTask image) t
  | .deferClaimedTask id userId workerId failureCode errorMessage =>
    Stmt.affected (.deferClaimedTask id userId workerId failureCode errorMessage) t
  | .cancelByIdAndUserId now id userId => Stmt.affected (.cancelByIdAndUserId now id userId) t
  | .retryByIdAndUserId id userId => Stmt.affected (.retryByIdAndUserId id userId) t

end Text2Image
