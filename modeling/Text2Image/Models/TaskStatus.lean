/-! The statuses of a task and the predicates on them. -/

set_option autoImplicit false

namespace Text2Image

inductive TaskStatus where
  | Pending
  | Queued
  | Generating
  | Success
  | Failed
  | Cancelled
  | Timeout
  | Unknown
  deriving DecidableEq, Repr

namespace TaskStatus

def isTerminal : TaskStatus → Bool
  | Success | Failed | Cancelled | Timeout => true
  | _ => false

def canCancel : TaskStatus → Bool
  | Pending | Queued | Generating => true
  | _ => false

def canRetry (status : TaskStatus) (retryCount maxRetries : Int) : Bool :=
  if retryCount ≥ maxRetries then false
  else
    match status with
    | Failed | Timeout | Cancelled => true
    | _ => false

def canDelete (status : TaskStatus) : Bool := status.isTerminal

def canReturnBinary (status : TaskStatus) (storageKey : String) : Bool :=
  status = Success ∧ ¬ storageKey.isEmpty

end TaskStatus

def asciiToLower (c : Char) : Char :=
  if 'A' ≤ c ∧ c ≤ 'Z' then Char.ofNat (c.toNat + 32) else c

def lowerText (text : String) : String := String.ofList (text.toList.map asciiToLower)

def ciEquals (a b : String) : Bool := lowerText a = lowerText b

open TaskStatus

def statusFromString (s : String) : TaskStatus :=
  if s = "pending" then Pending
  else if s = "queued" then Queued
  else if s = "generating" then Generating
  else if s = "success" then Success
  else if s = "failed" then Failed
  else if s = "cancelled" then Cancelled
  else if s = "timeout" then Timeout
  else Unknown

def statusToString : TaskStatus → String
  | Pending => "pending"
  | Queued => "queued"
  | Generating => "generating"
  | Success => "success"
  | Failed => "failed"
  | Cancelled => "cancelled"
  | Timeout => "timeout"
  | Unknown => "unknown"

@[simp] theorem statusFromString_statusToString (status : TaskStatus) :
    statusFromString (statusToString status) = status := by
  cases status <;> decide

theorem statusToString_injective {status status' : TaskStatus}
    (same : statusToString status = statusToString status') : status = status' := by
  have read := congrArg statusFromString same
  simpa using read

def normalizeTaskStatus (rawStatus : String) : TaskStatus :=
  if ciEquals rawStatus "success" ∨ ciEquals rawStatus "succeeded" ∨
      ciEquals rawStatus "completed" ∨ ciEquals rawStatus "done" ∨ ciEquals rawStatus "ok" then
    Success
  else if ciEquals rawStatus "failed" ∨ ciEquals rawStatus "failure" ∨
      ciEquals rawStatus "error" then
    Failed
  else if ciEquals rawStatus "queued" then Queued
  else if ciEquals rawStatus "pending" then Pending
  else if ciEquals rawStatus "processing" ∨ ciEquals rawStatus "generating" then Generating
  else if rawStatus.utf8ByteSize ≥ 32 then Unknown
  else statusFromString (lowerText rawStatus)

end Text2Image
