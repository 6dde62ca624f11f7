import Text2Image.Services.GenerationClient

/-! Whether a claimed task may be sent to the model service now. -/

set_option autoImplicit false

namespace Text2Image.model_health

inductive GateAction where
  | Proceed
  | Defer
  | Fail
  deriving DecidableEq, Repr

structure GateDecision where
  action : GateAction := .Proceed
  backoff : Nat := 0
  failure_code : String := ""
  message : String := ""
  deriving DecidableEq, Repr

def kMaxModelHealthAttempts : Int := 10
def kUnhealthyBackoff : Nat := 5
def kLoadingBackoff : Nat := 30

def hasExceededAttemptBudget (retryCount : Int) : Bool :=
  retryCount ≥ kMaxModelHealthAttempts - 1

def healthMessage (health : ImageHealthResult) (reason : String) : String :=
  if health.detail.isEmpty then reason else s!"{reason}: {health.detail}"

def deferOrFail (health : ImageHealthResult) (retryCount : Int) (backoff : Nat) (reason : String) :
    GateDecision :=
  if hasExceededAttemptBudget retryCount then
    { action := .Fail
      failure_code := failure.kModelServiceUnavailable
      message := healthMessage health "model service unavailable" }
  else
    { action := .Defer
      backoff := backoff
      failure_code := failure.kModelServiceUnavailable
      message := healthMessage health reason }

def busyGenerationConflicts (health : ImageHealthResult) : Bool :=
  let activeKind := lowerText health.active_kind
  if activeKind.isEmpty ∨ activeKind = "none" then false
  else if health.max_concurrent_generations > 0 then
    health.active_generations ≥ health.max_concurrent_generations
  else true

def decideForGenerate (health : ImageHealthResult) (retryCount : Int) : GateDecision :=
  let status := lowerText health.status
  if status = "healthy" ∨ status = "ok" ∨ status = "success" then {}
  else if status = "loading" then
    deferOrFail health retryCount kLoadingBackoff "model service is loading"
  else if status = "busy" then
    if busyGenerationConflicts health then
      deferOrFail health retryCount kUnhealthyBackoff "model service is busy"
    else {}
  else deferOrFail health retryCount kUnhealthyBackoff "model service is unhealthy"

/-- A deferral is decided only while the task is within the gate's own budget. -/
theorem retryCount_of_defer {health : ImageHealthResult} {retryCount : Int}
    (deferred : (decideForGenerate health retryCount).action = .Defer) :
    retryCount < kMaxModelHealthAttempts - 1 := by
  have budget : ∀ backoff reason, (deferOrFail health retryCount backoff reason).action = .Defer →
      retryCount < kMaxModelHealthAttempts - 1 := by
    intro backoff reason chosen
    unfold deferOrFail at chosen
    split at chosen
    · cases chosen
    · rename_i within
      have left : ¬ retryCount ≥ kMaxModelHealthAttempts - 1 := by
        simpa only [hasExceededAttemptBudget, decide_eq_true_eq] using within
      omega
  unfold decideForGenerate at deferred
  simp only at deferred
  split at deferred
  · cases deferred
  · split at deferred
    · exact budget _ _ deferred
    · split at deferred
      · split at deferred
        · exact budget _ _ deferred
        · cases deferred
      · exact budget _ _ deferred

end Text2Image.model_health
