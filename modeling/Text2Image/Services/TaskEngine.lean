import Text2Image.Services.ModelHealthGate

/-! The task engine: what one turn of a worker, of the lease scanner and of the
queue recovery does. The health gate's waiting time has no effect on what is
shared and is left out.
-/

set_option autoImplicit false

namespace Text2Image.TaskEngine

open Concurrency TaskStatus

variable (config : Config)

/-- Workers are numbered from one in every backend process. -/
def workerId (index : Nat) : String := config.worker_prefix ++ "-" ++ toString (index + 1)

def invalidateAllForTask (userId id : Int) : Program Unit := do
  let _ ← cacheDel (ImageCache.metaKey userId id)
  let _ ← invalidateListCacheFor userId
  return ()

def releaseLease (taskId : Int) (workerId : String) : Program Unit := do
  let _ ← (Prog.perform (I := interface) (.releaseLease taskId workerId) : Program Bool)
  return ()

def releaseRedisLease (taskId : Int) (workerId : String) : Program Unit := do
  if ← redisAvailable then releaseLease taskId workerId
  else return ()

def startLeaseKeeper (task : ImageGeneration) (workerId : String) : Program Unit :=
  Prog.perform (I := interface) (.startLeaseKeeper task.id task.user_id workerId)

/-- The keeper's thread is stopped and joined. -/
def stopLeaseKeeper : Program Unit := Prog.perform (I := interface) .stopLeaseKeeper

/-- Subscribers are told; what that throws ends the worker's turn. -/
def publish (task : ImageGeneration) : Program (Except Thrown Unit) := do
  match ← publishTaskUpdated task with
  | .error what => return .error (.exception what)
  | .ok _ => return .ok ()

/-- The gate's verdict `Fail`. -/
def failForModelHealth (task : ImageGeneration) (workerId : String)
    (decision : model_health.GateDecision) : Program (Except Thrown Unit) := do
  let now ← readClock
  let task := { task with
    status := Failed
    failure_code := decision.failure_code
    error_message := decision.message
    completed_at := some now }
  let finished ← ImageRepo.finishClaimedTask task
  releaseRedisLease task.id workerId
  invalidateAllForTask task.user_id task.id
  match finished with
  | .ok true => publish { task with worker_id := "", lease_expires_at := none }
  | _ => return .ok ()

/-- The gate's verdict `Defer`. -/
def deferForModelHealth (task : ImageGeneration) (workerId : String)
    (decision : model_health.GateDecision) : Program (Except Thrown Unit) := do
  let deferred ← ImageRepo.deferClaimedTaskForModelHealth task.id task.user_id workerId
    decision.failure_code decision.message
  releaseRedisLease task.id workerId
  match deferred with
  | .ok true =>
    invalidateAllForTask task.user_id task.id
    match ← publish { task with
        status := Queued
        retry_count := task.retry_count + 1
        failure_code := decision.failure_code
        error_message := decision.message
        worker_id := ""
        started_at := none
        lease_expires_at := none } with
    | .error thrown => return .error thrown
    | .ok _ =>
      enqueueTask task.id
      return .ok ()
  | _ => return .ok ()

/-- Whether generation may go on. -/
def applyModelHealthGate (task : ImageGeneration) (workerId : String) :
    Program (Except Thrown Bool) := do
  match ← GenerationClient.checkHealth config with
  | .error thrown => return .error thrown
  | .ok health =>
    let decision := model_health.decideForGenerate health task.retry_count
    match decision.action with
    | .Proceed => return .ok true
    | .Fail =>
      let outcome ← failForModelHealth task workerId decision
      return outcome.map fun _ => false
    | .Defer =>
      let outcome ← deferForModelHealth task workerId decision
      return outcome.map fun _ => false

/-- The result is written back, or what it stored is removed. -/
def finishGeneration (task result : ImageGeneration) (workerId : String) :
    Program (Except Thrown Unit) := do
  let finishedResult ← ImageRepo.finishClaimedTask result
  releaseRedisLease task.id workerId
  match finishedResult with
  | .ok true =>
    invalidateAllForTask task.user_id task.id
    publish result
  | _ =>
    GenerationClient.cleanupOrphanedStoredImage result
    return .ok ()

/-- Generation under a lease keeper, which ends with this part of the turn
however it ends. -/
def generateUnderLease (task : ImageGeneration) (workerId : String) :
    Program (Except Thrown Unit) := do
  startLeaseKeeper task workerId
  match ← GenerationClient.generate config task with
  | .error thrown =>
    stopLeaseKeeper
    return .error thrown
  | .ok result =>
    let outcome ← finishGeneration task result workerId
    stopLeaseKeeper
    return outcome

def processClaimedTask (task : ImageGeneration) (workerId : String) :
    Program (Except Thrown Unit) := do
  invalidateAllForTask task.user_id task.id
  match ← publish task with
  | .error thrown => return .error thrown
  | .ok _ =>
    match ← applyModelHealthGate config task workerId with
    | .error thrown => return .error thrown
    | .ok false => return .ok ()
    | .ok true => generateUnderLease config task workerId

def dequeueTask : Program (Option Int) := Prog.perform (I := interface) .dequeueTask

def acquireLease (taskId : Int) (workerId : String) : Program Bool :=
  Prog.perform (I := interface) (.acquireLease taskId workerId)

/-- The Redis path: a queued id, its Redis lease, then the claim. -/
def claimQueued (workerId : String) : Program (Option ImageGeneration) := do
  match ← dequeueTask with
  | none => return none
  | some taskId =>
    if ← acquireLease taskId workerId then
      match ← ImageRepo.claimTaskById taskId workerId config.lease_seconds with
      | .ok (some task) => return some task
      | _ =>
        releaseLease taskId workerId
        return none
    else return none

/-- The MySQL path. -/
def claimOldest (workerId : String) : Program (Option ImageGeneration) := do
  match ← ImageRepo.claimNextTask workerId config.lease_seconds with
  | .ok task => return task
  | .error _ => return none

def claim (workerId : String) : Program (Option ImageGeneration) := do
  if ← redisAvailable then claimQueued config workerId
  else claimOldest config workerId

/-- One turn of `workerLoop`. -/
def workerTurn (workerId : String) : Program (Except Thrown Unit) := do
  match ← claim config workerId with
  | none => return .ok ()
  | some task => processClaimedTask config task workerId

/-- The queue is rebuilt from the rows that wait. -/
def recoverOrphanedTasks : Program Unit := do
  if ← redisAvailable then
    match ← ImageRepo.findQueuedTaskIds with
    | .error _ => return ()
    | .ok ids =>
      let _ ← (Prog.perform (I := interface) (.rebuildTaskQueue ids) : Program (Except String Unit))
      return ()
  else return ()

def announceExpired : List ImageRepo.ExpiredLease → Program Unit
  | [] => return ()
  | lease :: leases => do
    invalidateAllForTask lease.user_id lease.id
    if lease.requeue then enqueueTask lease.id
    announceExpired leases

/-- One turn of `leaseExpiryLoop`. -/
def leaseExpiryTurn : Program Unit := do
  match ← ImageRepo.expireLeasesReturningExpired with
  | .error _ => recoverOrphanedTasks
  | .ok expired =>
    announceExpired expired
    recoverOrphanedTasks

end Text2Image.TaskEngine
