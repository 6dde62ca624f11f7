import Text2Image.Concurrency.System
import Text2Image.Services.TaskEngine

/-! The whole backend: any number of requests, worker turns and scanner turns,
of any number of processes, over one database, cache and object store.
-/

set_option autoImplicit false

namespace Text2Image

open Concurrency

inductive Call where
  | create (userId : Int) (payload : Json) (isAdmin : Bool)
  | listMy (userId page size : Int)
  | listMyByStatus (userId : Int) (status : String) (page size : Int)
  | getById (userId id : Int) (includeImagePayload : Bool)
  | getBinaryById (userId id : Int)
  | cancelById (userId id : Int)
  | retryById (userId id : Int)
  | deleteById (userId id : Int)
  | workerTurn (index : Nat)
  | leaseExpiryTurn
  | recoverOrphanedTasks

/-- The user a request is made for; workers and scanners act for nobody. -/
def Call.user : Call → Option Int
  | .create userId .. | .listMy userId .. | .listMyByStatus userId .. | .getById userId ..
  | .getBinaryById userId _ | .cancelById userId _ | .retryById userId _
  | .deleteById userId _ => some userId
  | .workerTurn _ | .leaseExpiryTurn | .recoverOrphanedTasks => none

inductive Reply where
  | image (result : ServiceResult ImageGeneration)
  | list (result : ServiceResult ImageService.ListResult)
  | binary (result : ServiceResult ImageService.BinaryResult)
  | deleted (result : ServiceResult Unit)
  | turn (outcome : Except Thrown Unit)

/-- What happens by itself: time passes, cached values and Redis leases expire. -/
inductive Env where
  | setClock (now : TimePoint)
  | cacheExpires (key : String)
  | redisLeaseExpires (taskId : Int)

variable (config : Config)

def Call.program : Call → Program Reply
  | .create userId payload isAdmin => do
    return .image (← ImageService.create config userId payload isAdmin)
  | .listMy userId page size => do
    return .list (← ImageService.listMy config userId page size)
  | .listMyByStatus userId status page size => do
    return .list (← ImageService.listMyByStatus config userId status page size)
  | .getById userId id includeImagePayload => do
    return .image (← ImageService.getById config userId id includeImagePayload)
  | .getBinaryById userId id => do return .binary (← ImageService.getBinaryById userId id)
  | .cancelById userId id => do return .image (← ImageService.cancelById userId id)
  | .retryById userId id => do return .image (← ImageService.retryById userId id)
  | .deleteById userId id => do return .deleted (← ImageService.deleteById userId id)
  | .workerTurn index => do
    return .turn (← TaskEngine.workerTurn config (TaskEngine.workerId config index))
  | .leaseExpiryTurn => do
    TaskEngine.leaseExpiryTurn
    return .turn (.ok ())
  | .recoverOrphanedTasks => do
    TaskEngine.recoverOrphanedTasks
    return .turn (.ok ())

def Keeper.keeps (keeper : Keeper) (pid : Nat) (taskId : Int) (workerId : String) : Bool :=
  keeper.owner = pid ∧ keeper.taskId = taskId ∧ keeper.workerId = workerId

/-- What a lease keeper thread does: it renews the claim it was started for. -/
def leaseKeeperMay (pid : Nat) (op : Op) (world : World) : Bool :=
  match op with
  | .renewRedisLease taskId workerId =>
    world.keepers.any fun keeper => keeper.keeps pid taskId workerId
  | .sql (.renewLease expiresAt id userId workerId) =>
    (world.keepers.any fun keeper => keeper.keeps pid id workerId ∧ keeper.userId = userId) ∧
      expiresAt = Chrono.toDbTime (world.clock + leaseDuration config.lease_seconds)
  | _ => false

def Env.apply (world : World) : Env → World
  | .setClock now => { world with clock := now }
  | .cacheExpires key => world.withCache key none
  | .redisLeaseExpires taskId => world.withLease taskId none

abbrev backend : System where
  I := interface
  World := World
  Choice := Choice
  Call := Call
  Reply := Reply
  Env := Env
  perform := perform config
  program := Call.program config
  background := leaseKeeperMay config
  leave pid world := world.withoutKeepers pid
  env event world := event.apply world

@[simp] theorem backend_leave (pid : Nat) (world : World) :
    (backend config).leave pid world = world.withoutKeepers pid := rfl

@[simp] theorem Env.apply_db (event : Env) (world : World) : (event.apply world).db = world.db := by
  cases event <;> rfl

/-! ## Runs written out -/

/-- The built-in settings, with a model service on the same host. -/
def defaultConfig : Config := { python_service := .ok ⟨"http://127.0.0.1:8000", .ok none⟩ }

variable {config}

/-- The process performs its next operations with these choices. -/
def acts (pid : Nat) (choices : List Choice) : List (backend config).Label :=
  choices.map fun choice => .act pid choice

/-- The process performs its next operations, all of which succeed. -/
def succeeds (pid count : Nat) : List (backend config).Label := acts pid (List.replicate count {})

/-- An operation that fails without effect. -/
def refused : Choice := { outcome := .failed }

/-- The model service answers that it is unavailable. -/
def unavailable : Choice := { http := ⟨503, ⟨"", none⟩, none⟩ }

def answered (text : String) (json : Option Json) : Choice := { http := ⟨200, ⟨text, json⟩, none⟩ }

/-- The model service answers that it is healthy, names an image, and serves it. -/
def healthy : Choice := answered "{}" (some (.object [("status", .string "healthy")]))

def generated : Choice := answered "{}" (some (.object [("image_url", .string "http://model/a.png")]))

def downloaded : Choice := answered "png" none

def promptPayload (requestId : String) : Json :=
  .object [("prompt", .string "abc"), ("request_id", .string requestId)]

end Text2Image
