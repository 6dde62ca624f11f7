import Mathlib.Logic.Function.Basic
import Text2Image.Concurrency.Program
import Text2Image.Database.Statement

/-! The shared world of all backend processes (database, cache, task queue,
object storage) and the atomic operations on it.

What the model leaves to the environment is settled by a choice: whether an
operation succeeds, fails, or takes effect although its caller sees an error.
-/

set_option autoImplicit false

namespace Text2Image

/-! ## Errors -/

inductive RepoErrorKind where
  | DbUnavailable
  | QueryFailed
  | ConstraintViolation
  | Serialization
  | Internal
  deriving DecidableEq, Repr

structure RepoError where
  kind : RepoErrorKind := .Internal
  message : String := ""
  deriving DecidableEq, Repr

abbrev RepoResult (α : Type) := Except RepoError α

/-- A C++ exception: a `std::exception` with its text, or anything else. Where
only standard exceptions can occur, the text alone is kept. -/
inductive Thrown where
  | exception (what : String)
  | other
  deriving DecidableEq, Repr

structure ServiceError where
  status : Nat
  code : String
  message : String
  details : List (String × Json) := []
  deriving Repr

abbrev ServiceResult (α : Type) := Except ServiceError α

/-! ## HTTP -/

/-- A response body with what the JSON parser makes of it. -/
structure Body where
  text : String
  json : Option Json
  deriving Repr

structure HttpError where
  status_code : Int
  message : String
  deriving Repr

structure HttpResult where
  status_code : Int
  body : Body
  failure : Option HttpError
  deriving Repr

def HttpResult.toExpectedBody (result : HttpResult) : Except HttpError Body :=
  match result.failure with
  | some failure => .error failure
  | none =>
    if result.status_code ≥ 200 ∧ result.status_code < 300 then .ok result.body
    else .error ⟨result.status_code, s!"http status {result.status_code}"⟩

/-! ## Configuration -/

/-- Reading `timeout_seconds` throws when it is not a number. -/
structure PythonService where
  url : String
  timeout_seconds : Except String (Option Int)

/-- The settings all processes share. -/
structure Config where
  max_active_tasks_per_user : Int := 3
  presign_ttl : Int := 0
  lease_seconds : Int := 900
  worker_prefix : String := "backend-worker"
  key_prefix : String := "zimage:"
  /-- Reading the section throws when it or its url is missing. -/
  python_service : Except String PythonService

/-- `leaseSeconds <= 0 ? 900 : leaseSeconds`. -/
def leaseDuration (leaseSeconds : Int) : TimePoint :=
  Chrono.seconds (if leaseSeconds ≤ 0 then 900 else leaseSeconds)

/-! ## The world -/

/-- A cached value: plain text, a serialised JSON document, or a version counter. -/
inductive CacheValue where
  | text (value : String)
  | json (value : Json)
  | counter (value : Int)

/-- A lease keeper thread of a worker: the claim it renews. -/
structure Keeper where
  owner : Nat
  taskId : Int
  userId : Int
  workerId : String
  deriving DecidableEq

structure World where
  db : ImageTable
  /-- Last AUTO_INCREMENT value of each caller's database session. -/
  session : Nat → Int
  cache : String → Option CacheValue
  /-- The Redis task list, left end first. -/
  queue : List Int
  leases : Int → Option String
  objects : String → Option String
  keepers : List Keeper
  clock : TimePoint

def World.empty : World where
  db := .empty
  session _ := 0
  cache _ := none
  queue := []
  leases _ := none
  objects _ := none
  keepers := []
  clock := 0

inductive Op where
  | sql (statement : Stmt)
  | lastInsertId
  | now
  | random
  | cacheGet (key : String)
  | cacheSetex (key : String) (value : CacheValue) (ttl : Int)
  | cacheDel (key : String)
  | bumpVersion (ns identifier : String)
  | getVersion (ns identifier : String)
  | redisAvailable
  | enqueueTask (taskId : Int)
  | rebuildTaskQueue (taskIds : List Int)
  | dequeueTask
  | removeFromQueue (taskId : Int)
  | acquireLease (taskId : Int) (workerId : String)
  | renewRedisLease (taskId : Int) (workerId : String)
  | releaseLease (taskId : Int) (workerId : String)
  | forceReleaseLease (taskId : Int)
  | putObject (key data : String)
  | getObject (key : String)
  | presignGetUrl (key : String)
  | deleteObject (key : String)
  | postJson (url : String) (timeout : Int) (payload : Json) (headers : List String)
  | httpGet (url : String) (timeout : Int) (followRedirects : Bool)
  | publishTaskUpdated (image : ImageGeneration)
  | startLeaseKeeper (taskId userId : Int) (workerId : String)
  | stopLeaseKeeper

def Op.Answer : Op → Type
  | .sql statement => RepoResult statement.Answer
  | .lastInsertId => RepoResult Int
  | .now => TimePoint
  | .random => Nat
  | .cacheGet _ => Option CacheValue
  | .cacheSetex .. | .cacheDel _ | .redisAvailable | .removeFromQueue _ | .acquireLease ..
  | .renewRedisLease .. | .releaseLease .. | .forceReleaseLease _ => Bool
  | .bumpVersion .. => Option Int
  | .getVersion .. => Int
  | .enqueueTask _ | .rebuildTaskQueue _ | .publishTaskUpdated _ => Except String Unit
  | .dequeueTask => Option Int
  | .putObject .. | .deleteObject _ => Except String Bool
  | .getObject _ => Except String (Option String)
  | .presignGetUrl _ => Except String String
  | .postJson .. | .httpGet .. => Except Thrown HttpResult
  | .startLeaseKeeper .. | .stopLeaseKeeper => Unit

abbrev interface : Concurrency.Interface := ⟨Op, Op.Answer⟩

abbrev Program := Concurrency.Prog interface

/-- The operation succeeds, fails without effect, or takes effect while its
caller is told that it failed. -/
inductive Outcome where
  | done
  | failed
  | lost
  deriving DecidableEq, Repr

structure Choice where
  outcome : Outcome := .done
  error : RepoError := {}
  what : String := ""
  thrown : Option Thrown := none
  /-- A storage call that fails reports it by an exception, not by its result. -/
  throws : Bool := false
  /-- Which of several rows an unordered query returns first. -/
  pick : Nat := 0
  random : Nat := 0
  /-- The session reconnected since the caller's last statement. -/
  freshSession : Bool := false
  http : HttpResult := ⟨200, ⟨"", none⟩, none⟩
  url : String := ""

def Choice.succeeds (choice : Choice) : Bool := choice.outcome = .done

/-- A value delivered unless the operation throws. -/
def Choice.orThrow {α : Type} (choice : Choice) (value : α) : Except String α :=
  if choice.succeeds then .ok value else .error choice.what

/-- A storage result: delivered, or a failure reported in one of two ways. -/
def Choice.orFail {α : Type} (choice : Choice) (value failed : α) : Except String α :=
  if choice.succeeds then .ok value
  else if choice.throws then .error choice.what
  else .ok failed

/-- The HTTP client answers, or throws. -/
def Choice.answerHttp (choice : Choice) : Except Thrown HttpResult :=
  match choice.thrown with
  | some thrown => .error thrown
  | none => .ok choice.http

/-- The operation takes effect: it succeeds, or its success is not reported. -/
def Choice.applies (choice : Choice) : Bool := choice.outcome ≠ .failed

def cacheKey (config : Config) (key : String) : String := config.key_prefix ++ key

def versionKey (config : Config) (ns identifier : String) : String :=
  config.key_prefix ++ "ver:" ++ ns ++ ":" ++ identifier

/-- The version counter under a key; an absent key counts as zero. -/
def World.version (world : World) (key : String) : Int :=
  match world.cache key with
  | some (.counter value) => value
  | _ => 0

def World.withObject (world : World) (key : String) (data : Option String) : World :=
  { world with objects := Function.update world.objects key data }

def World.withCache (world : World) (key : String) (value : Option CacheValue) : World :=
  { world with cache := Function.update world.cache key value }

def World.withLease (world : World) (taskId : Int) (holder : Option String) : World :=
  { world with leases := Function.update world.leases taskId holder }

def World.withoutKeepers (world : World) (pid : Nat) : World :=
  { world with keepers := world.keepers.filter fun keeper => keeper.owner ≠ pid }

/-- The effect of a statement on the world: the table, and the inserting
session's last id. -/
def World.commit (world : World) (pid : Nat) (statement : Stmt) : World :=
  match statement with
  | .insert _ =>
    { world with
      db := statement.table world.db
      session := Function.update world.session pid world.db.next }
  | _ => { world with db := statement.table world.db }

/-- A lease keeper that finds its claim gone stops. -/
def keeperAfter (pid : Nat) (statement : Stmt) (world : World) : World :=
  match statement with
  | .renewLease .. => if statement.affected world.db = 0 then world.withoutKeepers pid else world
  | _ => world

def perform (config : Config) (pid : Nat) (op : Op) (choice : Choice) (world : World) :
    op.Answer × World :=
  match op with
  | .sql statement =>
    match choice.outcome with
    | .done =>
      (.ok (statement.answer world.db choice.pick),
        (keeperAfter pid statement world).commit pid statement)
    | .failed => (.error choice.error, world)
    | .lost => (.error choice.error, world.commit pid statement)
  | .lastInsertId =>
    (if choice.succeeds then .ok (if choice.freshSession then 0 else world.session pid)
      else .error choice.error, world)
  | .now => (world.clock, world)
  | .random => (choice.random, world)
  | .cacheGet key =>
    (if choice.succeeds then world.cache (cacheKey config key) else none, world)
  | .cacheSetex key value _ =>
    (choice.succeeds,
      if choice.applies then world.withCache (cacheKey config key) (some value) else world)
  | .cacheDel key =>
    (choice.succeeds && (world.cache (cacheKey config key)).isSome,
      if choice.applies then world.withCache (cacheKey config key) none else world)
  | .bumpVersion ns identifier =>
    let key := versionKey config ns identifier
    let bumped := world.version key + 1
    (if choice.succeeds then some bumped else none,
      if choice.applies then world.withCache key (some (.counter bumped)) else world)
  | .getVersion ns identifier =>
    (if choice.succeeds then world.version (versionKey config ns identifier) else (0 : Int), world)
  | .redisAvailable => (choice.succeeds, world)
  | .enqueueTask taskId =>
    (choice.orThrow (), if choice.applies then { world with queue := taskId :: world.queue } else world)
  | .rebuildTaskQueue taskIds =>
    (choice.orThrow (), if choice.applies then { world with queue := taskIds.reverse } else world)
  | .dequeueTask =>
    (if choice.succeeds then world.queue.getLast? else none,
      if choice.applies then { world with queue := world.queue.dropLast } else world)
  | .removeFromQueue taskId =>
    (choice.succeeds && world.queue.contains taskId,
      if choice.applies then { world with queue := world.queue.filter (· ≠ taskId) } else world)
  | .acquireLease taskId workerId =>
    (choice.succeeds && (world.leases taskId).isNone,
      if choice.applies ∧ (world.leases taskId).isNone then world.withLease taskId (some workerId)
      else world)
  | .renewRedisLease taskId workerId =>
    (choice.succeeds && world.leases taskId == some workerId, world)
  | .releaseLease taskId workerId =>
    (choice.succeeds && world.leases taskId == some workerId,
      if choice.applies ∧ world.leases taskId = some workerId then world.withLease taskId none
      else world)
  | .forceReleaseLease taskId =>
    (choice.succeeds && (world.leases taskId).isSome,
      if choice.applies then world.withLease taskId none else world)
  | .putObject key data =>
    (choice.orFail true false,
      if choice.applies then world.withObject key (some data) else world)
  | .getObject key =>
    (choice.orFail (world.objects key) none, world)
  | .presignGetUrl _ => (choice.orThrow choice.url, world)
  | .deleteObject key =>
    (choice.orFail true false, if choice.applies then world.withObject key none else world)
  | .postJson .. | .httpGet .. => (choice.answerHttp, world)
  | .publishTaskUpdated _ => (choice.orThrow (), world)
  | .startLeaseKeeper taskId userId workerId =>
    ((), { world with keepers := ⟨pid, taskId, userId, workerId⟩ :: world.keepers })
  | .stopLeaseKeeper => ((), world.withoutKeepers pid)

/-! ## The database under an operation -/

@[simp] theorem World.commit_db (world : World) (pid : Nat) (statement : Stmt) :
    (world.commit pid statement).db = statement.table world.db := by
  unfold World.commit
  split <;> rfl

@[simp] theorem keeperAfter_db (pid : Nat) (statement : Stmt) (world : World) :
    (keeperAfter pid statement world).db = world.db := by
  unfold keeperAfter
  split
  · split <;> rfl
  · rfl

/-- Only a statement that is not refused changes the database. -/
theorem perform_db (config : Config) (pid : Nat) (op : Op) (choice : Choice) (world : World) :
    (perform config pid op choice world).2.db = world.db ∨
      ∃ statement, op = .sql statement ∧
        (perform config pid op choice world).2.db = statement.table world.db := by
  cases op with
  | sql statement =>
    simp only [perform]
    cases choice.outcome with
    | done => exact .inr ⟨statement, rfl, by simp⟩
    | failed => exact .inl rfl
    | lost => exact .inr ⟨statement, rfl, by simp⟩
  | cacheSetex | cacheDel | bumpVersion | enqueueTask | rebuildTaskQueue | dequeueTask
  | removeFromQueue | acquireLease | releaseLease | forceReleaseLease | putObject
  | deleteObject =>
    left
    simp only [perform]
    split <;> rfl
  | _ => exact .inl rfl

/-! ## The clock -/

@[simp] theorem World.commit_clock (world : World) (pid : Nat) (statement : Stmt) :
    (world.commit pid statement).clock = world.clock := by
  unfold World.commit
  split <;> rfl

@[simp] theorem keeperAfter_clock (pid : Nat) (statement : Stmt) (world : World) :
    (keeperAfter pid statement world).clock = world.clock := by
  unfold keeperAfter
  split
  · split <;> rfl
  · rfl

/-- Only the passing of time moves the clock. -/
@[simp] theorem perform_clock (config : Config) (pid : Nat) (op : Op) (choice : Choice) (world : World) :
    (perform config pid op choice world).2.clock = world.clock := by
  cases op with
  | sql statement =>
    simp only [perform]
    cases choice.outcome <;> simp
  | cacheSetex | cacheDel | bumpVersion | enqueueTask | rebuildTaskQueue | dequeueTask
  | removeFromQueue | acquireLease | releaseLease | forceReleaseLease | putObject
  | deleteObject =>
    simp only [perform]
    split <;> rfl
  | _ => rfl

end Text2Image
