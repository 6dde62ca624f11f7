import Text2Image.Concurrency.Refinement
import Text2Image.Services.Backend

/-! The cache clients under the image service: one that asks Redis until a command of its own fails, one
that does without a cache, and one that counts hits and misses over either.
-/

set_option autoImplicit false

namespace Text2Image.cache

open Concurrency

/-! ## Counters -/

inductive Namespace where
  | Meta
  | List
  | Url
  | Other
  deriving DecidableEq, Repr

def classifyKey (key : String) : Namespace :=
  if key.startsWith "img:meta:" then .Meta
  else if key.startsWith "img:list:" then .List
  else if key.startsWith "img:url:" then .Url
  else if key.startsWith "ver:img:list:" then .List
  else .Other

inductive Counter where
  | hits
  | misses
  | degraded
  deriving DecidableEq, Repr

/-- What the clients of one process of the backend have in memory. -/
structure Memory where
  available : Bool
  counters : Namespace → Counter → UInt64 := fun _ _ => 0

def Memory.record (memory : Memory) (ns : Namespace) (counter : Counter) : Memory :=
  let counters := Function.update (memory.counters ns) counter (memory.counters ns counter + 1)
  { memory with counters := Function.update memory.counters ns counters }

/-! ## Single steps -/

structure StackWorld where
  base : World
  /-- By the process of the backend; each has many threads. -/
  memory : Nat → Memory

def StackWorld.withMemory (world : StackWorld) (host : Nat) (memory : Memory) : StackWorld :=
  { world with memory := Function.update world.memory host memory }

inductive ClientOp where
  /-- `available_.load` -/
  | load
  /-- `available_.store(false)` -/
  | storeFalse
  | get (fullKey : String)
  | setex (fullKey : String) (value : CacheValue) (ttl : Int)
  | del (fullKey : String)
  /-- The script that increments a counter and lets it expire. -/
  | increment (fullKey : String)
  | record (ns : Namespace) (counter : Counter)
  /-- An operation that does not go to the cache. -/
  | other (op : Op)

/-- A command of Redis answers, or throws. -/
def ClientOp.Answer : ClientOp → Type
  | .load => Bool
  | .storeFalse | .record .. => Unit
  | .get _ => Except String (Option CacheValue)
  | .setex .. => Except String Unit
  | .del _ => Except String Nat
  | .increment _ => Except String Int
  | .other op => op.Answer

abbrev clients : Interface := ⟨ClientOp, ClientOp.Answer⟩

/-- `INCR` counts from zero where there is nothing, and refuses what is no number. -/
def integer : Option CacheValue → Option Int
  | none => some 0
  | some (.counter value) => some value
  | some _ => none

/-- `host` is the process of the backend that a thread belongs to. -/
def perform (config : Config) (host : Nat → Nat) (pid : Nat) (op : ClientOp) (choice : Choice) (world : StackWorld) :
    op.Answer × StackWorld :=
  let memory := world.memory (host pid)
  let store (key : String) (value : Option CacheValue) : StackWorld :=
    if choice.applies then { world with base := world.base.withCache key value } else world
  match op with
  | .load => (memory.available, world)
  | .storeFalse => ((), world.withMemory (host pid) { memory with available := false })
  | .get fullKey => (choice.orThrow (world.base.cache fullKey), world)
  | .setex fullKey value _ => (choice.orThrow (), store fullKey (some value))
  | .del fullKey =>
    (choice.orThrow (if (world.base.cache fullKey).isSome then 1 else 0), store fullKey none)
  | .increment fullKey =>
    match integer (world.base.cache fullKey) with
    | some value => (choice.orThrow (value + 1), store fullKey (some (.counter (value + 1))))
    | none => (.error "ERR value is not an integer or out of range", world)
  | .record ns counter => ((), world.withMemory (host pid) (memory.record ns counter))
  | .other op =>
    let done := Text2Image.perform config pid op choice world.base
    (done.1, { world with base := done.2 })

/-! ## `RedisCacheClient` -/

abbrev ClientProgram := Prog clients

def load : ClientProgram Bool := Prog.perform (I := clients) .load

def storeFalse : ClientProgram Unit := Prog.perform (I := clients) .storeFalse

def record (ns : Namespace) (counter : Counter) : ClientProgram Unit :=
  Prog.perform (I := clients) (.record ns counter)

namespace RedisCacheClient

def isAvailable : ClientProgram Bool := load

/-- The body of a method: a command and what is made of its answer; `none` stands for an exception. -/
def guarded {α β : Type} (failed : β) (command : ClientProgram (Except String α)) (read : α → Option β) :
    ClientProgram β := do
  if ← isAvailable then
    match (← command).toOption.bind read with
    | some value => return value
    | none =>
      storeFalse
      return failed
  else return failed

variable (config : Config)

def get (key : String) : ClientProgram (Option CacheValue) :=
  guarded none (Prog.perform (I := clients) (.get (cacheKey config key))) some

def setex (key : String) (value : CacheValue) (ttl : Int) : ClientProgram Bool :=
  guarded false (Prog.perform (I := clients) (.setex (cacheKey config key) value ttl)) fun _ => some true

def del (key : String) : ClientProgram Bool :=
  guarded false (Prog.perform (I := clients) (.del (cacheKey config key))) fun removed => some (removed > 0)

def bumpVersion (ns identifier : String) : ClientProgram (Option Int) :=
  guarded none (Prog.perform (I := clients) (.increment (versionKey config ns identifier))) fun value =>
    some (some value)

/-- `std::stoll` throws at what is no number; only counters are stored under such keys. -/
def getVersion (ns identifier : String) : ClientProgram Int :=
  guarded 0 (Prog.perform (I := clients) (.get (versionKey config ns identifier))) integer

end RedisCacheClient

/-! ## The stack -/

/-- What the other client is put on: `NullCacheClient` where the cache is not enabled. -/
inductive Inner where
  | redis
  | null
  deriving DecidableEq, Repr

namespace Inner

variable (config : Config)

def isAvailable : Inner → ClientProgram Bool
  | .redis => RedisCacheClient.isAvailable
  | .null => .done false

def get (key : String) : Inner → ClientProgram (Option CacheValue)
  | .redis => RedisCacheClient.get config key
  | .null => .done none

def setex (key : String) (value : CacheValue) (ttl : Int) : Inner → ClientProgram Bool
  | .redis => RedisCacheClient.setex config key value ttl
  | .null => .done false

def del (key : String) : Inner → ClientProgram Bool
  | .redis => RedisCacheClient.del config key
  | .null => .done false

def bumpVersion (ns identifier : String) : Inner → ClientProgram (Option Int)
  | .redis => RedisCacheClient.bumpVersion config ns identifier
  | .null => .done none

def getVersion (ns identifier : String) : Inner → ClientProgram Int
  | .redis => RedisCacheClient.getVersion config ns identifier
  | .null => .done 0

end Inner

variable (config : Config) (inner : Inner)

/-- What `MetricsCacheClient::get` does with the answer. -/
def count (key : String) (result : Option CacheValue) : ClientProgram (Option CacheValue) := do
  if result.isSome then
    record (classifyKey key) .hits
    return result
  else if ← inner.isAvailable then
    record (classifyKey key) .misses
    return result
  else
    record (classifyKey key) .degraded
    return result

/-- `MetricsCacheClient`: the other methods are those of the inner client. -/
def carry : (op : Op) → ClientProgram op.Answer
  | .cacheGet key => inner.get config key >>= fun result => count inner key result
  | .cacheSetex key value ttl => inner.setex config key value ttl
  | .cacheDel key => inner.del config key
  | .bumpVersion ns identifier => inner.bumpVersion config ns identifier
  | .getVersion ns identifier => inner.getVersion config ns identifier
  | op => Prog.perform (I := clients) (.other op)

/-- The backend with its cache clients. -/
def stack (host : Nat → Nat) : Lowering (backend config) where
  I := clients
  World := StackWorld
  Choice := Choice
  perform := perform config host
  carry := carry config inner
  background pid op world :=
    match op with
    | .other op => leaseKeeperMay config pid op world.base
    | _ => false
  leave pid world := { world with base := world.base.withoutKeepers pid }
  env event world := { world with base := event.apply world.base }
  base := StackWorld.base

end Text2Image.cache
