import Text2Image.Services.Execution

/-! The cache client's configuration, and the cache as Redis keeps it: every value is written
with a time to live, and gone after it.
-/

set_option autoImplicit false

namespace Text2Image

open Concurrency Concurrency.Prog

structure CacheConfig where
  enabled : Bool := true
  host : String := "127.0.0.1"
  port : Int := 6379
  password : String := ""
  db : Int := 1
  pool_size : Int := 4
  connect_timeout_ms : Int := 1000
  socket_timeout_ms : Int := 500
  key_prefix : String := "zimage:"
  /-- In seconds. -/
  version_key_ttl : Int := 86400
  deriving DecidableEq, Repr

def parseCacheConfig (j : Json) : Except String CacheConfig := do
  let c : CacheConfig := {}
  let enabled ← j.value "enabled" "boolean" Json.asBool c.enabled
  let host ← j.value "host" "string" Json.asString c.host
  let port ← j.value "port" "number" Json.asInt c.port
  let password ← j.value "password" "string" Json.asString c.password
  let db ← j.value "db" "number" Json.asInt c.db
  let pool_size ← j.value "pool_size" "number" Json.asInt c.pool_size
  let connect_timeout_ms ← j.value "connect_timeout_ms" "number" Json.asInt c.connect_timeout_ms
  let socket_timeout_ms ← j.value "socket_timeout_ms" "number" Json.asInt c.socket_timeout_ms
  let key_prefix ← j.value "key_prefix" "string" Json.asString c.key_prefix
  let version_key_ttl ← j.value "version_key_ttl_seconds" "number" Json.asInt64 c.version_key_ttl
  return {
    enabled
    host
    port := max 1 (min port 65535)
    password
    db := max 0 db
    pool_size := max 1 pool_size
    connect_timeout_ms := max 1 connect_timeout_ms
    socket_timeout_ms := max 1 socket_timeout_ms
    key_prefix
    version_key_ttl := max 1 version_key_ttl }

theorem parseCacheConfig_ttl {j : Json} {cache : CacheConfig} (admitted : parseCacheConfig j = .ok cache) :
    1 ≤ cache.version_key_ttl := by
  simp only [parseCacheConfig, Bind.bind, Except.bind] at admitted
  repeat' split at admitted
  all_goals cases admitted
  exact Int.le_max_left _ _

/-! ## Values that expire -/

/-- A world whose cached values die; `writtenAt` numbers the writes, the first being number 1. -/
structure ExpiringWorld where
  base : World
  expiry : String → TimePoint
  writtenAt : String → Nat
  writes : Nat

namespace ExpiringWorld

variable (world : ExpiringWorld)

/-- What a command sees of it. -/
def live : World :=
  { world.base with
    cache := fun key => if world.base.clock < world.expiry key then world.base.cache key else none }

def find (key : String) : Option CacheValue := world.live.cache key

/-- The world after an operation, and the key it has written with its time to live. -/
def wrote (base : World) : Option (String × Int) → ExpiringWorld
  | none => { world with base := base }
  | some (key, ttl) =>
    { base := base
      expiry := Function.update world.expiry key (world.base.clock + Chrono.seconds ttl)
      writtenAt := Function.update world.writtenAt key (world.writes + 1)
      writes := world.writes + 1 }

end ExpiringWorld

/-- The full key an operation writes, and for how long: `SETEX`, or the `EXPIRE` after `INCR`. -/
def writing (config : Config) (cache : CacheConfig) : Op → Option (String × Int)
  | .cacheSetex key _ ttl => some (cacheKey config key, ttl)
  | .bumpVersion ns identifier => some (versionKey config ns identifier, cache.version_key_ttl)
  | _ => none

def performExpiring (config : Config) (cache : CacheConfig) (pid : Nat) (op : Op) (choice : Choice)
    (world : ExpiringWorld) : op.Answer × ExpiringWorld :=
  let done := perform config pid op choice world.live
  (done.1, world.wrote done.2 (if choice.applies then writing config cache op else none))

variable {config : Config} {cache : CacheConfig} {pid : Nat} {op : Op} {choice : Choice} {world : ExpiringWorld}
  {key : String}

@[simp] theorem performExpiring_clock :
    (performExpiring config cache pid op choice world).2.base.clock = world.base.clock := by
  unfold performExpiring ExpiringWorld.wrote
  split <;> exact perform_clock config pid op choice world.live

theorem find_eq (world : ExpiringWorld) (key : String) :
    world.find key = if world.base.clock < world.expiry key then world.base.cache key else none := rfl

/-- A key that the operation neither writes nor drops. -/
theorem performExpiring_other (drops : ∀ name, op = .cacheDel name → key ≠ cacheKey config name)
    (writes : ∀ ttl, writing config cache op ≠ some (key, ttl)) :
    (performExpiring config cache pid op choice world).2.find key = world.find key ∧
      (performExpiring config cache pid op choice world).2.writtenAt key = world.writtenAt key := by
  have kept : (perform config pid op choice world.live).2.cache key = world.find key := by
    have change := perform_cache config pid op choice world.live key
    generalize (perform config pid op choice world.live).2.cache key = value at change
    cases change with
    | kept => rfl
    | dropped deletes same => exact (drops _ deletes same).elim
    | written sets same =>
      cases sets
      exact (writes _ (by rw [writing, same])).elim
    | bumped bumps same =>
      cases bumps
      exact (writes _ (by rw [writing, same])).elim
  have apart : ∀ {name : String} {ttl : Int}, (if choice.applies then writing config cache op else none) =
      some (name, ttl) → key ≠ name := by
    rintro name ttl written rfl
    split at written
    · exact writes ttl written
    · cases written
  have written : (performExpiring config cache pid op choice world).2.expiry key = world.expiry key ∧
      (performExpiring config cache pid op choice world).2.writtenAt key = world.writtenAt key := by
    unfold performExpiring ExpiringWorld.wrote
    split
    · exact ⟨rfl, rfl⟩
    · rename_i name ttl written
      simp [Function.update_of_ne (apart written)]
  have stays : (performExpiring config cache pid op choice world).2.base.cache key = world.find key := by
    rw [← kept]
    unfold performExpiring ExpiringWorld.wrote
    split <;> rfl
  refine ⟨?_, written.2⟩
  rw [find_eq, performExpiring_clock, written.1, stays, find_eq]
  split <;> rfl

/-- A key that the operation does not write may be dropped. -/
theorem performExpiring_unwritten (writes : ∀ ttl, writing config cache op ≠ some (key, ttl))
    (found : (performExpiring config cache pid op choice world).2.find key ≠ none) :
    world.find key ≠ none ∧
      (performExpiring config cache pid op choice world).2.writtenAt key = world.writtenAt key := by
  by_cases dropped : ∃ name, op = .cacheDel name ∧ key = cacheKey config name
  · obtain ⟨name, rfl, rfl⟩ := dropped
    have same : performExpiring config cache pid (.cacheDel name) choice world =
        ((perform config pid (.cacheDel name) choice world.live).1,
          { world with base := (perform config pid (.cacheDel name) choice world.live).2 }) := by
      simp only [performExpiring, writing, ite_self]
      rfl
    rw [same] at found ⊢
    refine ⟨fun absent => found ?_, rfl⟩
    have value : (perform config pid (.cacheDel name) choice world.live).2.cache (cacheKey config name) = none := by
      simp only [perform]
      split
      · simp [World.withCache]
      · exact absent
    rw [find_eq, value, ite_self]
  · simp only [not_exists, not_and] at dropped
    have kept : (performExpiring config cache pid op choice world).2.find key = world.find key ∧
        (performExpiring config cache pid op choice world).2.writtenAt key = world.writtenAt key :=
      performExpiring_other dropped writes
    exact ⟨kept.1 ▸ found, kept.2⟩

/-- A write that is refused leaves everything as it is. -/
theorem performExpiring_refused (pid : Nat) (world : ExpiringWorld) (key : String) {written : String × Int} (refused : choice.applies = false)
    (writes : writing config cache op = some written) :
    (performExpiring config cache pid op choice world).2.find key = world.find key ∧
      (performExpiring config cache pid op choice world).2.writtenAt key = world.writtenAt key := by
  have idle : (perform config pid op choice world.live).2 = world.live := by
    cases op with
    | cacheSetex | bumpVersion => simp [perform, refused]
    | _ => cases writes
  have same : (performExpiring config cache pid op choice world).2 = { world with base := world.live } := by
    simp only [performExpiring, refused, Bool.false_eq_true, if_false, idle]
    rfl
  rw [same]
  refine ⟨?_, rfl⟩
  simp only [find_eq, ExpiringWorld.live]
  split <;> rfl

/-- A key that is written has just been written. -/
theorem performExpiring_written {ttl : Int} (applies : choice.applies = true)
    (writes : writing config cache op = some (key, ttl)) :
    (performExpiring config cache pid op choice world).2.writtenAt key = world.writes + 1 ∧
      (performExpiring config cache pid op choice world).2.writes = world.writes + 1 := by
  unfold performExpiring ExpiringWorld.wrote
  rw [if_pos applies, writes]
  simp

/-- A bump leaves the next number, to live for a while. -/
theorem performExpiring_bump {ns identifier : String} (applies : choice.applies = true)
    (lives : 0 < cache.version_key_ttl) :
    (performExpiring config cache pid (.bumpVersion ns identifier) choice world).2.find
        (versionKey config ns identifier) =
      some (.counter (world.live.version (versionKey config ns identifier) + 1)) := by
  have span : 0 < Chrono.seconds cache.version_key_ttl := by
    unfold Chrono.seconds Chrono.ticksPerSecond
    omega
  have later : world.base.clock < world.base.clock + Chrono.seconds cache.version_key_ttl :=
    Int.lt_add_of_pos_right _ span
  rw [find_eq, performExpiring_clock]
  simp only [performExpiring, ExpiringWorld.wrote, writing, applies, if_true, Function.update_self, perform,
    World.withCache]
  rw [if_pos later]

end Text2Image
