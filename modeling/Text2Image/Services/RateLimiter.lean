import Mathlib.Algebra.Order.Field.Rat
import Mathlib.Algebra.Order.Ring.Unbundled.Rat
import Mathlib.Data.Rat.Cast.Order
import Text2Image.Limits.TokenBucket
import Text2Image.Services.Operation

/-! The rate limiter: a script in Redis keeps a bucket of tokens for each key. -/

set_option autoImplicit false

namespace Text2Image.rate_limit

structure RateLimitConfig where
  enabled : Bool := true
  fail_open : Bool := true
  deriving DecidableEq, Repr

/-- The fields that the script sets, and when the key expires by the clock of Redis. -/
structure Hash where
  tokens : Rat
  refreshed_at : Int
  expires_at : Int
  deriving DecidableEq, Repr

abbrev Keys := String → Option Hash

/-- When a call reads its clock, and what time it is for Redis then, in milliseconds. -/
structure Arrival where
  now_ms : Int
  redis_ms : Int
  deriving DecidableEq, Repr

/-- The tokens that the script finds, refilled up to now. -/
def tokensFound (capacity window_ms now_ms redis_ms : Int) (data : Option Hash) : Rat :=
  let (tokens, refreshed_at) :=
    match data.filter fun hash => decide (redis_ms < hash.expires_at) with
    | some hash => (hash.tokens, hash.refreshed_at)
    | none => ((capacity : Rat), now_ms)
  let elapsed := max 0 (now_ms - refreshed_at)
  let refill : Rat := elapsed * capacity / window_ms
  min (capacity : Rat) (tokens + refill)

/-- `kTokenBucketScript`, with exact numbers: the reply, and the hash it leaves. -/
def kTokenBucketScript (capacity window_ms now_ms ttl_seconds redis_ms : Int) (data : Option Hash) :
    Bool × Hash :=
  let tokens := tokensFound capacity window_ms now_ms redis_ms data
  let allowed := decide (1 ≤ tokens)
  (allowed, ⟨if allowed then tokens - 1 else tokens, now_ms, redis_ms + ttl_seconds * 1000⟩)

/-- How a command ends; the error has a text. -/
structure Evaluation where
  outcome : Outcome := .done
  what : String := ""

/-- The commands of one call: EVALSHA, and SCRIPT LOAD and EVALSHA again if it has to be. -/
structure Evaluations where
  first : Evaluation := {}
  load : Evaluation := {}
  second : Evaluation := {}

def evalsha (evaluation : Evaluation) (capacity window : Int) (arrival : Arrival)
    (data : Option Hash) : Except String Bool × Option Hash :=
  let (allowed, hash) := kTokenBucketScript capacity (window * 1000) arrival.now_ms
    (max 1 (window * 2)) arrival.redis_ms data
  match evaluation.outcome with
  | .done => (.ok allowed, some hash)
  | .failed => (.error evaluation.what, data)
  | .lost => (.error evaluation.what, some hash)

def looksLikeNoScript (message : String) : Bool :=
  decide ("NOSCRIPT".toList <:+: message.toList ∨ "No matching script".toList <:+: message.toList)

def evalTokenBucket (evaluations : Evaluations) (capacity window : Int) (arrival : Arrival)
    (data : Option Hash) : Except String Bool × Option Hash :=
  match evalsha evaluations.first capacity window arrival data with
  | (.ok allowed, left) => (.ok allowed, left)
  | (.error what, left) =>
    if ! looksLikeNoScript what then (.error what, left)
    else if evaluations.load.outcome ≠ .done then (.error evaluations.load.what, left)
    else evalsha evaluations.second capacity window arrival left

/-- A limiter with the keys in its Redis. -/
structure Limiter where
  available : Bool
  keys : Keys

def unavailable (config : RateLimitConfig) : ServiceResult Unit :=
  if config.fail_open then .ok ()
  else .error ⟨503, "rate_limiter_unavailable", "rate limiter is unavailable", []⟩

def tryAcquire (config : RateLimitConfig) (evaluations : Evaluations) (key : String)
    (capacity window : Int) (arrival : Arrival) (limiter : Limiter) : ServiceResult Unit × Limiter :=
  if ! config.enabled ∨ capacity ≤ 0 ∨ window ≤ 0 then (.ok (), limiter)
  else if ! limiter.available then (unavailable config, limiter)
  else
    let (allowed, left) := evalTokenBucket evaluations capacity window arrival (limiter.keys key)
    let keys := Function.update limiter.keys key left
    match allowed with
    | .ok true => (.ok (), { limiter with keys })
    | .ok false =>
      (.error ⟨429, "rate_limit_exceeded", "too many requests", []⟩, { limiter with keys })
    | .error _ => (unavailable config, ⟨false, keys⟩)

/-- Calls on one key while Redis is up, one after the other: which of them are allowed, and
the limiter that is left. -/
def acquireAll (config : RateLimitConfig) (key : String) (capacity window : Int) :
    List Arrival → Limiter → List Bool × Limiter
  | [], limiter => ([], limiter)
  | arrival :: later, limiter =>
    let (result, left) := tryAcquire config {} key capacity window arrival limiter
    let (results, last) := acquireAll config key capacity window later left
    (result.isOk :: results, last)

/-! ## The script and the ideal bucket -/

section

variable {config : RateLimitConfig} {key : String} {capacity window : Int} {limiter : Limiter}

/-- Tokens for each millisecond. -/
def rate (capacity window : Int) : Rat := capacity / (window * 1000)

/-- The hash holds this bucket; no hash stands for a full one. -/
def Holds (capacity : Int) (data : Option Hash) (bucket : TokenBucket.Bucket Rat) : Prop :=
  match data with
  | some hash => hash.tokens = bucket.level ∧ hash.refreshed_at = bucket.time
  | none => bucket.level = capacity

/-- The call does not read an earlier time than the last one that is remembered; and one
that has been forgotten is a window ago.
-/
def InOrder (window : Int) (data : Option Hash) (arrival : Arrival) : Prop :=
  ∀ hash, data = some hash → hash.refreshed_at ≤ arrival.now_ms ∧
    (hash.expires_at ≤ arrival.redis_ms → hash.refreshed_at + window * 1000 ≤ arrival.now_ms)

theorem rate_nonneg (some_capacity : 1 ≤ capacity) (some_window : 1 ≤ window) :
    0 ≤ rate capacity window := by
  have room : (0 : Rat) ≤ capacity := by exact_mod_cast Int.le_trans (by decide) some_capacity
  have wide : (0 : Rat) ≤ window := by exact_mod_cast Int.le_trans (by decide) some_window
  unfold rate
  positivity

/-- A window gains what the bucket holds. -/
theorem rate_window (some_window : 1 ≤ window) :
    rate capacity window * ((window * 1000 : Int) : Rat) = capacity := by
  have wide : ((window : Rat) * 1000) ≠ 0 := by
    have positive : window * 1000 ≠ 0 := by omega
    exact_mod_cast positive
  rw [Int.cast_mul, rate]
  exact div_mul_cancel₀ _ wide

/-- The tokens found are the level of the bucket. -/
theorem tokensFound_eq {data : Option Hash} {bucket : TokenBucket.Bucket Rat} {arrival : Arrival}
    (some_capacity : 1 ≤ capacity) (some_window : 1 ≤ window) (holds : Holds capacity data bucket)
    (sound : bucket.Sound (capacity : Rat)) (in_order : InOrder window data arrival)
    (forward : bucket.time ≤ arrival.now_ms) :
    tokensFound capacity (window * 1000) arrival.now_ms arrival.redis_ms data =
      bucket.levelAt (capacity : Rat) (rate capacity window) arrival.now_ms := by
  have rising := rate_nonneg some_capacity some_window
  have gained : 0 ≤ rate capacity window * (arrival.now_ms - bucket.time) :=
    mul_nonneg rising (sub_nonneg.mpr forward)
  have full : tokensFound capacity (window * 1000) arrival.now_ms arrival.redis_ms none = capacity := by
    simp [tokensFound]
  cases data with
  | none =>
    have level : bucket.level = capacity := holds
    rw [full, TokenBucket.Bucket.levelAt, level, min_eq_left (by linarith)]
  | some hash =>
    obtain ⟨tokens, refreshed⟩ := holds
    obtain ⟨before, forgotten⟩ := in_order hash rfl
    by_cases live : arrival.redis_ms < hash.expires_at
    · have elapsed : max 0 (arrival.now_ms - hash.refreshed_at) = arrival.now_ms - hash.refreshed_at :=
        max_eq_right (by omega)
      have refill : (((arrival.now_ms - hash.refreshed_at : Int) : Rat) * capacity /
          ((window * 1000 : Int) : Rat)) = rate capacity window * (arrival.now_ms - bucket.time) := by
        rw [rate, ← refreshed, Int.cast_sub, Int.cast_mul, mul_div_assoc, mul_comm]
        rfl
      simp only [tokensFound, Option.filter_some, live, decide_true, if_true, elapsed, refill, tokens]
      rfl
    · -- A bucket that was forgotten is full again.
      have gone : (some hash).filter (fun hash => decide (arrival.redis_ms < hash.expires_at)) = none := by
        simp [Option.filter, live]
      have dead : tokensFound capacity (window * 1000) arrival.now_ms arrival.redis_ms (some hash) =
          capacity := by
        rw [← full, tokensFound, gone]
        rfl
      have idle : hash.refreshed_at + window * 1000 ≤ arrival.now_ms := forgotten (not_lt.mp live)
      have away : ((window * 1000 : Int) : Rat) ≤ arrival.now_ms - bucket.time := by
        rw [← refreshed, ← Int.cast_sub]
        exact_mod_cast (by omega : window * 1000 ≤ arrival.now_ms - hash.refreshed_at)
      have refilled := mul_le_mul_of_nonneg_left away rising
      rw [rate_window some_window] at refilled
      have nonneg := sound.nonneg
      rw [dead, TokenBucket.Bucket.levelAt, min_eq_left (by linarith)]

/-- The script answers and leaves what the bucket does. -/
theorem script_request {data : Option Hash} {bucket : TokenBucket.Bucket Rat} {arrival : Arrival}
    (ttl : Int) (some_capacity : 1 ≤ capacity) (some_window : 1 ≤ window)
    (holds : Holds capacity data bucket) (sound : bucket.Sound (capacity : Rat))
    (in_order : InOrder window data arrival) (forward : bucket.time ≤ arrival.now_ms) :
    (kTokenBucketScript capacity (window * 1000) arrival.now_ms ttl arrival.redis_ms data).1 =
        (bucket.request (capacity : Rat) (rate capacity window) arrival.now_ms).1 ∧
      Holds capacity
        (some (kTokenBucketScript capacity (window * 1000) arrival.now_ms ttl arrival.redis_ms data).2)
        (bucket.request (capacity : Rat) (rate capacity window) arrival.now_ms).2 := by
  have found := tokensFound_eq some_capacity some_window holds sound in_order forward
  unfold kTokenBucketScript TokenBucket.Bucket.request
  rw [found]
  by_cases enough : 1 ≤ bucket.levelAt (capacity : Rat) (rate capacity window) arrival.now_ms
  · simp [enough, Holds]
  · simp [enough, Holds]

/-! ## Calls while Redis is up -/

theorem tryAcquire_up (key : String) (arrival : Arrival) (enabled : config.enabled = true)
    (up : limiter.available = true) (some_capacity : 1 ≤ capacity) (some_window : 1 ≤ window) :
    (tryAcquire config {} key capacity window arrival limiter).1.isOk =
        (kTokenBucketScript capacity (window * 1000) arrival.now_ms (max 1 (window * 2))
          arrival.redis_ms (limiter.keys key)).1 ∧
      (tryAcquire config {} key capacity window arrival limiter).2 =
        { limiter with keys := Function.update limiter.keys key (some (kTokenBucketScript capacity
          (window * 1000) arrival.now_ms (max 1 (window * 2)) arrival.redis_ms (limiter.keys key)).2) } := by
  have open_ : ¬(! config.enabled ∨ capacity ≤ 0 ∨ window ≤ 0) := by
    simp only [enabled, Bool.not_true, Bool.false_eq_true, false_or]
    omega
  rw [tryAcquire, if_neg open_, up]
  simp only [evalTokenBucket, evalsha]
  cases (kTokenBucketScript capacity (window * 1000) arrival.now_ms (max 1 (window * 2))
    arrival.redis_ms (limiter.keys key)).1 <;> exact ⟨rfl, rfl⟩

/-- All calls on the key are in order. -/
def AllInOrder (config : RateLimitConfig) (key : String) (capacity window : Int) :
    List Arrival → Limiter → Prop
  | [], _ => True
  | arrival :: later, limiter => InOrder window (limiter.keys key) arrival ∧
      AllInOrder config key capacity window later
        (tryAcquire config {} key capacity window arrival limiter).2

end

end Text2Image.rate_limit
