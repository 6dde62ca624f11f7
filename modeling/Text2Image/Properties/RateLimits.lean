import Text2Image.Services.RateLimiter

/-! How many calls the rate limiter allows, by clocks that agree and by clocks that do not. -/

set_option autoImplicit false

namespace Text2Image.rate_limit

open TokenBucket

variable {config : RateLimitConfig} {key : String} {capacity window : Int} {limiter : Limiter}

/-- The times that the calls read. -/
def readings (arrivals : List Arrival) : List Rat := arrivals.map fun arrival => (arrival.now_ms : Rat)

theorem acquireAll_cons (arrival : Arrival) (later : List Arrival) :
    acquireAll config key capacity window (arrival :: later) limiter =
      ((tryAcquire config {} key capacity window arrival limiter).1.isOk ::
        (acquireAll config key capacity window later
          (tryAcquire config {} key capacity window arrival limiter).2).1,
        (acquireAll config key capacity window later
          (tryAcquire config {} key capacity window arrival limiter).2).2) := rfl

/-- Calls in order are answered as the bucket answers them. -/
theorem acquireAll_answers {arrivals : List Arrival} {bucket : Bucket Rat}
    (enabled : config.enabled = true) (up : limiter.available = true) (some_capacity : 1 ≤ capacity)
    (some_window : 1 ≤ window) (holds : Holds capacity (limiter.keys key) bucket)
    (sound : bucket.Sound (capacity : Rat))
    (starts : limiter.keys key = none → ∀ arrival ∈ arrivals.head?, bucket.time ≤ arrival.now_ms)
    (in_order : AllInOrder config key capacity window arrivals limiter) :
    (acquireAll config key capacity window arrivals limiter).1 =
        bucket.answers (capacity : Rat) (rate capacity window) (readings arrivals) ∧
      Holds capacity ((acquireAll config key capacity window arrivals limiter).2.keys key)
        (bucket.after (capacity : Rat) (rate capacity window) (readings arrivals)) ∧
      (bucket.time :: readings arrivals).Pairwise (· ≤ ·) := by
  induction arrivals generalizing limiter bucket with
  | nil => exact ⟨rfl, holds, List.pairwise_singleton _ _⟩
  | cons arrival later ih =>
    obtain ⟨first, rest⟩ := in_order
    have forward : bucket.time ≤ arrival.now_ms := by
      cases data : limiter.keys key with
      | none => exact starts data arrival rfl
      | some hash =>
        rw [data] at holds
        rw [← holds.2]
        exact_mod_cast (first hash data).1
    have rising := rate_nonneg some_capacity some_window
    have room : (0 : Rat) ≤ capacity := by exact_mod_cast Int.le_trans (by decide) some_capacity
    obtain ⟨answered, left⟩ := tryAcquire_up key arrival enabled up some_capacity some_window
    obtain ⟨same, holds'⟩ := script_request (max 1 (window * 2)) some_capacity some_window holds sound
      first forward
    have kept : (tryAcquire config {} key capacity window arrival limiter).2.keys key =
        some (kTokenBucketScript capacity (window * 1000) arrival.now_ms (max 1 (window * 2))
          arrival.redis_ms (limiter.keys key)).2 := by
      rw [left]
      exact Function.update_self ..
    have up' : (tryAcquire config {} key capacity window arrival limiter).2.available = true := by
      rw [left]
      exact up
    have sound' : (bucket.request (capacity : Rat) (rate capacity window) arrival.now_ms).2.Sound
        (capacity : Rat) := Bucket.request_sound sound rising room forward
    rw [← kept] at holds'
    obtain ⟨answers, holds'', forward'⟩ := ih up' holds' sound'
      (fun absent => by rw [kept] at absent; cases absent) rest
    rw [Bucket.request_time] at forward'
    refine ⟨?_, holds'', List.pairwise_cons.mpr ⟨fun time member => ?_, forward'⟩⟩
    · rw [acquireAll_cons, answered, same, answers]
      rfl
    · rcases List.mem_cons.mp member with rfl | behind
      · exact forward
      · exact forward.trans ((List.pairwise_cons.mp forward').1 time behind)

theorem length_answers (bucket : Bucket Rat) (capacity rate : Rat) (times : List Rat) :
    (bucket.answers capacity rate times).length = times.length := by
  induction times generalizing bucket with
  | nil => rfl
  | cons now later ih => exact congrArg Nat.succ (ih _)

/-! ## Clocks that agree -/

/-- A call at a time that Redis has, too. -/
def Arrival.at (now_ms : Int) : Arrival := ⟨now_ms, now_ms⟩

/-- While all clocks agree, calls one after the other are in order: what is forgotten was
remembered for two windows.
-/
theorem allInOrder_agreeing {times : List Int} (enabled : config.enabled = true)
    (up : limiter.available = true) (some_capacity : 1 ≤ capacity) (some_window : 1 ≤ window)
    (forward : times.Pairwise (· ≤ ·))
    (remembered : ∀ hash, limiter.keys key = some hash →
      hash.expires_at = hash.refreshed_at + max 1 (window * 2) * 1000 ∧
      ∀ time ∈ times, hash.refreshed_at ≤ time) :
    AllInOrder config key capacity window (times.map Arrival.at) limiter := by
  induction times generalizing limiter with
  | nil => trivial
  | cons now later ih =>
    obtain ⟨first, rest⟩ := List.pairwise_cons.mp forward
    obtain ⟨_, left⟩ := tryAcquire_up key (Arrival.at now) enabled up some_capacity some_window
    refine ⟨fun hash found => ?_, ih (by rw [left]; exact up) rest fun hash found => ?_⟩
    · obtain ⟨expires, before⟩ := remembered hash found
      refine ⟨before now List.mem_cons_self, fun expired => ?_⟩
      have expired : hash.expires_at ≤ now := expired
      show hash.refreshed_at + window * 1000 ≤ now
      omega
    · rw [left] at found
      cases (Function.update_self ..).symm.trans found
      exact ⟨rfl, first⟩

/-- The bucket that starts full with the first call. -/
def ideal (capacity : Int) (times : List Int) : Bucket Rat :=
  ⟨capacity, ((times.headD 0 : Int) : Rat)⟩

theorem ideal_sound {times : List Int} (some_capacity : 1 ≤ capacity) :
    (ideal capacity times).Sound (capacity : Rat) where
  nonneg := by
    show (0 : Rat) ≤ capacity
    exact_mod_cast Int.le_trans (by decide) some_capacity
  le := le_refl _

/-- Calls at times that do not decrease: the script with its expiring key allows what a bucket
allows that is never forgotten; the tokens stay between nothing and the capacity; and in
no interval more is allowed than a full bucket and what is gained in the interval.
-/
theorem limiter_refines (config : RateLimitConfig) (key : String) (capacity window : Int)
    (times : List Int) (limiter : Limiter) (enabled : config.enabled = true)
    (up : limiter.available = true) (fresh : limiter.keys key = none) (some_capacity : 1 ≤ capacity)
    (some_window : 1 ≤ window) (forward : times.Pairwise (· ≤ ·)) :
    (acquireAll config key capacity window (times.map Arrival.at) limiter).1 =
        (ideal capacity times).answers (capacity : Rat) (rate capacity window) (times.map Int.cast) ∧
      (∀ hash, (acquireAll config key capacity window (times.map Arrival.at) limiter).2.keys key =
        some hash → 0 ≤ hash.tokens ∧ hash.tokens ≤ capacity) ∧
      ∀ first length : Rat, 0 ≤ length →
        (allowedIn first (first + length) (times.map Int.cast)
          (acquireAll config key capacity window (times.map Arrival.at) limiter).1 : Rat) ≤
          capacity + capacity * length / (window * 1000) := by
  have rising := rate_nonneg some_capacity some_window
  have room : (0 : Rat) ≤ capacity := by exact_mod_cast Int.le_trans (by decide) some_capacity
  have sound : (ideal capacity times).Sound (capacity : Rat) := ideal_sound some_capacity
  have read : readings (times.map Arrival.at) = times.map Int.cast := by
    simp [readings, Arrival.at]
  have holds : Holds capacity (limiter.keys key) (ideal capacity times) := by
    rw [fresh]
    rfl
  obtain ⟨answers, left, sorted⟩ := acquireAll_answers enabled up some_capacity some_window holds sound
    (fun _ arrival first => by
      cases times with
      | nil => cases first
      | cons now later => cases first; exact le_refl _)
    (allInOrder_agreeing enabled up some_capacity some_window forward fun hash found => by
      rw [fresh] at found
      cases found)
  rw [read] at answers left sorted
  refine ⟨answers, fun hash found => ?_, fun first length nonneg => ?_⟩
  · rw [found] at left
    have ended := Bucket.after_sound sound rising room sorted
    rw [left.1]
    exact ⟨ended.nonneg, ended.le⟩
  · rw [answers]
    have ordered : first ≤ first + length := le_add_of_nonneg_right nonneg
    have bound := Bucket.allowed_within sound rising room sorted ordered
    rw [add_sub_cancel_left, rate, div_mul_eq_mul_div] at bound
    exact bound

theorem limiter_refines_idle :
    ∃ hash, (acquireAll {} "a" 2 1 ([0, 0, 0, 5000].map Arrival.at) ⟨true, fun _ => none⟩).2.keys "a" =
        some hash ∧ hash.tokens = 1 ∧ 0 ≤ hash.tokens ∧ hash.tokens ≤ ((2 : Int) : Rat) := by
  have refines := limiter_refines {} "a" 2 1 [0, 0, 0, 5000] ⟨true, fun _ => none⟩ rfl rfl rfl (by decide)
    (by decide) (by decide)
  refine ⟨⟨1, 5000, 7000⟩, by decide +kernel, rfl, refines.2.1 _ (by decide +kernel)⟩

/-! ## Clocks that do not agree -/

/-- Calls that read any times of an interval, while Redis has its own: as long as they are in
order, no more are allowed than a full bucket and what is gained in the interval.
-/
theorem skewed_bounded (config : RateLimitConfig) (key : String) (capacity window : Int)
    (arrivals : List Arrival) (limiter : Limiter) (first length : Int)
    (enabled : config.enabled = true) (up : limiter.available = true)
    (fresh : limiter.keys key = none) (some_capacity : 1 ≤ capacity) (some_window : 1 ≤ window)
    (nonneg : 0 ≤ length)
    (inside : ∀ arrival ∈ arrivals, first ≤ arrival.now_ms ∧ arrival.now_ms ≤ first + length)
    (in_order : AllInOrder config key capacity window arrivals limiter) :
    ((acquireAll config key capacity window arrivals limiter).1.count true : Rat) ≤
      capacity + capacity * length / (window * 1000) := by
  have rising := rate_nonneg some_capacity some_window
  have room : (0 : Rat) ≤ capacity := by exact_mod_cast Int.le_trans (by decide) some_capacity
  have sound : (⟨capacity, first⟩ : Bucket Rat).Sound (capacity : Rat) := ⟨room, le_refl _⟩
  have holds : Holds capacity (limiter.keys key) ⟨capacity, first⟩ := by
    rw [fresh]
    rfl
  have starts : ∀ arrival ∈ arrivals.head?, (first : Rat) ≤ arrival.now_ms := by
    intro arrival found
    exact_mod_cast (inside arrival (List.mem_of_mem_head? found)).1
  obtain ⟨answers, _, sorted⟩ := acquireAll_answers enabled up some_capacity some_window holds sound
    (fun _ => starts) in_order
  have within : ∀ now ∈ readings arrivals, (first : Rat) ≤ now ∧ now ≤ first + length := by
    intro now member
    obtain ⟨arrival, found, rfl⟩ := List.mem_map.mp member
    obtain ⟨low, high⟩ := inside arrival found
    exact ⟨by exact_mod_cast low, by exact_mod_cast high⟩
  have ordered : (first : Rat) ≤ first + length := le_add_of_nonneg_right (by exact_mod_cast nonneg)
  have bound := Bucket.allowed_within sound rising room sorted ordered
  rw [allowedIn_all within (length_answers ..), ← answers, add_sub_cancel_left, rate,
    div_mul_eq_mul_div] at bound
  exact bound

/-- One call reads a later time than Redis has; the next call comes after it. -/
theorem skewed_bounded_ahead :
    ((acquireAll {} "a" 1 1 [⟨1000, 0⟩, ⟨1500, 500⟩] ⟨true, fun _ => none⟩).1.count true : Rat) ≤
      ((1 : Int) : Rat) + ((1 : Int) : Rat) * ((1500 : Int) : Rat) / (((1 : Int) : Rat) * 1000) := by
  refine skewed_bounded {} "a" 1 1 _ ⟨true, fun _ => none⟩ 0 1500 rfl rfl rfl (by decide) (by decide)
    (by decide) (by decide) ⟨(fun hash found => by cases found), fun hash found => ?_, trivial⟩
  cases found.symm.trans (by decide +kernel : _ = some (⟨0, 1000, 2000⟩ : Hash))
  decide

/-- Three calls read 1000 and two read 0, in turn. -/
def skewed : List Arrival := [⟨1000, 1000⟩, ⟨0, 1000⟩, ⟨1000, 1000⟩, ⟨0, 1000⟩, ⟨1000, 1000⟩]

/-- A call that reads an earlier time makes the bucket refill twice. -/
theorem skewed_refills : (∀ arrival ∈ skewed, 0 ≤ arrival.now_ms ∧ arrival.now_ms ≤ 0 + 1000) ∧
    ¬ ((acquireAll {} "a" 1 1 skewed ⟨true, fun _ => none⟩).1.count true : Rat) ≤
    ((1 : Int) : Rat) + ((1 : Int) : Rat) * ((1000 : Int) : Rat) / (((1 : Int) : Rat) * 1000) := by
  have three : (acquireAll {} "a" 1 1 skewed ⟨true, fun _ => none⟩).1.count true = 3 := by decide +kernel
  rw [three]
  exact ⟨by decide, by decide +kernel⟩

end Text2Image.rate_limit
