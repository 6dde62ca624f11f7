import Mathlib.Algebra.Order.Field.Basic
import Mathlib.Tactic.Linarith
import Mathlib.Tactic.Positivity

/-! A token bucket: its level rises at a rate up to a capacity, and each request that is
allowed takes one token. Times and tokens are of any ordered field.
-/

set_option autoImplicit false

namespace TokenBucket

/-- How many tokens there were, and when. -/
structure Bucket (K : Type) where
  level : K
  time : K

namespace Bucket

variable {K : Type} [Field K] [LinearOrder K] (capacity rate : K)

def levelAt (b : Bucket K) (now : K) : K := min capacity (b.level + rate * (now - b.time))

/-- Whether a request at this time is allowed, and what is left. -/
def request (b : Bucket K) (now : K) : Bool × Bucket K :=
  if 1 ≤ b.levelAt capacity rate now then (true, ⟨b.levelAt capacity rate now - 1, now⟩)
  else (false, ⟨b.levelAt capacity rate now, now⟩)

/-- The answers to requests at these times. -/
def answers : Bucket K → List K → List Bool
  | _, [] => []
  | b, now :: later =>
    (b.request capacity rate now).1 :: answers (b.request capacity rate now).2 later

def after : Bucket K → List K → Bucket K
  | b, [] => b
  | b, now :: later => after (b.request capacity rate now).2 later

end Bucket

section

variable {K : Type} [LinearOrder K]

/-- How many requests of an interval are allowed. -/
def allowedIn (first last : K) (times : List K) (answers : List Bool) : Nat :=
  (times.zip answers).countP fun request => request.2 && decide (first ≤ request.1 ∧ request.1 ≤ last)

theorem allowedIn_cons (first last now : K) (allowed : Bool) (times : List K) (answers : List Bool) :
    allowedIn first last (now :: times) (allowed :: answers) = allowedIn first last times answers +
      if allowed ∧ first ≤ now ∧ now ≤ last then 1 else 0 := by
  simp [allowedIn, List.countP_cons]

/-- Nothing is counted that lies outside. -/
theorem allowedIn_beyond {first last now : K} {later : List K} (answers : List Bool)
    (forward : (now :: later).Pairwise (· ≤ ·)) (beyond : last < now) :
    allowedIn first last (now :: later) answers = 0 := by
  refine List.countP_eq_zero.mpr fun request member counted => ?_
  simp only [Bool.and_eq_true, decide_eq_true_eq] at counted
  have reached : now ≤ request.1 := by
    rcases List.mem_cons.mp (List.of_mem_zip member).1 with same | behind
    · exact same.ge
    · exact (List.pairwise_cons.mp forward).1 _ behind
  exact absurd (lt_of_lt_of_le beyond reached) (not_lt.mpr counted.2.2)

/-- All is counted if all lies inside. -/
theorem allowedIn_all {first last : K} {times : List K} {answers : List Bool}
    (inside : ∀ now ∈ times, first ≤ now ∧ now ≤ last) (same : answers.length = times.length) :
    allowedIn first last times answers = answers.count true := by
  induction times generalizing answers with
  | nil =>
    rw [List.length_eq_zero_iff.mp same]
    rfl
  | cons now later ih =>
    cases answers with
    | nil => cases same
    | cons allowed rest =>
      obtain ⟨here, behind⟩ := List.forall_mem_cons.mp inside
      rw [allowedIn_cons, ih behind (Nat.succ.inj same), List.count_cons]
      cases allowed <;> simp [here]

end

namespace Bucket

variable {K : Type} [Field K] [LinearOrder K] {capacity rate : K} {b : Bucket K} {now : K}

/-- Between nothing and the capacity. -/
structure Sound (capacity : K) (b : Bucket K) : Prop where
  nonneg : 0 ≤ b.level
  le : b.level ≤ capacity

theorem request_time : (b.request capacity rate now).2.time = now := by
  unfold request
  split <;> rfl

/-- What is left and what was taken is what there was. -/
theorem request_level : (b.request capacity rate now).2.level =
    b.levelAt capacity rate now - if (b.request capacity rate now).1 then 1 else 0 := by
  unfold request
  split <;> simp

variable [IsStrictOrderedRing K]

theorem request_sound (sound : b.Sound capacity) (rising : 0 ≤ rate) (room : 0 ≤ capacity)
    (forward : b.time ≤ now) : (b.request capacity rate now).2.Sound capacity := by
  have gained : 0 ≤ rate * (now - b.time) := mul_nonneg rising (sub_nonneg.mpr forward)
  have low : 0 ≤ b.levelAt capacity rate now := le_min room (add_nonneg sound.nonneg gained)
  have high : b.levelAt capacity rate now ≤ capacity := min_le_left _ _
  unfold request
  split
  · rename_i enough
    exact ⟨sub_nonneg.mpr enough, by linarith⟩
  · exact ⟨low, high⟩

theorem after_sound {times : List K} (sound : b.Sound capacity) (rising : 0 ≤ rate)
    (room : 0 ≤ capacity) (forward : (b.time :: times).Pairwise (· ≤ ·)) :
    (b.after capacity rate times).Sound capacity := by
  induction times generalizing b with
  | nil => exact sound
  | cons now later ih =>
    obtain ⟨first, rest⟩ := List.pairwise_cons.mp forward
    refine ih (request_sound sound rising room (first now List.mem_cons_self)) ?_
    rw [request_time]
    exact rest

/-- A request that is counted takes a token. -/
theorem allowedIn_request (b : Bucket K) (capacity rate now first last : K) (later : List K) :
    (allowedIn first last (now :: later) (b.answers capacity rate (now :: later)) : K) +
        (b.request capacity rate now).2.level ≤
      allowedIn first last later ((b.request capacity rate now).2.answers capacity rate later) +
        b.levelAt capacity rate now := by
  have taken : ((if (b.request capacity rate now).1 = true ∧ first ≤ now ∧ now ≤ last then 1 else 0 :
      Nat) : K) ≤ if (b.request capacity rate now).1 then 1 else 0 := by
    split_ifs <;> simp_all
  rw [answers, allowedIn_cons, Nat.cast_add, request_level]
  linarith

/-- What is allowed up to some time was there, or has been gained. -/
theorem allowed_until {first last : K} {times : List K} (sound : b.Sound capacity)
    (rising : 0 ≤ rate) (room : 0 ≤ capacity) (forward : (b.time :: times).Pairwise (· ≤ ·))
    (reaches : b.time ≤ last) :
    (allowedIn first last times (b.answers capacity rate times) : K) ≤
      b.level + rate * (last - b.time) := by
  have gained : 0 ≤ rate * (last - b.time) := mul_nonneg rising (sub_nonneg.mpr reaches)
  induction times generalizing b with
  | nil => simpa [allowedIn] using add_nonneg sound.nonneg gained
  | cons now later ih =>
    obtain ⟨started, rest⟩ := List.pairwise_cons.mp forward
    by_cases beyond : last < now
    · rw [allowedIn_beyond _ rest beyond, Nat.cast_zero]
      exact add_nonneg sound.nonneg gained
    · -- The level left pays for the later requests; this one is paid by the token it takes.
      have later_reaches : (b.request capacity rate now).2.time ≤ last := by
        rw [request_time]
        exact not_lt.mp beyond
      have left := ih (request_sound sound rising room (started now List.mem_cons_self))
        (by rw [request_time]; exact rest) later_reaches
        (mul_nonneg rising (sub_nonneg.mpr later_reaches))
      have paid := allowedIn_request b capacity rate now first last later
      have before : b.levelAt capacity rate now ≤ b.level + rate * (now - b.time) := min_le_right _ _
      rw [request_time] at left
      linarith

/-- At most a full bucket and what is gained meanwhile is allowed within an interval. -/
theorem allowed_within {first last : K} {times : List K} (sound : b.Sound capacity)
    (rising : 0 ≤ rate) (room : 0 ≤ capacity) (forward : (b.time :: times).Pairwise (· ≤ ·))
    (ordered : first ≤ last) :
    (allowedIn first last times (b.answers capacity rate times) : K) ≤
      capacity + rate * (last - first) := by
  have gained : 0 ≤ rate * (last - first) := mul_nonneg rising (sub_nonneg.mpr ordered)
  induction times generalizing b with
  | nil => simpa [allowedIn] using add_nonneg room gained
  | cons now later ih =>
    obtain ⟨started, rest⟩ := List.pairwise_cons.mp forward
    have sound' : (b.request capacity rate now).2.Sound capacity :=
      request_sound sound rising room (started now List.mem_cons_self)
    have rest' : ((b.request capacity rate now).2.time :: later).Pairwise (· ≤ ·) := by
      rw [request_time]
      exact rest
    by_cases early : now < first
    · have uncounted : ¬((b.request capacity rate now).1 = true ∧ first ≤ now ∧ now ≤ last) :=
        fun counted => absurd counted.2.1 (not_le.mpr early)
      rw [answers, allowedIn_cons, if_neg uncounted, Nat.add_zero]
      exact ih sound' rest'
    · by_cases beyond : last < now
      · rw [allowedIn_beyond _ rest beyond, Nat.cast_zero]
        exact add_nonneg room gained
      · have reaches : (b.request capacity rate now).2.time ≤ last := by
          rw [request_time]
          exact not_lt.mp beyond
        have left : (allowedIn first last later _ : K) ≤ _ :=
          allowed_until sound' rising room rest' reaches
        have paid := allowedIn_request b capacity rate now first last later
        have high : b.levelAt capacity rate now ≤ capacity := min_le_left _ _
        have shorter : rate * (last - now) ≤ rate * (last - first) :=
          mul_le_mul_of_nonneg_left (by linarith) rising
        rw [request_time] at left
        linarith

end Bucket

end TokenBucket
