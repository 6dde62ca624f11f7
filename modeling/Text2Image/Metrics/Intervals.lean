import Mathlib.Algebra.Order.Ring.Nat
import Mathlib.Data.List.Sort
import Mathlib.Order.Defs.LinearOrder

/-! Values counted in the intervals between some bounds, one cell an interval. A running
sum of the cells counts the values up to each bound.
-/

set_option autoImplicit false

namespace Intervals

variable {α : Type} [LinearOrder α]

/-- The first position whose bound is not below the value; their number if all are. -/
def lowerBound (bounds : List α) (value : α) : Nat :=
  bounds.findIdx fun bound => decide (¬ bound < value)

/-- One more in a cell; there is none past the end. -/
def count (cells : List Nat) (index : Nat) : List Nat := cells.modify index (· + 1)

/-- The cells after some values, newest first. -/
def cellsOf (bounds : List α) : List α → List Nat
  | [] => List.replicate bounds.length 0
  | value :: older => count (cellsOf bounds older) (lowerBound bounds value)

/-- The running sums of the cells, on top of a total. -/
def running : Nat → List Nat → List Nat
  | _, [] => []
  | total, cell :: cells => (total + cell) :: running (total + cell) cells

theorem lowerBound_le_iff {bounds : List α} (sorted : bounds.Pairwise (· < ·)) {value : α} {i : Nat}
    (within : i < bounds.length) : lowerBound bounds value ≤ i ↔ value ≤ bounds[i] := by
  unfold lowerBound
  induction bounds generalizing i with
  | nil => cases within
  | cons bound bounds ih =>
    obtain ⟨below, rest⟩ := List.pairwise_cons.mp sorted
    rw [List.findIdx_cons]
    by_cases low : bound < value
    · cases i with
      | zero => simp [low]
      | succ i =>
        have within' : i < bounds.length := by simpa using within
        have deeper := ih rest within'
        simp only [low, not_true_eq_false, decide_false, cond_false, Nat.add_le_add_iff_right, List.getElem_cons_succ]
        exact deeper
    · have high : value ≤ bound := not_lt.mp low
      have reached : value ≤ (bound :: bounds)[i] := by
        cases i with
        | zero => exact high
        | succ i =>
          have later := below _ (List.getElem_mem (by simpa using within : i < bounds.length))
          exact le_trans high (le_of_lt later)
      simp [low, reached]

theorem length_count (cells : List Nat) (index : Nat) : (count cells index).length = cells.length :=
  List.length_modify ..

theorem length_cellsOf (bounds values : List α) : (cellsOf bounds values).length = bounds.length := by
  induction values with
  | nil => exact List.length_replicate
  | cons value older ih => rw [cellsOf, length_count, ih]

theorem length_running (total : Nat) (cells : List Nat) : (running total cells).length = cells.length := by
  induction cells generalizing total with
  | nil => rfl
  | cons cell cells ih => simp [running, ih]

theorem getElem_running (total : Nat) (cells : List Nat) {i : Nat} (within : i < (running total cells).length) :
    (running total cells)[i] = total + (cells.take (i + 1)).sum := by
  induction cells generalizing total i with
  | nil => simp [running] at within
  | cons cell cells ih =>
    cases i with
    | zero => simp [running]
    | succ i =>
      have within' : i < (running (total + cell) cells).length := by simpa [running] using within
      simp only [running, List.getElem_cons_succ, ih _ within', List.take_succ_cons, List.sum_cons]
      omega

/-- A cell that counts one more is in the sums from its own on. -/
theorem sum_take_count {cells : List Nat} {index i : Nat} (within : i < cells.length) :
    ((count cells index).take (i + 1)).sum = (cells.take (i + 1)).sum + if index ≤ i then 1 else 0 := by
  induction cells generalizing index i with
  | nil => cases within
  | cons cell cells ih =>
    cases index with
    | zero =>
      simp only [count, List.modify_zero_cons, List.take_succ_cons, List.sum_cons, Nat.zero_le, if_true]
      omega
    | succ index =>
      have deeper : count (cell :: cells) (index + 1) = cell :: count cells index := rfl
      cases i with
      | zero => simp [deeper]
      | succ i =>
        have within' : i < cells.length := by simpa using within
        simp only [deeper, List.take_succ_cons (i := i + 1), List.sum_cons, ih within', Nat.add_le_add_iff_right]
        omega

/-- The running sum at a bound counts the values up to it. -/
theorem running_cellsOf {bounds : List α} (sorted : bounds.Pairwise (· < ·)) (values : List α) :
    running 0 (cellsOf bounds values) = bounds.map fun bound => values.countP (· ≤ bound) := by
  apply List.ext_getElem
  · rw [length_running, length_cellsOf, List.length_map]
  · intro i left right
    have within : i < bounds.length := by simpa using right
    rw [getElem_running, List.getElem_map, Nat.zero_add]
    induction values with
    | nil => simp [cellsOf]
    | cons value older ih =>
      have before : i < (running 0 (cellsOf bounds older)).length := by rwa [length_running, length_cellsOf]
      have inside : i < (cellsOf bounds older).length := by rwa [length_cellsOf]
      rw [cellsOf, sum_take_count inside, ih before (by simpa using within), List.countP_cons]
      simp [lowerBound_le_iff sorted within]

end Intervals
