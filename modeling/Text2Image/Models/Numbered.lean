import Mathlib.Data.List.Basic

/-! Texts that name a number: a tag, the number in decimal, a separator, the rest.
The number can be read back.
-/

set_option autoImplicit false

namespace Numbered

theorem digits_injective {m n : Nat} (same : Nat.toDigits 10 m = Nat.toDigits 10 n) : m = n := by
  have read := congrArg (fun digits => Nat.ofDigitChars 10 digits 0) same
  simpa using read

/-- The characters of a number are digits, after a sign where it is negative. -/
theorem mem_number {n : Int} {c : Char} (member : c ∈ (toString n).toList) :
    c.isDigit = true ∨ c = '-' := by
  rw [Int.toString_eq_repr, Int.repr_eq_if] at member
  split at member
  · rw [Nat.toList_repr] at member
    exact .inl (Nat.isDigit_of_mem_toDigits (by decide) (by decide) member)
  · simp only [String.toList_append, Nat.toList_repr, List.mem_append] at member
    rcases member with sign | digit
    · exact .inr (by simpa using sign)
    · exact .inl (Nat.isDigit_of_mem_toDigits (by decide) (by decide) digit)

/-- No digit is a sign, so numbers of different signs differ. -/
theorem sign_notMem (n : Nat) : '-' ∉ Nat.toDigits 10 n := by
  intro member
  have digit := Nat.isDigit_of_mem_toDigits (by decide) (by decide) member
  cases digit

theorem number_injective {m n : Int} (same : (toString m).toList = (toString n).toList) : m = n := by
  simp only [Int.toString_eq_repr, Int.repr_eq_if] at same
  by_cases left : 0 ≤ m <;> by_cases right : 0 ≤ n
  · simp only [left, right, if_true, Nat.toList_repr] at same
    have equal := digits_injective same
    omega
  · simp only [left, right, if_true, if_false, String.toList_append, Nat.toList_repr] at same
    exact (sign_notMem _ (by rw [same]; simp)).elim
  · simp only [left, right, if_true, if_false, String.toList_append, Nat.toList_repr] at same
    exact (sign_notMem _ (by rw [← same]; simp)).elim
  · simp only [left, right, if_false, String.toList_append, Nat.toList_repr] at same
    have equal := digits_injective (List.append_cancel_left same)
    omega

/-- What stands before the first separator is determined by the whole. -/
theorem before_separator {α : Type} {separator : α} {first second left right : List α}
    (free : separator ∉ first) (free' : separator ∉ second)
    (same : first ++ separator :: left = second ++ separator :: right) : first = second := by
  induction first generalizing second with
  | nil =>
    cases second with
    | nil => rfl
    | cons head tail =>
      have head' : separator = head := (List.cons.inj same).1
      exact (free' (head' ▸ List.mem_cons_self)).elim
  | cons head tail ih =>
    cases second with
    | nil =>
      have head' : head = separator := (List.cons.inj same).1
      exact (free (head' ▸ List.mem_cons_self)).elim
    | cons other rest =>
      obtain ⟨rfl, after⟩ := List.cons.inj same
      have tails := ih (fun member => free (List.mem_cons_of_mem _ member))
        (fun member => free' (List.mem_cons_of_mem _ member)) after
      rw [tails]

/-- A tag, a number, a separator: the number is determined by the whole. -/
theorem number_of_tagged {tag : List Char} {m n : Int} {separator : Char} {left right : List Char}
    (apart : separator.isDigit = false) (unsigned : separator ≠ '-')
    (same : tag ++ ((toString m).toList ++ separator :: left) =
      tag ++ ((toString n).toList ++ separator :: right)) : m = n := by
  have free : ∀ k : Int, separator ∉ (toString k).toList := by
    intro k member
    rcases mem_number member with digit | sign
    · rw [apart] at digit
      cases digit
    · exact unsigned sign
  exact number_injective (before_separator (free m) (free n) (List.append_cancel_left same))

/-- And so is the rest. -/
theorem tagged_injective {tag : List Char} {m n : Int} {separator : Char} {left right : List Char}
    (apart : separator.isDigit = false) (unsigned : separator ≠ '-')
    (same : tag ++ ((toString m).toList ++ separator :: left) =
      tag ++ ((toString n).toList ++ separator :: right)) : m = n ∧ left = right := by
  have number := number_of_tagged apart unsigned same
  subst number
  exact ⟨rfl, (List.cons.inj (List.append_cancel_left (List.append_cancel_left same))).2⟩

/-- Of two texts that begin one text, the shorter begins the longer. -/
theorem tags_agree {α : Type} {first second left right : List α} (same : first ++ left = second ++ right)
    (shorter : first.length ≤ second.length) : first <+: second :=
  List.prefix_of_prefix_length_le (List.prefix_append first left)
    (same ▸ List.prefix_append second right) shorter

end Numbered
