import Mathlib.Data.List.Nodup

/-! Tables whose rows carry distinct keys handed out in increasing order, with
guarded updates and deletes.
-/

set_option autoImplicit false

namespace Keyed

/-- Rows in key order; `next` is the key the next inserted row will get. -/
structure Table {ρ : Type} (key : ρ → Int) where
  rows : List ρ
  next : Int
  below : ∀ row ∈ rows, key row < next
  increasing : rows.Pairwise fun a b => key a < key b

namespace Table

variable {ρ : Type} {key : ρ → Int}

def empty : Table key := ⟨[], 1, by simp, .nil⟩

/-- Change the rows that meet the guard; keys stay. -/
def update (t : Table key) (guard : ρ → Bool) (change : ρ → ρ)
    (keeps : ∀ row, key (change row) = key row) : Table key where
  rows := t.rows.map fun row => if guard row then change row else row
  next := t.next
  below := by
    intro row member
    obtain ⟨old, present, rfl⟩ := List.mem_map.mp member
    have bound := t.below old present
    split
    · rwa [keeps]
    · exact bound
  increasing := by
    refine List.pairwise_map.mpr (t.increasing.imp ?_)
    intro a b less
    split <;> split <;> simpa only [keeps] using less

def insert (t : Table key) (make : Int → ρ) (keyed : key (make t.next) = t.next) : Table key where
  rows := t.rows ++ [make t.next]
  next := t.next + 1
  below := by
    intro row member
    rcases List.mem_append.mp member with old | new
    · exact Int.lt_add_one_of_le (Int.le_of_lt (t.below row old))
    · rw [List.mem_singleton.mp new, keyed]
      exact Int.lt_succ _
  increasing := by
    refine List.pairwise_append.mpr ⟨t.increasing, List.pairwise_singleton _ _, ?_⟩
    intro a old b new
    rw [List.mem_singleton.mp new, keyed]
    exact t.below a old

def delete (t : Table key) (guard : ρ → Bool) : Table key where
  rows := t.rows.filter fun row => ! guard row
  next := t.next
  below := fun row member => t.below row (List.mem_filter.mp member).1
  increasing := t.increasing.filter _

def select (t : Table key) (guard : ρ → Bool) : List ρ := t.rows.filter guard

def find (t : Table key) (id : Int) : Option ρ := t.rows.find? fun row => key row = id

variable {t : Table key}

theorem mem_update {guard : ρ → Bool} {change : ρ → ρ} {keeps : ∀ row, key (change row) = key row}
    {row : ρ} : row ∈ (t.update guard change keeps).rows ↔
      ∃ old ∈ t.rows, (if guard old then change old else old) = row := List.mem_map

theorem mem_insert {make : Int → ρ} {keyed : key (make t.next) = t.next} {row : ρ} :
    row ∈ (t.insert make keyed).rows ↔ row ∈ t.rows ∨ row = make t.next := by
  simp only [insert, List.mem_append, List.mem_singleton]

theorem mem_select {guard : ρ → Bool} {row : ρ} :
    row ∈ t.select guard ↔ row ∈ t.rows ∧ guard row = true := List.mem_filter

/-- Two rows with one key are one row. -/
theorem eq_of_key {a b : ρ} (left : a ∈ t.rows) (right : b ∈ t.rows) (same : key a = key b) :
    a = b := by
  have distinct : (t.rows.map key).Nodup :=
    List.pairwise_map.mpr (t.increasing.imp fun less => Int.ne_of_lt less)
  exact List.inj_on_of_nodup_map distinct left right same

theorem find_eq_some {id : Int} {row : ρ} : t.find id = some row ↔ row ∈ t.rows ∧ key row = id := by
  constructor
  · intro found
    exact ⟨List.mem_of_find?_eq_some found, by simpa using List.find?_some found⟩
  · rintro ⟨member, rfl⟩
    have exists' : (t.rows.find? fun other => decide (key other = key row)).isSome := by
      rw [List.find?_isSome]
      exact ⟨row, member, by simp⟩
    obtain ⟨other, found⟩ := Option.isSome_iff_exists.mp exists'
    have same := t.eq_of_key (List.mem_of_find?_eq_some found) member (by simpa using List.find?_some found)
    exact same ▸ found

/-- An update finds under each key what it makes of the row that was there. -/
theorem find_update {guard : ρ → Bool} {change : ρ → ρ} {keeps : ∀ row, key (change row) = key row} (id : Int) :
    (t.update guard change keeps).find id = (t.find id).map fun row => if guard row then change row else row := by
  have keyed : ∀ row, key (if guard row then change row else row) = key row := by
    intro row
    split
    · exact keeps row
    · rfl
  cases found : t.find id with
  | none =>
    refine Option.eq_none_iff_forall_ne_some.mpr fun row there => ?_
    obtain ⟨member, same⟩ := find_eq_some.mp there
    obtain ⟨old, present, rfl⟩ := mem_update.mp member
    rw [find_eq_some.mpr ⟨present, (keyed old).symm.trans same⟩] at found
    cases found
  | some row =>
    obtain ⟨member, rfl⟩ := find_eq_some.mp found
    exact find_eq_some.mpr ⟨mem_update.mpr ⟨row, member, rfl⟩, keyed row⟩

/-- Two predicates that differ in one row only, where the second holds and the
first does not, differ by one in what they count. -/
theorem countP_of_differ {first second : ρ → Bool} {row : ρ} (member : row ∈ t.rows)
    (lacks : first row = false) (has : second row = true)
    (same : ∀ other ∈ t.rows, key other ≠ key row → second other = first other) :
    t.rows.countP second = t.rows.countP first + 1 := by
  obtain ⟨before, after, split⟩ := List.append_of_mem member
  have increasing := t.increasing
  rw [split] at increasing
  obtain ⟨_, later, apart⟩ := List.pairwise_append.mp increasing
  have equal : ∀ other, other ∈ before ∨ other ∈ after → second other = first other := by
    intro other found
    refine same other ?_ ?_
    · rw [split]
      rcases found with old | new
      · exact List.mem_append_left _ old
      · exact List.mem_append_right _ (List.mem_cons_of_mem _ new)
    · rcases found with old | new
      · exact Int.ne_of_lt (apart other old row List.mem_cons_self)
      · exact Int.ne_of_gt ((List.pairwise_cons.mp later).1 other new)
  have left : before.countP second = before.countP first :=
    List.countP_congr fun other old => by rw [equal other (.inl old)]
  have right : after.countP second = after.countP first :=
    List.countP_congr fun other new => by rw [equal other (.inr new)]
  rw [split, List.countP_append, List.countP_append, List.countP_cons, List.countP_cons, left, right,
    lacks, has]
  simp only [Bool.false_eq_true, if_true, if_false]
  omega

theorem update_rows {guard : ρ → Bool} {change : ρ → ρ} {keeps : ∀ row, key (change row) = key row} :
    (t.update guard change keeps).rows =
      t.rows.filterMap fun row => some (if guard row then change row else row) :=
  (congrFun List.filterMap_eq_map t.rows).symm

theorem delete_rows {guard : ρ → Bool} :
    (t.delete guard).rows = t.rows.filterMap fun row => if guard row then none else some row := by
  have chosen : (fun row => if guard row then none else some row) = Option.guard (! guard ·) := by
    funext row
    cases met : guard row <;> simp [Option.guard, met]
  rw [chosen]
  exact (congrFun List.filterMap_eq_filter t.rows).symm

/-- An update that changes no row leaves the table as it is. -/
theorem update_eq_self_iff {guard : ρ → Bool} {change : ρ → ρ}
    {keeps : ∀ row, key (change row) = key row} :
    t.update guard change keeps = t ↔ ∀ row ∈ t.rows, guard row = true → change row = row := by
  have rows : (t.update guard change keeps).rows = t.rows ↔
      ∀ row ∈ t.rows, (if guard row then change row else row) = id row := by
    rw [← List.map_inj_left, List.map_id]
    rfl
  constructor
  · intro same row member met
    have fixed := rows.mp (congrArg Table.rows same) row member
    rwa [if_pos met] at fixed
  · intro fixed
    have same : (t.update guard change keeps).rows = t.rows := by
      refine rows.mpr fun row member => ?_
      split
      · exact fixed row member ‹_›
      · rfl
    cases t
    simp only [update] at same
    simp only [update, same]

end Table

end Keyed
