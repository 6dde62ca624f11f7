import Text2Image.Concurrency.Execution

/-! Weakest preconditions of programs: what every execution comes to whose operations go
as permitted, whatever happens between them. A program ends, so what is ensured is
reached.
-/

set_option autoImplicit false

namespace Concurrency

variable {I : Interface} {W C α β : Type} {σ : Setting I W C} {fair : I.Op → C → Prop}

namespace Prog

/-- Every execution within the permission ends as the postcondition says. -/
def Ensures (σ : Setting I W C) (fair : I.Op → C → Prop) : Prog I α → (α → W → Prop) → W → Prop
  | .done value, post, world => post value world
  | .call op next, post, world => ∀ choice met, σ.drift world met → fair op choice →
      (next (σ.perform op choice met).1).Ensures σ fair post (σ.perform op choice met).2

variable {program : Prog I α} {post wider : α → W → Prop} {world after : W}

theorem Ensures.mono (ensures : program.Ensures σ fair post world)
    (wide : ∀ value after, post value after → wider value after) :
    program.Ensures σ fair wider world := by
  induction program generalizing world with
  | done value => exact wide value world ensures
  | call op next ih => exact fun choice met drifts within => ih _ (ensures choice met drifts within)

/-- The precondition of a sequence is that of its first part for that of the rest. -/
theorem ensures_bind {rest : α → Prog I β} {post : β → W → Prop} :
    (program >>= rest).Ensures σ fair post world ↔
      program.Ensures σ fair (fun value middle => (rest value).Ensures σ fair post middle) world := by
  induction program generalizing world with
  | done value => exact Iff.rfl
  | call op next ih =>
    refine forall_congr' fun choice => forall_congr' fun met => ?_
    exact imp_congr_right fun _ => imp_congr_right fun _ => ih _

theorem Ensures.bind {rest : α → Prog I β} {post : β → W → Prop} {between : α → W → Prop}
    (first : program.Ensures σ fair between world)
    (second : ∀ value middle, between value middle → (rest value).Ensures σ fair post middle) :
    (program >>= rest).Ensures σ fair post world :=
  ensures_bind.mpr (first.mono second)

theorem Ensures.and {other : α → W → Prop} (left : program.Ensures σ fair post world)
    (right : program.Ensures σ fair other world) :
    program.Ensures σ fair (fun value after => post value after ∧ other value after) world := by
  induction program generalizing world with
  | done value => exact ⟨left, right⟩
  | call op next ih =>
    exact fun choice met drifts within => ih _ (left choice met drifts within) (right choice met drifts within)

/-- What neither the drift nor a permitted operation of this kind ends lasts. -/
theorem Only.ensures {kind : I.Op → Prop} {inv : W → Prop} (only : program.Only kind)
    (drifts : ∀ world met, σ.drift world met → inv world → inv met)
    (performs : ∀ op choice met, kind op → fair op choice → inv met → inv (σ.perform op choice met).2)
    (start : inv world) : program.Ensures σ fair (fun _ after => inv after) world := by
  induction program generalizing world with
  | done value => exact start
  | call op next ih =>
    intro choice met drift within
    exact ih _ (only.2 _) (performs op choice met only.1 within (drifts world met drift start))

/-- What a program yields by its protocol it yields in every execution. -/
theorem Follows.ensures {P : Protocol I} {past : List (Taken I)} {known : List (Taken I) → α → Prop}
    (follows : program.Follows P known past) (world : W) :
    program.Ensures σ fair (fun value _ => ∃ later, past ⊆ later ∧ known later value) world := by
  induction follows generalizing world with
  | done holds => exact ⟨_, List.Subset.refl _, holds⟩
  | call allowed rest ih =>
    intro choice met _ _
    refine (ih _ _).mono ?_
    rintro value after ⟨later, grown, holds⟩
    exact ⟨later, List.Subset.trans (List.subset_cons_self _ _) grown, holds⟩

/-- Preconditions speak of exactly the executions within the permission. -/
theorem ensures_iff : program.Ensures σ fair post world ↔ ∀ trace value after,
    Executes σ program world trace value after → (∀ moment ∈ trace, fair moment.1 moment.2.1) →
      post value after := by
  induction program generalizing world with
  | done value =>
    constructor
    · intro holds trace result after ran _
      obtain ⟨rfl, rfl, rfl⟩ := ran.of_done
      exact holds
    · intro all
      exact all [] value world .done (by simp)
  | call op next ih =>
    constructor
    · intro ensures trace value after ran within
      obtain ⟨choice, met, rest, drifts, rfl, goesOn⟩ := ran.of_call
      obtain ⟨first, later⟩ := List.forall_mem_cons.mp within
      exact (ih _).mp (ensures choice met drifts first) rest value after goesOn later
    · intro all choice met drifts within
      refine (ih _).mpr fun trace value after ran later => ?_
      exact all _ value after (.call drifts ran) (List.forall_mem_cons.mpr ⟨within, later⟩)

/-! ## Programs run again and again -/

/-- The program is executed this often, one execution after another. -/
inductive Rounds (σ : Setting I W C) (fair : I.Op → C → Prop) (program : Prog I α) : Nat → W → W → Prop where
  | zero (world : W) : Rounds σ fair program 0 world world
  | succ {n : Nat} {world middle after : W} {trace : List (I.Op × C × W)} {value : α}
      (ran : Executes σ program world trace value middle)
      (within : ∀ moment ∈ trace, fair moment.1 moment.2.1)
      (rest : Rounds σ fair program n middle after) : Rounds σ fair program (n + 1) world after

/-- The rule for loops: an invariant each round keeps, and a rank each round lowers unless it
is zero.
-/
theorem Rounds.lowers {inv : W → Prop} {rank : W → Nat} {n : Nat}
    (rounds : Rounds σ fair program n world after)
    (round : ∀ world, inv world →
      program.Ensures σ fair (fun _ after => inv after ∧ rank after ≤ rank world - 1) world)
    (start : inv world) : inv after ∧ rank after ≤ rank world - n := by
  induction rounds with
  | zero world => exact ⟨start, by omega⟩
  | succ ran within _ ih =>
    obtain ⟨kept, lower⟩ := ensures_iff.mp (round _ start) _ _ _ ran within
    obtain ⟨last, low⟩ := ih kept
    exact ⟨last, by omega⟩

end Prog

end Concurrency
