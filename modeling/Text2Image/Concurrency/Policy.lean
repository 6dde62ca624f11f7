import Text2Image.Concurrency.Program

/-! A program run by itself, with a choice for each operation it may ask for: what it
yields is then a function of the world it starts in.
-/

set_option autoImplicit false

namespace Concurrency

/-- How operations are performed, and the choice that settles each of them. -/
structure Policy (I : Interface) (W C : Type) where
  perform : (op : I.Op) → C → W → I.Answer op × W
  choose : I.Op → C

namespace Policy

variable {I : Interface} {W C : Type} (policy : Policy I W C)

def answer (op : I.Op) (world : W) : I.Answer op := (policy.perform op (policy.choose op) world).1

def after (op : I.Op) (world : W) : W := (policy.perform op (policy.choose op) world).2

end Policy

namespace Prog

variable {I : Interface} {W C α β : Type} {policy : Policy I W C}

def obeying (policy : Policy I W C) : Prog I α → W → α × W
  | .done value, world => (value, world)
  | .call op next, world => (next (policy.answer op world)).obeying policy (policy.after op world)

@[simp] theorem obeying_done (value : α) (world : W) :
    (Prog.done value : Prog I α).obeying policy world = (value, world) := rfl

@[simp] theorem obeying_call (op : I.Op) (next : I.Answer op → Prog I α) (world : W) :
    (Prog.call op next).obeying policy world =
      (next (policy.answer op world)).obeying policy (policy.after op world) := rfl

/-- Sequencing is that of functions on the world. -/
theorem obeying_bind (program : Prog I β) (rest : β → Prog I α) (world : W) :
    (program >>= rest).obeying policy world =
      (rest (program.obeying policy world).1).obeying policy (program.obeying policy world).2 := by
  induction program generalizing world with
  | done value => rfl
  | call op next ih => exact ih _ _

/-- What is known of the first part goes into the second. -/
theorem obeying_bind_of {program : Prog I β} {world middle : W} {value : β}
    (ran : program.obeying policy world = (value, middle)) (rest : β → Prog I α) :
    (program >>= rest).obeying policy world = (rest value).obeying policy middle := by
  rw [obeying_bind, ran]

end Prog

end Concurrency
