import Text2Image.Concurrency.Execution

/-! Carrying out one interface by programs of another. Where each operation's program
does what some choice of that operation would have done, so does every program.
-/

set_option autoImplicit false

namespace Concurrency.Prog

variable {I J : Interface} {α β : Type}

/-- The program with each of its operations replaced by what carries it out. -/
def via (carry : (op : I.Op) → Prog J (I.Answer op)) : Prog I α → Prog J α
  | .done value => .done value
  | .call op next => carry op >>= fun answer => (next answer).via carry

variable {carry : (op : I.Op) → Prog J (I.Answer op)}

theorem bind_bind {γ : Type} (program : Prog I α) (next : α → Prog I β) (last : β → Prog I γ) :
    (program >>= next) >>= last = program >>= fun value => next value >>= last := by
  induction program with
  | done value => rfl
  | call op rest ih =>
    simp only [call_bind]
    congr 1
    funext answer
    exact ih answer

theorem via_bind (program : Prog I β) (rest : β → Prog I α) :
    (program >>= rest).via carry = program.via carry >>= fun value => (rest value).via carry := by
  induction program with
  | done value => rfl
  | call op next ih =>
    simp only [call_bind, via, bind_bind]
    congr 1
    funext answer
    exact ih answer

theorem via_perform (op : I.Op) : (Prog.perform op).via carry = carry op := by
  have finished : ∀ program : Prog J (I.Answer op), (program >>= fun answer => .done answer) = program := by
    intro program
    induction program with
    | done value => rfl
    | call lower next ih =>
      simp only [call_bind]
      congr 1
      funext answer
      exact ih answer
  exact finished (carry op)

/-- What carries out the operations of one kind performs those of another only. -/
theorem Only.via {kind : I.Op → Prop} {lower : J.Op → Prop} {program : Prog I α}
    (only : program.Only kind) (carries : ∀ op, kind op → (carry op).Only lower) :
    (program.via carry).Only lower := by
  induction program with
  | done value => trivial
  | call op next ih => exact (carries op only.1).bind fun answer => ih answer (only.2 answer)

variable {W C W' C' : Type}

theorem Executes.of_via_perform {τ : Setting J W' C'} (op : I.Op) {lower lower' : W'}
    {trace : List (J.Op × C' × W')} {answer : I.Answer op}
    (ran : Executes τ ((Prog.perform op).via carry) lower trace answer lower') :
    Executes τ (carry op) lower trace answer lower' := by
  rwa [via_perform] at ran

/-- Each operation is carried out as one of its choices would have it, and related
worlds stay related. -/
def Carries (τ : Setting J W' C') (σ : Setting I W C) (related : W' → W → Prop)
    (carry : (op : I.Op) → Prog J (I.Answer op)) : Prop :=
  ∀ op lower upper trace answer lower', related lower upper →
    Executes τ (carry op) lower trace answer lower' →
    ∃ choice met, σ.drift upper met ∧ answer = (σ.perform op choice met).1 ∧
      related lower' (σ.perform op choice met).2

/-- An execution below is one above: same program, same value. -/
theorem Executes.of_via {τ : Setting J W' C'} {σ : Setting I W C} {related : W' → W → Prop}
    (carries : Carries τ σ related carry) {program : Prog I α} {lower lower' : W'} {upper : W}
    {trace : List (J.Op × C' × W')} {value : α} (start : related lower upper)
    (ran : Executes τ (program.via carry) lower trace value lower') :
    ∃ trace' upper', Executes σ program upper trace' value upper' ∧ related lower' upper' := by
  induction program generalizing lower upper trace with
  | done result =>
    obtain ⟨rfl, rfl, rfl⟩ := ran.of_done
    exact ⟨[], upper, .done, start⟩
  | call op next ih =>
    obtain ⟨first, second, middle, answer, rfl, carried, rest⟩ := ran.of_bind
    obtain ⟨choice, met, drifts, rfl, between⟩ := carries op lower upper first answer middle start carried
    obtain ⟨trace', upper', ran', last⟩ := ih _ between rest
    exact ⟨(op, choice, met) :: trace', upper', .call drifts ran', last⟩

end Concurrency.Prog
