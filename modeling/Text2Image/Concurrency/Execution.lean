import Text2Image.Concurrency.Program

/-! Executions of one program, as a big-step relation: the operations it performs, in
order, the value it yields and the world it leaves. Between two operations the
world may change as the setting permits.
-/

set_option autoImplicit false

namespace Concurrency

/-- How operations are performed, and what may happen to the world between them. -/
structure Setting (I : Interface) (W C : Type) where
  perform : (op : I.Op) → C → W → I.Answer op × W
  drift : W → W → Prop

namespace Prog

variable {I : Interface} {W C α β : Type} {σ : Setting I W C}

/-- The trace holds every operation with its choice and the world it met. -/
inductive Executes (σ : Setting I W C) {α : Type} :
    Prog I α → W → List (I.Op × C × W) → α → W → Prop where
  | done {value : α} {world : W} : Executes σ (.done value) world [] value world
  | call {op : I.Op} {next : I.Answer op → Prog I α} {choice : C} {world met after : W}
      {trace : List (I.Op × C × W)} {value : α} (drifts : σ.drift world met)
      (rest : Executes σ (next (σ.perform op choice met).1) (σ.perform op choice met).2 trace value
        after) :
      Executes σ (.call op next) world ((op, choice, met) :: trace) value after

variable {world after : W} {trace : List (I.Op × C × W)}

theorem Executes.of_done {value result : α}
    (ran : Executes σ (.done value) world trace result after) :
    trace = [] ∧ result = value ∧ after = world := by
  cases ran
  exact ⟨rfl, rfl, rfl⟩

theorem Executes.of_call {op : I.Op} {next : I.Answer op → Prog I α} {value : α}
    (ran : Executes σ (.call op next) world trace value after) :
    ∃ choice met rest, σ.drift world met ∧ trace = (op, choice, met) :: rest ∧
      Executes σ (next (σ.perform op choice met).1) (σ.perform op choice met).2 rest value after := by
  cases ran with
  | @call _ _ choice _ met _ rest _ drifts ran => exact ⟨choice, met, rest, drifts, rfl, ran⟩

/-- A single operation. -/
theorem Executes.of_perform {op : I.Op} {answer : I.Answer op}
    (ran : Executes σ (Prog.perform op) world trace answer after) :
    ∃ choice met, σ.drift world met ∧ trace = [(op, choice, met)] ∧
      answer = (σ.perform op choice met).1 ∧ after = (σ.perform op choice met).2 := by
  obtain ⟨choice, met, rest, drifts, rfl, answered⟩ := ran.of_call
  obtain ⟨rfl, rfl, rfl⟩ := answered.of_done
  exact ⟨choice, met, drifts, rfl, rfl, rfl⟩

/-- An execution of a sequence is one of its first part, then one of what follows. -/
theorem Executes.of_bind {program : Prog I β} {rest : β → Prog I α} {value : α}
    (ran : Executes σ (program >>= rest) world trace value after) :
    ∃ first second middle result, trace = first ++ second ∧
      Executes σ program world first result middle ∧
      Executes σ (rest result) middle second value after := by
  induction program generalizing world trace with
  | done result => exact ⟨[], trace, world, result, rfl, .done, ran⟩
  | call op next ih =>
    obtain ⟨choice, met, later, drifts, rfl, goesOn⟩ := ran.of_call
    obtain ⟨first, second, middle, result, rfl, left, right⟩ := ih _ goesOn
    exact ⟨(op, choice, met) :: first, second, middle, result, rfl, .call drifts left, right⟩

theorem Executes.bind {program : Prog I β} {rest : β → Prog I α} {first second : List (I.Op × C × W)}
    {middle : W} {result : β} {value : α} (left : Executes σ program world first result middle)
    (right : Executes σ (rest result) middle second value after) :
    Executes σ (program >>= rest) world (first ++ second) value after := by
  induction left with
  | done => exact right
  | call drifts _ ih => exact .call drifts (ih right)

/-- What neither the drift nor any operation of this kind changes stays as it was. -/
theorem Executes.keeps {γ : Type} {part : W → γ} {kind : I.Op → Prop} {program : Prog I α} {value : α}
    (ran : Executes σ program world trace value after) (only : program.Only kind)
    (drifts : ∀ world met, σ.drift world met → part met = part world)
    (performs : ∀ op choice met, kind op → part (σ.perform op choice met).2 = part met) :
    part after = part world := by
  induction ran with
  | done => rfl
  | @call op _ choice world met _ _ _ drift _ ih =>
    rw [ih (only.2 _), performs op choice met only.1, drifts world met drift]

/-- All operations in the trace are of the program's kind. -/
theorem Executes.only {kind : I.Op → Prop} {program : Prog I α} {value : α}
    (ran : Executes σ program world trace value after) (only : program.Only kind) :
    ∀ moment ∈ trace, kind moment.1 := by
  induction ran with
  | done => simp
  | call _ _ ih =>
    intro moment member
    rcases List.mem_cons.mp member with rfl | later
    · exact only.1
    · exact ih (only.2 _) moment later

/-- What relates the worlds before and after each step relates them across the execution, and
around each of its moments. -/
theorem Executes.related {R : W → W → Prop} {kind : I.Op → Prop} {program : Prog I α} {value : α}
    (ran : Executes σ program world trace value after) (only : ∀ moment ∈ trace, kind moment.1)
    (stays : ∀ world, R world world) (chains : ∀ {first second third}, R first second →
      R second third → R first third)
    (drifts : ∀ world met, σ.drift world met → R world met)
    (performs : ∀ op choice met, kind op → R met (σ.perform op choice met).2) :
    R world after ∧ ∀ op choice met, (op, choice, met) ∈ trace →
      R world met ∧ R (σ.perform op choice met).2 after := by
  induction ran with
  | done => exact ⟨stays _, fun _ _ _ member => by cases member⟩
  | @call op next choice world met after trace value drift ran ih =>
    obtain ⟨first, rest⟩ := List.forall_mem_cons.mp only
    obtain ⟨whole, around⟩ := ih rest
    have step : R world (σ.perform op choice met).2 := chains (drifts _ _ drift) (performs op choice met first)
    refine ⟨chains step whole, fun op' choice' met' member => ?_⟩
    rcases List.mem_cons.mp member with same | later
    · cases same
      exact ⟨drifts _ _ drift, whole⟩
    · obtain ⟨before, behind⟩ := around op' choice' met' later
      exact ⟨chains step before, behind⟩

/-- A program that is left alone comes to its end, whatever it chooses. -/
theorem exists_executes (idle : ∀ world, σ.drift world world) (choice : C) (program : Prog I α) (world : W) :
    ∃ trace value after, Executes σ program world trace value after ∧
      ∀ moment ∈ trace, moment.2.1 = choice := by
  induction program generalizing world with
  | done value => exact ⟨[], value, world, .done, fun _ member => by cases member⟩
  | call op next ih =>
    obtain ⟨trace, value, after, ran, all⟩ := ih (σ.perform op choice world).1 (σ.perform op choice world).2
    refine ⟨(op, choice, world) :: trace, value, after, .call (idle world) ran, ?_⟩
    exact List.forall_mem_cons.mpr ⟨rfl, all⟩

/-- A run among others is an execution, where the setting permits what they do. -/
theorem executes_of_runAmong {program : Prog I α} {steps : List ((W → W) × C)} {value : α}
    (others : ∀ step ∈ steps, ∀ world, σ.drift world (step.1 world))
    (ran : program.runAmong σ.perform steps world = some (value, after)) :
    Executes σ program world (program.performed σ.perform steps world) value after := by
  induction program generalizing steps world with
  | done result =>
    simp only [runAmong, Option.some.injEq, Prod.mk.injEq] at ran
    obtain ⟨rfl, rfl⟩ := ran
    exact .done
  | call op next ih =>
    cases steps with
    | nil => cases ran
    | cons step later =>
      refine .call (others step List.mem_cons_self world) ?_
      exact ih _ (fun other member => others other (List.mem_cons_of_mem _ member)) ran

/-- The choices of a run are those of its steps. -/
theorem choice_of_performed {perform : (op : I.Op) → C → W → I.Answer op × W} {program : Prog I α}
    {steps : List ((W → W) × C)} {moment : I.Op × C × W}
    (member : moment ∈ program.performed perform steps world) : moment.2.1 ∈ steps.map Prod.snd := by
  induction program generalizing steps world with
  | done value => cases member
  | call op next ih =>
    cases steps with
    | nil => cases member
    | cons step later =>
      rcases List.mem_cons.mp member with rfl | rest
      · exact List.mem_cons_self
      · exact List.mem_cons_of_mem _ (ih _ rest)

/-- What can be observed of an execution is found by running it. -/
theorem executes_of_observed {β : Type} {program : Prog I α} {steps : List ((W → W) × C)}
    {observe : α → W → β} {value : β}
    (others : ∀ step ∈ steps, ∀ world, σ.drift world (step.1 world))
    (ran : (program.runAmong σ.perform steps world).map (fun result => observe result.1 result.2) =
      some value) :
    ∃ reply after, Executes σ program world (program.performed σ.perform steps world) reply after ∧
      observe reply after = value := by
  obtain ⟨⟨reply, after⟩, ran, observed⟩ := Option.map_eq_some_iff.mp ran
  exact ⟨reply, after, executes_of_runAmong others ran, observed⟩

/-- Run a program with nobody else at work, one choice settling every operation. -/
def runAlone (perform : (op : I.Op) → C → W → I.Answer op × W) (choice : C) : Prog I α → W → α × W
  | .done value, world => (value, world)
  | .call op next, world =>
    (next (perform op choice world).1).runAlone perform choice (perform op choice world).2

theorem runAlone_bind {perform : (op : I.Op) → C → W → I.Answer op × W} {choice : C} {program : Prog I β}
    {rest : β → Prog I α} {world middle : W} {value : β}
    (ran : program.runAlone perform choice world = (value, middle)) :
    (program >>= rest).runAlone perform choice world = (rest value).runAlone perform choice middle := by
  induction program generalizing world with
  | done result =>
    cases ran
    rfl
  | call op next ih => exact ih _ ran

end Prog

end Concurrency
