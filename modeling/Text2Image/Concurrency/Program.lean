/-! Programs whose only interaction with shared state is a sequence of atomic
operations. A program is the tree of operations it may ask for, one branch for
each answer; nothing here says what an operation does.
-/

set_option autoImplicit false

namespace Concurrency

/-- Operations, each with the type of the answer it gives. -/
structure Interface where
  Op : Type
  Answer : Op → Type

/-- A program that performs operations one at a time and then yields a value. -/
inductive Prog (I : Interface) (α : Type) : Type where
  | done (value : α)
  | call (op : I.Op) (next : I.Answer op → Prog I α)

/-- An operation that was performed, with the answer it gave. -/
structure Taken (I : Interface) where
  op : I.Op
  answer : I.Answer op

/-- Which operations may be performed after which others (newest first). -/
abbrev Protocol (I : Interface) := List (Taken I) → I.Op → Prop

namespace Prog

variable {I : Interface} {α β : Type}

def bind : Prog I α → (α → Prog I β) → Prog I β
  | .done value, rest => rest value
  | .call op next, rest => .call op fun answer => (next answer).bind rest

def perform (op : I.Op) : Prog I (I.Answer op) :=
  .call op .done

instance : Monad (Prog I) where
  pure := .done
  bind := bind

@[simp] theorem pure_eq (value : α) : (pure value : Prog I α) = .done value := rfl

@[simp] theorem done_bind (value : α) (rest : α → Prog I β) :
    (Prog.done value >>= rest) = rest value := rfl

@[simp] theorem call_bind (op : I.Op) (next : I.Answer op → Prog I α) (rest : α → Prog I β) :
    (Prog.call op next >>= rest) = .call op fun answer => next answer >>= rest := rfl

/-- Run a program while others are at work: the world changes before each of its
operations, which a choice settles. -/
def runAmong {W C : Type} (perform : (op : I.Op) → C → W → I.Answer op × W) :
    Prog I α → List ((W → W) × C) → W → Option (α × W)
  | .done value, _, world => some (value, world)
  | .call _ _, [], _ => none
  | .call op next, (others, choice) :: later, world =>
    (next (perform op choice (others world)).1).runAmong perform later
      (perform op choice (others world)).2

/-- The operations of such a run, each with its choice and the world it met. -/
def performed {W C : Type} (perform : (op : I.Op) → C → W → I.Answer op × W) :
    Prog I α → List ((W → W) × C) → W → List (I.Op × C × W)
  | .done _, _, _ => []
  | .call _ _, [], _ => []
  | .call op next, (others, choice) :: later, world =>
    (op, choice, others world) ::
      (next (perform op choice (others world)).1).performed perform later
        (perform op choice (others world)).2

/-- Whatever the answers are, every operation is allowed after the ones before
it, and every value the program yields satisfies the postcondition. -/
inductive Follows (P : Protocol I) (post : List (Taken I) → α → Prop) :
    Prog I α → List (Taken I) → Prop where
  | done {value : α} {past : List (Taken I)} (holds : post past value) :
      Follows P post (.done value) past
  | call {op : I.Op} {next : I.Answer op → Prog I α} {past : List (Taken I)} (allowed : P past op)
      (rest : ∀ answer, Follows P post (next answer) (⟨op, answer⟩ :: past)) :
      Follows P post (.call op next) past

variable {P : Protocol I} {post : List (Taken I) → α → Prop} {past : List (Taken I)}

theorem Follows.allowed {op : I.Op} {next : I.Answer op → Prog I α}
    (follows : (Prog.call op next).Follows P post past) : P past op := by
  cases follows with
  | call allowed rest => exact allowed

theorem Follows.rest {op : I.Op} {next : I.Answer op → Prog I α}
    (follows : (Prog.call op next).Follows P post past) (answer : I.Answer op) :
    (next answer).Follows P post (⟨op, answer⟩ :: past) := by
  cases follows with
  | call allowed rest => exact rest answer

/-- The postcondition may use everything the program was answered before. -/
theorem Follows.mono {post' : List (Taken I) → α → Prop} {program : Prog I α}
    (follows : program.Follows P post past)
    (posts : ∀ later value, past ⊆ later → post later value → post' later value) :
    program.Follows P post' past := by
  induction follows with
  | done holds => exact .done (posts _ _ (List.Subset.refl _) holds)
  | call allowed rest ih =>
    refine .call allowed fun answer => ih answer ?_
    intro later value grown holds
    exact posts later value (List.Subset.trans (List.subset_cons_self _ _) grown) holds

/-- Two postconditions at once. -/
theorem Follows.and {Q : Protocol I} {post' : List (Taken I) → α → Prop} {program : Prog I α}
    (left : program.Follows P post past) (right : program.Follows Q post' past) :
    program.Follows P (fun later value => post later value ∧ post' later value) past := by
  induction left with
  | done holds =>
    cases right with
    | done holds' => exact .done ⟨holds, holds'⟩
  | call allowed rest ih => exact .call allowed fun answer => ih answer (right.rest answer)

/-- Sequencing: what follows the first part may rely on its postcondition. -/
theorem Follows.bind {program : Prog I β} {rest : β → Prog I α}
    {between : List (Taken I) → β → Prop} (first : program.Follows P between past)
    (second : ∀ later value, past ⊆ later → between later value →
      (rest value).Follows P post later) :
    (program >>= rest).Follows P post past := by
  induction first with
  | done holds => exact second _ _ (List.Subset.refl _) holds
  | call allowed following ih =>
    refine .call allowed fun answer => ih answer ?_
    intro later value grown holds
    exact second later value (List.Subset.trans (List.subset_cons_self _ _) grown) holds

/-- What a program is answered comes on top of what was there. -/
theorem Follows.suffix {program : Prog I α} (follows : program.Follows P post past) :
    program.Follows P (fun later value => post later value ∧ past <:+ later) past := by
  induction follows with
  | done holds => exact .done ⟨holds, List.suffix_refl _⟩
  | @call op next past allowed rest ih =>
    refine .call allowed fun answer => (ih answer).mono ?_
    rintro later value grown ⟨holds, suffix⟩
    exact ⟨holds, (List.suffix_cons _ _).trans suffix⟩

/-- A program whose operations are all of one kind adds such operations only. -/
theorem Follows.adds {kind : I.Op → Prop} {program : Prog I α}
    (follows : program.Follows (fun _ op => kind op) post past) :
    program.Follows (fun _ op => kind op) (fun later value => post later value ∧
      ∃ added, later = added ++ past ∧ ∀ taken ∈ added, kind taken.op) past := by
  induction follows with
  | done holds => exact .done ⟨holds, [], rfl, by simp⟩
  | @call op next past allowed rest ih =>
    refine .call allowed fun answer => (ih answer).mono ?_
    rintro later value _ ⟨holds, added, rfl, all⟩
    refine ⟨holds, added ++ [⟨op, answer⟩], by simp, ?_⟩
    intro taken member
    rcases List.mem_append.mp member with newer | first
    · exact all taken newer
    · rw [List.mem_singleton.mp first]
      exact allowed

/-- In a run, too, every operation is allowed after what was answered before, and the answers are
those of the run.
-/
theorem Follows.performed_after {W C : Type} {perform : (op : I.Op) → C → W → I.Answer op × W}
    {program : Prog I α} (follows : program.Follows P post past) {steps : List ((W → W) × C)}
    {world : W} {op : I.Op} {choice : C} {met : W}
    (performed : (op, choice, met) ∈ program.performed perform steps world) :
    ∃ later, P later op ∧ ∀ taken ∈ later, taken ∈ past ∨ ∃ choice met,
      (taken.op, choice, met) ∈ program.performed perform steps world ∧
        taken.answer = (perform taken.op choice met).1 := by
  induction follows generalizing steps world with
  | done holds => cases performed
  | @call first next past allowed rest ih =>
    cases steps with
    | nil => cases performed
    | cons step later =>
      obtain ⟨others, chosen⟩ := step
      rcases List.mem_cons.mp performed with same | performed
      · cases same
        exact ⟨past, allowed, fun _ => .inl⟩
      · obtain ⟨known, holds, genuine⟩ := ih _ performed
        refine ⟨known, holds, fun taken member => ?_⟩
        rcases genuine taken member with before | ⟨choice, met, moment, answered⟩
        · rcases List.mem_cons.mp before with rfl | older
          · exact .inr ⟨chosen, others world, List.mem_cons_self, rfl⟩
          · exact .inl older
        · exact .inr ⟨choice, met, List.mem_cons_of_mem _ moment, answered⟩

theorem Follows.performed {W C : Type} {perform : (op : I.Op) → C → W → I.Answer op × W}
    {program : Prog I α} (follows : program.Follows P post past) {steps : List ((W → W) × C)}
    {world : W} {op : I.Op} {choice : C} {met : W}
    (performed : (op, choice, met) ∈ program.performed perform steps world) :
    ∃ later, P later op := by
  obtain ⟨later, allowed, _⟩ := follows.performed_after performed
  exact ⟨later, allowed⟩

/-- Every operation meets a world with what the others and the operations before it keep. -/
theorem met_of_performed {W C : Type} {perform : (op : I.Op) → C → W → I.Answer op × W} {kept : W → Prop}
    {program : Prog I α} {steps : List ((W → W) × C)} {world : W}
    (others : ∀ step ∈ steps, ∀ world, kept world → kept (step.1 world))
    (performs : ∀ op choice met, kept met → kept (perform op choice met).2) (start : kept world) :
    ∀ moment ∈ program.performed perform steps world, kept moment.2.2 := by
  induction program generalizing steps world with
  | done value => simp [Prog.performed]
  | call op next ih =>
    cases steps with
    | nil => simp [Prog.performed]
    | cons step later =>
      obtain ⟨first, rest⟩ := List.forall_mem_cons.mp others
      have met := first world start
      exact List.forall_mem_cons.mpr ⟨met, ih _ rest (performs op step.2 _ met)⟩

/-- The operations may be judged more leniently. -/
theorem Follows.weaken {Q : Protocol I} {program : Prog I α} (follows : program.Follows P post past)
    (wider : ∀ past op, P past op → Q past op) : program.Follows Q post past := by
  induction follows with
  | done holds => exact .done holds
  | call allowed rest ih => exact .call (wider _ _ allowed) fun answer => ih answer

/-- All operations of a program are of one kind, whatever it is answered. -/
def Only (kind : I.Op → Prop) : Prog I α → Prop
  | .done _ => True
  | .call op next => kind op ∧ ∀ answer, (next answer).Only kind

theorem Only.mono {kind wider : I.Op → Prop} {program : Prog I α} (only : program.Only kind)
    (wide : ∀ op, kind op → wider op) : program.Only wider := by
  induction program with
  | done value => trivial
  | call op next ih => exact ⟨wide op only.1, fun answer => ih answer (only.2 answer)⟩

theorem Only.bind {kind : I.Op → Prop} {program : Prog I β} {rest : β → Prog I α}
    (first : program.Only kind) (second : ∀ value, (rest value).Only kind) :
    (program >>= rest).Only kind := by
  induction program with
  | done value => exact second value
  | call op next ih => exact ⟨first.1, fun answer => ih answer (first.2 answer)⟩

theorem Only.follows {kind : I.Op → Prop} {program : Prog I α} (only : program.Only kind)
    (past : List (Taken I)) :
    program.Follows (fun _ op => kind op) (fun _ _ => True) past := by
  induction program generalizing past with
  | done value => exact .done trivial
  | call op next ih => exact .call only.1 fun answer => ih answer (only.2 answer) _

/-- What came before the program stays below what the program adds to it. -/
theorem Only.grows {kind : I.Op → Prop} {program : Prog I α} (only : program.Only kind)
    {past : List (Taken I)} {added : List (Taken I)} (all : ∀ taken ∈ added, kind taken.op) :
    program.Follows (fun later op => kind op ∧ ∃ added, later = added ++ past ∧ ∀ taken ∈ added, kind taken.op)
      (fun _ _ => True) (added ++ past) := by
  induction program generalizing added with
  | done value => exact .done trivial
  | call op next ih =>
    refine .call ⟨only.1, added, rfl, all⟩ fun answer => ?_
    have more : ∀ taken ∈ (⟨op, answer⟩ : Taken I) :: added, kind taken.op :=
      List.forall_mem_cons.mpr ⟨only.1, all⟩
    exact ih answer (only.2 answer) more

/-! ## What is done at most once -/

/-- An operation of this kind is the first of its kind. -/
def Once (kind : I.Op → Prop) : Protocol I := fun past op => kind op → ∀ taken ∈ past, ¬ kind taken.op

/-- The program performs at most one operation of this kind. -/
def Single (kind : I.Op → Prop) (program : Prog I α) : Prop :=
  ∀ past, (∀ taken ∈ past, ¬ kind taken.op) → program.Follows (Once kind) (fun _ _ => True) past

/-- No operation of this kind at all. -/
abbrev Without (kind : I.Op → Prop) : Prog I α → Prop := Only fun op => ¬ kind op

variable {kind : I.Op → Prop}

theorem Only.once {program : Prog I α} (only : program.Without kind) (past : List (Taken I)) :
    program.Follows (Once kind) (fun later _ => ∀ taken ∈ later, taken ∈ past ∨ ¬ kind taken.op) past := by
  refine ((only.follows past).adds.mono ?_).weaken fun _ _ other same => absurd same other
  rintro later value _ ⟨_, added, rfl, others⟩ taken member
  rcases List.mem_append.mp member with new | old
  · exact .inr (others taken new)
  · exact .inl old

theorem Only.single {program : Prog I α} (only : program.Without kind) : program.Single kind :=
  fun past _ => (only.once past).mono fun _ _ _ _ => trivial

theorem single_call (op : I.Op) {next : I.Answer op → Prog I α} (rest : ∀ answer, (next answer).Without kind) :
    (Prog.call op next).Single kind :=
  fun _ none => .call (fun _ => none) fun answer => ((rest answer).once _).mono fun _ _ _ _ => trivial

theorem Single.call {op : I.Op} {next : I.Answer op → Prog I α} (other : ¬ kind op)
    (rest : ∀ answer, (next answer).Single kind) : (Prog.call op next).Single kind := by
  refine fun past none => .call (absurd · other) fun answer => rest answer _ ?_
  exact List.forall_mem_cons.mpr ⟨other, none⟩

theorem Single.bind_left {program : Prog I β} {rest : β → Prog I α} (first : program.Single kind)
    (second : ∀ value, (rest value).Without kind) : (program >>= rest).Single kind :=
  fun past none => (first past none).bind fun later value _ _ =>
    ((second value).once later).mono fun _ _ _ _ => trivial

theorem Only.bind_single {program : Prog I β} {rest : β → Prog I α} (first : program.Without kind)
    (second : ∀ value, (rest value).Single kind) : (program >>= rest).Single kind :=
  fun past none => (first.once past).bind fun later value _ known =>
    second value later fun taken member => (known taken member).elim (none taken) id

end Prog

end Concurrency
