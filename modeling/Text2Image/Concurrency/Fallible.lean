import Text2Image.Concurrency.Execution
import Text2Image.Concurrency.Replies

/-! Programs that may end early: sequencing stops at the first error. -/

set_option autoImplicit false

namespace Concurrency

/-- A program that yields a value or an error. -/
abbrev Fallible (I : Interface) (ε α : Type) := ExceptT ε (Prog I) α

namespace Fallible

variable {I : Interface} {δ ε α β : Type}

/-- An error found, or not, without asking anybody. -/
def given (result : Except ε α) : Fallible I ε α := Prog.done result

/-- A program that has no errors. -/
def always (program : Prog I α) : Fallible I ε α :=
  program.bind fun value => .done (.ok value)

/-- The errors of a program, under another name. -/
def relabel (label : δ → ε) (program : Prog I (Except δ α)) : Fallible I ε α :=
  program.bind fun result => .done (result.mapError label)

/-- How a sequence goes on from what its first part has yielded. -/
def andThen (next : β → Fallible I ε α) : Except ε β → Prog I (Except ε α)
  | .ok value => next value
  | .error error => .done (.error error)

theorem run_bind (first : Fallible I ε β) (next : β → Fallible I ε α) :
    (first >>= next).run = (first.run >>= andThen next) := by
  refine congrArg (Prog.bind first.run) (funext fun result => ?_)
  cases result <;> rfl

end Fallible

namespace Prog

variable {I : Interface} {W C δ ε α β : Type} {σ : Setting I W C} {world after : W}
  {trace : List (I.Op × C × W)}

/-- An execution of a sequence ends with the error of its first part, or goes on from
the value of that part. -/
theorem Executes.of_fallible {first : Fallible I ε β} {next : β → Fallible I ε α} {reply : Except ε α}
    (ran : Executes σ (first >>= next).run world trace reply after) :
    (∃ error, reply = .error error ∧ Executes σ first.run world trace (.error error) after) ∨
    ∃ earlier later middle value, trace = earlier ++ later ∧
      Executes σ first.run world earlier (.ok value) middle ∧
      Executes σ (next value).run middle later reply after := by
  rw [Fallible.run_bind] at ran
  obtain ⟨earlier, later, middle, result, rfl, left, right⟩ := ran.of_bind
  cases result with
  | error error =>
    obtain ⟨rfl, rfl, rfl⟩ := right.of_done
    rw [List.append_nil]
    exact .inl ⟨error, rfl, left⟩
  | ok value => exact .inr ⟨earlier, later, middle, value, rfl, left, right⟩

theorem Executes.of_given {result reply : Except ε α}
    (ran : Executes σ (Fallible.given result).run world trace reply after) :
    trace = [] ∧ reply = result ∧ after = world := ran.of_done

theorem Executes.of_relabel {label : δ → ε} {program : Prog I (Except δ α)} {reply : Except ε α}
    (ran : Executes σ (Fallible.relabel label program).run world trace reply after) :
    ∃ result, reply = result.mapError label ∧ Executes σ program world trace result after := by
  obtain ⟨first, second, middle, result, rfl, ran, ended⟩ := Executes.of_bind ran
  obtain ⟨rfl, rfl, rfl⟩ := ended.of_done
  rw [List.append_nil]
  exact ⟨result, rfl, ran⟩

theorem Executes.of_always {program : Prog I α} {reply : Except ε α}
    (ran : Executes σ (Fallible.always program).run world trace reply after) :
    ∃ value, reply = .ok value ∧ Executes σ program world trace value after := by
  obtain ⟨first, second, middle, value, rfl, ran, ended⟩ := Executes.of_bind ran
  obtain ⟨rfl, rfl, rfl⟩ := ended.of_done
  rw [List.append_nil]
  exact ⟨value, rfl, ran⟩

theorem runAlone_fallible {perform : (op : I.Op) → C → W → I.Answer op × W} {choice : C}
    {first : Fallible I ε β} {next : β → Fallible I ε α} {middle : W} {value : β}
    (ran : first.run.runAlone perform choice world = (.ok value, middle)) :
    (first >>= next).run.runAlone perform choice world = (next value).run.runAlone perform choice middle := by
  rw [Fallible.run_bind, runAlone_bind ran]
  rfl

theorem Only.fallible {kind : I.Op → Prop} {first : Fallible I ε β} {next : β → Fallible I ε α}
    (left : Only kind first.run) (right : ∀ value, Only kind (next value).run) :
    Only kind (first >>= next).run := by
  rw [Fallible.run_bind]
  refine left.bind fun result => ?_
  cases result with
  | error error => trivial
  | ok value => exact right value

theorem Single.fallible_left {kind : I.Op → Prop} {first : Fallible I ε β} {next : β → Fallible I ε α}
    (left : Single kind first.run) (right : ∀ value, Without kind (next value).run) :
    Single kind (first >>= next).run := by
  rw [Fallible.run_bind]
  refine left.bind_left fun result => ?_
  cases result with
  | error error => trivial
  | ok value => exact right value

theorem Only.fallible_single {kind : I.Op → Prop} {first : Fallible I ε β} {next : β → Fallible I ε α}
    (left : Without kind first.run) (right : ∀ value, Single kind (next value).run) :
    Single kind (first >>= next).run := by
  rw [Fallible.run_bind]
  refine Only.bind_single left fun result => ?_
  cases result with
  | error error => exact Only.single trivial
  | ok value => exact right value

theorem Single.relabel {kind : I.Op → Prop} {label : δ → ε} {program : Prog I (Except δ α)}
    (single : Single kind program) : Single kind (Fallible.relabel label program).run :=
  single.bind_left fun _ => trivial

theorem Only.relabel {kind : I.Op → Prop} {label : δ → ε} {program : Prog I (Except δ α)}
    (only : Only kind program) : Only kind (Fallible.relabel label program).run :=
  only.bind fun _ => trivial

theorem Only.always {kind : I.Op → Prop} {program : Prog I α} (only : Only kind program) :
    Only kind (Fallible.always program : Fallible I ε α).run :=
  only.bind fun _ => trivial

/-- Sequencing: errors go through, and what follows may rely on the values. -/
theorem Follows.fallible {P : Protocol I} {between : List (Taken I) → Except ε β → Prop}
    {post : List (Taken I) → Except ε α → Prop} {past : List (Taken I)} {first : Fallible I ε β}
    {next : β → Fallible I ε α} (left : Follows P between first.run past)
    (fails : ∀ later error, between later (.error error) → post later (.error error))
    (right : ∀ later value, between later (.ok value) → Follows P post (next value).run later) :
    Follows P post (first >>= next).run past := by
  rw [Fallible.run_bind]
  refine left.bind fun later result _ holds => ?_
  cases result with
  | error error => exact .done (fails later error holds)
  | ok value => exact right later value holds

/-- What was asked for at this moment, and the answer. -/
def momentTaken (σ : Setting I W C) (moment : I.Op × C × W) : Taken I :=
  ⟨moment.1, (σ.perform moment.1 moment.2.1 moment.2.2).1⟩

/-- The answers of an execution lead the program to its value. -/
theorem Executes.leads {program : Prog I α} {value : α} (ran : Executes σ program world trace value after) :
    program.Leads (trace.map (momentTaken σ)).reverse (.done value) := by
  have all : ∀ {whole : Prog I α} {past : List (Taken I)}, whole.Leads past program →
      whole.Leads ((trace.map (momentTaken σ)).reverse ++ past) (.done value) := by
    induction ran with
    | done => exact fun leads => leads
    | call _ _ ih =>
      intro whole past leads
      rw [List.map_cons, List.reverse_cons, List.append_assoc]
      exact ih (leads.answered _)
  simpa using all .start

end Prog

/-! ## What a value reports -/

namespace Prog

variable {I : Interface} {W C : Type} {σ : Setting I W C} {world after : W}
  {trace : List (I.Op × C × W)} {served : Taken I → Prop} {δ ε α β : Type} {accepted : β → Prop}
  {wanted : α → Prop}

/-- From here on the program comes to a wanted value exactly if all it asks for is served. -/
def Reports (served : Taken I → Prop) (wanted : α → Prop) (program : Prog I α) : Prop :=
  ∀ past, program.Follows (fun _ _ => True) (fun later value => ∃ added, later = added ++ past ∧
    (wanted value ↔ ∀ taken ∈ added, served taken)) past

/-- Whatever it is answered, the program comes to no wanted value. -/
def Misses (wanted : α → Prop) (program : Prog I α) : Prop :=
  ∀ past, program.Follows (fun _ _ => True) (fun _ value => ¬ wanted value) past

theorem reports_done {value : α} (want : wanted value) : Reports served wanted (.done value : Prog I α) :=
  fun _ => .done ⟨[], rfl, iff_of_true want fun _ member => by cases member⟩

theorem misses_done {value : α} (unwanted : ¬ wanted value) : Misses wanted (.done value : Prog I α) :=
  fun _ => .done unwanted

/-- A first operation that is served, or nothing comes of it. -/
theorem Reports.call (op : I.Op) {next : I.Answer op → Prog I α}
    (goes : ∀ answer, served ⟨op, answer⟩ → Reports served wanted (next answer))
    (ends : ∀ answer, ¬ served ⟨op, answer⟩ → Misses wanted (next answer)) :
    Reports served wanted (.call op next) := by
  intro past
  refine .call trivial fun answer => ?_
  by_cases serves : served ⟨op, answer⟩
  · refine (goes answer serves _).mono fun later value _ => ?_
    rintro ⟨added, rfl, reported⟩
    refine ⟨added ++ [⟨op, answer⟩], by simp, ?_⟩
    rw [List.forall_mem_append, List.forall_mem_singleton, reported]
    exact ⟨fun all => ⟨all, serves⟩, And.left⟩
  · refine (ends answer serves _).suffix.mono fun later value _ => ?_
    rintro ⟨unwanted, added, rfl⟩
    refine ⟨added ++ [⟨op, answer⟩], by simp, iff_of_false unwanted fun all => serves ?_⟩
    exact all _ (List.mem_append_right _ List.mem_cons_self)

theorem Reports.bind {program : Prog I β} {next : β → Prog I α} (left : Reports served accepted program)
    (goes : ∀ value, accepted value → Reports served wanted (next value))
    (ends : ∀ value, ¬ accepted value → Misses wanted (next value)) :
    Reports served wanted (program.bind next) := by
  intro past
  refine (left past).bind fun later value _ => ?_
  rintro ⟨added, rfl, reported⟩
  by_cases accepts : accepted value
  · refine (goes value accepts _).mono fun later result _ => ?_
    rintro ⟨added', rfl, reported'⟩
    refine ⟨added' ++ added, (List.append_assoc _ _ _).symm, ?_⟩
    rw [List.forall_mem_append, reported']
    exact ⟨fun all => ⟨all, reported.mp accepts⟩, And.left⟩
  · refine (ends value accepts _).suffix.mono fun later result _ => ?_
    rintro ⟨unwanted, added', rfl⟩
    refine ⟨added' ++ added, (List.append_assoc _ _ _).symm, iff_of_false unwanted fun all => accepts ?_⟩
    exact reported.mpr fun taken member => all taken (List.mem_append_right _ member)

/-- The program comes to a wanted value only if all it asks for is served. -/
def Sound (served : Taken I → Prop) (wanted : α → Prop) (program : Prog I α) : Prop :=
  ∀ past, program.Follows (fun _ _ => True) (fun later value => ∃ added, later = added ++ past ∧
    (wanted value → ∀ taken ∈ added, served taken)) past

theorem Reports.sound {program : Prog I α} (reports : Reports served wanted program) :
    Sound served wanted program := by
  refine fun past => (reports past).mono fun later value _ => ?_
  rintro ⟨added, rfl, reported⟩
  exact ⟨added, rfl, reported.mp⟩

theorem sound_done (value : α) : Sound served wanted (.done value : Prog I α) :=
  fun _ => .done ⟨[], rfl, fun _ _ member => by cases member⟩

theorem Reports.executes {program : Prog I α} {value : α} (reports : Reports served wanted program)
    (ran : Executes σ program world trace value after) :
    wanted value ↔ ∀ moment ∈ trace, served (momentTaken σ moment) := by
  obtain ⟨added, whole, reported⟩ := (reports []).post_of_leads ran.leads
  rw [List.append_nil] at whole
  rw [reported, ← whole]
  simp only [List.mem_reverse, List.forall_mem_map]

theorem Sound.executes {program : Prog I α} {value : α} (sound : Sound served wanted program)
    (ran : Executes σ program world trace value after) (wants : wanted value) :
    ∀ moment ∈ trace, served (momentTaken σ moment) := by
  obtain ⟨added, whole, all⟩ := (sound []).post_of_leads ran.leads
  rw [List.append_nil] at whole
  have every := all wants
  rw [← whole] at every
  simpa only [List.mem_reverse, List.forall_mem_map] using every

end Prog

namespace Fallible

variable {I : Interface} {served : Taken I → Prop} {δ ε α β : Type} {accepted : β → Prop}
  {wanted : α → Prop}

/-- A value, and a wanted one. -/
def Yields (wanted : α → Prop) : Except ε α → Prop
  | .ok value => wanted value
  | .error _ => False

/-- A value is wanted, whichever it is. -/
abbrev Faithful (served : Taken I → Prop) (program : Fallible I ε α) : Prop :=
  Prog.Reports served (Yields fun _ => True) program.run

theorem faithful_ok (value : α) : Faithful served (.given (.ok value) : Fallible I ε α) :=
  Prog.reports_done trivial

theorem reports_bind {first : Fallible I ε β} {next : β → Fallible I ε α}
    (left : Prog.Reports served (Yields accepted) first.run)
    (goes : ∀ value, accepted value → Prog.Reports served (Yields wanted) (next value).run)
    (ends : ∀ value, ¬ accepted value → Prog.Misses (Yields wanted) (next value).run) :
    Prog.Reports served (Yields wanted) (first >>= next).run := by
  rw [run_bind]
  refine left.bind (fun result yields => ?_) fun result unwanted => ?_
  · cases result with
    | ok value => exact goes value yields
    | error error => exact yields.elim
  · cases result with
    | ok value => exact ends value unwanted
    | error error => exact Prog.misses_done id

theorem Faithful.bind {first : Fallible I ε β} {next : β → Fallible I ε α}
    (left : Faithful served first)
    (right : ∀ value, Prog.Reports served (Yields wanted) (next value).run) :
    Prog.Reports served (Yields wanted) (first >>= next).run :=
  reports_bind left (fun value _ => right value) fun _ refused => (refused trivial).elim

theorem sound_bind {first : Fallible I ε β} {next : β → Fallible I ε α}
    (left : Prog.Sound served (Yields fun _ => True) first.run)
    (right : ∀ value, Prog.Sound served (Yields wanted) (next value).run) :
    Prog.Sound served (Yields wanted) (first >>= next).run := by
  intro past
  refine (left past).fallible ?_ ?_
  · rintro later error ⟨added, rfl, _⟩
    exact ⟨added, rfl, False.elim⟩
  · rintro later value ⟨added, rfl, all⟩
    refine (right value _).mono fun later result _ => ?_
    rintro ⟨added', rfl, all'⟩
    refine ⟨added' ++ added, (List.append_assoc _ _ _).symm, fun wants => ?_⟩
    exact List.forall_mem_append.mpr ⟨all' wants, all trivial⟩

theorem reports_relabel {program : Prog I (Except δ α)} (label : δ → ε)
    (reports : Prog.Reports served (Yields wanted) program) :
    Prog.Reports served (Yields wanted) (Fallible.relabel label program).run := by
  refine reports.bind (fun result yields => ?_) fun result unwanted => Prog.misses_done ?_
  · cases result with
    | ok value => exact Prog.reports_done yields
    | error error => exact yields.elim
  · cases result with
    | ok value => exact unwanted
    | error error => exact id

theorem faithful_always {program : Prog I α} (quiet : Prog.Reports served (fun _ => True) program) :
    Faithful served (Fallible.always program : Fallible I ε α) :=
  quiet.bind (fun _ _ => Prog.reports_done trivial) fun _ refused => (refused trivial).elim

end Fallible

end Concurrency
