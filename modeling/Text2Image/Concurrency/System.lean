import Mathlib.Logic.Function.Basic
import Text2Image.Concurrency.Program

/-! Interleaved runs of any number of programs over one shared world.

A run is a list of labels. Each label starts a call, lets one process (or a
helper thread acting for it) perform one atomic operation, stops a process
where it stands, or lets the environment act. The log keeps every operation
with the world before and after it, newest first, so that what happened in a
run can be spoken about without adding anything to the world itself.
-/

set_option autoImplicit false

namespace Concurrency

/-- A shared world with its atomic operations and the calls that may be made. A
choice settles whatever the operation leaves open: failure, timing, which of
several answers. -/
structure System where
  I : Interface
  World : Type
  Choice : Type
  Call : Type
  Reply : Type
  Env : Type
  perform : Nat → (op : I.Op) → Choice → World → I.Answer op × World
  program : Call → Prog I Reply
  /-- Operations a helper thread of a running process may perform meanwhile. -/
  background : Nat → I.Op → World → Bool
  /-- What is left of a process's helpers when it dies. -/
  leave : Nat → World → World
  env : Env → World → World

namespace System

variable (S : System)

structure Event where
  pid : Nat
  call : S.Call
  /-- Performed by a helper thread, not by the program itself. -/
  helper : Bool
  op : S.I.Op
  choice : S.Choice
  answer : S.I.Answer op
  before : S.World
  after : S.World

inductive Entry where
  | started (pid : Nat) (call : S.Call)
  | performed (event : S.Event)
  | returned (pid : Nat) (reply : S.Reply)
  | crashed (pid : Nat)

variable {S}

def Entry.pid : S.Entry → Nat
  | .started pid _ => pid
  | .performed event => event.pid
  | .returned pid _ => pid
  | .crashed pid => pid

variable (S)

/-- What any process can be affected by: the world, and what has happened. -/
structure View where
  world : S.World
  log : List S.Entry

structure Process where
  call : S.Call
  rest : Prog S.I S.Reply

structure State where
  view : S.View
  process : Nat → Option S.Process
  next : Nat

inductive Label where
  | start (call : S.Call)
  | act (pid : Nat) (choice : S.Choice)
  | background (pid : Nat) (op : S.I.Op) (choice : S.Choice)
  | crash (pid : Nat)
  | env (event : S.Env)

variable {S}

def View.push (view : S.View) (entry : S.Entry) : S.View :=
  { view with log := entry :: view.log }

@[simp] theorem View.push_world (view : S.View) (entry : S.Entry) :
    (view.push entry).world = view.world := rfl

@[simp] theorem View.push_log (view : S.View) (entry : S.Entry) :
    (view.push entry).log = entry :: view.log := rfl

/-- The event of one operation performed in this view. -/
def View.event (view : S.View) (pid : Nat) (call : S.Call) (helper : Bool) (op : S.I.Op)
    (choice : S.Choice) : S.Event :=
  ⟨pid, call, helper, op, choice, (S.perform pid op choice view.world).1, view.world,
    (S.perform pid op choice view.world).2⟩

def View.performs (view : S.View) (pid : Nat) (call : S.Call) (helper : Bool) (op : S.I.Op)
    (choice : S.Choice) : S.View :=
  ⟨(S.perform pid op choice view.world).2,
    .performed (view.event pid call helper op choice) :: view.log⟩

@[simp] theorem View.performs_world (view : S.View) (pid : Nat) (call : S.Call) (helper : Bool)
    (op : S.I.Op) (choice : S.Choice) :
    (view.performs pid call helper op choice).world = (S.perform pid op choice view.world).2 := rfl

@[simp] theorem View.performs_log (view : S.View) (pid : Nat) (call : S.Call) (helper : Bool)
    (op : S.I.Op) (choice : S.Choice) :
    (view.performs pid call helper op choice).log =
      .performed (view.event pid call helper op choice) :: view.log := rfl

/-- No process has run yet. -/
def initial (world : S.World) : S.State :=
  ⟨⟨world, []⟩, fun _ => none, 0⟩

/-- Keep what is left of a process's program, or log that it has returned. -/
def State.settle (state : S.State) (pid : Nat) (call : S.Call) : Prog S.I S.Reply → S.State
  | .done reply =>
    { state with
      view := state.view.push (.returned pid reply)
      process := Function.update state.process pid none }
  | .call op next =>
    { state with process := Function.update state.process pid (some ⟨call, .call op next⟩) }

def step (state : S.State) : S.Label → S.State
  | .start call =>
    { state with
      view := state.view.push (.started state.next call)
      next := state.next + 1 }.settle state.next call (S.program call)
  | .act pid choice =>
    match state.process pid with
    | some ⟨call, .call op next⟩ =>
      { state with view := state.view.performs pid call false op choice }.settle pid call
        (next (S.perform pid op choice state.view.world).1)
    | _ => state
  | .background pid op choice =>
    match state.process pid with
    | some process =>
      if S.background pid op state.view.world then
        { state with view := state.view.performs pid process.call true op choice }
      else state
    | none => state
  | .crash pid =>
    match state.process pid with
    | some _ =>
      { state with
        view := ⟨S.leave pid state.view.world, .crashed pid :: state.view.log⟩
        process := Function.update state.process pid none }
    | none => state
  | .env event => { state with view := { state.view with world := S.env event state.view.world } }

def run (state : S.State) (labels : List S.Label) : S.State :=
  labels.foldl step state

@[simp] theorem run_nil (state : S.State) : run state [] = state := rfl

@[simp] theorem run_cons (state : S.State) (label : S.Label) (labels : List S.Label) :
    run state (label :: labels) = run (step state label) labels := rfl

theorem run_append (state : S.State) (first second : List S.Label) :
    run state (first ++ second) = run (run state first) second :=
  List.foldl_append

theorem run_concat (state : S.State) (labels : List S.Label) (label : S.Label) :
    run state (labels ++ [label]) = step (run state labels) label := by
  rw [run_append, run_cons, run_nil]

/-- What a run may be asked to respect: which calls are started, under which
circumstances operations are performed, and what happens by itself. -/
structure Condition (S : System) where
  starts : S.Call → S.View → Prop
  performs : Nat → S.Call → S.I.Op → S.Choice → S.View → Prop
  env : S.Env → S.View → Prop := fun _ _ => True

/-- No restriction at all. -/
def Condition.free : Condition S where
  starts _ _ := True
  performs _ _ _ _ _ := True

/-- The condition holds of this label in this state. -/
def Admits (condition : Condition S) (state : S.State) : S.Label → Prop
  | .start call => condition.starts call state.view
  | .act pid choice => ∀ call op next, state.process pid = some ⟨call, .call op next⟩ →
      condition.performs pid call op choice state.view
  | .background pid op choice => ∀ process, state.process pid = some process →
      S.background pid op state.view.world = true →
      condition.performs pid process.call op choice state.view
  | .crash _ => True
  | .env event => condition.env event state.view

/-- Every label of the run meets the condition in the state it finds. -/
def Meets (condition : Condition S) (state : S.State) : List S.Label → Prop
  | [] => True
  | label :: labels => Admits condition state label ∧ Meets condition (step state label) labels

section Decide

variable (condition : Condition S) [∀ call view, Decidable (condition.starts call view)]
  [∀ pid call op choice view, Decidable (condition.performs pid call op choice view)]
  [∀ event view, Decidable (condition.env event view)]

/-- Only the operation a process is about to perform is asked about. -/
instance decideAct (state : S.State) (pid : Nat) (choice : S.Choice) :
    Decidable (Admits condition state (.act pid choice)) :=
  match found : state.process pid with
  | none => isTrue fun _ _ _ same => by rw [found] at same; cases same
  | some ⟨_, .done _⟩ => isTrue fun _ _ _ same => by rw [found] at same; cases same
  | some ⟨call, .call op next⟩ =>
    decidable_of_iff (condition.performs pid call op choice state.view)
      ⟨fun meets _ _ _ same => by rw [found] at same; cases same; exact meets,
        fun all => all call op next found⟩

instance decideBackground (state : S.State) (pid : Nat) (op : S.I.Op) (choice : S.Choice) :
    Decidable (Admits condition state (.background pid op choice)) :=
  match found : state.process pid with
  | none => isTrue fun _ same => by rw [found] at same; cases same
  | some process =>
    decidable_of_iff (S.background pid op state.view.world = true →
        condition.performs pid process.call op choice state.view)
      ⟨fun meets _ same => by rw [found] at same; cases same; exact meets,
        fun all => all process found⟩

instance decideAdmits (state : S.State) (label : S.Label) :
    Decidable (Admits condition state label) :=
  match label with
  | .start call => inferInstanceAs (Decidable (condition.starts call state.view))
  | .act pid choice => decideAct condition state pid choice
  | .background pid op choice => decideBackground condition state pid op choice
  | .crash _ => isTrue trivial
  | .env event => inferInstanceAs (Decidable (condition.env event state.view))

instance decideMeets (state : S.State) (labels : List S.Label) :
    Decidable (Meets condition state labels) :=
  match labels with
  | [] => isTrue trivial
  | label :: labels =>
    have := decideMeets (step state label) labels
    inferInstanceAs (Decidable (Admits condition state label ∧
      Meets condition (step state label) labels))

end Decide

theorem meets_append (condition : Condition S) (state : S.State) (first second : List S.Label) :
    Meets condition state (first ++ second) ↔
      Meets condition state first ∧ Meets condition (run state first) second := by
  induction first generalizing state with
  | nil => simp [Meets]
  | cons label first ih => simp only [List.cons_append, Meets, ih, run_cons, and_assoc]

theorem admits_free (state : S.State) (label : S.Label) : Admits Condition.free state label := by
  cases label <;> simp [Admits, Condition.free]

theorem meets_free (state : S.State) (labels : List S.Label) :
    Meets Condition.free state labels := by
  induction labels generalizing state with
  | nil => trivial
  | cons label labels ih => exact ⟨admits_free state label, ih _⟩

/-- Only calls of one kind are started and at work. -/
def Condition.starting (good : S.Call → Prop) : Condition S where
  starts call _ := good call
  performs _ call _ _ _ := good call

/-- Two conditions at once. -/
def Condition.and (first second : Condition S) : Condition S where
  starts call view := first.starts call view ∧ second.starts call view
  performs pid call op choice view :=
    first.performs pid call op choice view ∧ second.performs pid call op choice view
  env event view := first.env event view ∧ second.env event view

theorem Admits.and {first second : Condition S} {state : S.State} {label : S.Label}
    (left : Admits first state label) (right : Admits second state label) :
    Admits (first.and second) state label := by
  cases label with
  | start call => exact ⟨left, right⟩
  | act pid choice => exact fun call op next found => ⟨left call op next found, right call op next found⟩
  | background pid op choice =>
    exact fun process found permitted => ⟨left process found permitted, right process found permitted⟩
  | crash pid => trivial
  | env event => exact ⟨left, right⟩

theorem Meets.and {first second : Condition S} {state : S.State} {labels : List S.Label}
    (left : Meets first state labels) (right : Meets second state labels) :
    Meets (first.and second) state labels := by
  induction labels generalizing state with
  | nil => trivial
  | cons label labels ih => exact ⟨left.1.and right.1, ih left.2 right.2⟩

/-- Every process is at work on a call of this kind. -/
def State.Serves (state : S.State) (good : S.Call → Prop) : Prop :=
  ∀ pid process, state.process pid = some process → good process.call

theorem State.Serves.settle {good : S.Call → Prop} {state : S.State} (serves : state.Serves good)
    {pid : Nat} {call : S.Call} (kind : good call) (rest : Prog S.I S.Reply) :
    (state.settle pid call rest).Serves good := by
  intro other process found
  by_cases same : other = pid
  · cases rest with
    | done reply => simp [State.settle, same] at found
    | call op next =>
      simp only [State.settle, same, Function.update_self, Option.some.injEq] at found
      rw [← found]
      exact kind
  · refine serves other process ?_
    cases rest <;> simpa [State.settle, Function.update_of_ne same] using found

theorem State.Serves.step {good : S.Call → Prop} {state : S.State} (serves : state.Serves good)
    {label : S.Label} (started : ∀ call, label = .start call → good call) :
    (System.step state label).Serves good := by
  cases label with
  | start call =>
    refine State.Serves.settle ?_ (started call rfl) _
    exact serves
  | act pid choice =>
    simp only [System.step]
    split
    · rename_i call op next found
      refine State.Serves.settle ?_ (serves pid _ found) _
      exact serves
    · exact serves
  | background pid op choice =>
    simp only [System.step]
    split
    · split <;> exact serves
    · exact serves
  | crash pid =>
    simp only [System.step]
    split
    · intro other process found
      by_cases same : other = pid
      · simp [same] at found
      · exact serves other process (by simpa [Function.update_of_ne same] using found)
    · exact serves
  | env event => exact serves

theorem meets_starting {good : S.Call → Prop} {state : S.State} (serves : state.Serves good)
    (labels : List S.Label) (started : ∀ call, .start call ∈ labels → good call) :
    Meets (.starting good) state labels := by
  induction labels generalizing state with
  | nil => trivial
  | cons label labels ih =>
    have begins : ∀ call, label = .start call → good call :=
      fun call same => started call (same ▸ List.mem_cons_self)
    refine ⟨?_, ih (serves.step begins) fun call member => started call (List.mem_cons_of_mem _ member)⟩
    cases label with
    | start call => exact begins call rfl
    | act pid choice => exact fun call op next found => serves pid _ found
    | background pid op choice => exact fun process found _ => serves pid _ found
    | crash pid => trivial
    | env event => trivial

/-- A property of every entry together with everything older than it. -/
def LogAll (property : S.Entry → List S.Entry → Prop) : List S.Entry → Prop
  | [] => True
  | entry :: older => property entry older ∧ LogAll property older

theorem LogAll.of_suffix {property : S.Entry → List S.Entry → Prop} {newer older : List S.Entry}
    {entry : S.Entry} (all : LogAll property (newer ++ entry :: older)) : property entry older := by
  induction newer with
  | nil => exact all.1
  | cons _ newer ih => exact ih all.2

instance decideLogAll (property : S.Entry → List S.Entry → Prop)
    [∀ entry older, Decidable (property entry older)] (log : List S.Entry) :
    Decidable (LogAll property log) :=
  match log with
  | [] => isTrue trivial
  | entry :: older =>
    have := decideLogAll property older
    inferInstanceAs (Decidable (property entry older ∧ LogAll property older))

/-! ## What the log says of a process -/

/-- What the process itself has performed so far, newest first. -/
def history (pid : Nat) : List S.Entry → List (Taken S.I)
  | [] => []
  | .performed event :: older =>
    if event.pid = pid ∧ event.helper = false then ⟨event.op, event.answer⟩ :: history pid older
    else history pid older
  | _ :: older => history pid older

/-- The call a process is at work on. -/
def live (pid : Nat) : List S.Entry → Option S.Call
  | [] => none
  | .started other call :: older => if other = pid then some call else live pid older
  | .performed _ :: older => live pid older
  | .returned other _ :: older => if other = pid then none else live pid older
  | .crashed other :: older => if other = pid then none else live pid older

theorem history_of_fresh {pid : Nat} {log : List S.Entry} (fresh : ∀ entry ∈ log, entry.pid ≠ pid) :
    history pid log = [] := by
  induction log with
  | nil => rfl
  | cons entry log ih =>
    have rest := ih fun other member => fresh other (List.mem_cons_of_mem _ member)
    cases entry with
    | performed event =>
      have different : event.pid ≠ pid := fresh (.performed event) List.mem_cons_self
      simp only [history, different, false_and, if_false, rest]
    | _ => exact rest

/-- What a process knew before, it knows as the oldest part of what it knows now. -/
theorem history_suffix (pid : Nat) (newer older : List S.Entry) :
    history pid older <:+ history pid (newer ++ older) := by
  induction newer with
  | nil => exact List.suffix_refl _
  | cons entry newer ih =>
    cases entry with
    | performed event =>
      simp only [List.cons_append, history]
      split
      · exact ih.trans (List.suffix_cons _ _)
      · exact ih
    | _ => exact ih

/-- What a process has learnt, it has learnt by an event, after all that it had
learnt before. -/
theorem history_split {pid : Nat} {log : List S.Entry} {newest past : List (Taken S.I)}
    {taken : Taken S.I} (split : history pid log = newest ++ taken :: past) :
    ∃ newer event older, log = newer ++ .performed event :: older ∧ event.pid = pid ∧
      event.helper = false ∧ (⟨event.op, event.answer⟩ : Taken S.I) = taken ∧
      history pid older = past := by
  induction log generalizing newest with
  | nil => cases newest <;> cases split
  | cons entry log ih =>
    have later : ∀ newest, history pid log = newest ++ taken :: past →
        ∃ newer event older, entry :: log = newer ++ .performed event :: older ∧ event.pid = pid ∧
          event.helper = false ∧ (⟨event.op, event.answer⟩ : Taken S.I) = taken ∧
          history pid older = past := by
      intro newest split
      obtain ⟨newer, event, older, rfl, rest⟩ := ih split
      exact ⟨entry :: newer, event, older, rfl, rest⟩
    cases entry with
    | performed event =>
      simp only [history] at split
      split at split
      · rename_i own
        cases newest with
        | nil =>
          obtain ⟨same, rest⟩ := List.cons.inj split
          exact ⟨[], event, log, rfl, own.1, own.2, same, rest⟩
        | cons first newest => exact later newest (List.cons.inj split).2
      · exact later newest split
    | _ => exact later newest split

/-- Everything a process has learnt stands in the log as an event. -/
theorem mem_history {pid : Nat} {log : List S.Entry} {taken : Taken S.I}
    (member : taken ∈ history pid log) :
    ∃ event, .performed event ∈ log ∧ event.pid = pid ∧ event.helper = false ∧
      (⟨event.op, event.answer⟩ : Taken S.I) = taken := by
  obtain ⟨newest, past, split⟩ := List.append_of_mem member
  obtain ⟨newer, event, older, rfl, own, program, same, _⟩ := history_split split
  exact ⟨event, by simp, own, program, same⟩

end System

end Concurrency
