import Mathlib.Data.List.Induction
import Text2Image.Concurrency.Invariant
import Text2Image.Concurrency.Layers

/-! Systems whose operations are carried out by programs of finer ones.

Where each of these programs takes effect at one of its steps, every run of the finer
system is, moment by moment, a run of the coarser one.
-/

set_option autoImplicit false

namespace Concurrency

/-- The operations of a system carried out by programs of another interface. The environment acts on both
in the same way, and the world below has that above as a part.
-/
structure Lowering (S : System) where
  I : Interface
  World : Type
  Choice : Type
  perform : Nat → (op : I.Op) → Choice → World → I.Answer op × World
  carry : (op : S.I.Op) → Prog I (S.I.Answer op)
  background : Nat → I.Op → World → Bool
  leave : Nat → World → World
  env : S.Env → World → World
  base : World → S.World

namespace Lowering

variable {S : System} (L : Lowering S)

abbrev system : System where
  I := L.I
  World := L.World
  Choice := L.Choice
  Call := S.Call
  Reply := S.Reply
  Env := S.Env
  perform := L.perform
  program call := (S.program call).via L.carry
  background := L.background
  leave := L.leave
  env := L.env

/-! ## Where a program takes effect -/

/-- The effect is there: what is left changes nothing above, and it ends with this answer. -/
def Silent {α : Type} (answer : α) : Prog L.I α → Prop
  | .done value => value = answer
  | .call op next => ∀ pid choice world,
      L.base (L.perform pid op choice world).2 = L.base world ∧
        Silent answer (next (L.perform pid op choice world).1)

/-- The effect is still to come. At each step it stays so, and nothing changes above, or the step does what
some choice of the operation would have done. A program without a step stands for a choice that changes
nothing.
-/
def Carried (op : S.I.Op) : Prog L.I (S.I.Answer op) → Prop
  | .done answer => ∃ choice, ∀ pid world, S.perform pid op choice world = (answer, world)
  | .call lower next => ∀ pid choice world,
      (L.base (L.perform pid lower choice world).2 = L.base world ∧
        Carried op (next (L.perform pid lower choice world).1)) ∨
      ∃ above, L.base (L.perform pid lower choice world).2 = (S.perform pid op above (L.base world)).2 ∧
        L.Silent (S.perform pid op above (L.base world)).1 (next (L.perform pid lower choice world).1)

structure Sound : Prop where
  carried : ∀ op, L.Carried op (L.carry op)
  background : ∀ pid op choice world, L.background pid op world = true →
    ∃ above choice', S.background pid above (L.base world) = true ∧
      L.base (L.perform pid op choice world).2 = (S.perform pid above choice' (L.base world)).2
  leave : ∀ pid world, L.base (L.leave pid world) = S.leave pid (L.base world)
  env : ∀ event world, L.base (L.env event world) = S.env event (L.base world)

/-- What the two systems agree on at a moment. A call may have taken its last effect, and so have returned
above, while below it has some steps to go.
-/
structure Matches (lower : L.system.State) (upper : S.State) : Prop where
  world : L.base lower.view.world = upper.view.world
  next : lower.next = upper.next
  started : ∀ pid call, (.started pid call : L.system.Entry) ∈ lower.view.log ↔
    (.started pid call : S.Entry) ∈ upper.view.log
  returned : ∀ pid reply, (.returned pid reply : L.system.Entry) ∈ lower.view.log →
    (.returned pid reply : S.Entry) ∈ upper.view.log
  ended : ∀ pid, lower.process pid = none → upper.process pid = none

end Lowering

/-- Processes that are not at work have left nothing behind and have no helpers. -/
def System.State.Tidy {S : System} (state : S.State) : Prop := ∀ pid, state.process pid = none →
  S.leave pid state.view.world = state.view.world ∧ ∀ op, S.background pid op state.view.world = false

namespace System

variable {S : System}

/-! ## One process among the others -/

/-- This program is left of the call, and if it is at its end the reply is in the log. -/
def State.Running (state : S.State) (pid : Nat) (call : S.Call) : Prog S.I S.Reply → Prop
  | .done reply => state.process pid = none ∧ .returned pid reply ∈ state.view.log
  | .call op next => state.process pid = some ⟨call, .call op next⟩

/-- Only this process has gone on, with calls that were there. -/
structure State.Continues (before : S.State) (pid : Nat) (after : S.State) : Prop where
  next : after.next = before.next
  others : ∀ other, other ≠ pid → after.process other = before.process other
  kept : before.view.log ⊆ after.view.log
  started : ∀ other call, .started other call ∈ after.view.log → .started other call ∈ before.view.log

theorem State.Continues.refl (state : S.State) (pid : Nat) : state.Continues pid state :=
  ⟨rfl, fun _ _ => rfl, List.Subset.refl _, fun _ _ => id⟩

theorem State.Continues.trans {before middle after : S.State} {pid : Nat} (first : before.Continues pid middle)
    (second : middle.Continues pid after) : before.Continues pid after where
  next := second.next.trans first.next
  others other differ := (second.others other differ).trans (first.others other differ)
  kept := List.Subset.trans first.kept second.kept
  started other call member := first.started other call (second.started other call member)

theorem State.running_settle (state : S.State) (pid : Nat) (call : S.Call) (rest : Prog S.I S.Reply) :
    (state.settle pid call rest).Running pid call rest := by
  cases rest with
  | done reply => exact ⟨Function.update_self .., List.mem_cons_self⟩
  | call op next => exact Function.update_self ..

theorem State.continues_settle (state : S.State) (pid : Nat) (call : S.Call) (rest : Prog S.I S.Reply) :
    state.Continues pid (state.settle pid call rest) := by
  cases rest with
  | done reply =>
    refine ⟨rfl, fun other differ => Function.update_of_ne differ .., List.subset_cons_self _ _, ?_⟩
    intro other call' member
    exact (List.mem_cons.mp member).resolve_left nofun
  | call op next =>
    exact ⟨rfl, fun other differ => Function.update_of_ne differ .., List.Subset.refl _, fun _ _ => id⟩

theorem State.continues_performs (state : S.State) (pid : Nat) (call : S.Call) (helper : Bool) (op : S.I.Op)
    (choice : S.Choice) :
    state.Continues pid { state with view := state.view.performs pid call helper op choice } := by
  refine ⟨rfl, fun _ _ => rfl, List.subset_cons_self _ _, fun other call' member => ?_⟩
  exact (List.mem_cons.mp member).resolve_left nofun

theorem State.continues_crash (state : S.State) (pid : Nat) : state.Continues pid { state with
    view := ⟨S.leave pid state.view.world, .crashed pid :: state.view.log⟩
    process := Function.update state.process pid none } := by
  refine ⟨rfl, fun other differ => Function.update_of_ne differ .., List.subset_cons_self _ _, ?_⟩
  exact fun other call' member => (List.mem_cons.mp member).resolve_left nofun

/-- A process performs its next operation. -/
theorem State.Running.act {state : S.State} {pid : Nat} {call : S.Call} {op : S.I.Op}
    {next : S.I.Answer op → Prog S.I S.Reply} (running : state.Running pid call (.call op next))
    (choice : S.Choice) :
    (step state (.act pid choice)).view.world = (S.perform pid op choice state.view.world).2 ∧
      state.Continues pid (step state (.act pid choice)) ∧
      (step state (.act pid choice)).Running pid call (next (S.perform pid op choice state.view.world).1) := by
  have found : state.process pid = some ⟨call, .call op next⟩ := running
  have eq : step state (.act pid choice) = State.settle
      { state with view := state.view.performs pid call false op choice } pid call
      (next (S.perform pid op choice state.view.world).1) := by
    simp only [step, found]
  rw [eq]
  exact ⟨State.settle_world .., (State.continues_performs ..).trans (State.continues_settle ..),
    State.running_settle ..⟩

end System

namespace Lowering

open Concurrency.System

variable {S : System} {L : Lowering S}

/-! ## Programs by their parts -/

theorem Silent.bind {α β : Type} {value : β} {answer : α} {part : Prog L.I β} {rest : β → Prog L.I α}
    (first : L.Silent value part) (second : L.Silent answer (rest value)) : L.Silent answer (part >>= rest) := by
  induction part with
  | done result =>
    obtain rfl : result = value := first
    exact second
  | call op next ih => exact fun pid choice world => ⟨(first pid choice world).1, ih _ (first pid choice world).2⟩

/-- A program that changes nothing above carries out an operation that may change nothing and answer so. -/
theorem Silent.carried {op : S.I.Op} {answer : S.I.Answer op} {part : Prog L.I (S.I.Answer op)}
    (silent : L.Silent answer part) {choice : S.Choice}
    (same : ∀ pid world, S.perform pid op choice world = (answer, world)) : L.Carried op part := by
  induction part with
  | done result =>
    obtain rfl : result = answer := silent
    exact ⟨choice, same⟩
  | call lower next ih =>
    exact fun pid choice world => .inl ⟨(silent pid choice world).1, ih _ (silent pid choice world).2⟩

/-- What is done with the answer and hands it on unchanged does not show above. -/
theorem Carried.bind {op : S.I.Op} {part : Prog L.I (S.I.Answer op)} {rest : S.I.Answer op → Prog L.I (S.I.Answer op)}
    (carried : L.Carried op part) (silent : ∀ answer, L.Silent answer (rest answer)) :
    L.Carried op (part >>= rest) := by
  induction part with
  | done answer =>
    obtain ⟨choice, same⟩ := carried
    exact (silent answer).carried same
  | call lower next ih =>
    intro pid choice world
    rcases carried pid choice world with ⟨unchanged, later⟩ | ⟨above, effect, later⟩
    · exact .inl ⟨unchanged, ih _ later⟩
    · -- from its effect on the part is silent, and so is what follows it
      exact .inr ⟨above, effect, later.bind (silent _)⟩

/-! ## One process on both levels -/

/-- How the program that is left below stands to the one that is left above: within an operation, before its
effect or behind it.
-/
inductive Behind : Prog L.I S.Reply → Prog S.I S.Reply → Prop where
  | before {op : S.I.Op} {next : S.I.Answer op → Prog S.I S.Reply} {part : Prog L.I (S.I.Answer op)}
      (carried : L.Carried op part) :
      Behind (part >>= fun answer => (next answer).via L.carry) (.call op next)
  | behind {α : Type} {answer : α} {rest : α → Prog S.I S.Reply} {part : Prog L.I α}
      (silent : L.Silent answer part) : Behind (part >>= fun value => (rest value).via L.carry) (rest answer)

/-- The program below has another step to take within its operation. -/
inductive Ready : Prog L.I S.Reply → Prog S.I S.Reply → Prop where
  | before {op : S.I.Op} {next : S.I.Answer op → Prog S.I S.Reply} {lower : L.I.Op}
      {left : L.I.Answer lower → Prog L.I (S.I.Answer op)} (carried : L.Carried op (.call lower left)) :
      Ready (.call lower fun found => left found >>= fun answer => (next answer).via L.carry) (.call op next)
  | behind {α : Type} {answer : α} {rest : α → Prog S.I S.Reply} {lower : L.I.Op}
      {left : L.I.Answer lower → Prog L.I α} (silent : L.Silent answer (.call lower left)) :
      Ready (.call lower fun found => left found >>= fun value => (rest value).via L.carry) (rest answer)

theorem behind_via (sound : L.Sound) (program : Prog S.I S.Reply) : Behind (L := L) (program.via L.carry) program := by
  cases program with
  | done reply => exact @Behind.behind S L Unit () (fun _ => .done reply) (.done ()) rfl
  | call op next => exact .before (sound.carried op)

/-- The process is where the program below has it, up to what the program above may do by itself. -/
def Level (lower : Prog L.I S.Reply) (state : S.State) (pid : Nat) (call : S.Call) : Prop :=
  (∃ reply, lower = .done reply ∧ state.Running pid call (.done reply)) ∨
    ∃ upper, Ready (L := L) lower upper ∧ state.Running pid call upper

/-- What is reached by operations of one process that change nothing. -/
def Reaches (state : S.State) (pid : Nat) (good : S.State → Prop) : Prop :=
  ∃ labels, (run state labels).view.world = state.view.world ∧ state.Continues pid (run state labels) ∧
    good (run state labels)

/-- An operation that is carried out by nothing at all is performed above. -/
theorem reaches_of_done {pid : Nat} {call : S.Call} {op : S.I.Op} {next : S.I.Answer op → Prog S.I S.Reply}
    {answer : S.I.Answer op} {good : S.State → Prop} (carried : L.Carried op (.done answer))
    (goes : ∀ state : S.State, state.Running pid call (next answer) → Reaches state pid good)
    {state : S.State} (running : state.Running pid call (.call op next)) : Reaches state pid good := by
  obtain ⟨choice, unchanged⟩ := carried
  obtain ⟨world, continues, running'⟩ := running.act choice
  rw [unchanged pid state.view.world] at world running'
  obtain ⟨labels, world', continues', good'⟩ := goes _ running'
  exact ⟨.act pid choice :: labels, world'.trans world, continues.trans continues', good'⟩

theorem reaches_self {pid : Nat} {good : S.State → Prop} {state : S.State} (holds : good state) :
    Reaches state pid good :=
  ⟨[], rfl, .refl state pid, holds⟩

theorem reaches_via (sound : L.Sound) {pid : Nat} {call : S.Call} (program : Prog S.I S.Reply) (state : S.State)
    (running : state.Running pid call program) :
    Reaches state pid fun after => Level (L := L) (program.via L.carry) after pid call := by
  induction program generalizing state with
  | done reply => exact reaches_self (.inl ⟨reply, rfl, running⟩)
  | call op next ih =>
    have carried := sound.carried op
    rw [Prog.via]
    -- an operation without a step below is performed above at once, and then the next one is looked at
    cases part : L.carry op with
    | done answer =>
      rw [part] at carried
      exact reaches_of_done carried (fun state => ih answer state) running
    | call lower left =>
      rw [part] at carried
      exact reaches_self (.inr ⟨_, .before carried, running⟩)

theorem Behind.reaches (sound : L.Sound) {pid : Nat} {call : S.Call} {lower : Prog L.I S.Reply}
    {upper : Prog S.I S.Reply} (behind : Behind (L := L) lower upper) {state : S.State}
    (running : state.Running pid call upper) :
    Reaches state pid fun after => Level (L := L) lower after pid call := by
  cases behind with
  | @before op next part carried =>
    cases part with
    | done answer => exact reaches_of_done carried (reaches_via sound (next answer)) running
    | call lower left => exact reaches_self (.inr ⟨_, .before carried, running⟩)
  | @behind α answer rest part silent =>
    cases part with
    | done value =>
      obtain rfl : value = answer := silent
      exact reaches_via sound (rest value) state running
    | call lower left => exact reaches_self (.inr ⟨_, .behind silent, running⟩)

/-! ## All processes -/

structure Simulates (lower : L.system.State) (upper : S.State) : Prop extends L.Matches lower upper where
  process : ∀ pid call rest, lower.process pid = some ⟨call, rest⟩ →
    ∃ above, Ready (L := L) rest above ∧ upper.Running pid call above

/-- The same, but for the process that has a step to settle. -/
structure Beside (pid : Nat) (lower : L.system.State) (upper : S.State) : Prop where
  next : lower.next = upper.next
  started : ∀ pid call, (.started pid call : L.system.Entry) ∈ lower.view.log ↔
    (.started pid call : S.Entry) ∈ upper.view.log
  returned : ∀ pid reply, (.returned pid reply : L.system.Entry) ∈ lower.view.log →
    (.returned pid reply : S.Entry) ∈ upper.view.log
  ended : ∀ other, other ≠ pid → lower.process other = none → upper.process other = none
  process : ∀ other call rest, other ≠ pid → lower.process other = some ⟨call, rest⟩ →
    ∃ above, Ready (L := L) rest above ∧ upper.Running other call above

variable {lower : L.system.State} {upper : S.State} {pid : Nat}

theorem Simulates.beside (simulates : Simulates lower upper) (pid : Nat) : Beside pid lower upper where
  next := simulates.next
  started := simulates.started
  returned := simulates.returned
  ended other _ := simulates.ended other
  process other call rest _ := simulates.process other call rest

theorem Running.continues {after : S.State} {other : Nat} {call : S.Call} {program : Prog S.I S.Reply}
    (running : upper.Running other call program) (continues : upper.Continues pid after) (differ : other ≠ pid) :
    after.Running other call program := by
  cases program with
  | done reply => exact ⟨(continues.others other differ).trans running.1, continues.kept running.2⟩
  | call op next => exact (continues.others other differ).trans running

theorem Beside.continues {after : S.State} (beside : Beside pid lower upper) (continues : upper.Continues pid after) :
    Beside pid lower after where
  next := beside.next.trans continues.next.symm
  started other call :=
    ⟨fun below => continues.kept ((beside.started other call).mp below),
      fun above => (beside.started other call).mpr (continues.started other call above)⟩
  returned other reply below := continues.kept (beside.returned other reply below)
  ended other differ idle := (continues.others other differ).trans (beside.ended other differ idle)
  process other call rest differ found := by
    obtain ⟨above, ready, running⟩ := beside.process other call rest differ found
    exact ⟨above, ready, Running.continues running continues differ⟩

/-- Only this process has gone on below, and if it has returned, so it has above. -/
theorem Beside.below {after : L.system.State} (beside : Beside pid lower upper) (continues : lower.Continues pid after)
    (returned : ∀ other reply, .returned other reply ∈ after.view.log →
      .returned other reply ∈ lower.view.log ∨ (.returned other reply : S.Entry) ∈ upper.view.log) :
    Beside pid after upper where
  next := continues.next.trans beside.next
  started other call :=
    ⟨fun below => (beside.started other call).mp (continues.started other call below),
      fun above => continues.kept ((beside.started other call).mpr above)⟩
  returned other reply member := (returned other reply member).elim (beside.returned other reply) id
  ended other differ idle := beside.ended other differ ((continues.others other differ).symm.trans idle)
  process other call rest differ found :=
    beside.process other call rest differ ((continues.others other differ).symm.trans found)

theorem Beside.performs (beside : Beside pid lower upper) (call : S.Call) (helper : Bool) (op : L.I.Op)
    (choice : L.Choice) :
    Beside pid { lower with view := lower.view.performs pid call helper op choice } upper :=
  beside.below (State.continues_performs ..) fun _ _ member => .inl ((List.mem_cons.mp member).resolve_left nofun)

/-- What both levels have of the process itself. -/
inductive Own (lower : L.system.State) (upper : S.State) (pid : Nat) : Prop where
  | idle (below : lower.process pid = none) (above : upper.process pid = none)
  | busy {call : S.Call} {rest : Prog L.I S.Reply} {above : Prog S.I S.Reply}
      (below : lower.process pid = some ⟨call, rest⟩) (ready : Ready (L := L) rest above)
      (running : upper.Running pid call above)

theorem Beside.close (beside : Beside pid lower upper) (world : L.base lower.view.world = upper.view.world)
    (own : Own lower upper pid) : Simulates lower upper := by
  refine ⟨⟨world, beside.next, beside.started, beside.returned, fun other idle => ?_⟩, fun other call rest found => ?_⟩
  · by_cases same : other = pid
    · subst same
      cases own with
      | idle below above => exact above
      | busy below ready running => exact nomatch below.symm.trans idle
    · exact beside.ended other same idle
  · by_cases same : other = pid
    · subst same
      cases own with
      | idle below above => exact nomatch below.symm.trans found
      | busy below ready running =>
        cases below.symm.trans found
        exact ⟨_, ready, running⟩
    · exact beside.process other call rest same found

theorem Beside.settle (beside : Beside pid lower upper) (world : L.base lower.view.world = upper.view.world)
    {call : S.Call} {rest : Prog L.I S.Reply} (level : Level (L := L) rest upper pid call) :
    Simulates (lower.settle pid call rest) upper := by
  have world' : L.base (lower.settle pid call rest).view.world = upper.view.world :=
    (congrArg L.base (State.settle_world lower pid call rest)).trans world
  rcases level with ⟨reply, rfl, running⟩ | ⟨above, ready, running⟩
  · refine Beside.close (beside.below (State.continues_settle lower pid call _) fun other reply' member => ?_) world'
      (.idle (Function.update_self ..) running.1)
    rcases List.mem_cons.mp member with same | before
    · cases same
      exact .inr running.2
    · exact .inl before
  · -- the program below has a next step, and is kept
    have step : ∃ op next, rest = .call op next := by
      cases ready <;> exact ⟨_, _, rfl⟩
    obtain ⟨op, next, rfl⟩ := step
    exact Beside.close (beside.below (State.continues_settle lower pid call _) fun _ _ => .inl) world'
      (.busy (Function.update_self ..) ready running)

/-- The program above does by itself what the one below does not show. -/
theorem Beside.reaches (sound : L.Sound) (beside : Beside pid lower upper)
    (world : L.base lower.view.world = upper.view.world) {call : S.Call} {rest : Prog L.I S.Reply}
    {above : Prog S.I S.Reply} (behind : Behind (L := L) rest above) (running : upper.Running pid call above) :
    ∃ labels, Simulates (lower.settle pid call rest) (run upper labels) := by
  obtain ⟨labels, same, continues, level⟩ := behind.reaches sound running
  exact ⟨labels, (beside.continues continues).settle (world.trans same.symm) level⟩

/-! ## Steps -/

theorem Simulates.start (sound : L.Sound) (simulates : Simulates lower upper) (call : S.Call) :
    ∃ labels, Simulates (step lower (.start call)) (run upper labels) := by
  let begun : S.State := { upper with view := upper.view.push (.started upper.next call), next := upper.next + 1 }
  have running : (begun.settle upper.next call (S.program call)).Running upper.next call (S.program call) :=
    State.running_settle ..
  -- no process has had this number, on either level
  have beside : Beside (L := L) upper.next { lower with
      view := lower.view.push (.started lower.next call), next := lower.next + 1 } begun := by
    refine ⟨congrArg (· + 1) simulates.next, fun other call' => ?_, fun other reply member => ?_, ?_, ?_⟩
    · have before := simulates.started other call'
      simp only [View.push_log, List.mem_cons, Entry.started.injEq, begun, before, simulates.next]
    · have before := (List.mem_cons.mp member).resolve_left nofun
      exact List.mem_cons_of_mem _ (simulates.returned other reply before)
    · exact fun other _ => simulates.ended other
    · intro other call' rest _ found
      obtain ⟨above, ready, running⟩ := simulates.process other call' rest found
      refine ⟨above, ready, ?_⟩
      cases above with
      | done reply => exact ⟨running.1, List.mem_cons_of_mem _ running.2⟩
      | call op next => exact running
  have continues := State.continues_settle begun upper.next call (S.program call)
  have world : L.base lower.view.world = (begun.settle upper.next call (S.program call)).view.world :=
    simulates.world.trans (State.settle_world begun upper.next call (S.program call)).symm
  obtain ⟨labels, done⟩ := (beside.continues continues).reaches sound world
    (behind_via sound (S.program call)) running
  refine ⟨.start call :: labels, ?_⟩
  rw [show step lower (.start call) = State.settle (S := L.system) { lower with
    view := lower.view.push (.started lower.next call), next := lower.next + 1 } upper.next call
      ((S.program call).via L.carry) by rw [← simulates.next]; rfl]
  exact done

theorem Simulates.act (sound : L.Sound) (simulates : Simulates lower upper) (pid : Nat) (choice : L.Choice) :
    ∃ labels, Simulates (step lower (.act pid choice)) (run upper labels) := by
  cases found : lower.process pid with
  | none =>
    refine ⟨[], ?_⟩
    rw [run_nil]
    simpa only [step, found] using simulates
  | some process =>
    obtain ⟨call, rest⟩ := process
    obtain ⟨above, ready, running⟩ := simulates.process pid call rest found
    cases ready with
    | @before op next lowerOp left carried =>
      have eq : step lower (.act pid choice) = State.settle (S := L.system)
          { lower with view := lower.view.performs pid call false lowerOp choice } pid call
          (left (L.perform pid lowerOp choice lower.view.world).1 >>= fun answer => (next answer).via L.carry) := by
        simp only [step, found]
      have beside := (simulates.beside pid).performs call false lowerOp choice
      rw [eq]
      rcases carried pid choice lower.view.world with ⟨same, carried⟩ | ⟨taken, effect, silent⟩
      · -- a step before the effect: nothing happens above
        exact beside.reaches sound (same.trans simulates.world) (.before carried) running
      · -- the point at which the operation takes effect above
        obtain ⟨world, continues, running⟩ := running.act taken
        rw [← simulates.world] at world running
        obtain ⟨labels, done⟩ := (beside.continues continues).reaches sound (effect.trans world.symm)
          (.behind silent) running
        exact ⟨.act pid taken :: labels, done⟩
    | @behind α answer after lowerOp left silent =>
      have eq : step lower (.act pid choice) = State.settle (S := L.system)
          { lower with view := lower.view.performs pid call false lowerOp choice } pid call
          (left (L.perform pid lowerOp choice lower.view.world).1 >>= fun value => (after value).via L.carry) := by
        simp only [step, found]
      have beside := (simulates.beside pid).performs call false lowerOp choice
      obtain ⟨same, silent⟩ := silent pid choice lower.view.world
      rw [eq]
      exact beside.reaches sound (same.trans simulates.world) (.behind silent) running

theorem Simulates.background (sound : L.Sound) (tidy : upper.Tidy) (simulates : Simulates lower upper) (pid : Nat)
    (op : L.I.Op) (choice : L.Choice) :
    ∃ labels, Simulates (step lower (.background pid op choice)) (run upper labels) := by
  have stays : step lower (.background pid op choice) = lower →
      ∃ labels, Simulates (step lower (.background pid op choice)) (run upper labels) :=
    fun same => ⟨[], by rw [same]; exact simulates⟩
  cases found : lower.process pid with
  | none => exact stays (by simp only [step, found])
  | some process =>
    by_cases permitted : L.background pid op lower.view.world = true
    · obtain ⟨call, rest⟩ := process
      obtain ⟨above, ready, running⟩ := simulates.process pid call rest found
      obtain ⟨aboveOp, aboveChoice, may, effect⟩ := sound.background pid op choice lower.view.world permitted
      rw [simulates.world] at may effect
      cases above with
      | done reply =>
        -- a call that has returned above has no helpers any more
        rw [(tidy pid running.1).2] at may
        cases may
      | call upperOp next =>
        have here : upper.process pid = some ⟨call, .call upperOp next⟩ := running
        refine ⟨[.background pid aboveOp aboveChoice], ?_⟩
        rw [run_cons, run_nil]
        simp only [step, found, permitted, here, may, if_true]
        exact (((simulates.beside pid).performs call true op choice).continues
          (State.continues_performs upper pid call true aboveOp aboveChoice)).close effect (.busy found ready here)
    · exact stays (by simp only [step, found, permitted]; rfl)

theorem Simulates.crash (sound : L.Sound) (tidy : upper.Tidy) (simulates : Simulates lower upper) (pid : Nat) :
    ∃ labels, Simulates (step lower (.crash pid)) (run upper labels) := by
  cases found : lower.process pid with
  | none =>
    refine ⟨[], ?_⟩
    rw [run_nil]
    simpa only [step, found] using simulates
  | some process =>
    obtain ⟨call, rest⟩ := process
    obtain ⟨above, ready, running⟩ := simulates.process pid call rest found
    have left := sound.leave pid lower.view.world
    rw [simulates.world] at left
    have beside := (simulates.beside pid).below (State.continues_crash lower pid)
      fun _ _ member => .inl ((List.mem_cons.mp member).resolve_left fun same => by cases same)
    cases above with
    | done reply =>
      -- above it has returned already, and has left nothing behind
      refine ⟨[], ?_⟩
      rw [(tidy pid running.1).1] at left
      rw [run_nil]
      simp only [step, found]
      exact beside.close left (.idle (Function.update_self ..) running.1)
    | call upperOp next =>
      have here : upper.process pid = some ⟨call, .call upperOp next⟩ := running
      refine ⟨[.crash pid], ?_⟩
      rw [run_cons, run_nil]
      simp only [step, found, here]
      exact (beside.continues (State.continues_crash upper pid)).close left
        (.idle (Function.update_self ..) (Function.update_self ..))

theorem Simulates.env (sound : L.Sound) (simulates : Simulates lower upper) (event : S.Env) :
    Simulates (step lower (.env event)) (step upper (.env event)) where
  world := (sound.env event lower.view.world).trans (congrArg (S.env event) simulates.world)
  next := simulates.next
  started := simulates.started
  returned := simulates.returned
  ended := simulates.ended
  process pid call rest found := by
    obtain ⟨above, ready, running⟩ := simulates.process pid call rest found
    refine ⟨above, ready, ?_⟩
    cases above with
    | done reply => exact running
    | call op next => exact running

theorem Simulates.step (sound : L.Sound) (tidy : upper.Tidy) (simulates : Simulates lower upper)
    (label : L.system.Label) : ∃ labels, Simulates (System.step lower label) (run upper labels) := by
  cases label with
  | start call => exact simulates.start sound call
  | act pid choice => exact simulates.act sound pid choice
  | background pid op choice => exact simulates.background sound tidy pid op choice
  | crash pid => exact simulates.crash sound tidy pid
  | env event => exact ⟨[.env event], simulates.env sound event⟩

/-! ## Runs -/

theorem simulates_initial (world : L.World) :
    Simulates (initial world : L.system.State) (initial (L.base world)) where
  world := rfl
  next := rfl
  started _ _ := ⟨fun member => (List.not_mem_nil member).elim, fun member => (List.not_mem_nil member).elim⟩
  returned _ _ member := nomatch member
  ended _ _ := rfl
  process _ _ _ found := nomatch found

/-- Step by step, a run below is a run above: each step below comes to some steps above, and the two match
after each of them.
-/
theorem matches_run (sound : L.Sound) (world : L.World)
    (tidy : ∀ labels, (run (initial (L.base world)) labels).Tidy) (labels : List L.system.Label) :
    ∃ segments : List (List S.Label), segments.length = labels.length ∧
      ∀ n, L.Matches (run (initial world) (labels.take n)) (run (initial (L.base world)) (segments.take n).flatten) := by
  have both : ∃ segments : List (List S.Label), segments.length = labels.length ∧ ∀ n,
      Simulates (run (initial world : L.system.State) (labels.take n))
        (run (initial (L.base world)) (segments.take n).flatten) := by
    induction labels using List.reverseRecOn with
    | nil => exact ⟨[], rfl, fun n => by simpa using simulates_initial world⟩
    | append_singleton labels label ih =>
      obtain ⟨segments, same, simulates⟩ := ih
      have last := simulates labels.length
      rw [List.take_length, ← same, List.take_length] at last
      obtain ⟨segment, next⟩ := last.step sound (tidy segments.flatten) label
      refine ⟨segments ++ [segment], by simp [same], fun n => ?_⟩
      by_cases before : n ≤ labels.length
      · rw [List.take_append_of_le_length before, List.take_append_of_le_length (same ▸ before)]
        exact simulates n
      · rw [List.take_of_length_le (by simp; omega), List.take_of_length_le (by simp; omega), run_concat,
          List.flatten_append, List.flatten_singleton, run_append]
        exact next
  obtain ⟨segments, same, simulates⟩ := both
  exact ⟨segments, same, fun n => (simulates n).toMatches⟩

end Lowering

end Concurrency
