import Mathlib.Order.Defs.PartialOrder
import Text2Image.Concurrency.Preservation

/-! What can be observed of the world in the course of a run: a measure that never
falls, and a fact that only certain events bring about.
-/

set_option autoImplicit false

namespace Concurrency.System

variable {S : System}

/-! ## What never falls -/

section Rising

variable {α : Type} [Preorder α] {condition : Condition S} {measure : S.World → α}

/-- No step that the condition admits lowers the measure. -/
structure Rises (condition : Condition S) (measure : S.World → α) : Prop where
  performs : ∀ pid call op choice view, AsksFor S call (history pid view.log) op →
    condition.performs pid call op choice view →
    measure view.world ≤ measure (S.perform pid op choice view.world).2
  helps : ∀ pid call op choice view, S.background pid op view.world = true →
    condition.performs pid call op choice view →
    measure view.world ≤ measure (S.perform pid op choice view.world).2
  leave : ∀ pid world, measure world ≤ measure (S.leave pid world)
  env : ∀ event view, condition.env event view → measure view.world ≤ measure (S.env event view.world)

/-- The measure is at least what it was at the start and after every event so far,
now and before every later event. -/
structure Risen (measure : S.World → α) (start : S.World) (view : S.View) : Prop where
  started : measure start ≤ measure view.world
  startedBefore : ∀ event, .performed event ∈ view.log → measure start ≤ measure event.before
  now : ∀ event, .performed event ∈ view.log → measure event.after ≤ measure view.world
  later : ∀ newer event older, view.log = newer ++ .performed event :: older →
    ∀ next, .performed next ∈ newer → measure event.after ≤ measure next.before

theorem Risen.initial (start : S.World) : Risen measure start (System.initial start).view where
  started := le_refl _
  startedBefore := by simp [System.initial]
  now := by simp [System.initial]
  later newer event older split := by cases newer <;> cases split

/-- The world moves on without an event. -/
theorem Risen.passes {start : S.World} {view : S.View} (risen : Risen measure start view)
    {world : S.World} (rises : measure view.world ≤ measure world) :
    Risen measure start ⟨world, view.log⟩ where
  started := le_trans risen.started rises
  startedBefore := risen.startedBefore
  now event member := le_trans (risen.now event member) rises
  later := risen.later

/-- An entry that is no operation joins the log. -/
theorem Risen.push {start : S.World} {view : S.View} (risen : Risen measure start view)
    {entry : S.Entry} (silent : ∀ event, entry ≠ .performed event) :
    Risen measure start (view.push entry) where
  started := risen.started
  startedBefore event member :=
    risen.startedBefore event ((List.mem_cons.mp member).resolve_left fun same => silent event same.symm)
  now event member :=
    risen.now event ((List.mem_cons.mp member).resolve_left fun same => silent event same.symm)
  later newer event older split next member := by
    cases newer with
    | nil => cases member
    | cons first newer =>
      obtain ⟨rfl, rest⟩ := List.cons.inj split
      refine risen.later newer event older rest next ?_
      exact (List.mem_cons.mp member).resolve_left fun same => silent next same.symm

theorem Risen.performs {start : S.World} {view : S.View} (risen : Risen measure start view)
    {pid : Nat} {call : S.Call} {helper : Bool} {op : S.I.Op} {choice : S.Choice}
    (rises : measure view.world ≤ measure (S.perform pid op choice view.world).2) :
    Risen measure start (view.performs pid call helper op choice) where
  started := le_trans risen.started rises
  startedBefore event member := by
    rcases List.mem_cons.mp member with same | old
    · cases same
      exact risen.started
    · exact risen.startedBefore event old
  now event member := by
    rcases List.mem_cons.mp member with same | old
    · cases same
      exact le_refl _
    · exact le_trans (risen.now event old) rises
  later newer event older split next member := by
    cases newer with
    | nil => cases member
    | cons first newer =>
      obtain ⟨rfl, rest⟩ := List.cons.inj split
      rcases List.mem_cons.mp member with same | old
      · -- the newest event has found the world of the view
        cases same
        exact risen.now event (rest ▸ by simp)
      · exact risen.later newer event older rest next old

theorem Rises.upheld (rises : Rises condition measure) (start : S.World) :
    Upheld condition (Risen measure start) where
  performed view pid call op next choice _ risen _ leads meets :=
    risen.performs (rises.performs pid call op choice view ⟨next, leads⟩ meets)
  background view pid call op choice _ risen _ permitted meets :=
    risen.performs (rises.helps pid call op choice view permitted meets)
  started view pid call risen _ _ := risen.push fun event same => by cases same
  returned view pid call reply risen _ _ := risen.push fun event same => by cases same
  crashed view pid risen :=
    (risen.push fun event same => by cases same).passes (rises.leave pid view.world)
  env view event risen meets := risen.passes (rises.env event view meets)

/-- Every run that meets the condition raises the measure only. -/
theorem Rises.run (rises : Rises condition measure) (world : S.World) (labels : List S.Label)
    (meets : Meets condition (initial world) labels) :
    Risen measure world (System.run (initial world) labels).view :=
  (rises.upheld world).run world [] labels (.initial world) meets

end Rising

/-! ## What is brought about -/

section Brought

variable {holds : S.World → Prop} {brings : S.Event → Prop}

/-- Only these events can make the fact hold. -/
structure BroughtBy (holds : S.World → Prop) (brings : S.Event → Prop) : Prop where
  performed : ∀ event : S.Event, event.Genuine → holds event.after → holds event.before ∨ brings event
  leave : ∀ pid world, holds (S.leave pid world) → holds world
  env : ∀ event world, holds (S.env event world) → holds world

/-- The fact holds before and after every one of these events. -/
def Lasts (holds : S.World → Prop) (log : List S.Entry) : Prop :=
  ∀ event, .performed event ∈ log → holds event.before ∧ holds event.after

/-- If the fact holds, then since the start, or since an event that has brought it about. -/
def Traced (holds : S.World → Prop) (brings : S.Event → Prop) (start world : S.World)
    (log : List S.Entry) : Prop :=
  holds world → (holds start ∧ Lasts holds log) ∨
    ∃ newer event older, log = newer ++ .performed event :: older ∧ brings event ∧ Lasts holds newer

theorem Lasts.cons {log : List S.Entry} {entry : S.Entry} (lasts : Lasts holds log)
    (newest : ∀ event, entry = .performed event → holds event.before ∧ holds event.after) :
    Lasts holds (entry :: log) := by
  intro event member
  rcases List.mem_cons.mp member with same | old
  · exact newest event same.symm
  · exact lasts event old

/-- One more entry, which keeps what holds. -/
theorem Traced.cons {start world after : S.World} {log : List S.Entry} {entry : S.Entry}
    (traced : Traced holds brings start world log) (kept : holds after → holds world)
    (newest : ∀ event, entry = .performed event → event.before = world ∧ event.after = after) :
    Traced holds brings start after (entry :: log) := by
  intro now
  have both : ∀ event, entry = .performed event → holds event.before ∧ holds event.after := by
    intro event same
    obtain ⟨before, after⟩ := newest event same
    exact ⟨before ▸ kept now, after ▸ now⟩
  rcases traced (kept now) with ⟨first, lasts⟩ | ⟨newer, event, older, rfl, brought, lasts⟩
  · exact .inl ⟨first, lasts.cons both⟩
  · exact .inr ⟨entry :: newer, event, older, rfl, brought, lasts.cons both⟩

/-- What holds now, and what held before any event, is traced. -/
structure AllTraced (holds : S.World → Prop) (brings : S.Event → Prop) (start : S.World)
    (view : S.View) : Prop where
  now : Traced holds brings start view.world view.log
  before : ∀ newer event older, view.log = newer ++ .performed event :: older →
    Traced holds brings start event.before older

theorem AllTraced.push {start world : S.World} {view : S.View} {entry : S.Entry}
    (traced : AllTraced holds brings start view) (silent : ∀ event, entry ≠ .performed event)
    (kept : holds world → holds view.world) :
    AllTraced holds brings start ⟨world, entry :: view.log⟩ where
  now := traced.now.cons kept fun event same => (silent event same).elim
  before newer event older split := by
    cases newer with
    | nil => exact (silent event (List.cons.inj split).1).elim
    | cons first newer => exact traced.before newer event older (List.cons.inj split).2

theorem AllTraced.performs (by' : BroughtBy holds brings) {start : S.World} {view : S.View}
    (traced : AllTraced holds brings start view) (pid : Nat) (call : S.Call) (helper : Bool)
    (op : S.I.Op) (choice : S.Choice) :
    AllTraced holds brings start (view.performs pid call helper op choice) where
  now := by
    let event := view.event pid call helper op choice
    intro now
    rcases by'.performed event rfl now with before | brought
    · refine traced.now.cons (fun _ => before) ?_ now
      intro _ same
      cases same
      exact ⟨rfl, rfl⟩
    · refine .inr ⟨[], event, view.log, rfl, brought, ?_⟩
      intro _ member
      cases member
  before newer event older split := by
    cases newer with
    | nil =>
      obtain ⟨same, rfl⟩ := List.cons.inj split
      cases same
      exact traced.now
    | cons first newer => exact traced.before newer event older (List.cons.inj split).2

theorem BroughtBy.upheld (by' : BroughtBy holds brings) (start : S.World) :
    Upheld .free (AllTraced holds brings start) where
  performed view pid call op _ choice _ traced _ _ _ := traced.performs by' pid call false op choice
  background view pid call op choice _ traced _ _ _ := traced.performs by' pid call true op choice
  started view pid call traced _ _ := traced.push (fun event same => by cases same) id
  returned view pid call reply traced _ _ := traced.push (fun event same => by cases same) id
  crashed view pid traced := traced.push (fun event same => by cases same) (by'.leave pid _)
  env view event traced _ := by
    refine ⟨fun now => ?_, traced.before⟩
    exact traced.now (by'.env event _ now)

/-- In every run, what holds is traced to where it was brought about. -/
theorem BroughtBy.run (by' : BroughtBy holds brings) (world : S.World) (labels : List S.Label) :
    AllTraced holds brings world (System.run (initial world) labels).view := by
  refine (by'.upheld world).run world [] labels ?_ (meets_free _ _)
  constructor
  · intro now
    refine .inl ⟨now, ?_⟩
    intro event member
    cases member
  · intro newer event older split
    cases newer <;> cases split

end Brought

/-! ## What has been met -/

/-- Every operation in the log met the condition when it was performed. -/
def AllMet (condition : Condition S) (log : List S.Entry) : Prop :=
  ∀ newer event older, log = newer ++ .performed event :: older →
    condition.performs event.pid event.call event.op event.choice ⟨event.before, older⟩

theorem AllMet.cons {condition : Condition S} {log : List S.Entry} (met : AllMet condition log)
    {entry : S.Entry} (newest : ∀ event, entry = .performed event →
      condition.performs event.pid event.call event.op event.choice ⟨event.before, log⟩) :
    AllMet condition (entry :: log) := by
  intro newer event older split
  cases newer with
  | nil =>
    obtain ⟨same, rfl⟩ := List.cons.inj split
    exact newest event same
  | cons first newer => exact met newer event older (List.cons.inj split).2

theorem allMet_upheld (condition : Condition S) :
    Upheld condition fun view => AllMet condition view.log where
  performed view pid call op next choice _ met _ _ meets := met.cons fun _ same => by
    cases same
    exact meets
  background view pid call op choice _ met _ _ meets := met.cons fun _ same => by
    cases same
    exact meets
  started view pid call met _ _ := met.cons fun _ same => by cases same
  returned view pid call reply met _ _ := met.cons fun _ same => by cases same
  crashed view pid met := met.cons fun _ same => by cases same
  env view event met _ := met

theorem allMet_run {condition : Condition S} {world : S.World} {labels : List S.Label}
    (meets : Meets condition (initial world) labels) :
    AllMet condition (System.run (initial world) labels).view.log := by
  refine (allMet_upheld condition).run world [] labels ?_ meets
  intro newer event older split
  cases newer <;> cases split

/-! ## What helpers do -/

theorem allGenuine_run (world : S.World) (labels : List S.Label) :
    AllGenuine (System.run (initial world) labels).view.log := by
  have free : S.Obeys fun _ _ _ => True := fun call => (S.program call).follows_free []
  exact ((State.follows_initial (S := S) world).run free labels).genuine

/-- Helper threads have done what they may do, and nothing else. -/
def AllHelped (log : List S.Entry) : Prop :=
  ∀ event, .performed event ∈ log → event.helper = true →
    S.background event.pid event.op event.before = true

theorem AllHelped.cons {log : List S.Entry} (helped : AllHelped log) {entry : S.Entry}
    (newest : ∀ event, entry = .performed event → event.helper = true →
      S.background event.pid event.op event.before = true) : AllHelped (entry :: log) := by
  intro event member
  rcases List.mem_cons.mp member with same | old
  · exact newest event same.symm
  · exact helped event old

theorem allHelped_upheld : Upheld (S := S) .free fun view => AllHelped view.log where
  performed view pid call op next choice _ helped _ _ _ := by
    refine helped.cons fun event same program => ?_
    cases same
    cases program
  background view pid call op choice _ helped _ permitted _ := by
    refine helped.cons fun event same _ => ?_
    cases same
    exact permitted
  started view pid call helped _ _ := helped.cons fun event same => by cases same
  returned view pid call reply helped _ _ := helped.cons fun event same => by cases same
  crashed view pid helped := helped.cons fun event same => by cases same
  env view event helped _ := helped

theorem allHelped_run (world : S.World) (labels : List S.Label) :
    AllHelped (System.run (initial world) labels).view.log := by
  refine allHelped_upheld.run world [] labels ?_ (meets_free _ _)
  intro event member
  cases member

/-! ## Where a call begins -/

/-- A process is new when its call is started, and is given no other. -/
def BegunOnce (log : List S.Entry) : Prop :=
  ∀ newer pid call older, log = newer ++ .started pid call :: older →
    (∀ entry ∈ older, entry.pid ≠ pid) ∧ ∀ other, .started pid other ∉ newer

theorem BegunOnce.cons {log : List S.Entry} (begun : BegunOnce log) {entry : S.Entry}
    (fresh : ∀ pid call, entry = .started pid call → ∀ old ∈ log, old.pid ≠ pid) :
    BegunOnce (entry :: log) := by
  intro newer pid call older split
  cases newer with
  | nil =>
    obtain ⟨rfl, rfl⟩ := List.cons.inj split
    exact ⟨fresh pid call rfl, fun other member => by cases member⟩
  | cons first newer =>
    obtain ⟨rfl, rfl⟩ := List.cons.inj split
    obtain ⟨new, once⟩ := begun newer pid call older rfl
    refine ⟨new, fun other member => ?_⟩
    rcases List.mem_cons.mp member with same | old
    · -- the newest entry would start a process that is there already
      exact fresh pid other same.symm (.started pid call) (by simp) rfl
    · exact once other old

theorem begunOnce_upheld : Upheld (S := S) .free fun view => BegunOnce view.log where
  performed view pid call op next choice _ begun _ _ _ := begun.cons fun _ _ same => by cases same
  background view pid call op choice _ begun _ _ _ := begun.cons fun _ _ same => by cases same
  started view pid call begun unused _ := begun.cons fun _ _ same => by
    cases same
    exact unused
  returned view pid call reply begun _ _ := begun.cons fun _ _ same => by cases same
  crashed view pid begun := begun.cons fun _ _ same => by cases same
  env view event begun _ := begun

theorem begunOnce_run (world : S.World) (labels : List S.Label) :
    BegunOnce (System.run (initial world) labels).view.log := by
  refine begunOnce_upheld.run world [] labels ?_ (meets_free _ _)
  intro newer pid call older split
  cases newer <;> cases split

theorem BegunOnce.suffix {newer older : List S.Entry} (begun : BegunOnce (newer ++ older)) :
    BegunOnce older := by
  intro later pid call first split
  obtain ⟨new, once⟩ := begun (newer ++ later) pid call first (by rw [split, List.append_assoc])
  exact ⟨new, fun other member => once other (List.mem_append_right _ member)⟩

/-- Without its newest entry. -/
theorem BegunOnce.tail {entry : S.Entry} {log : List S.Entry} (begun : BegunOnce (entry :: log)) :
    BegunOnce log :=
  BegunOnce.suffix (show BegunOnce ([entry] ++ log) from begun)

theorem history_append (pid : Nat) (newer older : List S.Entry) :
    history pid (newer ++ older) = history pid newer ++ history pid older := by
  induction newer with
  | nil => rfl
  | cons entry newer ih =>
    cases entry with
    | performed event =>
      simp only [List.cons_append, history]
      split
      · simp only [List.cons_append, ih]
      · exact ih
    | _ => exact ih

/-- What stands in the log around an event accounts for the answers around its own. -/
theorem history_parts {pid : Nat} {log : List S.Entry} {newest past : List (Taken S.I)}
    {taken : Taken S.I} (split : history pid log = newest ++ taken :: past) :
    ∃ newer event older, log = newer ++ .performed event :: older ∧ event.pid = pid ∧
      event.helper = false ∧ (⟨event.op, event.answer⟩ : Taken S.I) = taken ∧
      history pid newer = newest ∧ history pid older = past := by
  obtain ⟨newer, event, older, rfl, own, program, same, first⟩ := history_split split
  refine ⟨newer, event, older, rfl, own, program, same, ?_, first⟩
  rw [history_append] at split
  simp only [history, own, program, and_self, if_true, first, same] at split
  exact List.append_cancel_right split

/-- What a process has performed, it has learnt the answer to. -/
theorem history_of_performed {log : List S.Entry} {event : S.Event} (member : .performed event ∈ log)
    (program : event.helper = false) : (⟨event.op, event.answer⟩ : Taken S.I) ∈ history event.pid log := by
  obtain ⟨newer, older, rfl⟩ := List.append_of_mem member
  simp [history_append, history, program]

/-- A process that has learnt nothing has performed nothing. -/
theorem silent_of_history {pid : Nat} {log : List S.Entry} (none : history pid log = [])
    {event : S.Event} (member : .performed event ∈ log) (own : event.pid = pid) :
    event.helper = true := by
  cases program : event.helper with
  | true => rfl
  | false =>
    obtain ⟨newer, older, rfl⟩ := List.append_of_mem member
    simp [history_append, history, own, program] at none

section Begun

variable {newer older : List S.Entry} {pid : Nat} {call : S.Call}

/-- All that a process has been answered, it has been answered since it began. -/
theorem BegunOnce.history (begun : BegunOnce (newer ++ .started pid call :: older)) :
    System.history pid (newer ++ .started pid call :: older) = System.history pid newer := by
  obtain ⟨new, _⟩ := begun newer pid call older rfl
  have none : System.history pid older = [] := history_of_fresh new
  rw [history_append]
  exact (congrArg (System.history pid newer ++ ·) none).trans (List.append_nil _)

/-- While a process is at work, it is at work on the call it was started with. -/
theorem BegunOnce.live (begun : BegunOnce (newer ++ .started pid call :: older)) {other : S.Call}
    (alive : System.live pid (newer ++ .started pid call :: older) = some other) : other = call := by
  obtain ⟨_, once⟩ := begun newer pid call older rfl
  induction newer with
  | nil => simpa [System.live] using alive.symm
  | cons entry newer ih =>
    have rest := fun alive => ih begun.tail alive
      fun other member => once other (List.mem_cons_of_mem _ member)
    cases entry with
    | started pid' call' =>
      have different : pid' ≠ pid := by
        rintro rfl
        exact once call' List.mem_cons_self
      exact rest (by simpa [System.live, different] using alive)
    | performed event => exact rest alive
    | returned pid' reply =>
      by_cases same : pid' = pid
      · simp [System.live, same] at alive
      · exact rest (by simpa [System.live, same] using alive)
    | crashed pid' =>
      by_cases same : pid' = pid
      · simp [System.live, same] at alive
      · exact rest (by simpa [System.live, same] using alive)

end Begun

/-! ## Two events of one log -/

/-- Of two places in one log, one is the newer. -/
theorem compare {α : Type} {first second : α} {newer newer' older older' : List α}
    (same : newer ++ first :: older = newer' ++ second :: older') :
    (∃ between, older = between ++ second :: older' ∧ newer' = newer ++ first :: between) ∨
      (first = second ∧ newer = newer' ∧ older = older') ∨
      ∃ between, older' = between ++ first :: older ∧ newer = newer' ++ second :: between := by
  rcases List.append_eq_append_iff.mp same with ⟨gap, split, rest⟩ | ⟨gap, split, rest⟩
  · cases gap with
    | nil =>
      obtain ⟨rfl, rfl⟩ := List.cons.inj rest
      exact .inr (.inl ⟨rfl, by simpa using split.symm, rfl⟩)
    | cons head gap =>
      obtain ⟨rfl, rfl⟩ := List.cons.inj rest
      exact .inl ⟨gap, rfl, split⟩
  · cases gap with
    | nil =>
      obtain ⟨rfl, rfl⟩ := List.cons.inj rest
      exact .inr (.inl ⟨rfl, by simpa using split, rfl⟩)
    | cons head gap =>
      obtain ⟨rfl, rfl⟩ := List.cons.inj rest
      exact .inr (.inr ⟨gap, rfl, split⟩)

/-- The entry is an operation of this kind. -/
def Entry.performs (kind : S.Event → Bool) : S.Entry → Bool
  | .performed event => kind event
  | _ => false

/-- An operation of the one kind has come after one of the other. -/
def after (later earlier : S.Event → Bool) : List S.Entry → Bool
  | [] => false
  | entry :: past =>
    entry.performs later && past.any (Entry.performs earlier) || after later earlier past

theorem after_of_mem {later earlier : S.Event → Bool} {newer older : List S.Entry} {first second : S.Event}
    (latest : later second = true) (member : .performed first ∈ older) (earliest : earlier first = true) :
    after later earlier (newer ++ .performed second :: older) = true := by
  induction newer with
  | nil =>
    have before : older.any (Entry.performs earlier) = true := List.any_eq_true.mpr ⟨_, member, earliest⟩
    simp [after, Entry.performs, latest, before]
  | cons entry newer ih => simp [after, ih]

/-- Among the earlier ones are all that there were before. -/
theorem after_cons_of_any {later earlier : S.Event → Bool} {past : List S.Entry} {event : S.Event}
    (latest : later event = true) (before : past.any (Entry.performs earlier) = true) :
    after later earlier (.performed event :: past) = true := by
  simp [after, Entry.performs, latest, before]

theorem after_cons {later earlier : S.Event → Bool} {past : List S.Entry} (entry : S.Entry)
    (old : after later earlier past = true) : after later earlier (entry :: past) = true := by
  simp [after, old]

/-! ## Calls and their replies -/

theorem State.settle_log (state : S.State) (pid : Nat) (call : S.Call) (rest : Prog S.I S.Reply) :
    ∃ newer, (state.settle pid call rest).view.log = newer ++ state.view.log := by
  cases rest with
  | done reply => exact ⟨[.returned pid reply], rfl⟩
  | call op next => exact ⟨[], rfl⟩

/-- A step only adds to the log. -/
theorem step_log (state : S.State) (label : S.Label) :
    ∃ newer, (System.step state label).view.log = newer ++ state.view.log := by
  cases label with
  | start call =>
    obtain ⟨newer, grown⟩ := State.settle_log
      ({ state with view := state.view.push (.started state.next call), next := state.next + 1 } : S.State)
      state.next call (S.program call)
    exact ⟨newer ++ [.started state.next call], grown.trans (by simp)⟩
  | act pid choice =>
    simp only [System.step]
    split
    · rename_i call op next found
      obtain ⟨newer, grown⟩ := State.settle_log
        ({ state with view := state.view.performs pid call false op choice } : S.State) pid call
        (next (S.perform pid op choice state.view.world).1)
      exact ⟨newer ++ [.performed (state.view.event pid call false op choice)], grown.trans (by simp)⟩
    · exact ⟨[], rfl⟩
  | background pid op choice =>
    simp only [System.step]
    split
    · split
      · exact ⟨[_], rfl⟩
      · exact ⟨[], rfl⟩
    · exact ⟨[], rfl⟩
  | crash pid =>
    simp only [System.step]
    split
    · exact ⟨[_], rfl⟩
    · exact ⟨[], rfl⟩
  | env event => exact ⟨[], rfl⟩

theorem run_log (state : S.State) (labels : List S.Label) :
    ∃ newer, (System.run state labels).view.log = newer ++ state.view.log := by
  induction labels generalizing state with
  | nil => exact ⟨[], rfl⟩
  | cons label labels ih =>
    obtain ⟨later, grown⟩ := ih (System.step state label)
    obtain ⟨newer, stepped⟩ := step_log state label
    exact ⟨later ++ newer, by rw [run_cons, grown, stepped, List.append_assoc]⟩

/-- What a call's program promises holds of the reply to this very call. -/
theorem promised_reply {P : S.Call → Protocol S.I} {post : S.Call → List (Taken S.I) → S.Reply → Prop}
    (promises : ∀ call, (S.program call).Follows (P call) (post call) []) {world : S.World}
    {first rest : List S.Label} {call : S.Call} {newer older : List S.Entry} {reply : S.Reply}
    (split : (System.run (initial world) (first ++ .start call :: rest)).view.log =
      newer ++ .returned (System.run (initial world) first).next reply :: older) :
    post call (System.history (System.run (initial world) first).next older) reply := by
  obtain ⟨own, alive, promised⟩ := (tracks_run world (first ++ .start call :: rest)).promised promises split
  have begun := begunOnce_run world (first ++ .start call :: rest)
  have free : S.Obeys fun _ _ _ => True := fun call => (S.program call).follows_free []
  have fresh := ((State.follows_initial world).run free first).fresh
  generalize pid : (System.run (initial world) first).next = n at *
  obtain ⟨later, grown⟩ : ∃ later, (System.run (initial world) (first ++ .start call :: rest)).view.log =
      later ++ .started n call :: (System.run (initial world) first).view.log := by
    rw [run_append, run_cons]
    obtain ⟨later, grown⟩ := run_log (System.step (System.run (initial world) first) (.start call)) rest
    obtain ⟨middle, settled⟩ := State.settle_log
      ({ System.run (initial world) first with
          view := (System.run (initial world) first).view.push (.started n call)
          next := n + 1 } : S.State) n call (S.program call)
    refine ⟨later ++ middle, ?_⟩
    rw [grown, List.append_assoc]
    refine congrArg (later ++ ·) ?_
    rw [System.step, pid]
    exact settled
  rw [split] at begun
  rcases compare (split.symm.trans grown) with ⟨between, rfl, _⟩ | ⟨same, _⟩ | ⟨between, earlier, _⟩
  · have mine : own = call := begun.suffix.tail.live alive
    exact mine ▸ promised
  · cases same
  · -- nothing of this process is older than its start
    refine absurd (fresh (.returned n reply) ?_) (Nat.lt_irrefl n)
    rw [earlier]
    simp

/-! ## What lasts from an event on -/

section Lasting

variable {condition : Condition S} {brings : S.Event → Prop} {holds : S.World → Prop}

/-- One of these events has taken place. -/
def Occurred (brings : S.Event → Prop) (log : List S.Entry) : Prop :=
  ∃ event, .performed event ∈ log ∧ brings event

/-- Such an event makes the fact hold, and no step that the condition admits ends it. -/
structure LastsFrom (condition : Condition S) (brings : S.Event → Prop) (holds : S.World → Prop) : Prop where
  performed : ∀ event : S.Event, event.Genuine → brings event → holds event.after
  keeps : ∀ view pid call op choice, Occurred brings view.log → holds view.world →
    condition.performs pid call op choice view → holds (S.perform pid op choice view.world).2
  leave : ∀ pid world, holds world → holds (S.leave pid world)
  env : ∀ event world, holds world → holds (S.env event world)

/-- The fact holds now, and before every event, if it has been brought about. -/
structure Since (brings : S.Event → Prop) (holds : S.World → Prop) (view : S.View) : Prop where
  now : Occurred brings view.log → holds view.world
  before : ∀ newer event older, view.log = newer ++ .performed event :: older → Occurred brings older →
    holds event.before

theorem Since.push {view : S.View} {world : S.World} {entry : S.Entry} (since : Since brings holds view)
    (silent : ∀ event, entry ≠ .performed event) (kept : holds view.world → holds world) :
    Since brings holds ⟨world, entry :: view.log⟩ where
  now := by
    rintro ⟨event, member, brought⟩
    refine kept (since.now ⟨event, (List.mem_cons.mp member).resolve_left fun same => ?_, brought⟩)
    exact silent event same.symm
  before newer event older split := by
    cases newer with
    | nil => exact absurd (List.cons.inj split).1 (silent event)
    | cons first newer => exact since.before newer event older (List.cons.inj split).2

theorem Since.performs (lasts : LastsFrom condition brings holds) {view : S.View}
    (since : Since brings holds view) {pid : Nat} {call : S.Call} {op : S.I.Op} {choice : S.Choice}
    (helper : Bool) (meets : condition.performs pid call op choice view) :
    Since brings holds (view.performs pid call helper op choice) where
  now := by
    rintro ⟨event, member, brought⟩
    rcases List.mem_cons.mp member with same | old
    · cases same
      exact lasts.performed (view.event pid call helper op choice) rfl brought
    · have occurred : Occurred brings view.log := ⟨event, old, brought⟩
      exact lasts.keeps view pid call op choice occurred (since.now occurred) meets
  before newer event older split := by
    cases newer with
    | nil =>
      obtain ⟨same, rfl⟩ := List.cons.inj split
      cases same
      exact since.now
    | cons first newer => exact since.before newer event older (List.cons.inj split).2

theorem LastsFrom.upheld (lasts : LastsFrom condition brings holds) :
    Upheld condition (Since brings holds) where
  performed _ _ _ _ _ _ _ since _ _ meets := since.performs lasts false meets
  background _ _ _ _ _ _ since _ _ meets := since.performs lasts true meets
  started _ _ _ since _ _ := since.push nofun id
  returned _ _ _ _ since _ _ := since.push nofun id
  crashed view pid since := since.push nofun (lasts.leave pid view.world)
  env view event since _ := ⟨fun occurred => lasts.env event view.world (since.now occurred), since.before⟩

/-- In every run that meets the condition, the fact holds from such an event on. -/
theorem LastsFrom.run (lasts : LastsFrom condition brings holds) {world : S.World}
    {labels : List S.Label} (meets : Meets condition (initial world) labels) :
    Since brings holds (System.run (initial world) labels).view := by
  refine lasts.upheld.run world [] labels ⟨?_, ?_⟩ meets
  · rintro ⟨event, member, _⟩
    cases member
  · intro newer event older split
    cases newer <;> cases split

end Lasting

/-! ## What a process does once -/

/-- Where nothing works in the background, programs perform everything. -/
theorem unhelped_run (alone : ∀ pid op world, S.background pid op world = false) (world : S.World)
    (labels : List S.Label) :
    ∀ event, .performed event ∈ (System.run (initial world) labels).view.log → event.helper = false := by
  have old : ∀ {log : List S.Entry} {entry : S.Entry}, (∀ event, entry ≠ .performed event) →
      (∀ event, .performed event ∈ log → event.helper = false) →
      ∀ event, .performed event ∈ entry :: log → event.helper = false := by
    intro log entry silent all event member
    rcases List.mem_cons.mp member with same | old
    · exact absurd same.symm (silent event)
    · exact all event old
  have upheld : Upheld (S := S) .free fun view =>
      ∀ event, .performed event ∈ view.log → event.helper = false := by
    constructor
    · intro view pid call op next choice _ all _ _ _ event member
      rcases List.mem_cons.mp member with same | old
      · cases same
        rfl
      · exact all event old
    · intro view pid call op choice _ _ _ permitted
      rw [alone] at permitted
      cases permitted
    · exact fun view pid call all _ _ => old nofun all
    · exact fun view pid call reply all _ _ => old nofun all
    · exact fun view pid all => old nofun all
    · exact fun view event all _ => all
  exact upheld.run world [] labels (fun event member => by cases member) (meets_free _ _)

/-- A process performs at most one operation of a kind, if its program does. -/
theorem AllAsked.once {log : List S.Entry} (asked : AllAsked log) {kind : S.I.Op → Prop}
    {post : S.Call → List (Taken S.I) → S.Reply → Prop}
    (once : ∀ call, (S.program call).Follows (Prog.Once kind) (post call) [])
    (unhelped : ∀ event, .performed event ∈ log → event.helper = false) {first second : S.Event}
    {newer between older : List S.Entry}
    (split : log = newer ++ .performed second :: (between ++ .performed first :: older))
    (own : first.pid = second.pid) (acts : kind second.op) : ¬ kind first.op := by
  have performed : .performed first ∈ between ++ .performed first :: older := by simp
  have program : first.helper = false := unhelped first (split ▸ by simp)
  obtain ⟨_, asks⟩ := asked newer second _ split (unhelped second (split ▸ by simp))
  have none := asks.allowed (once second.call) acts
  refine none ⟨first.op, first.answer⟩ ?_
  rw [history_append]
  refine List.mem_append_right _ ?_
  simp [history, own, program]

end Concurrency.System
