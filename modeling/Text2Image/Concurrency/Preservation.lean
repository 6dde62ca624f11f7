import Text2Image.Concurrency.Replies

/-! Proving what every run satisfies: a property only needs that each kind of
step keeps it. A step of a program is one that its answers have led it to, so it
is one that the protocol of its call allows.
-/

set_option autoImplicit false

namespace Concurrency.System

variable {S : System} {condition : Condition S} {inv : S.View → Prop}

/-- Each kind of step keeps the property; programs perform what they have come to. -/
structure Upheld (condition : Condition S) (inv : S.View → Prop) : Prop where
  performed : ∀ view pid call op next choice, AllGenuine view.log → inv view →
    live pid view.log = some call → (S.program call).Leads (history pid view.log) (.call op next) →
    condition.performs pid call op choice view → inv (view.performs pid call false op choice)
  background : ∀ view pid call op choice, AllGenuine view.log → inv view →
    live pid view.log = some call → S.background pid op view.world = true →
    condition.performs pid call op choice view → inv (view.performs pid call true op choice)
  started : ∀ view pid call, inv view → (∀ entry ∈ view.log, entry.pid ≠ pid) →
    condition.starts call view → inv (view.push (.started pid call))
  returned : ∀ view pid call reply, inv view → live pid view.log = some call →
    (S.program call).Leads (history pid view.log) (.done reply) → inv (view.push (.returned pid reply))
  crashed : ∀ view pid, inv view → inv ⟨S.leave pid view.world, .crashed pid :: view.log⟩
  env : ∀ view event, inv view → condition.env event view →
    inv { view with world := S.env event view.world }

theorem Upheld.settle (upheld : Upheld condition inv) {state : S.State} (holds : inv state.view)
    {pid : Nat} {call : S.Call} {rest : Prog S.I S.Reply} (alive : live pid state.view.log = some call)
    (leads : (S.program call).Leads (history pid state.view.log) rest) :
    inv (state.settle pid call rest).view := by
  cases rest with
  | done reply => exact upheld.returned state.view pid call reply holds alive leads
  | call op next => exact holds

theorem Upheld.step (upheld : Upheld condition inv) {state : S.State}
    (follows : state.Follows fun _ _ _ => True) (tracks : state.Tracks) (holds : inv state.view)
    (label : S.Label) (admits : Admits condition state label) :
    inv (System.step state label).view := by
  cases label with
  | start call =>
    have unused : ∀ entry ∈ state.view.log, entry.pid ≠ state.next :=
      fun entry member => Nat.ne_of_lt (follows.fresh entry member)
    refine upheld.settle (upheld.started state.view state.next call holds unused admits) ?_ ?_
    · simp [live]
    · have empty := history_of_fresh unused
      simpa only [View.push_log, history, empty] using .start
  | act pid choice =>
    simp only [System.step]
    split
    · rename_i call op next found
      have alive := follows.live pid _ found
      have leads := tracks.rest pid _ found
      refine upheld.settle ?_ alive ?_
      · exact upheld.performed state.view pid call op next choice follows.genuine holds alive leads
          (admits call op next found)
      · have grown := history_own pid state.view call op choice
        exact grown ▸ leads.answered _
    · exact holds
  | background pid op choice =>
    simp only [System.step]
    split
    · rename_i process found
      split
      · rename_i permitted
        exact upheld.background state.view pid process.call op choice follows.genuine holds
          (follows.live pid _ found) permitted (admits process found permitted)
      · exact holds
    · exact holds
  | crash pid =>
    simp only [System.step]
    split
    · exact upheld.crashed state.view pid holds
    · exact holds
  | env event => exact upheld.env state.view event holds admits

/-- Continuing a run keeps the property. -/
theorem Upheld.run (upheld : Upheld condition inv) (world : S.World) (first second : List S.Label)
    (holds : inv (System.run (initial world) first).view)
    (meets : Meets condition (System.run (initial world) first) second) :
    inv (System.run (System.run (initial world) first) second).view := by
  induction second generalizing first with
  | nil => exact holds
  | cons label second ih =>
    have free : S.Obeys fun _ _ _ => True := fun call => (S.program call).follows_free []
    have follows := (State.follows_initial (S := S) world).run free first
    have kept := upheld.step follows (tracks_run world first) holds label meets.1
    have next := ih (first ++ [label])
    rw [run_concat] at next
    exact next kept meets.2

/-- Each kind of step keeps the property; programs perform what their protocol allows. -/
structure Preserved (protocol : S.Call → Protocol S.I) (condition : Condition S)
    (inv : S.View → Prop) : Prop where
  performed : ∀ view pid call op choice, AllGenuine view.log → inv view →
    live pid view.log = some call →
    protocol call (history pid view.log) op →
    condition.performs pid call op choice view → inv (view.performs pid call false op choice)
  background : ∀ view pid call op choice, AllGenuine view.log → inv view →
    live pid view.log = some call →
    S.background pid op view.world = true →
    condition.performs pid call op choice view → inv (view.performs pid call true op choice)
  started : ∀ view pid call, inv view → (∀ entry ∈ view.log, entry.pid ≠ pid) →
    condition.starts call view → inv (view.push (.started pid call))
  returned : ∀ view pid reply, inv view → inv (view.push (.returned pid reply))
  crashed : ∀ view pid, inv view → inv ⟨S.leave pid view.world, .crashed pid :: view.log⟩
  env : ∀ view event, inv view → inv { view with world := S.env event view.world }

theorem Preserved.upheld {protocol : S.Call → Protocol S.I}
    (preserved : Preserved protocol condition inv) (obeys : S.Obeys protocol) :
    Upheld condition inv where
  performed view pid call op _ choice genuine holds alive leads meets :=
    preserved.performed view pid call op choice genuine holds alive
      ((obeys call).of_leads leads).allowed meets
  background := preserved.background
  started := preserved.started
  returned view pid _ reply holds _ _ := preserved.returned view pid reply holds
  crashed := preserved.crashed
  env view event holds _ := preserved.env view event holds

/-! ## What has been asked for -/

/-- The program has come to this operation by these answers. -/
def AsksFor (S : System) (call : S.Call) (past : List (Taken S.I)) (op : S.I.Op) : Prop :=
  ∃ next, (S.program call).Leads past (.call op next)

/-- Whatever is proved of the program alone holds of the operations it asks for. -/
theorem AsksFor.allowed {call : S.Call} {past : List (Taken S.I)} {op : S.I.Op}
    (asks : AsksFor S call past op) {P : Protocol S.I} {post : List (Taken S.I) → S.Reply → Prop}
    (follows : (S.program call).Follows P post []) : P past op := by
  obtain ⟨next, leads⟩ := asks
  exact (follows.of_leads leads).allowed

/-- Every operation of a program in the log was asked for when it took place. -/
def AllAsked (log : List S.Entry) : Prop :=
  ∀ newer event older, log = newer ++ .performed event :: older → event.helper = false →
    live event.pid older = some event.call ∧ AsksFor S event.call (history event.pid older) event.op

theorem AllAsked.cons {log : List S.Entry} {entry : S.Entry} (asked : AllAsked log)
    (newest : ∀ event, entry = .performed event → event.helper = false →
      live event.pid log = some event.call ∧ AsksFor S event.call (history event.pid log) event.op) :
    AllAsked (entry :: log) := by
  intro newer event older split program
  cases newer with
  | nil =>
    obtain ⟨same, rfl⟩ := List.cons.inj split
    exact newest event same program
  | cons first newer => exact asked newer event older (List.cons.inj split).2 program

theorem allAsked_upheld : Upheld (S := S) .free fun view => AllAsked view.log where
  performed view pid call op next choice _ asked alive leads _ := by
    refine asked.cons fun event same _ => ?_
    cases same
    exact ⟨alive, next, leads⟩
  background view pid call op choice _ asked _ _ _ := by
    refine asked.cons fun event same program => ?_
    cases same
    cases program
  started view pid call asked _ _ := asked.cons fun event same => by cases same
  returned view pid call reply asked _ _ := asked.cons fun event same => by cases same
  crashed view pid asked := asked.cons fun event same => by cases same
  env view event asked _ := asked

theorem allAsked_run (world : S.World) (labels : List S.Label) :
    AllAsked (System.run (initial world) labels).view.log := by
  refine allAsked_upheld.run world [] labels ?_ (meets_free _ _)
  intro newer event older split
  cases newer <;> cases split

end Concurrency.System
