import Text2Image.Concurrency.Invariant

/-! What a reply tells: the program has come to it by the answers in the log.

A program is determined by what it was answered. So whatever is proved of the
program alone, about its answers and its value, holds of every reply in every run.
-/

set_option autoImplicit false

namespace Concurrency

namespace Prog

variable {I : Interface} {α : Type}

/-- These answers, newest first, lead the program to what is left of it. -/
inductive Leads (program : Prog I α) : List (Taken I) → Prog I α → Prop where
  | start : Leads program [] program
  | answered {past : List (Taken I)} {op : I.Op} {next : I.Answer op → Prog I α}
      (before : Leads program past (.call op next)) (answer : I.Answer op) :
      Leads program (⟨op, answer⟩ :: past) (next answer)

variable {P : Protocol I} {post : List (Taken I) → α → Prop} {program rest : Prog I α}
  {past : List (Taken I)}

/-- What is left of a program still follows what the whole program follows. -/
theorem Follows.of_leads (follows : program.Follows P post []) (leads : program.Leads past rest) :
    rest.Follows P post past := by
  induction leads with
  | start => exact follows
  | answered before answer ih => exact ih.rest answer

theorem Follows.post_of_leads {value : α} (follows : program.Follows P post [])
    (leads : program.Leads past (.done value)) : post past value := by
  cases follows.of_leads leads with
  | done holds => exact holds

/-- Every program follows the protocol that allows everything. -/
theorem follows_free (program : Prog I α) (past : List (Taken I)) :
    program.Follows (fun _ _ => True) (fun _ _ => True) past := by
  induction program generalizing past with
  | done value => exact .done trivial
  | call op next ih => exact .call trivial fun answer => ih answer _

end Prog

namespace System

variable {S : System}

/-- The process has come to this reply by what the log says it was answered. -/
def Replied (pid : Nat) (reply : S.Reply) (log : List S.Entry) : Prop :=
  ∃ call, live pid log = some call ∧ (S.program call).Leads (history pid log) (.done reply)

/-- Every process, at work or done, is where its answers have led it. -/
structure State.Tracks (state : S.State) : Prop where
  rest : ∀ pid process, state.process pid = some process →
    (S.program process.call).Leads (history pid state.view.log) process.rest
  replied : ∀ newer pid reply older, state.view.log = newer ++ .returned pid reply :: older →
    Replied pid reply older

theorem State.tracks_initial (world : S.World) : (initial world).Tracks where
  rest := by simp [initial]
  replied newer pid reply older split := by cases newer <;> cases split

/-- An entry that is no reply keeps the replies of the log. -/
theorem replied_cons {log : List S.Entry} {entry : S.Entry}
    (replied : ∀ newer pid reply older, log = newer ++ .returned pid reply :: older →
      Replied pid reply older)
    (newest : ∀ pid reply, entry = .returned pid reply → Replied pid reply log) :
    ∀ newer pid reply older, entry :: log = newer ++ .returned pid reply :: older →
      Replied pid reply older := by
  intro newer pid reply older split
  cases newer with
  | nil =>
    obtain ⟨same, rfl⟩ := List.cons.inj split
    exact newest pid reply same
  | cons first newer => exact replied newer pid reply older (List.cons.inj split).2

variable {state : S.State}

/-- Settling the acting process once its newest entry is in the log. -/
theorem State.Tracks.settle (tracks : state.Tracks) {world : S.World} {log : List S.Entry}
    {pid next : Nat} {call : S.Call} {left : Prog S.I S.Reply} (news : NewsOf pid state.view.log log)
    (replied : ∀ newer pid reply older, log = newer ++ .returned pid reply :: older →
      Replied pid reply older)
    (alive : live pid log = some call) (goes : (S.program call).Leads (history pid log) left) :
    ((⟨⟨world, log⟩, state.process, next⟩ : S.State).settle pid call left).Tracks := by
  cases left with
  | done reply =>
    have news' := news.trans (NewsOf.cons (.returned pid reply) log)
    constructor
    · intro other process found
      by_cases same : other = pid
      · simp [State.settle, same] at found
      · have running : state.process other = some process := by
          simpa [State.settle, Function.update_of_ne same] using found
        have unchanged := news'.history other same
        exact unchanged ▸ tracks.rest other process running
    · refine replied_cons replied ?_
      intro other reply' same
      cases same
      exact ⟨call, alive, goes⟩
  | call op continuation =>
    refine ⟨?_, replied⟩
    intro other process found
    by_cases same : other = pid
    · simp only [State.settle, same, Function.update_self, Option.some.injEq] at found
      rw [← found, same]
      exact goes
    · have running : state.process other = some process := by
        simpa [State.settle, Function.update_of_ne same] using found
      have unchanged := news.history other same
      exact unchanged ▸ tracks.rest other process running

theorem State.Tracks.step {protocol : S.Call → Protocol S.I} (tracks : state.Tracks)
    (follows : state.Follows protocol) (label : S.Label) : (System.step state label).Tracks := by
  cases label with
  | start call =>
    have unused : ∀ entry ∈ state.view.log, entry.pid ≠ state.next :=
      fun entry member => Nat.ne_of_lt (follows.fresh entry member)
    refine tracks.settle (NewsOf.cons (.started state.next call) state.view.log) ?_ ?_ ?_
    · exact replied_cons tracks.replied fun pid reply same => by cases same
    · simp [System.live]
    · have empty := history_of_fresh unused
      simpa only [System.history, empty] using .start
  | act pid choice =>
    simp only [System.step]
    split
    · rename_i call op next found
      let entry : S.Entry := .performed (state.view.event pid call false op choice)
      refine tracks.settle (NewsOf.cons entry state.view.log) ?_ (follows.live pid _ found) ?_
      · exact replied_cons tracks.replied fun pid reply same => by cases same
      · have grown := history_own pid state.view call op choice
        simp only [View.performs_log] at grown
        rw [grown]
        exact (tracks.rest pid _ found).answered _
    · exact tracks
  | background pid op choice =>
    simp only [System.step]
    split
    · rename_i process found
      split
      · constructor
        · intro other running found'
          rw [history_helper]
          exact tracks.rest other running found'
        · exact replied_cons tracks.replied fun pid reply same => by cases same
      · exact tracks
    · exact tracks
  | crash pid =>
    simp only [System.step]
    split
    · rename_i process found
      have news := NewsOf.cons (.crashed pid) state.view.log
      constructor
      · intro other running found'
        by_cases same : other = pid
        · simp [same] at found'
        · have unchanged := news.history other same
          have before : state.process other = some running := by
            simpa [Function.update_of_ne same] using found'
          exact unchanged ▸ tracks.rest other running before
      · exact replied_cons tracks.replied fun pid reply same => by cases same
    · exact tracks
  | env event => exact ⟨tracks.rest, tracks.replied⟩

/-- Every run tracks its programs. -/
theorem tracks_run (world : S.World) (labels : List S.Label) : (run (initial world) labels).Tracks := by
  have free : S.Obeys fun _ _ _ => True := fun call => (S.program call).follows_free []
  have both : ∀ (state : S.State), state.Follows (fun _ _ _ => True) → state.Tracks →
      (run state labels).Tracks := by
    induction labels with
    | nil => exact fun state _ tracks => tracks
    | cons label labels ih =>
      exact fun state follows tracks =>
        ih (System.step state label) (follows.step free label) (tracks.step follows label)
  exact both _ (State.follows_initial world) (State.tracks_initial world)

/-- What a call's program promises of its value holds of each of its replies. -/
theorem State.Tracks.promised (tracks : state.Tracks) {P : S.Call → Protocol S.I}
    {post : S.Call → List (Taken S.I) → S.Reply → Prop}
    (promises : ∀ call, (S.program call).Follows (P call) (post call) [])
    {newer older : List S.Entry} {pid : Nat} {reply : S.Reply}
    (split : state.view.log = newer ++ .returned pid reply :: older) :
    ∃ call, live pid older = some call ∧ post call (history pid older) reply := by
  obtain ⟨call, alive, leads⟩ := tracks.replied newer pid reply older split
  exact ⟨call, alive, (promises call).post_of_leads leads⟩

/-! ## Who is at work -/

/-- Every process whose call has not ended has a program left. -/
def State.Working (state : S.State) : Prop :=
  ∀ pid call, live pid state.view.log = some call → (state.process pid).isSome = true

theorem State.Working.settle (working : state.Working) {world : S.World} {log : List S.Entry}
    {pid next : Nat} {call : S.Call} (left : Prog S.I S.Reply) (news : NewsOf pid state.view.log log) :
    ((⟨⟨world, log⟩, state.process, next⟩ : S.State).settle pid call left).Working := by
  intro other call' alive
  cases left with
  | done reply =>
    have news' := news.trans (NewsOf.cons (.returned pid reply) log)
    by_cases same : other = pid
    · simp [State.settle, View.push, live, same] at alive
    · have before := news'.live other same ▸ alive
      simpa [State.settle, Function.update_of_ne same] using working other call' before
  | call op continuation =>
    by_cases same : other = pid
    · simp [State.settle, same]
    · have before := news.live other same ▸ alive
      simpa [State.settle, Function.update_of_ne same] using working other call' before

theorem State.Working.step (working : state.Working) (label : S.Label) :
    (System.step state label).Working := by
  cases label with
  | start call => exact working.settle _ (NewsOf.cons (.started state.next call) state.view.log)
  | act pid choice =>
    simp only [System.step]
    split
    · rename_i call op next found
      exact working.settle _ (NewsOf.cons
        (.performed (state.view.event pid call false op choice)) state.view.log)
    · exact working
  | background pid op choice =>
    simp only [System.step]
    split
    · split <;> exact working
    · exact working
  | crash pid =>
    simp only [System.step]
    split
    · have news := NewsOf.cons (.crashed pid) state.view.log
      intro other call alive
      by_cases same : other = pid
      · simp [live, same] at alive
      · have before := news.live other same ▸ alive
        simpa [Function.update_of_ne same] using working other call before
    · exact working
  | env event => exact working

theorem working_run (world : S.World) (labels : List S.Label) : (run (initial world) labels).Working := by
  have all : ∀ state : S.State, state.Working → (run state labels).Working := by
    induction labels with
    | nil => exact fun _ working => working
    | cons label labels ih => exact fun state working => ih _ (working.step label)
  refine all _ ?_
  intro pid call alive
  cases alive

end System

end Concurrency
