import Text2Image.Concurrency.System

/-! What is true of the processes of every run.

Each call's program follows a protocol, which says what it may do after what it
was answered; that is proved once, without any mention of the world. The log then
tells of every process which protocol it follows from where it stands.
-/

set_option autoImplicit false

namespace Concurrency.System

variable {S : System}

/-- Every call's program follows the protocol of that call. -/
def Obeys (S : System) (protocol : S.Call → Protocol S.I) : Prop :=
  ∀ call, (S.program call).Follows (protocol call) (fun _ _ => True) []

/-- The event is what performing the operation gives. -/
def Event.Genuine (event : S.Event) : Prop :=
  (event.answer, event.after) = S.perform event.pid event.op event.choice event.before

/-- Every running program follows its protocol from what the log says it has
done; process numbers not handed out yet do not occur. -/
structure State.Follows (protocol : S.Call → Protocol S.I) (state : S.State) : Prop where
  genuine : ∀ event, .performed event ∈ state.view.log → event.Genuine
  fresh : ∀ entry ∈ state.view.log, entry.pid < state.next
  live : ∀ pid process, state.process pid = some process →
    System.live pid state.view.log = some process.call
  below : ∀ pid process, state.process pid = some process → pid < state.next
  rest : ∀ pid process, state.process pid = some process →
    process.rest.Follows (protocol process.call) (fun _ _ => True) (history pid state.view.log)

variable {protocol : S.Call → Protocol S.I}

theorem State.follows_initial (world : S.World) : (initial world).Follows protocol where
  genuine := by simp [initial]
  fresh := by simp [initial]
  live := by simp [initial]
  below := by simp [initial]
  rest := by simp [initial]

/-- An entry about one process is news to that process only. -/
structure NewsOf (pid : Nat) (log log' : List S.Entry) : Prop where
  live : ∀ other, other ≠ pid → System.live other log' = System.live other log
  history : ∀ other, other ≠ pid → System.history other log' = System.history other log

theorem NewsOf.cons (entry : S.Entry) (log : List S.Entry) :
    NewsOf entry.pid log (entry :: log) := by
  constructor
  · intro other different
    cases entry <;> simp_all [System.live, Entry.pid, Ne.symm]
  · intro other different
    cases entry <;> simp_all [System.history, Entry.pid, Ne.symm]

theorem NewsOf.trans {pid : Nat} {first second third : List S.Entry}
    (left : NewsOf pid first second) (right : NewsOf pid second third) : NewsOf pid first third :=
  ⟨fun other different => (right.live other different).trans (left.live other different),
    fun other different => (right.history other different).trans (left.history other different)⟩

theorem State.Follows.genuine_cons {state : S.State} (follows : state.Follows protocol)
    {entry : S.Entry} (newest : ∀ event, .performed event = entry → event.Genuine) :
    ∀ event, .performed event ∈ entry :: state.view.log → event.Genuine := by
  intro event member
  rcases List.mem_cons.mp member with same | old
  · exact newest event same
  · exact follows.genuine event old

/-- Settling the acting process once its newest entry is in the log. -/
theorem State.Follows.settle {state : S.State} (follows : state.Follows protocol) {world : S.World}
    {log : List S.Entry} {pid next : Nat} {call : S.Call} {rest : Prog S.I S.Reply}
    (news : NewsOf pid state.view.log log)
    (genuine : ∀ event, .performed event ∈ log → event.Genuine) (fresh : ∀ entry ∈ log, entry.pid < next)
    (later : state.next ≤ next) (bound : pid < next) (alive : System.live pid log = some call)
    (goes : rest.Follows (protocol call) (fun _ _ => True) (System.history pid log)) :
    ((⟨⟨world, log⟩, state.process, next⟩ : S.State).settle pid call rest).Follows protocol := by
  cases rest with
  | done reply =>
    have news' := news.trans (NewsOf.cons (.returned pid reply) log)
    -- the process is gone; all others look as before
    have others : ∀ other process,
        Function.update state.process pid none other = some process →
        other ≠ pid ∧ state.process other = some process := by
      intro other process found
      by_cases same : other = pid
      · simp [same] at found
      · exact ⟨same, by simpa [Function.update_of_ne same] using found⟩
    constructor
    · intro event member
      rcases List.mem_cons.mp member with same | old
      · cases same
      · exact genuine event old
    · intro entry member
      rcases List.mem_cons.mp member with same | old
      · exact same ▸ bound
      · exact fresh entry old
    · intro other process found
      obtain ⟨different, running⟩ := others other process found
      exact (news'.live other different).trans (follows.live other process running)
    · intro other process found
      obtain ⟨_, running⟩ := others other process found
      exact Nat.lt_of_lt_of_le (follows.below other process running) later
    · intro other process found
      obtain ⟨different, running⟩ := others other process found
      have unchanged := news'.history other different
      exact unchanged ▸ follows.rest other process running
  | call op continuation =>
    have cases' : ∀ other process,
        Function.update state.process pid (some ⟨call, .call op continuation⟩) other = some process →
        (other = pid ∧ process = ⟨call, .call op continuation⟩) ∨
          other ≠ pid ∧ state.process other = some process := by
      intro other process found
      by_cases same : other = pid
      · simp only [same, Function.update_self, Option.some.injEq] at found
        exact .inl ⟨same, found.symm⟩
      · exact .inr ⟨same, by simpa [Function.update_of_ne same] using found⟩
    constructor
    · exact genuine
    · exact fresh
    · intro other process found
      rcases cases' other process found with ⟨rfl, rfl⟩ | ⟨different, running⟩
      · exact alive
      · exact (news.live other different).trans (follows.live other process running)
    · intro other process found
      rcases cases' other process found with ⟨rfl, rfl⟩ | ⟨_, running⟩
      · exact bound
      · exact Nat.lt_of_lt_of_le (follows.below other process running) later
    · intro other process found
      rcases cases' other process found with ⟨rfl, rfl⟩ | ⟨different, running⟩
      · exact goes
      · have unchanged := news.history other different
        exact unchanged ▸ follows.rest other process running

theorem history_own (pid : Nat) (view : S.View) (call : S.Call) (op : S.I.Op) (choice : S.Choice) :
    history pid (view.performs pid call false op choice).log =
      ⟨op, (S.perform pid op choice view.world).1⟩ :: history pid view.log := by
  simp [history, View.event]

theorem history_helper {pid other : Nat} (view : S.View) (call : S.Call) (op : S.I.Op)
    (choice : S.Choice) :
    history other (view.performs pid call true op choice).log = history other view.log := by
  simp [history, View.event]

theorem State.Follows.step (obeys : S.Obeys protocol) {state : S.State}
    (follows : state.Follows protocol) (label : S.Label) :
    (System.step state label).Follows protocol := by
  cases label with
  | start call =>
    have unused : ∀ entry ∈ state.view.log, entry.pid ≠ state.next :=
      fun entry member => Nat.ne_of_lt (follows.fresh entry member)
    refine follows.settle (NewsOf.cons (.started state.next call) state.view.log) ?_ ?_
      (Nat.le_succ _) (Nat.lt_succ_self _) ?_ ?_
    · exact follows.genuine_cons (fun event same => by cases same)
    · intro entry member
      rcases List.mem_cons.mp member with same | old
      · exact same ▸ Nat.lt_succ_self _
      · exact Nat.lt_succ_of_lt (follows.fresh entry old)
    · simp [System.live]
    · have empty := history_of_fresh unused
      simpa only [System.history, empty] using obeys call
  | act pid choice =>
    simp only [System.step]
    split
    · rename_i call op next found
      have performed := follows.rest pid _ found
      let entry : S.Entry := .performed (state.view.event pid call false op choice)
      refine follows.settle (NewsOf.cons entry state.view.log) ?_ ?_ (Nat.le_refl _)
        (follows.below pid _ found) (follows.live pid _ found) ?_
      · exact follows.genuine_cons (fun event same => by cases same; rfl)
      · intro entry member
        rcases List.mem_cons.mp member with same | old
        · exact same ▸ follows.below pid _ found
        · exact follows.fresh entry old
      · have grown := history_own pid state.view call op choice
        simp only [View.performs_log] at grown
        rw [grown]
        exact performed.rest _
    · exact follows
  | background pid op choice =>
    simp only [System.step]
    split
    · rename_i process found
      split
      · constructor
        · exact follows.genuine_cons (fun event same => by cases same; rfl)
        · intro entry member
          rcases List.mem_cons.mp member with same | old
          · exact same ▸ follows.below pid _ found
          · exact follows.fresh entry old
        · exact follows.live
        · exact follows.below
        · intro other running found'
          rw [history_helper]
          exact follows.rest other running found'
      · exact follows
    · exact follows
  | crash pid =>
    simp only [System.step]
    split
    · rename_i process found
      have news := NewsOf.cons (.crashed pid) state.view.log
      have others : ∀ other running,
          Function.update state.process pid none other = some running →
          other ≠ pid ∧ state.process other = some running := by
        intro other running found'
        by_cases same : other = pid
        · simp [same] at found'
        · exact ⟨same, by simpa [Function.update_of_ne same] using found'⟩
      constructor
      · exact follows.genuine_cons (fun event same => by cases same)
      · intro entry member
        rcases List.mem_cons.mp member with rfl | old
        · exact follows.below pid _ found
        · exact follows.fresh entry old
      · intro other running found'
        obtain ⟨different, before⟩ := others other running found'
        exact (news.live other different).trans (follows.live other running before)
      · intro other running found'
        exact follows.below other running (others other running found').2
      · intro other running found'
        obtain ⟨different, before⟩ := others other running found'
        have unchanged := news.history other different
        exact unchanged ▸ follows.rest other running before
    · exact follows
  | env event => exact ⟨follows.genuine, follows.fresh, follows.live, follows.below, follows.rest⟩

theorem State.Follows.run (obeys : S.Obeys protocol) {state : S.State}
    (follows : state.Follows protocol) (labels : List S.Label) :
    (System.run state labels).Follows protocol := by
  induction labels generalizing state with
  | nil => exact follows
  | cons label labels ih => exact ih (follows.step obeys label)

/-! ## Invariants -/

def AllGenuine (log : List S.Entry) : Prop := ∀ event, .performed event ∈ log → event.Genuine

/-! ## One step -/

/-- The operation a label performs, with the call it is performed for. -/
def acting (state : S.State) : S.Label → Option (S.Call × S.I.Op)
  | .act pid _ =>
    match state.process pid with
    | some ⟨call, .call op _⟩ => some (call, op)
    | _ => none
  | .background pid op _ => (state.process pid).map fun process => (process.call, op)
  | _ => none

@[simp] theorem State.settle_world (state : S.State) (pid : Nat) (call : S.Call)
    (rest : Prog S.I S.Reply) : (state.settle pid call rest).view.world = state.view.world := by
  cases rest <;> rfl

/-- Some step of the run performs such an operation for such a call. -/
def ActedBy (what : S.Call → S.I.Op → Prop) (state : S.State) : List S.Label → Prop
  | [] => False
  | label :: labels =>
    (∃ call op, acting state label = some (call, op) ∧ what call op) ∨
      ActedBy what (System.step state label) labels

theorem ActedBy.mono {what what' : S.Call → S.I.Op → Prop} {state : S.State}
    {labels : List S.Label} (acted : ActedBy what state labels)
    (wider : ∀ call op, what call op → what' call op) : ActedBy what' state labels := by
  induction labels generalizing state with
  | nil => exact acted
  | cons label labels ih =>
    rcases acted with ⟨call, op, acts, met⟩ | later
    · exact .inl ⟨call, op, acts, wider call op met⟩
    · exact .inr (ih later)

end Concurrency.System
