import Mathlib.Logic.Function.Basic
import Text2Image.Concurrency.System

/-! What a process holds while it runs.

The operations of a program move what its process holds from phase to phase. Where every program
ends in the phase it has begun in, nothing is held by a process that is not at work, however the
processes are interleaved.
-/

set_option autoImplicit false

namespace Concurrency

namespace Prog

variable {I : Interface} {σ α β : Type} {moves : I.Op → σ → Option σ}

/-- Whatever it is answered, the program performs what its phase allows, and it ends in the last one. -/
def Settles (moves : I.Op → σ → Option σ) (last : σ) : Prog I α → σ → Prop
  | .done _, phase => phase = last
  | .call op next, phase => ∃ later, moves op phase = some later ∧ ∀ answer, (next answer).Settles moves last later

theorem Settles.bind {program : Prog I β} {rest : β → Prog I α} {phase middle last : σ}
    (first : program.Settles moves middle phase) (second : ∀ value, (rest value).Settles moves last middle) :
    (program >>= rest).Settles moves last phase := by
  induction program generalizing phase with
  | done value =>
    cases first
    exact second value
  | call op next ih =>
    obtain ⟨later, moved, settles⟩ := first
    exact ⟨later, moved, fun answer => ih answer (settles answer)⟩

/-- Operations that move nothing leave the phase as it is. -/
theorem Only.settles {kind : I.Op → Prop} {program : Prog I α} (only : program.Only kind) {phase : σ}
    (stays : ∀ op, kind op → moves op phase = some phase) : program.Settles moves phase phase := by
  induction program with
  | done value => exact rfl
  | call op next ih => exact ⟨phase, stays op only.1, fun answer => ih answer (only.2 answer)⟩

end Prog

/-- What the processes of a system hold: how operations move it, and which worlds have no more of it than
a process may have in a phase.
-/
structure Scope (S : System) (σ : Type) where
  moves : S.I.Op → σ → Option σ
  within : S.World → Nat → σ → Prop
  idle : σ

namespace Scope

open Concurrency.System

variable {S : System} {σ : Type} (scope : Scope S σ)

structure Kept : Prop where
  calls : ∀ call, (S.program call).Settles scope.moves scope.idle scope.idle
  own : ∀ {pid op choice world phase later}, scope.within world pid phase → scope.moves op phase = some later →
    scope.within (S.perform pid op choice world).2 pid later
  others : ∀ {pid other op choice world phase}, other ≠ pid → scope.within world other phase →
    scope.within (S.perform pid op choice world).2 other phase
  background : ∀ {pid other op choice world phase}, S.background pid op world = true →
    scope.within world other phase → scope.within (S.perform pid op choice world).2 other phase
  leaves : ∀ {pid world}, scope.within (S.leave pid world) pid scope.idle
  left : ∀ {pid other world phase}, other ≠ pid → scope.within world other phase →
    scope.within (S.leave pid world) other phase
  env : ∀ {event world pid phase}, scope.within world pid phase → scope.within (S.env event world) pid phase

/-- What a process holds, if it is at work, it gives back in what is left of its program. -/
def Holding (world : S.World) (next pid : Nat) : Option S.Process → Prop
  | none => scope.within world pid scope.idle
  | some process => pid < next ∧ ∃ phase, scope.within world pid phase ∧ process.rest.Settles scope.moves scope.idle phase

def Holds (state : S.State) : Prop := ∀ pid, scope.Holding state.view.world state.next pid (state.process pid)

variable {scope} {state : S.State}

theorem Holding.mono {world world' : S.World} {next next' pid : Nat} {process : Option S.Process}
    (holding : scope.Holding world next pid process) (later : next ≤ next')
    (within : ∀ phase, scope.within world pid phase → scope.within world' pid phase) :
    scope.Holding world' next' pid process := by
  cases process with
  | none => exact within _ holding
  | some process =>
    obtain ⟨below, phase, held, settles⟩ := holding
    exact ⟨Nat.lt_of_lt_of_le below later, phase, within phase held, settles⟩

theorem Holds.settle {pid : Nat} {call : S.Call} {rest : Prog S.I S.Reply} {phase : σ}
    (others : ∀ other, other ≠ pid → scope.Holding state.view.world state.next other (state.process other))
    (below : pid < state.next) (held : scope.within state.view.world pid phase)
    (settles : rest.Settles scope.moves scope.idle phase) : scope.Holds (state.settle pid call rest) := by
  intro other
  by_cases same : other = pid
  · subst same
    cases rest with
    | done reply =>
      cases settles
      simpa [State.settle, Holding] using held
    | call op next => simpa [State.settle, Holding] using ⟨below, phase, held, settles⟩
  · cases rest <;> simpa [State.settle, Function.update_of_ne same] using others other same

theorem Holds.step (kept : scope.Kept) (holds : scope.Holds state) (label : S.Label) :
    scope.Holds (System.step state label) := by
  cases label with
  | start call =>
    -- the number of a new process is not in use, so nothing is held under it
    have unused : state.process state.next = none := by
      cases found : state.process state.next with
      | none => rfl
      | some process =>
        have here := holds state.next
        rw [found] at here
        exact absurd here.1 (Nat.lt_irrefl _)
    have held := holds state.next
    rw [unused] at held
    exact Holds.settle (fun other _ => (holds other).mono (Nat.le_succ _) fun _ => id) (Nat.lt_succ_self _) held
      (kept.calls call)
  | act pid choice =>
    simp only [System.step]
    split
    · rename_i call op next found
      have here := holds pid
      rw [found] at here
      -- what is left of the program says how the operation moves the phase
      obtain ⟨below, phase, held, later, moved, settles⟩ := here
      exact Holds.settle (fun other differ => (holds other).mono (Nat.le_refl _) fun _ => kept.others differ) below
        (kept.own held moved) (settles _)
    · exact holds
  | background pid op choice =>
    simp only [System.step]
    split
    · split
      · rename_i permitted
        exact fun other => (holds other).mono (Nat.le_refl _) fun _ => kept.background permitted
      · exact holds
    · exact holds
  | crash pid =>
    simp only [System.step]
    split
    · intro other
      by_cases same : other = pid
      · subst same
        simpa [Holding] using kept.leaves
      · simpa [Function.update_of_ne same] using (holds other).mono (Nat.le_refl _) fun _ => kept.left same
    · exact holds
  | env event => exact fun other => (holds other).mono (Nat.le_refl _) fun _ => kept.env

theorem Holds.run (kept : scope.Kept) (holds : scope.Holds state) (labels : List S.Label) :
    scope.Holds (System.run state labels) := by
  induction labels generalizing state with
  | nil => exact holds
  | cons label labels ih => exact ih (holds.step kept label)

end Scope

end Concurrency
