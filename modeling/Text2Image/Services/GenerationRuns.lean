import Mathlib.Algebra.Order.Group.Unbundled.Basic
import Mathlib.Data.List.Basic
import Text2Image.Services.ModelService

/-! The model service with any number of `generate_image` calls, each in its own thread: a
semaphore admits a few at a time to the pipeline, and the record is told when they start
and when they finish.
-/

set_option autoImplicit false

namespace Text2Image.ModelService

/-- Where a call is. -/
inductive Phase where
  /-- Before the check that the pipeline is loaded. -/
  | entered
  | waiting
  | acquired
  /-- Between the two marks of the record. -/
  | running (started : Rat)
  | finished
  /-- With a result, or an exception. -/
  | left
  deriving DecidableEq, Repr

/-- The call has a permit of the semaphore. -/
def Phase.holds : Phase → Bool
  | .acquired | .running _ | .finished => true
  | .entered | .waiting | .left => false

def Phase.started? : Phase → Option Rat
  | .running started => some started
  | _ => none

/-- The pipeline was found loaded. -/
def Phase.passed : Phase → Bool
  | .entered | .left => false
  | _ => true

structure Service where
  state : GenerationState := {}
  pipe : Bool := false
  permits : Nat
  clock : Rat := 0
  calls : List Phase := []

/-- One step of one thread, or of time. -/
inductive Step where
  | call
  /-- The loading of the pipeline has come to its end. -/
  | loaded (done : Bool)
  | set_loading (value : Bool)
  /-- By the loading, by a call that starts, or by one that raises. -/
  | set_last_error (value : String)
  /-- The check before the semaphore; without the pipeline the call raises. -/
  | check (call : Nat)
  | acquire (call : Nat)
  | mark_started (call : Nat)
  | mark_finished (call : Nat)
  | release (call : Nat)
  | tick (elapsed : Rat)

def Step.finishes : Step → Bool
  | .mark_finished _ => true
  | _ => false

namespace Service

/-- The start times of the runs between their two marks. -/
def inProgress (service : Service) : List Rat := service.calls.filterMap Phase.started?

/-- What a step of a call in this phase does; in another phase it is not there to be taken. -/
def move (service : Service) : Step → Service
  | .call => { service with calls := service.calls ++ [.entered] }
  | .loaded done => { service with pipe := service.pipe || done }
  | .set_loading value => { service with state := service.state.set_loading value }
  | .set_last_error value => { service with state := service.state.set_last_error value }
  | .check call =>
    if service.calls[call]? = some .entered then
      { service with calls := service.calls.set call (if service.pipe then .waiting else .left) }
    else service
  | .acquire call =>
    if service.calls[call]? = some .waiting ∧ 0 < service.permits then
      { service with permits := service.permits - 1, calls := service.calls.set call .acquired }
    else service
  | .mark_started call =>
    if service.calls[call]? = some .acquired then
      { service with
        state := service.state.mark_generation_started "generate" service.clock
        calls := service.calls.set call (.running service.clock) }
    else service
  | .mark_finished call =>
    match service.calls[call]? with
    | some (.running _) =>
      { service with
        state := service.state.mark_generation_finished
        calls := service.calls.set call .finished }
    | _ => service
  | .release call =>
    if service.calls[call]? = some .finished then
      { service with permits := service.permits + 1, calls := service.calls.set call .left }
    else service
  | .tick elapsed => { service with clock := service.clock + max 0 elapsed }

def start (max_concurrent_generations : Nat) : Service := { permits := max_concurrent_generations }

def run (max_concurrent_generations : Nat) (steps : List Step) : Service :=
  steps.foldl move (start max_concurrent_generations)

end Service

/-! ## Every interleaving -/

theorem split_call {calls : List Phase} {call : Nat} {phase : Phase} (found : calls[call]? = some phase) :
    ∃ before after, calls = before ++ phase :: after ∧
      ∀ next, calls.set call next = before ++ next :: after := by
  obtain ⟨inside, rfl⟩ := List.getElem?_eq_some_iff.mp found
  refine ⟨calls.take call, calls.drop (call + 1), ?_, fun next => List.set_eq_take_append_cons_drop.trans ?_⟩
  · rw [← List.drop_eq_getElem_cons inside, List.take_append_drop]
  · rw [if_pos inside]

namespace Service

variable {limit : Nat} {service : Service}

/-- What holds however the threads take turns. -/
structure Sound (limit : Nat) (service : Service) : Prop where
  permits : service.permits + service.calls.countP Phase.holds = limit
  consistent : service.state.Consistent
  counted : service.state.active_generation_starts.length = service.inProgress.length
  loaded : ∀ phase ∈ service.calls, phase.passed = true → service.pipe = true
  past : ∀ started ∈ service.inProgress, started ≤ service.clock

theorem sound_start (limit : Nat) : (start limit).Sound limit where
  permits := rfl
  consistent := ⟨rfl, rfl⟩
  counted := rfl
  loaded _ member := by cases member
  past _ member := by cases member

/-- Every run in progress has a permit. -/
theorem Sound.limited (sound : service.Sound limit) : service.inProgress.length ≤ limit := by
  have fewer : service.inProgress.length ≤ service.calls.countP Phase.holds := by
    rw [inProgress, List.length_filterMap_eq_countP]
    refine List.countP_mono_left fun phase _ started => ?_
    cases phase <;> first | rfl | cases started
  have total := sound.permits
  omega

theorem inProgress_set {call : Nat} {phase next : Phase} (found : service.calls[call]? = some phase)
    (unstarted : phase.started? = none ∧ next.started? = none) :
    (service.calls.set call next).filterMap Phase.started? = service.inProgress := by
  obtain ⟨before, after, whole, changed⟩ := split_call found
  rw [changed, inProgress, whole]
  simp only [List.filterMap_append, List.filterMap_cons, unstarted.1, unstarted.2]

/-- A call goes on, but not past one of the marks. -/
theorem Sound.set (sound : service.Sound limit) {call permits : Nat} {phase next : Phase}
    (found : service.calls[call]? = some phase)
    (kept : permits + next.holds.toNat = service.permits + phase.holds.toNat)
    (unstarted : phase.started? = none ∧ next.started? = none)
    (passed : next.passed = true → service.pipe = true) :
    ({ service with permits := permits, calls := service.calls.set call next }).Sound limit := by
  obtain ⟨before, after, whole, changed⟩ := split_call found
  have same : ({ service with permits := permits, calls := service.calls.set call next }).inProgress =
      service.inProgress := inProgress_set found unstarted
  refine ⟨?_, sound.consistent, sound.counted.trans (congrArg List.length same.symm), ?_, ?_⟩
  · have total := sound.permits
    have counts : ∀ held : Bool, (if held = true then 1 else 0) = held.toNat := by decide
    rw [whole, List.countP_append, List.countP_cons, counts] at total
    show permits + (service.calls.set call next).countP Phase.holds = limit
    rw [changed, List.countP_append, List.countP_cons, counts]
    omega
  · intro other member passes
    rcases List.mem_or_eq_of_mem_set member with member | rfl
    · exact sound.loaded other member passes
    · exact passed passes
  · rw [same]
    exact sound.past

/-- A mark changes the record, and takes or leaves a start. -/
theorem Sound.mark (sound : service.Sound limit) {call : Nat} {phase next : Phase} {state : GenerationState}
    (found : service.calls[call]? = some phase) (holds : phase.holds = true ∧ next.holds = true)
    (passed : phase.passed = true) (consistent : state.Consistent)
    (counted : ∀ before after, service.calls = before ++ phase :: after →
      state.active_generation_starts.length = ((before ++ next :: after).filterMap Phase.started?).length)
    (past : ∀ started, next.started? = some started → started ≤ service.clock) :
    ({ service with state := state, calls := service.calls.set call next }).Sound limit := by
  obtain ⟨before, after, whole, changed⟩ := split_call found
  have pipe : service.pipe = true := sound.loaded phase (List.mem_of_getElem? found) passed
  refine ⟨?_, consistent, ?_, fun _ _ _ => pipe, ?_⟩
  · have total := sound.permits
    rw [whole, List.countP_append, List.countP_cons, holds.1] at total
    show service.permits + (service.calls.set call next).countP Phase.holds = limit
    rw [changed, List.countP_append, List.countP_cons, holds.2]
    exact total
  · show _ = ((service.calls.set call next).filterMap Phase.started?).length
    rw [changed]
    exact counted before after whole
  · intro started member
    obtain ⟨other, inside, starts⟩ := List.mem_filterMap.mp member
    rcases List.mem_or_eq_of_mem_set inside with inside | rfl
    · exact sound.past started (List.mem_filterMap.mpr ⟨other, inside, starts⟩)
    · exact past started starts

theorem Sound.move (sound : service.Sound limit) (step : Step) : (service.move step).Sound limit := by
  cases step with
  | call =>
    have same : (service.calls ++ [Phase.entered]).filterMap Phase.started? = service.inProgress := by
      rw [List.filterMap_append]
      exact List.append_nil _
    refine ⟨?_, sound.consistent, sound.counted.trans (congrArg List.length same.symm), ?_, ?_⟩
    · simpa [Service.move, Phase.holds] using sound.permits
    · intro phase member passed
      rcases List.mem_append.mp member with member | member
      · exact sound.loaded phase member passed
      · rw [List.mem_singleton.mp member] at passed
        cases passed
    · intro started member
      exact sound.past started (by rw [← same]; exact member)
  | loaded done =>
    refine ⟨sound.permits, sound.consistent, sound.counted, fun phase member passed => ?_, sound.past⟩
    exact Bool.or_eq_true_iff.mpr (.inl (sound.loaded phase member passed))
  | set_loading value =>
    exact ⟨sound.permits, sound.consistent.after (.loading value), sound.counted, sound.loaded, sound.past⟩
  | set_last_error value =>
    exact ⟨sound.permits, sound.consistent.after (.error value), sound.counted, sound.loaded, sound.past⟩
  | tick elapsed =>
    refine ⟨sound.permits, sound.consistent, sound.counted, sound.loaded, fun started member => ?_⟩
    exact le_trans (sound.past started member) (le_add_of_nonneg_right (le_max_left _ _))
  | check call =>
    rw [Service.move]
    split
    · rename_i found
      refine sound.set found ?_ ?_ ?_
      · cases service.pipe <;> rfl
      · cases service.pipe <;> exact ⟨rfl, rfl⟩
      · cases service.pipe with
        | false => exact fun passed => by cases passed
        | true => exact fun _ => rfl
    · exact sound
  | acquire call =>
    rw [Service.move]
    split
    · rename_i free
      refine sound.set free.1 ?_ ⟨rfl, rfl⟩ fun _ => sound.loaded _ (List.mem_of_getElem? free.1) rfl
      simp only [Phase.holds, Bool.toNat_true, Bool.toNat_false]
      omega
    · exact sound
  | mark_started call =>
    rw [Service.move]
    split
    · rename_i found
      refine sound.mark found ⟨rfl, rfl⟩ rfl (sound.consistent.after (.started service.clock)) ?_ ?_
      · intro before after whole
        have counted := sound.counted
        rw [inProgress, whole] at counted
        simp only [List.filterMap_append, List.filterMap_cons, Phase.started?, List.length_append] at counted
        simp only [GenerationState.mark_generation_started, List.filterMap_append, List.filterMap_cons,
          Phase.started?, List.length_append, List.length_cons, List.length_nil, counted]
        omega
      · rintro started ⟨⟩
        exact le_refl _
    · exact sound
  | mark_finished call =>
    rw [Service.move]
    split
    · rename_i started found
      refine sound.mark found ⟨rfl, rfl⟩ rfl (sound.consistent.after .finished) ?_ (fun _ h => by cases h)
      intro before after whole
      have counted := sound.counted
      rw [inProgress, whole] at counted
      simp only [List.filterMap_append, List.filterMap_cons, Phase.started?, List.length_append,
        List.length_cons] at counted
      simp only [GenerationState.mark_generation_finished, List.filterMap_append, List.filterMap_cons,
        Phase.started?, List.length_append, List.length_drop, counted]
      omega
    · exact sound
  | release call =>
    rw [Service.move]
    split
    · rename_i found
      exact sound.set found rfl ⟨rfl, rfl⟩ fun passed => by cases passed
    · exact sound

theorem sound_run (limit : Nat) (steps : List Step) : (run limit steps).Sound limit := by
  have kept : ∀ {service : Service}, service.Sound limit →
      (steps.foldl Service.move service).Sound limit := by
    induction steps with
    | nil => exact fun sound => sound
    | cons step later ih => exact fun sound => ih (sound.move step)
  exact kept (sound_start limit)

/-! ## Runs that finish oldest first -/

/-- The record knows the start of each run in progress, oldest first. -/
structure Matched (service : Service) : Prop where
  perm : service.state.active_generation_starts.Perm service.inProgress
  sorted : service.state.active_generation_starts.Pairwise (· ≤ ·)

/-- If the step finishes a run, none in progress is older. -/
def OldestFirst (service : Service) (step : Step) : Prop :=
  ∀ call started, step = .mark_finished call → service.calls[call]? = some (.running started) →
    ∀ other ∈ service.inProgress, started ≤ other

/-- Where a step leaves the record's starts and those in progress alone, they still match. -/
theorem Matched.of_same {after : Service} (matched : service.Matched)
    (starts : after.state.active_generation_starts = service.state.active_generation_starts)
    (runs : after.inProgress = service.inProgress) : after.Matched :=
  ⟨by rw [starts, runs]; exact matched.perm, by rw [starts]; exact matched.sorted⟩

theorem Matched.move (sound : service.Sound limit) (matched : service.Matched) {step : Step}
    (oldest : service.OldestFirst step) : (service.move step).Matched := by
  cases step with
  | call =>
    refine matched.of_same rfl ?_
    show (service.calls ++ [Phase.entered]).filterMap Phase.started? = service.inProgress
    rw [List.filterMap_append]
    exact List.append_nil _
  | loaded done => exact matched.of_same rfl rfl
  | set_loading value => exact matched.of_same rfl rfl
  | set_last_error value => exact matched.of_same rfl rfl
  | tick elapsed => exact matched.of_same rfl rfl
  | check call =>
    rw [Service.move]
    split
    · rename_i found
      refine matched.of_same rfl (inProgress_set found ?_)
      cases service.pipe <;> exact ⟨rfl, rfl⟩
    · exact matched
  | acquire call =>
    rw [Service.move]
    split
    · rename_i free
      exact matched.of_same rfl (inProgress_set free.1 ⟨rfl, rfl⟩)
    · exact matched
  | release call =>
    rw [Service.move]
    split
    · rename_i found
      exact matched.of_same rfl (inProgress_set found ⟨rfl, rfl⟩)
    · exact matched
  | mark_started call =>
    rw [Service.move]
    split
    · rename_i found
      obtain ⟨before, after, whole, changed⟩ := split_call found
      have perm := matched.perm
      rw [inProgress, whole] at perm
      simp only [List.filterMap_append, List.filterMap_cons, Phase.started?] at perm
      constructor
      · show (service.state.active_generation_starts ++ [service.clock]).Perm
          ((service.calls.set call (.running service.clock)).filterMap Phase.started?)
        rw [changed]
        simp only [List.filterMap_append, List.filterMap_cons, Phase.started?]
        exact (List.perm_append_singleton _ _).trans ((perm.cons _).trans List.perm_middle.symm)
      · -- Every start in the record is one in progress, so it is past.
        refine List.pairwise_append.mpr ⟨matched.sorted, List.pairwise_singleton _ _, ?_⟩
        intro started known now fresh
        rw [List.mem_singleton.mp fresh]
        exact sound.past started (matched.perm.mem_iff.mp known)
    · exact matched
  | mark_finished call =>
    rw [Service.move]
    split
    · rename_i started found
      obtain ⟨before, after, whole, changed⟩ := split_call found
      have first := oldest call started rfl found
      have perm := matched.perm
      have sorted := matched.sorted
      have runs : service.inProgress =
          before.filterMap Phase.started? ++ started :: after.filterMap Phase.started? := by
        rw [inProgress, whole, List.filterMap_append]
        rfl
      -- The start that is dropped is the least; so is the one of the run that finishes.
      cases starts : service.state.active_generation_starts with
      | nil =>
        rw [starts, runs] at perm
        cases List.append_eq_nil_iff.mp perm.nil_eq.symm |>.2
      | cons dropped rest =>
        rw [starts] at perm sorted
        have same : dropped = started := by
          have low : started ≤ dropped := first dropped (perm.mem_iff.mp List.mem_cons_self)
          have known : started ∈ dropped :: rest := perm.mem_iff.mpr (by rw [runs]; simp)
          rcases List.mem_cons.mp known with same | later
          · exact same.symm
          · exact le_antisymm ((List.pairwise_cons.mp sorted).1 started later) low
        constructor
        · show (service.state.active_generation_starts.drop 1).Perm
            ((service.calls.set call .finished).filterMap Phase.started?)
          rw [starts, changed]
          simp only [List.filterMap_append, List.filterMap_cons, Phase.started?]
          rw [runs, same] at perm
          exact (perm.trans List.perm_middle).cons_inv
        · show (service.state.active_generation_starts.drop 1).Pairwise (· ≤ ·)
          rw [starts]
          exact (List.pairwise_cons.mp sorted).2
    · exact matched

/-- Every step of the run that finishes a generation finishes the oldest. -/
def AllOldestFirst (limit : Nat) (steps : List Step) : Prop :=
  ∀ first step later, steps = first ++ step :: later → (run limit first).OldestFirst step

theorem AllOldestFirst.concat {first : List Step} {step : Step} (before : AllOldestFirst limit first)
    (oldest : (run limit first).OldestFirst step) : AllOldestFirst limit (first ++ [step]) := by
  intro earlier other later split
  rcases List.eq_nil_or_concat later with rfl | ⟨between, last, rfl⟩
  · obtain ⟨rfl, same⟩ := List.append_inj' split rfl
    rw [← List.singleton_inj.mp same]
    exact oldest
  · rw [List.concat_eq_append, ← List.cons_append, ← List.append_assoc] at split
    obtain ⟨rfl, _⟩ := List.append_inj' split rfl
    exact before earlier other between rfl

/-- Steps that finish no run come in any order. -/
theorem AllOldestFirst.append {first : List Step} (before : AllOldestFirst limit first) {later : List Step}
    (others : ∀ step ∈ later, step.finishes = false) : AllOldestFirst limit (first ++ later) := by
  induction later using List.reverseRecOn with
  | nil => rwa [List.append_nil]
  | append_singleton later step ih =>
    rw [← List.append_assoc]
    refine (ih fun other member => others other (List.mem_append_left _ member)).concat ?_
    rintro call started rfl
    cases others (.mark_finished call) (List.mem_append_right _ List.mem_cons_self)

theorem matched_run {steps : List Step} (oldest : AllOldestFirst limit steps) :
    (run limit steps).Matched := by
  induction steps using List.reverseRecOn with
  | nil => exact ⟨.nil, .nil⟩
  | append_singleton first step ih =>
    have before : AllOldestFirst limit first := by
      rintro earlier other later rfl
      exact oldest earlier other (later ++ [step]) (by simp)
    rw [run, List.foldl_append]
    exact (ih before).move (sound_run limit first) (oldest first step [] rfl)

end Service

end Text2Image.ModelService
