import Text2Image.Frontend.ImageGenerator

/-! Whether the generator view can go back in time. -/

set_option autoImplicit false

namespace Text2Image.generator

open View Page

namespace View

/-- The view shows this task in a terminal state. -/
def showsTerminal (view : View) (id : Int) : Bool := view.shows id ∧ isImageTerminalStatus view.status

def showsActive (view : View) (id : Int) : Bool := view.shows id ∧ ! isImageTerminalStatus view.status

/-- The state that a poll or a socket event brings. -/
def Step.message : Step → Option Task
  | .pollAnswered _ (some task) | .socketEvent task => some task
  | _ => none

/-- The guards let the message pass: a poll has the token of now, and the view shows the task. -/
def passes (view : View) : Step → Bool
  | .pollAnswered i _ => view.polls[i]?.any fun poll => poll.2 = view.activeTaskToken ∧ view.shows poll.1
  | .socketEvent task => view.shows task.id
  | _ => false

end View

/-- A message with a state before the terminal one that is shown. -/
def Page.Old (page : Page) (step : Step) (task : Task) : Prop :=
  page.carries step = true ∧ step.message = some task ∧ page.view.showsTerminal task.id = true ∧
    task.status.isTerminal = false

/-- Once the view has shown a task in a terminal state, it does not show it in another one again, and
older messages leave the progress alone.
-/
structure NeverBack (steps : List Step) : Prop where
  display : ∀ id earlier later, later <:+ steps → earlier <:+ later →
    (after earlier).view.showsTerminal id = true → (after later).view.showsActive id = false
  progress : ∀ step past task, step :: past <:+ steps → (after past).Old step task →
    (after (step :: past)).view.progress = (after past).view.progress ∧
    (after (step :: past)).view.progressTimer = (after past).view.progressTimer

/-- No such message passes the guards. -/
def NeverStale (steps : List Step) : Prop :=
  ∀ step past task, step :: past <:+ steps → (after past).Old step task → (after past).view.passes step = false

namespace View

/-! ## What is shown -/

/-- What an update makes of the image. -/
def imageOf (task : Task) : Image := ⟨task.id, statusToString task.status⟩

variable {view : View}

@[simp] theorem currentImage_applyTaskUpdate (task : Task) :
    (view.applyTaskUpdate task).currentImage = some (imageOf task) := by
  unfold applyTaskUpdate syncProgressFromStatus
  dsimp only
  split
  · rfl
  · split
    · rfl
    · split <;> rfl

@[simp] theorem currentImage_failGenerate (taskToken : Nat) :
    (view.failGenerate taskToken).currentImage = view.currentImage := by
  unfold failGenerate
  dsimp only
  split
  · rfl
  · split <;> rfl

theorem currentImage_completeGenerate {image : Image} (taskToken : Nat) (shown : view.currentImage = some image) :
    (view.completeGenerate taskToken image).currentImage = some image := by
  unfold completeGenerate
  dsimp only
  split
  · exact shown
  · split
    · rfl
    · rw [currentImage_failGenerate]

theorem currentImage_resolveTaskWaiter {image : Image} (shown : view.currentImage = some image) :
    (view.resolveTaskWaiter image).currentImage = some image := by
  unfold resolveTaskWaiter
  split
  · exact shown
  · exact currentImage_completeGenerate _ shown

theorem currentImage_settle {task : Task} (shown : view.currentImage = some (imageOf task)) :
    (view.settle task).currentImage = some (imageOf task) :=
  currentImage_resolveTaskWaiter shown

@[simp] theorem currentImage_pollAgain (taskId : Int) (taskToken : Nat) :
    (view.pollAgain taskId taskToken).currentImage = view.currentImage := by
  unfold pollAgain
  split <;> rfl

theorem currentImage_submitted (taskToken : Nat) (task : Task) :
    (view.submitted taskToken task).currentImage = some (imageOf task) := by
  unfold View.submitted
  dsimp only
  split
  · exact currentImage_completeGenerate _ (currentImage_applyTaskUpdate task)
  · exact currentImage_applyTaskUpdate task

theorem currentImage_handleTaskSocketEvent (task : Task) :
    (view.handleTaskSocketEvent task).currentImage =
      if view.shows task.id then some (imageOf task) else view.currentImage := by
  unfold handleTaskSocketEvent
  dsimp only
  by_cases shown : view.shows task.id = true
  · simp only [shown, Bool.not_true, Bool.false_eq_true, if_false, if_true]
    split
    · exact currentImage_settle (currentImage_applyTaskUpdate task)
    · exact currentImage_applyTaskUpdate task
  · simp [shown]

theorem currentImage_pollAnswered (taskId : Int) (taskToken : Nat) (task : Task) :
    (view.pollAnswered taskId taskToken (some task)).currentImage =
      if taskToken = view.activeTaskToken ∧ view.shows taskId then some (imageOf task) else view.currentImage := by
  unfold View.pollAnswered
  dsimp only
  by_cases pass : taskToken = view.activeTaskToken ∧ view.shows taskId = true
  · rw [if_pos pass, if_neg (by simp [pass.1, pass.2])]
    split
    · exact currentImage_settle (currentImage_applyTaskUpdate task)
    · rw [currentImage_pollAgain]
      exact currentImage_applyTaskUpdate task
  · rw [if_neg pass, if_pos]
    rw [Decidable.not_and_iff_or_not] at pass
    exact pass.imp_right fun hidden => by simpa using hidden

theorem currentImage_taskTimedOut : view.taskTimedOut.currentImage = view.currentImage := by
  unfold View.taskTimedOut
  split
  · rfl
  · dsimp only
    split
    · rfl
    · unfold rejectTaskWaiter
      split
      · rfl
      · rw [currentImage_failGenerate]
        rfl

theorem currentImage_cancelAnswered (task : Task) :
    (view.cancelAnswered (some task)).currentImage = some (imageOf task) := by
  unfold View.cancelAnswered
  exact currentImage_resolveTaskWaiter (currentImage_applyTaskUpdate task)

end View

/-! ## Steps -/

variable {page : Page}

/-- Where a shown update comes from: it is of a new task, or terminal, or a message that passes. -/
def Page.Source (page : Page) (step : Step) (task : Task) : Prop :=
  (∀ old ∈ page.history, old.id ≠ task.id) ∨ task.status.isTerminal = true ∨
    (step.message = some task ∧ page.view.passes step = true ∧ page.view.shows task.id = true)

/-- A step leaves what is shown, or shows nothing, or an update. -/
theorem currentImage_perform {step : Step} (carried : page.carries step = true) :
    (page.view.perform step).currentImage = page.view.currentImage ∨
    (page.view.perform step).currentImage = none ∨
    ∃ task, (page.view.perform step).currentImage = some (imageOf task) ∧ page.Source step task ∧
      ∃ old ∈ page.recorded step, old.id = task.id := by
  cases step with
  | generate valid =>
    cases valid with
    | true => exact .inr (.inl rfl)
    | false => exact .inl (currentImage_failGenerate _)
  | submitted taskToken answer =>
    cases answer with
    | none => exact .inl (currentImage_failGenerate _)
    | some task =>
      obtain ⟨_, new⟩ := of_decide_eq_true carried
      refine .inr (.inr ⟨task, currentImage_submitted taskToken task, .inl ?_, task, List.mem_cons_self, rfl⟩)
      simpa using new
  | advance task => exact .inl rfl
  | pollTimeout =>
    refine .inl ?_
    unfold View.perform View.pollTimeout
    dsimp only
    split
    · rfl
    · split <;> rfl
  | pollAnswered i answer =>
    obtain ⟨poll, found, matching⟩ := (Option.any_eq_true _ _).mp carried
    unfold View.perform
    dsimp only
    rw [found]
    dsimp only
    cases answer with
    | none => exact .inl (currentImage_pollAgain _ _)
    | some task =>
      obtain ⟨member, own⟩ := of_decide_eq_true matching
      rw [currentImage_pollAnswered]
      split
      · rename_i pass
        refine .inr (.inr ⟨task, rfl, .inr (.inr ⟨rfl, ?_, own ▸ pass.2⟩), task, member, rfl⟩)
        exact (Option.any_eq_true _ _).mpr ⟨poll, found, decide_eq_true pass⟩
      · exact .inl rfl
  | socketEvent task =>
    have member : task ∈ page.history := of_decide_eq_true carried
    have shown : (page.view.perform (.socketEvent task)).currentImage =
        if page.view.shows task.id then some (imageOf task) else page.view.currentImage :=
      currentImage_handleTaskSocketEvent task
    rw [shown]
    split
    · rename_i pass
      exact .inr (.inr ⟨task, rfl, .inr (.inr ⟨rfl, pass, pass⟩), task, member, rfl⟩)
    · exact .inl rfl
  | taskTimedOut => exact .inl currentImage_taskTimedOut
  | tick =>
    refine .inl ?_
    unfold View.perform View.tick
    dsimp only
    split <;> rfl
  | cancel =>
    refine .inl ?_
    unfold View.perform View.handleCancelCurrentTask
    dsimp only
    split
    · rfl
    · split <;> rfl
  | cancelAnswered id answer =>
    cases answer with
    | none => exact .inl rfl
    | some task =>
      obtain ⟨_, matching⟩ := of_decide_eq_true carried
      obtain ⟨member, _, terminal⟩ := of_decide_eq_true matching
      exact .inr (.inr ⟨task, currentImage_cancelAnswered task, .inr (.inl terminal), task, member, rfl⟩)
  | reset => exact .inr (.inl rfl)

theorem mem_recorded {step : Step} {old : Task} (member : old ∈ page.history) : old ∈ page.recorded step := by
  unfold recorded
  split
  · exact List.mem_cons_of_mem _ member
  · exact List.mem_cons_of_mem _ member
  · exact member

/-! ## Runs -/

/-- Only tasks of the backend are shown. -/
def Page.Known (page : Page) : Prop :=
  ∀ image, page.view.currentImage = some image → ∃ old ∈ page.history, old.id = image.id

theorem Page.Known.step (known : page.Known) (step : Step) : (page.step step).Known := by
  unfold Page.step
  split
  · rename_i carried
    intro image shown
    rcases currentImage_perform carried with same | gone | ⟨task, updated, _, old, member, own⟩
    · obtain ⟨old, member, own⟩ := known image (same.symm.trans shown)
      exact ⟨old, mem_recorded member, own⟩
    · rw [show _ = none from gone] at shown
      cases shown
    · obtain rfl := Option.some.inj (updated.symm.trans shown)
      exact ⟨old, member, own⟩
  · exact known

theorem known_after (steps : List Step) : (after steps).Known := by
  induction steps with
  | nil =>
    intro image shown
    cases shown
  | cons step past ih => exact ih.step step

/-- The task exists, and the view does not show it in a state before the terminal one. -/
structure Page.Over (page : Page) (id : Int) : Prop where
  exists_task : ∃ old ∈ page.history, old.id = id
  terminal : ∀ image, page.view.currentImage = some image → image.id = id →
    isImageTerminalStatus image.status = true

theorem shows_iff {view : View} {id : Int} :
    view.shows id = true ↔ ∃ image, view.currentImage = some image ∧ image.id = id := by
  unfold View.shows
  simp [Option.any_eq_true]

theorem status_of_shown {view : View} {image : Image} (shown : view.currentImage = some image) :
    view.status = image.status := by
  rw [View.status, shown]
  rfl

theorem Page.Over.step {id : Int} (finished : page.Over id) (step : Step)
    (fresh : ∀ task, page.Old step task → page.view.passes step = false) : (page.step step).Over id := by
  unfold Page.step
  split
  · rename_i carried
    obtain ⟨old, member, own⟩ := finished.exists_task
    refine ⟨⟨old, mem_recorded member, own⟩, ?_⟩
    intro image shown here
    rcases currentImage_perform carried with same | gone | ⟨task, updated, source, _⟩
    · exact finished.terminal image (same.symm.trans shown) here
    · rw [show _ = none from gone] at shown
      cases shown
    · obtain rfl := Option.some.inj (updated.symm.trans shown)
      have status : isImageTerminalStatus (imageOf task).status = task.status.isTerminal :=
        isImageTerminalStatus_statusToString task.status
      rw [status]
      rcases source with new | terminal | ⟨message, passed, before⟩
      · exact (new old member (own.trans here.symm)).elim
      · exact terminal
      · by_contra active
        obtain ⟨current, displayed, same⟩ := shows_iff.mp before
        have shown_terminal : page.view.showsTerminal task.id = true := by
          refine decide_eq_true ⟨before, ?_⟩
          rw [status_of_shown displayed]
          exact finished.terminal current displayed (same.trans here)
        rw [fresh task ⟨carried, message, shown_terminal, by simpa using active⟩] at passed
        cases passed
  · exact finished

theorem over_of_showsTerminal {id : Int} (known : page.Known) (shown : page.view.showsTerminal id = true) :
    page.Over id := by
  obtain ⟨here, terminal⟩ := of_decide_eq_true shown
  obtain ⟨image, displayed, own⟩ := shows_iff.mp here
  refine ⟨?_, ?_⟩
  · rw [← own]
    exact known image displayed
  · intro other same _
    obtain rfl := Option.some.inj (displayed.symm.trans same)
    rwa [← status_of_shown displayed]

theorem Page.Over.not_showsActive {id : Int} (finished : page.Over id) : page.view.showsActive id = false := by
  refine decide_eq_false ?_
  rintro ⟨here, active⟩
  obtain ⟨image, displayed, own⟩ := shows_iff.mp here
  rw [status_of_shown displayed, finished.terminal image displayed own] at active
  cases active

theorem over_after {steps earlier : List Step} (fresh : NeverStale steps) {id : Int}
    (finished : (after earlier).Over id) : ∀ later, later <:+ steps → earlier <:+ later → (after later).Over id := by
  intro later
  induction later with
  | nil =>
    intro _ before
    rwa [List.suffix_nil.mp before] at finished
  | cons step past ih =>
    intro inside before
    rcases List.suffix_cons_iff.mp before with rfl | within
    · exact finished
    · have rest : past <:+ steps := (List.suffix_cons step past).trans inside
      exact (ih rest within).step step fun task old => fresh step past task inside old

/-- A message that the guards stop changes nothing that is shown. -/
theorem progress_stopped {step : Step} {task : Task} (old : page.Old step task)
    (stopped : page.view.passes step = false) :
    (page.step step).view.progress = page.view.progress ∧
    (page.step step).view.progressTimer = page.view.progressTimer := by
  obtain ⟨carried, message, shown, _⟩ := old
  unfold Page.step
  rw [if_pos carried]
  cases step with
  | pollAnswered i answer =>
    cases answer with
    | none => cases message
    | some update =>
      obtain ⟨poll, found, _⟩ := (Option.any_eq_true _ _).mp carried
      have blocked : poll.2 ≠ page.view.activeTaskToken ∨ page.view.shows poll.1 = false := by
        simp only [passes, found, Option.any_some, decide_eq_false_iff_not, Decidable.not_and_iff_or_not] at stopped
        simpa using stopped
      unfold View.perform
      dsimp only
      rw [found]
      unfold View.pollAnswered
      dsimp only
      rw [if_pos]
      · exact ⟨rfl, rfl⟩
      · exact blocked.imp_right fun hidden => (Bool.not_eq_true' _).mpr hidden
  | socketEvent update =>
    obtain rfl := Option.some.inj message
    have here : page.view.shows update.id = true := (of_decide_eq_true shown).1
    rw [show page.view.shows update.id = false from stopped] at here
    cases here
  | _ => cases message

/-- One that passes is shown. -/
theorem showsActive_passed {step : Step} {task : Task} (old : page.Old step task)
    (passed : page.view.passes step = true) : (page.step step).view.showsActive task.id = true := by
  obtain ⟨carried, message, _, active⟩ := old
  have updated : (page.view.perform step).currentImage = some (imageOf task) := by
    cases step with
    | pollAnswered i answer =>
      cases answer with
      | none => cases message
      | some update =>
        obtain rfl := Option.some.inj message
        obtain ⟨poll, found, pass⟩ := (Option.any_eq_true _ _).mp passed
        unfold View.perform
        dsimp only
        rw [found]
        exact (currentImage_pollAnswered _ _ _).trans (if_pos (of_decide_eq_true pass))
    | socketEvent update =>
      obtain rfl := Option.some.inj message
      exact (currentImage_handleTaskSocketEvent update).trans (if_pos passed)
    | _ => cases message
  unfold Page.step
  rw [if_pos carried]
  refine decide_eq_true ⟨shows_iff.mpr ⟨imageOf task, updated, rfl⟩, ?_⟩
  rw [status_of_shown updated]
  simpa [imageOf, isImageTerminalStatus_statusToString] using active

/-- A run of the view never goes back exactly when no message passes that is older than a terminal state
on display.
-/
theorem neverBack_iff (steps : List Step) : NeverBack steps ↔ NeverStale steps := by
  constructor
  · intro never step past task inside old
    by_contra passed
    have active := showsActive_passed old (by simpa using passed)
    have hidden := never.display task.id past (step :: past) inside (List.suffix_cons step past) old.2.2.1
    rw [after, active] at hidden
    cases hidden
  · intro fresh
    refine ⟨?_, ?_⟩
    · intro id earlier later inside before shown
      exact (over_after fresh (over_of_showsTerminal (known_after earlier) shown) later inside before).not_showsActive
    · intro step past task inside old
      exact progress_stopped old (fresh step past task inside old)

/-- A poll is under way when the event of the success comes; its answer is older, and makes the view
show the task as generating again.
-/
theorem poll_goes_back :
    let earlier : List Step :=
      [.socketEvent ⟨5, .Success⟩, .advance ⟨5, .Success⟩, .advance ⟨5, .Generating⟩, .pollTimeout,
        .submitted 1 (some ⟨5, .Queued⟩), .generate true]
    let later : List Step := .pollAnswered 0 (some ⟨5, .Generating⟩) :: earlier
    (after earlier).view.showsTerminal 5 = true ∧ (after later).view.showsActive 5 = true ∧
    (after later).view.status = "generating" := by
  decide +kernel

end Text2Image.generator
