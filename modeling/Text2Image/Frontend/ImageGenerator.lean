import Mathlib.Data.List.Infix
import Text2Image.Models.TaskStatus

/-! The generator view of the page: one task at a time is submitted, polled and listened to. A handler runs
to its next point of waiting, with the continuations it wakes. What else a task carries than
its id and status is left out.
-/

set_option autoImplicit false

namespace Text2Image.generator

/-! ## Statuses as the page reads them -/

def IMAGE_ACTIVE_STATUSES : List String := ["queued", "pending", "generating"]
def IMAGE_TERMINAL_STATUSES : List String := ["success", "failed", "cancelled", "timeout"]

def normalizeImageStatus (status : String) : String := status.toLower

def isImageTerminalStatus (status : String) : Bool :=
  IMAGE_TERMINAL_STATUSES.contains (normalizeImageStatus status)

def canCancelImageTask (status : String) : Bool :=
  IMAGE_ACTIVE_STATUSES.contains (normalizeImageStatus status)

/-- The page and the backend agree on what is terminal. -/
theorem isImageTerminalStatus_statusToString (status : TaskStatus) :
    isImageTerminalStatus (statusToString status) = status.isTerminal := by
  cases status <;> decide +kernel

/-! ## The view -/

/-- A state of a task, as an answer or a socket event carries it. -/
structure Task where
  id : Int
  status : TaskStatus
  deriving DecidableEq, Repr

structure Image where
  id : Int
  status : String
  deriving DecidableEq, Repr

/-- `waiter` is the token of the call of `handleGenerate` that waits for its task to be completed, and
`taskTimeout` that of its timer. What is under way comes last: calls that submit, polls with the
task and the token they were scheduled for, calls that cancel.
-/
structure View where
  loading : Bool := false
  cancelling : Bool := false
  progress : Nat := 0
  currentImage : Option Image := none
  activeTaskToken : Nat := 0
  progressTimer : Bool := false
  taskPollTimer : Option (Int × Nat) := none
  taskTimeout : Option Nat := none
  waiter : Option Nat := none
  submissions : List Nat := []
  polls : List (Int × Nat) := []
  cancels : List Int := []
  deriving DecidableEq, Repr

namespace View

variable (view : View)

def status : String := (view.currentImage.map Image.status).getD ""

def shows (id : Int) : Bool := view.currentImage.any fun image => image.id = id

def clearTaskWaiter : View := { view with taskTimeout := none, taskPollTimer := none, waiter := none }

def stopProgressAnimation : View := { view with progressTimer := false }

def syncProgressFromStatus : View :=
  let normalized := normalizeImageStatus view.status
  if normalized = "queued" ∨ normalized = "pending" then { view with progress := max view.progress 15 }
  else if normalized = "generating" then { view with progress := max view.progress 70 }
  else if isImageTerminalStatus normalized then { view with progress := 100 }
  else view

def applyTaskUpdate (task : Task) : View :=
  syncProgressFromStatus { view with currentImage := some ⟨task.id, statusToString task.status⟩ }

/-! ## `handleGenerate` -/

/-- Its `catch` and its `finally`, in the call with this token. -/
def failGenerate (taskToken : Nat) : View :=
  if taskToken ≠ view.activeTaskToken then view
  else
    let left := if view.loading then { view.clearTaskWaiter.stopProgressAnimation with progress := 0 } else view
    { left with loading := false, cancelling := false }

/-- Where it goes on with its final image. -/
def completeGenerate (taskToken : Nat) (finalImage : Image) : View :=
  if taskToken ≠ view.activeTaskToken then view
  else
    let left := { view.stopProgressAnimation with progress := 100, currentImage := some finalImage }
    let finalStatus := normalizeImageStatus finalImage.status
    if finalStatus = "success" ∨ finalStatus = "cancelled" ∨ finalStatus = "timeout" then
      { left with loading := false, cancelling := false }
    else left.failGenerate taskToken

def resolveTaskWaiter (task : Image) : View :=
  match view.waiter with
  | none => view
  | some taskToken => view.clearTaskWaiter.completeGenerate taskToken task

def rejectTaskWaiter : View :=
  match view.waiter with
  | none => view
  | some taskToken => view.clearTaskWaiter.failGenerate taskToken

def scheduleTaskStatusPoll (taskId : Int) (taskToken : Nat) : View :=
  { view with taskPollTimer := some (taskId, taskToken) }

/-- Up to the call that submits the form, which may not be valid. -/
def handleGenerate (valid : Bool) : View :=
  let taskToken := view.activeTaskToken + 1
  let view := { view with activeTaskToken := taskToken }
  if valid then
    { view.clearTaskWaiter with
      loading := true
      cancelling := false
      progress := 10
      currentImage := none
      progressTimer := true
      submissions := view.submissions ++ [taskToken] }
  else view.failGenerate taskToken

/-- Behind that call. -/
def submitted (taskToken : Nat) (queuedTask : Task) : View :=
  let view := view.applyTaskUpdate queuedTask
  let image : Image := ⟨queuedTask.id, statusToString queuedTask.status⟩
  if isImageTerminalStatus image.status then view.completeGenerate taskToken image
  else
    let waiting := { view with waiter := some taskToken, taskTimeout := some taskToken }
    waiting.scheduleTaskStatusPoll queuedTask.id taskToken

/-! ## The other handlers -/

/-- What is left to do for an update that may complete the task. -/
def settle (task : Task) : View :=
  view.stopProgressAnimation.resolveTaskWaiter ⟨task.id, statusToString task.status⟩

def handleTaskSocketEvent (task : Task) : View :=
  if ! view.shows task.id then view
  else
    let latest := view.applyTaskUpdate task
    if isImageTerminalStatus latest.status then latest.settle task else latest

/-- The end of a poll that has not completed the task. -/
def pollAgain (taskId : Int) (taskToken : Nat) : View :=
  if taskToken = view.activeTaskToken ∧ view.loading ∧ view.shows taskId then
    view.scheduleTaskStatusPoll taskId taskToken
  else view

def pollAnswered (taskId : Int) (taskToken : Nat) (answer : Option Task) : View :=
  match answer with
  | none => view.pollAgain taskId taskToken
  | some task =>
    if taskToken ≠ view.activeTaskToken ∨ ! view.shows taskId then view
    else
      let latest := view.applyTaskUpdate task
      if isImageTerminalStatus latest.status then latest.settle task else latest.pollAgain taskId taskToken

def pollTimeout : View :=
  match view.taskPollTimer with
  | none => view
  | some (taskId, taskToken) =>
    let view := { view with taskPollTimer := none }
    if taskToken ≠ view.activeTaskToken ∨ ! view.loading ∨ ! view.shows taskId then view
    else { view with polls := view.polls ++ [(taskId, taskToken)] }

def taskTimedOut : View :=
  match view.taskTimeout with
  | none => view
  | some taskToken =>
    let view := { view with taskTimeout := none }
    if taskToken ≠ view.activeTaskToken then view else view.rejectTaskWaiter

/-- A tick of the progress animation. -/
def tick : View :=
  if ! view.progressTimer ∨ ! view.loading then view
  else
    let cap := if normalizeImageStatus view.status = "generating" then 92 else 45
    { view with progress := min cap (view.progress + 1) }

def handleCancelCurrentTask : View :=
  match view.currentImage with
  | none => view
  | some image =>
    if ! canCancelImageTask image.status ∨ view.cancelling then view
    else { view with cancelling := true, cancels := view.cancels ++ [image.id] }

def cancelAnswered (answer : Option Task) : View :=
  match answer with
  | none => { view with cancelling := false }
  | some task =>
    let stopped := { view.stopProgressAnimation with loading := false, progress := 100 }
    let latest := { stopped.applyTaskUpdate task with cancelling := false }
    latest.resolveTaskWaiter ⟨task.id, statusToString task.status⟩

def handleReset : View :=
  { view.clearTaskWaiter.stopProgressAnimation with
    activeTaskToken := view.activeTaskToken + 1
    loading := false
    cancelling := false
    progress := 0
    currentImage := none }

/-! ## Steps -/

inductive Step where
  | generate (valid : Bool)
  | submitted (taskToken : Nat) (answer : Option Task)
  | advance (task : Task)
  | pollTimeout
  | pollAnswered (i : Nat) (answer : Option Task)
  | socketEvent (task : Task)
  | taskTimedOut
  | tick
  | cancel
  | cancelAnswered (id : Int) (answer : Option Task)
  | reset
  deriving DecidableEq, Repr

/-- What the view does; the backend goes on without it. -/
def perform : Step → View
  | .generate valid => view.handleGenerate valid
  | .submitted taskToken answer =>
    let left := { view with submissions := view.submissions.erase taskToken }
    match answer with
    | none => left.failGenerate taskToken
    | some task => left.submitted taskToken task
  | .advance _ => view
  | .pollTimeout => view.pollTimeout
  | .pollAnswered i answer =>
    match view.polls[i]? with
    | none => view
    | some (taskId, taskToken) =>
      pollAnswered { view with polls := view.polls.eraseIdx i } taskId taskToken answer
  | .socketEvent task => view.handleTaskSocketEvent task
  | .taskTimedOut => view.taskTimedOut
  | .tick => view.tick
  | .cancel => view.handleCancelCurrentTask
  | .cancelAnswered id answer => cancelAnswered { view with cancels := view.cancels.erase id } answer
  | .reset => view.handleReset

end View

/-! ## The view and the backend -/

/-- How far a task is. -/
def rank : TaskStatus → Nat
  | .Pending | .Queued | .Unknown => 0
  | .Generating => 1
  | .Success | .Failed | .Cancelled | .Timeout => 2

/-- `history` are the states that the backend's tasks have had, newest first. -/
structure Page where
  view : View := {}
  history : List Task := []
  deriving DecidableEq, Repr

namespace Page

open View

variable (page : Page)

/-- The backend may bring the task to this state: it exists, and it goes on. -/
def advances (task : Task) : Bool :=
  (page.history.any fun old => old.id = task.id) ∧
    page.history.all fun old =>
      old.id ≠ task.id ∨ (rank old.status ≤ rank task.status ∧ ! old.status.isTerminal)

/-- Whether a message can come now. A submission is answered with a new task, a poll and an event with a
state that the task has had, a cancellation with a terminal one.
-/
def carries : Step → Bool
  | .submitted taskToken answer => taskToken ∈ page.view.submissions ∧
      answer.all fun task => page.history.all fun old => old.id ≠ task.id
  | .advance task => page.advances task
  | .pollAnswered i answer => page.view.polls[i]?.any fun poll =>
      answer.all fun task => task ∈ page.history ∧ task.id = poll.1
  | .socketEvent task => task ∈ page.history
  | .cancelAnswered id answer => id ∈ page.view.cancels ∧
      answer.all fun task => task ∈ page.history ∧ task.id = id ∧ task.status.isTerminal
  | _ => true

def recorded : Step → List Task
  | .submitted _ (some task) | .advance task => task :: page.history
  | _ => page.history

/-- A step that cannot happen now does nothing. -/
def step (step : Step) : Page :=
  if page.carries step then ⟨page.view.perform step, page.recorded step⟩ else page

/-- A page after some steps, newest first. -/
def after : List Step → Page
  | [] => {}
  | step :: past => (after past).step step

end Page

end Text2Image.generator
