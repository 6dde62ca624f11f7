import Mathlib.Data.List.Infix

/-! The task socket of a browser tab: the variables of its module, and the sockets and timers of the
browser. An event handler that tells the listeners is left in the middle while they run, and
no other event is delivered then.
-/

set_option autoImplicit false

namespace Text2Image.taskSocket

inductive ReadyState where
  | connecting
  | open
  | closing
  | closed
  deriving DecidableEq, Repr

/-- The address of a socket contains the token it was made with. -/
structure WebSocket where
  readyState : ReadyState
  token : String
  deriving DecidableEq, Repr

/-- Which handler tells the listeners of its event. -/
inductive Handler where
  | onopen
  | onmessage
  | onclose (code : Nat)
  deriving DecidableEq, Repr

/-- Sockets are named by the order in which they were made. Timers count from 1; the listeners are
a set.
-/
structure Tab where
  sockets : List WebSocket := []
  timers : List Nat := []
  nextTimer : Nat := 1
  token : String := ""
  handler : Option Handler := none
  listeners : List Nat := []
  socket : Option Nat := none
  reconnectTimer : Nat := 0
  reconnectDelayMs : Nat := 1000
  manualClose : Bool := false
  deriving DecidableEq, Repr

namespace Tab

variable (tab : Tab)

def readyState (id : Nat) : Option ReadyState := (tab.sockets[id]?).map WebSocket.readyState

def isLive (id : Nat) : Bool := tab.readyState id = some .open ∨ tab.readyState id = some .connecting

def setReadyState (id : Nat) (state : ReadyState) : Tab :=
  { tab with sockets := tab.sockets.modify id fun socket => { socket with readyState := state } }

/-! ## The module -/

def clearReconnectTimer : Tab :=
  if tab.reconnectTimer ≠ 0 then
    { tab with timers := tab.timers.erase tab.reconnectTimer, reconnectTimer := 0 }
  else tab

def buildSocketUrl : Option String := if tab.token.isEmpty then none else some tab.token

def scheduleReconnect : Tab :=
  if tab.manualClose ∨ tab.reconnectTimer ≠ 0 ∨ tab.listeners.isEmpty then tab
  else
    { tab with
      timers := tab.nextTimer :: tab.timers
      nextTimer := tab.nextTimer + 1
      reconnectTimer := tab.nextTimer
      reconnectDelayMs := min (tab.reconnectDelayMs * 2) 5000 }

def ensureTaskSocketConnected : Tab :=
  if tab.socket.any tab.isLive then tab
  else
    match tab.buildSocketUrl with
    | none => tab
    | some token =>
      { tab with
        manualClose := false
        sockets := tab.sockets ++ [⟨.connecting, token⟩]
        socket := some tab.sockets.length }

def closeTaskSocket : Tab :=
  let stopped := clearReconnectTimer { tab with manualClose := true }
  match stopped.socket with
  | none => stopped
  | some activeSocket =>
    let left := { stopped with socket := none }
    -- the close event follows later
    if left.isLive activeSocket then left.setReadyState activeSocket .closing else left

def subscribeTaskEvents (listener : Nat) : Tab :=
  ensureTaskSocketConnected { tab with listeners := tab.listeners.insert listener }

/-- The function that `subscribeTaskEvents` returns. -/
def unsubscribe (listener : Nat) : Tab :=
  let left := { tab with listeners := tab.listeners.erase listener }
  if left.listeners.isEmpty then left.closeTaskSocket else left

/-- The end of a handler, behind the listeners. -/
def finish : Handler → Tab
  | .onopen | .onmessage => tab
  | .onclose code => if code = 1008 then tab else tab.scheduleReconnect

/-- Without listeners there is nothing to wait for. -/
def dispatch (handler : Handler) : Tab :=
  if tab.listeners.isEmpty then tab.finish handler else { tab with handler := some handler }

/-! ## Steps -/

/-- What the page calls. The token is stored by the login and removed by the logout. -/
inductive Call where
  | subscribeTaskEvents (listener : Nat)
  | unsubscribe (listener : Nat)
  | closeTaskSocket
  | ensureTaskSocketConnected
  | storeToken (token : String)
  deriving DecidableEq, Repr

def perform : Call → Tab
  | .subscribeTaskEvents listener => tab.subscribeTaskEvents listener
  | .unsubscribe listener => tab.unsubscribe listener
  | .closeTaskSocket => tab.closeTaskSocket
  | .ensureTaskSocketConnected => tab.ensureTaskSocketConnected
  | .storeToken token => { tab with token }

/-- What the browser does on its own: with `closing` the other side begins to close. -/
inductive Event where
  | opened (id : Nat)
  | message (id : Nat) (parses : Bool)
  | error (id : Nat)
  | closing (id : Nat)
  | closed (id code : Nat)
  | timeout (timer : Nat)
  deriving DecidableEq, Repr

/-- A socket closes once. -/
def canClose (id : Nat) : Bool :=
  tab.handler = none ∧ tab.readyState id ≠ none ∧ tab.readyState id ≠ some .closed

/-- An event that cannot happen now does nothing. -/
def receive : Event → Tab
  | .opened id =>
    if tab.readyState id = some .connecting then
      dispatch { tab.setReadyState id .open with reconnectDelayMs := 1000 } .onopen
    else tab
  | .message id parses =>
    if tab.readyState id = some .open ∧ parses then tab.dispatch .onmessage else tab
  | .error _ => tab
  | .closing id => if tab.isLive id then tab.setReadyState id .closing else tab
  | .closed id code =>
    if tab.canClose id then
      dispatch { tab.setReadyState id .closed with socket := none } (.onclose code)
    else tab
  | .timeout timer =>
    if timer ∈ tab.timers then
      ensureTaskSocketConnected { tab with timers := tab.timers.erase timer, reconnectTimer := 0 }
    else tab

inductive Step where
  | call (call : Call)
  | event (event : Event)
  | returned
  deriving DecidableEq, Repr

def step : Step → Tab
  | .call call => tab.perform call
  | .event event => if tab.handler.isSome then tab else tab.receive event
  | .returned =>
    match tab.handler with
    | none => tab
    | some handler => finish { tab with handler := none } handler

/-- A tab after some steps, newest first. -/
def after : List Step → Tab
  | [] => {}
  | step :: past => (after past).step step

end Tab

/-! ## What is live -/

namespace Tab

variable {tab : Tab}

theorem isLive_iff {id : Nat} :
    tab.isLive id = true ↔ tab.readyState id = some .open ∨ tab.readyState id = some .connecting :=
  decide_eq_true_iff

theorem readyState_setReadyState (id other : Nat) (state : ReadyState) :
    (tab.setReadyState id state).readyState other =
      if id = other then (tab.readyState other).map fun _ => state else tab.readyState other := by
  unfold readyState setReadyState
  rw [List.getElem?_modify]
  by_cases here : id = other
  · simp [here, Function.comp_def]
  · simp [here]

/-- Nothing that is said to be closed or closing is live. -/
theorem isLive_ended {id other : Nat} {state : ReadyState} (ended : state = .closing ∨ state = .closed)
    (live : (tab.setReadyState id state).isLive other = true) : tab.isLive other = true ∧ other ≠ id := by
  rw [isLive_iff, readyState_setReadyState] at live
  by_cases here : id = other
  · rw [if_pos here] at live
    rcases ended with rfl | rfl <;> cases found : tab.readyState other <;> simp [found] at live
  · rw [if_neg here] at live
    exact ⟨isLive_iff.mpr live, Ne.symm here⟩

/-- Another socket is as live as before. -/
theorem isLive_other {id other : Nat} (apart : other ≠ id) (state : ReadyState) :
    (tab.setReadyState id state).isLive other = tab.isLive other := by
  unfold isLive
  rw [readyState_setReadyState, if_neg (Ne.symm apart)]

end Tab

end Text2Image.taskSocket
