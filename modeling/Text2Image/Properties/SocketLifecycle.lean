import Text2Image.Frontend.TaskSocket

/-! How many live sockets a tab can have. -/

set_option autoImplicit false

namespace Text2Image.taskSocket.Tab

/-- Every live socket is the one that the module holds. -/
def Referred (tab : Tab) : Prop := ∀ id, tab.isLive id = true → tab.socket = some id

/-- There is one live socket at most, the module holds it, and closing closes it. -/
structure OneLive (tab : Tab) : Prop where
  referred : tab.Referred
  unique : ∀ id other, tab.isLive id = true → tab.isLive other = true → id = other
  closes : ∀ id, tab.closeTaskSocket.isLive id = false

/-- The close event of this socket can come now, while the module holds another live one. -/
def LateClose (tab : Tab) (id : Nat) : Prop :=
  tab.canClose id = true ∧ ∃ other, other ≠ id ∧ tab.socket = some other ∧ tab.isLive other = true

variable {tab : Tab}

/-! ## What the sockets do not depend on -/

/-- The same sockets, and the same one held. -/
structure Keeps (tab other : Tab) : Prop where
  sockets : other.sockets = tab.sockets
  socket : other.socket = tab.socket

theorem Keeps.isLive {tab other : Tab} (keeps : Keeps tab other) (id : Nat) :
    other.isLive id = tab.isLive id := by
  unfold Tab.isLive readyState
  rw [keeps.sockets]

theorem Keeps.referred {tab other : Tab} (keeps : Keeps tab other) (referred : tab.Referred) :
    other.Referred := by
  intro id live
  rw [keeps.isLive] at live
  exact keeps.socket.trans (referred id live)

theorem keeps_clearReconnectTimer : Keeps tab tab.clearReconnectTimer := by
  unfold clearReconnectTimer
  split <;> exact ⟨rfl, rfl⟩

theorem keeps_scheduleReconnect : Keeps tab tab.scheduleReconnect := by
  unfold scheduleReconnect
  split <;> exact ⟨rfl, rfl⟩

theorem keeps_finish (handler : Handler) : Keeps tab (tab.finish handler) := by
  cases handler with
  | onopen => exact ⟨rfl, rfl⟩
  | onmessage => exact ⟨rfl, rfl⟩
  | onclose code =>
    unfold finish
    dsimp only
    split
    · exact ⟨rfl, rfl⟩
    · exact keeps_scheduleReconnect

theorem keeps_dispatch (handler : Handler) : Keeps tab (tab.dispatch handler) := by
  unfold dispatch
  split
  · exact keeps_finish handler
  · exact ⟨rfl, rfl⟩

/-! ## Opening and closing -/

theorem isLive_append {socket : WebSocket} {id : Nat}
    (live : isLive { tab with sockets := tab.sockets ++ [socket] } id = true) :
    id = tab.sockets.length ∨ tab.isLive id = true := by
  by_cases last : id = tab.sockets.length
  · exact .inl last
  · refine .inr ?_
    unfold isLive readyState at live ⊢
    rcases Nat.lt_or_ge id tab.sockets.length with older | beyond
    · rwa [List.getElem?_append_left older] at live
    · rw [List.getElem?_eq_none (by simp; omega)] at live
      simp at live

/-- A new socket is made only where none is live. -/
theorem Referred.ensureTaskSocketConnected (referred : tab.Referred) :
    tab.ensureTaskSocketConnected.Referred := by
  unfold Tab.ensureTaskSocketConnected
  split
  · exact referred
  · rename_i idle
    split
    · exact referred
    · rename_i token _
      intro id live
      rcases isLive_append live with last | older
      · exact congrArg some last.symm
      · have held := referred id older
        rw [held] at idle
        exact (idle older).elim

theorem isLive_closeTaskSocket {id : Nat} (live : tab.closeTaskSocket.isLive id = true) :
    tab.isLive id = true ∧ tab.socket ≠ some id := by
  have keeps : Keeps tab (clearReconnectTimer { tab with manualClose := true }) :=
    ⟨keeps_clearReconnectTimer.sockets, keeps_clearReconnectTimer.socket⟩
  unfold Tab.closeTaskSocket at live
  dsimp only at live
  split at live
  · rename_i free
    rw [keeps.socket] at free
    rw [keeps.isLive] at live
    exact ⟨live, by simp [free]⟩
  · rename_i activeSocket held
    rw [keeps.socket] at held
    split at live
    · obtain ⟨still, apart⟩ := isLive_ended (.inl rfl) live
      exact ⟨(keeps.isLive id).symm.trans still, fun same => apart (Option.some.inj (same.symm.trans held))⟩
    · rename_i dead
      refine ⟨(keeps.isLive id).symm.trans live, fun same => dead ?_⟩
      rw [Option.some.inj (held.symm.trans same)]
      exact live

theorem Referred.not_isLive_closed (referred : tab.Referred) (id : Nat) :
    tab.closeTaskSocket.isLive id = false := by
  cases live : tab.closeTaskSocket.isLive id with
  | false => rfl
  | true =>
    obtain ⟨before, apart⟩ := isLive_closeTaskSocket live
    exact (apart (referred id before)).elim

theorem Referred.closeTaskSocket (referred : tab.Referred) : tab.closeTaskSocket.Referred := by
  intro id live
  rw [referred.not_isLive_closed] at live
  cases live

theorem Referred.setReadyState {id : Nat} {state : ReadyState} (referred : tab.Referred)
    (ended : state = .closing ∨ state = .closed) : (tab.setReadyState id state).Referred :=
  fun other live => referred other (isLive_ended ended live).1

/-! ## Steps -/

theorem Referred.perform (referred : tab.Referred) (call : Call) : (tab.perform call).Referred := by
  cases call with
  | subscribeTaskEvents listener =>
    exact Referred.ensureTaskSocketConnected (Keeps.referred ⟨rfl, rfl⟩ referred)
  | unsubscribe listener =>
    have left : Referred { tab with listeners := tab.listeners.erase listener } :=
      Keeps.referred ⟨rfl, rfl⟩ referred
    unfold Tab.perform Tab.unsubscribe
    dsimp only
    split
    · exact left.closeTaskSocket
    · exact left
  | closeTaskSocket => exact referred.closeTaskSocket
  | ensureTaskSocketConnected => exact referred.ensureTaskSocketConnected
  | storeToken token => exact Keeps.referred ⟨rfl, rfl⟩ referred

/-- The handler of a close event lets go of whatever the module holds, not of its own socket. -/
theorem Referred.closed {id : Nat} (referred : tab.Referred) (can : tab.canClose id = true)
    (timely : ¬ tab.LateClose id) : Referred { tab.setReadyState id .closed with socket := none } := by
  intro other live
  obtain ⟨before, apart⟩ := isLive_ended (.inr rfl) live
  exact (timely ⟨can, other, apart, referred other before, before⟩).elim

theorem Referred.receive (referred : tab.Referred) (event : Event)
    (timely : ∀ id code, event = .closed id code → ¬ tab.LateClose id) : (tab.receive event).Referred := by
  cases event with
  | opened id =>
    unfold Tab.receive
    dsimp only
    split
    · rename_i connecting
      have opened : (tab.setReadyState id .open).Referred := by
        intro other live
        by_cases here : other = id
        · rw [here]
          exact referred id (isLive_iff.mpr (.inr connecting))
        · rw [isLive_other here] at live
          exact referred other live
      exact (keeps_dispatch _).referred (Keeps.referred ⟨rfl, rfl⟩ opened)
    · exact referred
  | message id parses =>
    unfold Tab.receive
    dsimp only
    split
    · exact (keeps_dispatch _).referred referred
    · exact referred
  | error id => exact referred
  | closing id =>
    unfold Tab.receive
    dsimp only
    split
    · exact referred.setReadyState (.inl rfl)
    · exact referred
  | closed id code =>
    unfold Tab.receive
    dsimp only
    split
    · rename_i can
      exact (keeps_dispatch _).referred (referred.closed can (timely id code rfl))
    · exact referred
  | timeout timer =>
    unfold Tab.receive
    dsimp only
    split
    · exact Referred.ensureTaskSocketConnected (Keeps.referred ⟨rfl, rfl⟩ referred)
    · exact referred

theorem Referred.step (referred : tab.Referred) (step : Step)
    (timely : ∀ id code, step = .event (.closed id code) → ¬ tab.LateClose id) : (tab.step step).Referred := by
  cases step with
  | call call => exact referred.perform call
  | event event =>
    unfold Tab.step
    dsimp only
    split
    · exact referred
    · exact referred.receive event fun id code same => timely id code (congrArg Step.event same)
  | returned =>
    unfold Tab.step
    dsimp only
    split
    · exact referred
    · exact (keeps_finish _).referred (Keeps.referred ⟨rfl, rfl⟩ referred)

theorem Referred.oneLive (referred : tab.Referred) : tab.OneLive where
  referred := referred
  unique id other live live' := Option.some.inj ((referred id live).symm.trans (referred other live'))
  closes := referred.not_isLive_closed

/-! ## Runs -/

/-- No close event comes while the module holds another live socket. -/
def NeverLate (steps : List Step) : Prop :=
  ∀ id code past, .event (.closed id code) :: past <:+ steps → ¬ (after past).LateClose id

theorem referred_after {steps : List Step} (timely : NeverLate steps) : (after steps).Referred := by
  induction steps with
  | nil =>
    intro id live
    simp [after, Tab.isLive, readyState] at live
  | cons step past ih =>
    have before : (after past).Referred := ih fun id code earlier inside =>
      timely id code earlier (inside.trans (List.suffix_cons step past))
    refine before.step step fun id code same => ?_
    subst same
    exact timely id code past List.suffix_rfl

/-- After a late close event the other socket is live and forgotten. -/
theorem LateClose.forgotten {id : Nat} (late : tab.LateClose id) (code : Nat) :
    ¬ (tab.step (.event (.closed id code))).Referred := by
  intro referred
  obtain ⟨can, other, apart, _, live⟩ := late
  have idle : tab.handler = none := (of_decide_eq_true can).1
  have stepped : tab.step (.event (.closed id code)) =
      dispatch { tab.setReadyState id .closed with socket := none } (.onclose code) := by
    simp [step, receive, idle, can]
  rw [stepped] at referred
  have keeps : Keeps { tab.setReadyState id .closed with socket := none } _ := keeps_dispatch (.onclose code)
  have still : (tab.setReadyState id .closed).isLive other = true := (isLive_other apart .closed).trans live
  have held := referred other ((keeps.isLive other).trans still)
  rw [keeps.socket] at held
  cases held

/-- A run has one live socket at most, which the module holds, at every point exactly when no close event
comes while the module holds another live socket.
-/
theorem oneLive_iff (steps : List Step) :
    (∀ past, past <:+ steps → (after past).OneLive) ↔ NeverLate steps := by
  constructor
  · intro holds id code past inside late
    exact late.forgotten code (holds _ inside).referred
  · intro timely past inside
    refine (referred_after ?_).oneLive
    intro id code earlier within
    exact timely id code earlier (within.trans inside)

/-- A page is left and entered again before the close event of its socket has come: two sockets are live,
the module holds the newer one, and closing leaves the other.
-/
theorem reentered_twice :
    let steps : List Step :=
      [.event (.timeout 1), .returned, .event (.closed 0 1005), .call (.subscribeTaskEvents 2),
        .call (.unsubscribe 1), .returned, .event (.opened 0), .call (.subscribeTaskEvents 1), .call (.storeToken "t")]
    (after steps).isLive 1 = true ∧ (after steps).isLive 2 = true ∧ (after steps).socket = some 2 ∧
    (after steps).closeTaskSocket.isLive 1 = true := by
  decide

end Text2Image.taskSocket.Tab
