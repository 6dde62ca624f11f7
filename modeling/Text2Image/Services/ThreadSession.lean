import Text2Image.Concurrency.Layers
import Text2Image.Services.Execution

/-! The database sessions under the repository. A thread keeps its session, verifies
it once in a while and replaces it when it does not answer; the id of the last insert
belongs to the session.
-/

set_option autoImplicit false

namespace Text2Image.DBManager

open Concurrency Concurrency.Prog

def kThreadSessionPingInterval : TimePoint := Chrono.seconds 30

/-- The state each thread has of its own; sessions are numbered by the server. -/
structure ThreadSessionState where
  session : Option Nat := none
  last_verified_at : TimePoint := 0
  deriving DecidableEq, Repr

def shouldPingThreadSession (state : ThreadSessionState) (now : TimePoint) : Bool :=
  state.last_verified_at = 0 || now - state.last_verified_at ≥ kThreadSessionPingInterval

/-- What became of a `SELECT 1`. -/
inductive Pinged where
  | answered
  /-- A `mysqlx::Error`, the only exception `threadSession` catches. -/
  | refused
  | threw (error : RepoError)

inductive SessionOp where
  | state
  /-- `std::chrono::steady_clock::now()`. -/
  | steadyNow
  | createSession
  | ping
  | resetThreadSession
  | verifiedAt (now : TimePoint)
  | execute (session : Nat) (statement : Stmt)
  | lastInsertId (session : Nat)
  /-- An operation that does not go to the database. -/
  | other (op : Op)

def SessionOp.Answer : SessionOp → Type
  | .state => ThreadSessionState
  | .steadyNow => TimePoint
  | .createSession => RepoResult Nat
  | .ping => Pinged
  | .resetThreadSession | .verifiedAt _ => Unit
  | .execute _ statement => RepoResult statement.Answer
  | .lastInsertId _ => RepoResult Int
  | .other op => op.Answer

abbrev sessions : Interface := ⟨SessionOp, SessionOp.Answer⟩

/-- `state.session = createSession(g_cfg); markThreadSessionVerified(state);` -/
def openThreadSession : Prog sessions (RepoResult Nat) := do
  match ← (Prog.perform (I := sessions) .createSession : Prog sessions (RepoResult Nat)) with
  | .error error => return .error error
  | .ok session =>
    let now ← Prog.perform (I := sessions) .steadyNow
    let _ ← Prog.perform (I := sessions) (.verifiedAt now)
    return .ok session

def pingThreadSession (session : Nat) (now : TimePoint) : Prog sessions (RepoResult Nat) := do
  match ← (Prog.perform (I := sessions) .ping : Prog sessions Pinged) with
  | .answered =>
    let _ ← Prog.perform (I := sessions) (.verifiedAt now)
    return .ok session
  | .refused =>
    let _ ← Prog.perform (I := sessions) .resetThreadSession
    openThreadSession
  | .threw error => return .error error

/-- The thread's session, or the exception as `repoInvoke` reports it. -/
def threadSession : Prog sessions (RepoResult Nat) := do
  let state : ThreadSessionState ← Prog.perform (I := sessions) .state
  match state.session with
  | none => openThreadSession
  | some session =>
    let now : TimePoint ← Prog.perform (I := sessions) .steadyNow
    if shouldPingThreadSession state now then pingThreadSession session now
    else return .ok session

/-- Each statement goes to whatever session the thread has by then. -/
def onSession : (op : Op) → Prog sessions op.Answer
  | .sql statement => do
    match ← threadSession with
    | .error error => return .error error
    | .ok session => Prog.perform (I := sessions) (.execute session statement)
  | .lastInsertId => do
    match ← threadSession with
    | .error error => return .error error
    | .ok session => Prog.perform (I := sessions) (.lastInsertId session)
  | op => Prog.perform (I := sessions) (.other op)

/-! ## The sessions of the server -/

structure SessionWorld where
  base : World
  /-- The `thread_local` state of each process. -/
  threads : Nat → ThreadSessionState
  /-- `LAST_INSERT_ID()` of each session. -/
  lastInsertId : Nat → Int
  /-- Sessions opened so far. -/
  opened : Nat
  steady : TimePoint
  /-- AUTO_INCREMENT values are positive. -/
  positive : 0 < base.db.next

/-- How a session operation turns out. -/
structure Turn where
  choice : Choice := {}
  pinged : Pinged := .answered

theorem next_le_table (s : Stmt) (t : ImageTable) : t.next ≤ (s.table t).next := by
  cases s with
  | insert values => exact Int.le_of_lt (Int.lt_succ _)
  | _ => exact Int.le_refl _

theorem next_le_perform (config : Config) (pid : Nat) (op : Op) (choice : Choice) (world : World) :
    world.db.next ≤ (perform config pid op choice world).2.db.next := by
  rcases perform_db config pid op choice world with same | ⟨s, _, became⟩
  · exact Int.le_of_eq (congrArg Keyed.Table.next same.symm)
  · rw [became]
    exact next_le_table s world.db

namespace SessionWorld

def withState (world : SessionWorld) (pid : Nat) (state : ThreadSessionState) : SessionWorld :=
  { world with threads := Function.update world.threads pid state }

/-- A new session, in which nothing has been inserted. -/
def opening (world : SessionWorld) (pid : Nat) : SessionWorld :=
  { world with
    threads := Function.update world.threads pid { world.threads pid with session := some world.opened }
    lastInsertId := Function.update world.lastInsertId world.opened 0
    opened := world.opened + 1 }

def performing (world : SessionWorld) (config : Config) (pid : Nat) (op : Op) (choice : Choice) :
    SessionWorld :=
  { world with
    base := (perform config pid op choice world.base).2
    positive := Int.lt_of_lt_of_le world.positive (next_le_perform config pid op choice world.base) }

end SessionWorld

/-- The row that is inserted, if any, is the session's last. -/
def idAfter (s : Stmt) (choice : Choice) (t : ImageTable) (before : Int) : Int :=
  match s with
  | .insert _ => if choice.applies then t.next else before
  | _ => before

def performOn (config : Config) (pid : Nat) (op : SessionOp) (turn : Turn) (world : SessionWorld) :
    op.Answer × SessionWorld :=
  match op with
  | .state => (world.threads pid, world)
  | .steadyNow => (world.steady, world)
  | .createSession =>
    if turn.choice.succeeds then (.ok world.opened, world.opening pid)
    else (.error turn.choice.error, world)
  | .ping => (turn.pinged, world)
  | .resetThreadSession =>
    ((), if (world.threads pid).session.isSome then world.withState pid {} else world)
  | .verifiedAt now => ((), world.withState pid { world.threads pid with last_verified_at := now })
  | .execute session statement =>
    ((perform config pid (.sql statement) turn.choice world.base).1,
      { world.performing config pid (.sql statement) turn.choice with
        lastInsertId := Function.update world.lastInsertId session
          (idAfter statement turn.choice world.base.db (world.lastInsertId session)) })
  | .lastInsertId session =>
    (if turn.choice.succeeds then .ok (world.lastInsertId session) else .error turn.choice.error, world)
  | .other op =>
    ((perform config pid op turn.choice world.base).1, world.performing config pid op turn.choice)

/-- Others may do what they like, in sessions of their own. -/
def amidSessions (config : Config) (pid : Nat) : Setting sessions SessionWorld Turn where
  perform := performOn config pid
  drift world met := world.steady ≤ met.steady ∧ met.threads pid = world.threads pid ∧
    (∀ session, (world.threads pid).session = some session →
      met.lastInsertId session = world.lastInsertId session) ∧
    met.base.session pid = world.base.session pid

abbrev SessionTrace := List (SessionOp × Turn × SessionWorld)

variable {config : Config} {pid : Nat} {world after : SessionWorld} {trace : SessionTrace}

/-! ## What a thread is handed -/

def pingRefused (moment : SessionOp × Turn × SessionWorld) : Bool :=
  match moment.1, moment.2.1.pinged with
  | .ping, .refused => true
  | _, _ => false

/-- The operation throws out of the call. -/
def breaks (moment : SessionOp × Turn × SessionWorld) : Bool :=
  match moment.1, moment.2.1.pinged with
  | .createSession, _ | .execute .., _ | .lastInsertId _, _ => ! moment.2.1.choice.succeeds
  | .ping, .threw _ => true
  | _, _ => false

/-- The operations `threadSession` needs; none of them is a statement of the caller. -/
def Manages : SessionOp → Prop
  | .execute .. | .lastInsertId _ | .other _ => False
  | _ => True

theorem manages_openThreadSession : openThreadSession.Only Manages := by
  refine ⟨trivial, fun created => ?_⟩
  cases created with
  | error error => trivial
  | ok session => exact ⟨trivial, fun _ => ⟨trivial, fun _ => trivial⟩⟩

theorem manages_pingThreadSession (session : Nat) (now : TimePoint) :
    (pingThreadSession session now).Only Manages := by
  refine ⟨trivial, fun pinged => ?_⟩
  cases pinged with
  | answered => exact ⟨trivial, fun _ => trivial⟩
  | refused => exact ⟨trivial, fun _ => manages_openThreadSession⟩
  | threw error => trivial

theorem manages_threadSession : threadSession.Only Manages := by
  refine ⟨trivial, fun state => ?_⟩
  simp only [Prog.bind]
  split
  · exact manages_openThreadSession
  · refine ⟨trivial, fun now => ?_⟩
    simp only [Prog.bind]
    split
    · exact manages_pingThreadSession _ now
    · trivial

/-- How `threadSession` ends: the thread keeps its session, finds it dead and opens a
new one, or opens its first; or the call is broken off. -/
inductive Handed (pid : Nat) (world after : SessionWorld) (trace : SessionTrace) : RepoResult Nat → Prop where
  | broken {error : RepoError} (throws : trace.any breaks = true) : Handed pid world after trace (.error error)
  | kept {session : Nat} (held : (world.threads pid).session = some session)
      (holds : (after.threads pid).session = some session) (unbroken : trace.any breaks = false)
      (alive : trace.any pingRefused = false)
      (same : after.lastInsertId session = world.lastInsertId session) :
      Handed pid world after trace (.ok session)
  | replaced {session : Nat} (holds : (after.threads pid).session = some session)
      (unbroken : trace.any breaks = false) (dead : trace.any pingRefused = true)
      (fresh : after.lastInsertId session = 0) : Handed pid world after trace (.ok session)
  | first {session : Nat} (absent : (world.threads pid).session = none)
      (holds : (after.threads pid).session = some session) (unbroken : trace.any breaks = false) :
      Handed pid world after trace (.ok session)

theorem createSession_done {turn : Turn} (succeeds : turn.choice.succeeds = true) :
    (amidSessions config pid).perform .createSession turn world = (.ok world.opened, world.opening pid) := by
  simp only [amidSessions, performOn, succeeds, if_true]

theorem createSession_failed {turn : Turn} (fails : turn.choice.succeeds = false) :
    (amidSessions config pid).perform .createSession turn world = (.error turn.choice.error, world) := by
  simp only [amidSessions, performOn, fails, Bool.false_eq_true, if_false]

theorem executes_openThreadSession {answer : RepoResult Nat}
    (ran : Executes (amidSessions config pid) openThreadSession world trace answer after) :
    trace.any pingRefused = false ∧
      ((trace.any breaks = true ∧ ∃ error, answer = .error error) ∨
        (trace.any breaks = false ∧ ∃ session, answer = .ok session ∧
          (after.threads pid).session = some session ∧ after.lastInsertId session = 0)) := by
  obtain ⟨turn, met, rest, drift, rfl, opens⟩ := ran.of_call
  cases succeeds : turn.choice.succeeds with
  | false =>
    rw [createSession_failed succeeds] at opens
    obtain ⟨rfl, rfl, rfl⟩ := opens.of_done
    simp [pingRefused, breaks, succeeds]
  | true =>
    rw [createSession_done succeeds] at opens
    obtain ⟨turn', met', rest', drift', rfl, reads⟩ := opens.of_call
    obtain ⟨turn'', met'', rest'', drift'', rfl, verifies⟩ := reads.of_call
    obtain ⟨rfl, rfl, rfl⟩ := verifies.of_done
    have opened : ((met.opening pid).threads pid).session = some met.opened := by
      simp [SessionWorld.opening]
    have state := drift''.2.1.trans drift'.2.1
    have holds : (met''.threads pid).session = some met.opened := by rw [state, opened]
    have fresh : met''.lastInsertId met.opened = 0 := by
      have between : (met'.threads pid).session = some met.opened := by rw [drift'.2.1, opened]
      have later := drift''.2.2.1 met.opened between
      have earlier := drift'.2.2.1 met.opened opened
      exact later.trans (earlier.trans (by simp [SessionWorld.opening]))
    refine ⟨by simp [pingRefused], .inr ⟨by simp [breaks, succeeds], met.opened, rfl, ?_, ?_⟩⟩
    · simpa [amidSessions, performOn, SessionWorld.withState] using holds
    · simpa [amidSessions, performOn, SessionWorld.withState] using fresh

/-- A session is tried while it is the thread's. -/
theorem executes_pingThreadSession {session : Nat} {now : TimePoint} {answer : RepoResult Nat}
    (held : (world.threads pid).session = some session)
    (ran : Executes (amidSessions config pid) (pingThreadSession session now) world trace answer after) :
    Handed pid world after trace answer := by
  obtain ⟨turn, met, rest, drift, rfl, pings⟩ := ran.of_call
  have answered : (amidSessions config pid).perform .ping turn met = (turn.pinged, met) := rfl
  rw [answered] at pings
  cases pinged : turn.pinged with
  | answered =>
    rw [pinged] at pings
    obtain ⟨turn', met', rest', drift', rfl, verifies⟩ := pings.of_call
    obtain ⟨rfl, rfl, rfl⟩ := verifies.of_done
    have holds : (met'.threads pid).session = some session := by rw [drift'.2.1, drift.2.1, held]
    have same : met'.lastInsertId session = world.lastInsertId session := by
      rw [drift'.2.2.1 session (by rw [drift.2.1, held]), drift.2.2.1 session held]
    refine .kept held ?_ ?_ ?_ same
    · simpa [amidSessions, performOn, SessionWorld.withState] using holds
    · simp [breaks, pinged]
    · simp [pingRefused, pinged]
  | refused =>
    rw [pinged] at pings
    obtain ⟨turn', met', rest', drift', rfl, resets⟩ := pings.of_call
    obtain ⟨alive, ends⟩ := executes_openThreadSession resets
    rcases ends with ⟨broken, error, rfl⟩ | ⟨unbroken, opened, rfl, holds, fresh⟩
    · exact .broken (by simp [broken])
    · exact .replaced holds (by simp [breaks, pinged, unbroken]) (by simp [pingRefused, pinged]) fresh
  | threw error =>
    rw [pinged] at pings
    obtain ⟨rfl, rfl, rfl⟩ := pings.of_done
    exact .broken (by simp [breaks, pinged])

theorem executes_threadSession {answer : RepoResult Nat}
    (ran : Executes (amidSessions config pid) threadSession world trace answer after) :
    Handed pid world after trace answer := by
  obtain ⟨turn, met, rest, drift, rfl, looks⟩ := ran.of_call
  have state : (amidSessions config pid).perform .state turn met = (world.threads pid, met) := by
    rw [← drift.2.1]
    rfl
  rw [state] at looks
  cases held : (world.threads pid).session with
  | none =>
    simp only [Prog.bind, held] at looks
    obtain ⟨alive, ends⟩ := executes_openThreadSession looks
    rcases ends with ⟨broken, error, rfl⟩ | ⟨unbroken, opened, rfl, holds, fresh⟩
    · exact .broken (by simp [broken])
    · exact .first held holds (by simp [breaks, unbroken])
  | some session =>
    simp only [Prog.bind, held] at looks
    obtain ⟨turn', met', rest', drift', rfl, times⟩ := looks.of_call
    have holds : (met'.threads pid).session = some session := by rw [drift'.2.1, drift.2.1, held]
    have same : met'.lastInsertId session = world.lastInsertId session := by
      rw [drift'.2.2.1 session (by rw [drift.2.1, held]), drift.2.2.1 session held]
    have read : (amidSessions config pid).perform .steadyNow turn' met' = (met'.steady, met') := rfl
    simp only [read, Prog.bind] at times
    by_cases due : shouldPingThreadSession (world.threads pid) met'.steady
    · rw [if_pos due] at times
      cases executes_pingThreadSession holds times with
      | broken throws => exact .broken (by simp [throws])
      | kept held' holds' unbroken alive same' =>
        rw [holds] at held'
        cases held'
        exact .kept held holds' (by simp [breaks, unbroken]) (by simp [pingRefused, alive]) (same'.trans same)
      | replaced holds' unbroken dead fresh =>
        exact .replaced holds' (by simp [breaks, unbroken]) (by simp [dead]) fresh
      | first absent => rw [holds] at absent; cases absent
    · rw [if_neg due] at times
      obtain ⟨rfl, rfl, rfl⟩ := times.of_done
      exact .kept held holds (by simp [breaks]) (by simp [pingRefused]) same

/-! ## The calls seen from above -/

/-- The thread's session recalls its process's last insert, or none. -/
def Recalls (pid : Nat) (world : SessionWorld) : Prop :=
  ∀ session, (world.threads pid).session = some session →
    world.lastInsertId session = world.base.session pid ∨ world.lastInsertId session = 0

/-- The model of the calls does not see the sessions. -/
def Above (pid : Nat) (lower : SessionWorld) (upper : World) : Prop :=
  lower.base = upper ∧ Recalls pid lower

theorem Recalls.drift {met : SessionWorld} (recalls : Recalls pid world)
    (drift : (amidSessions config pid).drift world met) : Recalls pid met := by
  obtain ⟨_, threads, last, session⟩ := drift
  intro held holds
  rw [threads] at holds
  rw [last held holds, session]
  exact recalls held holds

theorem Recalls.manages {op : SessionOp} {turn : Turn} (recalls : Recalls pid world) (manages : Manages op) :
    Recalls pid ((amidSessions config pid).perform op turn world).2 := by
  cases op with
  | execute | lastInsertId | other => exact manages.elim
  | state | steadyNow | ping => exact recalls
  | createSession =>
    cases succeeds : turn.choice.succeeds with
    | false => rwa [createSession_failed succeeds]
    | true =>
      rw [createSession_done succeeds]
      intro held holds
      simp only [SessionWorld.opening, Function.update_self, Option.some.injEq] at holds
      exact .inr (by simp [SessionWorld.opening, ← holds])
  | resetThreadSession =>
    intro held holds
    simp only [amidSessions, performOn] at holds ⊢
    split at holds
    · simp [SessionWorld.withState] at holds
    · rename_i absent
      rw [if_neg absent]
      exact recalls held holds
  | verifiedAt now =>
    intro held holds
    exact recalls held (by simpa [amidSessions, performOn, SessionWorld.withState] using holds)

theorem recalls_threadSession {answer : RepoResult Nat} (recalls : Recalls pid world)
    (ran : Executes (amidSessions config pid) threadSession world trace answer after) : Recalls pid after := by
  have related := ran.related (R := fun first second => Recalls pid first → Recalls pid second)
    (ran.only manages_threadSession) (fun _ => id) (fun left right => right ∘ left)
    (fun _ _ drift recalls => recalls.drift drift) (fun _ _ _ manages recalls => recalls.manages manages)
  exact related.1 recalls

theorem session_perform_sql (s : Stmt) (choice : Choice) (world : World) :
    (perform config pid (.sql s) choice world).2.session pid = idAfter s choice world.db (world.session pid) := by
  cases s with
  | insert values =>
    cases outcome : choice.outcome <;>
      simp [perform, idAfter, Choice.applies, outcome, World.commit, keeperAfter]
  | _ =>
    rcases perform_session config pid _ choice world pid with same | ⟨values, executes, _⟩
    · exact same
    · obtain ⟨same, _⟩ := executed_eq_some.mp executes
      cases same

theorem Recalls.execute {session : Nat} {s : Stmt} {turn : Turn} (recalls : Recalls pid world)
    (holds : (world.threads pid).session = some session) :
    Recalls pid ((amidSessions config pid).perform (.execute session s) turn world).2 := by
  intro held holds'
  have same : held = session := Option.some.inj (holds'.symm.trans holds)
  have last : ((amidSessions config pid).perform (.execute session s) turn world).2.lastInsertId session =
      idAfter s turn.choice world.base.db (world.lastInsertId session) := by
    simp [amidSessions, performOn]
  have base : ((amidSessions config pid).perform (.execute session s) turn world).2.base.session pid =
      idAfter s turn.choice world.base.db (world.base.session pid) :=
    session_perform_sql s turn.choice world.base
  rw [same, last, base]
  -- an INSERT sets both, anything else neither
  unfold idAfter
  split
  · split
    · exact .inl rfl
    · exact recalls session holds
  · exact recalls session holds

theorem Recalls.other {op : Op} {turn : Turn} (recalls : Recalls pid world) (elsewhere : ∀ s, op ≠ .sql s) :
    Recalls pid ((amidSessions config pid).perform (.other op) turn world).2 := by
  intro held holds
  have base : (perform config pid op turn.choice world.base).2.session pid = world.base.session pid := by
    rcases perform_session config pid op turn.choice world.base pid with same | ⟨values, executes, _⟩
    · exact same
    · exact (elsewhere _ (executed_eq_some.mp executes).1).elim
  exact (recalls held holds).imp_left fun last => last.trans base.symm

/-- Whatever becomes of the sessions, an operation does what the model says of it, with
a fresh session where the old one had been replaced. -/
theorem onSession_carries : Carries (amidSessions config pid) (amid config pid) (Above pid) onSession := by
  rintro op lower upper trace answer after ⟨rfl, recalls⟩ ran
  cases op with
  | sql s =>
    obtain ⟨first, rest, middle, handed, rfl, asks, goes⟩ := ran.of_bind
    have recalled := recalls_threadSession recalls asks
    cases executes_threadSession asks with
    | @broken error =>
      obtain ⟨rfl, rfl, rfl⟩ := goes.of_done
      exact ⟨{ outcome := .failed, error := error }, after.base, trivial, rfl, rfl, recalled⟩
    | kept _ holds | replaced holds | first _ holds =>
      obtain ⟨turn, met, drift, rfl, rfl, rfl⟩ := goes.of_perform
      have still := (congrArg ThreadSessionState.session drift.2.1).trans holds
      exact ⟨turn.choice, met.base, trivial, rfl, rfl, (recalled.drift drift).execute still⟩
  | lastInsertId =>
    obtain ⟨first, rest, middle, handed, rfl, asks, goes⟩ := ran.of_bind
    have recalled := recalls_threadSession recalls asks
    cases executes_threadSession asks with
    | @broken error =>
      obtain ⟨rfl, rfl, rfl⟩ := goes.of_done
      exact ⟨{ outcome := .failed, error := error }, after.base, trivial, rfl, rfl, recalled⟩
    | @kept session _ holds | @replaced session holds | @first session _ holds =>
      obtain ⟨turn, met, drift, rfl, rfl, same⟩ := goes.of_perform
      cases same
      have still := (congrArg ThreadSessionState.session drift.2.1).trans holds
      have recalled := recalled.drift drift
      let fresh := decide (met.lastInsertId session ≠ met.base.session pid)
      refine ⟨{ turn.choice with freshSession := fresh }, met.base, trivial, ?_, rfl, recalled⟩
      have told : met.lastInsertId session = if fresh then 0 else met.base.session pid := by
        rcases recalled session still with same | none
        · simp [fresh, same]
        · by_cases zero : met.base.session pid = 0 <;> simp [fresh, none, zero]
      simp only [amidSessions, performOn, amid, perform, Choice.succeeds, told]
      rfl
  | _ =>
    obtain ⟨turn, met, drift, rfl, rfl, rfl⟩ := ran.of_perform
    exact ⟨turn.choice, met.base, trivial, rfl, rfl, (recalls.drift drift).other (by simp)⟩

/-- So a call's execution on sessions is one of the model. -/
theorem executes_of_sessions {α : Type} {program : Program α} {value : α} (recalls : Recalls pid world)
    (ran : Executes (amidSessions config pid) (program.via onSession) world trace value after) :
    ∃ trace', Executes (amid config pid) program world.base trace' value after.base := by
  obtain ⟨trace', upper, ran', same, _⟩ := ran.of_via onSession_carries ⟨rfl, recalls⟩
  exact ⟨trace', same ▸ ran'⟩

end Text2Image.DBManager
