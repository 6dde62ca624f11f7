import Text2Image.Properties.Transitions
import Text2Image.Services.Executions

/-! The quota: how many active tasks a user has. -/

set_option autoImplicit false

namespace Text2Image

open Concurrency System TaskStatus

variable {config : Config}

def activeOf (userId : Int) (row : Row) : Bool := row.user_id = userId ∧ row.isActive

/-- What `countActiveTasks` answers. -/
def activeCount (userId : Int) (t : ImageTable) : Nat := t.rows.countP (activeOf userId)

/-- The statement gives the user one more active task. -/
def Stmt.activates (userId : Int) (t : ImageTable) : Stmt → Bool
  | .insert values => activeOf userId values
  | .retryByIdAndUserId id user => user = userId ∧ t.rows.any ((Stmt.retryByIdAndUserId id user).hits t)
  | _ => false

variable {s : Stmt} {t : ImageTable} {row row' : Row} {userId : Int}

/-- Only a retry makes a row active again. -/
theorem Change.active (change : Change s row (some row')) (t : ImageTable)
    (active : row'.isActive = true) : row.isActive = true ∨ s = .retryByIdAndUserId row.id row.user_id ∧ s.hits t row = true := by
  have generating : row.status = Generating → row.isActive = true := by
    intro running
    simp [Row.isActive, running]
  cases change with
  | kept => exact .inl active
  | claimNext workerId expiresAt free =>
    left
    simp only [claimable, Row.isQueued, decide_eq_true_eq] at free
    rcases free with (queued | pending) | ⟨running, _⟩
    · simp [Row.isActive, queued]
    · simp [Row.isActive, pending]
    · exact generating running
  | claimById workerId now expiresAt queued =>
    left
    simp only [Row.isQueued, decide_eq_true_eq] at queued
    rcases queued with queued | pending
    · simp [Row.isActive, queued]
    · simp [Row.isActive, pending]
  | requeue running | timeout running | renew _ running | defer _ _ running =>
    exact .inl (generating running)
  | finish id user running => exact .inl (generating running)
  | cancel now before => exact .inl before
  | retry status budget =>
    right
    refine ⟨rfl, ?_⟩
    simp [Stmt.hits, Stmt.rowUpdate, Row.hasRetriesLeft, status, budget]

theorem activeCount_table (s : Stmt) (t : ImageTable) : activeCount userId (s.table t) =
    t.rows.countP (fun row => (s.onRow t row).any (activeOf userId)) +
      (s.inserted t).toList.countP (activeOf userId) := by
  unfold activeCount
  rw [Stmt.table_rows, List.countP_append, List.countP_filterMap]
  congr 1
  refine List.countP_congr fun row _ => ?_
  cases s.onRow t row <;> simp

/-- A statement that does not activate leaves at most as many active tasks. -/
theorem activeCount_le (quiet : s.activates userId t = false) :
    activeCount userId (s.table t) ≤ activeCount userId t := by
  rw [activeCount_table]
  have rows : t.rows.countP (fun row => (s.onRow t row).any (activeOf userId)) ≤
      t.rows.countP (activeOf userId) := by
    refine List.countP_mono_left fun row member active => ?_
    obtain ⟨row', became, active'⟩ := (Option.any_eq_true _ _).mp active
    have change := s.onRow_change member
    rw [became] at change
    obtain ⟨owner, stands⟩ := of_decide_eq_true active'
    rw [change.sameInput.user_id] at owner
    rcases change.active t stands with before | ⟨rfl, hit⟩
    · exact decide_eq_true ⟨owner, before⟩
    · have found : t.rows.any ((Stmt.retryByIdAndUserId row.id row.user_id).hits t) = true :=
        List.any_eq_true.mpr ⟨row, member, hit⟩
      have activates : (Stmt.retryByIdAndUserId row.id row.user_id).activates userId t = true :=
        decide_eq_true ⟨owner, found⟩
      rw [activates] at quiet
      cases quiet
  have inserted : (s.inserted t).toList.countP (activeOf userId) = 0 := by
    cases s with
    | insert values =>
      have inactive : activeOf userId { values with id := t.next } = false := quiet
      simp [Stmt.inserted, inactive]
    | _ => rfl
  unfold activeCount
  omega

/-- A statement that activates gives exactly one more active task. -/
theorem activeCount_eq (activates : s.activates userId t = true) :
    activeCount userId (s.table t) = activeCount userId t + 1 := by
  rw [activeCount_table]
  cases s with
  | insert values =>
    have active : activeOf userId { values with id := t.next } = true := activates
    have kept : t.rows.countP (fun row =>
        ((Stmt.insert values).onRow t row).any (activeOf userId)) = activeCount userId t :=
      List.countP_congr fun row _ => Iff.rfl
    rw [kept]
    simp [Stmt.inserted, active]
  | retryByIdAndUserId id user =>
    obtain ⟨rfl, found⟩ := of_decide_eq_true activates
    obtain ⟨row, member, hit⟩ := List.any_eq_true.mp found
    have guarded : row.id = id ∧ row.user_id = user ∧
        (row.status = Failed ∨ row.status = Timeout ∨ row.status = Cancelled) ∧
        row.hasRetriesLeft = true := of_decide_eq_true hit
    obtain ⟨rfl, rfl, status, budget⟩ := guarded
    refine Keyed.Table.countP_of_differ member ?_ ?_ ?_
    · rcases status with failed | timeout | cancelled <;> simp [activeOf, Row.isActive, *]
    · simp [Stmt.onRow, Stmt.rowUpdate, status, budget, activeOf, Row.isActive, Row.retried]
    · intro other _ different
      simp [Stmt.onRow, Stmt.rowUpdate, different]
  | _ => cases activates

/-! ## Runs -/

/-- Every statement that gives the user an active task finds fewer than the limit. -/
abbrev activatesBelow (userId limit : Int) : Condition (backend config) :=
  onStatements fun s t => s.activates userId t → (activeCount userId t : Int) < limit

theorem activeCount_step {state : (backend config).State} {limit : Int}
    (start : activeCount userId state.view.world.db ≤ limit) (label : (backend config).Label) :
    activeCount userId (step state label).view.world.db ≤ limit ↔
      Admits (activatesBelow userId limit) state label := by
  rcases step_statement _ state label with ⟨same, admits⟩ | ⟨s, wrote, admits⟩
  · rw [same]
    exact ⟨fun _ => admits, fun _ => start⟩
  · rw [wrote, admits, decide_eq_true_eq]
    by_cases activates : s.activates userId state.view.world.db = true
    · have grown := activeCount_eq activates
      constructor
      · intro within _
        omega
      · intro below
        have room := below activates
        omega
    · have shrunk := activeCount_le (Bool.eq_false_iff.mpr activates)
      constructor
      · exact fun _ activates' => (activates activates').elim
      · intro _
        omega

/-- The user stays within the limit throughout a run exactly if every statement
that gives the user an active task finds fewer than the limit. -/
theorem activeCount_run {state : (backend config).State} {limit : Int}
    (start : activeCount userId state.view.world.db ≤ limit) (labels : List (backend config).Label) :
    (∀ first second, labels = first ++ second →
      activeCount userId (run state first).view.world.db ≤ limit) ↔
      Meets (activatesBelow userId limit) state labels := by
  induction labels generalizing state with
  | nil =>
    constructor
    · exact fun _ => trivial
    · intro _ first second empty
      rw [(List.append_eq_nil_iff.mp empty.symm).1]
      exact start
  | cons label labels ih =>
    have next := activeCount_step start label
    constructor
    · intro within
      have after := within [label] labels rfl
      refine ⟨next.mp after, (ih after).mp fun first second split => ?_⟩
      exact within (label :: first) second (congrArg (label :: ·) split)
    · rintro ⟨admits, meets⟩ first second split
      cases first with
      | nil => exact start
      | cons other first =>
        obtain ⟨same, rest⟩ := List.cons.inj split
        rw [← same]
        exact (ih (next.mpr admits)).mpr meets first second rest

/-! ## A create that is not disturbed -/

/-- The entry is a statement that has given the user an active task. -/
def activation (userId : Int) (entry : (backend config).Entry) : Bool :=
  (statementOf entry).any fun found => found.2.activates userId found.1

/-- Without an activation since, the user has no more active tasks than then. -/
def QuietSince (userId : Int) (t : ImageTable) (log : List (backend config).Entry) : Prop :=
  ∀ gap entry older before s, log = gap ++ entry :: older →
    statementOf entry = some (before, s) → s.activates userId before = false →
    (∀ later ∈ gap, activation userId later = false) → activeCount userId t ≤ activeCount userId before

theorem quietSince_kept (userId : Int) : Kept config .free fun view =>
    QuietSince userId view.world.db view.log := by
  refine Kept.of_statements ?_ ?_
  · intro t log entry silent quiet gap old older before s split found calm none
    cases gap with
    | nil =>
      obtain ⟨rfl, _⟩ := List.cons.inj split
      rw [silent] at found
      cases found
    | cons first gap =>
      obtain ⟨_, split⟩ := List.cons.inj split
      exact quiet gap old older before s split found calm
        fun later member => none later (List.mem_cons_of_mem _ member)
  · intro view pid call helper op choice s quiet executes issued _ gap old older before first split
      found calm none
    have newest : statementOf (.performed (view.event pid call helper op choice)) =
        some (view.world.db, s) := by
      rw [statementOf_performs, executes]
      rfl
    cases gap with
    | nil =>
      obtain ⟨rfl, _⟩ := List.cons.inj split
      rw [newest] at found
      cases found
      exact activeCount_le calm
    | cons head gap =>
      obtain ⟨same, rest⟩ := List.cons.inj split
      subst same
      have inactive : s.activates userId view.world.db = false := by
        have last := none _ List.mem_cons_self
        simpa [activation, newest] using last
      have since := quiet gap old older before first rest found calm
        fun later member => none later (List.mem_cons_of_mem _ member)
      exact Nat.le_trans (activeCount_le inactive) since

/-- Nothing has given the user an active task since the process counted them. -/
def Undisturbed (userId : Int) (pid : Nat) (log : List (backend config).Entry) : Prop :=
  ∀ gap event older, log = gap ++ .performed event :: older → event.pid = pid →
    event.op = .sql (.countActiveTasks userId) →
    ∀ later ∈ gap, activation userId later = false

/-- A quota check that nothing has disturbed since still holds. -/
theorem below_of_undisturbed {view : (backend config).View} {pid : Nat} (genuine : AllGenuine view.log)
    (quiet : QuietSince userId view.world.db view.log) (positive : 0 < config.max_active_tasks_per_user)
    (within : withinQuota config userId false (history pid view.log))
    (undisturbed : Undisturbed userId pid view.log) :
    activeCount userId view.world.db < config.max_active_tasks_per_user := by
  rcases within with admin | unlimited | ⟨active, counted, below⟩
  · cases admin
  · omega
  · obtain ⟨event, member, own, _, found, answer⟩ := got_mem genuine counted
    obtain ⟨gap, older, split⟩ := List.append_of_mem member
    have sent : event.op = .sql (.countActiveTasks userId) := by
      obtain ⟨s, executes, same⟩ := Option.map_eq_some_iff.mp found
      cases same
      exact (executed_eq_some.mp executes).1
    have since := quiet gap _ older _ _ split found rfl (undisturbed gap event older split own sent)
    have count : active = activeCount userId event.before.db := by
      rw [answer, activeCount, List.countP_eq_length_filter]
      rfl
    omega

/-- The user's creates, none of them an administrator's, are not disturbed, and
the user's retries find fewer active tasks than the limit. -/
def undisturbedBelow (userId limit : Int) : Condition (backend config) where
  starts _ _ := True
  performs pid call op choice view := ∀ s, executed op choice = some s →
    s.activates userId view.world.db = true →
    (∀ payload isAdmin, call = .create userId payload isAdmin →
      isAdmin = false ∧ Undisturbed userId pid view.log) ∧
    (∀ id, s = .retryByIdAndUserId id userId → (activeCount userId view.world.db : Int) < limit)

/-- An activating statement is a create's INSERT or a retry's UPDATE of this user. -/
theorem Issued.of_activates {call : Call} (issued : Issued config call s)
    (activates : s.activates userId t = true) :
    (∃ values payload isAdmin, s = .insert values ∧ call = .create userId payload isAdmin) ∨
      ∃ id, s = .retryByIdAndUserId id userId := by
  cases s with
  | insert values =>
    cases issued with
    | sent sends =>
      obtain ⟨user, payload, isAdmin, rfl, ⟨_, _, _, rfl⟩, _⟩ := sends_insert sends
      have owner : user = userId := (of_decide_eq_true activates).1
      exact .inl ⟨_, payload, isAdmin, rfl, owner ▸ rfl⟩
  | retryByIdAndUserId id user =>
    have owner : user = userId := (of_decide_eq_true activates).1
    exact .inr ⟨id, owner ▸ rfl⟩
  | _ => cases activates

theorem withinLimit_kept (userId : Int) (positive : 0 < config.max_active_tasks_per_user) :
    Kept config (undisturbedBelow userId config.max_active_tasks_per_user) fun view =>
      QuietSince userId view.world.db view.log ∧
        activeCount userId view.world.db ≤ config.max_active_tasks_per_user where
  acts view pid call helper op choice genuine owned holds alive may meets := by
    obtain ⟨quiet, within⟩ := holds
    refine ⟨(quietSince_kept userId).acts view pid call helper op choice genuine owned quiet alive may
      trivial, ?_⟩
    cases found : executed op choice with
    | none =>
      rw [performs_db_silent found]
      exact within
    | some s =>
      rw [performs_db_executed found]
      by_cases activates : s.activates userId view.world.db = true
      · have grown := activeCount_eq activates
        obtain ⟨creates, retries⟩ := meets s found activates
        have below : activeCount userId view.world.db < config.max_active_tasks_per_user := by
          rcases (may.issued owned alive found).of_activates activates with
            ⟨values, payload, isAdmin, rfl, rfl⟩ | ⟨id, rfl⟩
          · obtain ⟨rfl, _⟩ := executed_eq_some.mp found
            obtain ⟨rfl, undisturbed⟩ := creates payload isAdmin rfl
            cases helper with
            | false =>
              have sends : (Call.create userId payload false).sends config
                  (history pid view.log) (.insert values) := may
              obtain ⟨_, _, _, call, _, checked⟩ := sends_insert sends
              cases call
              exact below_of_undisturbed genuine quiet positive checked undisturbed
            | true => cases may
          · exact retries id rfl
        omega
      · have shrunk := activeCount_le (Bool.eq_false_iff.mpr activates)
        omega
  started view pid call holds unused begins :=
    ⟨(quietSince_kept userId).started view pid call holds.1 unused begins, holds.2⟩
  quiet view entry after holds settles unstarted unperformed :=
    ⟨(quietSince_kept userId).quiet view entry after holds.1 settles unstarted unperformed,
      settles.db ▸ holds.2⟩
  passes view after holds settles :=
    ⟨(quietSince_kept userId).passes view after holds.1 settles, settles.db ▸ holds.2⟩

/-- In every run that starts within the limit: the user stays within it exactly if
every statement that gives the user an active task, a create's INSERT or a retry's
UPDATE, finds fewer active tasks than the limit. This is so if nothing gives the
user an active task between a create's count and its INSERT and every retry finds
fewer active tasks than the limit. -/
theorem quota_held (world : World) (userId : Int) (labels : List (backend config).Label)
    (positive : 0 < config.max_active_tasks_per_user)
    (start : activeCount userId world.db ≤ config.max_active_tasks_per_user) :
    ((∀ first second, labels = first ++ second →
        activeCount userId (run (boot config world) first).view.world.db ≤
          config.max_active_tasks_per_user) ↔
      Meets (activatesBelow userId config.max_active_tasks_per_user) (boot config world) labels) ∧
    (Meets (undisturbedBelow userId config.max_active_tasks_per_user) (boot config world) labels →
      ∀ first second, labels = first ++ second →
        activeCount userId (run (boot config world) first).view.world.db ≤
          config.max_active_tasks_per_user) := by
  refine ⟨activeCount_run start labels, ?_⟩
  rintro meets first second rfl
  have quiet : QuietSince userId (boot config world).view.world.db (boot config world).view.log := by
    intro gap entry older before s empty
    cases gap <;> cases empty
  have before := ((meets_append _ _ first second).mp meets).1
  exact ((withinLimit_kept userId positive).run ⟨quiet, start⟩ first before).2

/-- One active task for each user. -/
def limitedConfig : Config := { defaultConfig with max_active_tasks_per_user := 1 }

/-- Two creates of one user, the second within the first's count and INSERT. -/
def racingRun : List (backend limitedConfig).Label :=
  .start (.create 1 (promptPayload "a") false) :: succeeds 0 1 ++
    .start (.create 1 (promptPayload "b") false) :: succeeds 1 5 ++ succeeds 0 4

/-- A create, its cancel, and a second create after that. -/
def cancelRun : List (backend limitedConfig).Label :=
  .start (.create 1 (promptPayload "a") false) :: succeeds 0 5 ++
    .start (.cancelById 1 1) :: succeeds 1 3 ++
    .start (.create 1 (promptPayload "b") false) :: succeeds 2 5

theorem quota_held_cancelRun :
    activeCount 1 (run (boot limitedConfig World.empty) cancelRun).view.world.db = 1 ∧
    ∀ first second, cancelRun = first ++ second →
      (activeCount 1 (run (boot limitedConfig World.empty) first).view.world.db : Int) ≤ 1 :=
  ⟨by decide, (quota_held World.empty 1 cancelRun (by decide) (by decide)).1.mpr (by decide)⟩

/-- Two concurrent creates take the user beyond the limit. -/
theorem quota_exceeded :
    ¬ ∀ (userId : Int) (labels : List (backend limitedConfig).Label),
      (∀ payload isAdmin, .start (.create userId payload isAdmin) ∈ labels → isAdmin = false) →
      (activeCount userId (run (boot limitedConfig World.empty) labels).view.world.db : Int) ≤
        limitedConfig.max_active_tasks_per_user := by
  intro claim
  have two : activeCount 1 (run (boot limitedConfig World.empty) racingRun).view.world.db = 2 := by
    decide
  have within := claim 1 racingRun (fun payload isAdmin member => by
    rcases (by simpa [racingRun, succeeds, acts] using member :
      payload = promptPayload "a" ∧ isAdmin = false ∨
        payload = promptPayload "b" ∧ isAdmin = false) with ⟨_, user⟩ | ⟨_, user⟩ <;> exact user)
  have one : limitedConfig.max_active_tasks_per_user = 1 := rfl
  omega

end Text2Image
