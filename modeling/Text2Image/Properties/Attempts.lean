import Text2Image.Properties.RetryBudget

/-! Attempts: how often a task is claimed, and what each further claim costs. -/

set_option autoImplicit false

namespace Text2Image

open Concurrency System TaskStatus

variable {config : Config}

def Stmt.isClaim : Stmt → Bool
  | .claimNextTask .. | .claimTaskById .. => true
  | _ => false

/-- The statements that put a task back in the queue and count that. -/
def Stmt.isCharge : Stmt → Bool
  | .requeueExpired _ | .deferClaimedTask .. | .retryByIdAndUserId .. => true
  | _ => false

def claims (id : Int) (log : List (backend config).Entry) : Nat := executions Stmt.isClaim id log

def charges (id : Int) (log : List (backend config).Entry) : Nat := executions Stmt.isCharge id log

variable {s : Stmt} {t : ImageTable} {row row' : Row} {call : Call}

/-! ## One row -/

/-- A claim leaves the row in the hands of its worker. -/
theorem Stmt.generating_of_claim (claim : (s.isClaim && s.hits t row) = true)
    (became : s.onRow t row = some row') : row'.status = Generating := by
  rw [Bool.and_eq_true] at claim
  obtain ⟨kind, matched⟩ := claim
  cases s with
  | claimNextTask workerId now expiresAt | claimTaskById id workerId now expiresAt =>
    simp only [hits, rowUpdate, Option.any_some] at matched
    simp only [onRow, rowUpdate, matched, if_true, Option.some.injEq] at became
    rw [← became]
    rfl
  | _ => cases kind

theorem Stmt.raised_of_charge (charge : (s.isCharge && s.hits t row) = true)
    (became : s.onRow t row = some row') : row'.retry_count = row.retry_count + 1 := by
  rw [Bool.and_eq_true] at charge
  obtain ⟨kind, matched⟩ := charge
  cases s with
  | requeueExpired now | deferClaimedTask | retryByIdAndUserId =>
    simp only [hits, rowUpdate, Option.any_some] at matched
    simp only [onRow, rowUpdate, matched, if_true, Option.some.injEq] at became
    rw [← became]
    rfl
  | _ => cases kind

/-- A row that has left the queue only gets back into it by a charge. -/
theorem Change.queued (change : Change s row (some row')) (issued : Issued config call s)
    (t : ImageTable) (waits : row'.isQueued = true) :
    row.isQueued = true ∨ (s.isCharge && s.hits t row) = true := by
  cases change with
  | kept => exact .inl waits
  | claimNext | claimById | timeout | cancel =>
    simp [Row.isQueued, Row.claimed, Row.timedOut, Row.cancelled] at waits
  | requeue running expired budget =>
    right
    simp [Stmt.isCharge, Stmt.hits, Stmt.rowUpdate, Row.hasRetriesLeft, running, expired, budget]
  | renew expiresAt running => simp [Row.isQueued, Row.renewed, running] at waits
  | @finish _ image =>
    cases issued with
    | sent sends =>
      obtain ⟨_, _, _, _, concludes⟩ := sends_finish sends
      have terminal := concludes.terminal
      have waiting : image.status = Queued ∨ image.status = Pending := of_decide_eq_true waits
      rcases waiting with queued | pending
      · rw [queued] at terminal
        cases terminal
      · rw [pending] at terminal
        cases terminal
  | defer failureCode errorMessage running held =>
    right
    simp [Stmt.isCharge, Stmt.hits, Stmt.rowUpdate, Row.claimedBy, running, held]
  | retry status budget =>
    right
    simp [Stmt.isCharge, Stmt.hits, Stmt.rowUpdate, Row.hasRetriesLeft, status, budget]

/-- The count goes up exactly where a charge matches the row. -/
theorem Stmt.onRow_retry_count (member : row ∈ t.rows) (became : s.onRow t row = some row') :
    row'.retry_count = row.retry_count + if s.isCharge && s.hits t row then 1 else 0 := by
  split
  · rename_i charge
    exact raised_of_charge charge became
  · rename_i uncharged
    have change := s.onRow_change member
    rw [became] at change
    cases change with
    | requeue running expired budget =>
      refine (uncharged ?_).elim
      simp [isCharge, hits, rowUpdate, Row.hasRetriesLeft, running, expired, budget]
    | defer failureCode errorMessage running held =>
      refine (uncharged ?_).elim
      simp [isCharge, hits, rowUpdate, Row.claimedBy, running, held]
    | retry status budget =>
      refine (uncharged ?_).elim
      simp [isCharge, hits, rowUpdate, Row.hasRetriesLeft, status, budget]
    | _ => exact (Int.add_zero _).symm

/-! ## Accounting -/

/-- Every claim is paid for by a charge, but for the first one, which a waiting
row still has before it. Keys not handed out yet have never been claimed. -/
structure Accounted (t : ImageTable) (log : List (backend config).Entry) : Prop where
  all : ∀ id, claims id log ≤ 1 + charges id log
  waiting : ∀ row ∈ t.rows, row.isQueued = true → claims row.id log ≤ charges row.id log
  unborn : ∀ id, t.next ≤ id → claims id log = 0

/-- The row a claim of the oldest task takes is waiting, not being generated. -/
def Stmt.takesWaiting (s : Stmt) (t : ImageTable) : Bool :=
  match s with
  | .claimNextTask _ now _ => (nextClaimable t now).all Row.isQueued
  | _ => true

/-- No claim takes over a task that is being generated. -/
abbrev claimsWaiting : Condition (backend config) := onStatements Stmt.takesWaiting

/-- What the condition gives: a claimed row was waiting. -/
theorem Stmt.waiting_of_claim (member : row ∈ t.rows)
    (claim : (s.isClaim && s.hits t row) = true) (free : s.takesWaiting t = true) :
    row.isQueued = true := by
  rw [Bool.and_eq_true] at claim
  obtain ⟨kind, matched⟩ := claim
  cases s with
  | claimNextTask workerId now expiresAt =>
    simp only [hits, rowUpdate, Option.any_some] at matched
    obtain ⟨next, found, same⟩ := (Option.any_eq_true _ _).mp matched
    have equal : row = next :=
      t.eq_of_key member (nextClaimable_spec found).1 (of_decide_eq_true same)
    rw [takesWaiting, found] at free
    exact equal ▸ free
  | claimTaskById id workerId now expiresAt =>
    simp only [hits, rowUpdate, Option.any_some, decide_eq_true_eq] at matched
    exact matched.2
  | _ => cases kind

theorem Keyed.Table.find_eq_none {ρ : Type} {key : ρ → Int} {t : Keyed.Table key} {id : Int}
    (absent : ∀ row ∈ t.rows, key row ≠ id) : t.find id = none := by
  simpa [Keyed.Table.find] using absent

variable {log : List (backend config).Entry} {entry : (backend config).Entry}

theorem Accounted.wrote (accounted : Accounted t log) (found : statementOf entry = some (t, s))
    (issued : Issued config call s) (free : s.takesWaiting t = true) :
    Accounted (s.table t) (entry :: log) := by
  have unborn : ∀ id, t.next ≤ id → claims id (entry :: log) = 0 := by
    intro id later
    have absent : t.find id = none := by
      refine Keyed.Table.find_eq_none fun row member same => ?_
      have bound := t.below row member
      omega
    exact (executions_absent _ log found absent).trans (accounted.unborn id later)
  -- what the statement does to the two counts of a row that is there
  have present : ∀ row ∈ t.rows, claims row.id (entry :: log) ≤ 1 + charges row.id (entry :: log) ∧
      ((s.isClaim && s.hits t row) = false →
        claims row.id (entry :: log) = claims row.id log) := by
    intro row member
    have claimed := executions_present Stmt.isClaim log found member
    have charged := executions_present Stmt.isCharge log found member
    have before := accounted.all row.id
    unfold claims charges at before ⊢
    rw [claimed, charged]
    by_cases claim : (s.isClaim && s.hits t row) = true
    · have waits := s.waiting_of_claim member claim free
      have paid := accounted.waiting row member waits
      unfold claims charges at paid
      rw [if_pos claim]
      refine ⟨by omega, fun unclaimed => ?_⟩
      rw [claim] at unclaimed
      cases unclaimed
    · rw [if_neg claim]
      exact ⟨by omega, fun _ => rfl⟩
  constructor
  · intro id
    by_cases there : ∃ row ∈ t.rows, row.id = id
    · obtain ⟨row, member, rfl⟩ := there
      exact (present row member).1
    · have absent : t.find id = none := by
        refine Keyed.Table.find_eq_none fun row member same => there ⟨row, member, same⟩
      unfold claims charges
      rw [executions_absent _ log found absent, executions_absent _ log found absent]
      exact accounted.all id
  · intro row' after waits
    rcases Stmt.mem_table.mp after with ⟨row, before, became⟩ | inserted
    · have change := s.onRow_change before
      rw [became] at change
      have charged := executions_present Stmt.isCharge log found before
      have unclaimed : (s.isClaim && s.hits t row) = false := by
        refine Bool.eq_false_iff.mpr fun claim => ?_
        have running := Stmt.generating_of_claim claim became
        simp [Row.isQueued, running] at waits
      rw [Stmt.onRow_id became, (present row before).2 unclaimed]
      unfold charges
      rw [charged]
      rcases change.queued issued t waits with queued | charge
      · have paid := accounted.waiting row before queued
        unfold charges at paid
        omega
      · have paid := accounted.all row.id
        unfold charges at paid
        rw [if_pos charge]
        omega
    · cases s with
      | insert values =>
        have fresh : row'.id = t.next := congrArg Row.id (Option.some.inj inserted).symm
        rw [unborn row'.id (Int.le_of_eq fresh.symm)]
        exact Nat.zero_le _
      | _ => cases inserted
  · intro id later
    exact unborn id (Int.le_trans (Stmt.next_le s t) later)

theorem accounted_kept : Kept config claimsWaiting fun view =>
    Accounted view.world.db view.log := by
  refine Kept.of_statements ?_ ?_
  · intro t log entry silent accounted
    have same : ∀ kind id, executions kind id (entry :: log) = executions kind id log :=
      fun kind id => executions_silent kind id log silent
    constructor
    · intro id
      unfold claims charges
      rw [same, same]
      exact accounted.all id
    · intro row member waits
      unfold claims charges
      rw [same, same]
      exact accounted.waiting row member waits
    · intro id later
      exact (same _ id).trans (accounted.unborn id later)
  · intro view pid call helper op choice s accounted found issued waiting
    refine accounted.wrote (by rw [statementOf_performs, found]; rfl) issued ?_
    simpa [claimsWaiting, found] using waiting

/-! ## The price of a charge -/

def deferrals (id : Int) (log : List (backend config).Entry) : Nat :=
  executions Stmt.isDeferral id log

/-- The charges of a task since a state of the run in which it stood like `row`
are what its count has grown by, and only deferrals take it beyond its budget. -/
structure ChargedSince (row : Row) (first : List (backend config).Entry) (later : Row)
    (log : List (backend config).Entry) : Prop where
  count : later.retry_count + charges row.id first = row.retry_count + charges row.id log
  bound : later.retry_count + deferrals row.id first ≤
    max row.retry_count row.max_retries + deferrals row.id log
  budget : later.max_retries = row.max_retries

/-- The row with the key of `row`, if it is still there, has been charged since. -/
structure Charging (row : Row) (first : List (backend config).Entry) (t : ImageTable)
    (log : List (backend config).Entry) : Prop where
  born : row.id < t.next
  older : deferrals row.id first ≤ deferrals row.id log
  since : ∀ later ∈ t.rows, later.id = row.id → ChargedSince row first later log

theorem Charging.wrote {first : List (backend config).Entry} (charging : Charging row first t log)
    (found : statementOf entry = some (t, s)) : Charging row first (s.table t) (entry :: log) := by
  have older := charging.older
  have more : deferrals row.id first ≤ deferrals row.id (entry :: log) := by
    refine Nat.le_trans older ?_
    unfold deferrals
    rw [executions_cons _ _ _ found]
    exact Nat.le_add_right _ _
  refine ⟨Int.lt_of_lt_of_le charging.born (Stmt.next_le s t), more, ?_⟩
  intro later after same
  rcases Stmt.mem_table.mp after with ⟨old, before, became⟩ | inserted
  · have key : old.id = row.id := (Stmt.onRow_id became).symm.trans same
    have change := s.onRow_change before
    rw [became] at change
    obtain ⟨count, bound, budget⟩ := charging.since old before key
    have charged := executions_present Stmt.isCharge log found before
    have deferred := executions_present Stmt.isDeferral log found before
    have grown := Stmt.onRow_retry_count before became
    unfold charges at count
    unfold deferrals at bound older
    rw [key] at charged deferred
    constructor
    · unfold charges
      rw [charged]
      split at grown
      · rename_i charge
        rw [if_pos charge]
        omega
      · rename_i uncharged
        rw [if_neg uncharged]
        omega
    · unfold deferrals
      rw [deferred]
      rcases change.retry_count t with kept | ⟨raised, within | deferral⟩
      · split <;> omega
      · split <;> omega
      · rw [if_pos deferral]
        omega
    · exact change.sameInput.max_retries.trans budget
  · cases s with
    | insert values =>
      have fresh : later.id = t.next := congrArg Row.id (Option.some.inj inserted).symm
      have bound := charging.born
      omega
    | _ => cases inserted

theorem charging_kept (row : Row) (first : List (backend config).Entry) :
    Kept config .free fun view => Charging row first view.world.db view.log := by
  refine Kept.of_statements ?_ ?_
  · intro t log entry silent charging
    have unchanged : deferrals row.id (entry :: log) = deferrals row.id log :=
      executions_silent _ _ _ silent
    refine ⟨charging.born, unchanged ▸ charging.older, fun later member same => ?_⟩
    obtain ⟨count, bound, budget⟩ := charging.since later member same
    constructor
    · unfold charges
      rw [executions_silent _ _ _ silent]
      exact count
    · rw [unchanged]
      exact bound
    · exact budget
  · intro view pid call helper op choice s charging found issued _
    exact charging.wrote (by rw [statementOf_performs, found]; rfl)

/-- The scanner's two statements: a task whose worker is lost goes back into the
queue within its budget, and times out beyond it. -/
theorem scanner_decides (member : row ∈ t.rows) (running : row.status = Generating) {now : DbTime}
    (expired : row.leaseExpired now = true) :
    (row.retry_count < row.max_retries →
      row.requeued ∈ ((Stmt.requeueExpired now).table t).rows) ∧
    (row.max_retries ≤ row.retry_count →
      row.timedOut now ∈ ((Stmt.timeoutExpired now).table t).rows) := by
  constructor
  · intro budget
    refine Stmt.mem_table.mpr (.inl ⟨row, member, ?_⟩)
    simp [Stmt.onRow, Stmt.rowUpdate, Row.hasRetriesLeft, running, expired, budget]
  · intro spent
    refine Stmt.mem_table.mpr (.inl ⟨row, member, ?_⟩)
    simp [Stmt.onRow, Stmt.rowUpdate, Row.hasRetriesLeft, running, expired, spent]

/-- In every run in which each claim takes a waiting task: a task is claimed at
most once more than it is charged; the charges after any state of the run are
what its count grows by, which stays within its budget unless it is deferred; and
the scanner puts a task whose worker is lost back into the queue within the
budget and times it out beyond it. -/
theorem attempts_bounded (world : World) (first second : List (backend config).Label)
    (waiting : Meets claimsWaiting (boot config world) (first ++ second)) :
    (∀ id, claims id (run (boot config world) (first ++ second)).view.log ≤
      1 + charges id (run (boot config world) (first ++ second)).view.log) ∧
    (∀ row ∈ rowsOf (run (boot config world) first),
      ∀ later ∈ rowsOf (run (boot config world) (first ++ second)), later.id = row.id →
        ChargedSince row (run (boot config world) first).view.log later
          (run (boot config world) (first ++ second)).view.log) ∧
    (∀ row ∈ rowsOf (run (boot config world) (first ++ second)), row.status = Generating →
      ∀ now, row.leaseExpired now = true →
        (row.retry_count < row.max_retries → row.requeued ∈
          ((Stmt.requeueExpired now).table (run (boot config world) (first ++ second)).view.world.db).rows) ∧
        (row.max_retries ≤ row.retry_count → row.timedOut now ∈
          ((Stmt.timeoutExpired now).table
            (run (boot config world) (first ++ second)).view.world.db).rows)) := by
  refine ⟨?_, ?_, ?_⟩
  · have start : Accounted (boot config world).view.world.db (boot config world).view.log := by
      constructor
      · intro id
        exact Nat.zero_le _
      · intro row member waits
        exact Nat.le_refl _
      · intro id later
        rfl
    exact (accounted_kept.run start _ waiting).all
  · intro row member
    rw [run_append]
    have start : Charging row (run (boot config world) first).view.log
        (run (boot config world) first).view.world.db (run (boot config world) first).view.log := by
      refine ⟨Keyed.Table.below _ row member, Nat.le_refl _, fun later there same => ?_⟩
      have equal : later = row := Keyed.Table.eq_of_key there member same
      subst equal
      constructor
      · rfl
      · omega
      · rfl
    exact ((charging_kept row _).run_from world first start second (meets_free _ _)).since
  · intro row member running now expired
    exact scanner_decides member running expired

/-- A worker claims a new task over the database path and dies; once its lease
has run out another worker does the same. -/
def reclaimRun : List (backend defaultConfig).Label :=
  .start (.create 1 (.object [("prompt", .string "abc")]) false) :: succeeds 0 7 ++
    .start (.workerTurn 0) :: acts 1 [refused, {}, {}] ++ .crash 1 ::
    .env (.setClock (Chrono.seconds 901)) ::
    .start (.workerTurn 0) :: acts 2 [refused, {}, {}]

/-- The same, with the scanner's turn between the two claims. -/
def requeueRun : List (backend defaultConfig).Label :=
  .start (.create 1 (.object [("prompt", .string "abc")]) false) :: succeeds 0 7 ++
    .start (.workerTurn 0) :: acts 1 [refused, {}, {}] ++ .crash 1 ::
    .env (.setClock (Chrono.seconds 901)) ::
    .start .leaseExpiryTurn :: succeeds 2 5 ++
    .start (.workerTurn 0) :: acts 3 [refused, {}, {}]

theorem attempts_bounded_requeueRun :
    claims 1 (run (boot defaultConfig World.empty) requeueRun).view.log = 2 ∧
    claims 1 (run (boot defaultConfig World.empty) requeueRun).view.log ≤
      1 + charges 1 (run (boot defaultConfig World.empty) requeueRun).view.log :=
  ⟨by decide, (attempts_bounded World.empty [] requeueRun (by decide)).1 1⟩

/-- A task can be claimed again and again without ever being charged for it. -/
theorem attempts_uncharged :
    ¬ ∀ (labels : List (backend defaultConfig).Label) (id : Int),
      claims id (run (boot defaultConfig World.empty) labels).view.log ≤
        1 + charges id (run (boot defaultConfig World.empty) labels).view.log := by
  intro claim
  have twice : claims 1 (run (boot defaultConfig World.empty) reclaimRun).view.log = 2 := by decide
  have free : charges 1 (run (boot defaultConfig World.empty) reclaimRun).view.log = 0 := by decide
  have bound := claim reclaimRun 1
  omega

end Text2Image
