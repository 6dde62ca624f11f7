import Text2Image.Services.Steps

/-! Legal transitions: what can happen to a task over a whole run. -/

set_option autoImplicit false

namespace Text2Image

open Concurrency System TaskStatus

variable {config : Config}

/-- The columns that hold what the user asked for. -/
structure SameInput (first second : Row) : Prop where
  user_id : second.user_id = first.user_id
  request_id : second.request_id = first.request_id
  prompt : second.prompt = first.prompt
  negative_prompt : second.negative_prompt = first.negative_prompt
  num_steps : second.num_steps = first.num_steps
  height : second.height = first.height
  width : second.width = first.width
  seed : second.seed = first.seed
  created_at : second.created_at = first.created_at
  max_retries : second.max_retries = first.max_retries

theorem SameInput.refl (row : Row) : SameInput row row :=
  ⟨rfl, rfl, rfl, rfl, rfl, rfl, rfl, rfl, rfl, rfl⟩

theorem SameInput.trans {first second third : Row} (left : SameInput first second)
    (right : SameInput second third) : SameInput first third where
  user_id := right.user_id.trans left.user_id
  request_id := right.request_id.trans left.request_id
  prompt := right.prompt.trans left.prompt
  negative_prompt := right.negative_prompt.trans left.negative_prompt
  num_steps := right.num_steps.trans left.num_steps
  height := right.height.trans left.height
  width := right.width.trans left.width
  seed := right.seed.trans left.seed
  created_at := right.created_at.trans left.created_at
  max_retries := right.max_retries.trans left.max_retries

variable {s : Stmt} {t : ImageTable} {row row' : Row} {next : Option Row} {call : Call} {past : Past}

/-! ## One statement -/

/-- No statement writes a column the user has filled. -/
theorem Change.sameInput (change : Change s row (some row')) : SameInput row row' := by
  cases change <;> exact ⟨rfl, rfl, rfl, rfl, rfl, rfl, rfl, rfl, rfl, rfl⟩

theorem claimable_not_terminal {now : DbTime} (free : claimable now row = true) :
    row.status.isTerminal = false := by
  simp only [claimable, Row.isQueued, decide_eq_true_eq] at free
  rcases free with (queued | pending) | ⟨running, _⟩
  · rw [queued]; rfl
  · rw [pending]; rfl
  · rw [running]; rfl

theorem active_not_terminal (active : row.isActive = true) : row.status.isTerminal = false := by
  simp only [Row.isActive, decide_eq_true_eq] at active
  rcases active with queued | pending | running
  · rw [queued]; rfl
  · rw [pending]; rfl
  · rw [running]; rfl

/-- A row that has ended is only touched by its owner: a retry, unless it is a
success, or a delete. -/
theorem Change.of_terminal (change : Change s row next) (ended : row.status.isTerminal = true) :
    next = some row ∨
      s = .retryByIdAndUserId row.id row.user_id ∧ row.status ≠ Success ∨
      s = .deleteByIdAndUserId row.id row.user_id := by
  have running_open : row.status = Generating → False := by
    intro running
    rw [running] at ended
    cases ended
  cases change with
  | kept => exact .inl rfl
  | claimNext workerId expiresAt free =>
    rw [claimable_not_terminal free] at ended
    cases ended
  | claimById workerId now expiresAt queued =>
    have free : claimable now row = true := by simp [claimable, queued]
    rw [claimable_not_terminal free] at ended
    cases ended
  | requeue running => exact (running_open running).elim
  | timeout running => exact (running_open running).elim
  | renew expiresAt running => exact (running_open running).elim
  | finish id user running => exact (running_open running).elim
  | defer failureCode errorMessage running => exact (running_open running).elim
  | cancel now active =>
    rw [active_not_terminal active] at ended
    cases ended
  | retry status budget =>
    refine .inr (.inl ⟨rfl, ?_⟩)
    intro success
    rcases status with failed | timeout | cancelled <;> simp_all
  | delete => exact .inr (.inr rfl)

/-- A statement issued for a user changes no row of another user. -/
theorem Change.of_other_user (change : Change s row next) {user : Int} (issued : Issued config call s)
    (own : call.user = some user) (other : row.user_id ≠ user) : next = some row := by
  cases issued with
  | renewed => cases own
  | sent sends =>
    have worker : ∀ {index}, call = .workerTurn index → next = some row := by
      rintro index rfl
      cases own
    cases change with
    | kept => rfl
    | claimNext =>
      obtain ⟨_, turn, _⟩ := sends_claimNext sends
      exact worker turn
    | claimById =>
      obtain ⟨_, turn, _⟩ := sends_claimById sends
      exact worker turn
    | requeue | timeout =>
      cases call with
      | leaseExpiryTurn => cases own
      | _ => exact sends.elim
    | renew => cases call <;> exact sends.elim
    | finish =>
      obtain ⟨_, _, turn, _⟩ := sends_finish sends
      exact worker turn
    | defer =>
      obtain ⟨_, _, turn, _⟩ := sends_defer sends
      exact worker turn
    | cancel =>
      rw [sends_cancel sends] at own
      exact (other (Option.some.inj own)).elim
    | retry =>
      rw [sends_retry sends] at own
      exact (other (Option.some.inj own)).elim
    | delete =>
      rw [sends_delete sends] at own
      exact (other (Option.some.inj own)).elim

/-! ## One step -/

/-- The owner's `deleteById` executes its DELETE. -/
def Deletes (row : Row) (call : Call) (op : Op) : Prop :=
  call = .deleteById row.user_id row.id ∧ op = .sql (.deleteByIdAndUserId row.id row.user_id)

/-- The owner's `retryById` executes its UPDATE. -/
def Retries (row : Row) (call : Call) (op : Op) : Prop :=
  call = .retryById row.user_id row.id ∧ op = .sql (.retryByIdAndUserId row.id row.user_id)

variable {acts : Option (Call × Op)} {t' : ImageTable}

theorem Stmt.next_le (s : Stmt) (t : ImageTable) : t.next ≤ (s.table t).next := by
  cases s with
  | insert values => exact Int.le_of_lt (Int.lt_succ t.next)
  | _ => exact Int.le_refl _

theorem TableStep.next_le (step : TableStep config acts t t') : t.next ≤ t'.next := by
  cases step with
  | same => exact Int.le_refl _
  | wrote => exact Stmt.next_le _ _

/-- A row after a statement was there before, with the same input, or is new. -/
theorem Stmt.origin (after : row' ∈ (s.table t).rows) :
    (∃ row ∈ t.rows, row.id = row'.id ∧ SameInput row row') ∨ t.next ≤ row'.id := by
  rcases mem_table.mp after with ⟨row, member, became⟩ | inserted
  · have change := s.onRow_change member
    rw [became] at change
    exact .inl ⟨row, member, (onRow_id became).symm, change.sameInput⟩
  · cases s with
    | insert values =>
      have fresh : row'.id = t.next := congrArg Row.id (Option.some.inj inserted).symm
      exact .inr (Int.le_of_eq fresh.symm)
    | _ => cases inserted

theorem TableStep.origin (step : TableStep config acts t t') (after : row' ∈ t'.rows) :
    (∃ row ∈ t.rows, row.id = row'.id ∧ SameInput row row') ∨ t.next ≤ row'.id := by
  cases step with
  | same => exact .inl ⟨row', after, rfl, SameInput.refl row'⟩
  | wrote => exact Stmt.origin after

/-- A row that has ended stays as it is unless its owner deletes it, or retries
it and it is no success. -/
theorem TableStep.of_terminal (step : TableStep config acts t t') (before : row ∈ t.rows)
    (ended : row.status.isTerminal = true)
    (kept : ∀ call op, acts = some (call, op) → ¬ Deletes row call op)
    (unretried : row.status ≠ Success → ∀ call op, acts = some (call, op) → ¬ Retries row call op) :
    row ∈ t'.rows := by
  cases step with
  | same => exact before
  | @wrote call s issued _ =>
    have change := s.onRow_change before
    rcases change.of_terminal ended with same | ⟨rfl, unsuccessful⟩ | rfl
    · exact Stmt.mem_table.mpr (.inl ⟨row, before, same⟩)
    · cases issued with
      | sent sends => exact (unretried unsuccessful _ _ rfl ⟨sends_retry sends, rfl⟩).elim
    · cases issued with
      | sent sends => exact (kept _ _ rfl ⟨sends_delete sends, rfl⟩).elim

/-- A step taken for a user leaves the rows of all other users alone. -/
theorem TableStep.of_other_user {op : Op}
    (step : TableStep config (some (call, op)) t t') {user : Int}
    (own : call.user = some user) (other : row.user_id ≠ user) : row ∈ t'.rows ↔ row ∈ t.rows := by
  cases step with
  | same => exact Iff.rfl
  | @wrote _ s issued _ =>
    constructor
    · intro after
      rcases Stmt.mem_table.mp after with ⟨old, member, became⟩ | inserted
      · have change := s.onRow_change member
        rw [became] at change
        have owner := change.sameInput.user_id
        have same := change.of_other_user issued own (owner ▸ other)
        exact Option.some.inj same ▸ member
      · cases issued with
        | renewed => cases inserted
        | sent sends =>
          cases s with
          | insert values =>
            obtain ⟨userId, _, _, rfl, ⟨_, _, _, rfl⟩, _⟩ := sends_insert sends
            have owner : row.user_id = userId := congrArg Row.user_id (Option.some.inj inserted).symm
            exact (other (owner.trans (Option.some.inj own))).elim
          | _ => cases inserted
    · intro before
      have same := (s.onRow_change before).of_other_user issued own other
      exact Stmt.mem_table.mpr (.inl ⟨row, before, same⟩)

/-! ## Runs -/

/-- A row that has ended survives every run in which its owner does not delete
it and, unless it is a success, does not retry it. -/
theorem row_of_terminal (world : World) (first second : List (backend config).Label)
    (before : row ∈ rowsOf (run (boot config world) first)) (ended : row.status.isTerminal = true)
    (untouched : ¬ ActedBy (fun call op =>
      Deletes row call op ∨ row.status ≠ Success ∧ Retries row call op)
      (run (boot config world) first) second) :
    row ∈ rowsOf (run (run (boot config world) first) second) := by
  induction second generalizing first with
  | nil => exact before
  | cons label second ih =>
    rw [ActedBy, not_or] at untouched
    obtain ⟨now, later⟩ := untouched
    have follows : (run (boot config world) first).Follows (protocols config) := follows_run world first
    have step := table_step follows (keepersOwned_run world first) label
    have next := ih (first ++ [label])
    rw [run_concat] at next
    refine next ?_ later
    refine step.of_terminal before ended ?_ ?_
    · intro call op acts deletes
      exact now ⟨call, op, acts, .inl deletes⟩
    · intro unsuccessful call op acts retries
      exact now ⟨call, op, acts, .inr ⟨unsuccessful, retries⟩⟩

/-- The input columns under a key never change, and keys are not given out again. -/
theorem sameInput_run (world : World) (first second : List (backend config).Label)
    (present : row.id < (run (boot config world) first).view.world.db.next)
    (input : ∀ old ∈ rowsOf (run (boot config world) first), old.id = row.id → SameInput row old) :
    ∀ later ∈ rowsOf (run (run (boot config world) first) second),
      later.id = row.id → SameInput row later := by
  induction second generalizing first with
  | nil => exact input
  | cons label second ih =>
    have follows : (run (boot config world) first).Follows (protocols config) := follows_run world first
    have step := table_step follows (keepersOwned_run world first) label
    have next := ih (first ++ [label])
    rw [run_concat] at next
    refine next (Int.lt_of_lt_of_le present step.next_le) ?_
    intro new member same
    rcases step.origin member with ⟨old, before, key, kept⟩ | fresh
    · exact (input old before (key.trans same)).trans kept
    · omega

/-- In every run of requests, workers and scanners: (a) a success stays as it is
until its owner deletes it; (b) a failed, timed out or cancelled task stays as it
is until its owner retries or deletes it; (c) the columns that hold the request
never change; (d) no step taken for a user touches another user's row. -/
theorem transitions_legal (world : World) (first second : List (backend config).Label) :
    (∀ row ∈ rowsOf (run (boot config world) first), row.status = Success →
      ¬ ActedBy (Deletes row) (run (boot config world) first) second →
      row ∈ rowsOf (run (boot config world) (first ++ second))) ∧
    (∀ row ∈ rowsOf (run (boot config world) first),
      row.status = Failed ∨ row.status = Timeout ∨ row.status = Cancelled →
      ¬ ActedBy (fun call op => Deletes row call op ∨ Retries row call op)
        (run (boot config world) first) second →
      row ∈ rowsOf (run (boot config world) (first ++ second))) ∧
    (∀ row ∈ rowsOf (run (boot config world) first),
      ∀ later ∈ rowsOf (run (boot config world) (first ++ second)),
        later.id = row.id → SameInput row later) ∧
    (∀ label call op user, acting (run (boot config world) first) label = some (call, op) →
      call.user = some user → ∀ row, row.user_id ≠ user →
        (row ∈ rowsOf (step (run (boot config world) first) label) ↔
          row ∈ rowsOf (run (boot config world) first))) := by
  have follows : (run (boot config world) first).Follows (protocols config) := follows_run world first
  have owned : KeepersOwned config (run (boot config world) first).view := keepersOwned_run world first
  rw [run_append]
  refine ⟨?_, ?_, ?_, ?_⟩
  · intro row member success untouched
    refine row_of_terminal world first second member (by rw [success]; rfl) ?_
    intro acted
    refine untouched (acted.mono fun call op met => ?_)
    rcases met with deleted | ⟨unsuccessful, _⟩
    · exact deleted
    · exact (unsuccessful success).elim
  · intro row member ended untouched
    have terminal : row.status.isTerminal = true := by
      rcases ended with failed | timeout | cancelled
      · rw [failed]; rfl
      · rw [timeout]; rfl
      · rw [cancelled]; rfl
    refine row_of_terminal world first second member terminal ?_
    intro acted
    refine untouched (acted.mono fun call op met => ?_)
    rcases met with deleted | ⟨_, retried⟩
    · exact .inl deleted
    · exact .inr retried
  · intro row member
    refine sameInput_run world first second (Keyed.Table.below _ row member) ?_
    intro old before same
    rw [Keyed.Table.eq_of_key before member same]
    exact SameInput.refl row
  · intro label call op user acts own row other
    have step := table_step follows owned label
    rw [acts] at step
    exact step.of_other_user own other

end Text2Image
