import Text2Image.Properties.Attempts
import Text2Image.Services.Duties

/-! Waiting tasks and the Redis task list: every task that waits is in the list,
or a call at work is still going to put it there or to claim it.
-/

set_option autoImplicit false

namespace Text2Image

open Concurrency System TaskStatus

variable {config : Config}

/-- The task is in the process's hands, under its id or as the row just inserted. -/
def carries (call : Call) (past : Past) (session id userId : Int) : Bool :=
  scanning call past || inHand id userId past || (inserting past && session = id)

/-- A call at work that sees to the task. -/
def seesTo (view : (backend config).View) (pid : Nat) (id userId : Int) : Bool :=
  (live pid view.log).any fun call =>
    carries call (history pid view.log) (view.world.session pid) id userId

def seenByOther (view : (backend config).View) (pid : Nat) (id userId : Int) : Bool :=
  view.log.any fun entry => entry.pid ≠ pid && seesTo view entry.pid id userId

/-- A task with this id is not in the list after the operation, or it was taken
out of the list before and is dropped now. -/
def loses (op : Op) (world : World) (id : Int) : Bool :=
  match op with
  | .removeFromQueue taskId => taskId = id
  | .rebuildTaskQueue taskIds => !taskIds.contains id
  | .acquireLease taskId _ => taskId = id && (world.leases taskId).isSome && !world.queue.contains id
  | _ => false

/-- No statement, no list or lease operation and no announcement fails, and no
session is replaced before it was asked for the id it has inserted. -/
def unfailing (op : Op) (choice : Choice) : Bool :=
  match op with
  | .sql _ | .redisAvailable | .enqueueTask _ | .rebuildTaskQueue _ | .dequeueTask
  | .removeFromQueue _ | .acquireLease .. | .publishTaskUpdated _ => choice.succeeds
  | .lastInsertId => choice.succeeds && !choice.freshSession
  | _ => true

/-- Nothing fails, and no waiting task is lost from the list that no other call
at work sees to. -/
abbrev losesNone : Condition (backend config) where
  starts _ _ := True
  performs pid _ op choice view := unfailing op choice = true ∧
    (view.world.db.rows.all fun row =>
      !row.isQueued || !loses op view.world row.id || seenByOther view pid row.id row.user_id) = true

/-- Every waiting task is in the list or seen to. -/
structure Attended (view : (backend config).View) : Prop where
  fair : ∀ pid, Fair (history pid view.log)
  listed : ∀ row ∈ view.world.db.rows, row.isQueued = true →
    row.id ∈ view.world.queue ∨ ∃ pid, seesTo view pid row.id row.user_id = true

variable {view : (backend config).View} {pid other : Nat} {call : Call} {op : Op} {choice : Choice}
  {helper : Bool} {userId id : Int} {row : Row}

theorem seenByOther_iff : seenByOther view pid id userId = true ↔
    ∃ other, other ≠ pid ∧ seesTo view other id userId = true := by
  constructor
  · intro seen
    obtain ⟨entry, _, both⟩ := List.any_eq_true.mp seen
    rw [Bool.and_eq_true, decide_eq_true_eq] at both
    exact ⟨entry.pid, both⟩
  · rintro ⟨other, different, sees⟩
    obtain ⟨call, alive, _⟩ := (Option.any_eq_true _ _).mp sees
    refine List.any_eq_true.mpr ⟨.started other call, mem_of_live alive, ?_⟩
    simpa [Entry.pid, different] using sees

/-- A process notices what others perform in nothing but the world. -/
theorem seesTo_other (different : other ≠ pid) :
    seesTo (view.performs pid call helper op choice) other id userId = seesTo view other id userId := by
  have told : history other (view.performs pid call helper op choice).log = history other view.log := by
    rcases history_performs view pid call helper op choice other
      with ⟨same, _⟩ | same
    · exact (different same).elim
    · exact same
  have session : (view.performs pid call helper op choice).world.session other =
      view.world.session other := by
    rcases perform_session config pid op choice view.world other with same | ⟨_, _, same⟩
    · exact same
    · exact (different same).elim
  have alive : live other (view.performs pid call helper op choice).log = live other view.log := rfl
  rw [seesTo, told, session, alive]
  rfl

theorem seesTo_own (alive : live pid view.log = some call) (id userId : Int) :
    seesTo (view.performs pid call false op choice) pid id userId =
      carries call (⟨op, (perform config pid op choice view.world).1⟩ :: history pid view.log)
        ((perform config pid op choice view.world).2.session pid) id userId := by
  have alive' : live pid (view.performs pid call false op choice).log = some call := alive
  rw [seesTo, history_own, alive']
  rfl

theorem seesTo_helper (permitted : leaseKeeperMay config pid op view.world = true) (id userId : Int) :
    seesTo (view.performs pid call true op choice) pid id userId = seesTo view pid id userId := by
  have session : (view.performs pid call true op choice).world.session pid = view.world.session pid := by
    rcases perform_session config pid op choice view.world pid with same | ⟨_, executes, _⟩
    · exact same
    · obtain ⟨rfl, _⟩ := executed_eq_some.mp executes
      cases permitted
  have alive' : live pid (view.performs pid call true op choice).log = live pid view.log := rfl
  rw [seesTo, history_helper, session, alive']
  rfl

/-! ## One operation -/

variable {past : Past} {world : World} {s : Stmt} {row' : Row} {t : ImageTable}

/-- A listed task stays in the list, is dropped, or is taken out by the process. -/
theorem perform_queue (config : Config) (pid : Nat) (unfails : unfailing op choice = true)
    (userId : Int) (listed : id ∈ world.queue) :
    id ∈ (perform config pid op choice world).2.queue ∨ loses op world id = true ∨
      gains id userId ⟨op, (perform config pid op choice world).1⟩ = true := by
  cases op with
  | sql s =>
    have commit : ∀ world : World, (world.commit pid s).queue = world.queue := by
      intro world
      unfold World.commit
      split <;> rfl
    have keeper : (keeperAfter pid s world).queue = world.queue := by
      unfold keeperAfter
      split
      · split <;> rfl
      · rfl
    left
    simp only [perform]
    split
    · rw [commit, keeper]
      exact listed
    · exact listed
    · rw [commit]
      exact listed
  | enqueueTask taskId =>
    left
    simp only [perform]
    split
    · exact List.mem_cons_of_mem _ listed
    · exact listed
  | rebuildTaskQueue taskIds =>
    by_cases kept : id ∈ taskIds
    · left
      simp only [perform]
      split
      · exact List.mem_reverse.mpr kept
      · exact listed
    · exact .inr (.inl (by simp [loses, kept]))
  | removeFromQueue taskId =>
    by_cases same : taskId = id
    · exact .inr (.inl (by simp [loses, same]))
    · left
      simp only [perform]
      split
      · exact List.mem_filter.mpr ⟨listed, by simpa using Ne.symm same⟩
      · exact listed
  | dequeueTask =>
    have succeeds : choice.succeeds = true := unfails
    obtain ⟨last, ends⟩ : ∃ last, world.queue.getLast? = some last :=
      ⟨_, List.getLast?_eq_some_getLast (List.ne_nil_of_mem listed)⟩
    have split := List.dropLast_append_getLast? last ends
    rw [← split] at listed
    rcases List.mem_append.mp listed with stays | taken
    · left
      simp only [perform]
      split
      · exact stays
      · rw [← split]
        exact listed
    · right
      right
      rw [List.mem_singleton.mp taken]
      simp [gains, perform, succeeds, ends]
  | acquireLease | releaseLease | forceReleaseLease | cacheSetex | cacheDel | bumpVersion | putObject
  | deleteObject =>
    left
    simp only [perform]
    split <;> exact listed
  | _ => exact .inl listed

theorem perform_sql (config : Config) (pid : Nat) (s : Stmt) (world : World)
    (succeeds : choice.succeeds = true) :
    (perform config pid (.sql s) choice world).1 = .ok (s.answer world.db choice.pick) ∧
      executed (.sql s) choice = some s := by
  have done : choice.outcome = .done := of_decide_eq_true succeeds
  refine ⟨?_, by simp [executed, Choice.applies, done]⟩
  simp only [perform, done]
  rfl

/-- Whoever scans the waiting tasks has them all in hand. -/
theorem gains_scan (config : Config) (pid : Nat) (succeeds : choice.succeeds = true)
    (member : row ∈ world.db.rows) (waits : row.isQueued = true) (userId : Int) :
    gains row.id userId ⟨.sql .selectQueuedIds,
      (perform config pid (.sql .selectQueuedIds) choice world).1⟩ = true := by
  rw [(perform_sql config pid _ world succeeds).1]
  have found : row.id ∈ ((world.db.select Row.isQueued).mergeSort olderThan).map Row.id := by
    refine List.mem_map_of_mem (List.mem_mergeSort.mpr ?_)
    exact Keyed.Table.mem_select.mpr ⟨member, waits⟩
  exact List.contains_iff_mem.mpr found

/-- A row that the statement matches and changes is counted. -/
theorem affected_pos {update : RowUpdate} (updates : s.rowUpdate t = some update)
    (member : row ∈ t.rows) (matched : update.guard row = true) (differs : update.change row ≠ row) :
    0 < s.affected t := by
  simp only [Stmt.affected, updates]
  refine List.length_pos_of_mem (a := row) (Keyed.Table.mem_select.mpr ⟨member, ?_⟩)
  simp [matched, differs]

theorem asks_for (asks : AsksFor (backend config) call past op) : Asks past op :=
  asks.allowed (discharges_call call)

/-- A statement that makes a task wait leaves it in the hands of the process. -/
theorem carries_charged (sends : call.sends config past s) (asks : Asks past (.sql s))
    (succeeds : choice.succeeds = true) (member : row ∈ world.db.rows)
    (charged : (s.isCharge && s.hits world.db row) = true) (session : Int) :
    carries call (⟨.sql s, (perform config pid (.sql s) choice world).1⟩ :: past) session row.id
      row.user_id = true := by
  rw [Bool.and_eq_true] at charged
  obtain ⟨kind, matched⟩ := charged
  have answer := (perform_sql config pid s world succeeds).1
  cases s with
  | requeueExpired now =>
    cases call with
    | leaseExpiryTurn =>
      have unscanned : (past.any fun taken => taken.op.isScan) = false := asks
      have ahead : ∀ answer, scanning .leaseExpiryTurn
          ((⟨.sql (.requeueExpired now), answer⟩ : Taken interface) :: past) = true := by
        intro answer
        rw [scanning, List.any_cons, unscanned]
        rfl
      simp [carries, ahead]
    | _ => cases sends
  | retryByIdAndUserId id userId =>
    simp only [Stmt.hits, Stmt.rowUpdate, Option.any_some, decide_eq_true_eq] at matched
    obtain ⟨rfl, rfl, ended, budget⟩ := matched
    have counted : 0 < Stmt.affected (.retryByIdAndUserId row.id row.user_id) world.db := by
      refine affected_pos rfl member (by simp [ended, budget]) ?_
      intro same
      have status : Queued = row.status := congrArg Row.status same
      rw [← status] at ended
      simp at ended
    have gained : gains row.id row.user_id ⟨.sql (.retryByIdAndUserId row.id row.user_id),
        (perform config pid (.sql (.retryByIdAndUserId row.id row.user_id)) choice world).1⟩ = true := by
      have both : decide (row.id = row.id ∧ row.user_id = row.user_id ∧
        0 < Stmt.affected (.retryByIdAndUserId row.id row.user_id) world.db) = true :=
        decide_eq_true ⟨rfl, rfl, counted⟩
      rw [answer]
      exact both
    simp [carries, inHand, gained]
  | deferClaimedTask id userId workerId failureCode errorMessage =>
    simp only [Stmt.hits, Stmt.rowUpdate, Option.any_some, Row.claimedBy, decide_eq_true_eq] at matched
    obtain ⟨rfl, rfl, running, held⟩ := matched
    have counted : 0 < Stmt.affected
        (.deferClaimedTask row.id row.user_id workerId failureCode errorMessage) world.db := by
      refine affected_pos rfl member (by simp [Row.claimedBy, running, held]) ?_
      intro same
      have status : Queued = row.status := congrArg Row.status same
      rw [running] at status
      cases status
    have gained : gains row.id row.user_id
        ⟨.sql (.deferClaimedTask row.id row.user_id workerId failureCode errorMessage),
          (perform config pid (.sql (.deferClaimedTask row.id row.user_id workerId failureCode
            errorMessage)) choice world).1⟩ = true := by
      have both : decide (row.id = row.id ∧ 0 < Stmt.affected
          (.deferClaimedTask row.id row.user_id workerId failureCode errorMessage) world.db) = true :=
        decide_eq_true ⟨rfl, counted⟩
      rw [answer]
      exact both
    simp [carries, inHand, gained]
  | _ => cases kind

/-- So does an INSERT. -/
theorem carries_inserted {values : Row} (succeeds : choice.succeeds = true) :
    carries call (⟨.sql (.insert values), (perform config pid (.sql (.insert values)) choice world).1⟩ ::
      past) ((perform config pid (.sql (.insert values)) choice world).2.session pid) world.db.next
      userId = true := by
  have answer := (perform_sql config pid (.insert values) world succeeds).1
  rw [(perform_insert config pid values choice world answer).2]
  simp [carries, inserting]

theorem carries_iff {session : Int} : carries call past session id userId = true ↔
    scanning call past = true ∨ inHand id userId past = true ∨ inserting past = true ∧ session = id := by
  simp [carries, or_assoc]

/-- A task is only let go of when it is listed, claimed, gone or dropped. -/
theorem settled_listed (unfails : unfailing op choice = true)
    (member : row ∈ (perform config pid op choice world).2.db.rows) (waits : row.isQueued = true)
    (settled : settles row.id row.user_id ⟨op, (perform config pid op choice world).1⟩ = true) :
    row.id ∈ (perform config pid op choice world).2.queue ∨ loses op world row.id = true := by
  cases op with
  | enqueueTask taskId =>
    have succeeds : choice.outcome = .done := of_decide_eq_true unfails
    left
    rw [← of_decide_eq_true settled]
    simp [perform, Choice.applies, succeeds]
  | rebuildTaskQueue taskIds =>
    have succeeds : choice.outcome = .done := of_decide_eq_true unfails
    left
    simpa [perform, Choice.applies, succeeds, settles] using settled
  | acquireLease taskId workerId =>
    have succeeds : choice.outcome = .done := of_decide_eq_true unfails
    simp only [settles, perform, Choice.succeeds, succeeds, decide_true, Bool.true_and, Bool.and_eq_true,
      decide_eq_true_eq, Bool.not_eq_true'] at settled
    obtain ⟨rfl, held⟩ := settled
    by_cases listed : row.id ∈ world.queue
    · left
      simpa [perform, held] using listed
    · right
      have there : (world.leases row.id).isSome = true := by
        cases found : world.leases row.id with
        | none => simp [found] at held
        | some holder => rfl
      simp [loses, there, listed]
  | sql s =>
    have answer := perform_sql config pid s world unfails
    rw [perform_table, answer.2] at member
    cases s with
    | claimTaskById taskId workerId now expiresAt =>
      -- a row with this id has just been claimed, so it does not wait
      rcases Stmt.mem_table.mp member with ⟨old, before, became⟩ | inserted
      · have same := Stmt.onRow_id became
        have id : taskId = old.id := (of_decide_eq_true settled).trans same
        simp only [Stmt.onRow, Stmt.rowUpdate, decide_eq_true_eq, id, true_and] at became
        split at became
        · cases became
          simp [Row.isQueued, Row.claimed] at waits
        · rename_i idle
          cases became
          exact (idle waits).elim
      · cases inserted
    | selectByIdAndUserId taskId user =>
      rw [answer.1] at settled
      have gone : decide ((fetchOne choice.pick (world.db.select fun row =>
          row.id = taskId ∧ row.user_id = user)).isNone ∧ taskId = row.id ∧ user = row.user_id) = true :=
        settled
      obtain ⟨absent, rfl, rfl⟩ := of_decide_eq_true gone
      have there : row ∈ world.db.select fun other => other.id = row.id ∧ other.user_id = row.user_id :=
        Keyed.Table.mem_select.mpr ⟨member, by simp⟩
      cases found : world.db.select fun other => other.id = row.id ∧ other.user_id = row.user_id with
      | nil =>
        rw [found] at there
        cases there
      | cons first rest =>
        rw [found] at absent
        simp [fetchOne] at absent
    | _ => cases settled
  | _ => cases settled

/-- A process keeps a task in its hands until it has seen to it. -/
theorem carries_own (asks : Asks past op) (unfails : unfailing op choice = true)
    (member : row ∈ (perform config pid op choice world).2.db.rows) (waits : row.isQueued = true)
    (carried : carries call past (world.session pid) row.id row.user_id = true) :
    row.id ∈ (perform config pid op choice world).2.queue ∨ loses op world row.id = true ∨
      carries call (⟨op, (perform config pid op choice world).1⟩ :: past)
        ((perform config pid op choice world).2.session pid) row.id row.user_id = true := by
  rcases carries_iff.mp carried with ahead | held | ⟨inserts, session⟩
  · right
    right
    cases scan : op.isScan with
    | true =>
      have same : op = .sql .selectQueuedIds := by
        unfold Op.isScan at scan
        split at scan
        · rfl
        · cases scan
      subst same
      have before : row ∈ world.db.rows := by
        rw [perform_table, (perform_sql config pid _ world unfails).2] at member
        exact member
      have succeeds : choice.succeeds = true := unfails
      have gained := gains_scan config pid succeeds before waits row.user_id
      exact carries_iff.mpr (.inr (.inl (by simp [inHand, gained])))
    | false =>
      refine carries_iff.mpr (.inl ?_)
      rw [scanning, List.any_cons, scan, Bool.false_or]
      exact ahead
  · cases settled : settles row.id row.user_id ⟨op, (perform config pid op choice world).1⟩ with
    | true => exact (settled_listed unfails member waits settled).imp_right .inl
    | false => exact .inr (.inr (carries_iff.mpr (.inr (.inl (by simp [inHand, settled, held])))))
  · right
    right
    by_cases told : op = .lastInsertId
    · subst told
      simp only [unfailing, Bool.and_eq_true, Bool.not_eq_true'] at unfails
      refine carries_iff.mpr (.inr (.inl ?_))
      simp [inHand, gains, perform, unfails, tells, session]
    · have same : (perform config pid op choice world).2.session pid = world.session pid := by
        rcases perform_session config pid op choice world pid with same | ⟨values, executes, _⟩
        · exact same
        · -- a second INSERT is not asked for before the first one's id
          obtain ⟨rfl, _⟩ := executed_eq_some.mp executes
          have idle : inserting past = false := asks
          rw [idle] at inserts
          cases inserts
      refine carries_iff.mpr (.inr (.inr ⟨?_, same.trans session⟩))
      cases op with
      | sql s =>
        cases s with
        | insert values => rfl
        | _ => exact inserts
      | lastInsertId => exact (told rfl).elim
      | _ => exact inserts

/-! ## Runs -/

theorem fair_performed (unfails : unfailing op choice = true) :
    fair ⟨op, (perform config pid op choice world).1⟩ = true := by
  cases op with
  | sql s =>
    have succeeds := (perform_sql config pid s world unfails).1
    generalize (perform config pid (.sql s) choice world).1 = answer at succeeds
    subst succeeds
    rfl
  | lastInsertId =>
    have told : (perform config pid .lastInsertId choice world).1 = .ok (world.session pid) := by
      simp only [unfailing, Bool.and_eq_true, Bool.not_eq_true'] at unfails
      simp only [perform, unfails]
      rfl
    generalize (perform config pid .lastInsertId choice world).1 = answer at told
    subst told
    rfl
  | redisAvailable => exact unfails
  | publishTaskUpdated image =>
    have told : (perform config pid (.publishTaskUpdated image) choice world).1 = .ok () := by
      have succeeds : choice.succeeds = true := unfails
      simp only [perform, Choice.orThrow, succeeds]
      rfl
    generalize (perform config pid (.publishTaskUpdated image) choice world).1 = answer at told
    subst told
    rfl
  | _ => rfl

theorem Attended.performs (attended : Attended view) (may : Acts config view pid call op helper)
    (asks : helper = false → AsksFor (backend config) call (history pid view.log) op)
    (owned : KeepersOwned config view) (alive : live pid view.log = some call)
    (meets : losesNone.performs pid call op choice view) :
    Attended (view.performs pid call helper op choice) := by
  obtain ⟨unfails, keeps⟩ := meets
  have others : ∀ other id userId, other ≠ pid → seesTo view other id userId = true →
      seesTo (view.performs pid call helper op choice) other id userId = true :=
    fun other id userId different sees => (seesTo_other different).trans sees
  have kept : ∀ row ∈ view.world.db.rows, row.isQueued = true → loses op view.world row.id = true →
      ∃ pid', seesTo (view.performs pid call helper op choice) pid' row.id row.user_id = true := by
    intro row member waits lost
    have seen := List.all_eq_true.mp keeps row member
    simp only [waits, lost, Bool.not_true, Bool.false_or] at seen
    obtain ⟨other, different, sees⟩ := seenByOther_iff.mp seen
    exact ⟨other, others other _ _ different sees⟩
  constructor
  · intro other
    rcases history_performs view pid call helper op choice other
      with ⟨_, news⟩ | same
    · rw [news]
      intro taken member
      rcases List.mem_cons.mp member with rfl | old
      · exact fair_performed unfails
      · exact attended.fair other taken old
    · rw [same]
      exact attended.fair other
  · intro row' member waits
    have own : helper = false → ∀ id userId,
        carries call (⟨op, (perform config pid op choice view.world).1⟩ :: history pid view.log)
          ((perform config pid op choice view.world).2.session pid) id userId = true →
        ∃ pid', seesTo (view.performs pid call helper op choice) pid' id userId = true := by
      rintro rfl id userId carried
      exact ⟨pid, (seesTo_own alive id userId).trans carried⟩
    have old : ∀ row ∈ view.world.db.rows, row.isQueued = true → row'.id = row.id →
        row'.user_id = row.user_id → row'.id ∈ (view.performs pid call helper op choice).world.queue ∨
          ∃ pid', seesTo (view.performs pid call helper op choice) pid' row'.id row'.user_id = true := by
      intro row before waited same user
      rcases attended.listed row before waited with listed | ⟨pid', sees⟩
      · rcases perform_queue config pid unfails row.user_id listed with
          stays | lost | gained
        · exact .inl (same ▸ stays)
        · rw [same, user]
          exact .inr (kept row before waited lost)
        · rw [same, user]
          cases helper with
          | false => exact .inr (own rfl _ _ (carries_iff.mpr (.inr (.inl (by simp [inHand, gained])))))
          | true =>
            rcases leaseKeeperMay_iff.mp may with ⟨_, _, _, rfl⟩ | ⟨_, _, _, rfl⟩ <;> cases gained
      · by_cases mine : pid' = pid
        · subst mine
          cases helper with
          | true =>
            rw [same, user]
            exact .inr ⟨pid', (seesTo_helper may _ _).trans sees⟩
          | false =>
            have carried : carries call (history pid' view.log) (view.world.session pid') row'.id
                row'.user_id = true := by
              rw [seesTo, alive, Option.any_some] at sees
              rw [same, user]
              exact sees
            rcases carries_own (asks_for (asks rfl)) unfails member waits carried with
              listed | lost | carried
            · exact .inl listed
            · rw [same, user]
              rw [same] at lost
              exact .inr (kept row before waited lost)
            · exact .inr (own rfl _ _ carried)
        · rw [same, user]
          exact .inr ⟨pid', others pid' _ _ mine sees⟩
    cases found : executed op choice with
    | none =>
      rw [performs_db_silent found] at member
      exact old row' member waits rfl rfl
    | some s =>
      have changed : (view.performs pid call helper op choice).world.db = s.table view.world.db :=
        performs_db_executed found
      rw [changed] at member
      have issued := may.issued owned alive found
      obtain ⟨rfl, _⟩ := executed_eq_some.mp found
      rcases Stmt.mem_table.mp member with ⟨row, before, became⟩ | inserted
      · have change := s.onRow_change before
        rw [became] at change
        rcases change.queued issued view.world.db waits with waited | charged
        · exact old row before waited (Stmt.onRow_id became) change.sameInput.user_id
        · right
          rw [Stmt.onRow_id became, change.sameInput.user_id]
          cases helper with
          | false =>
            exact own rfl _ _ (carries_charged may (asks_for (asks rfl)) unfails before charged _)
          | true =>
            rcases leaseKeeperMay_iff.mp may with ⟨_, _, _, other⟩ | ⟨_, _, _, same⟩
            · cases other
            · cases same
              cases charged
      · right
        cases s with
        | insert values =>
          cases inserted
          cases helper with
          | false => exact own rfl _ _ (carries_inserted unfails)
          | true =>
            rcases leaseKeeperMay_iff.mp may with ⟨_, _, _, other⟩ | ⟨_, _, _, same⟩
            · cases other
            · cases same
        | _ => cases inserted

/-- A call that is done has nothing in its hands. -/
theorem returned_free {session : Int} (fair : Fair past) (discharged : call.Discharged past) :
    carries call past session id userId = false := by
  have free := discharged.1 fair
  simp [carries, discharged.2 fair, free.inHand, free.inserting]

theorem attended_kept : Upkept config losesNone fun view =>
    (∀ pid, .crashed pid ∉ view.log) → Attended view where
  acts view pid call helper op choice _ owned attended alive may asks meets uncrashed :=
    (attended fun pid member => uncrashed pid (List.mem_cons_of_mem _ member)).performs may asks owned
      alive meets
  started view pid call attended unused _ uncrashed := by
    have before := attended fun pid member => uncrashed pid (List.mem_cons_of_mem _ member)
    refine ⟨before.fair, ?_⟩
    intro row member waits
    rcases before.listed row member waits with listed | ⟨other, sees⟩
    · exact .inl listed
    · obtain ⟨call', alive, _⟩ := (Option.any_eq_true _ _).mp sees
      have different : pid ≠ other := fun same => unused _ (mem_of_live alive) same.symm
      have alive' : live other (view.push (.started pid call)).log = live other view.log := by
        simp [live, different]
      refine .inr ⟨other, ?_⟩
      rw [seesTo, alive']
      exact sees
  returned view pid call reply attended alive leads uncrashed := by
    have before := attended fun pid member => uncrashed pid (List.mem_cons_of_mem _ member)
    refine ⟨before.fair, ?_⟩
    intro row member waits
    rcases before.listed row member waits with listed | ⟨other, sees⟩
    · exact .inl listed
    · by_cases same : pid = other
      · -- the call that has just ended had nothing left in its hands
        subst same
        have free : carries call (history pid view.log) (view.world.session pid) row.id row.user_id =
            false :=
          returned_free (before.fair pid) ((discharges_call call).post_of_leads leads)
        rw [seesTo, alive, Option.any_some, free] at sees
        cases sees
      · have alive' : live other (view.push (.returned pid reply)).log = live other view.log := by
          simp [live, same]
        refine .inr ⟨other, ?_⟩
        rw [seesTo, alive']
        exact sees
  crashed view pid _ uncrashed := (uncrashed pid List.mem_cons_self).elim
  passes view after attended settles uncrashed := by
    have before := attended uncrashed
    refine ⟨before.fair, ?_⟩
    intro row member waits
    rw [settles.db] at member
    rw [settles.queue]
    rcases before.listed row member waits with listed | ⟨other, sees⟩
    · exact .inl listed
    · refine .inr ⟨other, ?_⟩
      rw [seesTo, settles.session]
      exact sees

/-- Nobody is at work. -/
def AtRest (state : (backend config).State) : Prop := ∀ pid, state.process pid = none

theorem atRest_of_log (world : World) (labels : List (backend config).Label)
    (ended : ((run (boot config world) labels).view.log.all fun entry =>
      (live entry.pid (run (boot config world) labels).view.log).isNone) = true) :
    AtRest (run (boot config world) labels) := by
  intro pid
  cases found : (run (boot config world) labels).process pid with
  | none => rfl
  | some process =>
    have alive := (follows_run world labels).live pid process found
    have gone := List.all_eq_true.mp ended _ (mem_of_live alive)
    simp [Entry.pid, alive] at gone

def isCrash : (backend config).Entry → Bool
  | .crashed _ => true
  | _ => false

theorem uncrashed_of_log {log : List (backend config).Entry} (none : log.any isCrash = false)
    (pid : Nat) : .crashed pid ∉ log := by
  intro member
  have some : log.any isCrash = true := List.any_eq_true.mpr ⟨_, member, rfl⟩
  rw [none] at some
  cases some

/-- In every run without crashes and failures in which no waiting task is lost
that no other call sees to: whenever nobody is at work, the id of every waiting
task is in the list. -/
theorem waiting_listed (world : World) (labels : List (backend config).Label)
    (start : ∀ row ∈ world.db.rows, row.isQueued = true → row.id ∈ world.queue)
    (keeps : Meets losesNone (boot config world) labels)
    (uncrashed : ∀ pid, .crashed pid ∉ (run (boot config world) labels).view.log)
    (rest : AtRest (run (boot config world) labels)) :
    ∀ row ∈ rowsOf (run (boot config world) labels), row.isQueued = true →
      row.id ∈ (run (boot config world) labels).view.world.queue := by
  have attended : Attended (run (boot config world) labels).view := by
    refine attended_kept.run ?_ labels keeps uncrashed
    refine fun _ => ⟨?_, fun row member waits => .inl (start row member waits)⟩
    intro pid taken member
    cases member
  intro row member waits
  rcases attended.listed row member waits with listed | ⟨pid, sees⟩
  · exact listed
  · obtain ⟨call, alive, _⟩ := (Option.any_eq_true _ _).mp sees
    have working : ((run (boot config world) labels).process pid).isSome = true :=
      working_run _ labels pid call alive
    rw [rest pid] at working
    cases working

/-- A task is created, cancelled and retried, one call after the other. -/
def retryRun : List (backend defaultConfig).Label :=
  .start (.create 1 (promptPayload "a") false) :: succeeds 0 11 ++
    .start (.cancelById 1 1) :: succeeds 1 10 ++
    .start (.retryById 1 1) :: succeeds 2 8

/-- A retry comes between the UPDATE of a cancellation and its LREM. -/
def overtakingRun : List (backend defaultConfig).Label :=
  .start (.create 1 (promptPayload "a") false) :: succeeds 0 11 ++
    .start (.cancelById 1 1) :: succeeds 1 5 ++
    .start (.retryById 1 1) :: succeeds 2 8 ++ succeeds 1 5

theorem waiting_listed_retryRun :
    (run (boot defaultConfig World.empty) retryRun).view.world.queue = [1] ∧
    ∀ row ∈ rowsOf (run (boot defaultConfig World.empty) retryRun), row.isQueued = true →
      row.id ∈ (run (boot defaultConfig World.empty) retryRun).view.world.queue :=
  ⟨by decide +kernel, waiting_listed World.empty retryRun (fun _ member => by cases member)
    (by decide +kernel) (uncrashed_of_log (by decide +kernel)) (atRest_of_log _ _ (by decide +kernel))⟩

/-- A waiting task is in no list, and nobody is at work. -/
theorem waiting_lost : ¬ ∀ labels : List (backend defaultConfig).Label,
    AtRest (run (boot defaultConfig World.empty) labels) →
    (run (boot defaultConfig World.empty) labels).view.log.all (fun entry =>
      match entry with
      | .performed event => unfailing event.op event.choice
      | .crashed _ => false
      | _ => true) = true →
    ∀ row ∈ rowsOf (run (boot defaultConfig World.empty) labels), row.isQueued = true →
      row.id ∈ (run (boot defaultConfig World.empty) labels).view.world.queue := by
  intro claim
  have lost : ¬ ∀ row ∈ rowsOf (run (boot defaultConfig World.empty) overtakingRun),
      row.isQueued = true →
        row.id ∈ (run (boot defaultConfig World.empty) overtakingRun).view.world.queue := by
    decide +kernel
  exact lost (claim overtakingRun (atRest_of_log _ _ (by decide +kernel)) (by decide +kernel))

end Text2Image
