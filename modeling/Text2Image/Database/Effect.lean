import Text2Image.Database.Statement

/-! What a statement does to each row: it inserts at most one, and leaves,
changes or deletes every other.
-/

set_option autoImplicit false

namespace Text2Image

open TaskStatus

/-- What becomes of an existing row. -/
def Stmt.onRow (s : Stmt) (t : ImageTable) (row : Row) : Option Row :=
  match s with
  | .deleteByIdAndUserId id userId => if deletable id userId row then none else some row
  | s =>
    match s.rowUpdate t with
    | some update => some (if update.guard row then update.change row else row)
    | none => some row

/-- The row the statement inserts. -/
def Stmt.inserted (s : Stmt) (t : ImageTable) : Option Row :=
  match s with
  | .insert values => some { values with id := t.next }
  | _ => none

theorem Stmt.table_rows (s : Stmt) (t : ImageTable) :
    (s.table t).rows = t.rows.filterMap (s.onRow t) ++ (s.inserted t).toList := by
  cases s with
  | insert values =>
    have kept : (Stmt.insert values).onRow t = some := by
      funext row
      rfl
    rw [kept, List.filterMap_some]
    rfl
  | deleteByIdAndUserId id userId =>
    simp only [table, inserted, Option.toList_none, List.append_nil]
    exact t.delete_rows
  | claimNextTask | claimTaskById | requeueExpired | timeoutExpired | renewLease
  | finishClaimedTask | deferClaimedTask | cancelByIdAndUserId | retryByIdAndUserId =>
    simp only [table, rowUpdate, inserted, Option.toList_none, List.append_nil]
    rw [Keyed.Table.update_rows]
    rfl
  | _ =>
    simp only [table, rowUpdate, inserted, Option.toList_none, List.append_nil]
    exact List.filterMap_some.symm

/-- The statement only reads. -/
def Stmt.isRead : Stmt → Bool
  | .selectPage .. | .countByUser .. | .selectByIdAndUserId .. | .selectByRequestIdAndUserId ..
  | .countActiveTasks _ | .readClaimed .. | .readClaimedById .. | .selectQueuedIds
  | .selectExpired .. => true
  | _ => false

theorem Stmt.table_of_isRead {s : Stmt} (read : s.isRead = true) (t : ImageTable) :
    s.table t = t := by
  cases s <;> first | rfl | cases read

theorem Stmt.table_of_rowUpdate {s : Stmt} {t : ImageTable} {update : RowUpdate}
    (found : s.rowUpdate t = some update) :
    s.table t = t.update update.guard update.change update.keeps := by
  cases s <;> cases found <;> rfl

/-- An UPDATE changes the table exactly if it reports changed rows. -/
theorem Stmt.affected_eq_zero {s : Stmt} {t : ImageTable} {update : RowUpdate}
    (found : s.rowUpdate t = some update) : s.affected t = 0 ↔ s.table t = t := by
  have affected : s.affected t =
      (t.select fun row => update.guard row ∧ update.change row ≠ row).length := by
    simp only [Stmt.affected, found]
  rw [Stmt.table_of_rowUpdate found, affected, Keyed.Table.update_eq_self_iff, List.length_eq_zero_iff]
  simp [Keyed.Table.select, List.filter_eq_nil_iff]

variable {s : Stmt} {t : ImageTable} {row row' : Row}

theorem Stmt.mem_table : row' ∈ (s.table t).rows ↔
    (∃ row ∈ t.rows, s.onRow t row = some row') ∨ s.inserted t = some row' := by
  rw [table_rows, List.mem_append, List.mem_filterMap, Option.mem_toList]

/-- The key of a row is never written. -/
theorem Stmt.onRow_id (changed : s.onRow t row = some row') : row'.id = row.id := by
  unfold onRow at changed
  split at changed
  · split at changed
    · cases changed
    · exact congrArg Row.id (Option.some.inj changed).symm
  · split at changed
    · rename_i update _
      have same := Option.some.inj changed
      rw [← same]
      split
      · exact update.keeps row
      · rfl
    · exact congrArg Row.id (Option.some.inj changed).symm

/-! ## One row -/

theorem oldest_mem {rows : List Row} (found : oldest rows = some row) : row ∈ rows := by
  induction rows generalizing row with
  | nil => cases found
  | cons first rest ih =>
    simp only [oldest] at found
    split at found
    · rw [Option.some.inj found]
      exact List.mem_cons_self
    · rename_i best older
      split at found
      · rw [Option.some.inj found]
        exact List.mem_cons_self
      · rw [← Option.some.inj found]
        exact List.mem_cons_of_mem _ (ih older)

theorem nextClaimable_spec {now : DbTime} (found : nextClaimable t now = some row) :
    row ∈ t.rows ∧ claimable now row = true :=
  Keyed.Table.mem_select.mp (oldest_mem found)

/-- What a statement may do to one row: one case for each write of the
repository, with the part of its WHERE clause that speaks of the row. -/
inductive Change : Stmt → Row → Option Row → Prop where
  | kept (s : Stmt) (row : Row) : Change s row (some row)
  | claimNext {row : Row} (workerId : String) {now : DbTime} (expiresAt : DbTime)
      (free : claimable now row = true) :
      Change (.claimNextTask workerId now expiresAt) row (some (row.claimed workerId now expiresAt))
  | claimById {row : Row} (workerId : String) (now expiresAt : DbTime) (queued : row.isQueued = true) :
      Change (.claimTaskById row.id workerId now expiresAt) row
        (some (row.claimed workerId now expiresAt))
  | requeue {row : Row} {now : DbTime} (running : row.status = Generating)
      (expired : row.leaseExpired now = true) (budget : row.retry_count < row.max_retries) :
      Change (.requeueExpired now) row (some row.requeued)
  | timeout {row : Row} {now : DbTime} (running : row.status = Generating)
      (expired : row.leaseExpired now = true) (spent : row.max_retries ≤ row.retry_count) :
      Change (.timeoutExpired now) row (some (row.timedOut now))
  | renew {row : Row} {workerId : String} (expiresAt : DbTime) (running : row.status = Generating)
      (held : row.heldBy workerId = true) :
      Change (.renewLease expiresAt row.id row.user_id workerId) row (some (row.renewed expiresAt))
  | finish {row : Row} {image : ImageGeneration} (id : row.id = image.id)
      (user : row.user_id = image.user_id) (running : row.status = Generating)
      (held : row.heldBy image.worker_id = true) :
      Change (.finishClaimedTask image) row (some (row.finished image))
  | defer {row : Row} {workerId : String} (failureCode errorMessage : String)
      (running : row.status = Generating) (held : row.heldBy workerId = true) :
      Change (.deferClaimedTask row.id row.user_id workerId failureCode errorMessage) row
        (some (row.deferred failureCode errorMessage))
  | cancel {row : Row} (now : DbTime) (active : row.isActive = true) :
      Change (.cancelByIdAndUserId now row.id row.user_id) row (some (row.cancelled now))
  | retry {row : Row}
      (status : row.status = Failed ∨ row.status = Timeout ∨ row.status = Cancelled)
      (budget : row.retry_count < row.max_retries) :
      Change (.retryByIdAndUserId row.id row.user_id) row (some row.retried)
  | delete {row : Row} (terminal : row.status.isTerminal = true) :
      Change (.deleteByIdAndUserId row.id row.user_id) row none

theorem hasRetriesLeft_iff : row.hasRetriesLeft = true ↔ row.retry_count < row.max_retries :=
  decide_eq_true_iff

theorem deletable_iff {id userId : Int} : deletable id userId row = true ↔
    row.id = id ∧ row.user_id = userId ∧ row.status.isTerminal = true := by
  unfold deletable
  rw [decide_eq_true_eq]
  cases row.status <;> simp [isTerminal]

/-- Every statement does to a row of the table one of the things listed. -/
theorem Stmt.onRow_change (s : Stmt) (member : row ∈ t.rows) : Change s row (s.onRow t row) := by
  cases s with
  | deleteByIdAndUserId id userId =>
    simp only [onRow]
    split
    · rename_i gone
      obtain ⟨rfl, rfl, terminal⟩ := deletable_iff.mp gone
      exact .delete terminal
    · exact .kept _ row
  | claimNextTask workerId now expiresAt =>
    simp only [onRow, rowUpdate]
    split
    · rename_i chosen
      cases found : nextClaimable t now with
      | none => simp [found] at chosen
      | some next =>
        have same : row.id = next.id := by simpa [found] using chosen
        obtain ⟨present, free⟩ := nextClaimable_spec found
        have equal : row = next := t.eq_of_key member present same
        exact .claimNext workerId expiresAt (equal ▸ free)
    · exact .kept _ row
  | claimTaskById id workerId now expiresAt =>
    simp only [onRow, rowUpdate, decide_eq_true_eq]
    split
    · rename_i guarded
      obtain ⟨rfl, queued⟩ := guarded
      exact .claimById workerId now expiresAt queued
    · exact .kept _ row
  | requeueExpired now =>
    simp only [onRow, rowUpdate, decide_eq_true_eq]
    split
    · rename_i guarded
      exact .requeue guarded.1 guarded.2.1 (hasRetriesLeft_iff.mp guarded.2.2)
    · exact .kept _ row
  | timeoutExpired now =>
    simp only [onRow, rowUpdate, decide_eq_true_eq]
    split
    · rename_i guarded
      have spent := mt hasRetriesLeft_iff.mpr guarded.2.2
      exact .timeout guarded.1 guarded.2.1 (Int.not_lt.mp spent)
    · exact .kept _ row
  | renewLease expiresAt id userId workerId =>
    simp only [onRow, rowUpdate, Row.claimedBy, decide_eq_true_eq]
    split
    · rename_i guarded
      obtain ⟨rfl, rfl, running, held⟩ := guarded
      exact .renew expiresAt running held
    · exact .kept _ row
  | finishClaimedTask image =>
    simp only [onRow, rowUpdate, Row.claimedBy, decide_eq_true_eq]
    split
    · rename_i guarded
      obtain ⟨id, user, running, held⟩ := guarded
      exact .finish id user running held
    · exact .kept _ row
  | deferClaimedTask id userId workerId failureCode errorMessage =>
    simp only [onRow, rowUpdate, Row.claimedBy, decide_eq_true_eq]
    split
    · rename_i guarded
      obtain ⟨rfl, rfl, running, held⟩ := guarded
      exact .defer failureCode errorMessage running held
    · exact .kept _ row
  | cancelByIdAndUserId now id userId =>
    simp only [onRow, rowUpdate, decide_eq_true_eq]
    split
    · rename_i guarded
      obtain ⟨rfl, rfl, active⟩ := guarded
      exact .cancel now active
    · exact .kept _ row
  | retryByIdAndUserId id userId =>
    simp only [onRow, rowUpdate, decide_eq_true_eq]
    split
    · rename_i guarded
      obtain ⟨rfl, rfl, status, budget⟩ := guarded
      exact .retry status (hasRetriesLeft_iff.mp budget)
    · exact .kept _ row
  | _ => exact .kept _ row

end Text2Image
