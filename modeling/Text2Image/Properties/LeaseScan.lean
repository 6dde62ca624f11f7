import Text2Image.Services.Execution

/-! What the lease scanner reports, against what it does to the table. -/

set_option autoImplicit false

namespace Text2Image

open Concurrency Concurrency.Prog TaskStatus ImageRepo

variable {config : Config} {pid : Nat} {world middle after : World} {trace : Trace}

/-! ## Rows -/

def Row.expiredAt (row : Row) (now : DbTime) : Bool := row.status = Generating ∧ row.leaseExpired now

/-- The row after the two UPDATEs of a scan at this time. -/
def Row.scanned (now : DbTime) (row : Row) : Row :=
  if row.expiredAt now then if row.hasRetriesLeft then row.requeued else row.timedOut now else row

variable {row : Row} {now : DbTime} {t : ImageTable}

theorem Row.expiredAt_iff : row.expiredAt now = true ↔
    row.status = Generating ∧ ∃ expires, row.lease_expires_at = some expires ∧ expires < now := by
  simp [Row.expiredAt, Row.leaseExpired, Option.any_eq_true]

theorem Row.scanned_id (now : DbTime) (row : Row) : (row.scanned now).id = row.id := by
  unfold Row.scanned
  split
  · split <;> rfl
  · rfl

theorem Row.scanned_of_expired (expired : row.expiredAt now = true) :
    (row.scanned now).status = if row.hasRetriesLeft then Queued else Timeout := by
  unfold Row.scanned
  rw [if_pos expired]
  split <;> rfl

theorem Row.scanned_ne_iff : row.scanned now ≠ row ↔ row.expiredAt now = true := by
  constructor
  · intro differs
    by_contra kept
    exact differs (if_neg kept)
  · intro expired same
    have running : row.status = Generating := (of_decide_eq_true expired).1
    have status := Row.scanned_of_expired expired
    rw [same, running] at status
    split at status <;> cases status

theorem scan_rows (now : DbTime) (t : ImageTable) :
    ((Stmt.timeoutExpired now).table ((Stmt.requeueExpired now).table t)).rows =
      t.rows.map (Row.scanned now) := by
  simp only [Stmt.table, Stmt.rowUpdate, Keyed.Table.update, List.map_map]
  refine List.map_congr_left fun row _ => ?_
  -- a row is never moved twice: what has been requeued is no longer generating
  have requeued : row.requeued.status ≠ Generating := by simp [Row.requeued]
  by_cases expired : row.expiredAt now = true
  · have running := of_decide_eq_true expired
    by_cases left : row.hasRetriesLeft = true
    · simp [Row.scanned, expired, running, left, requeued]
    · simp [Row.scanned, expired, running, left]
  · have kept : ¬ (row.status = Generating ∧ row.leaseExpired now = true) :=
      fun running => expired (decide_eq_true running)
    have requeue : ¬ (row.status = Generating ∧ row.leaseExpired now = true ∧ row.hasRetriesLeft = true) :=
      fun running => kept ⟨running.1, running.2.1⟩
    have timeout : ¬ (row.status = Generating ∧ row.leaseExpired now = true ∧
        ¬ row.hasRetriesLeft = true) := fun running => kept ⟨running.1, running.2.1⟩
    simp only [Function.comp_apply, decide_eq_true_eq, requeue, timeout, Row.scanned, expired, if_false,
      Bool.false_eq_true]

/-! ## The call -/

/-- What the two SELECTs of a scan at this time find. -/
def listed (now : DbTime) (t : ImageTable) : List ExpiredLease :=
  (t.select (expiredRows now true)).map (fun row => ⟨row.id, row.user_id, true⟩) ++
    (t.select (expiredRows now false)).map fun row => ⟨row.id, row.user_id, false⟩

def clockReading : Op × Choice × World → Option TimePoint
  | (.now, _, met) => some met.clock
  | _ => none

/-- The times a call has read, in order. -/
def clockReadings (trace : Trace) : List TimePoint := trace.filterMap clockReading

theorem executes_readClock {now : TimePoint}
    (ran : Executes (alone config pid) readClock world trace now after) :
    clockReadings trace = [now] ∧ after.db = world.db := by
  obtain ⟨choice, met, ⟨same, _⟩, rfl, rfl, rfl⟩ := Executes.of_perform ran
  exact ⟨rfl, same⟩

/-- A call that succeeds has had an answer to each of its statements. -/
theorem executes_sql_bind {α : Type} {s : Stmt} {next : RepoResult s.Answer → Program (RepoResult α)}
    {value : α} (ran : Executes (alone config pid) (sql s >>= next) world trace (.ok value) after)
    (fails : ∀ error, next (.error error) = .done (.error error)) :
    ∃ pick between rest, clockReadings trace = clockReadings rest ∧ between.db = s.table world.db ∧
      Executes (alone config pid) (next (.ok (s.answer world.db pick))) between rest (.ok value) after := by
  obtain ⟨first, rest, between, answer, rfl, asks, ran⟩ := ran.of_bind
  obtain ⟨choice, met, _, rfl, settled⟩ := executes_sql asks
  have failing : ∀ error, ¬ Executes (alone config pid) (next (.error error)) between rest (.ok value)
      after := by
    intro error ran
    rw [fails error] at ran
    obtain ⟨_, impossible, _⟩ := ran.of_done
    cases impossible
  rcases settled with ⟨_, rfl, became⟩ | ⟨_, rfl, _⟩ | ⟨_, rfl, _⟩
  · exact ⟨choice.pick, between, rest, rfl, became, ran⟩
  · exact absurd ran (failing _)
  · exact absurd ran (failing _)

theorem executes_expireLeasesUnsafe {count : Nat}
    (ran : Executes (alone config pid) expireLeasesUnsafe world trace (.ok count) after) :
    ∃ now, clockReadings trace = [now] ∧
      after.db.rows = world.db.rows.map (Row.scanned (Chrono.toDbTime now)) := by
  obtain ⟨timing, rest, timed, now, rfl, times, ran⟩ := ran.of_bind
  obtain ⟨read, same⟩ := executes_readClock times
  obtain ⟨_, requeued, later, silent, became, ran⟩ := executes_sql_bind ran fun _ => rfl
  obtain ⟨_, timedOut, last, silent', became', ran⟩ := executes_sql_bind ran fun _ => rfl
  obtain ⟨rfl, _, rfl⟩ := ran.of_done
  refine ⟨now, ?_, ?_⟩
  · rw [clockReadings, List.filterMap_append]
    exact congrArg₂ (· ++ ·) read (silent.trans silent')
  · rw [became', became, same, scan_rows]

/-- The list is from the first reading of the clock, the changes from the second. -/
theorem executes_expireLeases {leases : List ExpiredLease}
    (ran : Executes (alone config pid) expireLeasesReturningExpired world trace (.ok leases) after) :
    ∃ first second, clockReadings trace = [first, second] ∧
      leases = listed (Chrono.toDbTime first) world.db ∧
      after.db.rows = world.db.rows.map (Row.scanned (Chrono.toDbTime second)) := by
  obtain ⟨timing, rest, timed, first, rfl, times, ran⟩ := ran.of_bind
  obtain ⟨read, same⟩ := executes_readClock times
  obtain ⟨_, requeued, later, silent, became, ran⟩ := executes_sql_bind ran fun _ => rfl
  obtain ⟨_, timedOut, last, silent', became', ran⟩ := executes_sql_bind ran fun _ => rfl
  obtain ⟨scanning, rest, scanned, result, rfl, scans, ran⟩ := ran.of_bind
  cases result with
  | error error =>
    obtain ⟨_, impossible, _⟩ := ran.of_done
    cases impossible
  | ok count =>
    obtain ⟨rfl, found, rfl⟩ := ran.of_done
    obtain ⟨second, read', moved⟩ := executes_expireLeasesUnsafe scans
    have unchanged : timedOut.db = world.db := became'.trans (became.trans same)
    refine ⟨first, second, ?_, ?_, by rw [moved, unchanged]⟩
    · rw [List.append_nil] at silent'
      rw [clockReadings, List.filterMap_append]
      exact congrArg₂ (· ++ ·) read (silent.trans (silent'.trans read'))
    · rw [Except.ok.inj found]
      simp only [listed, Stmt.answer, List.map_map, became, same]
      rfl

/-! ## Reports -/

/-- The list names exactly the rows that have changed, each once, and whether each of
them is queued again or has timed out. -/
structure ReportsChanges (before after : ImageTable) (leases : List ExpiredLease) : Prop where
  once : (leases.map ExpiredLease.id).Nodup
  exact : ∀ lease, lease ∈ leases ↔ ∃ row ∈ before.rows, ∃ row' ∈ after.rows, row'.id = row.id ∧
    row' ≠ row ∧ lease.id = row.id ∧ lease.user_id = row.user_id ∧
    (lease.requeue = true ↔ row'.status = Queued) ∧ (lease.requeue = false ↔ row'.status = Timeout)

def Row.lease (row : Row) : ExpiredLease := ⟨row.id, row.user_id, row.hasRetriesLeft⟩

theorem mem_listed {lease : ExpiredLease} :
    lease ∈ listed now t ↔ ∃ row ∈ t.rows, row.expiredAt now = true ∧ lease = row.lease := by
  simp only [listed, List.mem_append, List.mem_map, Keyed.Table.mem_select, expiredRows, Row.expiredAt,
    decide_eq_true_eq]
  constructor
  · rintro (⟨row, ⟨member, running, expired, left⟩, rfl⟩ | ⟨row, ⟨member, running, expired, left⟩, rfl⟩)
    · exact ⟨row, member, ⟨running, expired⟩, by rw [Row.lease, left]⟩
    · exact ⟨row, member, ⟨running, expired⟩, by rw [Row.lease, left]⟩
  · rintro ⟨row, member, ⟨running, expired⟩, rfl⟩
    cases left : row.hasRetriesLeft with
    | true => exact .inl ⟨row, ⟨member, running, expired, left⟩, by rw [Row.lease, left]⟩
    | false => exact .inr ⟨row, ⟨member, running, expired, left⟩, by rw [Row.lease, left]⟩

/-- No row is found twice: the keys are distinct, and a row has retries left or not. -/
theorem nodup_listed (now : DbTime) (t : ImageTable) :
    ((listed now t).map ExpiredLease.id).Nodup := by
  have distinct : (t.rows.map Row.id).Nodup :=
    List.pairwise_map.mpr (t.increasing.imp fun less => Int.ne_of_lt less)
  have selected : ∀ guard, ((t.select guard).map Row.id).Nodup :=
    fun guard => distinct.sublist (List.Sublist.map _ List.filter_sublist)
  simp only [listed, List.map_append, List.map_map]
  refine List.nodup_append.mpr ⟨selected _, selected _, fun id requeued id' timedOut same => ?_⟩
  obtain ⟨row, chosen, rfl⟩ := List.mem_map.mp requeued
  obtain ⟨row', chosen', rfl⟩ := List.mem_map.mp timedOut
  obtain ⟨member, left⟩ := Keyed.Table.mem_select.mp chosen
  obtain ⟨member', spent⟩ := Keyed.Table.mem_select.mp chosen'
  have one : row = row' := t.eq_of_key member member' same
  simp only [expiredRows, decide_eq_true_eq] at left spent
  rw [one, spent.2.2] at left
  cases left.2.2

/-- The rows that a scan at this time has changed, as leases. -/
theorem changed_iff {before after : ImageTable} (moved : after.rows = before.rows.map (Row.scanned now))
    {lease : ExpiredLease} :
    (∃ row ∈ before.rows, ∃ row' ∈ after.rows, row'.id = row.id ∧ row' ≠ row ∧ lease.id = row.id ∧
        lease.user_id = row.user_id ∧ (lease.requeue = true ↔ row'.status = Queued) ∧
        (lease.requeue = false ↔ row'.status = Timeout)) ↔
      ∃ row ∈ before.rows, row.expiredAt now = true ∧ lease = row.lease := by
  constructor
  · rintro ⟨row, member, row', present, key, differs, named, owned, queued, _⟩
    rw [moved] at present
    obtain ⟨old, member', rfl⟩ := List.mem_map.mp present
    have same : old = row := before.eq_of_key member' member ((Row.scanned_id now old).symm.trans key)
    rw [same] at differs queued
    have expired := Row.scanned_ne_iff.mp differs
    rw [Row.scanned_of_expired expired] at queued
    refine ⟨row, member, expired, ?_⟩
    obtain ⟨id, user_id, requeue⟩ := lease
    cases left : row.hasRetriesLeft <;> simp_all [Row.lease]
  · rintro ⟨row, member, expired, rfl⟩
    refine ⟨row, member, row.scanned now, ?_, Row.scanned_id now row, Row.scanned_ne_iff.mpr expired, rfl,
      rfl, ?_, ?_⟩
    · rw [moved]
      exact List.mem_map_of_mem member
    · rw [Row.scanned_of_expired expired]
      cases left : row.hasRetriesLeft <;> simp [Row.lease, left]
    · rw [Row.scanned_of_expired expired]
      cases left : row.hasRetriesLeft <;> simp [Row.lease, left]

/-- With nobody else writing, the scanner reports what it does exactly if no lease ends
between the two times it looks at. -/
theorem scan_reports {leases : List ExpiredLease} {first second : TimePoint}
    (ran : Executes (alone config pid) expireLeasesReturningExpired world trace (.ok leases) after)
    (read : clockReadings trace = [first, second]) (later : first ≤ second) :
    ReportsChanges world.db after.db leases ↔
      ∀ row ∈ world.db.rows, row.status = Generating → ∀ expires, row.lease_expires_at = some expires →
        ¬ (Chrono.toDbTime first ≤ expires ∧ expires < Chrono.toDbTime second) := by
  obtain ⟨first', second', read', rfl, moved⟩ := executes_expireLeases ran
  obtain ⟨rfl, rfl⟩ : first' = first ∧ second' = second := by simpa using read'.symm.trans read
  have inOrder := Chrono.toDbTime_le later
  constructor
  · rintro ⟨_, exact'⟩ row member running expires lease ⟨notYet, over'⟩
    have expired : row.expiredAt (Chrono.toDbTime second') = true :=
      Row.expiredAt_iff.mpr ⟨running, expires, lease, over'⟩
    have changed := (exact' row.lease).mpr ((changed_iff moved).mpr ⟨row, member, expired, rfl⟩)
    obtain ⟨other, member', early, same⟩ := mem_listed.mp changed
    have one : other = row := world.db.eq_of_key member' member (congrArg ExpiredLease.id same).symm
    obtain ⟨_, expires', lease', before⟩ := Row.expiredAt_iff.mp early
    rw [one, lease] at lease'
    cases lease'
    exact absurd before (Int.not_lt.mpr notYet)
  · intro none
    refine ⟨nodup_listed _ _, fun lease => ?_⟩
    have sameTime : ∀ row ∈ world.db.rows, row.expiredAt (Chrono.toDbTime first') = true ↔
        row.expiredAt (Chrono.toDbTime second') = true := by
      intro row member
      rw [Row.expiredAt_iff, Row.expiredAt_iff]
      refine and_congr_right fun running => exists_congr fun expires => and_congr_right fun lease => ?_
      constructor
      · intro early
        exact Int.lt_of_lt_of_le early inOrder
      · intro late
        by_contra notYet
        exact none row member running expires lease ⟨Int.not_lt.mp notYet, late⟩
    rw [changed_iff moved, mem_listed]
    constructor
    · rintro ⟨row, member, expired, same⟩
      exact ⟨row, member, (sameTime row member).mp expired, same⟩
    · rintro ⟨row, member, expired, same⟩
      exact ⟨row, member, (sameTime row member).mpr expired, same⟩

/-- A worker has claimed a task until five seconds after the epoch. -/
def oneClaimed : World :=
  { World.empty with
    db := Keyed.Table.empty.insert
      (fun id => { ImageRepo.insertValues
        { user_id := 1, status := .Generating, lease_expires_at := some (Chrono.seconds 5) } 0 with
        id := id }) rfl }

/-- A scan that looks at these two times. -/
def scanAt (first second : Int) : List (TimePoint × Choice) :=
  List.replicate 3 (Chrono.seconds first, ({} : Choice)) ++ List.replicate 3 (Chrono.seconds second, ({} : Choice))

/-- The lease ends at the first time and is over at the second: the task is queued
again, and nobody is told. -/
theorem scan_omits : ∃ trace leases after,
    Executes (alone defaultConfig 0) expireLeasesReturningExpired oneClaimed trace (.ok leases) after ∧
    (leases.length = 0 ∧ after.db.rows.map Row.status = [Queued]) ∧
    clockReadings trace = [Chrono.seconds 5, Chrono.seconds 6] ∧
    ¬ ReportsChanges oneClaimed.db after.db leases := by
  obtain ⟨reply, after, ran, observed⟩ :=
    executes_atTimes defaultConfig 0 expireLeasesReturningExpired (scanAt 5 6) oneClaimed
      (fun reply after => (reply.toOption.map List.length, after.db.rows.map Row.status))
      (some 0, [Queued]) (by decide +kernel)
  obtain ⟨found, moved⟩ := Prod.mk.inj observed
  cases reply with
  | error error => cases found
  | ok leases =>
    have read : clockReadings (expireLeasesReturningExpired.performed (perform defaultConfig 0)
        (atTimes (scanAt 5 6)) oneClaimed) = [Chrono.seconds 5, Chrono.seconds 6] := by decide +kernel
    refine ⟨_, leases, after, ran, ⟨Option.some.inj found, moved⟩, read, fun reports => ?_⟩
    obtain ⟨first, second, read', _, became⟩ := executes_expireLeases ran
    obtain ⟨_, rfl⟩ : first = Chrono.seconds 5 ∧ second = Chrono.seconds 6 := by
      simpa using read'.symm.trans read
    -- the row has changed, so it would have to be in the list
    obtain ⟨row, present, expired⟩ : ∃ row ∈ oneClaimed.db.rows,
        row.expiredAt (Chrono.toDbTime (Chrono.seconds 6)) = true := by decide +kernel
    have told := (reports.exact row.lease).mpr ((changed_iff became).mpr ⟨row, present, expired, rfl⟩)
    have nothing : leases = [] := List.length_eq_zero_iff.mp (Option.some.inj found)
    rw [nothing] at told
    cases told

/-- Both times after the end of the lease. -/
theorem scan_reports_late : ∃ trace leases after,
    Executes (alone defaultConfig 0) expireLeasesReturningExpired oneClaimed trace (.ok leases) after ∧
    (leases.length = 1 ∧ after.db.rows.map Row.status = [Queued]) ∧
    ReportsChanges oneClaimed.db after.db leases := by
  obtain ⟨reply, after, ran, observed⟩ :=
    executes_atTimes defaultConfig 0 expireLeasesReturningExpired (scanAt 6 7) oneClaimed
      (fun reply after => (reply.toOption.map List.length, after.db.rows.map Row.status))
      (some 1, [Queued]) (by decide +kernel)
  obtain ⟨found, moved⟩ := Prod.mk.inj observed
  cases reply with
  | error error => cases found
  | ok leases =>
    have read : clockReadings (expireLeasesReturningExpired.performed (perform defaultConfig 0)
        (atTimes (scanAt 6 7)) oneClaimed) = [Chrono.seconds 6, Chrono.seconds 7] := by decide +kernel
    refine ⟨_, leases, after, ran, ⟨Option.some.inj found, moved⟩,
      (scan_reports ran read (by decide)).mpr ?_⟩
    decide +kernel

end Text2Image
