import Text2Image.Properties.Transitions
import Text2Image.Services.Executions

/-! Exactness of a claim: whether what the call returns is what its UPDATE took. -/

set_option autoImplicit false

namespace Text2Image

open Concurrency System TaskStatus

variable {config : Config}

/-! ## A claim among other statements -/

/-- The two functions of the repository that claim a task. -/
inductive ClaimCall where
  | next
  | byId (taskId : Int)

/-- One call of such a function: what it is called with, the world it starts in,
what the operations meet, and the statements others execute before its UPDATE
and after it. -/
structure Attempt where
  claim : ClaimCall
  pid : Nat
  workerId : String
  leaseSeconds : Int
  world : World
  before : List Stmt
  gap : List Stmt
  clock : Choice
  update : Choice
  read : Choice

def execute (statements : List Stmt) (t : ImageTable) : ImageTable :=
  statements.foldl (fun t s => s.table t) t

def World.execute (statements : List Stmt) (world : World) : World :=
  { world with db := Text2Image.execute statements world.db }

namespace Attempt

variable (attempt : Attempt)

def program : Program (RepoResult (Option ImageGeneration)) :=
  match attempt.claim with
  | .next => ImageRepo.claimNextTask attempt.workerId attempt.leaseSeconds
  | .byId taskId => ImageRepo.claimTaskById taskId attempt.workerId attempt.leaseSeconds

def now : DbTime := Chrono.toDbTime attempt.world.clock

def expiresAt : DbTime :=
  Chrono.toDbTime (attempt.world.clock + leaseDuration attempt.leaseSeconds)

/-- The UPDATE. -/
def statement : Stmt :=
  match attempt.claim with
  | .next => .claimNextTask attempt.workerId attempt.now attempt.expiresAt
  | .byId taskId => .claimTaskById taskId attempt.workerId attempt.now attempt.expiresAt

/-- The table the UPDATE finds. -/
def found : ImageTable := execute attempt.before attempt.world.db

/-- The row the UPDATE moves to `generating`. -/
def moved : Option Row :=
  if attempt.update.applies then attempt.found.rows.find? (attempt.statement.hits attempt.found)
  else none

/-- The table the SELECT finds, when the UPDATE has been committed. -/
def seen : ImageTable := execute attempt.gap (attempt.statement.table attempt.found)

/-- The rows the SELECT matches. -/
def matched : List Row :=
  match attempt.claim with
  | .next => rowsClaimed attempt.seen attempt.workerId attempt.expiresAt
  | .byId taskId => rowsClaimedById attempt.seen taskId attempt.workerId

/-- What the call answers when the SELECT returns the matched rows in this order. -/
def answer (config : Config) (pick : Nat) : Option (RepoResult (Option ImageGeneration)) :=
  (attempt.program.runAmong (perform config attempt.pid)
    [(id, attempt.clock), (World.execute attempt.before, attempt.update),
      (World.execute attempt.gap, { attempt.read with pick := pick })] attempt.world).map Prod.fst

end Attempt

def Stmt.renews : Stmt → Bool
  | .renewLease .. => true
  | _ => false

/-- A claim stands as long as no statement but a renewal matches its row. -/
def stands (id : Int) : ImageTable → List Stmt → Bool
  | _, [] => true
  | t, s :: gap =>
    (s.renews || ! (t.find id).any (s.hits t)) && stands id (s.table t) gap

/-- The claim of the moved row still stands when the call ends. -/
def Attempt.kept (attempt : Attempt) (row : Row) : Bool :=
  stands row.id (attempt.statement.table attempt.found) attempt.gap

/-- The row its UPDATE has moved, under a claim that stands; or no row, and none
is left claimed. -/
def Attempt.Fits (attempt : Attempt) : RepoResult (Option ImageGeneration) → Prop
  | .ok (some image) => ∃ row current, attempt.moved = some row ∧ attempt.kept row = true ∧
      current ∈ attempt.seen.rows ∧ current.id = row.id ∧
      image = ImageRepo.rowToImageGeneration current
  | _ => ∀ row, attempt.moved = some row → attempt.kept row = false

/-- The call's answer fits in whatever order the SELECT returns its rows. -/
def Attempt.Exact (config : Config) (attempt : Attempt) : Prop :=
  ∀ pick, ∃ result, attempt.answer config pick = some result ∧ attempt.Fits result

/-- What the call answers, from what its UPDATE and its SELECT meet. -/
def Attempt.outcome (attempt : Attempt) (pick : Nat) : RepoResult (Option ImageGeneration) :=
  match attempt.update.outcome with
  | .done =>
    if attempt.statement.affected attempt.found = 0 then .ok none
    else
      match attempt.read.outcome with
      | .done => .ok ((fetchOne pick attempt.matched).map ImageRepo.rowToImageGeneration)
      | _ => .error attempt.read.error
  | _ => .error attempt.update.error

/-- A program that starts with a statement, with others at work. -/
theorem runAmong_sql {β : Type} (pid : Nat) (s : Stmt) (next : RepoResult s.Answer → Program β)
    (others : World → World) (choice : Choice) (later : List ((World → World) × Choice))
    (world : World) :
    (sql s >>= next).runAmong (perform config pid) ((others, choice) :: later) world =
      (next (perform config pid (.sql s) choice (others world)).1).runAmong (perform config pid) later
        (perform config pid (.sql s) choice (others world)).2 := rfl

theorem runAmong_updates {β : Type} (pid : Nat) (s : Stmt) (counts : s.Answer = Nat)
    (next : RepoResult Bool → Program β) (others : World → World) (choice : Choice)
    (later : List ((World → World) × Choice)) (world : World) :
    (ImageRepo.updates s counts >>= next).runAmong (perform config pid) ((others, choice) :: later)
        world =
      (next ((perform config pid (.sql s) choice (others world)).1.map fun (affected : s.Answer) =>
          decide ((counts ▸ affected : Nat) > 0))).runAmong (perform config pid) later
        (perform config pid (.sql s) choice (others world)).2 := by
  refine (runAmong_sql pid s _ others choice later world).trans ?_
  cases (perform config pid (.sql s) choice (others world)).1 <;> rfl

theorem Attempt.answer_eq (attempt : Attempt) (pick : Nat) :
    attempt.answer config pick = some (attempt.outcome pick) := by
  obtain ⟨claim, pid, workerId, leaseSeconds, world, before, gap, clock, update, read⟩ := attempt
  cases claim with
  | next =>
    refine (congrArg (Option.map Prod.fst) (runAmong_updates pid (.claimNextTask workerId
      (Chrono.toDbTime world.clock) (Chrono.toDbTime (world.clock + leaseDuration leaseSeconds))) rfl _
      (World.execute before) update [(World.execute gap, { read with pick := pick })] world)).trans ?_
    simp only [perform, outcome]
    cases sent : update.outcome with
    | done =>
      by_cases none : Stmt.affected (.claimNextTask workerId (Chrono.toDbTime world.clock)
          (Chrono.toDbTime (world.clock + leaseDuration leaseSeconds))) (execute before world.db) = 0
      · simp [Except.map, Stmt.answer, World.execute, none, found, statement, now, expiresAt]
        exact ⟨_, rfl⟩
      · simp [Except.map, Stmt.answer, World.execute, none, Nat.pos_of_ne_zero none, found, statement, now,
          expiresAt]
        cases read.outcome <;> exact ⟨_, rfl⟩
    | failed => rfl
    | lost => rfl
  | byId taskId =>
    refine (congrArg (Option.map Prod.fst) (runAmong_updates pid (.claimTaskById taskId workerId
      (Chrono.toDbTime world.clock) (Chrono.toDbTime (world.clock + leaseDuration leaseSeconds))) rfl _
      (World.execute before) update [(World.execute gap, { read with pick := pick })] world)).trans ?_
    simp only [perform, outcome]
    cases sent : update.outcome with
    | done =>
      by_cases none : Stmt.affected (.claimTaskById taskId workerId (Chrono.toDbTime world.clock)
          (Chrono.toDbTime (world.clock + leaseDuration leaseSeconds))) (execute before world.db) = 0
      · simp [Except.map, Stmt.answer, World.execute, none, found, statement, now, expiresAt]
        exact ⟨_, rfl⟩
      · simp [Except.map, Stmt.answer, World.execute, none, Nat.pos_of_ne_zero none, found, statement, now,
          expiresAt]
        cases read.outcome <;> exact ⟨_, rfl⟩
    | failed => rfl
    | lost => rfl

theorem Attempt.exact_iff {attempt : Attempt} :
    attempt.Exact config ↔ ∀ pick, attempt.Fits (attempt.outcome pick) := by
  unfold Exact
  refine forall_congr' fun pick => ?_
  rw [attempt.answer_eq]
  constructor
  · rintro ⟨result, same, fits⟩
    exact Option.some.inj same ▸ fits
  · intro fits
    exact ⟨_, rfl, fits⟩

/-! ## The UPDATE -/

variable {t : ImageTable} {row : Row}

theorem Attempt.now_le_expiresAt (attempt : Attempt) : attempt.now ≤ attempt.expiresAt := by
  refine Chrono.toDbTime_le ?_
  have positive : (0 : Int) ≤ if attempt.leaseSeconds ≤ 0 then 900 else attempt.leaseSeconds := by
    split <;> omega
  exact Int.le_add_of_nonneg_right (Int.mul_nonneg positive (by decide))

/-- A claim always changes the row it takes. -/
theorem Row.claimed_ne {now expiresAt : DbTime} (free : claimable now row = true)
    (later : now ≤ expiresAt) (workerId : String) : row.claimed workerId now expiresAt ≠ row := by
  intro same
  have running : row.status = Generating := (congrArg Row.status same).symm
  have lease : some expiresAt = row.lease_expires_at := congrArg Row.lease_expires_at same
  have expired : row.lease_expires_at.isNone = true ∨ row.leaseExpired now = true := by
    simpa [claimable, Row.isQueued, running] using free
  rcases expired with missing | expired
  · rw [← lease] at missing
    cases missing
  · have before : expiresAt < now := by simpa [Row.leaseExpired, ← lease] using expired
    exact Int.not_lt.mpr later before

theorem Attempt.claimable_of_hits {attempt : Attempt} (member : row ∈ t.rows)
    (hit : attempt.statement.hits t row = true) : claimable attempt.now row = true := by
  unfold statement at hit
  cases claim : attempt.claim with
  | next =>
    rw [claim] at hit
    have chosen : (nextClaimable t attempt.now).any (fun next => row.id = next.id) = true := hit
    obtain ⟨next, found, same⟩ := (Option.any_eq_true _ _).mp chosen
    obtain ⟨there, free⟩ := nextClaimable_spec found
    rw [t.eq_of_key member there (of_decide_eq_true same)]
    exact free
  | byId taskId =>
    rw [claim] at hit
    have guarded : row.id = taskId ∧ row.isQueued = true := of_decide_eq_true hit
    simp [claimable, guarded.2]

theorem Attempt.onRow_of_hits {attempt : Attempt} (hit : attempt.statement.hits t row = true) :
    attempt.statement.onRow t row =
      some (row.claimed attempt.workerId attempt.now attempt.expiresAt) := by
  unfold statement at hit ⊢
  cases claim : attempt.claim with
  | next | byId taskId =>
    rw [claim] at hit
    simp only [Stmt.hits, Stmt.rowUpdate, Option.any_some] at hit
    simp only [Stmt.onRow, Stmt.rowUpdate, hit, if_true]

theorem Attempt.affected_eq_zero {attempt : Attempt} : attempt.statement.affected t = 0 ↔
    ∀ row ∈ t.rows, attempt.statement.hits t row = false := by
  have writes : ∃ update, attempt.statement.rowUpdate t = some update := by
    unfold statement
    cases attempt.claim <;> exact ⟨_, rfl⟩
  obtain ⟨update, written⟩ := writes
  have hits : ∀ row, attempt.statement.hits t row = update.guard row := by
    intro row
    simp [Stmt.hits, written]
  have changes : ∀ row ∈ t.rows, update.guard row = true → update.change row ≠ row := by
    intro row member guarded
    have hit := (hits row).trans guarded
    have onRow := onRow_of_hits hit
    have claimed : update.change row = row.claimed attempt.workerId attempt.now attempt.expiresAt := by
      have became : attempt.statement.onRow t row =
          some (if update.guard row then update.change row else row) := by
        unfold statement at written ⊢
        cases claim : attempt.claim with
        | next | byId taskId =>
          rw [claim] at written
          simp only [Stmt.onRow, written]
      rw [onRow, guarded, if_pos rfl] at became
      exact (Option.some.inj became).symm
    rw [claimed]
    exact Row.claimed_ne (claimable_of_hits member hit) attempt.now_le_expiresAt _
  unfold Stmt.affected
  rw [written]
  simp only [List.length_eq_zero_iff, hits]
  constructor
  · intro none row member
    refine Bool.eq_false_iff.mpr fun guarded => ?_
    have chosen : row ∈ t.select fun row => update.guard row = true ∧ update.change row ≠ row :=
      Keyed.Table.mem_select.mpr ⟨member, decide_eq_true ⟨guarded, changes row member guarded⟩⟩
    rw [none] at chosen
    cases chosen
  · intro none
    refine List.filter_eq_nil_iff.mpr fun row member => ?_
    simp [none row member]

/-- What it means that a row was moved. -/
theorem Attempt.of_moved {attempt : Attempt} (moved : attempt.moved = some row) :
    attempt.update.applies = true ∧ row ∈ attempt.found.rows ∧
      attempt.statement.hits attempt.found row = true := by
  unfold Attempt.moved at moved
  split at moved
  · rename_i applies
    exact ⟨applies, List.mem_of_find?_eq_some moved, List.find?_some moved⟩
  · cases moved

theorem Attempt.of_unmoved {attempt : Attempt} (unmoved : attempt.moved = none) :
    attempt.update.applies = false ∨ attempt.statement.affected attempt.found = 0 := by
  unfold Attempt.moved at unmoved
  split at unmoved
  · right
    refine affected_eq_zero.mpr fun row member => ?_
    exact Bool.eq_false_iff.mpr (List.find?_eq_none.mp unmoved row member)
  · rename_i refused
    exact .inl (Bool.eq_false_iff.mpr refused)

/-! ## After the UPDATE -/

/-- A statement that does not match a generating row leaves it alone. -/
theorem Stmt.onRow_of_unhit {s : Stmt} (unhit : s.hits t row = false)
    (running : row.status = Generating) : s.onRow t row = some row := by
  cases s with
  | deleteByIdAndUserId id userId =>
    have open' : deletable id userId row = false := by simp [deletable, running]
    simp [onRow, open']
  | claimNextTask | claimTaskById | requeueExpired | timeoutExpired | renewLease
  | finishClaimedTask | deferClaimedTask | cancelByIdAndUserId | retryByIdAndUserId =>
    simp only [hits, rowUpdate, Option.any_some] at unhit
    simp only [onRow, rowUpdate, unhit, Bool.false_eq_true, if_false]
  | _ => rfl

/-- As long as a claim stands, its row is there and held by its worker. -/
theorem held_of_stands {workerId : String} (row : Row) (gap : List Stmt) (member : row ∈ t.rows)
    (running : row.status = Generating) (held : row.worker_id = some workerId)
    (kept : stands row.id t gap = true) :
    ∃ current ∈ (execute gap t).rows, current.id = row.id ∧ current.status = Generating ∧
      current.worker_id = some workerId := by
  induction gap generalizing t row with
  | nil => exact ⟨row, member, rfl, running, held⟩
  | cons s gap ih =>
    have there : t.find row.id = some row := Keyed.Table.find_eq_some.mpr ⟨member, rfl⟩
    rw [stands, there, Bool.and_eq_true, Bool.or_eq_true] at kept
    obtain ⟨renewed | unhit, later⟩ := kept
    · cases s with
      | renewLease expiresAt id userId worker =>
        by_cases hit : row.claimedBy id userId worker = true
        · have became : (row.renewed expiresAt) ∈
              ((Stmt.renewLease expiresAt id userId worker).table t).rows :=
            Stmt.mem_table.mpr (.inl ⟨row, member, by simp [Stmt.onRow, Stmt.rowUpdate, hit]⟩)
          exact ih (row.renewed expiresAt) became running held later
        · have became : row ∈ ((Stmt.renewLease expiresAt id userId worker).table t).rows :=
            Stmt.mem_table.mpr (.inl ⟨row, member, by simp [Stmt.onRow, Stmt.rowUpdate, hit]⟩)
          exact ih row became running held later
      | _ => cases renewed
    · have free : s.hits t row = false := by simpa using unhit
      have became : row ∈ (s.table t).rows :=
        Stmt.mem_table.mpr (.inl ⟨row, member, Stmt.onRow_of_unhit free running⟩)
      exact ih row became running held later

theorem Attempt.held_of_kept {attempt : Attempt} (moved : attempt.moved = some row)
    (kept : attempt.kept row = true) : ∃ current ∈ attempt.seen.rows, current.id = row.id ∧
      current.status = Generating ∧ current.worker_id = some attempt.workerId := by
  obtain ⟨_, member, hit⟩ := of_moved moved
  let claimed := row.claimed attempt.workerId attempt.now attempt.expiresAt
  have there : claimed ∈ (attempt.statement.table attempt.found).rows :=
    Stmt.mem_table.mpr (.inl ⟨row, member, onRow_of_hits hit⟩)
  exact held_of_stands claimed attempt.gap there rfl rfl kept

/-! ## The SELECT -/

theorem Attempt.seen_of_matched {attempt : Attempt} (matched : row ∈ attempt.matched) :
    row ∈ attempt.seen.rows := by
  unfold Attempt.matched at matched
  cases claim : attempt.claim with
  | next | byId taskId =>
    rw [claim] at matched
    exact (Keyed.Table.mem_select.mp matched).1

/-- The SELECT of `claimTaskById` matches the claimed row, and no other, as long
as the claim stands. -/
theorem Attempt.matched_of_kept {attempt : Attempt} {taskId : Int} (claim : attempt.claim = .byId taskId)
    (moved : attempt.moved = some row) (kept : attempt.kept row = true) :
    ∀ other ∈ attempt.seen.rows, other ∈ attempt.matched ↔ other.id = row.id := by
  obtain ⟨_, _, hit⟩ := of_moved moved
  obtain ⟨current, there, same, running, held⟩ := held_of_kept moved kept
  have key : row.id = taskId := by
    unfold statement at hit
    rw [claim] at hit
    exact (of_decide_eq_true hit : row.id = taskId ∧ row.isQueued = true).1
  intro other member
  unfold Attempt.matched
  rw [claim, key]
  constructor
  · intro matched
    exact (of_decide_eq_true (Keyed.Table.mem_select.mp matched).2 :
      other.id = taskId ∧ other.heldBy attempt.workerId = true ∧ other.status = Generating).1
  · intro equal
    have one : other = current := attempt.seen.eq_of_key member there (by rw [equal, same, key])
    refine Keyed.Table.mem_select.mpr ⟨member, decide_eq_true ⟨equal, ?_, one ▸ running⟩⟩
    rw [one]
    simp [Row.heldBy, held]

/-! ## The call -/

/-- Both statements are answered, and the SELECT matches the moved row and no other. -/
def Attempt.ReadsBack (attempt : Attempt) (row : Row) : Prop :=
  attempt.update.outcome = .done ∧ attempt.read.outcome = .done ∧
    ∀ other ∈ attempt.seen.rows, other ∈ attempt.matched ↔ other.id = row.id

/-- One of the statements is not answered, or the SELECT matches nothing. -/
def Attempt.ReadsNothing (attempt : Attempt) : Prop :=
  attempt.update.outcome ≠ .done ∨ attempt.read.outcome ≠ .done ∨ attempt.matched = []

/-- A call answers no row unless both its statements are answered and the SELECT
matches one. -/
theorem Attempt.outcome_cases (attempt : Attempt) :
    ((∀ pick image, attempt.outcome pick ≠ .ok (some image)) ∧
      (attempt.statement.affected attempt.found = 0 ∨ attempt.ReadsNothing)) ∨
    (attempt.statement.affected attempt.found ≠ 0 ∧ attempt.update.outcome = .done ∧
      attempt.read.outcome = .done ∧ attempt.matched ≠ [] ∧
      ∀ pick, attempt.outcome pick =
        .ok ((fetchOne pick attempt.matched).map ImageRepo.rowToImageGeneration)) := by
  by_cases sent : attempt.update.outcome = .done
  · by_cases changed : attempt.statement.affected attempt.found = 0
    · left
      refine ⟨fun pick image => ?_, .inl changed⟩
      simp [outcome, sent, changed]
    · by_cases answered : attempt.read.outcome = .done
      · by_cases none : attempt.matched = []
        · left
          refine ⟨fun pick image => ?_, .inr (.inr (.inr none))⟩
          simp [outcome, sent, changed, answered, none, fetchOne]
        · right
          refine ⟨changed, sent, answered, none, fun pick => ?_⟩
          simp [outcome, sent, changed, answered]
      · left
        refine ⟨fun pick image => ?_, .inr (.inr (.inl answered))⟩
        cases other : attempt.read.outcome <;> simp_all [outcome]
  · left
    refine ⟨fun pick image => ?_, .inr (.inl sent)⟩
    cases other : attempt.update.outcome <;> simp_all [outcome]

theorem Attempt.fits_of_none {attempt : Attempt} {result : RepoResult (Option ImageGeneration)}
    (none : ∀ image, result ≠ .ok (some image)) :
    attempt.Fits result ↔ ∀ row, attempt.moved = some row → attempt.kept row = false := by
  cases result with
  | error error => exact Iff.rfl
  | ok found =>
    cases found with
    | none => exact Iff.rfl
    | some image => exact (none image rfl).elim

/-- Without a moved row the call answers none. -/
theorem Attempt.exact_of_unmoved {attempt : Attempt} (unmoved : attempt.moved = none) (pick : Nat) :
    attempt.Fits (attempt.outcome pick) := by
  rcases attempt.outcome_cases with ⟨none, _⟩ | ⟨changed, sent, _⟩
  · refine (fits_of_none (none pick)).mpr fun row moved => ?_
    rw [unmoved] at moved
    cases moved
  · rcases of_unmoved unmoved with refused | unchanged
    · simp [Choice.applies, sent] at refused
    · exact (changed unchanged).elim

theorem Attempt.exact_of_moved {attempt : Attempt} (moved : attempt.moved = some row) :
    (∀ pick, attempt.Fits (attempt.outcome pick)) ↔
      if attempt.kept row then attempt.ReadsBack row else attempt.ReadsNothing := by
  have changed : attempt.statement.affected attempt.found ≠ 0 := by
    intro none
    obtain ⟨_, member, hit⟩ := of_moved moved
    rw [affected_eq_zero.mp none row member] at hit
    cases hit
  have one : ∀ {other}, attempt.moved = some other → other = row := by
    intro other same
    exact Option.some.inj (same.symm.trans moved)
  rcases attempt.outcome_cases with ⟨none, nothing⟩ | ⟨_, sent, answered, some', outcome⟩
  · have reads := nothing.resolve_left changed
    have fits : (∀ pick, attempt.Fits (attempt.outcome pick)) ↔ attempt.kept row = false := by
      constructor
      · intro all
        exact (fits_of_none (none 0)).mp (all 0) row moved
      · intro lost pick
        exact (fits_of_none (none pick)).mpr fun other same => one same ▸ lost
    rw [fits]
    cases kept : attempt.kept row with
    | false => simp [reads]
    | true =>
      -- the claimed row is there, so the SELECT would have matched it
      obtain ⟨current, there, same, _⟩ := held_of_kept moved kept
      have unread : ¬ attempt.ReadsBack row := by
        rintro ⟨sent, answered, only⟩
        have matched := (only current there).mpr same
        rcases reads with unsent | unanswered | empty
        · exact unsent sent
        · exact unanswered answered
        · rw [empty] at matched
          cases matched
      simp [unread]
  · have fits : ∀ pick found, fetchOne pick attempt.matched = some found →
        (attempt.Fits (attempt.outcome pick) ↔ attempt.kept row = true ∧ found.id = row.id) := by
      intro pick found fetched
      rw [outcome pick, fetched]
      constructor
      · rintro ⟨other, current, same, kept, there, key, equal⟩
        have id : found.id = current.id := congrArg ImageGeneration.id equal
        rw [one same] at kept key
        exact ⟨kept, id.trans key⟩
      · rintro ⟨kept, key⟩
        exact ⟨row, found, moved, kept, seen_of_matched (fetchOne_mem fetched), key, rfl⟩
    constructor
    · intro all
      have each : ∀ found ∈ attempt.matched, attempt.kept row = true ∧ found.id = row.id := by
        intro found member
        obtain ⟨pick, fetched⟩ := fetchOne_of_mem member
        exact (fits pick found fetched).mp (all pick)
      obtain ⟨first, rest, split⟩ := List.exists_cons_of_ne_nil some'
      have head : first ∈ attempt.matched := by
        rw [split]
        exact List.mem_cons_self
      rw [if_pos (each first head).1]
      refine ⟨sent, answered, fun other there => ?_⟩
      constructor
      · exact fun member => (each other member).2
      · intro key
        have same : other = first := attempt.seen.eq_of_key there (seen_of_matched head)
          (key.trans (each first head).2.symm)
        exact same ▸ head
    · intro reads pick
      obtain ⟨found, member, fetched⟩ := fetchOne_of_ne_nil some' pick
      cases kept : attempt.kept row with
      | false =>
        rw [kept] at reads
        rcases (reads : attempt.ReadsNothing) with unsent | unanswered | empty
        · exact (unsent sent).elim
        · exact (unanswered answered).elim
        · exact (some' empty).elim
      | true =>
        rw [kept] at reads
        obtain ⟨_, _, only⟩ : attempt.ReadsBack row := reads
        exact (fits pick found fetched).mpr
          ⟨kept, (only found (seen_of_matched member)).mp member⟩

/-- A claim is exact precisely if, when its UPDATE has moved a row: either the
claim stands, both statements are answered and the SELECT matches the moved row
and no other; or the claim is lost meanwhile and the call reads nothing. For
`claimTaskById` the SELECT always matches like that while the claim stands. -/
theorem claims_exact (attempt : Attempt) :
    (attempt.Exact config ↔ ∀ row, attempt.moved = some row →
      if attempt.kept row then attempt.ReadsBack row else attempt.ReadsNothing) ∧
    (∀ taskId row, attempt.claim = .byId taskId → attempt.moved = some row →
      attempt.kept row = true →
      ∀ other ∈ attempt.seen.rows, other ∈ attempt.matched ↔ other.id = row.id) := by
  refine ⟨?_, fun taskId row claim moved kept => Attempt.matched_of_kept claim moved kept⟩
  rw [Attempt.exact_iff]
  cases moved : attempt.moved with
  | none =>
    constructor
    · intro _ row same
      cases same
    · exact fun _ pick => Attempt.exact_of_unmoved moved pick
  | some row =>
    rw [Attempt.exact_of_moved moved]
    constructor
    · intro reads other same
      cases same
      exact reads
    · exact fun reads => reads row rfl

/-- Two tasks are created; a worker claims the first one and dies. -/
def staleRun : List (backend defaultConfig).Label :=
  .start (.create 1 (promptPayload "a") false) :: succeeds 0 5 ++
    .start (.create 1 (promptPayload "b") false) :: succeeds 1 5 ++
    .start (.workerTurn 0) :: acts 2 [refused, {}, {}] ++ [.crash 2]

/-- Restarted within the second, a worker of the same name claims the second task. -/
def staleAttempt : Attempt where
  claim := .next
  pid := 3
  workerId := TaskEngine.workerId defaultConfig 0
  leaseSeconds := defaultConfig.lease_seconds
  world := (run (boot defaultConfig World.empty) staleRun).view.world
  before := []
  gap := []
  clock := {}
  update := {}
  read := {}

def fetchedId : RepoResult (Option ImageGeneration) → Option Int
  | .ok (some image) => some image.id
  | _ => none

/-- A claim returns a task that an earlier call has claimed. -/
theorem claims_inexact : ¬ ∀ attempt : Attempt, attempt.Exact defaultConfig := by
  intro claim
  have moved : staleAttempt.moved.map Row.id = some 2 := by decide +kernel
  have fetched : fetchedId (staleAttempt.outcome 0) = some 1 := by decide +kernel
  have fits := Attempt.exact_iff.mp (claim staleAttempt) 0
  cases answered : staleAttempt.outcome 0 with
  | error error =>
    rw [answered] at fetched
    cases fetched
  | ok found =>
    cases found with
    | none =>
      rw [answered] at fetched
      cases fetched
    | some image =>
      rw [answered] at fits fetched
      obtain ⟨row, current, same, _, _, key, rfl⟩ := fits
      have first : current.id = 1 := Option.some.inj fetched
      have second : row.id = 2 := by
        rw [same] at moved
        exact Option.some.inj moved
      omega

end Text2Image
