import Mathlib.Tactic.Tauto
import Text2Image.Properties.Attempts
import Text2Image.Properties.Fencing
import Text2Image.Properties.Generation
import Text2Image.Services.Footprint
import Text2Image.Services.ModelService

/-! The health gate, from the model service's own record to the deferrals of a task. -/

set_option autoImplicit false

namespace Text2Image

open Concurrency Concurrency.Prog System TaskStatus GenerationClient ModelService model_health

variable {config : Config} {pid : Nat} {world after : World} {trace : Trace}

/-! ## What is read of a report -/

variable {state : GenerationState} {loaded : Bool} {threshold : Int} {now : Rat} {host : Host}

/-- The status of a report is one of four, in lower case, and it is taken over. -/
theorem snapshot_status :
    lowerText (state.snapshot loaded threshold now).status = (state.snapshot loaded threshold now).status ∧
      healthStatus (state.snapshot loaded threshold now).status loaded =
        (state.snapshot loaded threshold now).status := by
  have known : (state.snapshot loaded threshold now).status = "loading" ∨
      (state.snapshot loaded threshold now).status = "unhealthy" ∨
      (state.snapshot loaded threshold now).status = "busy" ∨
      (state.snapshot loaded threshold now).status = "healthy" := by
    simp only [GenerationState.snapshot]
    split
    · split <;> simp
    · split
      · split <;> simp
      · simp
  rcases known with same | same | same | same <;> rw [same] <;> exact ⟨by decide, rfl⟩

theorem snapshot_kind (consistent : state.Consistent) :
    lowerText state.active_kind = state.active_kind ∧ state.active_kind.isEmpty = false := by
  rw [consistent.kind]
  split <;> decide

theorem readHealth_snapshot (consistent : state.Consistent) :
    readHealth (health_check (state.snapshot loaded threshold now) host) =
      { status := (state.snapshot loaded threshold now).status
        model_loaded := loaded
        active_kind := state.active_kind
        active_generations := max 0 (wrapInt 32 state.active_generations)
        max_concurrent_generations := max 0 (wrapInt 32 host.max_concurrent_generations)
        detail := (state.snapshot loaded threshold now).status } := by
  obtain ⟨low, taken⟩ := @snapshot_status state loaded threshold now
  obtain ⟨kind, named⟩ := snapshot_kind consistent
  have same : (state.snapshot loaded threshold now).active_kind = state.active_kind := rfl
  have flag : (state.snapshot loaded threshold now).model_loaded = loaded := rfl
  have count : (state.snapshot loaded threshold now).active_generations = state.active_generations := rfl
  simp [readHealth, health_check, Json.value, Json.asString, Json.asBool, Json.asInt, List.lookup_cons,
    low, taken, same, kind, named, flag, count]

/-! ## The decision -/

/-- The action that the report calls for. -/
def calledFor (health : Snapshot) (host : Host) (retryCount : Int) : GateAction :=
  if health.model_loaded ∧
      (health.is_generating → health.active_seconds ≤ health.busy_unhealthy_seconds) ∧
      health.active_generations < host.max_concurrent_generations then .Proceed
  else if retryCount < 9 then .Defer
  else .Fail

/-- Where it matters, the counts compare as their 32-bit readings do, negative ones taken as 0. -/
def ReadsAlike (health : Snapshot) (host : Host) : Prop :=
  health.model_loaded → health.is_generating → health.active_seconds ≤ health.busy_unhealthy_seconds →
    (health.active_generations < host.max_concurrent_generations ↔
      max 0 (wrapInt 32 health.active_generations) < max 0 (wrapInt 32 host.max_concurrent_generations))

theorem deferOrFail_action (health : ImageHealthResult) (retryCount : Int) (backoff : Nat)
    (reason : String) : (deferOrFail health retryCount backoff reason).action =
      if retryCount < 9 then .Defer else .Fail := by
  unfold deferOrFail hasExceededAttemptBudget
  by_cases few : retryCount < 9
  · have within : ¬ retryCount ≥ kMaxModelHealthAttempts - 1 := by
      unfold kMaxModelHealthAttempts
      omega
    simp [few, within]
  · have exceeded : retryCount ≥ kMaxModelHealthAttempts - 1 := by
      unfold kMaxModelHealthAttempts
      omega
    simp [few, exceeded]

theorem busyGenerationConflicts_iff {health : ImageHealthResult}
    (kind : lowerText health.active_kind = "generate") (active : 0 ≤ health.active_generations) :
    busyGenerationConflicts health = true ↔
      ¬ health.active_generations < health.max_concurrent_generations := by
  unfold busyGenerationConflicts
  simp only [kind]
  rw [if_neg (by decide)]
  split
  · simp
  · -- a capacity that is not known is not there
    simp only [true_iff]
    omega

/-- A report of a state that the service can be in. -/
structure Serves (state : GenerationState) (host : Host) : Prop where
  consistent : state.Consistent
  capacity : 1 ≤ host.max_concurrent_generations
  within : state.active_generations ≤ host.max_concurrent_generations

theorem decideForGenerate_snapshot (serves : Serves state host) (retryCount : Int) :
    (decideForGenerate (readHealth (health_check (state.snapshot loaded threshold now) host))
      retryCount).action =
      if loaded ∧ (state.is_generating → state.active_seconds now ≤ threshold) ∧
          (state.is_generating → max 0 (wrapInt 32 state.active_generations) <
            max 0 (wrapInt 32 host.max_concurrent_generations)) then .Proceed
      else if retryCount < 9 then .Defer else .Fail := by
  rw [readHealth_snapshot serves.consistent]
  have low := (@snapshot_status state loaded threshold now).1
  unfold decideForGenerate
  simp only [low]
  cases loaded with
  | false =>
    have status : (state.snapshot false threshold now).status = "loading" ∨
        (state.snapshot false threshold now).status = "unhealthy" := by
      cases loading : state.is_loading <;> simp [GenerationState.snapshot, loading]
    rcases status with same | same <;> simp [same, deferOrFail_action]
  | true =>
    cases generating : state.is_generating with
    | false =>
      have status : (state.snapshot true threshold now).status = "healthy" := by
        simp [GenerationState.snapshot, generating]
      simp [status]
    | true =>
      by_cases overdue : state.active_seconds now > threshold
      · have status : (state.snapshot true threshold now).status = "unhealthy" := by
          simp [GenerationState.snapshot, generating, overdue]
        have late : ¬ state.active_seconds now ≤ threshold := Int.not_le.mpr overdue
        simp [status, late, deferOrFail_action]
      · have status : (state.snapshot true threshold now).status = "busy" := by
          simp [GenerationState.snapshot, generating, overdue]
        have timely : state.active_seconds now ≤ threshold := Int.not_lt.mp overdue
        -- what is active has a kind, so the capacity decides
        have busy : state.active_generation_starts.length ≠ 0 := by
          have positive : 0 < state.active_generations := of_decide_eq_true generating
          rw [serves.consistent.counted] at positive
          omega
        have kind : lowerText state.active_kind = "generate" := by
          rw [serves.consistent.kind, if_neg busy]
          decide
        have conflicts := @busyGenerationConflicts_iff
          { status := "busy", model_loaded := true, active_kind := state.active_kind
            active_generations := max 0 (wrapInt 32 state.active_generations)
            max_concurrent_generations := max 0 (wrapInt 32 host.max_concurrent_generations)
            detail := "busy" } kind (Int.le_max_left _ _)
        simp only [status, timely]
        by_cases free : max 0 (wrapInt 32 state.active_generations) <
            max 0 (wrapInt 32 host.max_concurrent_generations)
        · have quiet := mt conflicts.mp (not_not.mpr free)
          simp [quiet, free]
        · have conflict := conflicts.mpr free
          simp [conflict, free, deferOrFail_action]

theorem action_eq_iff {first second : Prop} [Decidable first] [Decidable second] (retryCount : Int) :
    ((if first then GateAction.Proceed else if retryCount < 9 then .Defer else .Fail) =
      if second then GateAction.Proceed else if retryCount < 9 then .Defer else .Fail) ↔
    (first ↔ second) := by
  by_cases holds : first <;> by_cases holds' : second <;> by_cases few : retryCount < 9 <;>
    simp [holds, holds', few]

/-- The gate decides as the report calls for exactly if the counts are read alike. -/
theorem decides_iff (serves : Serves state host) :
    (∀ retryCount, 0 ≤ retryCount →
      (decideForGenerate (readHealth (health_check (state.snapshot loaded threshold now) host))
        retryCount).action = calledFor (state.snapshot loaded threshold now) host retryCount) ↔
      ReadsAlike (state.snapshot loaded threshold now) host := by
  have idle : ¬ state.is_generating = true → state.active_generations < host.max_concurrent_generations := by
    intro idle
    have none : ¬ 0 < state.active_generations := fun busy => idle (decide_eq_true busy)
    have capacity := serves.capacity
    omega
  have agrees : ∀ retryCount,
      ((decideForGenerate (readHealth (health_check (state.snapshot loaded threshold now) host))
        retryCount).action = calledFor (state.snapshot loaded threshold now) host retryCount ↔
      ReadsAlike (state.snapshot loaded threshold now) host) := by
    intro retryCount
    rw [decideForGenerate_snapshot serves retryCount, calledFor, action_eq_iff, ReadsAlike]
    simp only [GenerationState.snapshot]
    -- both sides ask for the model and a timely generation; they differ in the counts only
    by_cases generating : state.is_generating = true
    · simp only [generating, true_implies]
      tauto
    · have free := idle generating
      simp only [generating, free]
      tauto
  constructor
  · intro agree
    exact (agrees 0).mp (agree 0 (Int.le_refl 0))
  · intro alike retryCount _
    exact (agrees retryCount).mpr alike

/-- The call receives this answer. -/
def Receives (trace : Trace) (result : HttpResult) : Prop :=
  ∃ url timeout choice met, trace = [(.httpGet url timeout false, choice, met)] ∧
    choice.answerHttp = .ok result

theorem healthOf_document {result : HttpResult} {body : Json} (read : result.document = some body) :
    healthOf result = readHealth body := by
  unfold HttpResult.document at read
  unfold healthOf
  cases delivered : result.toExpectedBody with
  | error error =>
    rw [delivered] at read
    cases read
  | ok answer =>
    simp only [delivered] at read ⊢
    split at read
    · cases read
    · rename_i given
      rw [if_neg given, read]

theorem executes_checkHealth {reply : Except Thrown ImageHealthResult} {result : HttpResult}
    (ran : Executes (amid config pid) (checkHealth config) world trace reply after)
    (received : Receives trace result) : reply = .ok (healthOf result) := by
  obtain ⟨url, timeout, choice, met, rfl, answered⟩ := received
  unfold checkHealth at ran
  cases read : config.python_service with
  | error what =>
    simp only [read] at ran
    cases ran.of_done.1
  | ok service =>
    simp only [read] at ran
    cases timed : service.timeout_seconds with
    | error what =>
      simp only [timed] at ran
      cases ran.of_done.1
    | ok timeout =>
      simp only [timed] at ran
      obtain ⟨asked, later, between, answer, split, gets, goesOn⟩ := ran.of_bind
      obtain ⟨chosen, met', _, rfl, rfl, _⟩ := gets.of_perform
      obtain ⟨same, rfl⟩ := List.cons.inj split
      cases same
      simp only [amid, perform, answered] at goesOn
      exact goesOn.of_done.2.1

/-! ## The order of a turn -/

def Op.readsBack : Op → Bool
  | .sql (.readClaimed ..) | .sql (.readClaimedById ..) => true
  | _ => false

def Unclaiming (op : Op) : Prop := ∀ s, op = .sql s → s.claimant = none

/-- Nothing is claimed once a task has been read back. -/
def ClaimsFirst : Protocol interface := fun past op =>
  Unclaiming op ∨ ∀ taken ∈ past, taken.op.readsBack = false

theorem Working.unclaiming {op : Op} (working : Working op) : Unclaiming op := by
  rintro s rfl
  cases s with
  | claimNextTask | claimTaskById => exact working.elim
  | _ => rfl

theorem follows_of_unclaiming {α : Type} {program : Program α} (only : program.Only Unclaiming)
    (past : Past) : program.Follows ClaimsFirst (fun _ _ => True) past :=
  (only.follows past).weaken fun _ _ unclaiming => .inl unclaiming

theorem unclaiming_of_working {α : Type} {program : Program α} (only : program.Only Working) :
    program.Only Unclaiming := only.mono fun _ => Working.unclaiming

theorem unclaiming_deferForModelHealth (task : ImageGeneration) (workerId : String)
    (decision : GateDecision) :
    (TaskEngine.deferForModelHealth task workerId decision).Only Unclaiming := by
  have defers : Unclaiming (.sql (.deferClaimedTask task.id task.user_id workerId
      decision.failure_code decision.message)) := by
    rintro s same
    cases same
    rfl
  refine (only_updates _ rfl defers).bind fun deferred => ?_
  refine (unclaiming_of_working (working_releaseRedisLease _ _)).bind fun _ => ?_
  split
  · refine (unclaiming_of_working (working_invalidateAllForTask _ _)).bind fun _ => ?_
    refine (unclaiming_of_working (working_publish _)).bind fun published => ?_
    split
    · trivial
    · exact (unclaiming_of_working (working_enqueueTask _)).bind fun _ => trivial
  · trivial

theorem unclaiming_processClaimedTask (task : ImageGeneration) (workerId : String) :
    (TaskEngine.processClaimedTask config task workerId).Only Unclaiming := by
  have gate : (TaskEngine.applyModelHealthGate config task workerId).Only Unclaiming := by
    refine (unclaiming_of_working working_checkHealth).bind fun health => ?_
    split
    · trivial
    · dsimp only
      split
      · trivial
      · exact (unclaiming_of_working (working_failForModelHealth _ _ _)).bind fun _ => trivial
      · exact (unclaiming_deferForModelHealth _ _ _).bind fun _ => trivial
  refine (unclaiming_of_working (working_invalidateAllForTask _ _)).bind fun _ => ?_
  refine (unclaiming_of_working (working_publish _)).bind fun published => ?_
  split
  · trivial
  · refine gate.bind fun verdict => ?_
    split
    · trivial
    · trivial
    · exact unclaiming_of_working (working_generateUnderLease task workerId)

/-- A claim, after which nothing is claimed, where nothing has been read back. -/
theorem claimsFirst_updates {α : Type} {s : Stmt} (counts : s.Answer = Nat) {past : Past}
    {rest : RepoResult Bool → Program α} (fresh : ∀ taken ∈ past, taken.op.readsBack = false)
    (only : ∀ changed, (rest changed).Only Unclaiming) :
    (ImageRepo.updates s counts >>= rest).Follows ClaimsFirst (fun _ _ => True) past := by
  have claims : (ImageRepo.updates s counts).Follows ClaimsFirst (fun _ _ => True) past := by
    refine .call (.inr fresh) fun answer => ?_
    cases answer <;> exact .done trivial
  apply claims.bind
  intro later changed _ _
  exact follows_of_unclaiming (only changed) later

theorem claimsFirst_claimTaskById (taskId : Int) (workerId : String) (leaseSeconds : Int) {past : Past}
    (fresh : ∀ taken ∈ past, taken.op.readsBack = false) :
    (ImageRepo.claimTaskById taskId workerId leaseSeconds).Follows ClaimsFirst (fun _ _ => True) past := by
  refine .call (.inl (Working.unclaiming trivial)) fun now => ?_
  refine claimsFirst_updates rfl ?_ fun changed => ?_
  · intro taken member
    rcases List.mem_cons.mp member with rfl | older
    · rfl
    · exact fresh taken older
  · split
    · trivial
    · trivial
    · refine (only_perform (.sql (.readClaimedById _ _)) (by rintro s same; cases same; rfl)).bind fun answer => ?_
      cases answer <;> trivial

theorem claimsFirst_claimNextTask (workerId : String) (leaseSeconds : Int) {past : Past}
    (fresh : ∀ taken ∈ past, taken.op.readsBack = false) :
    (ImageRepo.claimNextTask workerId leaseSeconds).Follows ClaimsFirst (fun _ _ => True) past := by
  refine .call (.inl (Working.unclaiming trivial)) fun now => ?_
  refine claimsFirst_updates rfl ?_ fun changed => ?_
  · intro taken member
    rcases List.mem_cons.mp member with rfl | older
    · rfl
    · exact fresh taken older
  · split
    · trivial
    · trivial
    · refine (only_perform (.sql (.readClaimed _ _)) (by rintro s same; cases same; rfl)).bind fun answer => ?_
      cases answer <;> trivial

theorem claimsFirst_claim (workerId : String) :
    (TaskEngine.claim config workerId).Follows ClaimsFirst (fun _ _ => True) [] := by
  refine .call (.inl (Working.unclaiming trivial)) fun available => ?_
  cases available with
  | true =>
    refine .call (.inl (by rintro s same; cases same)) fun popped => ?_
    match popped with
    | none => exact .done trivial
    | some (taskId : Int) =>
      refine .call (.inl (Working.unclaiming trivial)) fun acquired => ?_
      cases acquired with
      | false => exact .done trivial
      | true =>
        apply (claimsFirst_claimTaskById taskId workerId _ (by simp [Op.readsBack])).bind
        intro later task _ _
        match task with
        | .ok (some task) => exact .done trivial
        | .ok none => exact .call (.inl (Working.unclaiming trivial)) fun _ => .done trivial
        | .error error => exact .call (.inl (Working.unclaiming trivial)) fun _ => .done trivial
  | false =>
    apply (claimsFirst_claimNextTask workerId _ (by simp [Op.readsBack])).bind
    intro later task _ _
    cases task <;> exact .done trivial

theorem claimsFirst_workerTurn (index : Nat) :
    ((Call.workerTurn index).program config).Follows ClaimsFirst (fun _ _ => True) [] := by
  have turn : (TaskEngine.workerTurn config (TaskEngine.workerId config index)).Follows ClaimsFirst
      (fun _ _ => True) [] := by
    apply (claimsFirst_claim _).bind
    intro later task _ _
    cases task with
    | none => exact .done trivial
    | some task => exact follows_of_unclaiming (unclaiming_processClaimedTask task _) later
  apply turn.bind
  intro later outcome _ _
  exact .done trivial

/-! ## Names of workers -/

theorem baseLetters_of_isDigit {c : Char} (digit : c.isDigit = true) : baseLetters c = [c] := by
  simp only [Char.isDigit, Bool.and_eq_true, decide_eq_true_eq] at digit
  have apart : (57 : UInt32) < 65 := by decide
  have small : ¬ ('A' ≤ c ∧ c ≤ 'Z') := by
    rintro ⟨above, _⟩
    exact absurd (UInt32.le_trans above digit.2) (UInt32.not_le.mpr apart)
  have code : c.toNat < 0xC0 := Nat.lt_of_le_of_lt (UInt32.le_iff_toNat_le.mp digit.2) (by decide)
  simp only [baseLetters, code, if_true, asciiToLower, if_neg small]

/-- The number of a worker is compared as it is. -/
theorem collationKey_workerId (index : Nat) : collationKey (TaskEngine.workerId config index) =
    (config.worker_prefix ++ "-").toList.flatMap baseLetters ++ Nat.toDigits 10 (index + 1) := by
  have digits : (toString (index + 1)).toList = Nat.toDigits 10 (index + 1) := by
    simp [Nat.toString_eq_repr, Nat.toList_repr]
  have all : ∀ c ∈ Nat.toDigits 10 (index + 1), c.isDigit = true := fun c member =>
    Nat.isDigit_of_mem_toDigits (by decide) (by decide) member
  have same : (Nat.toDigits 10 (index + 1)).flatMap baseLetters = Nat.toDigits 10 (index + 1) := by
    rw [List.flatMap_congr fun c member => baseLetters_of_isDigit (all c member)]
    simp
  rw [collationKey, TaskEngine.workerId, String.toList_append, List.flatMap_append, digits, same,
    List.rdropWhile_eq_self_iff]
  intro ends blank
  rw [List.getLast_append_of_ne_nil _ Nat.toDigits_ne_nil] at blank
  have digit := all _ (List.getLast_mem Nat.toDigits_ne_nil)
  rw [of_decide_eq_true blank] at digit
  cases digit

/-- Workers with different numbers are told apart by the database. -/
theorem workerId_collates {first second : Nat}
    (same : collates (TaskEngine.workerId config first) (TaskEngine.workerId config second) = true) :
    first = second := by
  have keys := of_decide_eq_true same
  rw [collationKey_workerId, collationKey_workerId] at keys
  have digits := Numbered.digits_injective (List.append_cancel_left keys)
  omega

/-! ## Counts as they were read -/

def Call.worker : Call → Option Nat
  | .workerTurn index => some index
  | _ => none

/-- The task is inserted with no negative count. -/
def Stmt.insertsCounted (id : Int) (s : Stmt) (t : ImageTable) : Bool :=
  match s with
  | .insert values => t.next ≠ id ∨ 0 ≤ values.retry_count
  | _ => true

/-- No worker starts while another of its name is at work, and the task is inserted with no
negative count. -/
abbrev workersApart (id : Int) : Condition (backend config) where
  starts call view := (call.worker.all fun index =>
    view.log.all fun entry => (live entry.pid view.log).bind Call.worker ≠ some index) = true
  performs _ _ op choice view := ((executed op choice).all fun s => s.insertsCounted id view.world.db) = true

/-- What a turn has read back still holds of the count, as long as the row is held under
the turn's name; there is one turn of each name. -/
structure AsRead (view : (backend config).View) : Prop where
  alone : ∀ pid other index, live pid view.log = some (.workerTurn index) →
    live other view.log = some (.workerTurn index) → pid = other
  born : ∀ pid index copy, live pid view.log = some (.workerTurn index) →
    Claimed (TaskEngine.workerId config index) (history pid view.log) copy → copy.id < view.world.db.next
  counts : ∀ pid index copy, live pid view.log = some (.workerTurn index) →
    Claimed (TaskEngine.workerId config index) (history pid view.log) copy →
    ∀ row ∈ view.world.db.rows, row.id = copy.id → row.status = Generating →
      row.heldBy (TaskEngine.workerId config index) = true → row.retry_count = copy.retry_count

variable {s : Stmt} {t : ImageTable} {row row' : Row} {call : Call} {workerId : String}

/-- An answer that reads the task back. -/
inductive ReadBack (workerId : String) (copy : Row) : Taken interface → Prop where
  | next {expiresAt : DbTime} :
      ReadBack workerId copy ⟨.sql (.readClaimed workerId expiresAt), .ok (some copy)⟩
  | byId {id : Int} : ReadBack workerId copy ⟨.sql (.readClaimedById id workerId), .ok (some copy)⟩

theorem ReadBack.readsBack {copy : Row} {taken : Taken interface} (read : ReadBack workerId copy taken) :
    taken.op.readsBack = true := by
  cases read <;> rfl

/-- What is read back stands in the table. -/
theorem ReadBack.present {copy : Row} {event : (backend config).Event} (genuine : event.Genuine)
    (read : ReadBack workerId copy ⟨event.op, event.answer⟩) :
    copy ∈ event.before.db.rows ∧ ∃ s, statementOf (.performed event) = some (event.before.db, s) ∧
      s.isRead = true := by
  generalize same : (⟨event.op, event.answer⟩ : Taken interface) = taken at read
  cases read with
  | next | byId =>
    obtain ⟨found, answer⟩ := got_genuine genuine same
    exact ⟨(Keyed.Table.mem_select.mp (fetchOne_mem answer.symm)).1, _, found, rfl⟩

/-- A claimed task was read back in one of the answers. -/
theorem Claimed.readBack {past : Past} {copy : Row} (claimed : Claimed workerId past copy) :
    ∃ taken ∈ past, ReadBack workerId copy taken := by
  cases claimed with
  | next _ _ read => exact ⟨_, read, .next⟩
  | byId _ _ read => exact ⟨_, read, .byId⟩

/-- The newest operation reads the task back, or claims although a task has been read back,
or else the task was claimed before. -/
theorem Claimed.of_cons {past : Past} {newest : Taken interface} {copy : Row}
    (claimed : Claimed workerId (newest :: past) copy) :
    Claimed workerId past copy ∨ ReadBack workerId copy newest ∨
      (¬ Unclaiming newest.op ∧ ∃ taken ∈ past, taken.op.readsBack = true) := by
  have late : ∀ s worker, newest.op = .sql s → s.claimant = some worker → ¬ Unclaiming newest.op := by
    intro s worker same claims unclaiming
    rw [unclaiming s same] at claims
    cases claims
  cases claimed with
  | next claim some' read =>
    rcases List.mem_cons.mp read with same | before
    · exact .inr (.inl (same ▸ .next))
    · rcases List.mem_cons.mp claim with same | earlier
      · exact .inr (.inr ⟨late _ _ (congrArg Taken.op same).symm rfl, _, before, rfl⟩)
      · exact .inl (.next earlier some' before)
  | byId claim some' read =>
    rcases List.mem_cons.mp read with same | before
    · exact .inr (.inl (same ▸ .byId))
    · rcases List.mem_cons.mp claim with same | earlier
      · exact .inr (.inr ⟨late _ _ (congrArg Taken.op same).symm rfl, _, before, rfl⟩)
      · exact .inl (.byId earlier some' before)

/-- Only a claim gives a row to a worker, and nothing else counts a row that is held. -/
theorem Change.steady (change : Change s row (some row')) (unclaimed : s.claimant = none)
    (running : row'.status = Generating) : row'.retry_count = row.retry_count := by
  cases change with
  | requeue | defer | retry => cases running
  | _ => rfl

/-- The turn has read the task back before, and then it claims nothing now; or the newest
operation reads it back. -/
theorem Claimed.of_performs {view : (backend config).View} {pid other index : Nat} {op : Op}
    {choice : Choice} {helper : Bool} {copy : Row} (alive : live pid view.log = some call)
    (working : live other view.log = some (.workerTurn index))
    (asks : helper = false → AsksFor (backend config) call (history pid view.log) op)
    (claimed : Claimed workerId (history other (view.performs pid call helper op choice).log) copy) :
    (Claimed workerId (history other view.log) copy ∧ (helper = false → other = pid → Unclaiming op)) ∨
      ReadBack workerId copy ⟨op, (perform config pid op choice view.world).1⟩ := by
  cases helper with
  | true =>
    rw [history_helper view call op choice] at claimed
    exact .inl ⟨claimed, nofun⟩
  | false =>
    by_cases same : other = pid
    · subst same
      obtain rfl : call = .workerTurn index := Option.some.inj (alive.symm.trans working)
      have first : ClaimsFirst (history other view.log) op :=
        (asks rfl).allowed (claimsFirst_workerTurn index)
      rw [history_own other view _ op choice] at claimed
      rcases claimed.of_cons with before | read | ⟨claims, taken, member, back⟩
      · obtain ⟨taken, member, read⟩ := before.readBack
        refine .inl ⟨before, fun _ _ => first.resolve_right fun fresh => ?_⟩
        have contrary := fresh taken member
        rw [read.readsBack] at contrary
        cases contrary
      · exact .inr read
      · have contrary := first.resolve_left claims taken member
        rw [back] at contrary
        cases contrary
    · have unchanged := (history_performs view pid call false op choice other).resolve_left fun own =>
        same own.1
      rw [unchanged] at claimed
      exact .inl ⟨claimed, fun _ own => (same own).elim⟩

theorem next_le_performs {view : (backend config).View} {pid : Nat} {op : Op} {choice : Choice}
    {helper : Bool} : view.world.db.next ≤ (view.performs pid call helper op choice).world.db.next := by
  cases found : executed op choice with
  | none =>
    exact Int.le_of_eq (congrArg (·.next) (performs_db_silent found).symm)
  | some s =>
    rw [performs_db_executed found]
    exact Stmt.next_le s _

/-- A row that is held after a statement was held before, with the same count, or was given
to a turn of the name. -/
theorem Stmt.held_before {workerId : String} (member : row ∈ t.rows)
    (became : s.onRow t row = some row') (running : row'.status = Generating)
    (held : row'.heldBy workerId = true) :
    (row.status = Generating ∧ row.heldBy workerId = true ∧ row'.retry_count = row.retry_count) ∨
      ∃ claimant, s.claimant = some claimant ∧ collates claimant workerId = true := by
  have change := s.onRow_change member
  rw [became] at change
  cases claim : s.claimant with
  | none =>
    obtain ⟨running', held'⟩ := change.held claim running held
    exact .inl ⟨running', held', change.steady claim running⟩
  | some claimant =>
    rcases Stmt.onRow_of_claimant claim became with ⟨_, given⟩ | ⟨_, rfl⟩
    · refine .inr ⟨claimant, rfl, ?_⟩
      simpa [Row.heldBy, given] using held
    · exact .inl ⟨running, held, rfl⟩

/-- A claim is executed by a turn of the claimant's name, and not by a helper. -/
theorem Acts.claimant {view : (backend config).View} {pid : Nat} {op : Op} {choice : Choice}
    {helper : Bool} (may : Acts config view pid call op helper) (found : executed op choice = some s)
    (claims : s.claimant = some workerId) :
    helper = false ∧ op = .sql s ∧ ∃ index, call = .workerTurn index ∧
      workerId = TaskEngine.workerId config index := by
  obtain ⟨rfl, _⟩ := executed_eq_some.mp found
  cases helper with
  | true =>
    rcases leaseKeeperMay_iff.mp may with ⟨_, _, _, other⟩ | ⟨_, _, _, same⟩
    · cases other
    · cases same
      cases claims
  | false =>
    refine ⟨rfl, rfl, ?_⟩
    cases s with
    | claimNextTask worker now expiresAt =>
      cases claims
      exact sends_claimNext may
    | claimTaskById id worker now expiresAt =>
      cases claims
      exact sends_claimById may
    | _ => cases claims

theorem AsRead.step {view : (backend config).View} {pid : Nat} {op : Op} {choice : Choice}
    {helper : Bool} (holds : AsRead view) (alive : live pid view.log = some call)
    (may : Acts config view pid call op helper)
    (asks : helper = false → AsksFor (backend config) call (history pid view.log) op) :
    AsRead (view.performs pid call helper op choice) := by
  have real : (view.event pid call helper op choice).Genuine := rfl
  constructor
  · exact holds.alone
  · intro other index copy working claimed
    refine Int.lt_of_lt_of_le ?_ next_le_performs
    rcases Claimed.of_performs alive working asks claimed with ⟨before, _⟩ | read
    · exact holds.born other index copy working before
    · exact view.world.db.below copy (ReadBack.present real read).1
  · intro other index copy working claimed row' after key running held
    rcases Claimed.of_performs alive working asks claimed with ⟨before, unclaims⟩ | read
    · cases found : executed op choice with
      | none =>
        rw [performs_db_silent found] at after
        exact holds.counts other index copy working before row' after key running held
      | some s =>
        rw [performs_db_executed found] at after
        rcases Stmt.mem_table.mp after with ⟨row, member, became⟩ | inserted
        · have same := Stmt.onRow_id became
          rcases Stmt.held_before member became running held with
            ⟨running', held', count⟩ | ⟨claimant, claims, collated⟩
          · rw [count]
            exact holds.counts other index copy working before row member (same.symm.trans key) running'
              held'
          · -- the claimant has the turn's name, so it is the turn, which claims no more
            obtain ⟨program, rfl, index', rfl, rfl⟩ := may.claimant found claims
            obtain rfl := workerId_collates collated
            have own := holds.alone other pid _ working alive
            have nothing := unclaims program own s rfl
            rw [nothing] at claims
            cases claims
        · -- a new row is not the one that was read
          have old := holds.born other index copy working before
          cases s with
          | insert values =>
            have fresh : row'.id = view.world.db.next := congrArg Row.id (Option.some.inj inserted).symm
            omega
          | _ => cases inserted
    · obtain ⟨present, s, found, reads⟩ := ReadBack.present real read
      have table : (view.performs pid call helper op choice).world.db = view.world.db := by
        have executes : executed op choice = some s := by
          rw [statementOf_performs] at found
          obtain ⟨_, executes, same⟩ := Option.map_eq_some_iff.mp found
          cases same
          exact executes
        rw [performs_db_executed executes, Stmt.table_of_isRead reads]
      rw [table] at after
      rw [Keyed.Table.eq_of_key after present key]

theorem AsRead.quiet {view : (backend config).View} {entry : (backend config).Entry} {after : World}
    (holds : AsRead view) (same : after.db = view.world.db)
    (unstarted : ∀ pid call, entry ≠ .started pid call)
    (unperformed : ∀ event, entry ≠ .performed event) : AsRead ⟨after, entry :: view.log⟩ := by
  have older : ∀ {pid call}, live pid (entry :: view.log) = some call → live pid view.log = some call :=
    fun alive => (live_cons alive).resolve_left (unstarted _ _)
  constructor
  · intro pid other index alive alive'
    exact holds.alone pid other index (older alive) (older alive')
  · intro pid index copy alive claimed
    rw [history_unperformed unperformed] at claimed
    rw [same]
    exact holds.born pid index copy (older alive) claimed
  · intro pid index copy alive claimed
    rw [history_unperformed unperformed] at claimed
    rw [same]
    exact holds.counts pid index copy (older alive) claimed

theorem AsRead.started {view : (backend config).View} {pid : Nat} {call : Call} (holds : AsRead view)
    (unused : ∀ entry ∈ view.log, entry.pid ≠ pid) (apart : (call.worker.all fun index =>
      view.log.all fun entry => (live entry.pid view.log).bind Call.worker ≠ some index) = true) :
    AsRead (view.push (.started pid call)) := by
  have unperformed : ∀ event : (backend config).Event,
      (Entry.started pid call : (backend config).Entry) ≠ .performed event := by
    intro event same
    cases same
  -- a process that has just started has read nothing back
  have fresh : ∀ {workerId copy}, ¬ Claimed workerId (history pid view.log) copy := by
    intro workerId copy claimed
    obtain ⟨taken, member, _⟩ := claimed.readBack
    obtain ⟨event, present, own, _⟩ := mem_history member
    exact unused _ present own
  have single : ∀ other index, call = .workerTurn index → live other view.log ≠ some (.workerTurn index) := by
    rintro other index rfl alive
    have different := List.all_eq_true.mp apart _ (mem_of_live alive)
    simp [Entry.pid, alive, Call.worker] at different
  constructor
  · intro first second index alive alive'
    rcases live_cons alive with begun | before <;> rcases live_cons alive' with begun' | before'
    · cases begun
      cases begun'
      rfl
    · cases begun
      exact (single second index rfl before').elim
    · cases begun'
      exact (single first index rfl before).elim
    · exact holds.alone first second index before before'
  · intro other index copy alive claimed
    rw [View.push_log, history_unperformed unperformed] at claimed
    rcases live_cons alive with begun | before
    · cases begun
      exact (fresh claimed).elim
    · exact holds.born other index copy before claimed
  · intro other index copy alive claimed
    rw [View.push_log, history_unperformed unperformed] at claimed
    rcases live_cons alive with begun | before
    · cases begun
      exact (fresh claimed).elim
    · exact holds.counts other index copy before claimed

/-! ## The number of deferrals -/

/-- The task's deferrals are paid for by its count, and there are at most nine. -/
structure FewDeferrals (id : Int) (t : ImageTable) (log : List (backend config).Entry) : Prop where
  few : executions Stmt.isDeferral id log ≤ 9
  counted : ∀ row ∈ t.rows, row.id = id → executions Stmt.isDeferral id log ≤ row.retry_count
  unborn : t.next ≤ id → executions Stmt.isDeferral id log = 0

/-- A turn that defers a row has read it with a count within the gate's budget, which the row
still has. -/
theorem AsRead.few {view : (backend config).View} {pid : Nat} {op : Op} {choice : Choice}
    {helper : Bool} (holds : AsRead view) (alive : live pid view.log = some call)
    (may : Acts config view pid call op helper) (found : executed op choice = some s)
    (member : row ∈ view.world.db.rows)
    (deferral : (s.isDeferral && s.hits view.world.db row) = true) : row.retry_count < 9 := by
  have matched : s.hits view.world.db row = true := ((Bool.and_eq_true _ _).mp deferral).2
  obtain ⟨userId, workerId, failureCode, errorMessage, rfl⟩ := Stmt.of_isDeferral deferral
  obtain ⟨rfl, _⟩ := executed_eq_some.mp found
  cases helper with
  | true => cases may
  | false =>
    obtain ⟨index, copy, rfl, claimed, key, _, rfl, few⟩ := sends_defer may
    obtain ⟨_, _, running, held⟩ : row.id = row.id ∧ row.user_id = userId ∧ row.status = Generating ∧
      row.heldBy (TaskEngine.workerId config index) = true := of_decide_eq_true matched
    have count := holds.counts pid index copy alive claimed row member key running held
    rw [count]
    exact few

theorem FewDeferrals.step {view : (backend config).View} {pid : Nat} {op : Op} {choice : Choice}
    {helper : Bool} {id : Int} (few : FewDeferrals id view.world.db view.log) (holds : AsRead view)
    (alive : live pid view.log = some call) (may : Acts config view pid call op helper)
    (found : executed op choice = some s) (counts : s.insertsCounted id view.world.db = true) :
    FewDeferrals id (s.table view.world.db)
      (.performed (view.event pid call helper op choice) :: view.log) := by
  have newest : statementOf (.performed (view.event pid call helper op choice)) =
      some (view.world.db, s) := by
    rw [statementOf_performs, found]
    rfl
  have unborn : view.world.db.next ≤ id → executions Stmt.isDeferral id
      (.performed (view.event pid call helper op choice) :: view.log) = 0 := by
    intro later
    have absent : view.world.db.find id = none := by
      refine Option.eq_none_iff_forall_not_mem.mpr fun row present => ?_
      obtain ⟨member, key⟩ := Keyed.Table.find_eq_some.mp present
      have below := view.world.db.below row member
      omega
    rw [executions_absent Stmt.isDeferral view.log newest absent]
    exact few.unborn later
  constructor
  · cases there : view.world.db.find id with
    | none =>
      rw [executions_absent Stmt.isDeferral view.log newest there]
      exact few.few
    | some row =>
      obtain ⟨member, rfl⟩ := Keyed.Table.find_eq_some.mp there
      rw [executions_present Stmt.isDeferral view.log newest member]
      split
      · rename_i deferral
        have budget := holds.few alive may found member deferral
        have counted := few.counted row member rfl
        omega
      · exact few.few
  · intro row' after key
    rcases Stmt.mem_table.mp after with ⟨row, member, became⟩ | inserted
    · obtain rfl : row.id = id := (Stmt.onRow_id became).symm.trans key
      rw [executions_present Stmt.isDeferral view.log newest member,
        Stmt.onRow_retry_count member became]
      have counted := few.counted row member rfl
      by_cases deferral : (s.isDeferral && s.hits view.world.db row) = true
      · have charge : (s.isCharge && s.hits view.world.db row) = true := by
          obtain ⟨kind, matched⟩ := (Bool.and_eq_true _ _).mp deferral
          rw [matched, Bool.and_true]
          cases s with
          | deferClaimedTask => rfl
          | _ => cases kind
        rw [if_pos deferral, if_pos charge]
        omega
      · rw [if_neg deferral]
        split <;> omega
    · cases s with
      | insert values =>
        have fresh : row' = { values with id := view.world.db.next } := (Option.some.inj inserted).symm
        have next : view.world.db.next = id := by
          rw [← key, fresh]
        have positive : 0 ≤ values.retry_count := (of_decide_eq_true counts).resolve_left (not_not.mpr next)
        rw [unborn (Int.le_of_eq next), fresh]
        exact positive
      | _ => cases inserted
  · intro later
    exact unborn (Int.le_trans (Stmt.next_le s _) later)

theorem fewDeferrals_upkept (id : Int) : Upkept config (workersApart id) fun view =>
    AsRead view ∧ FewDeferrals id view.world.db view.log where
  acts view pid call helper op choice _ _ holds alive may asks meets := by
    obtain ⟨asRead, few⟩ := holds
    refine ⟨asRead.step alive may asks, ?_⟩
    cases found : executed op choice with
    | none =>
      have silent : statementOf (.performed (view.event pid call helper op choice)) = none := by
        rw [statementOf_performs, found]
        rfl
      rw [performs_db_silent found]
      have same := executions_silent Stmt.isDeferral id view.log silent
      exact ⟨same ▸ few.few, same ▸ few.counted, same ▸ few.unborn⟩
    | some s =>
      rw [performs_db_executed found]
      refine few.step asRead alive may found ?_
      simpa [workersApart, found] using meets
  started view pid call holds unused apart :=
    ⟨holds.1.started unused apart, holds.2.few, holds.2.counted, holds.2.unborn⟩
  returned view pid call reply holds _ _ := by
    refine ⟨holds.1.quiet rfl (fun _ _ same => ?_) (fun _ same => ?_), holds.2.few, holds.2.counted,
      holds.2.unborn⟩ <;> cases same
  crashed view pid holds := by
    refine ⟨holds.1.quiet rfl (fun _ _ same => ?_) (fun _ same => ?_), holds.2.few, holds.2.counted,
      holds.2.unborn⟩ <;> cases same
  passes view after holds settles := by
    obtain ⟨⟨alone, born, counts⟩, few, counted, unborn⟩ := holds
    rw [← settles.db] at born counts counted unborn
    exact ⟨⟨alone, born, counts⟩, few, counted, unborn⟩

/-- The gate decides as the model service's report calls for exactly if the counts are read
alike; and in every run in which no two workers of one name are at work, a task that starts
with no negative count is deferred at most nine times. -/
theorem health_gate (config : Config) :
    (∀ (state : GenerationState) (loaded : Bool) (threshold : Int) (now : Rat) (host : Host)
      (pid : Nat) (world after : World) (trace : Trace) (reply : Except Thrown ImageHealthResult)
      (result : HttpResult), Serves state host →
      Executes (amid config pid) (checkHealth config) world trace reply after →
      Receives trace result →
      result.document = some (health_check (state.snapshot loaded threshold now) host) →
      ∃ health, reply = .ok health ∧
        ((∀ retryCount, 0 ≤ retryCount → (decideForGenerate health retryCount).action =
          calledFor (state.snapshot loaded threshold now) host retryCount) ↔
        ReadsAlike (state.snapshot loaded threshold now) host)) ∧
    ∀ (world : World) (labels : List (backend config).Label) (id : Int),
      (∀ row ∈ world.db.rows, row.id = id → 0 ≤ row.retry_count) →
      Meets (workersApart id) (boot config world) labels →
      executions Stmt.isDeferral id (run (boot config world) labels).view.log ≤ 9 := by
  constructor
  · intro state loaded threshold now host pid world after trace reply result serves ran received read
    refine ⟨_, executes_checkHealth ran received, ?_⟩
    rw [healthOf_document read]
    exact decides_iff serves
  · intro world labels id counted apart
    refine ((fewDeferrals_upkept id).run ?_ labels apart).2.few
    refine ⟨⟨?_, ?_, ?_⟩, ⟨Nat.zero_le 9, ?_, fun _ => rfl⟩⟩
    · intro pid other index alive
      cases alive
    · intro pid index copy alive
      cases alive
    · intro pid index copy alive
      cases alive
    · intro row member key
      exact counted row member key

/-! ## Two reports -/

/-- One generation is active, and just so. -/
def oneActive : GenerationState := ({} : GenerationState).mark_generation_started "generate" 0

def hostOf (capacity : Int) : Host := ⟨"", "cuda", "bfloat16", capacity⟩

/-- Its report, where so many generations may be active. -/
def reportOf (capacity : Int) : HttpResult :=
  ⟨200, ⟨"-", some (health_check (oneActive.snapshot true 60 1) (hostOf capacity))⟩, none⟩

def checkedBy (capacity : Int) : List ((World → World) × Choice) :=
  withChoices [{ http := reportOf capacity }]

theorem serves_oneActive {capacity : Int} (room : 1 ≤ capacity) : Serves oneActive (hostOf capacity) where
  consistent := ⟨rfl, rfl⟩
  capacity := room
  within := room

theorem executes_checkedBy (capacity : Int) (action : GateAction)
    (ran : ((checkHealth defaultConfig).runAmong (perform defaultConfig 0) (checkedBy capacity)
      World.empty).map (fun result => result.1.toOption.map fun health =>
        (decideForGenerate health 0).action) = some (some action)) :
    ∃ trace health after, Executes (amid defaultConfig 0) (checkHealth defaultConfig) World.empty
      trace (.ok health) after ∧ Receives trace (reportOf capacity) ∧
      (decideForGenerate health 0).action = action := by
  obtain ⟨reply, after, ran, observed⟩ : ∃ reply after,
      Executes (amid defaultConfig 0) (checkHealth defaultConfig) World.empty
        ((checkHealth defaultConfig).performed (perform defaultConfig 0) (checkedBy capacity) World.empty)
        reply after ∧
      (reply.toOption.map fun health => (decideForGenerate health 0).action) = some action :=
    Prog.executes_of_observed (fun _ _ _ => trivial) ran
  cases reply with
  | error thrown => cases observed
  | ok health => exact ⟨_, health, after, ran, ⟨_, _, _, _, rfl, rfl⟩, Option.some.inj observed⟩

/-- Two generations may be active: the next one may go ahead. And a deferral. -/
theorem health_gate_busy :
    (∃ trace health after, Executes (amid defaultConfig 0) (checkHealth defaultConfig) World.empty
      trace (.ok health) after ∧ (decideForGenerate health 0).action = .Proceed ∧
      ∀ retryCount, 0 ≤ retryCount → (decideForGenerate health retryCount).action =
        calledFor (oneActive.snapshot true 60 1) (hostOf 2) retryCount) ∧
    executions Stmt.isDeferral 1 (run (boot defaultConfig spentWorld) deferRun).view.log = 1 ∧
    executions Stmt.isDeferral 1 (run (boot defaultConfig spentWorld) deferRun).view.log ≤ 9 := by
  constructor
  · obtain ⟨trace, health, after, ran, received, proceeds⟩ := executes_checkedBy 2 .Proceed (by decide +kernel)
    obtain ⟨_, same, iff⟩ := (health_gate defaultConfig).1 oneActive true 60 1 (hostOf 2) 0 World.empty
      after trace _ _ (serves_oneActive (by decide)) ran received rfl
    cases same
    refine ⟨trace, health, after, ran, proceeds, iff.mpr ?_⟩
    intro _ _ _
    decide +kernel
  · refine ⟨by decide +kernel, (health_gate defaultConfig).2 spentWorld deferRun 1 ?_ ?_⟩
    · decide +kernel
    · decide +kernel

/-- So many generations may be active that the number does not fit: the task is deferred. -/
theorem health_gate_narrows : ∃ trace health after, Serves oneActive (hostOf 2147483648) ∧
    Executes (amid defaultConfig 0) (checkHealth defaultConfig) World.empty trace (.ok health) after ∧
    Receives trace (reportOf 2147483648) ∧
    (reportOf 2147483648).document =
      some (health_check (oneActive.snapshot true 60 1) (hostOf 2147483648)) ∧
    (decideForGenerate health 0).action = .Defer ∧
    calledFor (oneActive.snapshot true 60 1) (hostOf 2147483648) 0 = .Proceed := by
  obtain ⟨trace, health, after, ran, received, defers⟩ :=
    executes_checkedBy 2147483648 .Defer (by decide +kernel)
  exact ⟨trace, health, after, serves_oneActive (by decide), ran, received, rfl, defers, by decide +kernel⟩

end Text2Image
