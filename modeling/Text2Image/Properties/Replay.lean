import Text2Image.Properties.ExactIntegers
import Text2Image.Properties.FailedMutations

/-! A request that is sent again: what `create` makes of a request id it may know. -/

set_option autoImplicit false

namespace Text2Image

open Concurrency Concurrency.Prog ImageService

variable {config : Config} {pid : Nat} {world middle after : World} {trace : Trace}
variable {userId : Int} {payload : Json} {isAdmin : Bool}

/-! ## Known requests -/

def requestIdIn (payload : Json) : String := (trimmed (.fromJson payload)).request_id

/-- The user has a row with exactly this request id. -/
def Knows (t : ImageTable) (userId : Int) (requestId : String) : Prop :=
  ∃ row ∈ t.rows, row.user_id = userId ∧ row.request_id = requestId

/-- A known request is answered with its row and inserts nothing; any other inserts its
own row or is refused. -/
structure Replays (userId : Int) (requestId : String) (before after : ImageTable)
    (reply : ServiceResult ImageGeneration) : Prop where
  known : Knows before userId requestId → after = before ∧ ∃ row ∈ before.rows, row.user_id = userId ∧
    row.request_id = requestId ∧ reply = .ok (ImageRepo.rowToImageGeneration row)
  unknown : ¬ Knows before userId requestId → (∃ error, reply = .error error) ∨
    ∃ image row, reply = .ok image ∧ image.user_id = userId ∧ image.request_id = requestId ∧
      after.rows = before.rows ++ [row] ∧ row.user_id = userId ∧ row.request_id = requestId

/-- No statement that reads has failed. -/
def AnswersReads (trace : Trace) : Prop :=
  ∀ s choice met, (.sql s, choice, met) ∈ trace → s.isRead = true → choice.succeeds = true

/-- The user is at the limit of active tasks. -/
def AtLimit (config : Config) (userId : Int) (isAdmin : Bool) (t : ImageTable) : Prop :=
  (¬ isAdmin ∧ config.max_active_tasks_per_user > 0) ∧
    ((t.select fun row => row.user_id = userId ∧ row.isActive).length : Int) ≥
      config.max_active_tasks_per_user

/-- Some text that MySQL takes for the same id belongs to another request. -/
def Confused (t : ImageTable) (userId : Int) (requestId : String) : Prop :=
  ∃ row ∈ t.rows, row.user_id = userId ∧ collates row.request_id requestId = true ∧
    row.request_id ≠ requestId

instance (t : ImageTable) (userId : Int) (requestId : String) : Decidable (Knows t userId requestId) :=
  inferInstanceAs (Decidable (∃ row ∈ t.rows, row.user_id = userId ∧ row.request_id = requestId))

instance (config : Config) (userId : Int) (isAdmin : Bool) (t : ImageTable) :
    Decidable (AtLimit config userId isAdmin t) :=
  inferInstanceAs (Decidable ((¬ isAdmin ∧ config.max_active_tasks_per_user > 0) ∧
    ((t.select fun row => row.user_id = userId ∧ row.isActive).length : Int) ≥
      config.max_active_tasks_per_user))

instance (t : ImageTable) (userId : Int) (requestId : String) :
    Decidable (Confused t userId requestId) :=
  inferInstanceAs (Decidable (∃ row ∈ t.rows, row.user_id = userId ∧
    collates row.request_id requestId = true ∧ row.request_id ≠ requestId))

/-! ## Calls -/

theorem AnswersReads.left {first second : Trace} (answers : AnswersReads (first ++ second)) :
    AnswersReads first :=
  fun s choice met member => answers s choice met (List.mem_append_left _ member)

theorem AnswersReads.right {first second : Trace} (answers : AnswersReads (first ++ second)) :
    AnswersReads second :=
  fun s choice met member => answers s choice met (List.mem_append_right _ member)

/-- A reading statement that is answered. -/
theorem executes_answered {s : Stmt} {answer : RepoResult s.Answer}
    (ran : Executes (alone config pid) (sql s) world trace answer after) (reads : s.isRead = true)
    (answers : AnswersReads trace) :
    after.db = world.db ∧ ∃ pick, answer = .ok (s.answer world.db pick) := by
  obtain ⟨choice, met, _, rfl, same, settled⟩ := executes_read ran reads
  have succeeds := answers s choice met List.mem_cons_self reads
  rcases settled with ⟨_, answered⟩ | ⟨fails, _⟩
  · exact ⟨same, choice.pick, answered⟩
  · rw [succeeds] at fails
    cases fails

theorem executes_checkActiveTasks {refused : Option ServiceError}
    (ran : Executes (alone config pid) (checkActiveTasks config userId isAdmin) world trace refused after)
    (answers : AnswersReads trace) :
    after.db = world.db ∧ (refused = none ↔ ¬ AtLimit config userId isAdmin world.db) := by
  unfold checkActiveTasks at ran
  dsimp only at ran
  split at ran
  · rename_i counts
    obtain ⟨first, second, between, active, rfl, asks, ran⟩ := ran.of_bind
    obtain ⟨same, pick, rfl⟩ := executes_answered asks rfl answers.left
    dsimp only at ran
    split at ran
    · rename_i full
      obtain ⟨rfl, rfl, rfl⟩ := ran.of_done
      refine ⟨same, ?_⟩
      simp only [reduceCtorEq, false_iff, not_not]
      exact ⟨counts, full⟩
    · rename_i below
      obtain ⟨rfl, rfl, rfl⟩ := ran.of_done
      refine ⟨same, ?_⟩
      simp only [true_iff]
      exact fun limited => below limited.2
  · rename_i unlimited
    obtain ⟨rfl, rfl, rfl⟩ := ran.of_done
    refine ⟨rfl, ?_⟩
    simp only [true_iff]
    exact fun limited => unlimited limited.1

/-- The lookup finds some row of the user whose id MySQL takes for the given one, if
there is any. -/
theorem executes_findByRequestIdAndUserId {requestId : String}
    {result : RepoResult (Option ImageGeneration)}
    (ran : Executes (alone config pid) (ImageRepo.findByRequestIdAndUserId requestId userId) world trace
      result after) (answers : AnswersReads trace) :
    after.db = world.db ∧ ∃ found, result = .ok (found.map ImageRepo.rowToImageGeneration) ∧
      (∀ row ∈ found, row ∈ world.db.rows ∧ collates row.request_id requestId = true ∧
        row.user_id = userId) ∧ (found = none → ¬ Knows world.db userId requestId) := by
  obtain ⟨first, second, between, answer, rfl, asks, ran⟩ := ran.of_bind
  obtain ⟨same, pick, rfl⟩ := executes_answered asks rfl answers.left
  obtain ⟨rfl, rfl, rfl⟩ := ran.of_done
  refine ⟨same, _, rfl, fun row fetched => ?_, ?_⟩
  · obtain ⟨member, met⟩ := Keyed.Table.mem_select.mp (fetchOne_mem fetched)
    exact ⟨member, of_decide_eq_true met⟩
  · rintro nothing ⟨row, member, owned, same⟩
    have chosen : row ∈ world.db.select fun row =>
        collates row.request_id requestId ∧ row.user_id = userId :=
      Keyed.Table.mem_select.mpr ⟨member, by simp [same, owned]⟩
    obtain ⟨_, _, fetched⟩ := fetchOne_of_ne_nil (List.ne_nil_of_mem chosen) pick
    cases nothing.symm.trans fetched

/-- A request that is new inserts its own row, or is refused. -/
theorem executes_insert_new {generation : ImageGeneration} {reply : ServiceResult ImageGeneration}
    (ran : Executes (alone config pid) (ImageRepo.insert generation >>= afterInsert userId generation) world
      trace reply after) :
    (∃ error, reply = .error error) ∨ ∃ image row, reply = .ok image ∧
      image.user_id = generation.user_id ∧ image.request_id = generation.request_id ∧
      after.db.rows = world.db.rows ++ [row] ∧ row.user_id = generation.user_id ∧
      row.request_id = generation.request_id := by
  obtain ⟨inserting, later, between, result, rfl, inserted, goesOn⟩ := ran.of_bind
  cases result with
  | error error =>
    obtain ⟨rfl, rfl, rfl⟩ := goesOn.of_done
    exact .inl ⟨_, rfl⟩
  | ok insertedId =>
    rcases executes_insert inserted with ⟨_, error, impossible⟩ | row
    · cases impossible
    obtain ⟨idle, replied⟩ := (createAnnounces userId _).executes goesOn
    obtain ⟨_, _, _, ⟨createdAt, rfl⟩, became, _⟩ := row
    rcases replied with ⟨failed, _⟩ | ⟨rfl, _⟩
    · exact .inl failed
    · refine .inr ⟨_, { ImageRepo.insertValues generation createdAt with id := world.db.next }, rfl, rfl,
        rfl, ?_, rfl, rfl⟩
      rw [idle.same, became]
      rfl

/-- The user is over the limit only with new requests, and no other id passes for the
one that is given. -/
theorem replays_of_condition {reply : ServiceResult ImageGeneration} (known : 0 < userId)
    (valid : validationError (trimmed (.fromJson payload)) = none) (named : requestIdIn payload ≠ "")
    (limited : AtLimit config userId isAdmin world.db → ¬ Knows world.db userId (requestIdIn payload))
    (clear : ¬ AtLimit config userId isAdmin world.db → ¬ Confused world.db userId (requestIdIn payload))
    (ran : Executes (alone config pid) (create config userId payload isAdmin) world trace reply after)
    (answers : AnswersReads trace) :
    Replays userId (requestIdIn payload) world.db after.db reply := by
  unfold create at ran
  unfold requestIdIn at named limited clear ⊢
  generalize trimmed (.fromJson payload) = generation at *
  rw [if_neg (Int.not_le.mpr known)] at ran
  dsimp only at ran
  rw [valid] at ran
  obtain ⟨counting, rest, counted, refused, rfl, counts, ran⟩ := ran.of_bind
  obtain ⟨same, passes⟩ := executes_checkActiveTasks counts answers.left
  cases refused with
  | some error =>
    obtain ⟨rfl, rfl, rfl⟩ := ran.of_done
    have full : AtLimit config userId isAdmin world.db := by
      by_contra below
      cases passes.mpr below
    exact ⟨fun knows => absurd knows (limited full), fun _ => .inl ⟨_, rfl⟩⟩
  | none =>
    have clear := clear (passes.mp rfl)
    obtain ⟨timing, rest, timed, now, rfl, times, ran⟩ := ran.of_bind
    have sameTime : timed.db = counted.db := (prepared_of_only times prepares_readClock).idle.same
    have given : requestIdOf generation = .done generation.request_id := by
      unfold requestIdOf
      rw [if_neg (by simpa using named)]
      rfl
    rw [given, done_bind] at ran
    obtain ⟨finding, rest, searched, existing, rfl, finds, ran⟩ := ran.of_bind
    obtain ⟨sameRows, found, rfl, matches', missing⟩ :=
      executes_findByRequestIdAndUserId finds answers.right.right.left
    rw [sameTime, same] at sameRows matches' missing
    cases found with
    | some row =>
      obtain ⟨rfl, rfl, rfl⟩ := ran.of_done
      obtain ⟨member, collated, owned⟩ := matches' row rfl
      have same : row.request_id = generation.request_id := by
        by_contra differs
        exact clear ⟨row, member, owned, collated, differs⟩
      exact ⟨fun _ => ⟨sameRows, row, member, owned, same, rfl⟩,
        fun new => absurd ⟨row, member, owned, same⟩ new⟩
    | none =>
      have inserts := executes_insert_new ran
      rw [sameRows] at inserts
      exact ⟨fun knows => absurd knows (missing rfl), fun _ => inserts⟩

/-! ## Calls that go wrong -/

theorem AnswersReads.append {first second : Trace} (left : AnswersReads first)
    (right : AnswersReads second) : AnswersReads (first ++ second) := by
  intro s choice met member reads
  rcases List.mem_append.mp member with earlier | later
  · exact left s choice met earlier reads
  · exact right s choice met later reads

/-- A statement that is answered, with this choice among the rows. -/
theorem sql_runs (config : Config) (pid : Nat) (s : Stmt) (pick : Nat) (world : World) :
    ∃ trace after, Executes (alone config pid) (sql s) world trace (.ok (s.answer world.db pick)) after ∧
      AnswersReads trace := by
  have answers : AnswersReads [(.sql s, { pick := pick }, world)] := by
    intro sent choice met member _
    cases List.mem_singleton.mp member
    rfl
  exact ⟨_, _, .call ⟨rfl, rfl⟩ .done, answers⟩

/-- A call whose every operation succeeds comes to an end. -/
theorem runs_undisturbed {α : Type} (config : Config) (pid : Nat) (program : Program α) (world : World) :
    ∃ trace value after, Executes (alone config pid) program world trace value after ∧
      ∀ moment ∈ trace, moment.2.1 = {} := by
  induction program generalizing world with
  | done value => exact ⟨[], value, world, .done, by simp⟩
  | call op next ih =>
    obtain ⟨trace, value, after, ran, all⟩ := ih _ (perform config pid op {} world).2
    exact ⟨(op, {}, world) :: trace, value, after, .call ⟨rfl, rfl⟩ ran,
      List.forall_mem_cons.mpr ⟨rfl, all⟩⟩

theorem checkActiveTasks_runs (config : Config) (pid : Nat) (userId : Int) (isAdmin : Bool)
    (world : World) : ∃ trace refused after,
      Executes (alone config pid) (checkActiveTasks config userId isAdmin) world trace refused after ∧
        AnswersReads trace := by
  obtain ⟨trace, refused, after, ran, all⟩ :=
    runs_undisturbed config pid (checkActiveTasks config userId isAdmin) world
  refine ⟨trace, refused, after, ran, fun s choice met member _ => ?_⟩
  have chosen : choice = {} := all _ member
  rw [chosen]
  rfl

/-- At the limit the request is refused before anybody looks for it. -/
theorem create_refuses (config : Config) (pid : Nat) (known : 0 < userId)
    (valid : validationError (trimmed (.fromJson payload)) = none)
    (limited : AtLimit config userId isAdmin world.db) :
    ∃ trace error after, Executes (alone config pid) (create config userId payload isAdmin) world trace
      (.error error) after ∧ AnswersReads trace := by
  obtain ⟨trace, refused, after, checks, answers⟩ :=
    checkActiveTasks_runs config pid userId isAdmin world
  cases refused with
  | none => exact absurd limited ((executes_checkActiveTasks checks answers).2.mp rfl)
  | some error =>
    refine ⟨trace ++ [], error, after, ?_, by rwa [List.append_nil]⟩
    unfold create
    rw [if_neg (Int.not_le.mpr known)]
    dsimp only
    rw [valid]
    exact checks.bind .done

/-- Below the limit any row whose id MySQL takes for the given one may be returned. -/
theorem create_returns (config : Config) (pid : Nat) (known : 0 < userId)
    (valid : validationError (trimmed (.fromJson payload)) = none) (named : requestIdIn payload ≠ "")
    (free : ¬ AtLimit config userId isAdmin world.db) {row : Row} (member : row ∈ world.db.rows)
    (owned : row.user_id = userId) (collated : collates row.request_id (requestIdIn payload) = true) :
    ∃ trace after, Executes (alone config pid) (create config userId payload isAdmin) world trace
      (.ok (ImageRepo.rowToImageGeneration row)) after ∧ AnswersReads trace := by
  obtain ⟨checking, refused, checked, checks, passed⟩ :=
    checkActiveTasks_runs config pid userId isAdmin world
  obtain ⟨same, passes⟩ := executes_checkActiveTasks checks passed
  have nothing := passes.mpr free
  unfold create
  unfold requestIdIn at named collated
  generalize trimmed (.fromJson payload) = generation at *
  have given : requestIdOf generation = .done generation.request_id := by
    unfold requestIdOf
    rw [if_neg (by simpa using named)]
    rfl
  have chosen : row ∈ world.db.select fun row =>
      collates row.request_id generation.request_id ∧ row.user_id = userId :=
    Keyed.Table.mem_select.mpr ⟨member, by simp [collated, owned]⟩
  obtain ⟨pick, fetched⟩ := fetchOne_of_mem chosen
  obtain ⟨finding, after, finds, answers⟩ :=
    sql_runs config pid (.selectByRequestIdAndUserId generation.request_id userId) pick checked
  have found : (Stmt.selectByRequestIdAndUserId generation.request_id userId).answer checked.db pick =
      some row := by
    rw [same]
    exact fetched
  rw [found] at finds
  have looks : Executes (alone config pid) (ImageRepo.findByRequestIdAndUserId generation.request_id userId)
      checked (finding ++ []) (.ok (some (ImageRepo.rowToImageGeneration row))) after := finds.bind .done
  refine ⟨checking ++ ([(.now, ({} : Choice), checked)] ++ ((finding ++ []) ++ [])), after, ?_, ?_⟩
  · rw [if_neg (Int.not_le.mpr known)]
    dsimp only
    rw [valid]
    refine checks.bind ?_
    rw [nothing, given]
    refine Executes.bind (.call ⟨rfl, rfl⟩ .done) ?_
    rw [done_bind]
    exact Executes.bind looks .done
  · have silent : AnswersReads [(.now, ({} : Choice), checked)] := by
      intro s choice met member
      cases List.mem_singleton.mp member
    exact passed.append (silent.append (by rwa [List.append_nil, List.append_nil]))

/-- Requests are replayed exactly if a user at the limit sends only new ones and no
other id of a user below it passes for the one that is sent. -/
theorem create_replays (config : Config) (world : World) (userId : Int) (payload : Json) (isAdmin : Bool)
    (known : 0 < userId) (valid : validationError (trimmed (.fromJson payload)) = none)
    (named : requestIdIn payload ≠ "") :
    (∀ pid trace reply after,
      Executes (alone config pid) (create config userId payload isAdmin) world trace reply after →
      AnswersReads trace → Replays userId (requestIdIn payload) world.db after.db reply) ↔
      (AtLimit config userId isAdmin world.db → ¬ Knows world.db userId (requestIdIn payload)) ∧
        (¬ AtLimit config userId isAdmin world.db →
          ¬ Confused world.db userId (requestIdIn payload)) := by
  constructor
  · intro replays
    constructor
    · intro limited knows
      obtain ⟨trace, error, after, ran, answers⟩ := create_refuses config 0 known valid limited
      obtain ⟨_, _, _, _, _, replied⟩ := (replays 0 trace _ after ran answers).known knows
      cases replied
    · rintro free ⟨row, member, owned, collated, differs⟩
      obtain ⟨trace, after, ran, answers⟩ :=
        create_returns config 0 known valid named free member owned collated
      have replay := replays 0 trace _ after ran answers
      by_cases knows : Knows world.db userId (requestIdIn payload)
      · obtain ⟨_, other, _, _, same, replied⟩ := replay.known knows
        have ids := congrArg ImageGeneration.request_id (Except.ok.inj replied)
        exact differs (ids.trans same)
      · rcases replay.unknown knows with ⟨_, replied⟩ | ⟨image, _, replied, _, same, _⟩
        · cases replied
        · have ids := congrArg ImageGeneration.request_id (Except.ok.inj replied)
          exact differs (ids.trans same)
  · rintro ⟨limited, clear⟩ pid trace reply after ran answers
    exact replays_of_condition known valid named limited clear ran answers

/-- User 1 has one queued task, with this request id. -/
def oneRequested (requestId : String) : World :=
  { World.empty with
    db := Keyed.Table.empty.insert
      (fun id => { ImageRepo.insertValues
        { user_id := 1, request_id := requestId, prompt := "abc", status := .Queued } 0 with id := id }) rfl }

/-- Sent again as it was, with room for more tasks. -/
theorem create_replays_resent : ∃ trace reply after,
    Executes (alone defaultConfig 0) (create defaultConfig 1 (promptPayload "abc") false)
      (oneRequested "abc") trace reply after ∧
    Replays 1 "abc" (oneRequested "abc").db after.db reply ∧ Knows (oneRequested "abc").db 1 "abc" := by
  obtain ⟨trace, reply, after, ran, all⟩ := runs_undisturbed defaultConfig 0
    (create defaultConfig 1 (promptPayload "abc") false) (oneRequested "abc")
  have answers : AnswersReads trace := by
    intro s choice met member _
    have chosen : choice = {} := all _ member
    rw [chosen]
    rfl
  refine ⟨trace, reply, after, ran, ?_, by decide +kernel⟩
  refine (create_replays defaultConfig (oneRequested "abc") 1 (promptPayload "abc") false (by decide)
    (by decide +kernel) (by decide +kernel)).mpr ⟨?_, ?_⟩ 0 trace reply after ran answers
  · exact fun limited => absurd limited (by decide +kernel)
  · exact fun _ => by decide +kernel

def oneTaskOnly : Config := { defaultConfig with max_active_tasks_per_user := 1 }

/-- The same request is refused at the limit, and another one passes for it where the
two differ in case only. -/
theorem create_replays_wrongly :
    (∃ trace reply after,
      Executes (alone oneTaskOnly 0) (create oneTaskOnly 1 (promptPayload "abc") false)
        (oneRequested "abc") trace reply after ∧
      AnswersReads trace ∧ ¬ Replays 1 "abc" (oneRequested "abc").db after.db reply) ∧
    ∃ trace reply after,
      Executes (alone defaultConfig 0) (create defaultConfig 1 (promptPayload "abc") false)
        (oneRequested "ABC") trace reply after ∧
      AnswersReads trace ∧ ¬ Replays 1 "abc" (oneRequested "ABC").db after.db reply := by
  constructor
  · obtain ⟨trace, error, after, ran, answers⟩ : ∃ trace error after,
        Executes (alone oneTaskOnly 0) (create oneTaskOnly 1 (promptPayload "abc") false)
          (oneRequested "abc") trace (.error error) after ∧ AnswersReads trace :=
      create_refuses oneTaskOnly 0 (by decide) (by decide +kernel) (by decide +kernel)
    refine ⟨trace, _, after, ran, answers, fun replays => ?_⟩
    obtain ⟨_, _, _, _, _, replied⟩ := replays.known (by decide +kernel)
    cases replied
  · obtain ⟨row, member, owned, collated, differs⟩ : Confused (oneRequested "ABC").db 1 "abc" := by
      decide +kernel
    obtain ⟨trace, after, ran, answers⟩ : ∃ trace after,
        Executes (alone defaultConfig 0) (create defaultConfig 1 (promptPayload "abc") false)
          (oneRequested "ABC") trace (.ok (ImageRepo.rowToImageGeneration row)) after ∧
        AnswersReads trace :=
      create_returns defaultConfig 0 (by decide) (by decide +kernel) (by decide +kernel)
        (by decide +kernel) member owned collated
    refine ⟨trace, _, after, ran, answers, fun replays => ?_⟩
    rcases replays.unknown (by decide +kernel) with ⟨_, replied⟩ | ⟨image, _, replied, _, same, _⟩
    · cases replied
    · have ids := congrArg ImageGeneration.request_id (Except.ok.inj replied)
      exact differs (ids.trans same)

end Text2Image
