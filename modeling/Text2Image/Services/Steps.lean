import Text2Image.Database.Effect
import Text2Image.Services.WorkerProtocol

/-! What one step of the backend does to the table and to the lease keepers. -/

set_option autoImplicit false

namespace Text2Image

open Concurrency System TaskStatus

variable {config : Config}

/-- A world in which no backend process runs yet. -/
def boot (config : Config) (world : World) : (backend config).State :=
  System.initial { world with keepers := [] }

/-- The rows of the table in this state. -/
def rowsOf (state : (backend config).State) : List Row := state.view.world.db.rows

/-- The protocol of every call. -/
abbrev protocols (config : Config) (call : (backend config).Call) : Protocol (backend config).I :=
  Call.protocol config call

theorem follows_run (world : World) (labels : List (backend config).Label) :
    (run (boot config world) labels).Follows (protocols config) :=
  (State.follows_initial _).run (backend_obeys config) labels

/-! ## Lease keepers -/

theorem mem_withoutKeepers {world : World} {pid : Nat} {keeper : Keeper}
    (member : keeper ∈ (world.withoutKeepers pid).keepers) : keeper ∈ world.keepers :=
  (List.mem_filter.mp member).1

theorem mem_keeperAfter {world : World} {pid : Nat} {statement : Stmt} {keeper : Keeper}
    (member : keeper ∈ (keeperAfter pid statement world).keepers) : keeper ∈ world.keepers := by
  unfold keeperAfter at member
  split at member
  · split at member
    · exact mem_withoutKeepers member
    · exact member
  · exact member

theorem commit_keepers (world : World) (pid : Nat) (statement : Stmt) :
    (world.commit pid statement).keepers = world.keepers := by
  unfold World.commit
  split <;> rfl

/-- A keeper is there before the operation, or the operation starts it. -/
theorem mem_perform_keepers {world : World} {pid : Nat} {op : Op} {choice : Choice} {keeper : Keeper}
    (member : keeper ∈ (perform config pid op choice world).2.keepers) :
    keeper ∈ world.keepers ∨
      op = .startLeaseKeeper keeper.taskId keeper.userId keeper.workerId ∧ keeper.owner = pid := by
  cases op with
  | sql statement =>
    simp only [perform] at member
    cases outcome : choice.outcome with
    | done =>
      simp only [outcome, commit_keepers] at member
      exact .inl (mem_keeperAfter member)
    | failed =>
      simp only [outcome] at member
      exact .inl member
    | lost =>
      simp only [outcome, commit_keepers] at member
      exact .inl member
  | cacheSetex | cacheDel | bumpVersion | enqueueTask | rebuildTaskQueue | dequeueTask
  | removeFromQueue | acquireLease | releaseLease | forceReleaseLease | putObject
  | deleteObject =>
    left
    simp only [perform] at member
    split at member <;> exact member
  | startLeaseKeeper taskId userId workerId =>
    simp only [perform] at member
    rcases List.mem_cons.mp member with rfl | old
    · exact .inr ⟨rfl, rfl⟩
    · exact .inl old
  | stopLeaseKeeper => exact .inl (mem_withoutKeepers member)
  | _ => exact .inl member

variable {S : System} {pid : Nat} {log : List S.Entry} {entry : S.Entry} {call : S.Call}

theorem live_cons (alive : live pid (entry :: log) = some call) :
    (entry = .started pid call) ∨ live pid log = some call := by
  cases entry with
  | started other started =>
    simp only [live] at alive
    split at alive
    · rename_i same
      cases alive
      exact .inl (same ▸ rfl)
    · exact .inr alive
  | performed event => exact .inr alive
  | returned other reply =>
    simp only [live] at alive
    split at alive
    · cases alive
    · exact .inr alive
  | crashed other =>
    simp only [live] at alive
    split at alive
    · cases alive
    · exact .inr alive

theorem mem_of_live (alive : live pid log = some call) : .started pid call ∈ log := by
  induction log with
  | nil => cases alive
  | cons entry log ih =>
    rcases live_cons alive with rfl | before
    · exact List.mem_cons_self
    · exact List.mem_cons_of_mem _ (ih before)

theorem history_unperformed (unperformed : ∀ event, entry ≠ .performed event) :
    history pid (entry :: log) = history pid log := by
  cases entry with
  | performed event => exact (unperformed event rfl).elim
  | _ => rfl

/-- An operation is news to the process that performs it, and to no other. -/
theorem history_performs (view : S.View) (pid : Nat) (call : S.Call) (helper : Bool) (op : S.I.Op)
    (choice : S.Choice) (other : Nat) :
    (other = pid ∧ history other (view.performs pid call helper op choice).log =
      ⟨op, (S.perform pid op choice view.world).1⟩ :: history other view.log) ∨
    history other (view.performs pid call helper op choice).log = history other view.log := by
  cases helper with
  | true => exact .inr (history_helper view call op choice)
  | false =>
    by_cases same : other = pid
    · subst same
      exact .inl ⟨rfl, history_own other view call op choice⟩
    · have news := NewsOf.cons (.performed (view.event pid call false op choice)) view.log
      exact .inr (news.history other same)

theorem history_cons : history pid log ⊆ history pid (entry :: log) := by
  intro taken member
  cases entry with
  | performed event =>
    simp only [history]
    split
    · exact List.mem_cons_of_mem _ member
    · exact member
  | _ => exact member

/-- A keeper's owner has been started and, while it runs, is a worker turn
that works on the keeper's task under the keeper's name. -/
structure KeeperOwned (config : Config) (log : List (backend config).Entry) (keeper : Keeper) :
    Prop where
  started : ∃ entry ∈ log, entry.pid = keeper.owner
  turn : ∀ call, live keeper.owner log = some call → ∃ index row, call = .workerTurn index ∧
    keeper.workerId = TaskEngine.workerId config index ∧
    Claimed keeper.workerId (history keeper.owner log) row ∧
    keeper.taskId = row.id ∧ keeper.userId = row.user_id

theorem KeeperOwned.cons {log : List (backend config).Entry} {keeper : Keeper}
    (owned : KeeperOwned config log keeper) (entry : (backend config).Entry)
    (unused : ∀ call, entry = .started keeper.owner call → False) :
    KeeperOwned config (entry :: log) keeper := by
  obtain ⟨first, member, same⟩ := owned.started
  refine ⟨⟨first, List.mem_cons_of_mem _ member, same⟩, ?_⟩
  intro call alive
  rcases live_cons alive with started | before
  · exact (unused call started).elim
  · obtain ⟨index, row, turn, named, claimed, task, user⟩ := owned.turn call before
    exact ⟨index, row, turn, named, claimed.grow history_cons, task, user⟩

def KeepersOwned (config : Config) (view : (backend config).View) : Prop :=
  ∀ keeper ∈ view.world.keepers, KeeperOwned config view.log keeper

theorem keepersOwned_preserved : Preserved (protocols config) .free
    (KeepersOwned config) where
  performed view pid call op choice _ owned alive allowed _ := by
    intro keeper member
    have grown : ∀ keeper, KeeperOwned config view.log keeper → KeeperOwned config
        (view.performs pid call false op choice).log keeper :=
      fun keeper before => before.cons _ (fun _ same => by cases same)
    rcases mem_perform_keepers member with old | ⟨rfl, own⟩
    · exact grown keeper (owned keeper old)
    · obtain ⟨index, row, turn, named, claimed, task, user⟩ := allowed
      have recorded : history keeper.owner view.log ⊆
          history keeper.owner (view.performs pid call false
            (.startLeaseKeeper keeper.taskId keeper.userId keeper.workerId) choice).log := history_cons
      refine ⟨⟨_, List.mem_cons_self, own.symm⟩, fun other alive' => ?_⟩
      have alive'' : live keeper.owner view.log = some other := alive'
      rw [own, alive] at alive''
      cases alive''
      rw [← own] at claimed
      exact ⟨index, row, turn, named, claimed.grow recorded, task, user⟩
  background view pid call op choice _ owned alive permitted _ := by
    intro keeper member
    rcases mem_perform_keepers member with old | ⟨rfl, _⟩
    · exact (owned keeper old).cons _ (fun _ same => by cases same)
    · cases permitted
  started view pid call owned unused _ := by
    intro keeper member
    refine (owned keeper member).cons _ fun other same => ?_
    obtain ⟨first, present, same'⟩ := (owned keeper member).started
    injection same with fresh
    exact unused first present (same'.trans fresh.symm)
  returned view pid reply owned := by
    intro keeper member
    exact (owned keeper member).cons _ (fun _ same => by cases same)
  crashed view pid owned := by
    intro keeper member
    exact (owned keeper (mem_withoutKeepers member)).cons _ (fun _ same => by cases same)
  env view event owned := by
    intro keeper member
    cases event <;> exact owned keeper member

theorem keepersOwned_run (world : World) (labels : List (backend config).Label) :
    KeepersOwned config (run (boot config world) labels).view := by
  have none : KeepersOwned config (boot config world).view := by
    intro keeper member
    cases member
  exact (keepersOwned_preserved.upheld (backend_obeys config)).run _ [] labels none (meets_free _ _)

/-! ## The table -/

/-- The statements issued on behalf of a call: its own, and those of its lease keeper. -/
inductive Issued (config : Config) : Call → Stmt → Prop where
  | sent {call : Call} {past : Past} {s : Stmt} (sends : call.sends config past s) :
      Issued config call s
  | renewed (index : Nat) (expiresAt : DbTime) (id userId : Int) (workerId : String) :
      Issued config (.workerTurn index) (.renewLease expiresAt id userId workerId)

/-- What a step may do to the table, given what it performs for whom. -/
inductive TableStep (config : Config) : Option (Call × Op) → ImageTable → ImageTable → Prop where
  | same (acts : Option (Call × Op)) (t : ImageTable) : TableStep config acts t t
  | wrote {call : Call} {s : Stmt} (issued : Issued config call s) (t : ImageTable) :
      TableStep config (some (call, .sql s)) t (s.table t)

theorem leaseKeeperMay_iff {pid : Nat} {op : Op} {world : World} :
    leaseKeeperMay config pid op world = true ↔
      (∃ keeper ∈ world.keepers, keeper.owner = pid ∧
        op = .renewRedisLease keeper.taskId keeper.workerId) ∨
      ∃ keeper ∈ world.keepers, keeper.owner = pid ∧
        op = .sql (.renewLease
          (Chrono.toDbTime (world.clock + leaseDuration config.lease_seconds))
          keeper.taskId keeper.userId keeper.workerId) := by
  constructor
  · intro permitted
    unfold leaseKeeperMay at permitted
    split at permitted
    · left
      obtain ⟨keeper, member, keeps⟩ := List.any_eq_true.mp permitted
      simp only [Keeper.keeps, decide_eq_true_eq] at keeps
      obtain ⟨owner, task, worker⟩ := keeps
      exact ⟨keeper, member, owner, by rw [task, worker]⟩
    · right
      simp only [decide_eq_true_eq, List.any_eq_true] at permitted
      obtain ⟨⟨keeper, member, keeps, user⟩, expires⟩ := permitted
      simp only [Keeper.keeps, decide_eq_true_eq] at keeps
      obtain ⟨owner, task, worker⟩ := keeps
      exact ⟨keeper, member, owner, by rw [task, worker, user, expires]⟩
    · cases permitted
  · rintro (⟨keeper, member, rfl, rfl⟩ | ⟨keeper, member, rfl, rfl⟩)
    · simp only [leaseKeeperMay, List.any_eq_true]
      exact ⟨keeper, member, by simp [Keeper.keeps]⟩
    · simp only [leaseKeeperMay, List.any_eq_true, decide_eq_true_eq]
      exact ⟨⟨keeper, member, by simp [Keeper.keeps], rfl⟩, trivial⟩

/-- An operation a call may perform, as far as the table is concerned. -/
theorem TableStep.performed {call : Call} {past : Past} {op : Op}
    (allowed : call.protocol config past op) (pid : Nat) (choice : Choice) (world : World) :
    TableStep config (some (call, op)) world.db (perform config pid op choice world).2.db := by
  rcases perform_db config pid op choice world with same | ⟨s, rfl, changed⟩
  · rw [same]
    exact .same _ _
  · rw [changed]
    exact .wrote (.sent allowed) _

/-- An operation of a lease keeper: a renewal on behalf of a worker turn. -/
theorem TableStep.background {view : (backend config).View} (owned : KeepersOwned config view)
    {pid : Nat} {call : Call} (alive : live pid view.log = some call) {op : Op}
    (permitted : leaseKeeperMay config pid op view.world = true) (choice : Choice) :
    TableStep config (some (call, op)) view.world.db
      (perform config pid op choice view.world).2.db := by
  rcases leaseKeeperMay_iff.mp permitted with ⟨keeper, member, own, rfl⟩ | ⟨keeper, member, own, rfl⟩
  · exact .same _ _
  · rw [← own] at alive
    obtain ⟨index, _, rfl, _⟩ := (owned keeper member).turn call alive
    rcases perform_db config pid (.sql (.renewLease _ keeper.taskId keeper.userId keeper.workerId))
      choice view.world with same | ⟨s, sql, changed⟩
    · rw [same]
      exact .same _ _
    · cases sql
      rw [changed]
      exact .wrote (.renewed _ _ _ _ _) _

/-- One step of a run, as far as the table is concerned. -/
theorem table_step {state : (backend config).State} (follows : state.Follows (protocols config))
    (owned : KeepersOwned config state.view) (label : (backend config).Label) :
    TableStep config (acting state label) state.view.world.db
      (step state label).view.world.db := by
  cases label with
  | start call =>
    simp only [step, State.settle_world, View.push_world]
    exact .same _ _
  | act pid choice =>
    cases running : state.process pid with
    | none =>
      simp only [step, acting, running]
      exact .same _ _
    | some process =>
      obtain ⟨call, rest⟩ := process
      cases rest with
      | done reply =>
        simp only [step, acting, running]
        exact .same _ _
      | call op next =>
        simp only [step, acting, running, State.settle_world]
        exact .performed (follows.rest pid _ running).allowed pid choice state.view.world
  | background pid op choice =>
    cases running : state.process pid with
    | none =>
      simp only [step, acting, running]
      exact .same _ _
    | some process =>
      simp only [step, acting, running]
      split
      · rename_i permitted
        exact .background owned (follows.live pid process running) permitted choice
      · exact .same _ _
  | crash pid =>
    simp only [step]
    split <;> exact .same _ _
  | env event => cases event <;> exact .same _ _

/-! ## Invariants of the backend -/

/-- What a process, or the lease keeper it has started, may perform now. -/
def Acts (config : Config) (view : (backend config).View) (pid : Nat) (call : Call) (op : Op) :
    Bool → Prop
  | false => call.protocol config (history pid view.log) op
  | true => leaseKeeperMay config pid op view.world = true

theorem Acts.tableStep {view : (backend config).View} {pid : Nat} {call : Call} {op : Op}
    {helper : Bool} (may : Acts config view pid call op helper) (owned : KeepersOwned config view)
    (alive : live pid view.log = some call) (choice : Choice) :
    TableStep config (some (call, op)) view.world.db
      (view.performs pid call helper op choice).world.db := by
  cases helper with
  | false => exact .performed may pid choice view.world
  | true => exact .background owned alive may choice

/-- What may happen without an operation: keepers end, cache entries and Redis
leases expire, time passes. -/
structure World.Settles (before after : World) : Prop where
  db : after.db = before.db
  session : after.session = before.session
  objects : after.objects = before.objects
  queue : after.queue = before.queue
  cache : ∀ key, after.cache key = none ∨ after.cache key = before.cache key

theorem World.Settles.refl (world : World) : world.Settles world :=
  ⟨rfl, rfl, rfl, rfl, fun _ => .inr rfl⟩

theorem World.settles_withoutKeepers (world : World) (pid : Nat) :
    world.Settles (world.withoutKeepers pid) := ⟨rfl, rfl, rfl, rfl, fun _ => .inr rfl⟩

theorem World.settles_env (world : World) (event : Env) : world.Settles (event.apply world) := by
  cases event with
  | cacheExpires key =>
    refine ⟨rfl, rfl, rfl, rfl, fun other => ?_⟩
    by_cases same : other = key
    · exact .inl (by rw [same]; simp [Env.apply, World.withCache])
    · exact .inr (by simp [Env.apply, World.withCache, Function.update_of_ne same])
  | _ => exact ⟨rfl, rfl, rfl, rfl, fun _ => .inr rfl⟩

/-- An invariant of the backend: kept by every operation that may be performed,
and by everything that happens without one. -/
structure Kept (config : Config) (condition : Condition (backend config))
    (inv : (backend config).View → Prop) : Prop where
  acts : ∀ view pid call helper op choice, AllGenuine view.log → KeepersOwned config view →
    inv view → live pid view.log = some call → Acts config view pid call op helper →
    condition.performs pid call op choice view → inv (view.performs pid call helper op choice)
  started : ∀ view pid call, inv view → (∀ entry ∈ view.log, entry.pid ≠ pid) →
    condition.starts call view → inv (view.push (.started pid call))
  quiet : ∀ (view : (backend config).View) entry after, inv view → view.world.Settles after →
    (∀ pid call, entry ≠ .started pid call) → (∀ event, entry ≠ .performed event) →
    inv ⟨after, entry :: view.log⟩
  passes : ∀ (view : (backend config).View) after, inv view → view.world.Settles after →
    inv ⟨after, view.log⟩

/-- The same, where programs are followed as far as their answers have led them. -/
structure Upkept (config : Config) (condition : Condition (backend config))
    (inv : (backend config).View → Prop) : Prop where
  acts : ∀ view pid call helper op choice, AllGenuine view.log → KeepersOwned config view →
    inv view → live pid view.log = some call → Acts config view pid call op helper →
    (helper = false → AsksFor (backend config) call (history pid view.log) op) →
    condition.performs pid call op choice view → inv (view.performs pid call helper op choice)
  started : ∀ view pid call, inv view → (∀ entry ∈ view.log, entry.pid ≠ pid) →
    condition.starts call view → inv (view.push (.started pid call))
  returned : ∀ view pid call reply, inv view → live pid view.log = some call →
    (call.program config).Leads (history pid view.log) (.done reply) →
    inv (view.push (.returned pid reply))
  crashed : ∀ view pid, inv view → inv ⟨view.world.withoutKeepers pid, .crashed pid :: view.log⟩
  passes : ∀ (view : (backend config).View) after, inv view → view.world.Settles after →
    inv ⟨after, view.log⟩

theorem Kept.upkept {condition : Condition (backend config)} {inv : (backend config).View → Prop}
    (kept : Kept config condition inv) : Upkept config condition inv where
  acts view pid call helper op choice genuine owned holds alive may _ meets :=
    kept.acts view pid call helper op choice genuine owned holds alive may meets
  started := kept.started
  returned view pid call reply holds _ _ := by
    refine kept.quiet view _ _ holds (World.Settles.refl _) ?_ ?_
    · intro pid call same
      cases same
    · intro event same
      cases same
  crashed view pid holds := by
    refine kept.quiet view _ _ holds (World.settles_withoutKeepers _ pid) ?_ ?_
    · intro pid call same
      cases same
    · intro event same
      cases same
  passes := kept.passes

theorem Upkept.upheld {condition : Condition (backend config)} {inv : (backend config).View → Prop}
    (upkept : Upkept config condition inv) :
    Upheld condition fun view => KeepersOwned config view ∧ inv view := by
  have keepers := (@keepersOwned_preserved config).upheld (backend_obeys config)
  constructor
  · rintro view pid call op next choice genuine ⟨owned, holds⟩ alive leads meets
    have may : Acts config view pid call op false := (backend_obeys config call).of_leads leads |>.allowed
    exact ⟨keepers.performed view pid call op next choice genuine owned alive leads trivial,
      upkept.acts view pid call false op choice genuine owned holds alive may (fun _ => ⟨next, leads⟩)
        meets⟩
  · rintro view pid call op choice genuine ⟨owned, holds⟩ alive permitted meets
    refine ⟨keepers.background view pid call op choice genuine owned alive permitted trivial,
      upkept.acts view pid call true op choice genuine owned holds alive permitted ?_ meets⟩
    intro program
    cases program
  · rintro view pid call ⟨owned, holds⟩ unused begins
    exact ⟨keepers.started view pid call owned unused trivial,
      upkept.started view pid call holds unused begins⟩
  · rintro view pid call reply ⟨owned, holds⟩ alive leads
    exact ⟨keepers.returned view pid call reply owned alive leads,
      upkept.returned view pid call reply holds alive leads⟩
  · rintro view pid ⟨owned, holds⟩
    exact ⟨keepers.crashed view pid owned, upkept.crashed view pid holds⟩
  · rintro view event ⟨owned, holds⟩ _
    exact ⟨keepers.env view event owned trivial, upkept.passes view _ holds (World.settles_env _ event)⟩

/-- Continuing a run keeps the invariant. -/
theorem Upkept.run_from {condition : Condition (backend config)} {inv : (backend config).View → Prop}
    (upkept : Upkept config condition inv) (world : World) (first : List (backend config).Label)
    (holds : inv (System.run (boot config world) first).view)
    (second : List (backend config).Label)
    (meets : Meets condition (System.run (boot config world) first) second) :
    inv (System.run (System.run (boot config world) first) second).view :=
  (upkept.upheld.run _ first second ⟨keepersOwned_run world first, holds⟩ meets).2

/-- An invariant that holds at the start holds in every state of every run that
meets the condition. -/
theorem Upkept.run {condition : Condition (backend config)} {inv : (backend config).View → Prop}
    (upkept : Upkept config condition inv) {world : World} (start : inv (boot config world).view)
    (labels : List (backend config).Label) (meets : Meets condition (boot config world) labels) :
    inv (System.run (boot config world) labels).view :=
  upkept.run_from world [] start labels meets

/-- Continuing a run keeps the invariant. -/
theorem Kept.run_from {condition : Condition (backend config)} {inv : (backend config).View → Prop}
    (kept : Kept config condition inv) (world : World) (first : List (backend config).Label)
    (holds : inv (System.run (boot config world) first).view)
    (second : List (backend config).Label)
    (meets : Meets condition (System.run (boot config world) first) second) :
    inv (System.run (System.run (boot config world) first) second).view :=
  kept.upkept.run_from world first holds second meets

/-- An invariant that holds at the start holds in every state of every run that
meets the condition. -/
theorem Kept.run {condition : Condition (backend config)} {inv : (backend config).View → Prop}
    (kept : Kept config condition inv) {world : World} (start : inv (boot config world).view)
    (labels : List (backend config).Label) (meets : Meets condition (boot config world) labels) :
    inv (System.run (boot config world) labels).view :=
  kept.run_from world [] start labels meets

theorem boot_meets {good : Call → Prop} (world : World) (labels : List (backend config).Label)
    (started : ∀ call : Call, .start call ∈ labels → good call) :
    Meets (.starting good) (boot config world) labels := by
  refine meets_starting ?_ labels started
  intro pid process found
  cases found

/-- A property of the table that the statements of the calls of one kind keep
holds throughout every run of such calls. -/
theorem table_invariant {good : Call → Prop} {inv : ImageTable → Prop}
    (kept : ∀ call op t t', good call → TableStep config (some (call, op)) t t' → inv t → inv t')
    (world : World) (start : inv world.db) (labels : List (backend config).Label)
    (started : ∀ call, .start call ∈ labels → good call) :
    inv (run (boot config world) labels).view.world.db := by
  have all_kept : Kept config (.starting good) fun view => inv view.world.db := by
    constructor
    · rintro view pid call helper op choice _ owned holds alive may kind
      exact kept call op _ _ kind (may.tableStep owned alive choice) holds
    · rintro view pid call holds _ _
      exact holds
    · rintro view entry after holds settles _ _
      exact settles.db ▸ holds
    · rintro view after holds settles
      exact settles.db ▸ holds
  exact all_kept.run start labels (boot_meets world labels started)

end Text2Image
