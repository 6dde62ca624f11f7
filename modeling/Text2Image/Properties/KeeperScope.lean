import Text2Image.Concurrency.Scope
import Text2Image.Properties.QueueDrain

/-! How long a lease keeper lives: no longer than the turn that has started it. -/

set_option autoImplicit false

namespace Text2Image

open Concurrency Concurrency.Prog

variable {config : Config}

def World.keepersOf (world : World) (pid : Nat) : List Keeper := world.keepers.filter fun keeper => keeper.owner = pid

/-- Whether the process has a keeper, after the operation. It starts none beside another. -/
def keeperMoves : Op → Bool → Option Bool
  | .startLeaseKeeper .., held => if held then none else some true
  | .stopLeaseKeeper, _ => some false
  | _, held => some held

/-- Keepers: a process has at most one, and a keeper may end by itself. -/
def keeperScope (config : Config) : Scope (backend config) Bool where
  moves := keeperMoves
  within world pid held := (world.keepersOf pid).length ≤ held.toNat
  idle := false

theorem Unmoving.moves {op : Op} (unmoving : Unmoving op) (held : Bool) : keeperMoves op held = some held := by
  cases op with
  | startLeaseKeeper | stopLeaseKeeper => cases unmoving
  | _ => rfl

variable {α β : Type}

theorem settles_of_unmoving {program : Program α} (only : program.Only Unmoving) (held : Bool) :
    program.Settles keeperMoves held held :=
  only.settles fun _ unmoving => unmoving.moves held

/-- A program whose protocol starts no keeper. -/
theorem settles_of_follows {P : Protocol interface} {post : List (Taken interface) → α → Prop}
    {program : Program α} {past : List (Taken interface)} (follows : program.Follows P post past)
    (never : ∀ past op, P past op → keeperMoves op false = some false) : program.Settles keeperMoves false false := by
  induction follows with
  | done holds => exact rfl
  | call allowed rest ih => exact ⟨false, never _ _ allowed, ih⟩

/-! ## The calls of the backend -/

namespace TaskEngine

theorem unmoving_finishGeneration (task result : ImageGeneration) (workerId : String) :
    (finishGeneration task result workerId).Only Unmoving := by
  refine (only_updates _ rfl (by trivial)).bind fun finished => ?_
  refine (unmoving_of_bystander (bystander_releaseRedisLease _ workerId)).bind fun _ => ?_
  split
  · exact unmoving_of_bystander ((bystander_invalidateAllForTask _ _).bind fun _ => bystander_publish _)
  · exact (unmoving_of_bystander (GenerationClient.bystander_cleanupOrphanedStoredImage result)).bind fun _ => trivial

theorem settles_generateUnderLease (task : ImageGeneration) (workerId : String) :
    (generateUnderLease config task workerId).Settles keeperMoves false false := by
  have stops : ∀ outcome : Except Thrown Unit,
      (stopLeaseKeeper >>= fun _ => (.done outcome : Program (Except Thrown Unit))).Settles keeperMoves false true :=
    fun outcome => ⟨false, rfl, fun _ => rfl⟩
  refine ⟨true, rfl, fun _ => ?_⟩
  -- the keeper is joined whether the generation throws or not
  change (GenerationClient.generate config task >>= _).Settles keeperMoves false true
  have generates : (GenerationClient.generate config task).Only Unmoving :=
    unmoving_of_bystander (GenerationClient.bystander_generate task)
  refine (settles_of_unmoving generates true).bind fun generated => ?_
  cases generated with
  | error thrown => exact stops _
  | ok result =>
    exact (settles_of_unmoving (unmoving_finishGeneration task result workerId) true).bind fun outcome => stops outcome

theorem unmoving_claimTaskById (taskId : Int) (workerId : String) (leaseSeconds : Int) :
    (ImageRepo.claimTaskById taskId workerId leaseSeconds).Only Unmoving := by
  refine Only.bind ⟨trivial, fun _ => trivial⟩ fun now => ?_
  refine (only_updates _ rfl (by trivial)).bind fun changed => ?_
  split
  · trivial
  · trivial
  refine (only_sql _ (by trivial)).bind fun answer => ?_
  cases answer <;> trivial

theorem unmoving_claimNextTask (workerId : String) (leaseSeconds : Int) :
    (ImageRepo.claimNextTask workerId leaseSeconds).Only Unmoving := by
  refine Only.bind ⟨trivial, fun _ => trivial⟩ fun now => ?_
  refine (only_updates _ rfl (by trivial)).bind fun changed => ?_
  split
  · trivial
  · trivial
  refine (only_sql _ (by trivial)).bind fun answer => ?_
  cases answer <;> trivial

theorem unmoving_claim (workerId : String) : (claim config workerId).Only Unmoving := by
  refine Only.bind ⟨trivial, fun _ => trivial⟩ fun up => ?_
  cases up with
  | false =>
    refine (unmoving_claimNextTask workerId config.lease_seconds).bind fun answer => ?_
    split <;> trivial
  | true =>
    refine Only.bind ⟨trivial, fun _ => trivial⟩ fun queued => ?_
    cases queued with
    | none => trivial
    | some taskId =>
      refine Only.bind ⟨trivial, fun _ => trivial⟩ fun acquired => ?_
      cases acquired with
      | false => trivial
      | true =>
        refine (unmoving_claimTaskById taskId workerId config.lease_seconds).bind fun answer => ?_
        split
        · trivial
        · exact Only.bind ⟨trivial, fun _ => trivial⟩ fun _ => trivial

theorem settles_workerTurn (workerId : String) : (workerTurn config workerId).Settles keeperMoves false false := by
  refine (settles_of_unmoving (unmoving_claim workerId) false).bind fun claimed => ?_
  cases claimed with
  | none => exact rfl
  | some task =>
    have drops := unmoving_of_bystander (bystander_invalidateAllForTask task.user_id task.id)
    refine (settles_of_unmoving drops false).bind fun _ => ?_
    refine (settles_of_unmoving (unmoving_of_bystander (bystander_publish task)) false).bind fun published => ?_
    cases published with
    | error thrown => exact rfl
    | ok _ =>
      refine (settles_of_unmoving (unmoving_applyModelHealthGate workerId) false).bind fun gate => ?_
      match gate with
      | .error thrown => exact rfl
      | .ok false => exact rfl
      | .ok true => exact settles_generateUnderLease task workerId

end TaskEngine

theorem settles_call (call : Call) : ((backend config).program call).Settles keeperMoves false false := by
  cases call with
  | workerTurn index => exact (TaskEngine.settles_workerTurn (TaskEngine.workerId config index)).bind fun _ => rfl
  | _ =>
    -- only the protocol of a worker's turn starts a keeper
    refine settles_of_follows (backend_obeys config _) fun past op allowed => ?_
    cases op with
    | startLeaseKeeper taskId userId workerId =>
      obtain ⟨index, row, turn, _⟩ := allowed
      cases turn
    | _ => rfl

/-! ## One operation -/

theorem World.keepersOf_length_le {before after : World} (fewer : after.keepers.Sublist before.keepers) (pid : Nat) :
    (after.keepersOf pid).length ≤ (before.keepersOf pid).length :=
  (fewer.filter _).length_le

theorem withoutKeepers_sublist (world : World) (pid : Nat) :
    (world.withoutKeepers pid).keepers.Sublist world.keepers := List.filter_sublist

@[simp] theorem keepersOf_withoutKeepers (world : World) (pid : Nat) : (world.withoutKeepers pid).keepersOf pid = [] := by
  simp [World.keepersOf, World.withoutKeepers, List.filter_filter]

theorem keeperAfter_sublist (pid : Nat) (statement : Stmt) (world : World) :
    (keeperAfter pid statement world).keepers.Sublist world.keepers := by
  unfold keeperAfter
  split
  · split
    · exact withoutKeepers_sublist world pid
    · exact List.Sublist.refl _
  · exact List.Sublist.refl _

/-- Only starting one adds a keeper. -/
theorem Unmoving.keepers {op : Op} (unmoving : Unmoving op) (config : Config) (pid : Nat) (choice : Choice)
    (world : World) :
    (perform config pid op choice world).2.keepers.Sublist world.keepers := by
  cases op with
  | sql statement =>
    simp only [perform]
    cases choice.outcome with
    | done => simpa only [commit_keepers] using keeperAfter_sublist pid statement world
    | failed => exact List.Sublist.refl _
    | lost => simp only [commit_keepers, List.Sublist.refl]
  | cacheSetex | cacheDel | bumpVersion | enqueueTask | rebuildTaskQueue | dequeueTask
  | removeFromQueue | acquireLease | releaseLease | forceReleaseLease | putObject | deleteObject =>
    simp only [perform]
    split <;> exact List.Sublist.refl _
  | startLeaseKeeper | stopLeaseKeeper => cases unmoving
  | _ => exact List.Sublist.refl _

theorem keepersOf_perform_le {pid other : Nat} (differ : other ≠ pid) (op : Op) (choice : Choice) (world : World) :
    ((perform config pid op choice world).2.keepersOf other).length ≤ (world.keepersOf other).length := by
  cases op with
  | startLeaseKeeper taskId userId workerId => simp [perform, World.keepersOf, differ.symm]
  | stopLeaseKeeper => exact World.keepersOf_length_le (withoutKeepers_sublist world pid) other
  | _ => exact World.keepersOf_length_le (Unmoving.keepers (by trivial) config pid choice world) other

theorem unmoving_of_permitted {pid : Nat} {op : Op} {world : World} (permitted : leaseKeeperMay config pid op world = true) :
    Unmoving op := by
  rcases leaseKeeperMay_iff.mp permitted with ⟨keeper, _, _, rfl⟩ | ⟨keeper, _, _, rfl⟩ <;> trivial

theorem kept_keeperScope : (keeperScope config).Kept where
  calls := settles_call
  own := by
    intro pid op choice world phase later held moved
    cases op with
    | startLeaseKeeper taskId userId workerId =>
      cases phase with
      | true => cases moved
      | false =>
        cases moved
        have empty := List.eq_nil_of_length_eq_zero (Nat.le_zero.mp held)
        simp only [World.keepersOf] at empty
        simp [keeperScope, perform, World.keepersOf, empty]
    | stopLeaseKeeper =>
      -- stopping removes every keeper of the process
      cases moved
      simp [keeperScope, perform]
    | _ =>
      cases moved
      exact (World.keepersOf_length_le (Unmoving.keepers (by trivial) config pid choice world) pid).trans held
  others := fun differ held => (keepersOf_perform_le differ _ _ _).trans held
  background := by
    intro pid other op choice world phase permitted held
    have unmoving := unmoving_of_permitted permitted
    exact (World.keepersOf_length_le (unmoving.keepers config pid choice world) other).trans held
  leaves := by
    intro pid world
    simp [keeperScope]
  left := fun _ held => (World.keepersOf_length_le (withoutKeepers_sublist _ _) _).trans held
  env := by
    intro event world pid phase held
    -- neither the clock nor what expires touches the keepers
    cases event <;> exact held

/-! ## Runs -/

theorem keepers_held (world : World) (labels : List (backend config).Label) :
    (keeperScope config).Holds (System.run (boot config world) labels) := by
  have none : (keeperScope config).Holds (boot config world) := fun pid => Nat.le_refl 0
  exact none.run kept_keeperScope labels

/-- A process that is not at work has no keeper. -/
theorem unkept_idle (world : World) (labels : List (backend config).Label) {pid : Nat}
    (idle : (System.run (boot config world) labels).process pid = none) :
    Unkept pid (System.run (boot config world) labels).view.world := by
  have held := keepers_held world labels pid
  rw [idle] at held
  have none := List.filter_eq_nil_iff.mp (List.eq_nil_of_length_eq_zero (Nat.le_zero.mp held))
  intro keeper member own
  exact none keeper member (decide_eq_true own)

/-- A process has at most one lease keeper, and has it while it works on the turn that has claimed the task
and has yet to stop it.
-/
theorem keepers_scoped (world : World) (labels : List (backend config).Label) :
    (∀ pid, ((System.run (boot config world) labels).view.world.keepersOf pid).length ≤ 1) ∧
    ∀ keeper ∈ (System.run (boot config world) labels).view.world.keepers, ∃ index rest row,
      (System.run (boot config world) labels).process keeper.owner = some ⟨.workerTurn index, rest⟩ ∧
      rest.Settles keeperMoves false true ∧
      keeper.workerId = TaskEngine.workerId config index ∧
      Claimed keeper.workerId
        (System.history keeper.owner (System.run (boot config world) labels).view.log) row ∧
      keeper.taskId = row.id ∧ keeper.userId = row.user_id := by
  have held := keepers_held world labels
  constructor
  · intro pid
    have here := held pid
    cases found : (System.run (boot config world) labels).process pid with
    | none =>
      rw [found] at here
      exact Nat.le_succ_of_le here
    | some process =>
      rw [found] at here
      obtain ⟨_, phase, few, _⟩ := here
      exact few.trans (Bool.toNat_le phase)
  · intro keeper member
    have here := held keeper.owner
    cases found : (System.run (boot config world) labels).process keeper.owner with
    | none => exact absurd rfl (unkept_idle world labels found keeper member)
    | some process =>
      rw [found] at here
      obtain ⟨_, phase, few, settles⟩ := here
      have live := (follows_run world labels).live keeper.owner process found
      obtain ⟨index, row, turn, named, claimed, task, user⟩ := (keepersOwned_run world labels keeper member).turn _ live
      obtain ⟨call, rest⟩ := process
      cases turn
      -- the keeper is there, so the phase is the one in which there may be one
      have there : 0 < ((System.run (boot config world) labels).view.world.keepersOf keeper.owner).length :=
        List.length_pos_of_mem (List.mem_filter.mpr ⟨member, decide_eq_true rfl⟩)
      have phase_true : phase = true := by
        cases phase with
        | true => rfl
        | false => exact absurd few (Nat.not_le.mpr there)
      exact ⟨index, rest, row, rfl, phase_true ▸ settles, named, claimed, task, user⟩

end Text2Image
