import Mathlib.Algebra.GroupWithZero.Nat
import Mathlib.Algebra.Order.BigOperators.Group.List
import Mathlib.Algebra.Order.Group.Nat
import Mathlib.Logic.Relation
import Text2Image.Concurrency.Precondition
import Text2Image.Properties.Generation
import Text2Image.Services.Footprint

/-! A worker by itself: what becomes of the rows while it takes tasks from the database
and nobody else writes to the table but its own lease keeper.
-/

set_option autoImplicit false

namespace Text2Image

open Concurrency Concurrency.Prog TaskStatus

variable {config : Config} {pid : Nat} {world met : World}

/-- The lease keeper of the process acts, or something that leaves the table as it is and starts
no keeper of the process.
-/
inductive Tended (config : Config) (pid : Nat) : World → World → Prop where
  | renewed {world : World} {op : Op} {choice : Choice} (permitted : leaseKeeperMay config pid op world = true) :
      Tended config pid world (perform config pid op choice world).2
  | elsewhere {world met : World} (db : met.db = world.db)
      (keepers : ∀ keeper ∈ met.keepers, keeper.owner = pid → keeper ∈ world.keepers) :
      Tended config pid world met

/-- Between two operations of the process its keeper may act any number of times. -/
def tended (config : Config) (pid : Nat) : Setting interface World Choice where
  perform := perform config pid
  drift := Relation.ReflTransGen (Tended config pid)

/-- Redis is off, and nothing else that a turn needs fails; the model service may, and a health check,
which follows no redirects, may throw whatever is caught.
-/
def Faultless : Op → Choice → Prop
  | .sql _, choice | .publishTaskUpdated _, choice => choice.outcome = .done
  | .redisAvailable, choice => choice.outcome ≠ .done
  | .httpGet _ _ followRedirects, choice =>
    if followRedirects then choice.thrown = none else choice.thrown ≠ some .other
  | _, _ => True

/-- The process has no lease keeper. -/
def Unkept (pid : Nat) (world : World) : Prop := ∀ keeper ∈ world.keepers, keeper.owner ≠ pid

/-- Nothing the keeper of a process does concerns a process without one. -/
theorem Unkept.not_permitted (unkept : Unkept pid world) {op : Op} : leaseKeeperMay config pid op world = false := by
  refine Bool.eq_false_iff.mpr fun permitted => ?_
  unfold leaseKeeperMay at permitted
  have owned : ∃ keeper ∈ world.keepers, keeper.owner = pid := by
    split at permitted
    · obtain ⟨keeper, member, keeps⟩ := List.any_eq_true.mp permitted
      exact ⟨keeper, member, (of_decide_eq_true keeps).1⟩
    · obtain ⟨found, _⟩ := of_decide_eq_true permitted
      obtain ⟨keeper, member, keeps⟩ := List.any_eq_true.mp found
      exact ⟨keeper, member, (of_decide_eq_true (of_decide_eq_true keeps).1).1⟩
    · cases permitted
  obtain ⟨keeper, member, own⟩ := owned
  exact unkept keeper member own

theorem Unkept.tended (unkept : Unkept pid world) (steps : Relation.ReflTransGen (Tended config pid) world met) :
    met.db = world.db ∧ Unkept pid met := by
  induction steps with
  | refl => exact ⟨rfl, unkept⟩
  | tail _ step ih =>
    obtain ⟨same, none⟩ := ih
    cases step with
    | renewed permitted => rw [none.not_permitted] at permitted; cases permitted
    | elsewhere db keepers =>
      exact ⟨db.trans same, fun keeper member own => none keeper (keepers keeper member own) own⟩

/-- What a renewal keeps, the keeper keeps. -/
theorem Tended.keeps {inv : ImageTable → Prop}
    (renews : ∀ t expiresAt id userId workerId, inv t →
      inv ((Stmt.renewLease expiresAt id userId workerId).table t))
    (step : Tended config pid world met) (holds : inv world.db) : inv met.db := by
  cases step with
  | @renewed op choice permitted =>
    rcases perform_db config pid op choice world with same | ⟨s, rfl, became⟩
    · exact same ▸ holds
    · rw [became]
      cases s with
      | renewLease expiresAt id userId workerId => exact renews _ _ _ _ _ holds
      | _ => cases permitted
  | elsewhere db keepers => exact db ▸ holds

theorem tended_keeps {inv : ImageTable → Prop}
    (renews : ∀ t expiresAt id userId workerId, inv t →
      inv ((Stmt.renewLease expiresAt id userId workerId).table t))
    (steps : Relation.ReflTransGen (Tended config pid) world met) (holds : inv world.db) : inv met.db := by
  induction steps with
  | refl => exact holds
  | tail _ step ih => exact step.keeps renews ih

/-- The operation neither starts a keeper nor stops one. -/
def Unmoving : Op → Prop
  | .startLeaseKeeper .. | .stopLeaseKeeper => False
  | _ => True

/-- The operation touches neither the table nor the keepers. -/
def Bystander : Op → Prop
  | .sql _ => False
  | op => Unmoving op

theorem Bystander.unmoving {op : Op} (bystander : Bystander op) : Unmoving op := by
  cases op with
  | sql => trivial
  | _ => exact bystander

theorem unmoving_of_bystander {α : Type} {program : Program α} (only : program.Only Bystander) : program.Only Unmoving :=
  only.mono fun _ => Bystander.unmoving

theorem Unmoving.unkept {op : Op} (unmoving : Unmoving op) (choice : Choice) (unkept : Unkept pid world) :
    Unkept pid (perform config pid op choice world).2 := by
  intro keeper member own
  rcases mem_perform_keepers member with old | ⟨rfl, _⟩
  · exact unkept keeper old own
  · exact unmoving

theorem Bystander.db {op : Op} (bystander : Bystander op) (choice : Choice) (world : World) :
    (perform config pid op choice world).2.db = world.db := by
  rcases perform_db config pid op choice world with same | ⟨s, rfl, _⟩
  · exact same
  · exact bystander.elim

/-! ## The row in hand -/

variable {t now : ImageTable} {row : Row} {worker : String}

theorem find_of_mem (member : row ∈ t.rows) : t.find row.id = some row := Keyed.Table.find_eq_some.mpr ⟨member, rfl⟩

/-- No row is being worked on. -/
def Unworked (t : ImageTable) : Prop := ∀ row ∈ t.rows, row.status ≠ Generating

/-- The worker holds this row of the table; the others are as they were. -/
structure InHand (t : ImageTable) (row : Row) (worker : String) (now : ImageTable) : Prop where
  others : ∀ id, id ≠ row.id → now.find id = t.find id
  mine : ∃ mine, now.find row.id = some mine ∧ mine.status = Generating ∧ mine.heldBy worker = true ∧
    mine.user_id = row.user_id ∧ mine.retry_count = row.retry_count

/-- The row has ended, or waits again with one more attempt behind it. -/
def Attempted (row mine : Row) : Prop :=
  mine.status.isTerminal = true ∨ mine.status = Queued ∧ mine.retry_count = row.retry_count + 1 ∧
    row.retry_count < model_health.kMaxModelHealthAttempts - 1

/-- The worker is done with this row of the table; the others are as they were. -/
structure Resolved (t : ImageTable) (row : Row) (now : ImageTable) : Prop where
  others : ∀ id, id ≠ row.id → now.find id = t.find id
  mine : ∃ mine, now.find row.id = some mine ∧ Attempted row mine

theorem find_updated {s : Stmt} {update : RowUpdate} (found : s.rowUpdate now = some update) (id : Int) :
    (s.table now).find id = (now.find id).map fun row => if update.guard row then update.change row else row := by
  rw [Stmt.table_of_rowUpdate found]
  exact Keyed.Table.find_update id

/-- Where no row is generating, a statement for a held row changes no other. -/
theorem find_unclaimed {s : Stmt} {update : RowUpdate} (idle : Unworked t) (found : s.rowUpdate now = some update)
    (guards : ∀ row, update.guard row = true → row.status = Generating) {id : Int} (same : now.find id = t.find id) :
    (s.table now).find id = t.find id := by
  rw [find_updated found, same]
  cases there : t.find id with
  | none => rfl
  | some row =>
    have other : update.guard row ≠ true := fun guarded =>
      idle row (Keyed.Table.find_eq_some.mp there).1 (guards row guarded)
    rw [Option.map_some, if_neg other]

theorem claimedBy_iff {id userId : Int} : row.claimedBy id userId worker = true ↔
    row.id = id ∧ row.user_id = userId ∧ row.status = Generating ∧ row.heldBy worker = true := decide_eq_true_iff

theorem find_renewed {mine : Row} {key : Int} (found : now.find key = some mine) (expiresAt : DbTime)
    (id userId : Int) (workerId : String) : ∃ lease,
      ((Stmt.renewLease expiresAt id userId workerId).table now).find key =
        some { mine with lease_expires_at := lease } := by
  rw [find_updated rfl, found]
  by_cases guarded : mine.claimedBy id userId workerId = true
  · exact ⟨some expiresAt, congrArg some (if_pos guarded)⟩
  · exact ⟨mine.lease_expires_at, congrArg some (if_neg guarded)⟩

theorem InHand.renewed (idle : Unworked t) (hand : InHand t row worker now) (expiresAt : DbTime) (id userId : Int)
    (workerId : String) : InHand t row worker ((Stmt.renewLease expiresAt id userId workerId).table now) where
  others other apart := find_unclaimed idle rfl (fun row guarded => (claimedBy_iff.mp guarded).2.2.1)
    (hand.others other apart)
  mine := by
    obtain ⟨mine, found, running, held, user, count⟩ := hand.mine
    obtain ⟨lease, kept⟩ := find_renewed found expiresAt id userId workerId
    exact ⟨_, kept, running, held, user, count⟩

theorem Resolved.renewed (idle : Unworked t) (resolved : Resolved t row now) (expiresAt : DbTime) (id userId : Int)
    (workerId : String) : Resolved t row ((Stmt.renewLease expiresAt id userId workerId).table now) where
  others other apart := find_unclaimed idle rfl (fun row guarded => (claimedBy_iff.mp guarded).2.2.1)
    (resolved.others other apart)
  mine := by
    obtain ⟨mine, found, attempted⟩ := resolved.mine
    obtain ⟨lease, kept⟩ := find_renewed found expiresAt id userId workerId
    exact ⟨_, kept, attempted⟩

/-- The row in hand is written back as one that has ended. -/
theorem InHand.finished (idle : Unworked t) (hand : InHand t row worker now) {image : ImageGeneration}
    (id : image.id = row.id) (user : image.user_id = row.user_id) (named : image.worker_id = worker)
    (terminal : image.status.isTerminal = true) : Resolved t row ((Stmt.finishClaimedTask image).table now) where
  others other apart := find_unclaimed idle rfl (fun row guarded => (claimedBy_iff.mp guarded).2.2.1)
    (hand.others other apart)
  mine := by
    obtain ⟨mine, found, running, held, same, _⟩ := hand.mine
    have guarded : mine.claimedBy image.id image.user_id image.worker_id = true :=
      claimedBy_iff.mpr ⟨(Keyed.Table.find_eq_some.mp found).2.trans id.symm, same.trans user.symm, running,
        named ▸ held⟩
    refine ⟨mine.finished image, ?_, .inl terminal⟩
    rw [find_updated rfl, found, Option.map_some, if_pos guarded]

/-- The row in hand is put back to wait. -/
theorem InHand.deferred (idle : Unworked t) (hand : InHand t row worker now) {id userId : Int} {code message : String}
    (same : id = row.id) (user : userId = row.user_id)
    (budget : row.retry_count < model_health.kMaxModelHealthAttempts - 1) :
    Resolved t row ((Stmt.deferClaimedTask id userId worker code message).table now) where
  others other apart := find_unclaimed idle rfl (fun row guarded => (claimedBy_iff.mp guarded).2.2.1)
    (hand.others other apart)
  mine := by
    obtain ⟨mine, found, running, held, owner, count⟩ := hand.mine
    have guarded : mine.claimedBy id userId worker = true :=
      claimedBy_iff.mpr ⟨(Keyed.Table.find_eq_some.mp found).2.trans same.symm, owner.trans user.symm, running,
        held⟩
    refine ⟨mine.deferred code message, ?_, .inr ⟨rfl, congrArg (· + 1) count, budget⟩⟩
    rw [find_updated rfl, found, Option.map_some, if_pos guarded]

/-! ## Programs that leave the table to others -/

variable {α : Type} {program : Program α}

/-- What a renewal keeps lasts through such a program; and it starts no keeper. -/
theorem ensures_bystanders {inv : ImageTable → Prop} (only : program.Only Bystander)
    (renews : ∀ t expiresAt id userId workerId, inv t →
      inv ((Stmt.renewLease expiresAt id userId workerId).table t))
    (holds : inv world.db) : program.Ensures (tended config pid) Faultless (fun _ after => inv after.db) world := by
  refine only.ensures (fun _ _ steps holds => tended_keeps renews steps holds) ?_ holds
  intro op choice met bystander _ holds
  exact bystander.db choice met ▸ holds

theorem ensures_unkept (only : program.Only Unmoving) (unkept : Unkept pid world) :
    program.Ensures (tended config pid) Faultless (fun _ after => Unkept pid after) world := by
  refine only.ensures (fun _ _ steps unkept => (unkept.tended steps).2) ?_ unkept
  exact fun op choice met unmoving _ unkept => unmoving.unkept choice unkept

namespace TaskEngine

theorem bystander_invalidateAllForTask (userId id : Int) : (invalidateAllForTask userId id).Only Bystander :=
  Only.bind ⟨trivial, fun _ => trivial⟩ fun _ => ⟨trivial, fun _ => trivial⟩

theorem bystander_releaseRedisLease (taskId : Int) (workerId : String) :
    (releaseRedisLease taskId workerId).Only Bystander := by
  refine Only.bind ⟨trivial, fun _ => trivial⟩ fun up => ?_
  cases up with
  | true => exact ⟨trivial, fun _ => trivial⟩
  | false => trivial

theorem bystander_publish (task : ImageGeneration) : (publish task).Only Bystander := by
  refine Only.bind ⟨trivial, fun _ => trivial⟩ fun published => ?_
  cases published <;> trivial

theorem bystander_enqueueTask (taskId : Int) : (enqueueTask taskId).Only Bystander := by
  refine Only.bind ⟨trivial, fun _ => trivial⟩ fun up => ?_
  cases up with
  | true => exact ⟨trivial, fun _ => trivial⟩
  | false => trivial

end TaskEngine

/-! ## The pieces of a turn -/

/-- The image stands for the row in this worker's hand. -/
structure TaskOf (row : Row) (worker : String) (image : ImageGeneration) : Prop where
  id : image.id = row.id
  user_id : image.user_id = row.user_id
  worker_id : image.worker_id = worker

theorem ensures_updates {s : Stmt} {counts : s.Answer = Nat} {inv become : ImageTable → Prop}
    (renews : ∀ t expiresAt id userId workerId, inv t →
      inv ((Stmt.renewLease expiresAt id userId workerId).table t))
    (writes : ∀ now, inv now → become (s.table now)) (holds : inv world.db) :
    (ImageRepo.updates s counts).Ensures (tended config pid) Faultless (fun _ after => become after.db) world := by
  have commits : (sql s).Ensures (tended config pid) Faultless (fun _ after => become after.db) world := by
    intro choice met steps done
    -- the lease keeper may have renewed the lease since, which `inv` does not mind
    have became : (perform config pid (.sql s) choice met).2.db = s.table met.db := by
      have succeeded : choice.outcome = .done := done
      simp [perform, succeeded]
    exact (congrArg become became).mpr (writes _ (tended_keeps renews steps holds))
  refine commits.bind fun answer middle became => ?_
  cases answer with
  | error error => exact became
  | ok affected => exact became

variable {index : Nat} {task : ImageGeneration}

/-- What follows a statement that settled the row leaves it settled. -/
theorem ensures_resolved {α : Type} {program : Program α} (idle : Unworked t) (only : program.Only Bystander)
    (resolved : Resolved t row world.db) :
    program.Ensures (tended config pid) Faultless (fun _ after => Resolved t row after.db) world :=
  ensures_bystanders only (fun _ expiresAt id userId workerId resolved =>
    resolved.renewed idle expiresAt id userId workerId) resolved

theorem ensures_inHand {α : Type} {program : Program α} (idle : Unworked t) (only : program.Only Bystander)
    (hand : InHand t row worker world.db) :
    program.Ensures (tended config pid) Faultless (fun _ after => InHand t row worker after.db) world :=
  ensures_bystanders only (fun _ expiresAt id userId workerId hand =>
    hand.renewed idle expiresAt id userId workerId) hand

namespace TaskEngine

theorem ensures_finishClaimedTask (idle : Unworked t) (hand : InHand t row worker world.db)
    (same : TaskOf row worker task) (terminal : task.status.isTerminal = true) :
    (ImageRepo.finishClaimedTask task).Ensures (tended config pid) Faultless
      (fun _ after => Resolved t row after.db) world :=
  ensures_updates (fun _ expiresAt id userId workerId hand => hand.renewed idle expiresAt id userId workerId)
    (fun _ hand => hand.finished idle same.id same.user_id same.worker_id terminal) hand

theorem ensures_failForModelHealth (idle : Unworked t) (hand : InHand t row worker world.db)
    (same : TaskOf row worker task) (name : String) (decision : model_health.GateDecision) :
    (failForModelHealth task name decision).Ensures (tended config pid) Faultless
      (fun _ after => Resolved t row after.db) world := by
  have reads : readClock.Only Bystander := ⟨trivial, fun _ => trivial⟩
  refine (ensures_inHand idle reads hand).bind fun now middle hand => ?_
  have failed : TaskOf row worker { task with
      status := Failed
      failure_code := decision.failure_code
      error_message := decision.message
      completed_at := some now } := ⟨same.id, same.user_id, same.worker_id⟩
  refine (ensures_finishClaimedTask idle hand failed rfl).bind
    fun finished middle resolved => ensures_resolved idle ?_ resolved
  refine (bystander_releaseRedisLease _ name).bind fun _ => (bystander_invalidateAllForTask _ _).bind fun _ => ?_
  split
  · exact bystander_publish _
  · trivial

theorem ensures_deferForModelHealth (idle : Unworked t) (hand : InHand t row worker world.db)
    (same : TaskOf row worker task) (decision : model_health.GateDecision)
    (budget : row.retry_count < model_health.kMaxModelHealthAttempts - 1) :
    (deferForModelHealth task worker decision).Ensures (tended config pid) Faultless
      (fun _ after => Resolved t row after.db) world := by
  have defers : (ImageRepo.deferClaimedTaskForModelHealth task.id task.user_id worker decision.failure_code
      decision.message).Ensures (tended config pid) Faultless (fun _ after => Resolved t row after.db) world :=
    ensures_updates (fun _ expiresAt id userId workerId hand => hand.renewed idle expiresAt id userId workerId)
      (fun _ hand => hand.deferred idle same.id same.user_id budget) hand
  refine defers.bind fun deferred middle resolved => ensures_resolved idle ?_ resolved
  refine (bystander_releaseRedisLease _ worker).bind fun _ => ?_
  split
  · refine (bystander_invalidateAllForTask _ _).bind fun _ => (bystander_publish _).bind fun published => ?_
    split
    · trivial
    · exact (bystander_enqueueTask _).bind fun _ => trivial
  · trivial

end TaskEngine

namespace GenerationClient

theorem bystander_checkHealth : (checkHealth config).Only Bystander := by
  unfold checkHealth
  split
  · trivial
  · split
    · trivial
    · refine Only.bind ⟨trivial, fun _ => trivial⟩ fun answer => ?_
      split <;> trivial

theorem bystander_generate (task : ImageGeneration) : (generate config task).Only Bystander := by
  refine ((requestGeneration_only config task).mono fun op posts => ?_).bind fun answered =>
    ((withDownload_only _ _ _).mono fun op gets => ?_).bind fun downloaded => ?_
  · cases op <;> trivial
  · cases op <;> trivial
  · cases downloaded with
    | error thrown => trivial
    | ok generation =>
      refine ((conclude_only generation).mono fun op stores => ?_).bind fun _ => trivial
      cases op <;> trivial

theorem bystander_cleanupOrphanedStoredImage (result : ImageGeneration) :
    (cleanupOrphanedStoredImage result).Only Bystander := by
  unfold cleanupOrphanedStoredImage ImageStorage.remove
  split
  · trivial
  · exact ⟨trivial, fun _ => trivial⟩

theorem ensures_downloadImageBytes (url : String) (timeoutSeconds : Int) :
    (downloadImageBytes url timeoutSeconds).Ensures (tended config pid) Faultless
      (fun outcome _ => ∃ bytes, outcome = .ok bytes) world := by
  have answered : (Prog.perform (I := interface) (.httpGet url timeoutSeconds true)).Ensures (tended config pid)
      Faultless (fun answer _ => ∃ result, answer = .ok result) world := by
    intro choice met _ within
    have none : choice.thrown = none := within
    refine ⟨choice.http, show choice.answerHttp = .ok choice.http from ?_⟩
    rw [Choice.answerHttp, none]
  refine answered.bind fun answer middle answered => ?_
  obtain ⟨result, rfl⟩ := answered
  simp only
  cases result.toExpectedBody with
  | error error => exact ⟨_, rfl⟩
  | ok body => exact ⟨_, rfl⟩

theorem ensures_withDownload (generation : ImageGeneration) (serviceUrl : String) (timeoutSeconds : Int) :
    (withDownload generation serviceUrl timeoutSeconds).Ensures (tended config pid) Faultless
      (fun outcome _ => ∃ image, outcome = .ok image) world := by
  unfold withDownload
  split
  · exact ⟨_, rfl⟩
  · refine (ensures_downloadImageBytes _ _).bind fun fetched middle downloaded => ?_
    obtain ⟨bytes, rfl⟩ := downloaded
    exact ⟨_, rfl⟩

theorem ensures_checkHealth : (checkHealth config).Ensures (tended config pid) Faultless
    (fun outcome _ => ∃ health, outcome = .ok health) world := by
  unfold checkHealth
  split
  · exact ⟨_, rfl⟩
  · split
    · exact ⟨_, rfl⟩
    · rename_i service _ _ timeout _
      have answered : (Prog.perform (I := interface) (.httpGet (service.url ++ "/health")
          (healthTimeout (timeout.getD 30)) false)).Ensures (tended config pid) Faultless
            (fun answer _ => answer ≠ .error .other) world := by
        intro choice met _ within
        have caught : choice.thrown ≠ some .other := within
        show choice.answerHttp ≠ .error .other
        unfold Choice.answerHttp
        cases thrown : choice.thrown with
        | none => exact nofun
        | some raised => exact fun same => caught (Except.error.inj same ▸ thrown)
      refine answered.bind fun answer middle standard => ?_
      rcases answer with (what | _) | result
      · exact ⟨_, rfl⟩
      · exact (standard rfl).elim
      · exact ⟨_, rfl⟩

/-- What a turn has been answered when it takes up a row. -/
def claimedAs (row : Row) (workerId : String) : Past :=
  [⟨.sql (.readClaimed workerId 0), .ok (some row)⟩, ⟨.sql (.claimNextTask workerId 0 0), .ok (1 : Nat)⟩]

theorem claimed_claimedAs (row : Row) (workerId : String) : Claimed workerId (claimedAs row workerId) row := by
  have claim : (claimedAs row workerId).got (.claimNextTask workerId 0 0) (1 : Nat) :=
    List.mem_cons_of_mem _ List.mem_cons_self
  exact .next claim Nat.one_pos List.mem_cons_self

/-- Generation yields a result for the row, and the result has ended. -/
theorem ensures_generate {held : Row} (copy : CopyOf held task) :
    (generate config task).Ensures (tended config pid) Faultless
      (fun outcome _ => ∃ result, outcome = .ok result ∧ SameTask held result ∧ result.status.isTerminal = true)
      world := by
  have concludes : (generate config task).Ensures (tended config pid) Faultless (fun outcome _ => ∃ later,
      claimedAs held (TaskEngine.workerId config 0) ⊆ later ∧
        ∀ result, outcome = .ok result → Concludes later held result) world :=
    (keeps_generate (claimed_claimedAs held _) copy).ensures world
  have yields : (generate config task).Ensures (tended config pid) Faultless
      (fun outcome _ => ∃ result, outcome = .ok result) world := by
    have requests : (requestGeneration config task).Ensures (tended config pid) Faultless (fun _ _ => True) world :=
      (requestGeneration_only config task).ensures (fun _ _ _ => id) (fun _ _ _ _ _ => id) trivial
    refine requests.bind fun answered middle _ => ?_
    refine (ensures_withDownload _ _ _).bind fun downloaded last given => ?_
    obtain ⟨image, rfl⟩ := given
    have concludes : (conclude image).Ensures (tended config pid) Faultless (fun _ _ => True) last :=
      (conclude_only image).ensures (fun _ _ _ => id) (fun _ _ _ _ _ => id) trivial
    exact concludes.bind fun result _ _ => ⟨result, rfl⟩
  -- what the protocol says of a result, and that there is one
  refine (concludes.and yields).mono fun outcome after known => ?_
  obtain ⟨⟨later, _, known⟩, result, rfl⟩ := known
  exact ⟨result, rfl, (known result rfl).same, (known result rfl).terminal⟩

end GenerationClient

namespace TaskEngine

theorem ensures_publish (image : ImageGeneration) :
    (publish image).Ensures (tended config pid) Faultless (fun outcome _ => outcome = .ok ()) world := by
  intro choice met _ done
  have succeeded : choice.outcome = .done := done
  simp only [tended, perform, Choice.orThrow, Choice.succeeds, succeeded]
  rfl

/-- The gate lets the row in hand pass, or settles it. -/
theorem ensures_applyModelHealthGate (idle : Unworked t) (hand : InHand t row worker world.db)
    (same : TaskOf row worker task) (count : task.retry_count = row.retry_count) :
    (applyModelHealthGate config task worker).Ensures (tended config pid) Faultless
      (fun outcome after => outcome = .ok true ∧ InHand t row worker after.db ∨
        outcome ≠ .ok true ∧ Resolved t row after.db) world := by
  unfold applyModelHealthGate
  refine (GenerationClient.ensures_checkHealth.and
    (ensures_inHand idle GenerationClient.bystander_checkHealth hand)).bind fun checked middle known => ?_
  obtain ⟨⟨health, rfl⟩, hand⟩ := known
  simp only
  -- by what the gate decides: proceed, fail or defer
  split
  · exact .inl ⟨rfl, hand⟩
  · refine (ensures_failForModelHealth idle hand same _ _).bind fun outcome after resolved => .inr ⟨?_, resolved⟩
    cases outcome <;> nofun
  · rename_i deferred
    -- the gate defers only where another attempt is left
    have budget := count ▸ model_health.retryCount_of_defer deferred
    refine (ensures_deferForModelHealth idle hand same _ budget).bind
      fun outcome after resolved => .inr ⟨?_, resolved⟩
    cases outcome <;> nofun

theorem ensures_finishGeneration {result : ImageGeneration} (idle : Unworked t) (hand : InHand t row worker world.db)
    (same : TaskOf row worker result) (terminal : result.status.isTerminal = true) (name : String) :
    (finishGeneration task result name).Ensures (tended config pid) Faultless
      (fun _ after => Resolved t row after.db) world := by
  refine (ensures_finishClaimedTask idle hand same terminal).bind fun finished middle resolved =>
    ensures_resolved idle ?_ resolved
  refine (bystander_releaseRedisLease _ name).bind fun _ => ?_
  split
  · exact (bystander_invalidateAllForTask _ _).bind fun _ => bystander_publish _
  · exact (GenerationClient.bystander_cleanupOrphanedStoredImage result).bind fun _ => trivial

/-- The lease keeper is there for the generation only. -/
theorem ensures_generateUnderLease {held : Row} (idle : Unworked t) (hand : InHand t row worker world.db)
    (copy : CopyOf held task) (same : ∀ result, SameTask held result → TaskOf row worker result) (name : String) :
    (generateUnderLease config task name).Ensures (tended config pid) Faultless
      (fun _ after => Unkept pid after ∧ Resolved t row after.db) world := by
  have starts : (startLeaseKeeper task name).Ensures (tended config pid) Faultless
      (fun _ after => InHand t row worker after.db) world := by
    intro choice met steps _
    have kept : InHand t row worker met.db := tended_keeps (fun _ expiresAt id userId workerId hand =>
      hand.renewed idle expiresAt id userId workerId) steps hand
    exact kept
  have stops : ∀ middle : World, Resolved t row middle.db → stopLeaseKeeper.Ensures (tended config pid) Faultless
      (fun _ after => Unkept pid after ∧ Resolved t row after.db) middle := by
    intro middle resolved choice met steps _
    have kept : Resolved t row met.db := tended_keeps (fun _ expiresAt id userId workerId resolved =>
      resolved.renewed idle expiresAt id userId workerId) steps resolved
    exact ⟨fun keeper member => of_decide_eq_true (List.mem_filter.mp member).2, kept⟩
  -- no step of a turn without faults throws, so the keeper is stopped on the way through
  refine starts.bind fun _ middle hand => ?_
  refine ((GenerationClient.ensures_generate copy).and
    (ensures_inHand idle (GenerationClient.bystander_generate task) hand)).bind fun generated middle known => ?_
  obtain ⟨⟨result, rfl, copied, terminal⟩, hand⟩ := known
  refine (ensures_finishGeneration idle hand (same result copied) terminal name).bind fun outcome middle resolved => ?_
  exact (stops middle resolved).bind fun _ after ended => ended

theorem unmoving_applyModelHealthGate (name : String) :
    (applyModelHealthGate config task name).Only Unmoving := by
  have fails : ∀ decision, (failForModelHealth task name decision).Only Unmoving := by
    intro decision
    refine Only.bind ⟨trivial, fun _ => trivial⟩ fun now => ?_
    refine (only_updates _ rfl (by trivial)).bind fun finished => ?_
    refine (unmoving_of_bystander (bystander_releaseRedisLease _ name)).bind fun _ =>
      (unmoving_of_bystander (bystander_invalidateAllForTask _ _)).bind fun _ => ?_
    split
    · exact unmoving_of_bystander (bystander_publish _)
    · trivial
  have defers : ∀ decision, (deferForModelHealth task name decision).Only Unmoving := by
    intro decision
    refine (only_updates _ rfl (by trivial)).bind fun deferred => ?_
    refine (unmoving_of_bystander (bystander_releaseRedisLease _ name)).bind fun _ => ?_
    split
    · refine (unmoving_of_bystander (bystander_invalidateAllForTask _ _)).bind fun _ =>
        (unmoving_of_bystander (bystander_publish _)).bind fun published => ?_
      split
      · trivial
      · exact (unmoving_of_bystander (bystander_enqueueTask _)).bind fun _ => trivial
    · trivial
  refine (unmoving_of_bystander GenerationClient.bystander_checkHealth).bind fun health => ?_
  split
  · trivial
  · dsimp only
    split
    · trivial
    · exact (fails _).bind fun _ => trivial
    · exact (defers _).bind fun _ => trivial

/-- The row as the worker has read it back. -/
structure ReadBack (row : Row) (worker : String) (held : Row) : Prop where
  id : held.id = row.id
  user_id : held.user_id = row.user_id
  retry_count : held.retry_count = row.retry_count
  worker_id : held.worker_id = some worker

theorem ReadBack.taskOf {held : Row} (back : ReadBack row worker held) {image : ImageGeneration}
    (same : SameTask held image) : TaskOf row worker image where
  id := same.id.trans back.id
  user_id := same.user_id.trans back.user_id
  worker_id := same.worker_id.trans (by rw [back.worker_id]; rfl)

/-- A task that was taken up is settled, and the turn ends without a keeper. -/
theorem ensures_processClaimedTask {held : Row} (idle : Unworked t) (unkept : Unkept pid world)
    (hand : InHand t row worker world.db) (back : ReadBack row worker held) :
    (processClaimedTask config (ImageRepo.rowToImageGeneration held) worker).Ensures (tended config pid) Faultless
      (fun _ after => Unkept pid after ∧ Resolved t row after.db) world := by
  have copy := CopyOf.of_row held
  -- until the gate has let the task pass there is no keeper, and the row stays in hand
  have drops := bystander_invalidateAllForTask held.user_id held.id
  refine ((ensures_unkept (unmoving_of_bystander drops) unkept).and (ensures_inHand idle drops hand)).bind fun _ middle known => ?_
  obtain ⟨unkept, hand⟩ := known
  have tells := bystander_publish (ImageRepo.rowToImageGeneration held)
  refine ((ensures_publish _).and ((ensures_unkept (unmoving_of_bystander tells) unkept).and
    (ensures_inHand idle tells hand))).bind fun published middle known => ?_
  obtain ⟨rfl, unkept, hand⟩ := known
  refine ((ensures_unkept (unmoving_applyModelHealthGate worker) unkept).and
    (ensures_applyModelHealthGate idle hand (back.taskOf copy.same) back.retry_count)).bind fun gate middle known => ?_
  obtain ⟨unkept, ⟨rfl, hand⟩ | ⟨closed, resolved⟩⟩ := known
  · exact ensures_generateUnderLease idle hand copy (fun _ => back.taskOf) worker
  · match gate with
    | .error thrown => exact ⟨unkept, resolved⟩
    | .ok false => exact ⟨unkept, resolved⟩
    | .ok true => exact absurd rfl closed

/-! ## Taking up a task -/

theorem oldest_eq_none {rows : List Row} (none : oldest rows = none) : rows = [] := by
  cases rows with
  | nil => rfl
  | cons first rest =>
    simp only [oldest] at none
    split at none
    · cases none
    · split at none <;> cases none

/-- Where nobody is at work, the oldest waiting row is claimed, if there is one. -/
theorem claimNextTask_idle (idle : Unworked t) (workerId : String) (now expiresAt : DbTime) :
    (∀ row ∈ t.rows, row.isQueued = false) ∧ (Stmt.claimNextTask workerId now expiresAt).table t = t ∨
    ∃ row ∈ t.rows, row.isQueued = true ∧ ∀ id, ((Stmt.claimNextTask workerId now expiresAt).table t).find id =
      if id = row.id then some (row.claimed workerId now expiresAt) else t.find id := by
  cases chosen : nextClaimable t now with
  | none =>
    have free := List.filter_eq_nil_iff.mp (oldest_eq_none chosen)
    refine .inl ⟨fun row member => Bool.eq_false_iff.mpr fun queued => free row member ?_, ?_⟩
    · exact decide_eq_true (.inl queued)
    · rw [Stmt.table_of_rowUpdate rfl, Keyed.Table.update_eq_self_iff]
      intro row member guarded
      simp [chosen] at guarded
  | some row =>
    obtain ⟨member, free⟩ := nextClaimable_spec chosen
    have queued : row.isQueued = true := by
      rcases of_decide_eq_true free with queued | ⟨running, _⟩
      · exact queued
      -- a lease that ran out would be on a row at work, and there is none
      · exact absurd running (idle row member)
    refine .inr ⟨row, member, queued, fun id => ?_⟩
    rw [find_updated rfl]
    simp only [chosen, Option.any_some, decide_eq_true_eq]
    split
    · rename_i same
      rw [same, find_of_mem member, Option.map_some, if_pos rfl]
    · rename_i other
      cases there : t.find id with
      | none => rfl
      | some found =>
        have key := (Keyed.Table.find_eq_some.mp there).2
        rw [Option.map_some, if_neg fun same => other (key.symm.trans same)]

/-- Only the row just claimed can be read back. -/
theorem rowsClaimed_claimed (idle : Unworked t) {claimed : Row} {now : ImageTable}
    (found : ∀ id, now.find id = if id = row.id then some claimed else t.find id) (expiresAt : DbTime) (mine : Row)
    (member : mine ∈ rowsClaimed now worker expiresAt) : mine = claimed := by
  obtain ⟨there, held⟩ := Keyed.Table.mem_select.mp member
  have running : mine.status = Generating := (of_decide_eq_true held).2.1
  have reads := found mine.id
  rw [find_of_mem there] at reads
  split at reads
  · exact Option.some.inj reads
  · exact absurd running (idle mine (Keyed.Table.find_eq_some.mp reads.symm).1)

/-- A statement of a worker without a keeper meets the table as the worker left it. -/
theorem ensures_sql (same : world.db = t) (unkept : Unkept pid world) (s : Stmt) :
    (sql s).Ensures (tended config pid) Faultless (fun answer after => Unkept pid after ∧ after.db = s.table t ∧
      ∃ pick, answer = .ok (s.answer t pick)) world := by
  intro choice met steps done
  have succeeded : choice.outcome = .done := done
  obtain ⟨kept, unkept'⟩ := unkept.tended steps
  have table : met.db = t := kept.trans same
  have starts : Unmoving (.sql s) := trivial
  have unstarted : Unkept pid (perform config pid (.sql s) choice met).2 := starts.unkept choice unkept'
  have became : (perform config pid (.sql s) choice met).2.db = s.table t := by
    simp [perform, succeeded, table]
  have answered : (perform config pid (.sql s) choice met).1 = .ok (s.answer t choice.pick) := by
    simp only [perform, succeeded, table]
    rfl
  exact ⟨unstarted, became, choice.pick, answered⟩

theorem ensures_resting {α : Type} {program : Program α} (only : program.Only Bystander) (same : world.db = t)
    (unkept : Unkept pid world) :
    program.Ensures (tended config pid) Faultless (fun _ after => Unkept pid after ∧ after.db = t) world := by
  refine only.ensures ?_ ?_ ⟨unkept, same⟩
  · rintro world met steps ⟨unkept, same⟩
    obtain ⟨kept, unkept'⟩ := unkept.tended steps
    exact ⟨unkept', kept.trans same⟩
  · rintro op choice met bystander _ ⟨unkept, same⟩
    exact ⟨bystander.unmoving.unkept choice unkept, (bystander.db choice met).trans same⟩

/-- What a worker has claimed: nothing, as nothing waits, or a row it now holds. -/
inductive Takes (t : ImageTable) (worker : String) (now : ImageTable) : Option ImageGeneration → Prop where
  | nothing (same : now = t) (empty : ∀ row ∈ t.rows, row.isQueued = false) : Takes t worker now none
  | task {row held : Row} (member : row ∈ t.rows) (queued : row.isQueued = true) (hand : InHand t row worker now)
      (back : ReadBack row worker held) : Takes t worker now (some (ImageRepo.rowToImageGeneration held))

theorem ensures_claimNextTask (idle : Unworked t) (same : world.db = t) (unkept : Unkept pid world) (leaseSeconds : Int) :
    (ImageRepo.claimNextTask worker leaseSeconds).Ensures (tended config pid) Faultless
      (fun result after => Unkept pid after ∧ ∃ claimed, result = .ok claimed ∧ Takes t worker after.db claimed)
      world := by
  have reads : readClock.Only Bystander := ⟨trivial, fun _ => trivial⟩
  refine (ensures_resting reads same unkept).bind fun now middle known => ?_
  obtain ⟨unkept, same⟩ := known
  let statement : Stmt :=
    .claimNextTask worker (Chrono.toDbTime now) (Chrono.toDbTime (now + leaseDuration leaseSeconds))
  have claims : (ImageRepo.updates statement rfl).Ensures (tended config pid) Faultless
      (fun result after => Unkept pid after ∧ after.db = statement.table t ∧
        result = .ok (decide (statement.affected t > 0))) middle := by
    refine (ensures_sql same unkept statement).bind fun answer after known => ?_
    obtain ⟨unkept, became, pick, rfl⟩ := known
    exact ⟨unkept, became, rfl⟩
  refine claims.bind fun result middle known => ?_
  obtain ⟨unkept, became, rfl⟩ := known
  have changes := Stmt.affected_eq_zero (s := statement) (t := t) rfl
  rcases claimNextTask_idle idle worker (Chrono.toDbTime now) (Chrono.toDbTime (now + leaseDuration leaseSeconds)) with
    ⟨empty, kept⟩ | ⟨row, member, queued, found⟩
  · have zero : statement.affected t = 0 := changes.mpr kept
    rw [zero]
    exact ⟨unkept, none, rfl, .nothing (became.trans kept) empty⟩
  · let held := row.claimed worker (Chrono.toDbTime now) (Chrono.toDbTime (now + leaseDuration leaseSeconds))
    have there : (statement.table t).find row.id = some held := (found row.id).trans (if_pos rfl)
    have positive : statement.affected t > 0 := by
      refine Nat.pos_of_ne_zero fun zero => ?_
      rw [changes.mp zero] at there
      exact idle held (Keyed.Table.find_eq_some.mp there).1 rfl
    rw [decide_eq_true positive]
    have hand : InHand t row worker (statement.table t) :=
      ⟨fun id other => (found id).trans (if_neg other), held, there, rfl, collates_self worker, rfl, rfl⟩
    refine (ensures_sql became unkept (.readClaimed worker _)).bind fun answer after known => ?_
    obtain ⟨unkept, kept, pick, rfl⟩ := known
    have own : held ∈ rowsClaimed (statement.table t) worker
        (Chrono.toDbTime (now + leaseDuration leaseSeconds)) := by
      refine Keyed.Table.mem_select.mpr ⟨(Keyed.Table.find_eq_some.mp there).1, ?_⟩
      exact decide_eq_true ⟨collates_self worker, rfl, rfl⟩
    -- the row that is read back is the one that was claimed, as no other is at work
    obtain ⟨mine, present, fetched⟩ := fetchOne_of_ne_nil (List.ne_nil_of_mem own) pick
    obtain rfl := rowsClaimed_claimed idle found _ mine present
    have reads : (Stmt.readClaimed worker (Chrono.toDbTime (now + leaseDuration leaseSeconds))).answer
        (statement.table t) pick = some held := fetched
    rw [reads]
    have left : after.db = statement.table t := kept
    exact ⟨unkept, _, rfl, .task member queued (left ▸ hand) ⟨rfl, rfl, rfl, rfl⟩⟩

/-- What becomes of the table in a turn: nothing, as nothing waits, or one waiting row is settled. -/
inductive Turned (t now : ImageTable) : Prop where
  | nothing (same : now = t) (empty : ∀ row ∈ t.rows, row.isQueued = false)
  | settled {row : Row} (member : row ∈ t.rows) (queued : row.isQueued = true) (resolved : Resolved t row now)

theorem ensures_workerTurn (idle : Unworked t) (same : world.db = t) (unkept : Unkept pid world) :
    (workerTurn config worker).Ensures (tended config pid) Faultless
      (fun _ after => Unkept pid after ∧ Turned t after.db) world := by
  have claims : (claim config worker).Ensures (tended config pid) Faultless
      (fun claimed after => Unkept pid after ∧ Takes t worker after.db claimed) world := by
    intro choice met steps off
    obtain ⟨kept, unkept⟩ := unkept.tended steps
    -- Redis is down in these runs, so the worker takes the fallback
    have down : choice.succeeds = false := decide_eq_false off
    have oldest : (claimOldest config worker).Ensures (tended config pid) Faultless
        (fun claimed after => Unkept pid after ∧ Takes t worker after.db claimed) met := by
      refine (ensures_claimNextTask idle (kept.trans same) unkept config.lease_seconds).bind
        fun result after known => ?_
      obtain ⟨unkept, claimed, rfl, takes⟩ := known
      exact ⟨unkept, takes⟩
    simp only [tended, perform, down]
    exact oldest
  refine claims.bind fun claimed middle known => ?_
  obtain ⟨unkept, takes⟩ := known
  cases takes with
  | nothing same empty => exact ⟨unkept, .nothing same empty⟩
  | task member queued hand back =>
    exact (ensures_processClaimedTask idle unkept hand back).mono fun _ after ended =>
      ⟨ended.1, .settled member queued ended.2⟩

end TaskEngine

/-! ## Turn after turn -/

/-- How many more turns may work on the row: one for each deferral left to it, and one more. -/
def Row.attemptsLeft (row : Row) : Nat :=
  if row.isQueued then (max 1 (model_health.kMaxModelHealthAttempts - row.retry_count)).toNat else 0

def attemptsLeft (t : ImageTable) : Nat := (t.rows.map Row.attemptsLeft).sum

/-- What is left to do on these rows. -/
def backlog (rows : List Row) (now : ImageTable) : Nat :=
  (rows.map fun row => ((now.find row.id).map Row.attemptsLeft).getD 0).sum

variable {start : ImageTable} {after : World} {mine : Row}

theorem backlog_self (t : ImageTable) : backlog t.rows t = attemptsLeft t := by
  refine congrArg List.sum (List.map_congr_left fun row member => ?_)
  rw [find_of_mem member]
  rfl

theorem Row.attemptsLeft_pos (queued : row.isQueued = true) : 0 < row.attemptsLeft := by
  rw [Row.attemptsLeft, if_pos queued]
  omega

theorem Row.attemptsLeft_of_not (other : row.isQueued = false) : row.attemptsLeft = 0 := by
  simp [Row.attemptsLeft, other]

theorem not_isQueued_of_isTerminal (terminal : row.status.isTerminal = true) : row.isQueued = false := by
  cases status : row.status <;> simp_all [isTerminal, Row.isQueued]

/-- Each turn on a row leaves fewer for it. -/
theorem Attempted.attemptsLeft_lt (attempted : Attempted row mine) (queued : row.isQueued = true) :
    mine.attemptsLeft < row.attemptsLeft := by
  rcases attempted with terminal | ⟨waits, count, budget⟩
  · rw [Row.attemptsLeft_of_not (not_isQueued_of_isTerminal terminal)]
    exact Row.attemptsLeft_pos queued
  · have again : mine.isQueued = true := decide_eq_true (.inl waits)
    rw [Row.attemptsLeft, Row.attemptsLeft, if_pos again, if_pos queued, count]
    simp only [model_health.kMaxModelHealthAttempts] at budget ⊢
    omega

/-- Between two turns: the waiting rows wait or have ended, the others are as they were. -/
structure Draining (start : ImageTable) (pid : Nat) (world : World) : Prop where
  unkept : Unkept pid world
  absent : ∀ id, start.find id = none → world.db.find id = none
  waiting : ∀ row ∈ start.rows, row.isQueued = true →
    ∃ mine, world.db.find row.id = some mine ∧ (mine.isQueued = true ∨ mine.status.isTerminal = true)
  others : ∀ row ∈ start.rows, row.isQueued = false → world.db.find row.id = some row

theorem Draining.idle (draining : Draining start pid world) (idle : Unworked start) : Unworked world.db := by
  intro row member running
  have there : world.db.find row.id = some row := find_of_mem member
  -- by what the row was at the start: absent, at rest, or waiting
  cases found : start.find row.id with
  | none =>
    rw [draining.absent row.id found] at there
    cases there
  | some first =>
    obtain ⟨before, same⟩ := Keyed.Table.find_eq_some.mp found
    rw [← same] at there
    cases queued : first.isQueued with
    | false =>
      rw [draining.others first before queued] at there
      exact idle first before (Option.some.inj there ▸ running)
    | true =>
      obtain ⟨mine, kept, waits | terminal⟩ := draining.waiting first before queued
      · rw [kept] at there
        obtain rfl := Option.some.inj there
        simp [Row.isQueued, running] at waits
      · rw [kept] at there
        obtain rfl := Option.some.inj there
        rw [running] at terminal
        cases terminal

/-- A settled row is one of those that waited at the start. -/
theorem Draining.settled (draining : Draining start pid world) (unkept : Unkept pid after)
    (member : row ∈ world.db.rows) (queued : row.isQueued = true) (resolved : Resolved world.db row after.db) :
    Draining start pid after where
  unkept := unkept
  absent id none := by
    have gone := draining.absent id none
    rw [resolved.others id, gone]
    rintro rfl
    rw [find_of_mem member] at gone
    cases gone
  waiting first before waits := by
    obtain ⟨mine, kept, state⟩ := draining.waiting first before waits
    by_cases same : first.id = row.id
    · obtain ⟨mine, found, terminal | ⟨again, _⟩⟩ := resolved.mine
      · exact ⟨mine, same ▸ found, .inr terminal⟩
      · exact ⟨mine, same ▸ found, .inl (decide_eq_true (.inl again))⟩
    · exact ⟨mine, (resolved.others _ same).trans kept, state⟩
  others first before other := by
    have kept := draining.others first before other
    refine (resolved.others _ fun same => ?_).trans kept
    rw [same, find_of_mem member] at kept
    rw [Option.some.inj kept, other] at queued
    cases queued

theorem backlog_settled (draining : Draining start pid world) (member : row ∈ world.db.rows)
    (queued : row.isQueued = true) (resolved : Resolved world.db row now) :
    backlog start.rows now < backlog start.rows world.db := by
  have there : world.db.find row.id = some row := find_of_mem member
  obtain ⟨mine, found, attempted⟩ := resolved.mine
  -- the row that was settled counts for less, and no other for more
  have lower : ((now.find row.id).map Row.attemptsLeft).getD 0 <
      ((world.db.find row.id).map Row.attemptsLeft).getD 0 := by
    rw [found, there]
    exact attempted.attemptsLeft_lt queued
  obtain ⟨first, before, same⟩ : ∃ first ∈ start.rows, first.id = row.id := by
    cases old : start.find row.id with
    | none =>
      rw [draining.absent row.id old] at there
      cases there
    | some first => exact ⟨first, Keyed.Table.find_eq_some.mp old⟩
  refine List.sum_lt_sum _ _ (fun other _ => ?_) ⟨first, before, same ▸ lower⟩
  by_cases own : other.id = row.id
  · exact own ▸ lower.le
  · rw [resolved.others _ own]

/-- One turn keeps what is between turns, and does some of what is left, if anything is. -/
theorem Draining.turn {worker : String} (idle : Unworked start) (draining : Draining start pid world) :
    (TaskEngine.workerTurn config worker).Ensures (tended config pid) Faultless
      (fun _ after => Draining start pid after ∧
        backlog start.rows after.db ≤ backlog start.rows world.db - 1) world := by
  refine (TaskEngine.ensures_workerTurn (draining.idle idle) rfl draining.unkept).mono fun _ after turn => ?_
  obtain ⟨unkept, turned⟩ := turn
  cases turned with
  | nothing same empty =>
    refine ⟨⟨unkept, same ▸ draining.absent, same ▸ draining.waiting, same ▸ draining.others⟩, ?_⟩
    -- an idle turn is no progress, but then nothing is left
    have done : backlog start.rows world.db = 0 := by
      refine List.sum_eq_zero fun left member => ?_
      obtain ⟨first, _, rfl⟩ := List.mem_map.mp member
      cases there : world.db.find first.id with
      | none => rfl
      | some row => exact Row.attemptsLeft_of_not (empty row (Keyed.Table.find_eq_some.mp there).1)
    rw [same]
    omega
  | settled member queued resolved =>
    refine ⟨draining.settled unkept member queued resolved, ?_⟩
    have lower := backlog_settled draining member queued resolved
    omega

/-! ## The queue is drained -/

/-- What waited has ended; nothing else has changed. -/
structure Drained (start now : ImageTable) : Prop where
  ended : ∀ row ∈ start.rows, row.isQueued = true →
    ∃ mine ∈ now.rows, mine.id = row.id ∧ mine.status.isTerminal = true
  others : ∀ row ∈ start.rows, row.isQueued = false → row ∈ now.rows
  fresh : ∀ mine ∈ now.rows, ∃ row ∈ start.rows, row.id = mine.id

/-- A worker by itself brings every waiting task to its end, in as many turns as the attempts that
are left to them all, whatever the model service answers.
-/
theorem queue_drains {n : Nat}
    (turns : Rounds (tended config pid) Faultless (TaskEngine.workerTurn config worker) n world after)
    (idle : Unworked world.db) (unkept : Unkept pid world) (enough : attemptsLeft world.db ≤ n) :
    Drained world.db after.db := by
  have begun : Draining world.db pid world := by
    refine ⟨unkept, fun _ => id, fun row member queued => ⟨row, ?_, .inl queued⟩, fun row member _ => ?_⟩
    · exact find_of_mem member
    · exact find_of_mem member
  have turn : ∀ w, Draining world.db pid w → (TaskEngine.workerTurn config worker).Ensures (tended config pid) Faultless
      (fun _ after => Draining world.db pid after ∧
        backlog world.db.rows after.db ≤ backlog world.db.rows w.db - 1) w := fun w draining => draining.turn idle
  obtain ⟨draining, low⟩ := turns.lowers turn begun
  have done : backlog world.db.rows after.db = 0 := by
    rw [backlog_self] at low
    omega
  constructor
  · intro row member queued
    obtain ⟨mine, found, waits | terminal⟩ := draining.waiting row member queued
    · -- a row that still waits would count for something
      have left : mine.attemptsLeft = 0 := by
        have zero := List.sum_eq_zero_iff.mp done _ (List.mem_map_of_mem member)
        rwa [found] at zero
      exact absurd left (Nat.ne_of_gt (Row.attemptsLeft_pos waits))
    · exact ⟨mine, (Keyed.Table.find_eq_some.mp found).1, (Keyed.Table.find_eq_some.mp found).2, terminal⟩
  · exact fun row member other => (Keyed.Table.find_eq_some.mp (draining.others row member other)).1
  · intro mine member
    cases found : world.db.find mine.id with
    | none =>
      have gone := draining.absent _ found
      rw [find_of_mem member] at gone
      cases gone
    | some row => exact ⟨row, Keyed.Table.find_eq_some.mp found⟩

/-! ## One task that has been deferred nine times -/

instance (op : Op) (choice : Choice) : Decidable (Faultless op choice) :=
  match op with
  | .sql _ | .publishTaskUpdated _ => inferInstanceAs (Decidable (choice.outcome = .done))
  | .redisAvailable => inferInstanceAs (Decidable (choice.outcome ≠ .done))
  | .httpGet _ _ followRedirects =>
    inferInstanceAs (Decidable (if followRedirects then choice.thrown = none else choice.thrown ≠ some .other))
  | .lastInsertId | .now | .random | .cacheGet _ | .cacheSetex .. | .cacheDel _ | .bumpVersion ..
  | .getVersion .. | .enqueueTask _ | .rebuildTaskQueue _ | .dequeueTask | .removeFromQueue _
  | .acquireLease .. | .renewRedisLease .. | .releaseLease .. | .forceReleaseLease _ | .putObject ..
  | .getObject _ | .presignGetUrl _ | .deleteObject _ | .postJson .. | .startLeaseKeeper ..
  | .stopLeaseKeeper => isTrue trivial

def wornTask : Row :=
  ImageRepo.insertValues { user_id := 1, prompt := "abc", status := Queued, retry_count := 9 } 0

def wornWorld : World := { World.empty with db := (Stmt.insert wornTask).table .empty }

/-- The model service is down once more. -/
def lastTurn : List Choice :=
  [refused, {}, {}, {}, {}, {}, {}, unavailable, {}, {}, refused, {}, {}, {}]

def wornTurn : Program (Except Thrown Unit) :=
  TaskEngine.workerTurn defaultConfig (TaskEngine.workerId defaultConfig 0)

theorem queue_drains_wornWorld : ∃ after : World,
    after.db.rows.map (fun row => (row.status, row.failure_code)) = [(Failed, failure.kModelServiceUnavailable)] ∧
      Drained wornWorld.db after.db := by
  have quiet : ∀ step ∈ withChoices lastTurn, ∀ world, (tended defaultConfig 0).drift world (step.1 world) := by
    intro step member world
    obtain ⟨choice, _, rfl⟩ := List.mem_map.mp member
    exact .refl
  obtain ⟨value, after, ran, rows⟩ : ∃ value after, Executes (tended defaultConfig 0) wornTurn wornWorld
      (wornTurn.performed (perform defaultConfig 0) (withChoices lastTurn) wornWorld) value after ∧
      after.db.rows.map (fun row => (row.status, row.failure_code)) = [(Failed, failure.kModelServiceUnavailable)] :=
    executes_of_observed quiet (by decide +kernel)
  have turns : Rounds (tended defaultConfig 0) Faultless wornTurn 1 wornWorld after :=
    .succ ran (by decide +kernel) (.zero after)
  have idle : ∀ row ∈ wornWorld.db.rows, row.status ≠ Generating := by decide
  have unkept : ∀ keeper ∈ wornWorld.keepers, keeper.owner ≠ 0 := by decide
  exact ⟨after, rows, queue_drains turns idle unkept (by decide)⟩

end Text2Image
