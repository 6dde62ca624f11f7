import Text2Image.Services.RequestProtocol

/-! Worker and scanner turns keep to their protocol. -/

set_option autoImplicit false

namespace Text2Image

open Concurrency TaskStatus

variable {config : Config} {past : Past}

/-- What a turn carries of its row until it stores an image. -/
structure CopyOf (row : Row) (image : ImageGeneration) : Prop where
  same : SameTask row image
  storage_key : image.storage_key = row.storage_key

theorem CopyOf.of_row (row : Row) : CopyOf row (ImageRepo.rowToImageGeneration row) :=
  ⟨⟨rfl, rfl, rfl⟩, rfl⟩

/-- The image could not be written back, and nothing that matters to its object was done since. -/
def Unfinished (past : Past) (image : ImageGeneration) : Prop :=
  ∀ key, objectKeyOf image.storage_key = some key → Removable past key

namespace GenerationClient

/-! ## One generation -/

variable {row : Row} {generation : ImageGeneration}

theorem copyOf_failed (copy : CopyOf row generation) (code message : String) :
    CopyOf row (failed generation code message) :=
  ⟨⟨copy.same.id, copy.same.user_id, copy.same.worker_id⟩, copy.storage_key⟩

theorem copyOf_withException (copy : CopyOf row generation) (thrown : Thrown) :
    CopyOf row (withException generation thrown) := by
  cases thrown <;> exact copyOf_failed copy _ _

theorem copyOf_withResponse (copy : CopyOf row generation) (result : HttpResult) :
    CopyOf row (withResponse generation result) := by
  unfold withResponse
  split
  · exact copyOf_failed copy _ _
  · split
    · exact copyOf_failed copy _ _
    · split
      · exact ⟨⟨copy.same.id, copy.same.user_id, copy.same.worker_id⟩, copy.storage_key⟩
      · exact copyOf_failed copy _ _

theorem copyOf_accepted (copy : CopyOf row generation) : CopyOf row (accepted generation) := by
  unfold accepted
  split
  · exact ⟨⟨copy.same.id, copy.same.user_id, copy.same.worker_id⟩, copy.storage_key⟩
  · exact copy

theorem copyOf_ended (copy : CopyOf row generation) : CopyOf row (ended generation) := by
  unfold ended
  split
  · exact ⟨⟨copy.same.id, copy.same.user_id, copy.same.worker_id⟩, copy.storage_key⟩
  · exact copy

theorem copyOf_settled (copy : CopyOf row generation) : CopyOf row (settled generation) :=
  copyOf_ended (copyOf_accepted copy)

/-- A settled generation has ended. -/
theorem isTerminal_settled (generation : ImageGeneration) :
    (settled generation).status.isTerminal = true := by
  unfold settled ended
  split
  · rfl
  · rename_i other
    cases status : (accepted generation).status <;> simp_all [isTerminal]

variable {call : Call}

theorem keeps_requestGeneration (copy : CopyOf row generation) :
    call.Keeps config past (requestGeneration config generation) fun _ answered =>
      CopyOf row answered.1 := by
  unfold requestGeneration
  split
  · rename_i what _
    exact .done (copyOf_withException copy (.exception what))
  · split
    · rename_i what _
      exact .done (copyOf_withException copy (.exception what))
    · refine .call trivial fun result => ?_
      cases result with
      | error thrown => exact .done (copyOf_withException copy thrown)
      | ok result => exact .done (copyOf_withResponse copy result)

theorem keeps_downloadImageBytes (url : String) (timeoutSeconds : Int) :
    call.Keeps config past (downloadImageBytes url timeoutSeconds) fun _ _ => True := by
  unfold downloadImageBytes
  refine .call trivial fun result => ?_
  cases result with
  | error thrown => exact .done trivial
  | ok result =>
    simp only [Prog.bind]
    split <;> exact .done trivial

theorem keeps_withDownload (copy : CopyOf row generation) (serviceUrl : String)
    (timeoutSeconds : Int) :
    call.Keeps config past (withDownload generation serviceUrl timeoutSeconds) fun _ result =>
      ∀ image, result = .ok image → CopyOf row image := by
  unfold withDownload
  split
  · refine .done ?_
    intro image found
    cases found
    exact copy
  · apply (keeps_downloadImageBytes _ _).bind
    intro later bytes _ _
    cases bytes with
    | error thrown =>
      refine .done ?_
      intro image found
      cases found
    | ok bytes =>
      refine .done ?_
      intro image found
      cases found
      exact ⟨⟨copy.same.id, copy.same.user_id, copy.same.worker_id⟩, copy.storage_key⟩

variable {index : Nat}

/-- What `store` reports as stored was the last thing done. -/
theorem keeps_store {requestId rawBytes : String}
    (claimed : Claimed (TaskEngine.workerId config index) past row) :
    (Call.workerTurn index).Keeps config past
      (ImageStorage.store row.user_id requestId rawBytes "image/png") fun later result =>
        ∀ key, result = .ok key → StoredFor later row.user_id key := by
  unfold ImageStorage.store
  split
  · refine .done ?_
    intro key found
    cases found
  · rename_i positive
    split
    · refine .done ?_
      intro key found
      cases found
    · refine .call ⟨row, requestId, claimed, Int.not_le.mp positive, rfl⟩ fun stored => ?_
      match stored with
      | .error what =>
        refine .done ?_
        intro key found
        cases found
      | .ok false =>
        refine .done ?_
        intro key found
        cases found
      | .ok true =>
        refine .done ?_
        intro key found
        cases found
        exact ⟨⟨requestId, rfl⟩, _, _, rfl⟩

theorem keeps_persistGeneratedImage
    (claimed : Claimed (TaskEngine.workerId config index) past row) (copy : CopyOf row generation)
    (terminal : generation.status.isTerminal = true) (completed : generation.completed_at.isSome = true) :
    (Call.workerTurn index).Keeps config past (persistGeneratedImage generation) fun later result =>
      Concludes later row result := by
  have same := copy.same
  unfold persistGeneratedImage
  split
  · rename_i unsuccessful
    exact .done ⟨same, terminal, completed, fun success => absurd success unsuccessful,
      .inl copy.storage_key⟩
  · split
    · apply keeps_readClock.bind
      intro later now _ _
      refine .done ⟨⟨same.id, same.user_id, same.worker_id⟩, rfl, rfl, ?_, .inl copy.storage_key⟩
      intro success
      cases success
    · rw [same.user_id]
      apply (keeps_store claimed).bind
      intro later stored _ known
      cases stored with
      | ok key =>
        refine .done ⟨⟨same.id, rfl, same.worker_id⟩, terminal, completed, ?_, ?_⟩
        · intro _
          exact (known key rfl).2
        · exact .inr (.inr (known key rfl))
      | error what =>
        apply keeps_readClock.bind
        intro later' now _ _
        refine .done ⟨⟨same.id, same.user_id, same.worker_id⟩, rfl, rfl, ?_, .inr (.inl rfl)⟩
        intro success
        cases success

theorem keeps_conclude (claimed : Claimed (TaskEngine.workerId config index) past row)
    (copy : CopyOf row generation) :
    (Call.workerTurn index).Keeps config past (conclude generation) fun later result =>
      Concludes later row result := by
  have ends := isTerminal_settled generation
  have copy' := copyOf_settled copy
  unfold conclude
  dsimp only
  rw [if_pos ends]
  apply keeps_readClock.bind
  intro later now grown _
  exact keeps_persistGeneratedImage (claimed.grow grown)
    ⟨⟨copy'.same.id, copy'.same.user_id, copy'.same.worker_id⟩, copy'.storage_key⟩ ends rfl

theorem keeps_generate (claimed : Claimed (TaskEngine.workerId config index) past row)
    (copy : CopyOf row generation) :
    (Call.workerTurn index).Keeps config past (generate config generation) fun later outcome =>
      ∀ result, outcome = .ok result → Concludes later row result := by
  unfold generate
  apply (keeps_requestGeneration copy).bind
  intro later answered grown copy'
  apply (keeps_withDownload copy' _ _).bind
  intro later' downloaded grown' copy''
  cases downloaded with
  | error thrown =>
    refine .done ?_
    intro result found
    cases found
  | ok image =>
    apply (keeps_conclude (claimed.grow (List.Subset.trans grown grown')) (copy'' image rfl)).bind
    intro later'' result _ concludes
    refine .done ?_
    intro result' found
    cases found
    exact concludes

theorem keeps_checkHealth :
    call.Keeps config past (checkHealth config) fun _ _ => True := by
  unfold checkHealth
  split
  · exact .done trivial
  · split
    · exact .done trivial
    · refine .call trivial fun result => ?_
      match result with
      | .error (.exception what) => exact .done trivial
      | .error .other => exact .done trivial
      | .ok result => exact .done trivial

theorem keeps_cleanupOrphanedStoredImage {image : ImageGeneration}
    (unfinished : Unfinished past image) :
    (Call.workerTurn index).Keeps config past (cleanupOrphanedStoredImage image) fun _ _ => True := by
  unfold cleanupOrphanedStoredImage
  split
  · exact .done trivial
  · rename_i nonempty
    have stores : (Call.workerTurn index).stores config past (.deleteObject image.storage_key) :=
      unfinished _ (objectKeyOf_ne fun empty => nonempty (String.isEmpty_iff.mpr empty))
    apply (ImageService.keeps_remove stores).bind
    intros
    exact .done trivial

end GenerationClient

namespace TaskEngine

variable {call : Call} {row : Row} {task : ImageGeneration} {index : Nat}

/-! ## Pieces of a turn -/

theorem keeps_invalidateAllForTask (userId id : Int) :
    call.Keeps config past (invalidateAllForTask userId id) fun _ _ => True := by
  unfold invalidateAllForTask
  apply (keeps_cacheDel _).bind
  intro _ _ _ _
  apply (keeps_invalidateListCacheFor userId).bind
  intros
  exact .done trivial

theorem keeps_releaseLease (taskId : Int) (worker : String) :
    call.Keeps config past (releaseLease taskId worker) fun _ _ => True :=
  .call trivial fun _ => .done trivial

theorem keeps_releaseRedisLease (taskId : Int) (worker : String) :
    call.Keeps config past (releaseRedisLease taskId worker) fun _ _ => True := by
  unfold releaseRedisLease
  apply keeps_redisAvailable.bind
  intro _ up _ _
  cases up with
  | true => exact keeps_releaseLease taskId worker
  | false => exact .done trivial

theorem keeps_publish (image : ImageGeneration) :
    call.Keeps config past (publish image) fun _ _ => True := by
  unfold publish
  apply (keeps_publishTaskUpdated image).bind
  intro _ published _ _
  cases published <;> exact .done trivial

theorem keeps_stopLeaseKeeper : call.Keeps config past stopLeaseKeeper fun _ _ => True :=
  .call trivial fun _ => .done trivial

/-- Releasing the Redis lease changes nothing for the object. -/
theorem keeps_releaseRedisLease_unfinished {image : ImageGeneration} (unfinished : Unfinished past image)
    (taskId : Int) (worker : String) :
    call.Keeps config past (releaseRedisLease taskId worker) fun later _ => Unfinished later image := by
  have idle : ∀ {past : Past} {key : String} {op : Op} {answer : op.Answer}, Removable past key →
      keyInHand ((⟨op, answer⟩ : Taken interface) :: past) = keyInHand past →
      justStored ((⟨op, answer⟩ : Taken interface) :: past) = none →
      Removable ((⟨op, answer⟩ : Taken interface) :: past) key :=
    fun removable same none => ⟨same.trans removable.1, none⟩
  unfold releaseRedisLease
  refine .call trivial fun up => ?_
  cases up with
  | true =>
    exact .call trivial fun _ => .done fun key named => idle (idle (unfinished key named) rfl rfl) rfl rfl
  | false => exact .done fun key named => idle (unfinished key named) rfl rfl

/-- A finish of the claimed row; where it changes nothing, the image is still to be removed. -/
theorem keeps_finishClaimedTask {image : ImageGeneration}
    (claimed : Claimed (workerId config index) past row) (concludes : Concludes past row image) :
    (Call.workerTurn index).Keeps config past (ImageRepo.finishClaimedTask image) fun later finished =>
      finished ≠ .ok true → Unfinished later image := by
  have sends : (Call.workerTurn index).sends config past (.finishClaimedTask image) :=
    ⟨row, claimed, concludes⟩
  unfold ImageRepo.finishClaimedTask
  apply ((ImageRepo.keeps_updates rfl sends).and (gives_updates (.finishClaimedTask image) rfl)).mono
  rintro later finished _ ⟨_, answer, rfl, rfl⟩ unchanged key named
  match answer with
  | .error error => exact ⟨named, rfl⟩
  | .ok (changed : Nat) =>
    cases changed with
    | zero => exact ⟨named, rfl⟩
    | succ _ => exact (unchanged rfl).elim

theorem keeps_failForModelHealth (claimed : Claimed (workerId config index) past row)
    (copy : CopyOf row task) (worker : String) (decision : model_health.GateDecision) :
    (Call.workerTurn index).Keeps config past (failForModelHealth task worker decision)
      fun _ _ => True := by
  unfold failForModelHealth
  apply keeps_readClock.bind
  intro later now grown _
  have concludes : Concludes later row { task with
      status := Failed
      failure_code := decision.failure_code
      error_message := decision.message
      completed_at := some now } := by
    refine ⟨⟨copy.same.id, copy.same.user_id, copy.same.worker_id⟩, rfl, rfl, ?_, .inl copy.storage_key⟩
    intro success
    cases success
  apply (keeps_finishClaimedTask (claimed.grow grown) concludes).bind
  intro _ finished _ _
  apply (keeps_releaseRedisLease _ worker).bind
  intro _ _ _ _
  apply (keeps_invalidateAllForTask _ _).bind
  intro _ _ _ _
  match finished with
  | .ok true => exact keeps_publish _
  | .ok false => exact .done trivial
  | .error error => exact .done trivial

theorem keeps_deferForModelHealth (claimed : Claimed (workerId config index) past row)
    (same : SameTask row task) (decision : model_health.GateDecision)
    (budget : row.retry_count < model_health.kMaxModelHealthAttempts - 1) :
    (Call.workerTurn index).Keeps config past
      (deferForModelHealth task (workerId config index) decision) fun _ _ => True := by
  have sends : (Call.workerTurn index).sends config past (.deferClaimedTask task.id task.user_id
      (workerId config index) decision.failure_code decision.message) :=
    ⟨row, claimed, same.id, same.user_id, rfl, budget⟩
  unfold deferForModelHealth ImageRepo.deferClaimedTaskForModelHealth
  apply (ImageRepo.keeps_updates rfl sends).bind
  intro _ deferred _ _
  apply (keeps_releaseRedisLease _ _).bind
  intro _ _ _ _
  match deferred with
  | .ok true =>
    apply (keeps_invalidateAllForTask _ _).bind
    intro _ _ _ _
    apply (keeps_publish _).bind
    intro _ published _ _
    cases published with
    | error thrown => exact .done trivial
    | ok _ =>
      apply (keeps_enqueueTask _).bind
      intros
      exact .done trivial
  | .ok false => exact .done trivial
  | .error error => exact .done trivial

theorem keeps_applyModelHealthGate (claimed : Claimed (workerId config index) past row) :
    (Call.workerTurn index).Keeps config past (applyModelHealthGate config
      (ImageRepo.rowToImageGeneration row) (workerId config index)) fun _ _ => True := by
  have copy := CopyOf.of_row row
  unfold applyModelHealthGate
  apply GenerationClient.keeps_checkHealth.bind
  intro later health grown _
  cases health with
  | error thrown => exact .done trivial
  | ok health =>
    dsimp only
    split
    · exact .done trivial
    · apply (keeps_failForModelHealth (claimed.grow grown) copy _ _).bind
      intros
      exact .done trivial
    · rename_i deferred
      have budget := model_health.retryCount_of_defer deferred
      apply (keeps_deferForModelHealth (claimed.grow grown) copy.same _ budget).bind
      intros
      exact .done trivial

theorem keeps_finishGeneration {result : ImageGeneration}
    (claimed : Claimed (workerId config index) past row) (concludes : Concludes past row result)
    (worker : String) :
    (Call.workerTurn index).Keeps config past (finishGeneration task result worker)
      fun _ _ => True := by
  unfold finishGeneration
  apply (keeps_finishClaimedTask claimed concludes).bind
  intro later finished _ known
  have cleaned : Unfinished later result → (Call.workerTurn index).Keeps config later (do
      releaseRedisLease task.id worker
      GenerationClient.cleanupOrphanedStoredImage result
      return (Except.ok () : Except Thrown Unit)) fun _ _ => True := by
    intro unfinished
    apply (keeps_releaseRedisLease_unfinished unfinished _ worker).bind
    intro later' _ _ unfinished'
    apply (GenerationClient.keeps_cleanupOrphanedStoredImage unfinished').bind
    intros
    exact .done trivial
  match finished with
  | .ok true =>
    apply (keeps_releaseRedisLease _ worker).bind
    intro _ _ _ _
    apply (keeps_invalidateAllForTask _ _).bind
    intro _ _ _ _
    exact keeps_publish _
  | .ok false => exact cleaned (known fun same => by cases same)
  | .error error => exact cleaned (known fun same => by cases same)

theorem keeps_generateUnderLease (claimed : Claimed (workerId config index) past row) :
    (Call.workerTurn index).Keeps config past (generateUnderLease config
      (ImageRepo.rowToImageGeneration row) (workerId config index)) fun _ _ => True := by
  have copy := CopyOf.of_row row
  have kept : (Call.workerTurn index).Keeps config past
      (startLeaseKeeper (ImageRepo.rowToImageGeneration row) (workerId config index))
      fun _ _ => True :=
    .call ⟨index, row, rfl, rfl, claimed, rfl, rfl⟩ fun _ => .done trivial
  unfold generateUnderLease
  apply kept.bind
  intro later _ grown _
  apply (GenerationClient.keeps_generate (claimed.grow grown) copy).bind
  intro later' generated grown' known
  cases generated with
  | error thrown =>
    apply keeps_stopLeaseKeeper.bind
    intros
    exact .done trivial
  | ok result =>
    apply (keeps_finishGeneration (claimed.grow (List.Subset.trans grown grown')) (known result rfl) _).bind
    intro _ _ _ _
    apply keeps_stopLeaseKeeper.bind
    intros
    exact .done trivial

theorem keeps_processClaimedTask (claimed : Claimed (workerId config index) past row) :
    (Call.workerTurn index).Keeps config past (processClaimedTask config
      (ImageRepo.rowToImageGeneration row) (workerId config index)) fun _ _ => True := by
  unfold processClaimedTask
  apply (keeps_invalidateAllForTask _ _).bind
  intro _ _ grown _
  apply (keeps_publish _).bind
  intro _ published grown' _
  cases published with
  | error thrown => exact .done trivial
  | ok _ =>
    have claimed' := claimed.grow (List.Subset.trans grown grown')
    apply (keeps_applyModelHealthGate claimed').bind
    intro _ proceed grown'' _
    match proceed with
    | .error thrown => exact .done trivial
    | .ok false => exact .done trivial
    | .ok true => exact keeps_generateUnderLease (claimed'.grow grown'')

/-! ## Claims -/

/-- The task a claim hands over is the row it has read back. -/
theorem keeps_claimTaskById (taskId leaseSeconds : Int) :
    (Call.workerTurn index).Keeps config past
      (ImageRepo.claimTaskById taskId (workerId config index) leaseSeconds) fun later result =>
        ∀ image, result = .ok (some image) → ∃ row, Claimed (workerId config index) later row ∧
          image = ImageRepo.rowToImageGeneration row := by
  have claims : ∀ past now expiresAt, (Call.workerTurn index).sends config past
      (.claimTaskById taskId (workerId config index) now expiresAt) := fun _ _ _ => rfl
  have reads : ∀ past, (Call.workerTurn index).sends config past
      (.readClaimedById taskId (workerId config index)) := fun _ => rfl
  unfold ImageRepo.claimTaskById
  apply keeps_readClock.bind
  intro _ now _ _
  apply (ImageRepo.keeps_updates rfl (claims _ _ _)).bind
  intro later changed _ known
  match changed with
  | .error error =>
    refine .done ?_
    intro image found
    cases found
  | .ok false =>
    refine .done ?_
    intro image found
    cases found
  | .ok true =>
    obtain ⟨count, claim, positive⟩ := known rfl
    apply (keeps_sql (reads _)).bind
    intro later' answer grown read
    match answer with
    | .error error =>
      refine .done ?_
      intro image found
      cases found
    | .ok (none : Option Row) =>
      refine .done ?_
      intro image found
      cases found
    | .ok (some row) =>
      refine .done ?_
      intro image found
      cases found
      exact ⟨row, .byId (grown claim) positive read, rfl⟩

theorem keeps_claimNextTask (leaseSeconds : Int) :
    (Call.workerTurn index).Keeps config past
      (ImageRepo.claimNextTask (workerId config index) leaseSeconds) fun later result =>
        ∀ image, result = .ok (some image) → ∃ row, Claimed (workerId config index) later row ∧
          image = ImageRepo.rowToImageGeneration row := by
  have claims : ∀ past now expiresAt, (Call.workerTurn index).sends config past
      (.claimNextTask (workerId config index) now expiresAt) := fun _ _ _ => rfl
  have reads : ∀ past expiresAt, (Call.workerTurn index).sends config past
      (.readClaimed (workerId config index) expiresAt) := fun _ _ => rfl
  unfold ImageRepo.claimNextTask
  apply keeps_readClock.bind
  intro _ now _ _
  apply (ImageRepo.keeps_updates rfl (claims _ _ _)).bind
  intro later changed _ known
  match changed with
  | .error error =>
    refine .done ?_
    intro image found
    cases found
  | .ok false =>
    refine .done ?_
    intro image found
    cases found
  | .ok true =>
    obtain ⟨count, claim, positive⟩ := known rfl
    apply (keeps_sql (reads _ _)).bind
    intro later' answer grown read
    match answer with
    | .error error =>
      refine .done ?_
      intro image found
      cases found
    | .ok (none : Option Row) =>
      refine .done ?_
      intro image found
      cases found
    | .ok (some row) =>
      refine .done ?_
      intro image found
      cases found
      exact ⟨row, .next (grown claim) positive read, rfl⟩

theorem keeps_claim :
    (Call.workerTurn index).Keeps config past (claim config (workerId config index))
      fun later task => ∀ image, task = some image → ∃ row,
        Claimed (workerId config index) later row ∧ image = ImageRepo.rowToImageGeneration row := by
  have nothing : ∀ {later : Past}, (Call.workerTurn index).Keeps config later
      (return (none : Option ImageGeneration)) fun later task => ∀ image, task = some image →
        ∃ row, Claimed (workerId config index) later row ∧
          image = ImageRepo.rowToImageGeneration row := by
    intro later
    refine .done ?_
    intro image found
    cases found
  unfold claim
  apply keeps_redisAvailable.bind
  intro _ up _ _
  cases up with
  | true =>
    unfold claimQueued
    refine .call trivial fun taskId => ?_
    match taskId with
    | none => exact nothing
    | some taskId =>
      refine .call trivial fun acquired => ?_
      match acquired with
      | false => exact nothing
      | true =>
        apply (keeps_claimTaskById taskId _).bind
        intro later claimed _ known
        match claimed with
        | .ok (some task) =>
          refine .done ?_
          intro image found
          cases found
          exact known _ rfl
        | .ok none =>
          apply (keeps_releaseLease _ _).bind
          intro _ _ _ _
          exact nothing
        | .error error =>
          apply (keeps_releaseLease _ _).bind
          intro _ _ _ _
          exact nothing
  | false =>
    unfold claimOldest
    apply (keeps_claimNextTask _).bind
    intro later claimed _ known
    match claimed with
    | .ok task =>
      refine .done ?_
      intro image found
      exact known image (congrArg Except.ok found)
    | .error error => exact nothing

theorem keeps_workerTurn :
    (Call.workerTurn index).Keeps config past (workerTurn config (workerId config index))
      fun _ _ => True := by
  unfold workerTurn
  apply keeps_claim.bind
  intro later task _ known
  cases task with
  | none => exact .done trivial
  | some task =>
    obtain ⟨row, claimed, rfl⟩ := known task rfl
    exact keeps_processClaimedTask claimed

/-! ## Scanner and recovery -/

theorem keeps_recoverOrphanedTasks (reads : ∀ past, call.sends config past .selectQueuedIds) :
    call.Keeps config past recoverOrphanedTasks fun _ _ => True := by
  unfold recoverOrphanedTasks
  apply keeps_redisAvailable.bind
  intro _ up _ _
  cases up with
  | false => exact .done trivial
  | true =>
    unfold ImageRepo.findQueuedTaskIds
    apply (keeps_sql (reads _)).bind
    intro _ ids _ _
    cases ids with
    | error error => exact .done trivial
    | ok ids => exact .call trivial fun _ => .done trivial

theorem keeps_announceExpired (leases : List ImageRepo.ExpiredLease) :
    call.Keeps config past (announceExpired leases) fun _ _ => True := by
  induction leases generalizing past with
  | nil => exact .done trivial
  | cons lease leases ih =>
    unfold announceExpired
    apply (keeps_invalidateAllForTask _ _).bind
    intro _ _ _ _
    split
    · apply (keeps_enqueueTask _).bind
      intro _ _ _ _
      exact ih
    · exact ih

theorem keeps_expireLeasesReturningExpired :
    Call.leaseExpiryTurn.Keeps config past ImageRepo.expireLeasesReturningExpired
      fun _ _ => True := by
  have selects : ∀ past now requeue, Call.leaseExpiryTurn.sends config past
      (.selectExpired now requeue) := fun _ _ _ => trivial
  have requeues : ∀ past now, Call.leaseExpiryTurn.sends config past (.requeueExpired now) :=
    fun _ _ => trivial
  have timesOut : ∀ past now, Call.leaseExpiryTurn.sends config past (.timeoutExpired now) :=
    fun _ _ => trivial
  unfold ImageRepo.expireLeasesReturningExpired
  apply keeps_readClock.bind
  intro _ now _ _
  apply (keeps_sql (selects _ _ _)).bind
  intro _ requeued _ _
  cases requeued with
  | error error => exact .done trivial
  | ok requeued =>
    apply (keeps_sql (selects _ _ _)).bind
    intro _ timedOut _ _
    cases timedOut with
    | error error => exact .done trivial
    | ok timedOut =>
      have expired : ∀ {later : Past}, Call.leaseExpiryTurn.Keeps config later
          ImageRepo.expireLeasesUnsafe fun _ _ => True := by
        intro later
        unfold ImageRepo.expireLeasesUnsafe
        apply keeps_readClock.bind
        intro _ now' _ _
        apply (keeps_sql (requeues _ _)).bind
        intro _ first _ _
        cases first with
        | error error => exact .done trivial
        | ok first =>
          apply (keeps_sql (timesOut _ _)).bind
          intro _ second _ _
          cases second <;> exact .done trivial
      apply expired.bind
      intro _ total _ _
      cases total <;> exact .done trivial

theorem keeps_leaseExpiryTurn :
    Call.leaseExpiryTurn.Keeps config past leaseExpiryTurn fun _ _ => True := by
  have reads : ∀ past, Call.leaseExpiryTurn.sends config past .selectQueuedIds := fun _ => trivial
  unfold leaseExpiryTurn
  apply keeps_expireLeasesReturningExpired.bind
  intro _ expired _ _
  cases expired with
  | error error => exact keeps_recoverOrphanedTasks reads
  | ok expired =>
    apply (keeps_announceExpired expired).bind
    intro _ _ _ _
    exact keeps_recoverOrphanedTasks reads

end TaskEngine

/-! ## All calls -/

/-- Every request, worker turn and scanner turn keeps to its protocol. -/
theorem backend_obeys (config : Config) :
    (backend config).Obeys fun call => call.protocol config := by
  have replied : ∀ {α : Type} {call : Call} {program : Program α} (reply : α → Reply),
      call.Keeps config [] program (fun _ _ => True) →
      call.Keeps config [] (do return reply (← program)) fun _ _ => True := by
    intro α call program reply keeps
    apply keeps.bind
    intros
    exact .done trivial
  intro call
  cases call with
  | create userId payload isAdmin => exact replied _ ImageService.keeps_create
  | listMy userId page size => exact replied _ ImageService.keeps_listMy
  | listMyByStatus userId status page size => exact replied _ ImageService.keeps_listMyByStatus
  | getById userId id includeImagePayload => exact replied _ ImageService.keeps_getById
  | getBinaryById userId id => exact replied _ ImageService.keeps_getBinaryById
  | cancelById userId id => exact replied _ ImageService.keeps_cancelById
  | retryById userId id => exact replied _ ImageService.keeps_retryById
  | deleteById userId id => exact replied _ ImageService.keeps_deleteById
  | workerTurn index => exact replied _ TaskEngine.keeps_workerTurn
  | leaseExpiryTurn => exact replied (fun _ => .turn (.ok ())) TaskEngine.keeps_leaseExpiryTurn
  | recoverOrphanedTasks =>
    have reads : ∀ past, Call.recoverOrphanedTasks.sends config past .selectQueuedIds :=
      fun _ => trivial
    exact replied (fun _ => .turn (.ok ())) (TaskEngine.keeps_recoverOrphanedTasks reads)

end Text2Image
