import Text2Image.Services.Backend

/-! Parts of programs that insert, requeue and cache nothing, whatever they are
answered. What they drop from the cache are images, pages and urls.
-/

set_option autoImplicit false

namespace Text2Image

open Concurrency TaskStatus

/-- The operation inserts and requeues no row, hands out no task and caches nothing. -/
def Evicting : Op → Prop
  | .lastInsertId | .dequeueTask | .cacheSetex .. => False
  | .sql (.insert _) | .sql (.retryByIdAndUserId ..) | .sql (.deferClaimedTask ..)
  | .sql .selectQueuedIds | .sql (.requeueExpired _) => False
  | .cacheDel key => ImageCache.isImageKey key
  | _ => True

/-- The same, and it claims no task. -/
def Working : Op → Prop
  | .sql (.claimNextTask ..) | .sql (.readClaimed ..) | .sql (.claimTaskById ..)
  | .sql (.readClaimedById ..) => False
  | op => Evicting op

/-- Operations that insert nothing. -/
def Unnamed : Op → Prop
  | .sql (.insert _) => False
  | _ => True

variable {config : Config} {kind : Op → Prop}

theorem Working.evicting {op : Op} (working : Working op) : Evicting op := by
  unfold Working at working
  split at working
  · exact working.elim
  · exact working.elim
  · exact working.elim
  · exact working.elim
  · exact working

/-! ## Single operations -/

theorem only_perform (op : Op) (holds : kind op) : (Prog.perform (I := interface) op).Only kind :=
  ⟨holds, fun _ => trivial⟩

theorem only_updates (s : Stmt) (counts : s.Answer = Nat) (holds : kind (.sql s)) :
    (ImageRepo.updates s counts).Only kind := by
  refine Prog.Only.bind (only_perform (.sql s) holds) fun answer => ?_
  cases answer <;> trivial

theorem only_sql (s : Stmt) (holds : kind (.sql s)) : (sql s).Only kind := only_perform _ holds

/-! ## The parts of a creation -/

theorem only_checkActiveTasks {userId : Int} (counts : kind (.sql (.countActiveTasks userId)))
    (isAdmin : Bool) : (ImageService.checkActiveTasks config userId isAdmin).Only kind := by
  unfold ImageService.checkActiveTasks
  dsimp only
  split
  · refine (only_sql _ counts).bind fun active => ?_
    split
    · trivial
    · split <;> trivial
  · trivial

theorem only_requestIdOf (times : kind .now) (draws : kind .random) (generation : ImageGeneration) :
    (ImageService.requestIdOf generation).Only kind := by
  unfold ImageService.requestIdOf
  split
  · exact ⟨times, fun _ => ⟨draws, fun _ => trivial⟩⟩
  · trivial

theorem only_createdAtOf (times : kind .now) (generation : ImageGeneration) :
    (ImageRepo.createdAtOf generation).Only kind := by
  unfold ImageRepo.createdAtOf
  split
  · exact only_perform _ times
  · trivial

theorem only_findByRequestIdAndUserId {requestId : String} {userId : Int}
    (reads : kind (.sql (.selectByRequestIdAndUserId requestId userId))) :
    (ImageRepo.findByRequestIdAndUserId requestId userId).Only kind := by
  refine (only_sql _ reads).bind fun answer => ?_
  cases answer <;> trivial

theorem unnamed_announceCreated (userId : Int) (generation : ImageGeneration) :
    (ImageService.announceCreated userId generation).Only Unnamed := by
  refine ⟨trivial, fun published => ?_⟩
  cases published with
  | error what => trivial
  | ok _ =>
    refine ⟨trivial, fun _ => ⟨trivial, fun _ => ⟨trivial, fun available => ?_⟩⟩⟩
    cases available with
    | false => trivial
    | true => exact ⟨trivial, fun _ => trivial⟩

/-! ## Programs that insert nothing -/

theorem evicting_perform (op : Op) (evicting : Evicting op) :
    (Prog.perform (I := interface) op).Only Evicting :=
  only_perform op evicting

theorem working_perform (op : Op) (working : Working op) :
    (Prog.perform (I := interface) op).Only Working :=
  only_perform op working

theorem evicting_sql (s : Stmt) (evicting : Evicting (.sql s)) : (sql s).Only Evicting :=
  evicting_perform _ evicting

theorem working_dropImage (userId id : Int) :
    (cacheDel (ImageCache.metaKey userId id)).Only Working :=
  working_perform _ (ImageCache.metaKey_isImageKey userId id)

theorem evicting_dropImage (userId id : Int) :
    (cacheDel (ImageCache.metaKey userId id)).Only Evicting :=
  (working_dropImage userId id).mono fun _ => Working.evicting

theorem evicting_updates (s : Stmt) (counts : s.Answer = Nat) (evicting : Evicting (.sql s)) :
    (ImageRepo.updates s counts).Only Evicting :=
  only_updates s counts evicting

theorem evicting_findByIdAndUserId (id userId : Int) :
    (ImageRepo.findByIdAndUserId id userId).Only Evicting := by
  refine (evicting_sql _ (by trivial)).bind fun answer => ?_
  cases answer <;> trivial

theorem evicting_readBack (function : String) (id userId : Int) :
    (ImageRepo.readBack function id userId).Only Evicting := by
  refine (evicting_sql _ (by trivial)).bind fun answer => ?_
  split <;> trivial

theorem evicting_findPage (userId : Int) (status : Option TaskStatus) (page size : Int) :
    (ImageRepo.findPage userId status page size).Only Evicting := by
  refine (evicting_sql _ (by trivial)).bind fun answer => ?_
  cases answer with
  | error error => trivial
  | ok rows =>
    dsimp only
    split
    · refine (evicting_sql _ (by trivial)).bind fun answer => ?_
      cases answer <;> trivial
    · trivial

theorem working_enqueueTask (taskId : Int) : (enqueueTask taskId).Only Working := by
  refine (working_perform _ (by trivial)).bind fun available => ?_
  split
  · exact ⟨trivial, fun _ => trivial⟩
  · trivial

theorem evicting_enqueueTask (taskId : Int) : (enqueueTask taskId).Only Evicting :=
  (working_enqueueTask taskId).mono fun _ => Working.evicting

/-! ## Requests -/

theorem evicting_getBinaryById (userId id : Int) : (ImageService.getBinaryById userId id).Only Evicting := by
  unfold ImageService.getBinaryById
  split
  · trivial
  refine (evicting_findByIdAndUserId id userId).bind fun found => ?_
  split
  · trivial
  · trivial
  split
  · trivial
  unfold ImageStorage.getBytes
  split
  · trivial
  · refine (evicting_perform _ (by trivial)).bind fun answer => ?_
    split <;> trivial

theorem evicting_cancelById (userId id : Int) : (ImageService.cancelById userId id).Only Evicting := by
  have cancels : (ImageRepo.cancelByIdAndUserId id userId).Only Evicting := by
    refine (evicting_perform .now trivial).bind fun now => ?_
    refine (evicting_updates _ rfl (by trivial)).bind fun changed => ?_
    split
    · trivial
    · trivial
    · exact evicting_readBack _ _ _
  have drops : (ImageService.dropFromQueue id).Only Evicting := by
    refine (evicting_perform _ (by trivial)).bind fun available => ?_
    split
    · exact ⟨trivial, fun _ => ⟨trivial, fun _ => trivial⟩⟩
    · trivial
  unfold ImageService.cancelById
  split
  · trivial
  refine (evicting_findByIdAndUserId id userId).bind fun found => ?_
  split
  · trivial
  · trivial
  split
  · trivial
  refine cancels.bind fun updated => ?_
  split
  · trivial
  · trivial
  refine drops.bind fun _ => (evicting_perform _ (by trivial)).bind fun published => ?_
  split
  · trivial
  · exact (evicting_dropImage userId id).bind fun _ => ⟨trivial, fun _ => trivial⟩

theorem evicting_deleteById (userId id : Int) : (ImageService.deleteById userId id).Only Evicting := by
  have cleans : ∀ storageKey, (ImageService.cleanUpDeleted userId id storageKey).Only Evicting := by
    intro storageKey
    have removes : (ImageService.removeStored storageKey).Only Evicting := by
      unfold ImageService.removeStored ImageStorage.remove
      split
      · trivial
      · exact ⟨trivial, fun _ => trivial⟩
    have drops : (ImageService.dropPresigned storageKey).Only Evicting := by
      unfold ImageService.dropPresigned
      split
      · trivial
      · exact ⟨ImageCache.presignKey_isImageKey storageKey, fun _ => trivial⟩
    exact removes.bind fun _ => (evicting_dropImage userId id).bind fun _ => drops.bind fun _ =>
      (evicting_perform _ (by trivial)).bind fun _ => trivial
  unfold ImageService.deleteById
  split
  · trivial
  refine (evicting_findByIdAndUserId id userId).bind fun found => ?_
  split
  · trivial
  · trivial
  split
  · trivial
  refine (evicting_updates _ rfl (by trivial)).bind fun deleted => ?_
  split
  · trivial
  · trivial
  · exact (cleans _).bind fun _ => trivial

/-! ## Workers -/

theorem working_generate (task : ImageGeneration) :
    (GenerationClient.generate config task).Only Working := by
  have requests : (GenerationClient.requestGeneration config task).Only Working := by
    unfold GenerationClient.requestGeneration
    split
    · trivial
    split
    · trivial
    refine (working_perform _ (by trivial)).bind fun answer => ?_
    split <;> trivial
  have downloads : ∀ image serviceUrl timeoutSeconds,
      (GenerationClient.withDownload image serviceUrl timeoutSeconds).Only Working := by
    intro image serviceUrl timeoutSeconds
    unfold GenerationClient.withDownload
    split
    · trivial
    have bytes : ∀ url, (GenerationClient.downloadImageBytes url timeoutSeconds).Only Working := by
      intro url
      refine (working_perform _ (by trivial)).bind fun answer => ?_
      split
      · trivial
      · split <;> trivial
    refine (bytes _).bind fun answer => ?_
    split <;> trivial
  have stores : ∀ userId requestId rawBytes contentType,
      (ImageStorage.store userId requestId rawBytes contentType).Only Working := by
    intro userId requestId rawBytes contentType
    unfold ImageStorage.store
    split
    · trivial
    split
    · trivial
    refine (working_perform (.putObject _ rawBytes) trivial).bind fun answer => ?_
    split <;> trivial
  have persists : ∀ image, (GenerationClient.persistGeneratedImage image).Only Working := by
    intro image
    unfold GenerationClient.persistGeneratedImage
    split
    · trivial
    split
    · exact ⟨trivial, fun _ => trivial⟩
    refine (stores _ _ _ _).bind fun answer => ?_
    split
    · trivial
    · exact ⟨trivial, fun _ => trivial⟩
  have concludes : ∀ image, (GenerationClient.conclude image).Only Working := by
    intro image
    unfold GenerationClient.conclude
    dsimp only
    split
    · exact (working_perform .now trivial).bind fun _ => persists _
    · exact persists _
  refine requests.bind fun answered => (downloads _ _ _).bind fun generation => ?_
  split
  · trivial
  · exact (concludes _).bind fun _ => trivial

theorem working_checkHealth : (GenerationClient.checkHealth config).Only Working := by
  unfold GenerationClient.checkHealth
  split
  · trivial
  split
  · trivial
  refine (working_perform _ (by trivial)).bind fun answer => ?_
  split <;> trivial

theorem working_invalidateAllForTask (userId id : Int) :
    (TaskEngine.invalidateAllForTask userId id).Only Working :=
  (working_dropImage userId id).bind fun _ => ⟨trivial, fun _ => trivial⟩

theorem working_releaseRedisLease (taskId : Int) (workerId : String) :
    (TaskEngine.releaseRedisLease taskId workerId).Only Working := by
  refine (working_perform _ (by trivial)).bind fun available => ?_
  split
  · exact ⟨trivial, fun _ => trivial⟩
  · trivial

theorem working_publish (task : ImageGeneration) : (TaskEngine.publish task).Only Working := by
  refine (working_perform _ (by trivial)).bind fun answer => ?_
  split <;> trivial

theorem working_failForModelHealth (task : ImageGeneration) (workerId : String)
    (decision : model_health.GateDecision) :
    (TaskEngine.failForModelHealth task workerId decision).Only Working := by
  refine (working_perform .now trivial).bind fun now => ?_
  refine (only_updates _ rfl (by trivial)).bind fun finished => ?_
  refine (working_releaseRedisLease _ _).bind fun _ => (working_invalidateAllForTask _ _).bind fun _ => ?_
  split
  · exact working_publish _
  · trivial

theorem working_generateUnderLease (task : ImageGeneration) (workerId : String) :
    (TaskEngine.generateUnderLease config task workerId).Only Working := by
  have finishes : ∀ result, (TaskEngine.finishGeneration task result workerId).Only Working := by
    intro result
    refine (only_updates _ rfl (by trivial)).bind fun finished => ?_
    refine (working_releaseRedisLease _ _).bind fun _ => ?_
    split
    · exact (working_invalidateAllForTask _ _).bind fun _ => working_publish _
    · have cleans : (GenerationClient.cleanupOrphanedStoredImage result).Only Working := by
        unfold GenerationClient.cleanupOrphanedStoredImage ImageStorage.remove
        split
        · trivial
        · exact ⟨trivial, fun _ => trivial⟩
      exact cleans.bind fun _ => trivial
  refine (working_perform _ (by trivial)).bind fun _ => (working_generate task).bind fun result => ?_
  split
  · exact ⟨trivial, fun _ => trivial⟩
  · exact (finishes _).bind fun _ => (working_perform _ (by trivial)).bind fun _ => trivial

theorem evicting_checkHealth : (GenerationClient.checkHealth config).Only Evicting :=
  working_checkHealth.mono fun _ => Working.evicting

theorem evicting_invalidateAllForTask (userId id : Int) :
    (TaskEngine.invalidateAllForTask userId id).Only Evicting :=
  (working_invalidateAllForTask userId id).mono fun _ => Working.evicting

theorem evicting_releaseRedisLease (taskId : Int) (workerId : String) :
    (TaskEngine.releaseRedisLease taskId workerId).Only Evicting :=
  (working_releaseRedisLease taskId workerId).mono fun _ => Working.evicting

theorem evicting_publish (task : ImageGeneration) : (TaskEngine.publish task).Only Evicting :=
  (working_publish task).mono fun _ => Working.evicting

theorem evicting_failForModelHealth (task : ImageGeneration) (workerId : String)
    (decision : model_health.GateDecision) :
    (TaskEngine.failForModelHealth task workerId decision).Only Evicting :=
  (working_failForModelHealth task workerId decision).mono fun _ => Working.evicting

theorem evicting_generateUnderLease (task : ImageGeneration) (workerId : String) :
    (TaskEngine.generateUnderLease config task workerId).Only Evicting :=
  (working_generateUnderLease task workerId).mono fun _ => Working.evicting

theorem evicting_claimOldest (workerId : String) : (TaskEngine.claimOldest config workerId).Only Evicting := by
  have claims : (ImageRepo.claimNextTask workerId config.lease_seconds).Only Evicting := by
    refine (evicting_perform .now trivial).bind fun now => ?_
    refine (evicting_updates _ rfl (by trivial)).bind fun changed => ?_
    split
    · trivial
    · trivial
    refine (evicting_sql _ (by trivial)).bind fun answer => ?_
    cases answer <;> trivial
  refine claims.bind fun answer => ?_
  split <;> trivial

theorem evicting_claimTaskById (taskId : Int) (workerId : String) (leaseSeconds : Int) :
    (ImageRepo.claimTaskById taskId workerId leaseSeconds).Only Evicting := by
  refine (evicting_perform .now trivial).bind fun now => ?_
  refine (evicting_updates _ rfl (by trivial)).bind fun changed => ?_
  split
  · trivial
  · trivial
  refine (evicting_sql _ (by trivial)).bind fun answer => ?_
  cases answer <;> trivial

theorem evicting_announceExpired (leases : List ImageRepo.ExpiredLease) :
    (TaskEngine.announceExpired leases).Only Evicting := by
  induction leases with
  | nil => trivial
  | cons lease leases ih =>
    refine (evicting_invalidateAllForTask _ _).bind fun _ => ?_
    split
    · exact (evicting_enqueueTask _).bind fun _ => ih
    · exact ih

end Text2Image
