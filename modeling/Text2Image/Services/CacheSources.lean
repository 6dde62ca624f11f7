import Text2Image.Services.Footprint
import Text2Image.Services.WorkerProtocol

/-! Where cached images and pages come from: what a request writes to the cache it
has just read from the database, or has inserted itself.
-/

set_option autoImplicit false

namespace Text2Image

open Concurrency ImageCache ImageService

/-! ## Pages of images -/

/-- The page a call lists, with page and size as they are used. -/
def Call.listing : Call → Option Listing
  | .listMy userId page size =>
    some ⟨userId, none, ImageRepo.normalizePage page, ImageRepo.normalizeSize size⟩
  | .listMyByStatus userId status page size =>
    some ⟨userId, some (normalizeTaskStatus status), ImageRepo.normalizePage page,
      ImageRepo.normalizeSize size⟩
  | _ => none

namespace ImageCache.Listing

variable (listing : Listing)

def rowsQuery : Stmt :=
  .selectPage listing.userId listing.status listing.size (listing.page * listing.size)

def totalQuery : Stmt := .countByUser listing.userId listing.status

def versionQuery : Op := .getVersion kListVersionNamespace (toString listing.userId)

end ImageCache.Listing

/-- A page the database has answered, all of it after the list version was asked for. -/
inductive PageRead (listing : Listing) (version : Int) (past : Past) : ListResult → Prop where
  | page {newer older : Past} {rows : List (Row × Int)}
      (split : past = newer ++ (⟨.sql listing.rowsQuery, .ok rows⟩ : Taken interface) :: older)
      (asked : older.answered listing.versionQuery version) :
      PageRead listing version past ⟨(ImageRepo.collectPagedResultRows rows).content,
        (ImageRepo.collectPagedResultRows rows).total_elements⟩
  | counted {newer older : Past} {rows : List (Row × Int)} {total : Int}
      (split : past = newer ++ (⟨.sql listing.rowsQuery, .ok rows⟩ : Taken interface) :: older)
      (asked : older.answered listing.versionQuery version) (counts : newer.got listing.totalQuery total) :
      PageRead listing version past ⟨(ImageRepo.collectPagedResultRows rows).content, total⟩

theorem PageRead.grow {listing : Listing} {version : Int} {past : Past} {page : ListResult}
    (read : PageRead listing version past page) (newest : Past) :
    PageRead listing version (newest ++ past) page := by
  cases read with
  | page split asked => exact .page (by rw [split, List.append_assoc]) asked
  | counted split asked counts =>
    exact .counted (by rw [split, List.append_assoc]) asked (List.mem_append_right _ counts)

/-- The same page, up to the urls of its images, which are signed for each reply. -/
structure Presents (result page : ListResult) : Prop where
  total : result.total_elements = page.total_elements
  content : result.content.map sanitized = page.content.map sanitized

/-- Where a list request has its reply from: the database, or the cache entry of the
version it was told. -/
inductive ListAnswer (listing : Listing) (past : Past) (result : ListResult) : Prop where
  | read {version : Int} {page : ListResult} (read : PageRead listing version past page)
      (presents : Presents result page)
  | cached {version : Int} {newer older : Past} {value : CacheValue} {page : ListResult}
      (split : past = newer ++
        (⟨.cacheGet (listing.key version), some value⟩ : Taken interface) :: older)
      (asked : older.answered listing.versionQuery version)
      (decoded : decodeList value = some page) (presents : Presents result page)

/-! ## Single images -/

/-- Where `getById` has its reply from. -/
inductive ImageAnswer (userId id : Int) (past : Past) : Option ImageGeneration → Prop where
  | read {newer older : Past} {row : Option Row}
      (split : past = newer ++
        (⟨.sql (.selectByIdAndUserId id userId), .ok row⟩ : Taken interface) :: older) :
      ImageAnswer userId id past (row.map ImageRepo.rowToImageGeneration)
  | missing {newer older : Past} {value : CacheValue}
      (split : past = newer ++
        (⟨.cacheGet (metaKey userId id), some value⟩ : Taken interface) :: older)
      (marked : isNullMarker value = true) : ImageAnswer userId id past none
  | cached {newer older : Past} {value : CacheValue} {image : ImageGeneration}
      (split : past = newer ++
        (⟨.cacheGet (metaKey userId id), some value⟩ : Taken interface) :: older)
      (decoded : decodeImage value = some image) : ImageAnswer userId id past (some image)

/-! ## Writing -/

/-- What a call writes to the cache, and what it was answered just before. -/
inductive CacheSource (past : Past) : Call → String → CacheValue → Prop where
  | url (call : Call) (storageKey url : String) :
      CacheSource past call (presignKey storageKey) (.text url)
  | page {call : Call} {listing : Listing} {version : Int} {page : ListResult}
      (lists : call.listing = some listing) (read : PageRead listing version past page) :
      CacheSource past call (listing.key version) (.json (encodeList page))
  | missing {userId id : Int} {includeImagePayload : Bool} {older : Past}
      (split : past =
        (⟨.sql (.selectByIdAndUserId id userId), .ok none⟩ : Taken interface) :: older) :
      CacheSource past (.getById userId id includeImagePayload) (metaKey userId id)
        (.text kNullMarker)
  | task {userId id : Int} {includeImagePayload : Bool} {older : Past} {row : Row}
      (split : past =
        (⟨.sql (.selectByIdAndUserId id userId), .ok (some row)⟩ : Taken interface) :: older) :
      CacheSource past (.getById userId id includeImagePayload) (metaKey userId id)
        (.json (sanitized (ImageRepo.rowToImageGeneration row)).toJson)
  | created {userId id : Int} {payload : Json} {isAdmin : Bool} {older : Past}
      {generation : ImageGeneration} {createdAt : TimePoint} {published : Except String Unit}
      (own : generation.user_id = userId) (split : past =
        (⟨.publishTaskUpdated { generation with id := id }, published⟩ : Taken interface) ::
          ⟨.lastInsertId, .ok id⟩ ::
          ⟨.sql (.insert (ImageRepo.insertValues generation createdAt)), .ok ()⟩ :: older) :
      CacheSource past (.create userId payload isAdmin) (metaKey userId id)
        (.json (sanitized { generation with id := id }).toJson)

/-- Whatever a call writes to the cache has its source; what it drops is no version. -/
def Call.writes (call : Call) : Protocol interface := fun past op =>
  match op with
  | .cacheSetex name value _ => CacheSource past call name value
  | .cacheDel name => isImageKey name
  | _ => True

/-- Nothing is written to the cache, and no version is dropped. -/
def Unwriting : Op → Prop
  | .cacheSetex .. => False
  | .cacheDel name => isImageKey name
  | _ => True

theorem writes_of_unwriting {call : Call} {past : Past} {op : Op} (unwriting : Unwriting op) :
    call.writes past op := by
  cases op with
  | cacheSetex name value ttl => exact unwriting.elim
  | cacheDel name => exact unwriting
  | _ => trivial

theorem unwriting_of_evicting {α : Type} {program : Program α} (only : program.Only Evicting) :
    program.Only Unwriting := by
  refine only.mono fun op evicting => ?_
  cases op with
  | cacheSetex name value ttl => exact evicting
  | cacheDel name => exact evicting
  | _ => trivial

variable {config : Config} {call : Call} {past : Past}

theorem CacheSource.isImageKey {name : String} {value : CacheValue}
    (source : CacheSource past call name value) : isImageKey name := by
  cases source with
  | url => exact presignKey_isImageKey _
  | page => exact Listing.key_isImageKey _ _
  | missing | task | created => exact metaKey_isImageKey _ _

/-- A program that writes nothing to the cache, whatever else it promises. -/
theorem follows_of_unwriting {α : Type} {program : Program α} (only : program.Only Unwriting)
    (past : Past) : program.Follows call.writes (fun later _ => past <:+ later) past :=
  ((only.follows past).weaken fun _ _ => writes_of_unwriting).suffix.mono fun _ _ _ known => known.2

/-! ## Programs that write nothing -/

theorem unwriting_perform (op : Op) (unwriting : Unwriting op) :
    (Prog.perform (I := interface) op).Only Unwriting :=
  ⟨unwriting, fun _ => trivial⟩

theorem unwriting_sql (s : Stmt) : (sql s).Only Unwriting := unwriting_perform _ trivial

theorem unwriting_updates (s : Stmt) (counts : s.Answer = Nat) :
    (ImageRepo.updates s counts).Only Unwriting := by
  refine (unwriting_sql s).bind fun answer => ?_
  cases answer <;> trivial

theorem unwriting_retryById (userId id : Int) : (retryById userId id).Only Unwriting := by
  unfold retryById
  split
  · trivial
  refine (unwriting_of_evicting (evicting_findByIdAndUserId id userId)).bind fun found => ?_
  split
  · trivial
  · trivial
  split
  · trivial
  have retries : (ImageRepo.retryByIdAndUserId id userId).Only Unwriting := by
    refine (unwriting_updates _ _).bind fun changed => ?_
    split
    · trivial
    · trivial
    · exact unwriting_of_evicting (evicting_readBack _ _ _)
  refine retries.bind fun retried => ?_
  split
  · trivial
  · trivial
  refine (unwriting_perform _ (by trivial)).bind fun published => ?_
  split
  · trivial
  · have queues := unwriting_of_evicting (evicting_enqueueTask id)
    exact (unwriting_perform (.cacheDel _) (metaKey_isImageKey userId id)).bind fun _ =>
      ⟨trivial, fun _ => queues.bind fun _ => trivial⟩

theorem unwriting_deferForModelHealth (task : ImageGeneration) (workerId : String)
    (decision : model_health.GateDecision) :
    (TaskEngine.deferForModelHealth task workerId decision).Only Unwriting := by
  refine (unwriting_updates _ _).bind fun deferred => ?_
  refine (unwriting_of_evicting (evicting_releaseRedisLease _ _)).bind fun _ => ?_
  split
  · refine (unwriting_of_evicting (evicting_invalidateAllForTask _ _)).bind fun _ => ?_
    refine (unwriting_of_evicting (evicting_publish _)).bind fun published => ?_
    split
    · trivial
    · exact (unwriting_of_evicting (evicting_enqueueTask _)).bind fun _ => trivial
  · trivial

theorem unwriting_processClaimedTask (task : ImageGeneration) (workerId : String) :
    (TaskEngine.processClaimedTask config task workerId).Only Unwriting := by
  have gate : (TaskEngine.applyModelHealthGate config task workerId).Only Unwriting := by
    refine (unwriting_of_evicting evicting_checkHealth).bind fun health => ?_
    split
    · trivial
    dsimp only
    split
    · trivial
    · have fails := evicting_failForModelHealth task workerId
      exact (unwriting_of_evicting (fails _)).bind fun _ => trivial
    · exact (unwriting_deferForModelHealth task workerId _).bind fun _ => trivial
  refine (unwriting_of_evicting (evicting_invalidateAllForTask _ _)).bind fun _ => ?_
  refine (unwriting_of_evicting (evicting_publish _)).bind fun published => ?_
  split
  · trivial
  refine gate.bind fun verdict => ?_
  split
  · trivial
  · trivial
  · exact unwriting_of_evicting (evicting_generateUnderLease task workerId)

theorem unwriting_workerTurn (workerId : String) :
    (TaskEngine.workerTurn config workerId).Only Unwriting := by
  have queued : (TaskEngine.claimQueued config workerId).Only Unwriting := by
    refine (unwriting_perform _ (by trivial)).bind fun popped => ?_
    split
    · trivial
    refine (unwriting_perform _ (by trivial)).bind fun acquired => ?_
    split
    · have claims := evicting_claimTaskById
      refine (unwriting_of_evicting (claims _ _ _)).bind fun claimed => ?_
      split
      · trivial
      · exact ⟨trivial, fun _ => trivial⟩
    · trivial
  have claims : (TaskEngine.claim config workerId).Only Unwriting := by
    refine (unwriting_perform _ (by trivial)).bind fun available => ?_
    split
    · exact queued
    · exact unwriting_of_evicting (evicting_claimOldest workerId)
  refine claims.bind fun task => ?_
  split
  · trivial
  · exact unwriting_processClaimedTask _ workerId

theorem unwriting_recoverOrphanedTasks : TaskEngine.recoverOrphanedTasks.Only Unwriting := by
  refine (unwriting_perform _ (by trivial)).bind fun available => ?_
  split
  · refine (unwriting_sql _).bind fun ids => ?_
    split
    · trivial
    · exact ⟨trivial, fun _ => trivial⟩
  · trivial

theorem unwriting_leaseExpiryTurn : TaskEngine.leaseExpiryTurn.Only Unwriting := by
  have updates : ImageRepo.expireLeasesUnsafe.Only Unwriting := by
    refine (unwriting_perform _ (by trivial)).bind fun now => ?_
    refine (unwriting_sql _).bind fun requeued => ?_
    split
    · trivial
    refine (unwriting_sql _).bind fun timedOut => ?_
    split <;> trivial
  have expires : ImageRepo.expireLeasesReturningExpired.Only Unwriting := by
    refine (unwriting_perform _ (by trivial)).bind fun now => ?_
    refine (unwriting_sql _).bind fun requeued => ?_
    split
    · trivial
    refine (unwriting_sql _).bind fun timedOut => ?_
    split
    · trivial
    refine updates.bind fun expired => ?_
    split <;> trivial
  refine expires.bind fun expired => ?_
  split
  · exact unwriting_recoverOrphanedTasks
  · have announces := evicting_announceExpired
    exact (unwriting_of_evicting (announces _)).bind fun _ => unwriting_recoverOrphanedTasks

/-! ## Urls -/

/-- What every part of a program may rely on, and what it leaves as it found it. -/
abbrev Call.Sourced {α : Type} (call : Call) (past : Past) (program : Program α)
    (post : Past → α → Prop) : Prop :=
  program.Follows call.writes (fun later value => past <:+ later ∧ post later value) past

theorem sourced_perform (op : Op) (unwriting : Unwriting op) :
    call.Sourced past (Prog.perform (I := interface) op) fun later answer =>
      later = (⟨op, answer⟩ : Taken interface) :: past :=
  .call (writes_of_unwriting unwriting) fun _ => .done ⟨List.suffix_cons _ _, rfl⟩

theorem sourced_presignWithCache (storageKey : String) :
    call.Sourced past (presignWithCache config storageKey) fun _ _ => True := by
  have presigns : (presignWithCache config storageKey).Follows call.writes (fun _ _ => True) past := by
    unfold presignWithCache
    split
    · exact .done trivial
    split
    · exact .call trivial fun _ => .done trivial
    refine .call trivial fun cached => ?_
    rcases cached with _ | (url | value | value)
    case some.text => exact .done trivial
    all_goals
      -- nothing is cached that could be used, so the url is signed
      apply (sourced_perform (.presignGetUrl storageKey) trivial).bind
      rintro later' url _ _
      cases url with
      | error what => exact .done trivial
      | ok url =>
        dsimp only
        split
        · exact .done trivial
        · exact .call (.url call storageKey url) fun _ => .done trivial
  exact presigns.suffix.mono fun _ _ _ known => ⟨known.2, trivial⟩

/-- Signing changes an image's url only. -/
theorem sourced_presignInPlace (image : ImageGeneration) :
    call.Sourced past (presignInPlace config image) fun _ signed =>
      sanitized signed = sanitized image := by
  unfold presignInPlace
  apply (sourced_presignWithCache _).bind
  intro later url _ known
  cases url <;> exact .done ⟨known.1, rfl⟩

theorem sourced_presignListImagesInPlace (images : List ImageGeneration) :
    call.Sourced past (presignListImagesInPlace config images) fun _ signed =>
      signed.map sanitized = images.map sanitized := by
  induction images generalizing past with
  | nil => exact .done ⟨List.suffix_refl _, rfl⟩
  | cons image images ih =>
    have stored : call.Sourced past (presignStored config image) fun _ signed =>
        sanitized signed = sanitized image := by
      unfold presignStored
      split
      · exact .done ⟨List.suffix_refl _, rfl⟩
      · exact sourced_presignInPlace image
    unfold presignListImagesInPlace
    apply stored.bind
    rintro later signed _ ⟨first, same⟩
    apply ih.bind
    rintro later' rest _ ⟨second, same'⟩
    exact .done ⟨first.trans second, by simp only [List.map_cons, same, same']⟩

/-! ## Lists -/

theorem normalizePage_idem (page : Int) :
    ImageRepo.normalizePage (ImageRepo.normalizePage page) = ImageRepo.normalizePage page := by
  unfold ImageRepo.normalizePage
  omega

theorem normalizeSize_idem (size : Int) :
    ImageRepo.normalizeSize (ImageRepo.normalizeSize size) = ImageRepo.normalizeSize size := by
  unfold ImageRepo.normalizeSize
  omega

variable {listing : Listing} {version : Int}

/-- Page and size are in the form in which requests use them. -/
structure ImageCache.Listing.Normal (listing : Listing) : Prop where
  page : ImageRepo.normalizePage listing.page = listing.page
  size : ImageRepo.normalizeSize listing.size = listing.size

theorem Call.listing_normal (lists : call.listing = some listing) : listing.Normal := by
  cases call with
  | listMy | listMyByStatus =>
    cases lists
    exact ⟨normalizePage_idem _, normalizeSize_idem _⟩
  | _ => cases lists

theorem sourced_findPage (normal : listing.Normal) (asked : past.answered listing.versionQuery version) :
    call.Sourced past (ImageRepo.findPage listing.userId listing.status listing.page listing.size)
      fun later result => ∀ page, result = .ok page →
        PageRead listing version later ⟨page.content, page.total_elements⟩ := by
  unfold ImageRepo.findPage
  rw [normal.page, normal.size]
  apply (sourced_perform (.sql listing.rowsQuery) trivial).bind
  rintro later answer _ ⟨grown, rfl⟩
  match answer with
  | .error error =>
    refine .done ⟨grown, ?_⟩
    intro page same
    cases same
  | .ok (rows : List (Row × Int)) =>
    dsimp only
    split
    · apply (sourced_perform (.sql listing.totalQuery) trivial).bind
      rintro later answer _ ⟨further, rfl⟩
      match answer with
      | .error error =>
        refine .done ⟨grown.trans further, ?_⟩
        intro page same
        cases same
      | .ok (total : Int) =>
        refine .done ⟨grown.trans further, ?_⟩
        intro page same
        cases same
        have counts : Past.got [⟨.sql listing.totalQuery, .ok total⟩] listing.totalQuery total :=
          List.mem_singleton_self _
        exact PageRead.counted rfl asked counts
    · refine .done ⟨grown, ?_⟩
      intro page same
      cases same
      exact PageRead.page (List.nil_append _).symm asked

theorem sourced_listFromDb (config : Config) (lists : call.listing = some listing)
    (asked : past.answered listing.versionQuery version) :
    call.Sourced past (listFromDb config (listing.key version)
        (ImageRepo.findPage listing.userId listing.status listing.page listing.size))
      fun later result => ∀ shown, result = .ok shown → ListAnswer listing later shown := by
  unfold listFromDb
  apply (sourced_findPage (Call.listing_normal lists) asked).bind
  rintro later result _ ⟨first, read⟩
  cases result with
  | error error =>
    refine .done ⟨first, ?_⟩
    intro shown same
    cases same
  | ok page =>
    -- the page is written before its urls are signed
    have source := read page rfl
    refine .call trivial fun jitter => ?_
    refine .call (.page lists (source.grow [⟨.random, jitter⟩])) fun written => ?_
    apply (sourced_presignListImagesInPlace page.content).bind
    rintro later' signed _ ⟨second, same⟩
    refine .done ⟨first.trans ((List.suffix_append [_, _] _).trans second), ?_⟩
    intro shown equal
    cases equal
    obtain ⟨newest, rfl⟩ := (List.suffix_append [_, _] later).trans second
    exact .read (source.grow newest) ⟨rfl, same⟩

theorem sourced_listCached (lists : call.listing = some listing)
    (asked : past.answered listing.versionQuery version) :
    call.Sourced past (listCached config (listing.key version)
        (ImageRepo.findPage listing.userId listing.status listing.page listing.size))
      fun later result => ∀ shown, result = .ok shown → ListAnswer listing later shown := by
  have fromDb : ∀ newest : Past, (listFromDb config (listing.key version)
      (ImageRepo.findPage listing.userId listing.status listing.page listing.size)).Follows call.writes
        (fun later result => past <:+ later ∧
          ∀ shown, result = .ok shown → ListAnswer listing later shown) (newest ++ past) := by
    intro newest
    have sourced := sourced_listFromDb config lists
      (List.mem_append_right newest asked)
    exact sourced.mono fun _ _ _ known => ⟨(List.suffix_append _ _).trans known.1, known.2⟩
  unfold listCached
  apply (sourced_perform (.cacheGet (listing.key version)) trivial).bind
  rintro later cached _ ⟨_, rfl⟩
  match cached with
  | none => exact fromDb [⟨.cacheGet (listing.key version), none⟩]
  | some value =>
    dsimp only
    cases decoded : decodeList value with
    | none =>
      apply (sourced_perform (.cacheDel (listing.key version)) (listing.key_isImageKey version)).bind
      rintro later deleted _ ⟨_, rfl⟩
      exact fromDb [⟨.cacheDel (listing.key version), deleted⟩,
        ⟨.cacheGet (listing.key version), some value⟩]
    | some page =>
      apply (sourced_presignListImagesInPlace page.content).bind
      rintro later signed _ ⟨⟨newest, rfl⟩, same⟩
      refine .done ⟨(List.suffix_cons _ _).trans (List.suffix_append newest _), ?_⟩
      intro shown equal
      cases equal
      exact .cached rfl asked decoded ⟨rfl, same⟩

/-! ## Single images -/

variable {userId id : Int} {includeImagePayload : Bool}

/-- What a reply of `getById` shows comes from where the answers say. -/
def Shows (userId id : Int) (past : Past) (result : ServiceResult ImageGeneration) : Prop :=
  (∀ image, result = .ok image →
    ∃ shown, ImageAnswer userId id past (some shown) ∧ sanitized image = sanitized shown) ∧
  ∀ error, result = .error error → error.status = 404 → ImageAnswer userId id past none

theorem shows_refused (past : Past) {error : ServiceError} (other : error.status ≠ 404) :
    Shows userId id past (.error error) := by
  constructor
  · intro image same
    cases same
  · intro refusal same status
    cases same
    exact (other status).elim

theorem mapRepoError_status (error : RepoError) : (mapRepoError error).status ≠ 404 := by
  unfold mapRepoError
  split <;> decide

theorem ImageAnswer.grow {shown : Option ImageGeneration} (answer : ImageAnswer userId id past shown)
    (newest : Past) : ImageAnswer userId id (newest ++ past) shown := by
  cases answer with
  | read split => exact .read (by rw [split, List.append_assoc])
  | missing split marked => exact .missing (by rw [split, List.append_assoc]) marked
  | cached split decoded => exact .cached (by rw [split, List.append_assoc]) decoded

/-- An image is shown with its url signed or as it is. -/
theorem sourced_presented {image : ImageGeneration}
    (answer : ImageAnswer userId id past (some image)) :
    call.Sourced past (if includeImagePayload ∧ ¬ image.storage_key.isEmpty then do
        let signed ← presignInPlace config image
        return .ok signed
      else return .ok image) fun later result => Shows userId id later result := by
  split
  · apply (sourced_presignInPlace image).bind
    rintro later signed _ ⟨⟨newest, rfl⟩, same⟩
    refine .done ⟨List.suffix_append _ _, ?_, ?_⟩
    · intro shown equal
      cases equal
      exact ⟨image, answer.grow newest, same⟩
    · intro error equal
      cases equal
  · refine .done ⟨List.suffix_refl _, ?_, ?_⟩
    · intro shown equal
      cases equal
      exact ⟨image, answer, rfl⟩
    · intro error equal
      cases equal

theorem sourced_findByIdAndUserId :
    call.Sourced past (ImageRepo.findByIdAndUserId id userId) fun later result =>
      ∀ found, result = .ok found → ∃ row, found = row.map ImageRepo.rowToImageGeneration ∧
        later = (⟨.sql (.selectByIdAndUserId id userId), .ok row⟩ : Taken interface) :: past := by
  unfold ImageRepo.findByIdAndUserId
  apply (sourced_perform (.sql (.selectByIdAndUserId id userId)) trivial).bind
  rintro later answer _ ⟨grown, rfl⟩
  match answer with
  | .error error =>
    refine .done ⟨grown, ?_⟩
    intro found same
    cases same
  | .ok (row : Option Row) =>
    refine .done ⟨grown, ?_⟩
    intro found same
    exact ⟨row, (Except.ok.inj same).symm, rfl⟩

theorem sourced_getFromDb :
    (Call.getById userId id includeImagePayload).Sourced past
      (getFromDb config userId id includeImagePayload) fun later result =>
        Shows userId id later result := by
  unfold getFromDb
  apply sourced_findByIdAndUserId.bind
  rintro later found _ ⟨first, read⟩
  match found with
  | .error error => exact .done ⟨first, shows_refused later (mapRepoError_status error)⟩
  | .ok none =>
    obtain ⟨row, same, rfl⟩ := read none rfl
    obtain rfl := Option.map_eq_none_iff.mp same.symm
    have answer : ImageAnswer userId id
        ((⟨.sql (.selectByIdAndUserId id userId), .ok none⟩ : Taken interface) :: past)
        ((none : Option Row).map ImageRepo.rowToImageGeneration) := .read (List.nil_append _).symm
    refine .call (.missing rfl) fun written => .done ⟨first.trans (List.suffix_cons _ _), ?_, ?_⟩
    · intro image equal
      cases equal
    · intro error _ _
      exact answer.grow [⟨_, written⟩]
  | .ok (some generation) =>
    obtain ⟨row, same, rfl⟩ := read (some generation) rfl
    obtain ⟨row, rfl, rfl⟩ := Option.map_eq_some_iff.mp same.symm
    have answer : ImageAnswer userId id
        ((⟨.sql (.selectByIdAndUserId id userId), .ok (some row)⟩ : Taken interface) :: past)
        ((some row).map ImageRepo.rowToImageGeneration) := .read (List.nil_append _).symm
    refine .call (.task rfl) fun written => ?_
    refine (sourced_presented (answer.grow [⟨_, written⟩])).mono fun _ _ _ known => ⟨?_, known.2⟩
    exact (first.trans (List.suffix_cons _ _)).trans known.1

theorem sourced_getById (config : Config) :
    (Call.getById userId id includeImagePayload).Sourced past
      (getById config userId id includeImagePayload) fun later result =>
        Shows userId id later result := by
  unfold getById
  split
  · exact .done ⟨List.suffix_refl _, shows_refused past (by decide)⟩
  apply (sourced_perform (.cacheGet (metaKey userId id)) trivial).bind
  rintro later cached _ ⟨grown, rfl⟩
  match cached with
  | none => exact sourced_getFromDb.mono fun _ _ _ known => ⟨grown.trans known.1, known.2⟩
  | some value =>
    dsimp only
    split
    · rename_i marked
      refine .done ⟨grown, ?_, ?_⟩
      · intro image same
        cases same
      · intro error _ _
        exact .missing (List.nil_append _).symm marked
    · cases decoded : decodeImage value with
      | some image =>
        have answer : ImageAnswer userId id
            ((⟨.cacheGet (metaKey userId id), some value⟩ : Taken interface) :: past) (some image) :=
          .cached (List.nil_append _).symm decoded
        exact (sourced_presented answer).mono fun _ _ _ known => ⟨grown.trans known.1, known.2⟩
      | none =>
        apply (sourced_perform (.cacheDel (metaKey userId id)) (metaKey_isImageKey userId id)).bind
        rintro later' deleted _ ⟨grown', rfl⟩
        exact sourced_getFromDb.mono
          fun _ _ _ known => ⟨(grown.trans grown').trans known.1, known.2⟩

/-! ## Creation -/

variable {payload : Json} {isAdmin : Bool}

theorem writes_insert (generation : ImageGeneration) :
    (ImageRepo.insert generation).Follows call.writes (fun later result =>
      ∀ id, result = .ok id → ∃ createdAt older, later =
        (⟨.lastInsertId, .ok id⟩ : Taken interface) ::
          ⟨.sql (.insert (ImageRepo.insertValues generation createdAt)), .ok ()⟩ :: older) past := by
  unfold ImageRepo.insert
  apply (follows_of_unwriting (only_createdAtOf trivial generation) past).bind
  intro later createdAt _ _
  apply (sourced_perform (.sql (.insert (ImageRepo.insertValues generation createdAt))) trivial).bind
  rintro later' answer _ ⟨_, rfl⟩
  match answer with
  | .error error =>
    refine .done ?_
    intro id same
    cases same
  | .ok () =>
    refine .call trivial fun answer => .done ?_
    intro id same
    have answered : answer = .ok id := same
    exact ⟨createdAt, later, by rw [answered]⟩

theorem writes_create :
    (create config userId payload isAdmin).Follows (Call.create userId payload isAdmin).writes
      (fun _ _ => True) past := by
  unfold create
  split
  · exact .done trivial
  dsimp only
  split
  · exact .done trivial
  apply (follows_of_unwriting (only_checkActiveTasks trivial isAdmin) _).bind
  intro _ refused _ _
  cases refused with
  | some error => exact .done trivial
  | none =>
    refine .call trivial fun now => ?_
    apply (follows_of_unwriting (only_requestIdOf trivial trivial _) _).bind
    intro _ requestId _ _
    apply (follows_of_unwriting (only_findByRequestIdAndUserId trivial) _).bind
    intro _ existing _ _
    match existing with
    | .error error => exact .done trivial
    | .ok (some existing) => exact .done trivial
    | .ok none =>
      apply (writes_insert _).bind
      intro _ inserted _ known
      cases inserted with
      | error error => exact .done trivial
      | ok id =>
        obtain ⟨createdAt, older, rfl⟩ := known id rfl
        apply (sourced_perform (.publishTaskUpdated _) trivial).bind
        rintro _ published _ ⟨_, rfl⟩
        cases published with
        | error what => exact .done trivial
        | ok _ =>
          -- the cache is written right after the row was announced
          refine .call (.created rfl rfl) fun _ => .call trivial fun _ => ?_
          apply (follows_of_unwriting (unwriting_of_evicting (evicting_enqueueTask _)) _).bind
          intros
          exact .done trivial

/-! ## All calls -/

/-- What the answers behind a reply tell of it. -/
structure Answers (call : Call) (past : Past) (reply : Reply) : Prop where
  list : ∀ listing, call.listing = some listing → ∃ result, reply = .list result ∧
    ∀ shown, result = .ok shown → ListAnswer listing past shown
  image : ∀ userId id includeImagePayload, call = .getById userId id includeImagePayload →
    ∃ result, reply = .image result ∧ Shows userId id past result

/-- Calls that neither list images nor show one promise nothing. -/
theorem answers_other (unlisted : call.listing = none)
    (other : ∀ userId id includeImagePayload, call ≠ .getById userId id includeImagePayload)
    (past : Past) (reply : Reply) : Answers call past reply where
  list listing lists := by
    rw [unlisted] at lists
    cases lists
  image userId id includeImagePayload same := (other userId id includeImagePayload same).elim

/-- The two list requests differ in their listing only. -/
theorem answers_list (lists : call.listing = some listing) {program : Program (ServiceResult ListResult)}
    (follows : call.Sourced [] program fun later result =>
      ∀ shown, result = .ok shown → ListAnswer listing later shown) :
    (do return .list (← program) : Program Reply).Follows call.writes (Answers call) [] := by
  apply follows.bind
  rintro later result _ ⟨_, known⟩
  refine .done ⟨?_, ?_⟩
  · intro listing' lists'
    obtain rfl := Option.some.inj (lists.symm.trans lists')
    exact ⟨result, rfl, known⟩
  · rintro userId id includeImagePayload rfl
    cases lists

theorem sourced_listed (lists : call.listing = some listing) :
    call.Sourced [] (do
        let version ← getListVersion listing.userId
        listCached config (listing.key version)
          (ImageRepo.findPage listing.userId listing.status listing.page listing.size))
      fun later result => ∀ shown, result = .ok shown → ListAnswer listing later shown := by
  apply (sourced_perform listing.versionQuery trivial).bind
  rintro later version _ ⟨grown, rfl⟩
  refine (sourced_listCached lists (List.mem_singleton_self _)).mono fun _ _ _ known => ?_
  exact ⟨grown.trans known.1, known.2⟩

/-- No list is shown to nobody. -/
theorem sourced_unauthorized :
    call.Sourced [] (return .error unauthorized : Program (ServiceResult ListResult))
      fun later result => ∀ shown, result = .ok shown → ListAnswer listing later shown := by
  refine .done ⟨List.suffix_refl _, ?_⟩
  intro shown same
  cases same

theorem answers_call (config : Config) (call : Call) :
    (call.program config).Follows call.writes (Answers call) [] := by
  have replied : ∀ {α : Type} {call : Call} {program : Program α} (reply : α → Reply),
      (∀ past reply, Answers call past reply) → program.Follows call.writes (fun _ _ => True) [] →
      (do return reply (← program) : Program Reply).Follows call.writes (Answers call) [] := by
    intro α call program reply answers follows
    apply follows.bind
    intro later value _ _
    exact .done (answers _ _)
  have quiet : ∀ {α : Type} {call : Call} {program : Program α} (reply : α → Reply),
      (∀ past reply, Answers call past reply) → program.Only Unwriting →
      (do return reply (← program) : Program Reply).Follows call.writes (Answers call) [] :=
    fun reply answers only => replied reply answers
      ((follows_of_unwriting only []).mono fun _ _ _ _ => trivial)
  cases call with
  | create userId payload isAdmin =>
    exact replied _ (answers_other rfl (by simp)) writes_create
  | listMy userId page size =>
    refine answers_list rfl ?_
    unfold listMy
    split
    · exact sourced_unauthorized
    · exact sourced_listed rfl
  | listMyByStatus userId status page size =>
    refine answers_list rfl ?_
    unfold listMyByStatus
    split
    · exact sourced_unauthorized
    · exact sourced_listed rfl
  | getById userId id includeImagePayload =>
    apply (sourced_getById config).bind
    rintro later result _ ⟨_, known⟩
    refine .done ⟨?_, ?_⟩
    · intro listing lists
      cases lists
    · intro userId' id' includeImagePayload' same
      cases same
      exact ⟨result, rfl, known⟩
  | getBinaryById userId id =>
    exact quiet _ (answers_other rfl (by simp))
      (unwriting_of_evicting (evicting_getBinaryById userId id))
  | cancelById userId id =>
    exact quiet _ (answers_other rfl (by simp))
      (unwriting_of_evicting (evicting_cancelById userId id))
  | retryById userId id =>
    exact quiet _ (answers_other rfl (by simp)) (unwriting_retryById userId id)
  | deleteById userId id =>
    exact quiet _ (answers_other rfl (by simp))
      (unwriting_of_evicting (evicting_deleteById userId id))
  | workerTurn index => exact quiet _ (answers_other rfl (by simp)) (unwriting_workerTurn _)
  | leaseExpiryTurn =>
    exact quiet (fun _ => .turn (.ok ())) (answers_other rfl (by simp)) unwriting_leaseExpiryTurn
  | recoverOrphanedTasks =>
    exact quiet (fun _ => .turn (.ok ())) (answers_other rfl (by simp)) unwriting_recoverOrphanedTasks

end Text2Image
