import Text2Image.Services.CacheSources

/-! Where the urls in replies come from: signed for the storage key of the image, or
found in the cache, to which only a url that was just signed is written.
-/

set_option autoImplicit false

namespace Text2Image

open Concurrency ImageCache ImageService

/-- A url is cached right after it was signed for the same storage key, for as long as
is configured. -/
def Signs (config : Config) : Protocol interface := fun past op =>
  match op with
  | .cacheSetex name value ttl => ∀ storageKey, name = presignKey storageKey → ∃ url older,
      value = .text url ∧ ttl = config.presign_ttl ∧
      past = (⟨.presignGetUrl storageKey, .ok url⟩ : Taken interface) :: older
  | _ => True

/-- No url is written to the cache. -/
def Unsigning : Op → Prop
  | .cacheSetex name .. => ∀ storageKey, name ≠ presignKey storageKey
  | _ => True

/-- How an image comes by the url it is shown with. -/
inductive UrlOf (past : Past) (image : ImageGeneration) : Prop where
  | unstored (empty : image.storage_key = "")
  | refused {what : String} (asked : past.answered (.presignGetUrl image.storage_key) (.error what))
  | signed (asked : past.answered (.presignGetUrl image.storage_key) (.ok image.image_url))
  | cached (found : past.answered (.cacheGet (presignKey image.storage_key))
      (some (.text image.image_url)))

/-- The images of a reply that are shown with a url to fetch them from. -/
def Reply.linked : Reply → Call → List ImageGeneration
  | .image (.ok shown), .getById _ _ true => [shown]
  | .list (.ok page), _ => page.content
  | _, _ => []

variable {config : Config} {call : Call} {past later : Past} {image : ImageGeneration}

theorem UrlOf.grow (known : UrlOf past image) (grown : past ⊆ later) : UrlOf later image := by
  cases known with
  | unstored empty => exact .unstored empty
  | refused asked => exact .refused (grown asked)
  | signed asked => exact .signed (grown asked)
  | cached found => exact .cached (grown found)

/-! ## Programs that cache no url -/

theorem signs_of_unsigning {op : Op} (unsigning : Unsigning op) : Signs config past op := by
  cases op with
  | cacheSetex name value ttl => exact fun storageKey same => (unsigning storageKey same).elim
  | _ => trivial

theorem Only.signs {α : Type} {program : Program α} (only : program.Only Unsigning) (past : Past) :
    program.Follows (Signs config) (fun _ _ => True) past :=
  (only.follows past).weaken fun _ _ => signs_of_unsigning

theorem unsigning_of_unwriting {α : Type} {program : Program α} (only : program.Only Unwriting) :
    program.Only Unsigning := by
  refine only.mono fun op unwriting => ?_
  cases op with
  | cacheSetex => exact unwriting.elim
  | _ => trivial

theorem unsigning_of_evicting {α : Type} {program : Program α} (only : program.Only Evicting) :
    program.Only Unsigning :=
  unsigning_of_unwriting (unwriting_of_evicting only)

theorem unsigning_cacheImage (userId id : Int) (value : CacheValue) (ttl : Int) :
    Unsigning (.cacheSetex (metaKey userId id) value ttl) :=
  fun storageKey same => presignKey_ne_metaKey storageKey userId id same.symm

theorem unsigning_cachePage (listing : Listing) (version : Int) (value : CacheValue) (ttl : Int) :
    Unsigning (.cacheSetex (listing.key version) value ttl) := by
  intro storageKey same
  have list := listing.key_isListKey version
  rw [same] at list
  exact presignKey_notList storageKey listing.userId list

theorem unsigning_insert (generation : ImageGeneration) : (ImageRepo.insert generation).Only Unsigning := by
  refine (only_createdAtOf trivial generation).bind fun createdAt => ?_
  refine (only_sql _ trivial).bind fun answer => ?_
  cases answer
  · trivial
  · exact only_perform .lastInsertId trivial

theorem unsigning_announceCreated (userId : Int) (generation : ImageGeneration) :
    (announceCreated userId generation).Only Unsigning := by
  refine (only_perform (.publishTaskUpdated generation) trivial).bind fun published => ?_
  cases published
  · trivial
  have writes : (writeToCache (metaKey userId generation.id) generation).Only Unsigning :=
    ⟨unsigning_cacheImage userId generation.id _ _, fun _ => trivial⟩
  have bumps : (invalidateListCacheFor userId).Only Unsigning := only_perform _ trivial
  exact writes.bind fun _ => bumps.bind fun _ =>
    (unsigning_of_evicting (evicting_enqueueTask generation.id)).bind fun _ => trivial

theorem unsigning_create (userId : Int) (payload : Json) (isAdmin : Bool) :
    (create config userId payload isAdmin).Only Unsigning := by
  unfold create
  split
  · trivial
  dsimp only
  -- what was asked for does not matter
  generalize trimmed (.fromJson payload) = generation
  split
  · trivial
  refine (only_checkActiveTasks trivial isAdmin).bind fun refused => ?_
  cases refused
  case some => trivial
  refine (only_perform .now trivial).bind fun now => ?_
  refine (only_requestIdOf trivial trivial _).bind fun requestId => ?_
  generalize prepared generation userId now requestId = generation
  refine (only_findByRequestIdAndUserId trivial).bind fun existing => ?_
  match existing with
  | .error error => trivial
  | .ok (some existing) => trivial
  | .ok none =>
    refine (unsigning_insert _).bind fun inserted => ?_
    cases inserted
    · trivial
    · exact unsigning_announceCreated userId _

/-! ## Signing -/

/-- A url is signed, or found in the cache; there is none where nothing is stored. -/
structure SignedFor (storageKey : String) (past : Past) (result : Except String String) : Prop where
  url : ∀ url, result = .ok url → storageKey = "" ∨
    past.answered (.presignGetUrl storageKey) (.ok url) ∨
    past.answered (.cacheGet (presignKey storageKey)) (some (.text url))
  refused : ∀ what, result = .error what → past.answered (.presignGetUrl storageKey) (.error what)

theorem signs_presignWithCache (storageKey : String) :
    (presignWithCache config storageKey).Follows (Signs config) (SignedFor storageKey) past := by
  have asked : ∀ (past : Past) (answer : Except String String),
      SignedFor storageKey ((⟨.presignGetUrl storageKey, answer⟩ : Taken interface) :: past) answer := by
    intro past answer
    constructor
    · rintro url rfl
      exact .inr (.inl List.mem_cons_self)
    · rintro what rfl
      exact List.mem_cons_self
  unfold presignWithCache
  split
  · rename_i empty
    refine .done ⟨fun _ _ => .inl (String.isEmpty_iff.mp empty), ?_⟩
    intro what same
    cases same
  split
  · exact .call trivial fun answer => .done (asked past answer)
  refine .call trivial fun cached => ?_
  rcases cached with _ | (url | value | value)
  case some.text =>
    refine .done ⟨?_, ?_⟩
    · rintro _ ⟨⟩
      exact .inr (.inr List.mem_cons_self)
    · intro what same
      cases same
  all_goals
    -- nothing is cached that could be used, so the url is signed
    refine .call trivial fun answer => ?_
    match answer with
    | .error what => exact .done (asked _ _)
    | .ok (url : String) =>
      simp only [Prog.bind]
      split
      · exact .done (asked _ _)
      · refine .call (fun key same => ?_) fun written => .done ⟨?_, ?_⟩
        · obtain rfl := presignKey_injective same
          exact ⟨url, _, rfl, rfl, rfl⟩
        · rintro _ ⟨⟩
          exact .inr (.inl (List.mem_cons_of_mem _ List.mem_cons_self))
        · intro what same
          cases same

theorem signs_presignInPlace (image : ImageGeneration) :
    (presignInPlace config image).Follows (Signs config) UrlOf past := by
  unfold presignInPlace
  apply (signs_presignWithCache image.storage_key).bind
  intro later result _ known
  cases result with
  | error what => exact .done (.refused (known.refused what rfl))
  | ok url =>
    refine .done ?_
    rcases known.url url rfl with empty | signed | cached
    · exact .unstored empty
    · exact .signed signed
    · exact .cached cached

theorem signs_presignListImagesInPlace (images : List ImageGeneration) :
    (presignListImagesInPlace config images).Follows (Signs config)
      (fun later shown => ∀ image ∈ shown, UrlOf later image) past := by
  induction images generalizing past with
  | nil => exact .done (List.forall_mem_nil _)
  | cons image images ih =>
    have stored : (presignStored config image).Follows (Signs config) UrlOf past := by
      unfold presignStored
      split
      · rename_i empty
        exact .done (.unstored (String.isEmpty_iff.mp empty))
      · exact signs_presignInPlace image
    unfold presignListImagesInPlace
    apply stored.bind
    intro later signed _ first
    apply ih.bind
    intro later' rest grown others
    exact .done (List.forall_mem_cons.mpr ⟨first.grow grown, others⟩)

/-! ## Lists -/

/-- Every image of the page is shown with a url of its own. -/
def PageLinked (past : Past) (result : ServiceResult ListResult) : Prop :=
  ∀ page, result = .ok page → ∀ image ∈ page.content, UrlOf past image

theorem signs_presented (page : ListResult) :
    (do
      let content ← presignListImagesInPlace config page.content
      return .ok { page with content := content } : Program (ServiceResult ListResult)).Follows
        (Signs config) PageLinked past := by
  apply (signs_presignListImagesInPlace page.content).bind
  intro later shown _ linked
  refine .done ?_
  rintro _ ⟨⟩
  exact linked

theorem signs_listFromDb (listing : Listing) (version : Int) :
    (listFromDb config (listing.key version)
        (ImageRepo.findPage listing.userId listing.status listing.page listing.size)).Follows
      (Signs config) PageLinked past := by
  unfold listFromDb
  apply (Only.signs (unsigning_of_evicting (evicting_findPage _ _ _ _)) past).bind
  intro later result _ _
  cases result with
  | error error =>
    refine .done ?_
    intro page same
    cases same
  | ok page =>
    refine .call trivial fun jitter => .call ?_ fun written => signs_presented _
    exact signs_of_unsigning (unsigning_cachePage listing version _ _)

theorem signs_listCached (listing : Listing) (version : Int) :
    (listCached config (listing.key version)
        (ImageRepo.findPage listing.userId listing.status listing.page listing.size)).Follows
      (Signs config) PageLinked past := by
  unfold listCached
  refine .call trivial fun cached => ?_
  match cached with
  | none => exact signs_listFromDb listing version
  | some value =>
    simp only [Prog.bind]
    split
    · exact signs_presented _
    · exact .call trivial fun _ => signs_listFromDb listing version

/-! ## Single images -/

/-- An image that is asked for with its payload is shown with a url of its own. -/
def ImageLinked (includeImagePayload : Bool) (past : Past) (result : ServiceResult ImageGeneration) :
    Prop :=
  includeImagePayload = true → ∀ image, result = .ok image → UrlOf past image

theorem signs_shown (includeImagePayload : Bool) (image : ImageGeneration) :
    (if includeImagePayload ∧ ¬ image.storage_key.isEmpty then do
        let signed ← presignInPlace config image
        return .ok signed
      else return .ok image : Program (ServiceResult ImageGeneration)).Follows (Signs config)
        (ImageLinked includeImagePayload) past := by
  split
  · apply (signs_presignInPlace image).bind
    intro later signed _ known
    refine .done ?_
    rintro _ _ ⟨⟩
    exact known
  · rename_i unsigned
    refine .done ?_
    rintro included _ ⟨⟩
    -- nothing is stored for the image
    refine .unstored (String.isEmpty_iff.mp ?_)
    simpa [included] using unsigned

theorem signs_getFromDb (userId id : Int) (includeImagePayload : Bool) :
    (getFromDb config userId id includeImagePayload).Follows (Signs config)
      (ImageLinked includeImagePayload) past := by
  have refused : ∀ (past : Past) (error : ServiceError), ImageLinked includeImagePayload past (.error error) := by
    intro past error _ image same
    cases same
  unfold getFromDb
  apply (Only.signs (unsigning_of_evicting (evicting_findByIdAndUserId id userId)) past).bind
  intro later found _ _
  match found with
  | .error error => exact .done (refused later _)
  | .ok none => exact .call (signs_of_unsigning (unsigning_cacheImage userId id _ _)) fun _ => .done (refused _ _)
  | .ok (some generation) =>
    refine .call (signs_of_unsigning (unsigning_cacheImage userId id _ _)) fun written => ?_
    exact signs_shown includeImagePayload generation

theorem signs_getById (userId id : Int) (includeImagePayload : Bool) :
    (getById config userId id includeImagePayload).Follows (Signs config)
      (ImageLinked includeImagePayload) past := by
  have refused : ∀ (past : Past) (error : ServiceError), ImageLinked includeImagePayload past (.error error) := by
    intro past error _ image same
    cases same
  unfold getById
  split
  · exact .done (refused past _)
  refine .call trivial fun cached => ?_
  match cached with
  | none => exact signs_getFromDb userId id includeImagePayload
  | some value =>
    simp only [Prog.bind]
    split
    · exact .done (refused _ _)
    split
    · exact signs_shown includeImagePayload _
    · exact .call trivial fun _ => signs_getFromDb userId id includeImagePayload

/-! ## All calls -/

/-- Every image a reply shows has its url from somewhere. -/
def Linked (call : Call) (past : Past) (reply : Reply) : Prop :=
  ∀ image ∈ reply.linked call, UrlOf past image

theorem linked_page {result : ServiceResult ListResult} (linked : PageLinked past result) :
    Linked call past (.list result) := by
  intro image member
  cases result with
  | error error => cases member
  | ok page => exact linked page rfl image member

theorem linked_image {userId id : Int} {includeImagePayload : Bool} {result : ServiceResult ImageGeneration}
    (linked : ImageLinked includeImagePayload past result) :
    Linked (.getById userId id includeImagePayload) past (.image result) := by
  intro image member
  cases result with
  | error error => cases member
  | ok shown =>
    cases includeImagePayload with
    | false => cases member
    | true =>
      obtain rfl := List.mem_singleton.mp member
      exact linked rfl image rfl

theorem signs_listed (listing : Listing) :
    (do
      let version ← getListVersion listing.userId
      let result ← listCached config (listing.key version)
        (ImageRepo.findPage listing.userId listing.status listing.page listing.size)
      return .list result : Program Reply).Follows (Signs config) (Linked call) past := by
  refine .call trivial fun version => ?_
  apply (signs_listCached listing version).bind
  intro later result _ linked
  exact .done (linked_page linked)

theorem signs_call (config : Config) (call : Call) :
    (call.program config).Follows (Signs config) (Linked call) [] := by
  have quiet : ∀ {α : Type} {program : Program α} (reply : α → Reply),
      (∀ value, (reply value).linked call = []) → program.Only Unsigning →
      (do return reply (← program) : Program Reply).Follows (Signs config) (Linked call) [] := by
    intro α program reply none only
    apply (Only.signs only []).bind
    intro later value _ _
    refine .done ?_
    intro image member
    rw [none] at member
    cases member
  have listing : ∀ {error : ServiceError}, Linked call [] (.list (.error error)) :=
    linked_page fun page same => by cases same
  cases call with
  | create userId payload isAdmin =>
    refine quiet _ (fun result => ?_) (unsigning_create userId payload isAdmin)
    cases result <;> rfl
  | listMy userId page size =>
    simp only [Call.program, listMy]
    split
    · exact .done listing
    · exact signs_listed ⟨userId, none, ImageRepo.normalizePage page, ImageRepo.normalizeSize size⟩
  | listMyByStatus userId status page size =>
    simp only [Call.program, listMyByStatus]
    split
    · exact .done listing
    · exact signs_listed ⟨userId, some (normalizeTaskStatus status), ImageRepo.normalizePage page,
        ImageRepo.normalizeSize size⟩
  | getById userId id includeImagePayload =>
    apply (signs_getById userId id includeImagePayload).bind
    intro later result _ linked
    exact .done (linked_image linked)
  | getBinaryById userId id =>
    exact quiet _ (fun _ => rfl) (unsigning_of_evicting (evicting_getBinaryById userId id))
  | cancelById userId id =>
    refine quiet _ (fun result => ?_) (unsigning_of_evicting (evicting_cancelById userId id))
    cases result <;> rfl
  | retryById userId id =>
    refine quiet _ (fun result => ?_) (unsigning_of_unwriting (unwriting_retryById userId id))
    cases result <;> rfl
  | deleteById userId id =>
    exact quiet _ (fun _ => rfl) (unsigning_of_evicting (evicting_deleteById userId id))
  | workerTurn index =>
    exact quiet _ (fun _ => rfl) (unsigning_of_unwriting (unwriting_workerTurn _))
  | leaseExpiryTurn =>
    exact quiet (fun _ => .turn (.ok ())) (fun _ => rfl) (unsigning_of_unwriting unwriting_leaseExpiryTurn)
  | recoverOrphanedTasks =>
    exact quiet (fun _ => .turn (.ok ())) (fun _ => rfl)
      (unsigning_of_unwriting unwriting_recoverOrphanedTasks)

end Text2Image
