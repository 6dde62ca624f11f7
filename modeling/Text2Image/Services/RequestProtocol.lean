import Text2Image.Services.Protocol

/-! Requests keep to their protocol. -/

set_option autoImplicit false

namespace Text2Image

open Concurrency TaskStatus ImageCache

variable (config : Config)

/-- From here on the program keeps to the protocol of this call. -/
abbrev Call.Keeps {α : Type} (call : Call) (past : Past) (program : Program α)
    (post : Past → α → Prop) : Prop :=
  program.Follows (call.protocol config) post past

variable {config} {call : Call} {past : Past}

/-! ## Single operations -/

theorem keeps_sql {statement : Stmt} (sends : call.sends config past statement) :
    call.Keeps config past (sql statement) fun later answer =>
      later.answered (.sql statement) answer :=
  .call sends fun _ => .done List.mem_cons_self

theorem keeps_readClock : call.Keeps config past readClock fun _ _ => True :=
  .call trivial fun _ => .done trivial

theorem keeps_drawRandom : call.Keeps config past drawRandom fun _ _ => True :=
  .call trivial fun _ => .done trivial

theorem keeps_redisAvailable : call.Keeps config past redisAvailable fun _ _ => True :=
  .call trivial fun _ => .done trivial

theorem keeps_cacheDel (key : String) : call.Keeps config past (cacheDel key) fun _ _ => True :=
  .call trivial fun _ => .done trivial

theorem keeps_cacheGet {userId : Int} (own : call.user = some userId) {key : String}
    (may : mayReadCache userId past key) : call.Keeps config past (cacheGet key) fun later answer =>
      later.answered (.cacheGet key) answer :=
  .call ⟨userId, own, may⟩ fun _ => .done List.mem_cons_self

theorem keeps_cacheSetex {userId : Int} (own : call.user = some userId) {key : String}
    {value : CacheValue} (may : CacheWrite userId past key value) (ttl : Int) :
    call.Keeps config past (cacheSetex key value ttl) fun _ _ => True :=
  .call ⟨userId, own, may⟩ fun _ => .done trivial

theorem keeps_invalidateListCacheFor (userId : Int) :
    call.Keeps config past (invalidateListCacheFor userId) fun _ _ => True :=
  .call trivial fun _ => .done trivial

theorem keeps_getListVersion (userId : Int) :
    call.Keeps config past (getListVersion userId) fun _ _ => True :=
  .call trivial fun _ => .done trivial

theorem keeps_publishTaskUpdated (image : ImageGeneration) :
    call.Keeps config past (publishTaskUpdated image) fun _ _ => True :=
  .call trivial fun _ => .done trivial

theorem keeps_enqueueTask (taskId : Int) :
    call.Keeps config past (enqueueTask taskId) fun _ _ => True := by
  unfold enqueueTask
  apply keeps_redisAvailable.bind
  intro later up grown known
  cases up with
  | true => exact .call trivial fun _ => .done trivial
  | false => exact .done trivial

/-! ## Repository functions -/

namespace ImageRepo

/-- An UPDATE that reports a change has changed some row. -/
theorem keeps_updates {statement : Stmt} (counts : statement.Answer = Nat)
    (sends : call.sends config past statement) :
    call.Keeps config past (updates statement counts) fun later result =>
      result = .ok true → ∃ answer : statement.Answer,
        later.got statement answer ∧ 0 < (counts ▸ answer : Nat) := by
  unfold updates
  apply (keeps_sql sends).bind
  intro later answer grown known
  cases answer with
  | error error =>
    refine .done ?_
    intro changed
    cases changed
  | ok affected =>
    refine .done ?_
    intro changed
    have positive : decide ((counts ▸ affected : Nat) > 0) = true := by
      injection changed
    exact ⟨affected, known, of_decide_eq_true positive⟩

theorem keeps_findByIdAndUserId {id userId : Int}
    (sends : call.sends config past (.selectByIdAndUserId id userId)) :
    call.Keeps config past (findByIdAndUserId id userId) fun later result =>
      ∀ image, result = .ok (some image) → ∃ row,
        later.got (.selectByIdAndUserId id userId) (some row) ∧
          image = rowToImageGeneration row := by
  unfold findByIdAndUserId
  apply (keeps_sql sends).bind
  intro later answer grown known
  cases answer with
  | error error =>
    refine .done ?_
    intro image found
    cases found
  | ok row =>
    cases (row : Option Row) with
    | none =>
      refine .done ?_
      intro image found
      cases found
    | some row =>
      refine .done ?_
      intro image found
      cases found
      exact ⟨row, known, rfl⟩

theorem mem_collectPagedResultRows {rows : List (Row × Int)} {image : ImageGeneration}
    (member : image ∈ (collectPagedResultRows rows).content) :
    ∃ entry ∈ rows, image = rowToImageGeneration entry.1 := by
  obtain ⟨entry, present, same⟩ := List.mem_map.mp member
  exact ⟨entry, present, same.symm⟩

theorem keeps_findPage {userId : Int} {status : Option TaskStatus} {page size : Int}
    (sends : ∀ later limit offset, call.sends config later (.selectPage userId status limit offset))
    (counts : ∀ later, call.sends config later (.countByUser userId status)) :
    call.Keeps config past (findPage userId status page size) fun later result =>
      ∀ found, result = .ok found → ∀ image ∈ found.content,
        KeyKnown userId later image.storage_key := by
  unfold findPage
  apply (keeps_sql (sends _ _ _)).bind
  intro later answer grown known
  cases answer with
  | error error =>
    refine .done ?_
    intro found same
    cases same
  | ok rows =>
    have keys : ∀ {later' : Past}, later ⊆ later' →
        ∀ image ∈ (collectPagedResultRows rows).content, KeyKnown userId later' image.storage_key := by
      intro later' grown' image member
      obtain ⟨entry, present, rfl⟩ := mem_collectPagedResultRows member
      exact .page (grown' known) present
    dsimp only
    split
    · apply (keeps_sql (counts later)).bind
      intro later' total grown' _
      cases total with
      | error error =>
        refine .done ?_
        intro found same
        cases same
      | ok total =>
        refine .done ?_
        intro found same
        cases same
        exact keys grown'
    · refine .done ?_
      intro found same
      cases same
      exact keys (List.Subset.refl later)

theorem keeps_findByRequestIdAndUserId {requestId : String} {userId : Int}
    (sends : call.sends config past (.selectByRequestIdAndUserId requestId userId)) :
    call.Keeps config past (findByRequestIdAndUserId requestId userId) fun _ _ => True := by
  unfold findByRequestIdAndUserId
  apply (keeps_sql sends).bind
  intro later answer grown _
  cases answer <;> exact .done trivial

theorem keeps_readBack {function : String} {id userId : Int}
    (sends : ∀ later, call.sends config later (.selectByIdAndUserId id userId)) :
    call.Keeps config past (readBack function id userId) fun _ _ => True := by
  unfold readBack
  apply (keeps_sql (sends past)).bind
  intro later answer grown known
  cases answer with
  | error error => exact .done trivial
  | ok row => cases (row : Option Row) <;> exact .done trivial

theorem keeps_cancelByIdAndUserId {id userId : Int}
    (reads : ∀ later, call.sends config later (.selectByIdAndUserId id userId))
    (cancels : ∀ later now, call.sends config later (.cancelByIdAndUserId now id userId)) :
    call.Keeps config past (cancelByIdAndUserId id userId) fun _ _ => True := by
  unfold cancelByIdAndUserId
  apply keeps_readClock.bind
  intro later now grown _
  apply (keeps_updates rfl (cancels later _)).bind
  intro later' changed grown' _
  cases changed with
  | error error => exact .done trivial
  | ok changed =>
    cases changed with
    | false => exact .done trivial
    | true => exact keeps_readBack reads

theorem keeps_retryByIdAndUserId {id userId : Int}
    (reads : ∀ later, call.sends config later (.selectByIdAndUserId id userId))
    (retries : ∀ later, call.sends config later (.retryByIdAndUserId id userId)) :
    call.Keeps config past (retryByIdAndUserId id userId) fun _ _ => True := by
  unfold retryByIdAndUserId
  apply (keeps_updates rfl (retries past)).bind
  intro later changed grown _
  cases changed with
  | error error => exact .done trivial
  | ok changed =>
    cases changed with
    | false => exact .done trivial
    | true => exact keeps_readBack reads

theorem keeps_insert {generation : ImageGeneration}
    (inserts : ∀ later createdAt, past ⊆ later →
      call.sends config later (.insert (insertValues generation createdAt))) :
    call.Keeps config past (insert generation) fun later result =>
      ∀ id, result = .ok id → ∃ createdAt,
        later.got (.insert (insertValues generation createdAt)) () := by
  have stamped : call.Keeps config past (createdAtOf generation) fun _ _ => True := by
    unfold createdAtOf
    split
    · exact keeps_readClock
    · exact .done trivial
  unfold insert
  apply stamped.bind
  intro later createdAt grown _
  apply (keeps_sql (inserts later createdAt grown)).bind
  intro later' answer grown' known
  cases answer with
  | error error =>
    refine .done ?_
    intro id same
    cases same
  | ok _ =>
    refine .call trivial fun answer => .done fun id _ => ⟨createdAt, ?_⟩
    exact List.mem_cons_of_mem _ known

end ImageRepo

/-! ## Presigned urls and the cache -/

namespace ImageService

/-- The call may sign every key it knows of its user. -/
structure Signs (config : Config) (call : Call) (userId : Int) : Prop where
  own : call.user = some userId
  signs : ∀ past key, key ≠ "" → KeyKnown userId past key →
    call.stores config past (.presignGetUrl key)

variable {userId : Int}

theorem keeps_presignWithCache (signs : Signs config call userId) {storageKey : String}
    (known : KeyKnown userId past storageKey) :
    call.Keeps config past (presignWithCache config storageKey) fun _ _ => True := by
  have signed : ∀ {later : Past}, storageKey ≠ "" → past ⊆ later →
      call.Keeps config later (ImageStorage.presignUrl storageKey) fun _ _ => True :=
    fun named grown => .call (signs.signs _ _ named (known.grow grown)) fun _ => .done trivial
  unfold presignWithCache
  split
  · exact .done trivial
  · rename_i nonempty
    have named : storageKey ≠ "" := fun empty => nonempty (String.isEmpty_iff.mpr empty)
    split
    · exact signed named (List.Subset.refl past)
    · apply (keeps_cacheGet signs.own (.inr (.inr ⟨storageKey, rfl, named, known⟩))).bind
      intro later cached grown _
      split
      · exact .done trivial
      · apply (signed named grown).bind
        intro later' url grown' _
        cases url with
        | error what => exact .done trivial
        | ok url =>
          dsimp only
          split
          · exact .done trivial
          · have write := CacheWrite.url storageKey url (known.grow (List.Subset.trans grown grown'))
            apply (keeps_cacheSetex signs.own write _).bind
            intros
            exact .done trivial

theorem keeps_presignInPlace (signs : Signs config call userId) {image : ImageGeneration}
    (known : KeyKnown userId past image.storage_key) :
    call.Keeps config past (presignInPlace config image) fun _ _ => True := by
  unfold presignInPlace
  apply (keeps_presignWithCache signs known).bind
  intro later url grown _
  cases url <;> exact .done trivial

theorem keeps_presignListImagesInPlace (signs : Signs config call userId)
    {images : List ImageGeneration}
    (known : ∀ image ∈ images, KeyKnown userId past image.storage_key) :
    call.Keeps config past (presignListImagesInPlace config images) fun _ _ => True := by
  induction images generalizing past with
  | nil => exact .done trivial
  | cons image images ih =>
    have first : call.Keeps config past (presignStored config image) fun _ _ => True := by
      unfold presignStored
      split
      · exact .done trivial
      · exact keeps_presignInPlace signs (known image List.mem_cons_self)
    unfold presignListImagesInPlace
    apply first.bind
    intro later signed grown _
    apply (ih fun other member => (known other (List.mem_cons_of_mem _ member)).grow grown).bind
    intros
    exact .done trivial

theorem keeps_writeToCache (own : call.user = some userId) (id : Int) {image : ImageGeneration}
    (known : KeyKnown userId past image.storage_key) :
    call.Keeps config past (writeToCache (ImageCache.metaKey userId id) image) fun _ _ => True := by
  unfold writeToCache
  apply (keeps_cacheSetex own (.task id image known) _).bind
  intros
  exact .done trivial

theorem keeps_writeListCache (own : call.user = some userId) {key : String} (list : isListKey userId key)
    (result : ListResult) (known : ∀ image ∈ result.content, KeyKnown userId past image.storage_key) :
    call.Keeps config past (writeListCache key result) fun _ _ => True := by
  unfold writeListCache
  apply keeps_drawRandom.bind
  intro later jitter grown _
  have write := CacheWrite.page key result list fun image member => (known image member).grow grown
  apply (keeps_cacheSetex own write _).bind
  intros
  exact .done trivial

/-! ## Requests -/

theorem keeps_checkActiveTasks {payload : Json} {isAdmin : Bool} :
    (Call.create userId payload isAdmin).Keeps config past (checkActiveTasks config userId isAdmin)
      fun later refused => refused = none → withinQuota config userId isAdmin later := by
  unfold checkActiveTasks
  dsimp only
  split
  · have own : (Call.create userId payload isAdmin).sends config past (.countActiveTasks userId) := rfl
    apply (keeps_sql own).bind
    intro later active grown known
    cases active with
    | error error =>
      refine .done ?_
      intro passed
      cases passed
    | ok active =>
      dsimp only
      split
      · refine .done ?_
        intro passed
        cases passed
      · rename_i below
        refine .done fun _ => ?_
        exact .inr (.inr ⟨active, known, Int.not_le.mp below⟩)
  · rename_i exempt
    refine .done fun _ => ?_
    by_cases admin : isAdmin = true
    · exact .inl admin
    · refine .inr (.inl (Int.not_lt.mp fun positive => exempt ⟨by simp [admin], positive⟩))

theorem keeps_announceCreated {payload : Json} {isAdmin : Bool} {generation : ImageGeneration}
    (known : KeyKnown userId past generation.storage_key) :
    (Call.create userId payload isAdmin).Keeps config past (announceCreated userId generation)
      fun _ _ => True := by
  unfold announceCreated
  apply (keeps_publishTaskUpdated generation).bind
  intro later published grown _
  cases published with
  | error what => exact .done trivial
  | ok _ =>
    apply (keeps_writeToCache rfl generation.id (known.grow grown)).bind
    intro _ _ _ _
    apply (keeps_invalidateListCacheFor userId).bind
    intro _ _ _ _
    apply (keeps_enqueueTask generation.id).bind
    intros
    exact .done trivial

theorem keeps_requestIdOf {generation : ImageGeneration} :
    call.Keeps config past (requestIdOf generation) fun _ _ => True := by
  unfold requestIdOf
  split
  · unfold buildRequestId
    apply keeps_readClock.bind
    intro _ _ _ _
    apply keeps_drawRandom.bind
    intros
    exact .done trivial
  · exact .done trivial

theorem keeps_create {payload : Json} {isAdmin : Bool} :
    (Call.create userId payload isAdmin).Keeps config past (create config userId payload isAdmin)
      fun _ _ => True := by
  unfold create
  split
  · exact .done trivial
  · dsimp only
    split
    · exact .done trivial
    · apply keeps_checkActiveTasks.bind
      intro quotaKnown refused grown within
      cases refused with
      | some error => exact .done trivial
      | none =>
        apply keeps_readClock.bind
        intro clockRead now grown' _
        apply keeps_requestIdOf.bind
        intro named requestId grown'' _
        have own : ∀ text, (Call.create userId payload isAdmin).sends config named
            (.selectByRequestIdAndUserId text userId) := fun _ => rfl
        apply (ImageRepo.keeps_findByRequestIdAndUserId (own _)).bind
        intro searched existing grown₃ _
        cases existing with
        | error error => exact .done trivial
        | ok existing =>
          cases existing with
          | some image => exact .done trivial
          | none =>
            have passed : ∀ {later : Past}, searched ⊆ later → withinQuota config userId isAdmin later :=
              fun grown₄ => (within rfl).grow (List.Subset.trans grown' (List.Subset.trans grown''
                (List.Subset.trans grown₃ grown₄)))
            have sends : ∀ later createdAt, searched ⊆ later →
                (Call.create userId payload isAdmin).sends config later
                  (.insert (ImageRepo.insertValues (prepared (trimmed (.fromJson payload)) userId now
                    requestId) createdAt)) :=
              fun later createdAt grown₄ => ⟨⟨now, createdAt, requestId, rfl⟩, passed grown₄⟩
            apply (ImageRepo.keeps_insert sends).bind
            intro inserted answer grown₄ known
            cases answer with
            | error error => exact .done trivial
            | ok id =>
              obtain ⟨createdAt, sent⟩ := known id rfl
              have key := KeyKnown.inserted sent rfl
              exact keeps_announceCreated key

theorem keeps_listFromDb (signs : Signs config call userId) {key : String}
    (list : isListKey userId key) {query : Program (RepoResult ImageRepo.PageResult)}
    (queries : call.Keeps config past query fun later result =>
      ∀ found, result = .ok found → ∀ image ∈ found.content,
        KeyKnown userId later image.storage_key) :
    call.Keeps config past (listFromDb config key query) fun _ _ => True := by
  unfold listFromDb
  apply queries.bind
  intro later result grown known
  cases result with
  | error error => exact .done trivial
  | ok page =>
    have keys := known page rfl
    apply (keeps_writeListCache signs.own list ⟨page.content, page.total_elements⟩ keys).bind
    intro cached _ grown' _
    apply (keeps_presignListImagesInPlace signs fun image member => (keys image member).grow grown').bind
    intros
    exact .done trivial

theorem keeps_listCached (signs : Signs config call userId) {key : String}
    (list : isListKey userId key) {query : Program (RepoResult ImageRepo.PageResult)}
    (queries : ∀ past, call.Keeps config past query fun later result =>
      ∀ found, result = .ok found → ∀ image ∈ found.content,
        KeyKnown userId later image.storage_key) :
    call.Keeps config past (listCached config key query) fun _ _ => True := by
  unfold listCached
  apply (keeps_cacheGet signs.own (.inr (.inl list))).bind
  intro later cached grown read
  cases cached with
  | none => exact keeps_listFromDb signs list (queries later)
  | some cached =>
    dsimp only
    split
    · rename_i result decoded
      have keys : ∀ image ∈ result.content, KeyKnown userId later image.storage_key :=
        fun image member => .cachedPage list read decoded member
      apply (keeps_presignListImagesInPlace signs keys).bind
      intros
      exact .done trivial
    · apply (keeps_cacheDel key).bind
      intro later' _ _ _
      exact keeps_listFromDb signs list (queries later')

theorem keeps_listMy {page size : Int} :
    (Call.listMy userId page size).Keeps config past (listMy config userId page size)
      fun _ _ => True := by
  have signs : Signs config (.listMy userId page size) userId := ⟨rfl, fun _ _ named known => ⟨named, known⟩⟩
  unfold listMy
  split
  · exact .done trivial
  · apply (keeps_getListVersion userId).bind
    intro later version _ _
    apply keeps_listCached signs (.inl ⟨version, _, _, rfl⟩)
    intro later'
    exact ImageRepo.keeps_findPage (fun _ _ _ => rfl) fun _ => rfl

theorem keeps_listMyByStatus {status : String} {page size : Int} :
    (Call.listMyByStatus userId status page size).Keeps config past
      (listMyByStatus config userId status page size) fun _ _ => True := by
  have signs : Signs config (.listMyByStatus userId status page size) userId :=
    ⟨rfl, fun _ _ named known => ⟨named, known⟩⟩
  unfold listMyByStatus
  split
  · exact .done trivial
  · apply (keeps_getListVersion userId).bind
    intro later version _ _
    apply keeps_listCached signs (.inr ⟨version, _, _, _, rfl⟩)
    intro later'
    exact ImageRepo.keeps_findPage (fun _ _ _ => rfl) fun _ => rfl

theorem keeps_getFromDb {id : Int} {includeImagePayload : Bool} :
    (Call.getById userId id includeImagePayload).Keeps config past
      (getFromDb config userId id includeImagePayload) fun _ _ => True := by
  have signs : Signs config (.getById userId id includeImagePayload) userId :=
    ⟨rfl, fun _ _ named known => ⟨named, known⟩⟩
  have reads : ∀ past, (Call.getById userId id includeImagePayload).sends config past
      (.selectByIdAndUserId id userId) := fun _ => ⟨rfl, rfl⟩
  unfold getFromDb
  apply (ImageRepo.keeps_findByIdAndUserId (reads _)).bind
  intro later found grown known
  cases found with
  | error error => exact .done trivial
  | ok found =>
    cases found with
    | none =>
      apply (keeps_cacheSetex signs.own (.missing id) _).bind
      intros
      exact .done trivial
    | some generation =>
      obtain ⟨row, read, rfl⟩ := known generation rfl
      have key : KeyKnown userId later row.storage_key := .row read
      apply (keeps_writeToCache signs.own id key).bind
      intro later' _ grown' _
      split
      · apply (keeps_presignInPlace signs (key.grow grown')).bind
        intros
        exact .done trivial
      · exact .done trivial

theorem keeps_getById {id : Int} {includeImagePayload : Bool} :
    (Call.getById userId id includeImagePayload).Keeps config past
      (getById config userId id includeImagePayload) fun _ _ => True := by
  have signs : Signs config (.getById userId id includeImagePayload) userId :=
    ⟨rfl, fun _ _ named known => ⟨named, known⟩⟩
  unfold getById
  split
  · exact .done trivial
  · apply (keeps_cacheGet signs.own (.inl ⟨id, rfl⟩)).bind
    intro later cached _ read
    cases cached with
    | none => exact keeps_getFromDb
    | some cached =>
      dsimp only
      split
      · exact .done trivial
      · split
        · rename_i image decoded
          split
          · apply (keeps_presignInPlace signs (.cached read decoded)).bind
            intros
            exact .done trivial
          · exact .done trivial
        · apply (keeps_cacheDel _).bind
          intro _ _ _ _
          exact keeps_getFromDb

theorem keeps_dropFromQueue (id : Int) :
    call.Keeps config past (dropFromQueue id) fun _ _ => True := by
  unfold dropFromQueue
  apply keeps_redisAvailable.bind
  intro _ up _ _
  cases up with
  | true => exact .call trivial fun _ => .call trivial fun _ => .done trivial
  | false => exact .done trivial

theorem keeps_cancelById {id : Int} :
    (Call.cancelById userId id).Keeps config past (cancelById userId id) fun _ _ => True := by
  have reads : ∀ past, (Call.cancelById userId id).sends config past
      (.selectByIdAndUserId id userId) := fun _ => ⟨rfl, rfl⟩
  have cancels : ∀ past now, (Call.cancelById userId id).sends config past
      (.cancelByIdAndUserId now id userId) := fun _ _ => ⟨rfl, rfl⟩
  unfold cancelById
  split
  · exact .done trivial
  · apply (ImageRepo.keeps_findByIdAndUserId (reads _)).bind
    intro _ found _ _
    cases found with
    | error error => exact .done trivial
    | ok found =>
      cases found with
      | none => exact .done trivial
      | some current =>
        dsimp only
        split
        · exact .done trivial
        · apply (ImageRepo.keeps_cancelByIdAndUserId reads cancels).bind
          intro _ cancelled _ _
          cases cancelled with
          | error error => exact .done trivial
          | ok cancelled =>
            cases cancelled with
            | none => exact .done trivial
            | some updated =>
              apply (keeps_dropFromQueue id).bind
              intro _ _ _ _
              apply (keeps_publishTaskUpdated updated).bind
              intro _ published _ _
              cases published with
              | error what => exact .done trivial
              | ok _ =>
                apply (keeps_cacheDel _).bind
                intro _ _ _ _
                apply (keeps_invalidateListCacheFor userId).bind
                intros
                exact .done trivial

theorem keeps_retryById {id : Int} :
    (Call.retryById userId id).Keeps config past (retryById userId id) fun _ _ => True := by
  have reads : ∀ past, (Call.retryById userId id).sends config past
      (.selectByIdAndUserId id userId) := fun _ => ⟨rfl, rfl⟩
  have retries : ∀ past, (Call.retryById userId id).sends config past
      (.retryByIdAndUserId id userId) := fun _ => ⟨rfl, rfl⟩
  unfold retryById
  split
  · exact .done trivial
  · apply (ImageRepo.keeps_findByIdAndUserId (reads _)).bind
    intro _ found _ _
    cases found with
    | error error => exact .done trivial
    | ok found =>
      cases found with
      | none => exact .done trivial
      | some current =>
        dsimp only
        split
        · exact .done trivial
        · apply (ImageRepo.keeps_retryByIdAndUserId reads retries).bind
          intro _ retried _ _
          cases retried with
          | error error => exact .done trivial
          | ok retried =>
            cases retried with
            | none => exact .done trivial
            | some updated =>
              apply (keeps_publishTaskUpdated updated).bind
              intro _ published _ _
              cases published with
              | error what => exact .done trivial
              | ok _ =>
                apply (keeps_cacheDel _).bind
                intro _ _ _ _
                apply (keeps_invalidateListCacheFor userId).bind
                intro _ _ _ _
                apply (keeps_enqueueTask id).bind
                intros
                exact .done trivial

theorem keeps_getBinaryById {id : Int} :
    (Call.getBinaryById userId id).Keeps config past (getBinaryById userId id) fun _ _ => True := by
  have reads : ∀ past, (Call.getBinaryById userId id).sends config past
      (.selectByIdAndUserId id userId) := fun _ => ⟨rfl, rfl⟩
  unfold getBinaryById
  split
  · exact .done trivial
  · apply (ImageRepo.keeps_findByIdAndUserId (reads _)).bind
    intro later found _ known
    cases found with
    | error error => exact .done trivial
    | ok found =>
      cases found with
      | none => exact .done trivial
      | some generation =>
        obtain ⟨row, read, rfl⟩ := known generation rfl
        dsimp only
        split
        · exact .done trivial
        · have bytes : (Call.getBinaryById userId id).Keeps config later
              (ImageStorage.getBytes row.storage_key) fun _ _ => True := by
            unfold ImageStorage.getBytes
            split
            · exact .done trivial
            · rename_i nonempty
              have named : row.storage_key ≠ "" := fun empty => nonempty (String.isEmpty_iff.mpr empty)
              exact .call ⟨named, row, read, rfl⟩ fun _ => .done trivial
          apply bytes.bind
          intro _ loaded _ _
          cases loaded with
          | error what => exact .done trivial
          | ok loaded => cases loaded <;> exact .done trivial

theorem keeps_remove {storageKey : String} (stores : call.stores config past (.deleteObject storageKey)) :
    call.Keeps config past (ImageStorage.remove storageKey) fun _ _ => True := by
  unfold ImageStorage.remove
  split
  · exact .done trivial
  · exact .call stores fun _ => .done trivial

theorem keeps_cleanUpDeleted {id : Int} {row : Row}
    (read : past.got (.selectByIdAndUserId id userId) (some row))
    (deleted : ∀ key, objectKeyOf row.storage_key = some key → Removable past key) :
    (Call.deleteById userId id).Keeps config past (cleanUpDeleted userId id row.storage_key)
      fun _ _ => True := by
  have removed : (Call.deleteById userId id).Keeps config past (removeStored row.storage_key)
      fun _ _ => True := by
    unfold removeStored
    split
    · exact .done trivial
    · rename_i nonempty
      have named : row.storage_key ≠ "" := fun empty => nonempty (String.isEmpty_iff.mpr empty)
      have stores : (Call.deleteById userId id).stores config past (.deleteObject row.storage_key) :=
        ⟨deleted _ (objectKeyOf_ne named), named, row, read, rfl⟩
      apply (keeps_remove stores).bind
      intros
      exact .done trivial
  have dropped : ∀ {later : Past}, (Call.deleteById userId id).Keeps config later
      (dropPresigned row.storage_key) fun _ _ => True := by
    intro later
    unfold dropPresigned
    split
    · exact .done trivial
    · apply (keeps_cacheDel _).bind
      intros
      exact .done trivial
  unfold cleanUpDeleted
  apply removed.bind
  intro _ _ _ _
  apply (keeps_cacheDel _).bind
  intro _ _ _ _
  apply dropped.bind
  intro _ _ _ _
  apply (keeps_invalidateListCacheFor userId).bind
  intros
  exact .done trivial

theorem keeps_deleteById {id : Int} :
    (Call.deleteById userId id).Keeps config past (deleteById userId id) fun _ _ => True := by
  have reads : ∀ past, (Call.deleteById userId id).sends config past
      (.selectByIdAndUserId id userId) := fun _ => ⟨rfl, rfl⟩
  unfold deleteById
  split
  · exact .done trivial
  · apply ((ImageRepo.keeps_findByIdAndUserId (reads _)).and (gives_findByIdAndUserId id userId)).bind
    rintro later found _ ⟨_, known⟩
    cases found with
    | error error => exact .done trivial
    | ok found =>
      cases found with
      | none => exact .done trivial
      | some currentImage =>
        obtain ⟨row, rfl, rfl⟩ := known currentImage rfl
        dsimp only
        split
        · exact .done trivial
        · have sends : ∀ later, (Call.deleteById userId id).sends config later
              (.deleteByIdAndUserId id userId) := fun _ => ⟨rfl, rfl⟩
          apply ((ImageRepo.keeps_updates rfl (sends _)).and (gives_deleteByIdAndUserId id userId)).bind
          rintro later' deleted grown ⟨_, met⟩
          cases deleted with
          | error error => exact .done trivial
          | ok deleted =>
            cases deleted with
            | false => exact .done trivial
            | true =>
              obtain ⟨count, positive, rfl⟩ := met rfl
              obtain ⟨count, rfl⟩ := Nat.exists_eq_succ_of_ne_zero (Nat.ne_of_gt positive)
              have removable : ∀ key, objectKeyOf row.storage_key = some key → Removable
                  ((⟨.sql (.deleteByIdAndUserId id userId), .ok (count + 1)⟩ : Taken interface) ::
                    ⟨.sql (.selectByIdAndUserId id userId), .ok (some row)⟩ :: past) key :=
                fun key named => ⟨named, rfl⟩
              apply (keeps_cleanUpDeleted (grown List.mem_cons_self) removable).bind
              intros
              exact .done trivial

end ImageService

end Text2Image
