import Text2Image.Concurrency.Policy
import Text2Image.Properties.CacheKeyspace
import Text2Image.Properties.JsonRoundTrip
import Text2Image.Services.Backend

/-! A read that the cache answers against one that the database answers. -/

set_option autoImplicit false

namespace Text2Image

open Concurrency Concurrency.Prog ImageCache ImageService

variable {config : Config} {pid : Nat} {choose : Op → Choice} {world after : World}

/-! ## Replies -/

/-- The image but for the url that has been signed for it: that one is of the time at which it was signed. -/
def unsigned (signs : Bool) (image : ImageGeneration) : ImageGeneration :=
  if signs ∧ ¬ image.storage_key.isEmpty then { image with image_url := "" } else image

theorem unsigned_of_signed {image : ImageGeneration} (named : image.storage_key.isEmpty = false) (url : String) :
    unsigned true { image with image_url := url } = unsigned true image := by
  simp [unsigned, named]

/-- The images of a page but for their signed urls. -/
def unsignedPage (result : ListResult) : ListResult :=
  { result with content := result.content.map (unsigned true) }

def Reply.unsigned (signs : Bool) : Reply → Reply
  | .image result => .image (result.map (Text2Image.unsigned signs))
  | .list result => .list (result.map unsignedPage)
  | reply => reply

/-! ## A backend without faults -/

/-- Nothing fails; what is signed, drawn and picked is left open. -/
def Dependable (choose : Op → Choice) : Prop := ∀ op, (choose op).outcome = .done

def serving (config : Config) (pid : Nat) (choose : Op → Choice) : Policy interface World Choice where
  perform := perform config pid
  choose := choose

/-- Nothing but urls has been cached. -/
structure Resigned (config : Config) (world after : World) : Prop where
  db : after.db = world.db
  others : ∀ key, (∀ storageKey, key ≠ cacheKey config (presignKey storageKey)) →
    after.cache key = world.cache key

theorem Resigned.refl (world : World) : Resigned config world world := ⟨rfl, fun _ _ => rfl⟩

theorem Resigned.trans {middle : World} (first : Resigned config world middle)
    (second : Resigned config middle after) : Resigned config world after where
  db := second.db.trans first.db
  others key other := (second.others key other).trans (first.others key other)

/-- The url of an object, kept under its key. -/
theorem resigned_of_url (storageKey url : String) (world : World) : Resigned config world
    (world.withCache (cacheKey config (presignKey storageKey)) (some (.text url))) where
  db := rfl
  others _ other := Function.update_of_ne (other storageKey) _ _

theorem obeying_perform (op : Op) (world : World) :
    (Prog.perform (I := interface) op).obeying (serving config pid choose) world =
      perform config pid op (choose op) world := rfl

/-- The row that the database gives for an id. -/
def cachedRow (choose : Op → Choice) (t : ImageTable) (userId id : Int) : Option Row :=
  (Stmt.selectByIdAndUserId id userId).answer t (choose (.sql (.selectByIdAndUserId id userId))).pick

/-- The rows on a page. -/
def ImageCache.Listing.rows (listing : Listing) (t : ImageTable) : List Row :=
  let size := ImageRepo.normalizeSize listing.size
  let offset := ImageRepo.normalizePage listing.page * size
  ((t.select (ofUser listing.userId listing.status)).reverse.drop offset.toNat).take size.toNat

/-- Each row of a page comes with the same total, and none with an empty one. -/
theorem collect_page (rows : List Row) (total : Int) : ∃ counted, (counted = 0 ∨ counted = total) ∧
    ImageRepo.collectPagedResultRows (rows.map fun row => (row, total)) =
      ⟨rows.map ImageRepo.rowToImageGeneration, counted⟩ := by
  have content : (ImageRepo.collectPagedResultRows (rows.map fun row => (row, total))).content =
      rows.map ImageRepo.rowToImageGeneration := by
    simp [ImageRepo.collectPagedResultRows, Function.comp_def]
  refine ⟨_, ?_, congrArg (ImageRepo.PageResult.mk · _) content⟩
  cases found : ((rows.map fun row => (row, total)).map Prod.snd).find? fun total => total ≠ 0 with
  | none => exact .inl rfl
  | some counted =>
    have member := List.mem_of_find?_eq_some found
    simp only [List.map_map, List.mem_map] at member
    obtain ⟨row, _, rfl⟩ := member
    exact .inr rfl

/-- What a read of a single task replies, but for a signed url, and what it leaves in the cache. -/
def fetched (signs : Bool) (row : Option Row) : ServiceResult ImageGeneration :=
  match row with
  | none => .error (notFound "image_not_found" "image not found")
  | some row => .ok (unsigned signs (ImageRepo.rowToImageGeneration row))

def entryOf (row : Option Row) : CacheValue :=
  match row with
  | none => .text kNullMarker
  | some row => .json (sanitized (ImageRepo.rowToImageGeneration row)).toJson

/-- The reply that such an entry gives. -/
def recalled (signs : Bool) (row : Option Row) : ServiceResult ImageGeneration :=
  match row with
  | none => .error (notFound "image_not_found" "image not found")
  | some row => .ok (unsigned signs (.fromJson (sanitized (ImageRepo.rowToImageGeneration row)).toJson))

theorem metaKey_ne_presign (userId id : Int) (storageKey : String) :
    cacheKey config (metaKey userId id) ≠ cacheKey config (presignKey storageKey) :=
  fun same => presignKey_ne_metaKey storageKey userId id (cacheKey_injective same).symm

theorem key_ne_presign (listing : Listing) (version : Int) (storageKey : String) :
    cacheKey config (listing.key version) ≠ cacheKey config (presignKey storageKey) :=
  fun same => presignKey_ne_key storageKey listing version (cacheKey_injective same).symm

section Serving

variable (dependable : Dependable choose)
include dependable

theorem Dependable.succeeds (op : Op) : (choose op).succeeds = true := by
  simp [Choice.succeeds, dependable op]

theorem Dependable.applies (op : Op) : (choose op).applies = true := by
  simp [Choice.applies, dependable op]

theorem obeying_presignUrl (storageKey : String) (world : World) :
    (ImageStorage.presignUrl storageKey).obeying (serving config pid choose) world =
      (.ok (choose (.presignGetUrl storageKey)).url, world) := by
  refine (obeying_perform _ world).trans ?_
  simp only [perform, Choice.orThrow, dependable.succeeds, if_true]
  rfl

theorem obeying_cacheGet (key : String) (world : World) :
    (cacheGet key).obeying (serving config pid choose) world = (world.cache (cacheKey config key), world) := by
  refine (obeying_perform _ world).trans ?_
  simp only [perform, dependable.succeeds]
  rfl

theorem obeying_cacheSetex (key : String) (value : CacheValue) (ttl : Int) (world : World) :
    (cacheSetex key value ttl).obeying (serving config pid choose) world =
      (true, world.withCache (cacheKey config key) (some value)) := by
  refine (obeying_perform _ world).trans ?_
  simp only [perform, dependable.succeeds, dependable.applies, if_true]
  rfl

theorem obeying_getListVersion (userId : Int) (world : World) :
    (getListVersion userId).obeying (serving config pid choose) world =
      (world.version (versionKey config kListVersionNamespace (toString userId)), world) := by
  refine (obeying_perform _ world).trans ?_
  simp only [perform, dependable.succeeds]
  rfl

/-- A statement that reads is answered, and changes nothing. -/
theorem obeying_read {s : Stmt} (reads : s.isRead = true) (world : World) :
    (sql s).obeying (serving config pid choose) world =
      (.ok (s.answer world.db (choose (.sql s)).pick), world) := by
  have stays : (keeperAfter pid s world).commit pid s = world := by
    cases s <;> first | rfl | cases reads
  refine (obeying_perform _ world).trans ?_
  simp only [perform, dependable (.sql s), stays]
  rfl

/-- Some url is signed, or one that has been signed is read. -/
theorem obeying_presignWithCache {storageKey : String} (named : storageKey.isEmpty = false) (world : World) :
    ∃ url after, (presignWithCache config storageKey).obeying (serving config pid choose) world =
      (.ok url, after) ∧ Resigned config world after := by
  unfold presignWithCache
  simp only [named, Bool.false_eq_true, if_false]
  split
  · exact ⟨_, world, obeying_presignUrl dependable storageKey world, .refl world⟩
  · rw [obeying_bind_of (obeying_cacheGet dependable _ world)]
    split
    · rename_i url cached
      exact ⟨url, world, rfl, .refl world⟩
    · rw [obeying_bind_of (obeying_presignUrl dependable storageKey world)]
      dsimp only
      split
      · exact ⟨_, world, rfl, .refl world⟩
      · rw [obeying_bind_of (obeying_cacheSetex dependable _ _ _ world)]
        exact ⟨_, _, rfl, resigned_of_url storageKey _ world⟩

theorem obeying_presignInPlace {image : ImageGeneration} (named : image.storage_key.isEmpty = false) (world : World) :
    ∃ shown after, (presignInPlace config image).obeying (serving config pid choose) world = (shown, after) ∧
      unsigned true shown = unsigned true image ∧ Resigned config world after := by
  obtain ⟨url, after, ran, resigned⟩ := @obeying_presignWithCache config pid choose dependable _ named world
  refine ⟨{ image with image_url := url }, after, ?_, unsigned_of_signed named url, resigned⟩
  unfold presignInPlace
  rw [obeying_bind_of ran]
  rfl

theorem obeying_presignStored (image : ImageGeneration) (world : World) :
    ∃ shown after, (presignStored config image).obeying (serving config pid choose) world = (shown, after) ∧
      unsigned true shown = unsigned true image ∧ Resigned config world after := by
  unfold presignStored
  cases named : image.storage_key.isEmpty with
  | true => exact ⟨image, world, rfl, rfl, .refl world⟩
  | false => exact obeying_presignInPlace dependable named world

theorem obeying_presignList (images : List ImageGeneration) (world : World) :
    ∃ shown after, (presignListImagesInPlace config images).obeying (serving config pid choose) world =
      (shown, after) ∧ shown.map (unsigned true) = images.map (unsigned true) ∧ Resigned config world after := by
  induction images generalizing world with
  | nil => exact ⟨[], world, rfl, rfl, .refl world⟩
  | cons image images ih =>
    obtain ⟨shown, middle, first, same, resigned⟩ :=
      @obeying_presignStored config pid choose dependable image world
    obtain ⟨others, after, rest, sames, later⟩ := ih middle
    refine ⟨shown :: others, after, ?_, ?_, resigned.trans later⟩
    · unfold presignListImagesInPlace
      rw [obeying_bind_of first, obeying_bind_of rest]
      rfl
    · rw [List.map_cons, List.map_cons, same, sames]

/-! ## What a read yields -/

theorem obeying_findByIdAndUserId (id userId : Int) (world : World) :
    (ImageRepo.findByIdAndUserId id userId).obeying (serving config pid choose) world =
      (.ok ((cachedRow choose world.db userId id).map ImageRepo.rowToImageGeneration), world) := by
  unfold ImageRepo.findByIdAndUserId
  rw [obeying_bind_of (obeying_read dependable rfl world)]
  rfl

/-- A page of a table that is not too large, with its total. -/
theorem obeying_findPage (listing : Listing) (small : world.db.rows.length < 2 ^ 63) :
    ∃ total, ImageGeneration.FitsBits 64 total ∧
      (ImageRepo.findPage listing.userId listing.status listing.page listing.size).obeying
          (serving config pid choose) world =
        (.ok ⟨(listing.rows world.db).map ImageRepo.rowToImageGeneration, total⟩, world) := by
  let matching := world.db.select (ofUser listing.userId listing.status)
  have fewer : matching.length ≤ world.db.rows.length := List.length_filter_le _ _
  have fits : ImageGeneration.FitsBits 64 (matching.length : Int) := by
    unfold ImageGeneration.FitsBits
    omega
  obtain ⟨counted, which, collected⟩ := collect_page (listing.rows world.db) matching.length
  have page : ∀ pick, ImageRepo.collectPagedResultRows ((Stmt.selectPage listing.userId listing.status
      (ImageRepo.normalizeSize listing.size) (ImageRepo.normalizePage listing.page *
        ImageRepo.normalizeSize listing.size)).answer world.db pick) =
      ⟨(listing.rows world.db).map ImageRepo.rowToImageGeneration, counted⟩ := fun _ => collected
  unfold ImageRepo.findPage
  rw [obeying_bind_of (obeying_read dependable rfl world)]
  simp only [page]
  split
  · -- a page past the end is counted separately
    rw [obeying_bind_of (obeying_read dependable rfl world)]
    exact ⟨matching.length, fits, rfl⟩
  · refine ⟨counted, ?_, rfl⟩
    rcases which with rfl | rfl
    · decide
    · exact fits

theorem obeying_writeToCache (key : String) (image : ImageGeneration) (world : World) :
    (writeToCache key image).obeying (serving config pid choose) world =
      ((), world.withCache (cacheKey config key) (some (.json (sanitized image).toJson))) := by
  unfold writeToCache
  rw [obeying_bind_of (obeying_cacheSetex dependable _ _ _ world)]
  rfl

theorem obeying_writeListCache (key : String) (result : ListResult) (world : World) :
    (writeListCache key result).obeying (serving config pid choose) world =
      ((), world.withCache (cacheKey config key) (some (.json (encodeList result)))) := by
  unfold writeListCache
  rw [obeying_bind]
  have drawn : ((drawRandom).obeying (serving config pid choose) world).2 = world := rfl
  rw [drawn, obeying_bind_of (obeying_cacheSetex dependable _ _ _ world)]
  rfl

/-- The url of a single task is signed where it is asked for. -/
theorem obeying_shown (includeImagePayload : Bool) (image : ImageGeneration) (world : World) :
    ∃ shown after, (if includeImagePayload ∧ ¬ image.storage_key.isEmpty then do
        let signed ← presignInPlace config image
        return .ok signed
      else return .ok image : Program (ServiceResult ImageGeneration)).obeying (serving config pid choose) world =
      (.ok shown, after) ∧ unsigned includeImagePayload shown = unsigned includeImagePayload image ∧
      Resigned config world after := by
  cases named : image.storage_key.isEmpty with
  | true => exact ⟨image, world, by simp, rfl, .refl world⟩
  | false =>
    cases includeImagePayload with
    | false => exact ⟨image, world, by simp, rfl, .refl world⟩
    | true =>
      obtain ⟨shown, after, ran, same, resigned⟩ := @obeying_presignInPlace config pid choose dependable _ named world
      refine ⟨shown, after, ?_, same, resigned⟩
      simp only [Bool.false_eq_true, not_false_eq_true, and_self, if_true]
      rw [obeying_bind_of ran]
      rfl

/-! ## A single task -/

theorem obeying_getFromDb (userId id : Int) (includeImagePayload : Bool) (world : World) :
    ∃ reply after, (getFromDb config userId id includeImagePayload).obeying (serving config pid choose) world =
      (reply, after) ∧
      reply.map (unsigned includeImagePayload) = fetched includeImagePayload (cachedRow choose world.db userId id) ∧
      after.cache (cacheKey config (metaKey userId id)) = some (entryOf (cachedRow choose world.db userId id)) := by
  have apart := fun storageKey => @metaKey_ne_presign config userId id storageKey
  unfold getFromDb
  rw [obeying_bind_of (obeying_findByIdAndUserId dependable id userId world)]
  cases cachedRow choose world.db userId id with
  | none =>
    simp only [Option.map_none]
    rw [obeying_bind_of (obeying_cacheSetex dependable _ _ _ world)]
    exact ⟨_, _, rfl, rfl, Function.update_self ..⟩
  | some row =>
    simp only [Option.map_some]
    rw [obeying_bind_of (obeying_writeToCache dependable _ _ world)]
    obtain ⟨shown, after, ran, same, resigned⟩ := @obeying_shown config pid choose dependable includeImagePayload
      (ImageRepo.rowToImageGeneration row)
      (world.withCache (cacheKey config (metaKey userId id)) (some (entryOf (some row))))
    -- signing writes beside the entry
    refine ⟨.ok shown, after, ran, congrArg Except.ok same, (resigned.others _ apart).trans ?_⟩
    exact Function.update_self ..

theorem obeying_getById_miss {userId id : Int} (includeImagePayload : Bool) (positive : ¬ userId ≤ 0)
    (absent : world.cache (cacheKey config (metaKey userId id)) = none) :
    ∃ reply after, (getById config userId id includeImagePayload).obeying (serving config pid choose) world =
      (reply, after) ∧
      reply.map (unsigned includeImagePayload) = fetched includeImagePayload (cachedRow choose world.db userId id) ∧
      after.cache (cacheKey config (metaKey userId id)) = some (entryOf (cachedRow choose world.db userId id)) := by
  unfold getById
  rw [if_neg positive, obeying_bind_of (obeying_cacheGet dependable _ world), absent]
  exact obeying_getFromDb dependable userId id includeImagePayload world

theorem obeying_getById_hit {userId id : Int} (includeImagePayload : Bool) (positive : ¬ userId ≤ 0)
    {row : Option Row} (present : world.cache (cacheKey config (metaKey userId id)) = some (entryOf row)) :
    (((getById config userId id includeImagePayload).obeying (serving config pid choose) world).1).map
      (unsigned includeImagePayload) = recalled includeImagePayload row := by
  unfold getById
  rw [if_neg positive, obeying_bind_of (obeying_cacheGet dependable _ world), present]
  cases row with
  | none => rfl
  | some row =>
    obtain ⟨shown, after, ran, same, _⟩ := @obeying_shown config pid choose dependable includeImagePayload
      (.fromJson (sanitized (ImageRepo.rowToImageGeneration row)).toJson) world
    exact (congrArg (fun ran => (Prod.fst ran).map (unsigned includeImagePayload)) ran).trans (congrArg Except.ok same)

/-! ## A page -/

theorem obeying_listCached_miss {listing : Listing} {version : Int} (small : world.db.rows.length < 2 ^ 63)
    (absent : world.cache (cacheKey config (listing.key version)) = none) :
    ∃ total reply after, ImageGeneration.FitsBits 64 total ∧
      (listCached config (listing.key version) (ImageRepo.findPage listing.userId listing.status listing.page
        listing.size)).obeying (serving config pid choose) world = (reply, after) ∧
      reply.map unsignedPage = .ok (unsignedPage ⟨(listing.rows world.db).map ImageRepo.rowToImageGeneration, total⟩) ∧
      after.cache (cacheKey config (listing.key version)) =
        some (.json (encodeList ⟨(listing.rows world.db).map ImageRepo.rowToImageGeneration, total⟩)) := by
  obtain ⟨total, fits, found⟩ := @obeying_findPage config pid choose world dependable listing small
  have apart := fun storageKey => @key_ne_presign config listing version storageKey
  unfold listCached
  rw [obeying_bind_of (obeying_cacheGet dependable _ world), absent]
  simp only [listFromDb]
  rw [obeying_bind_of found]
  simp only []
  rw [obeying_bind_of (obeying_writeListCache dependable _ _ world)]
  obtain ⟨shown, after, ran, same, resigned⟩ := @obeying_presignList config pid choose dependable
    ((listing.rows world.db).map ImageRepo.rowToImageGeneration) (world.withCache (cacheKey config (listing.key version))
      (some (.json (encodeList ⟨(listing.rows world.db).map ImageRepo.rowToImageGeneration, total⟩))))
  rw [obeying_bind_of ran]
  refine ⟨total, _, after, fits, rfl, ?_, (resigned.others _ apart).trans (Function.update_self ..)⟩
  exact congrArg (fun content => Except.ok (ListResult.mk content total)) same

theorem obeying_listCached_hit {key : String} {query : Program (RepoResult ImageRepo.PageResult)}
    {result : ListResult} (fits : ImageGeneration.FitsBits 64 result.total_elements)
    (present : world.cache (cacheKey config key) = some (.json (encodeList result))) :
    (((listCached config key query).obeying (serving config pid choose) world).1).map unsignedPage =
      .ok (unsignedPage { result with content := result.content.map fun image => .fromJson (sanitized image).toJson }) := by
  unfold listCached
  rw [obeying_bind_of (obeying_cacheGet dependable _ world), present]
  -- the total survives the conversion back to 64 bits
  simp only [decodeList_encodeList, ImageGeneration.wrapInt_of_fits (by decide : 0 < 64) fits]
  obtain ⟨shown, after, ran, same, _⟩ := @obeying_presignList config pid choose dependable
    (result.content.map fun image => .fromJson (sanitized image).toJson) world
  rw [obeying_bind_of ran]
  exact congrArg (fun content => Except.ok (ListResult.mk content result.total_elements)) same

end Serving

/-! ## Hit and miss -/

/-- The integers are of the widths of the columns, the times are ones that `system_clock` can show, from 1970 on. -/
structure Storable (t : ImageTable) : Prop where
  widths : ∀ row ∈ t.rows, ImageGeneration.DeclaredWidths (ImageRepo.rowToImageGeneration row)
  times : ∀ row ∈ t.rows, ImageGeneration.PlainTimes (ImageRepo.rowToImageGeneration row)
  small : t.rows.length < 2 ^ 63

/-- The entry that answers a read, under the version its user's pages have now. -/
def Call.address (config : Config) (world : World) : Call → Option CacheAddress
  | .getById userId id _ => some (.metadata userId id)
  | .listMy userId page size =>
    some (.page ⟨userId, none, ImageRepo.normalizePage page, ImageRepo.normalizeSize size⟩
      (world.version (versionKey config kListVersionNamespace (toString userId))))
  | .listMyByStatus userId status page size =>
    some (.page ⟨userId, some (normalizeTaskStatus status), ImageRepo.normalizePage page,
        ImageRepo.normalizeSize size⟩
      (world.version (versionKey config kListVersionNamespace (toString userId))))
  | _ => none

/-- The rows that a read shows. -/
def Call.rows (choose : Op → Choice) (t : ImageTable) : Call → List Row
  | .getById userId id _ => if userId ≤ 0 then [] else (cachedRow choose t userId id).toList
  | .listMy userId page size =>
    if userId ≤ 0 then []
    else Listing.rows ⟨userId, none, ImageRepo.normalizePage page, ImageRepo.normalizeSize size⟩ t
  | .listMyByStatus userId status page size =>
    if userId ≤ 0 then []
    else Listing.rows ⟨userId, some (normalizeTaskStatus status), ImageRepo.normalizePage page,
      ImageRepo.normalizeSize size⟩ t
  | _ => []

/-- Whether it signs their urls. -/
def Call.signs : Call → Bool
  | .getById _ _ includeImagePayload => includeImagePayload
  | _ => true

/-- Of an image without bytes the cache loses the url, which is seen unless it is signed again. -/
theorem unsigned_sanitized {image : ImageGeneration} (empty : image.image_bytes = "") (signs : Bool) :
    unsigned signs (sanitized image) = unsigned signs image ↔
      image.image_url = "" ∨ (signs = true ∧ image.storage_key ≠ "") := by
  have bare : sanitized image = image ↔ image.image_url = "" := by
    constructor
    · intro same
      exact (congrArg ImageGeneration.image_url same).symm
    · intro unset
      obtain ⟨_⟩ := image
      subst empty unset
      rfl
  have key : (sanitized image).storage_key = image.storage_key := rfl
  unfold unsigned
  rw [key]
  by_cases signed : signs = true ∧ ¬ image.storage_key.isEmpty
  · have stored : image.storage_key ≠ "" := by
      intro unnamed
      rw [unnamed] at signed
      exact signed.2 rfl
    have cleared : { sanitized image with image_url := "" } = { image with image_url := "" } := by
      unfold sanitized
      rw [← empty]
    rw [if_pos signed, if_pos signed]
    exact iff_of_true cleared (.inr ⟨signed.1, stored⟩)
  · have bareStored : ¬ (signs = true ∧ image.storage_key ≠ "") := by
      rintro ⟨asked, stored⟩
      exact signed ⟨asked, fun named => stored (String.isEmpty_iff.mp named)⟩
    rw [if_neg signed, if_neg signed, bare, or_iff_left bareStored]

theorem rowOf_mem {t : ImageTable} {userId id : Int} {row : Row} (found : cachedRow choose t userId id = some row) :
    row ∈ t.rows := (List.mem_filter.mp (fetchOne_mem found)).1

theorem Listing.rows_mem {t : ImageTable} {listing : Listing} {row : Row} (member : row ∈ listing.rows t) :
    row ∈ t.rows := by
  have among := List.mem_of_mem_drop (List.mem_of_mem_take member)
  exact (List.mem_filter.mp (List.mem_reverse.mp among)).1

/-- Of a row as the table holds it, nothing else is lost. -/
theorem Storable.recall {t : ImageTable} {row : Row} (storable : Storable t) (member : row ∈ t.rows) :
    ImageGeneration.fromJson (sanitized (ImageRepo.rowToImageGeneration row)).toJson =
      sanitized (ImageRepo.rowToImageGeneration row) := by
  have widths := storable.widths row member
  have times := storable.times row member
  exact ImageGeneration.json_keeps ⟨widths.id, widths.user_id, widths.num_steps, widths.height, widths.width, widths.seed,
      widths.retry_count, widths.max_retries⟩
    ⟨times.created_at, times.started_at, times.completed_at, times.cancelled_at, times.lease_expires_at⟩

theorem Storable.unsigned_recall {t : ImageTable} {row : Row} (storable : Storable t) (signs : Bool)
    (member : row ∈ t.rows) :
    unsigned signs (.fromJson (sanitized (ImageRepo.rowToImageGeneration row)).toJson) =
      unsigned signs (ImageRepo.rowToImageGeneration row) ↔
      row.image_url = "" ∨ (signs = true ∧ row.storage_key ≠ "") := by
  rw [storable.recall member]
  exact unsigned_sanitized rfl signs

theorem Storable.recalled_iff {t : ImageTable} {found : Option Row} (storable : Storable t) (signs : Bool)
    (members : ∀ row, found = some row → row ∈ t.rows) :
    recalled signs found = fetched signs found ↔
      ∀ row ∈ found.toList, row.image_url = "" ∨ (signs = true ∧ row.storage_key ≠ "") := by
  cases found with
  | none => simp [recalled, fetched]
  | some row =>
    simp only [recalled, fetched, Except.ok.injEq, Option.toList_some, List.mem_singleton, forall_eq]
    exact storable.unsigned_recall signs (members row rfl)

theorem Storable.page_iff {t : ImageTable} {rows : List Row} (storable : Storable t) (total : Int)
    (members : ∀ row ∈ rows, row ∈ t.rows) :
    unsignedPage ⟨(rows.map ImageRepo.rowToImageGeneration).map fun image => .fromJson (sanitized image).toJson, total⟩ =
      unsignedPage ⟨rows.map ImageRepo.rowToImageGeneration, total⟩ ↔
      ∀ row ∈ rows, row.image_url = "" ∨ (true = true ∧ row.storage_key ≠ "") := by
  have each : ∀ row ∈ rows, unsigned true (.fromJson (sanitized (ImageRepo.rowToImageGeneration row)).toJson) =
      unsigned true (ImageRepo.rowToImageGeneration row) ↔
      row.image_url = "" ∨ (true = true ∧ row.storage_key ≠ "") :=
    fun row member => storable.unsigned_recall true (members row member)
  refine Iff.trans ?_ (forall₂_congr each)
  simp [unsignedPage]

/-- The read of a page that another has brought into the cache. -/
theorem page_agrees_iff (dependable : Dependable choose) {choose' : Op → Choice} (dependable' : Dependable choose')
    {pid' : Nat} {later : World} (listing : Listing) (version : Int) (storable : Storable world.db)
    (absent : world.cache (cacheKey config (listing.key version)) = none)
    (kept : later.cache (cacheKey config (listing.key version)) =
      ((listCached config (listing.key version) (ImageRepo.findPage listing.userId listing.status listing.page
        listing.size)).obeying (serving config pid choose) world).2.cache
          (cacheKey config (listing.key version))) :
    (((listCached config (listing.key version) (ImageRepo.findPage listing.userId listing.status listing.page
        listing.size)).obeying (serving config pid' choose') later).1).map unsignedPage =
      (((listCached config (listing.key version) (ImageRepo.findPage listing.userId listing.status listing.page
        listing.size)).obeying (serving config pid choose) world).1).map unsignedPage ↔
      ∀ row ∈ listing.rows world.db, row.image_url = "" ∨ (true = true ∧ row.storage_key ≠ "") := by
  obtain ⟨total, reply, after, fits, ran, same, left⟩ :=
    @obeying_listCached_miss config pid choose world dependable _ _ storable.small absent
  rw [ran] at kept ⊢
  rw [obeying_listCached_hit dependable' fits (kept.trans left), same, Except.ok.injEq]
  exact storable.page_iff total fun row member => Listing.rows_mem member

theorem task_agrees_iff (dependable : Dependable choose) {choose' : Op → Choice} (dependable' : Dependable choose')
    {pid' : Nat} {later : World} {userId id : Int} (includeImagePayload : Bool) (positive : ¬ userId ≤ 0)
    (storable : Storable world.db) (absent : world.cache (cacheKey config (metaKey userId id)) = none)
    (kept : later.cache (cacheKey config (metaKey userId id)) =
      ((getById config userId id includeImagePayload).obeying (serving config pid choose) world).2.cache
        (cacheKey config (metaKey userId id))) :
    (((getById config userId id includeImagePayload).obeying (serving config pid' choose') later).1).map
        (unsigned includeImagePayload) =
      (((getById config userId id includeImagePayload).obeying (serving config pid choose) world).1).map
        (unsigned includeImagePayload) ↔
      ∀ row ∈ (cachedRow choose world.db userId id).toList,
        row.image_url = "" ∨ (includeImagePayload = true ∧ row.storage_key ≠ "") := by
  obtain ⟨reply, after, ran, same, left⟩ :=
    @obeying_getById_miss config pid choose world dependable _ _ includeImagePayload positive absent
  rw [ran] at kept ⊢
  rw [obeying_getById_hit dependable' includeImagePayload positive (kept.trans left), same]
  exact storable.recalled_iff includeImagePayload fun row found => rowOf_mem found

/-- A list read asks for the version first. -/
theorem obeying_listMy (dependable : Dependable choose) {userId : Int} (positive : ¬ userId ≤ 0) (page size : Int)
    (world : World) : (listMy config userId page size).obeying (serving config pid choose) world =
      (listCached config (Listing.key ⟨userId, none, ImageRepo.normalizePage page, ImageRepo.normalizeSize size⟩
          (world.version (versionKey config kListVersionNamespace (toString userId))))
        (ImageRepo.findPage userId none (ImageRepo.normalizePage page) (ImageRepo.normalizeSize size))).obeying
        (serving config pid choose) world := by
  unfold listMy
  rw [if_neg positive, obeying_bind_of (obeying_getListVersion dependable userId world)]
  rfl

theorem obeying_listMyByStatus (dependable : Dependable choose) {userId : Int} (positive : ¬ userId ≤ 0)
    (status : String) (page size : Int) (world : World) :
    (listMyByStatus config userId status page size).obeying (serving config pid choose) world =
      (listCached config (Listing.key ⟨userId, some (normalizeTaskStatus status), ImageRepo.normalizePage page,
          ImageRepo.normalizeSize size⟩ (world.version (versionKey config kListVersionNamespace (toString userId))))
        (ImageRepo.findPage userId (some (normalizeTaskStatus status)) (ImageRepo.normalizePage page)
          (ImageRepo.normalizeSize size))).obeying (serving config pid choose) world := by
  unfold listMyByStatus
  rw [if_neg positive, obeying_bind_of (obeying_getListVersion dependable userId world)]
  rfl

/-- A read that finds the entry which an earlier one has left replies as that one did, up to signed
urls, exactly if each row it shows has no url of its own, or has one signed.
-/
theorem cache_agrees_iff (dependable : Dependable choose) {choose' : Op → Choice} (dependable' : Dependable choose')
    {pid' : Nat} {later : World} {call : Call} {address : CacheAddress}
    (reads : call.address config world = some address) (again : call.address config later = some address)
    (storable : Storable world.db) (absent : world.cache (address.redisKey config) = none)
    (kept : later.cache (address.redisKey config) =
      ((call.program config).obeying (serving config pid choose) world).2.cache (address.redisKey config)) :
    (((call.program config).obeying (serving config pid' choose') later).1).unsigned call.signs =
      (((call.program config).obeying (serving config pid choose) world).1).unsigned call.signs ↔
      ∀ row ∈ call.rows choose world.db, row.image_url = "" ∨ (call.signs = true ∧ row.storage_key ≠ "") := by
  cases call with
  | getById userId id includeImagePayload =>
    cases reads
    simp only [Call.program, obeying_bind] at kept ⊢
    refine Reply.image.injEq .. ▸ ?_
    by_cases positive : userId ≤ 0
    · simp [Call.rows, getById, positive]
    · rw [Call.rows, if_neg positive]
      exact task_agrees_iff dependable dependable' includeImagePayload positive storable absent kept
  | listMy userId page size =>
    cases reads
    simp only [Call.program, obeying_bind] at kept ⊢
    refine Reply.list.injEq .. ▸ ?_
    by_cases positive : userId ≤ 0
    · simp [Call.rows, listMy, positive]
    · rw [obeying_listMy dependable positive] at kept ⊢
      rw [obeying_listMy dependable' positive, (CacheAddress.page.inj (Option.some.inj again)).2, Call.rows,
        if_neg positive]
      exact page_agrees_iff dependable dependable' _ _ storable absent kept
  | listMyByStatus userId status page size =>
    cases reads
    simp only [Call.program, obeying_bind] at kept ⊢
    refine Reply.list.injEq .. ▸ ?_
    by_cases positive : userId ≤ 0
    · simp [Call.rows, listMyByStatus, positive]
    · rw [obeying_listMyByStatus dependable positive] at kept ⊢
      rw [obeying_listMyByStatus dependable' positive, (CacheAddress.page.inj (Option.some.inj again)).2, Call.rows,
        if_neg positive]
      exact page_agrees_iff dependable dependable' _ _ storable absent kept
  | _ => cases reads

/-! ## A stored image -/

def storedRow : Row :=
  { ImageRepo.insertValues { user_id := 1, status := .Success, image_url := "/api/images/1/binary" } 0 with
    id := 1, storage_key := "images/1/a.png" }

def oneStored : World :=
  { World.empty with db := Keyed.Table.empty.insert (fun id => { storedRow with id := id }) rfl }

/-- What is signed at some second says so. -/
def signingAt (second : Nat) : Op → Choice
  | .presignGetUrl storageKey => { url := "http://storage/" ++ storageKey ++ "?signed=" ++ toString second }
  | _ => {}

theorem dependable_signingAt (second : Nat) : Dependable (signingAt second) := fun op => by cases op <;> rfl

def readStored (includeImagePayload : Bool) (second : Nat) (world : World) : Reply × World :=
  ((Call.getById 1 1 includeImagePayload).program defaultConfig).obeying (serving defaultConfig 0 (signingAt second))
    world

/-- The world in which the entry of the first read is all that is cached: the url has expired. -/
def afterRead (includeImagePayload : Bool) : World :=
  oneStored.withCache (cacheKey defaultConfig (metaKey 1 1))
    ((readStored includeImagePayload 0 oneStored).2.cache (cacheKey defaultConfig (metaKey 1 1)))

theorem storable_oneStored : Storable oneStored.db where
  widths := by
    intro row member
    obtain rfl := List.mem_singleton.mp member
    constructor <;> decide
  times := by
    intro row member
    obtain rfl := List.mem_singleton.mp member
    constructor
    · exact ⟨0, rfl, by decide, by decide, by decide⟩
    all_goals nofun
  small := by decide

/-- With its url the image is read as it was, though signed anew; without, the second read lacks the url
of the first.
-/
theorem cache_agrees_stored :
    (readStored true 2 (afterRead true)).1.unsigned true = (readStored true 0 oneStored).1.unsigned true ∧
      (readStored true 2 (afterRead true)).1 ≠ (readStored true 0 oneStored).1 ∧
      (readStored false 2 (afterRead false)).1.unsigned false ≠ (readStored false 0 oneStored).1.unsigned false := by
  have agrees (includeImagePayload : Bool) :
      (readStored includeImagePayload 2 (afterRead includeImagePayload)).1.unsigned includeImagePayload =
        (readStored includeImagePayload 0 oneStored).1.unsigned includeImagePayload ↔
      ∀ row ∈ (Call.getById 1 1 includeImagePayload).rows (signingAt 0) oneStored.db,
        row.image_url = "" ∨ (includeImagePayload = true ∧ row.storage_key ≠ "") := by
    have kept : (afterRead includeImagePayload).cache (CacheAddress.redisKey defaultConfig (.metadata 1 1)) =
        (readStored includeImagePayload 0 oneStored).2.cache (CacheAddress.redisKey defaultConfig (.metadata 1 1)) :=
      Function.update_self (cacheKey defaultConfig (metaKey 1 1)) _ oneStored.cache
    exact cache_agrees_iff (dependable_signingAt 0) (dependable_signingAt 2) rfl rfl storable_oneStored rfl kept
  refine ⟨(agrees true).mpr (by decide), fun same => ?_, fun same => absurd ((agrees false).mp same) (by decide)⟩
  have shown := Except.ok.inj (Reply.image.inj (show Reply.image (.ok _) = Reply.image (.ok _) from same))
  exact absurd (congrArg ImageGeneration.image_url shown) (by decide +kernel)

end Text2Image
