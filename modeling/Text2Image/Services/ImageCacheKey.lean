import Text2Image.Database.ImageRepo
import Text2Image.Models.Numbered

/-! Cache keys of tasks, list pages and presigned urls, and the cache client's
operations as programs.
-/

set_option autoImplicit false

namespace Text2Image

open Concurrency

namespace ImageCache

def kNullMarker : String := "__NULL__"

def kListVersionNamespace : String := "img:list"

def metaKey (userId id : Int) : String := s!"img:meta:{userId}:{id}"

def listMyKey (userId version page size : Int) : String :=
  s!"img:list:my:{userId}:v{version}:p{page}:s{size}"

def listMyStatusKey (userId version : Int) (status : TaskStatus) (page size : Int) : String :=
  s!"img:list:status:{userId}:{statusToString status}:v{version}:p{page}:s{size}"

def presignKey (storageKey : String) : String := s!"img:url:{storageKey}"

def kMetaTerminal : Int := 300
def kMetaInflight : Int := 5
def kNullMarkerTtl : Int := 30
def kListBase : Int := 60
def kListJitterMax : Int := 10

/-! ## Keys apart -/

theorem metaKey_chars (userId id : Int) : (metaKey userId id).toList =
    "img:meta:".toList ++ ((toString userId).toList ++ ':' :: (toString id).toList) := by
  have colon : (toString ":").toList = [':'] := by decide
  unfold metaKey
  simp only [String.toList_append, List.append_assoc]
  rw [colon]
  rfl

/-- What follows the user in the key of a page. -/
def pageSuffix (version page size : Int) : List Char :=
  ['v'] ++ ((toString version).toList ++ ':' :: (['p'] ++ ((toString page).toList ++ ':' ::
    ('s' :: (toString size).toList))))

theorem pageSuffix_injective {version page size version' page' size' : Int}
    (same : pageSuffix version page size = pageSuffix version' page' size') :
    version = version' ∧ page = page' ∧ size = size' := by
  obtain ⟨rfl, rest⟩ := Numbered.tagged_injective (by decide) (by decide) same
  obtain ⟨rfl, last⟩ := Numbered.tagged_injective (by decide) (by decide) rest
  exact ⟨rfl, rfl, Numbered.number_injective (List.cons.inj last).2⟩

theorem listMyKey_chars (userId version page size : Int) :
    (listMyKey userId version page size).toList = "img:list:my:".toList ++
      ((toString userId).toList ++ ':' :: pageSuffix version page size) := by
  have v : (toString ":v").toList = [':', 'v'] := by decide
  have p : (toString ":p").toList = [':', 'p'] := by decide
  have s : (toString ":s").toList = [':', 's'] := by decide
  unfold listMyKey pageSuffix
  simp only [String.toList_append, List.append_assoc]
  rw [v, p, s]
  rfl

theorem listMyStatusKey_chars (userId version : Int) (status : TaskStatus) (page size : Int) :
    (listMyStatusKey userId version status page size).toList = "img:list:status:".toList ++
      ((toString userId).toList ++ ':' :: ((statusToString status).toList ++
        ':' :: pageSuffix version page size)) := by
  have colon : (toString ":").toList = [':'] := by decide
  have v : (toString ":v").toList = [':', 'v'] := by decide
  have p : (toString ":p").toList = [':', 'p'] := by decide
  have s : (toString ":s").toList = [':', 's'] := by decide
  unfold listMyStatusKey pageSuffix
  simp only [String.toList_append, List.append_assoc]
  rw [colon, v, p, s]
  rfl

theorem presignKey_chars (storageKey : String) :
    (presignKey storageKey).toList = "img:url:".toList ++ storageKey.toList := by
  unfold presignKey
  simp only [String.toList_append]
  rfl

theorem metaKey_user {userId userId' id id' : Int} (same : metaKey userId id = metaKey userId' id') :
    userId = userId' := by
  have chars := congrArg String.toList same
  rw [metaKey_chars, metaKey_chars] at chars
  exact Numbered.number_of_tagged (by decide) (by decide) chars

theorem metaKey_injective {userId userId' id id' : Int}
    (same : metaKey userId id = metaKey userId' id') : userId = userId' ∧ id = id' := by
  have chars := congrArg String.toList same
  rw [metaKey_chars, metaKey_chars] at chars
  obtain ⟨user, rest⟩ := Numbered.tagged_injective (by decide) (by decide) chars
  exact ⟨user, Numbered.number_injective rest⟩

theorem presignKey_injective {first second : String} (same : presignKey first = presignKey second) :
    first = second := by
  have chars := congrArg String.toList same
  rw [presignKey_chars, presignKey_chars] at chars
  exact String.toList_injective (List.append_cancel_left chars)

/-- The keys of a user's list pages. -/
def isListKey (userId : Int) (key : String) : Prop :=
  (∃ version page size, key = listMyKey userId version page size) ∨
    ∃ version status page size, key = listMyStatusKey userId version status page size

theorem isListKey.chars {userId : Int} {key : String} (list : isListKey userId key) :
    ∃ rest, key.toList = "img:list:my:".toList ++ ((toString userId).toList ++ ':' :: rest) ∨
      key.toList = "img:list:status:".toList ++ ((toString userId).toList ++ ':' :: rest) := by
  rcases list with ⟨version, page, size, rfl⟩ | ⟨version, status, page, size, rfl⟩
  · exact ⟨_, .inl (listMyKey_chars userId version page size)⟩
  · exact ⟨_, .inr (listMyStatusKey_chars userId version status page size)⟩

theorem isListKey.user {userId userId' : Int} {key : String} (list : isListKey userId key)
    (list' : isListKey userId' key) : userId = userId' := by
  obtain ⟨rest, my | status⟩ := list.chars <;> obtain ⟨rest', my' | status'⟩ := list'.chars
  · exact Numbered.number_of_tagged (by decide) (by decide) (my.symm.trans my')
  · have agree := Numbered.tags_agree (my.symm.trans status') (by decide)
    exact (by decide : ¬ "img:list:my:".toList <+: "img:list:status:".toList) agree |>.elim
  · have agree := Numbered.tags_agree (my'.symm.trans status) (by decide)
    exact (by decide : ¬ "img:list:my:".toList <+: "img:list:status:".toList) agree |>.elim
  · exact Numbered.number_of_tagged (by decide) (by decide) (status.symm.trans status')

theorem isListKey.begins {userId : Int} {key : String} (list : isListKey userId key) :
    "img:list:".toList <+: key.toList := by
  obtain ⟨rest, my | status⟩ := list.chars
  · rw [my]
    exact (by decide : "img:list:".toList <+: "img:list:my:".toList).trans (List.prefix_append _ _)
  · rw [status]
    exact (by decide : "img:list:".toList <+: "img:list:status:".toList).trans
      (List.prefix_append _ _)

theorem metaKey_begins (userId id : Int) : "img:meta:".toList <+: (metaKey userId id).toList := by
  rw [metaKey_chars]
  exact List.prefix_append _ _

theorem presignKey_begins (storageKey : String) :
    "img:url:".toList <+: (presignKey storageKey).toList := by
  rw [presignKey_chars]
  exact List.prefix_append _ _

theorem metaKey_notList (userId userId' id : Int) : ¬ isListKey userId' (metaKey userId id) := by
  intro list
  have agree := List.prefix_of_prefix_length_le (metaKey_begins userId id) list.begins (by decide)
  exact (by decide : ¬ "img:meta:".toList <+: "img:list:".toList) agree

theorem presignKey_notList (storageKey : String) (userId : Int) :
    ¬ isListKey userId (presignKey storageKey) := by
  intro list
  have agree := List.prefix_of_prefix_length_le (presignKey_begins storageKey) list.begins (by decide)
  exact (by decide : ¬ "img:url:".toList <+: "img:list:".toList) agree

theorem presignKey_ne_metaKey (storageKey : String) (userId id : Int) :
    presignKey storageKey ≠ metaKey userId id := by
  intro same
  have agree := List.prefix_of_prefix_length_le (presignKey_begins storageKey)
    (same ▸ metaKey_begins userId id) (by decide)
  exact (by decide : ¬ "img:url:".toList <+: "img:meta:".toList) agree

/-! ## Keys of images and of versions -/

/-- The keys of cached images, pages and urls. -/
def isImageKey (key : String) : Prop := "img:".toList <+: key.toList

theorem metaKey_isImageKey (userId id : Int) : isImageKey (metaKey userId id) :=
  (by decide : "img:".toList <+: "img:meta:".toList).trans (metaKey_begins userId id)

theorem presignKey_isImageKey (storageKey : String) : isImageKey (presignKey storageKey) :=
  (by decide : "img:".toList <+: "img:url:".toList).trans (presignKey_begins storageKey)

/-! ## Pages -/

theorem statusToString_colon (status : TaskStatus) : ':' ∉ (statusToString status).toList := by
  cases status <;> decide

/-- A page of a user's images, of all of them or of those with one status. -/
structure Listing where
  userId : Int
  status : Option TaskStatus
  page : Int
  size : Int
  deriving DecidableEq

def Listing.key (listing : Listing) (version : Int) : String :=
  match listing.status with
  | none => listMyKey listing.userId version listing.page listing.size
  | some status => listMyStatusKey listing.userId version status listing.page listing.size

theorem Listing.key_isListKey (listing : Listing) (version : Int) :
    isListKey listing.userId (listing.key version) := by
  obtain ⟨userId, status, page, size⟩ := listing
  cases status with
  | none => exact .inl ⟨version, page, size, rfl⟩
  | some status => exact .inr ⟨version, status, page, size, rfl⟩

theorem Listing.key_isImageKey (listing : Listing) (version : Int) :
    isImageKey (listing.key version) :=
  (by decide : "img:".toList <+: "img:list:".toList).trans (listing.key_isListKey version).begins

theorem Listing.key_injective {listing listing' : Listing} {version version' : Int}
    (same : listing.key version = listing'.key version') : listing = listing' ∧ version = version' := by
  have chars := congrArg String.toList same
  obtain ⟨userId, status, page, size⟩ := listing
  obtain ⟨userId', status', page', size'⟩ := listing'
  cases status with
  | none =>
    cases status' with
    | none =>
      simp only [key, listMyKey_chars] at chars
      obtain ⟨rfl, rest⟩ := Numbered.tagged_injective (by decide) (by decide) chars
      obtain ⟨rfl, rfl, rfl⟩ := pageSuffix_injective rest
      exact ⟨rfl, rfl⟩
    | some status' =>
      -- the tags of the two kinds of pages differ
      simp only [key, listMyKey_chars, listMyStatusKey_chars] at chars
      have agree := Numbered.tags_agree chars (by decide)
      exact ((by decide : ¬ "img:list:my:".toList <+: "img:list:status:".toList) agree).elim
  | some status =>
    cases status' with
    | none =>
      simp only [key, listMyKey_chars, listMyStatusKey_chars] at chars
      have agree := Numbered.tags_agree chars.symm (by decide)
      exact ((by decide : ¬ "img:list:my:".toList <+: "img:list:status:".toList) agree).elim
    | some status' =>
      simp only [key, listMyStatusKey_chars] at chars
      obtain ⟨rfl, rest⟩ := Numbered.tagged_injective (by decide) (by decide) chars
      have named := Numbered.before_separator (statusToString_colon status)
        (statusToString_colon status') rest
      obtain rfl := statusToString_injective (String.toList_injective named)
      obtain ⟨rfl, rfl, rfl⟩ := pageSuffix_injective (List.cons.inj (List.append_cancel_left rest)).2
      exact ⟨rfl, rfl⟩

end ImageCache

/-- No version counter stands where an image, a page or a url may. -/
theorem cacheKey_ne_versionKey {config : Config} {key : String} (image : ImageCache.isImageKey key)
    (ns identifier : String) : cacheKey config key ≠ versionKey config ns identifier := by
  intro same
  have chars := congrArg String.toList same
  simp only [cacheKey, versionKey, String.toList_append, List.append_assoc] at chars
  have agree := List.prefix_of_prefix_length_le image
    (List.append_cancel_left chars ▸ List.prefix_append "ver:".toList _) (by decide)
  exact (by decide : ¬ "img:".toList <+: "ver:".toList) agree

def cacheGet (key : String) : Program (Option CacheValue) :=
  Prog.perform (I := interface) (.cacheGet key)

def cacheSetex (key : String) (value : CacheValue) (ttl : Int) : Program Bool :=
  Prog.perform (I := interface) (.cacheSetex key value ttl)

def cacheDel (key : String) : Program Bool := Prog.perform (I := interface) (.cacheDel key)

def getListVersion (userId : Int) : Program Int :=
  Prog.perform (I := interface) (.getVersion ImageCache.kListVersionNamespace (toString userId))

/-- `invalidateListCacheFor`: one bump retires all pages of the user. -/
def invalidateListCacheFor (userId : Int) : Program (Option Int) :=
  Prog.perform (I := interface) (.bumpVersion ImageCache.kListVersionNamespace (toString userId))

def publishTaskUpdated (image : ImageGeneration) : Program (Except String Unit) :=
  Prog.perform (I := interface) (.publishTaskUpdated image)

def drawRandom : Program Nat := Prog.perform (I := interface) .random

def redisAvailable : Program Bool := Prog.perform (I := interface) .redisAvailable

/-- `TaskEngine::enqueue`; workers started or woken by it are other processes. -/
def enqueueTask (taskId : Int) : Program Unit := do
  if ← redisAvailable then
    let _ ← (Prog.perform (I := interface) (.enqueueTask taskId) : Program (Except String Unit))
    return ()
  else return ()

end Text2Image
