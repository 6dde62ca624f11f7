import Text2Image.Services.Executions

/-! The keys of the cache: no two addresses share one. -/

set_option autoImplicit false

namespace Text2Image

open ImageCache

/-- What is kept in the cache: a task, a page of all tasks or of those with one status, a url, and
the version of a user's pages.
-/
inductive CacheAddress where
  | metadata (userId id : Int)
  | page (listing : Listing) (version : Int)
  | presign (storageKey : String)
  | listVersion (userId : Int)
  deriving DecidableEq

/-- The full key in Redis. -/
def CacheAddress.redisKey (config : Config) : CacheAddress → String
  | .metadata userId id => cacheKey config (metaKey userId id)
  | .page listing version => cacheKey config (listing.key version)
  | .presign storageKey => cacheKey config (presignKey storageKey)
  | .listVersion userId => versionKey config kListVersionNamespace (toString userId)

variable {config : Config}

theorem versionKey_injective {userId userId' : Int}
    (same : versionKey config kListVersionNamespace (toString userId) =
      versionKey config kListVersionNamespace (toString userId')) : userId = userId' := by
  have chars := congrArg String.toList same
  simp only [versionKey, String.toList_append, List.append_assoc] at chars
  exact Numbered.number_injective (by simpa using chars)

theorem metaKey_ne_key (userId id : Int) (listing : Listing) (version : Int) :
    metaKey userId id ≠ listing.key version := by
  intro same
  exact metaKey_notList userId listing.userId id (same ▸ listing.key_isListKey version)

theorem presignKey_ne_key (storageKey : String) (listing : Listing) (version : Int) :
    presignKey storageKey ≠ listing.key version := by
  intro same
  exact presignKey_notList storageKey listing.userId (same ▸ listing.key_isListKey version)

/-- Whatever the prefix, and whatever the key of a stored object is. -/
theorem redisKey_injective (config : Config) : Function.Injective (CacheAddress.redisKey config) := by
  intro first second same
  cases first with
  | metadata userId id =>
    cases second with
    | metadata userId' id' =>
      obtain ⟨rfl, rfl⟩ := metaKey_injective (cacheKey_injective same)
      rfl
    | page listing version =>
      exact (metaKey_ne_key userId id listing version (cacheKey_injective same)).elim
    | presign storageKey =>
      exact (presignKey_ne_metaKey storageKey userId id (cacheKey_injective same).symm).elim
    | listVersion userId' =>
      exact (cacheKey_ne_versionKey (metaKey_isImageKey userId id) _ _ same).elim
  | page listing version =>
    cases second with
    | metadata userId id =>
      exact (metaKey_ne_key userId id listing version (cacheKey_injective same).symm).elim
    | page listing' version' =>
      obtain ⟨rfl, rfl⟩ := Listing.key_injective (cacheKey_injective same)
      rfl
    | presign storageKey =>
      exact (presignKey_ne_key storageKey listing version (cacheKey_injective same).symm).elim
    | listVersion userId =>
      exact (cacheKey_ne_versionKey (listing.key_isImageKey version) _ _ same).elim
  | presign storageKey =>
    cases second with
    | metadata userId id =>
      exact (presignKey_ne_metaKey storageKey userId id (cacheKey_injective same)).elim
    | page listing version =>
      exact (presignKey_ne_key storageKey listing version (cacheKey_injective same)).elim
    | presign storageKey' =>
      rw [presignKey_injective (cacheKey_injective same)]
    | listVersion userId =>
      exact (cacheKey_ne_versionKey (presignKey_isImageKey storageKey) _ _ same).elim
  | listVersion userId =>
    cases second with
    | metadata userId' id =>
      exact (cacheKey_ne_versionKey (metaKey_isImageKey userId' id) _ _ same.symm).elim
    | page listing version =>
      exact (cacheKey_ne_versionKey (listing.key_isImageKey version) _ _ same.symm).elim
    | presign storageKey =>
      exact (cacheKey_ne_versionKey (presignKey_isImageKey storageKey) _ _ same.symm).elim
    | listVersion userId' => rw [versionKey_injective same]

end Text2Image
