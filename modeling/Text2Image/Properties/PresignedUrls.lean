import Text2Image.Services.CacheExpiry
import Text2Image.Services.CacheOrigins
import Text2Image.Services.Presigning

/-! A url in a reply was signed for the storage key of its image: by the request itself, or by
another that left it in the cache in its very next step, where it has not outlived its time.
-/

set_option autoImplicit false

namespace Text2Image

open Concurrency System ImageCache

/-- The backend over a cache whose values die. -/
abbrev expiringBackend (config : Config) (cache : CacheConfig) : System where
  I := interface
  World := ExpiringWorld
  Choice := Choice
  Call := Call
  Reply := Reply
  Env := Env
  perform := performExpiring config cache
  program := Call.program config
  background pid op world := leaseKeeperMay config pid op world.base
  leave pid world := { world with base := world.base.withoutKeepers pid }
  env event world := { world with base := event.apply world.base }

variable {config : Config} {cache : CacheConfig}

/-! ## Urls in the cache -/

/-- The cache keeps this url for the storage key up to this time. -/
structure KeepsUrl (config : Config) (storageKey url : String) (deadline : TimePoint)
    (world : ExpiringWorld) : Prop where
  value : world.base.cache (cacheKey config (presignKey storageKey)) = some (.text url)
  expiry : world.expiry (cacheKey config (presignKey storageKey)) = deadline

/-- The event writes this url to the cache, to live up to this time. -/
def WritesUrl (storageKey url : String) (deadline : TimePoint)
    (event : (expiringBackend config cache).Event) : Prop :=
  ∃ ttl, event.op = .cacheSetex (presignKey storageKey) (.text url) ttl ∧
    deadline = event.before.base.clock + Chrono.seconds ttl

theorem live_cache {world : ExpiringWorld} {key : String} {value : CacheValue}
    (found : world.live.cache key = some value) :
    world.base.cache key = some value ∧ world.base.clock < world.expiry key := by
  simp only [ExpiringWorld.live] at found
  split at found
  · rename_i alive
    exact ⟨found, alive⟩
  · cases found

section Performing

variable {pid : Nat} {op : Op} {choice : Choice} {world : ExpiringWorld} {key : String}

theorem performExpiring_expires {ttl : Int} (applies : choice.applies = true)
    (writes : writing config cache op = some (key, ttl)) :
    (performExpiring config cache pid op choice world).2.expiry key =
      world.base.clock + Chrono.seconds ttl := by
  unfold performExpiring ExpiringWorld.wrote
  rw [if_pos applies, writes]
  simp

/-- Only a write under the same key moves the time at which a value dies. -/
theorem performExpiring_expiry :
    (performExpiring config cache pid op choice world).2.expiry key = world.expiry key ∨
      ∃ ttl, choice.applies = true ∧ writing config cache op = some (key, ttl) := by
  unfold performExpiring ExpiringWorld.wrote
  split
  · exact .inl rfl
  rename_i name ttl written
  split at written
  case isFalse => cases written
  rename_i applies
  by_cases same : key = name
  · subst same
    exact .inr ⟨ttl, applies, written⟩
  · exact .inl (by simp [Function.update_of_ne same])

theorem performExpiring_keepsUrl {storageKey url : String} {deadline : TimePoint}
    (keeps : KeepsUrl config storageKey url deadline (performExpiring config cache pid op choice world).2) :
    KeepsUrl config storageKey url deadline world ∨
      ∃ ttl, op = .cacheSetex (presignKey storageKey) (.text url) ttl ∧
        deadline = world.base.clock + Chrono.seconds ttl := by
  have image := presignKey_isImageKey storageKey
  have value : Cached config (presignKey storageKey) (.text url) (perform config pid op choice world.live).2 := by
    have stored := keeps.value
    unfold performExpiring ExpiringWorld.wrote at stored
    split at stored <;> exact stored
  rcases perform_written image value with before | ⟨ttl, rfl, applies⟩
  · rcases @performExpiring_expiry config cache pid op choice world
      (cacheKey config (presignKey storageKey)) with same | ⟨ttl, applies, writes⟩
    · exact .inl ⟨(live_cache before).1, same.symm.trans keeps.expiry⟩
    · -- the same url is written once more, to live longer
      right
      have moved := @performExpiring_expires config cache pid op choice world _ _ applies writes
      cases op with
      | cacheSetex name value' ttl' =>
        obtain ⟨same, rfl⟩ := Prod.mk.inj (Option.some.inj writes)
        obtain rfl := cacheKey_injective same
        have written : value' = .text url := by
          simpa [Cached, perform, applies, World.withCache] using value
        exact ⟨ttl', by rw [written], keeps.expiry.symm.trans moved⟩
      | bumpVersion ns identifier =>
        have same := (Prod.mk.inj (Option.some.inj writes)).1
        exact (cacheKey_ne_versionKey image ns identifier same.symm).elim
      | _ => cases writes
  · exact .inr ⟨ttl, rfl, keeps.expiry.symm.trans (performExpiring_expires applies rfl)⟩

end Performing

theorem keepsUrl_brought (storageKey url : String) (deadline : TimePoint) :
    BroughtBy (S := expiringBackend config cache) (KeepsUrl config storageKey url deadline)
      (WritesUrl storageKey url deadline) where
  performed event genuine now := by
    have after : event.after = (performExpiring config cache event.pid event.op event.choice event.before).2 :=
      congrArg Prod.snd genuine
    exact performExpiring_keepsUrl (after ▸ now)
  leave pid world now := ⟨now.value, now.expiry⟩
  env event world now := by
    refine ⟨?_, now.expiry⟩
    have value : (event.apply world.base).cache (cacheKey config (presignKey storageKey)) = some (.text url) :=
      now.value
    rcases (World.settles_env world.base event).cache (cacheKey config (presignKey storageKey)) with gone | kept
    · rw [gone] at value
      cases value
    · exact kept ▸ value

/-! ## Who writes them -/

/-- What the process did last was to have this url signed for the storage key. -/
def JustSigned (pid : Nat) (storageKey url : String) (log : List (expiringBackend config cache).Entry) : Prop :=
  ∃ past, System.history pid log = (⟨.presignGetUrl storageKey, .ok url⟩ : Taken interface) :: past

/-- A url is written for as long as is configured, by the process that has just had it signed. -/
theorem written_just_signed {world : ExpiringWorld} {labels : List (expiringBackend config cache).Label}
    {newer older : List (expiringBackend config cache).Entry} {event : (expiringBackend config cache).Event}
    {storageKey url : String} {ttl : Int}
    (split : (System.run (initial world) labels).view.log = newer ++ .performed event :: older)
    (writes : event.op = .cacheSetex (presignKey storageKey) (.text url) ttl) :
    ttl = config.presign_ttl ∧ JustSigned event.pid storageKey url older := by
  have program : event.helper = false := by
    cases helper : event.helper with
    | false => rfl
    | true =>
      -- lease keepers write nothing to the cache
      have may := allHelped_run world labels event (by rw [split]; simp) helper
      rw [writes] at may
      cases may
  obtain ⟨_, asks⟩ := allAsked_run world labels newer event older split program
  have allowed := asks.allowed (signs_call config event.call)
  rw [writes] at allowed
  obtain ⟨signed, past, same, configured, last⟩ := allowed storageKey rfl
  cases same
  exact ⟨configured, past, last⟩

/-! ## Where a url is from -/

/-- The url was signed by the process for this storage key, or was found by it in the cache before
the time was over that another process gave it, which had it signed in the step before. -/
inductive SignedUrl (pid : Nat) (storageKey url : String) (log : List (expiringBackend config cache).Entry) :
    Prop where
  | own {signed : (expiringBackend config cache).Event} (done : .performed signed ∈ log) (by' : signed.pid = pid)
      (signs : (⟨signed.op, signed.answer⟩ : Taken interface) = ⟨.presignGetUrl storageKey, .ok url⟩)
  | shared {newest newer older : List (expiringBackend config cache).Entry}
      {found written : (expiringBackend config cache).Event}
      (split : log = newest ++ .performed found :: newer ++ .performed written :: older) (by' : found.pid = pid)
      (finds : (⟨found.op, found.answer⟩ : Taken interface) =
        ⟨.cacheGet (presignKey storageKey), some (.text url)⟩)
      (writes : written.op = .cacheSetex (presignKey storageKey) (.text url) config.presign_ttl)
      (signed : JustSigned written.pid storageKey url older)
      (fresh : found.before.base.clock < written.before.base.clock + Chrono.seconds config.presign_ttl)

theorem signedUrl_found {world : ExpiringWorld} {labels : List (expiringBackend config cache).Label}
    (clean : ∀ storageKey, world.base.cache (cacheKey config (presignKey storageKey)) = none)
    {newer log newest older : List (expiringBackend config cache).Entry}
    {found : (expiringBackend config cache).Event} {storageKey url : String}
    (split : (System.run (initial world) labels).view.log = newer ++ log)
    (place : log = newest ++ .performed found :: older)
    (finds : (⟨found.op, found.answer⟩ : Taken interface) =
      ⟨.cacheGet (presignKey storageKey), some (.text url)⟩) :
    SignedUrl found.pid storageKey url log := by
  have placed : (System.run (initial world) labels).view.log = (newer ++ newest) ++ .performed found :: older := by
    rw [split, place, List.append_assoc]
  have genuine := allGenuine_run world labels found (by rw [placed]; simp)
  have seen : found.before.live.cache (cacheKey config (presignKey storageKey)) = some (.text url) := by
    obtain ⟨pid, call, helper, op, choice, given, before, after⟩ := found
    cases finds
    have answer : (if choice.succeeds then before.live.cache (cacheKey config (presignKey storageKey)) else none) =
        some (.text url) := (congrArg Prod.fst genuine).symm
    split at answer
    · exact answer
    · cases answer
  obtain ⟨stored, fresh⟩ := live_cache seen
  have traced := ((keepsUrl_brought storageKey url
    (found.before.expiry (cacheKey config (presignKey storageKey)))).run world labels).before
      (newer ++ newest) found older placed
  rcases traced ⟨stored, rfl⟩ with ⟨start, _⟩ | ⟨between, written, first, rfl, ⟨ttl, writes, deadline⟩, _⟩
  · exact absurd ((clean storageKey).symm.trans start.value) (by simp)
  · have before : (System.run (initial world) labels).view.log =
        (newer ++ newest ++ .performed found :: between) ++ .performed written :: first := by
      rw [placed]
      simp only [List.append_assoc, List.cons_append]
    obtain ⟨rfl, signed⟩ := written_just_signed before writes
    rw [deadline] at fresh
    have apart : log = newest ++ .performed found :: between ++ .performed written :: first := by
      rw [place, List.append_assoc, List.cons_append]
    exact .shared apart rfl finds writes signed fresh

/-- Every url a reply shows was signed for the storage key of its image, and is no older than its
time in the cache; where signing has failed, the image keeps the url it has. -/
theorem urls_signed (world : ExpiringWorld) (labels : List (expiringBackend config cache).Label)
    (clean : ∀ storageKey, world.base.cache (cacheKey config (presignKey storageKey)) = none)
    {newer older : List (expiringBackend config cache).Entry} {pid : Nat} {reply : Reply} {call : Call}
    (split : (System.run (initial world) labels).view.log = newer ++ .returned pid reply :: older)
    (alive : live pid older = some call) :
    ∀ image ∈ reply.linked call, image.storage_key = "" ∨ SignedUrl pid image.storage_key image.image_url older ∨
      ∃ what, (⟨.presignGetUrl image.storage_key, .error what⟩ : Taken interface) ∈ System.history pid older := by
  obtain ⟨served, alive', linked⟩ := (tracks_run world labels).promised (signs_call config) split
  obtain rfl := Option.some.inj (alive'.symm.trans alive)
  intro image member
  cases linked image member with
  | unstored empty => exact .inl empty
  | refused asked => exact .inr (.inr ⟨_, asked⟩)
  | signed asked =>
    obtain ⟨event, done, by', _, signs⟩ := System.mem_history asked
    exact .inr (.inl (.own done by' signs))
  | cached found =>
    obtain ⟨event, done, rfl, _, finds⟩ := System.mem_history found
    obtain ⟨newest, oldest, place⟩ := List.append_of_mem done
    have whole : (System.run (initial world) labels).view.log = (newer ++ [.returned event.pid reply]) ++ older := by
      rw [split, List.append_assoc, List.singleton_append]
    exact .inr (.inl (signedUrl_found clean whole place finds))

/-! ## Two requests for one image -/

def signedRow : Row :=
  { ImageRepo.insertValues { user_id := 1, status := .Success } 0 with id := 1, storage_key := "images/1/a.png" }

def signedWorld : ExpiringWorld where
  base := { World.empty with db := Keyed.Table.empty.insert (fun id => { signedRow with id := id }) rfl }
  expiry _ := 0
  writtenAt _ := 0
  writes := 0

def minuteConfig : Config := { defaultConfig with presign_ttl := 60 }

/-- The second request comes half a minute later, and finds the url of the first. -/
def twoRequests : List (expiringBackend minuteConfig {}).Label :=
  [.start (.getById 1 1 true), .act 0 {}, .act 0 {}, .act 0 {}, .act 0 {}, .act 0 { url := "http://storage/a" },
    .act 0 {}, .env (.setClock (Chrono.seconds 30)), .start (.getById 1 1 true), .act 1 refused, .act 1 {},
    .act 1 {}, .act 1 {}]

def sharedImage : ImageGeneration :=
  { ImageRepo.rowToImageGeneration signedRow with image_url := "http://storage/a" }

/-- The log of the two requests, before the second replies. -/
def twoRequestsLog : List (expiringBackend minuteConfig {}).Entry :=
  (System.run (initial signedWorld) twoRequests).view.log.tail

theorem urls_signed_shared : sharedImage.storage_key = "" ∨
    SignedUrl 1 sharedImage.storage_key sharedImage.image_url twoRequestsLog ∨
      ∃ what, (⟨.presignGetUrl sharedImage.storage_key, .error what⟩ : Taken interface) ∈
        System.history 1 twoRequestsLog := by
  have split : (System.run (initial signedWorld) twoRequests).view.log =
      [] ++ .returned 1 (.image (.ok sharedImage)) :: twoRequestsLog := rfl
  exact urls_signed signedWorld twoRequests (fun _ => rfl) split rfl sharedImage (List.mem_singleton_self _)

end Text2Image
