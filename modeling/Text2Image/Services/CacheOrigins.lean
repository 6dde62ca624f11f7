import Text2Image.Concurrency.Observation
import Text2Image.Services.CacheSources
import Text2Image.Services.Executions

/-! Where the entries of the cache come from in a run. -/

set_option autoImplicit false

namespace Text2Image

open Concurrency System ImageCache

variable {config : Config}

/-! ## Entries -/

/-- The cache has this value for the name. -/
def Cached (config : Config) (name : String) (value : CacheValue) (world : World) : Prop :=
  world.cache (cacheKey config name) = some value

/-- The event writes this value for the name. -/
def Writes (name : String) (value : CacheValue) (event : (backend config).Event) : Prop :=
  ∃ ttl, event.op = .cacheSetex name value ttl ∧ event.choice.applies = true

/-- Only a write makes the cache have an image, a page or a url. -/
theorem perform_written {pid : Nat} {op : Op} {choice : Choice} {world : World} {name : String}
    {value : CacheValue} (image : isImageKey name)
    (now : Cached config name value (perform config pid op choice world).2) :
    Cached config name value world ∨
      ∃ ttl, op = .cacheSetex name value ttl ∧ choice.applies = true := by
  have change := perform_cache config pid op choice world (cacheKey config name)
  have stands : (perform config pid op choice world).2.cache (cacheKey config name) = some value := now
  generalize (perform config pid op choice world).2.cache (cacheKey config name) = after
    at stands change
  cases change with
  | kept => exact .inl stands
  | dropped => cases stands
  | bumped bumps same => exact (cacheKey_ne_versionKey image _ _ same).elim
  | @written name' value' ttl writes same =>
    obtain rfl := cacheKey_injective same
    obtain rfl := Option.some.inj stands
    cases applies : choice.applies with
    | true => exact .inr ⟨ttl, writes, rfl⟩
    | false =>
      -- a write that is refused leaves the world as it was
      subst writes
      exact .inl (by simpa [perform, applies] using now)

theorem Cached.of_settles {name : String} {value : CacheValue} {world after : World}
    (settles : world.Settles after) (now : Cached config name value after) :
    Cached config name value world := by
  rcases settles.cache (cacheKey config name) with gone | kept
  · exact absurd (now.symm.trans gone) (by simp)
  · exact kept.symm.trans now

theorem cached_brought {name : String} (value : CacheValue) (image : isImageKey name) :
    BroughtBy (S := backend config) (Cached config name value) (Writes name value) where
  performed event genuine now := by
    have after : event.after = (perform config event.pid event.op event.choice event.before).2 :=
      congrArg Prod.snd genuine
    exact perform_written image (after ▸ now)
  leave pid world now := now.of_settles (World.settles_withoutKeepers world pid)
  env event world now := now.of_settles (World.settles_env world event)

/-! ## Writers -/

def Op.renews : Op → Bool
  | .renewRedisLease .. | .sql (.renewLease ..) => true
  | _ => false

/-- Helper threads renew leases, and do nothing else. -/
def HelpersRenew (log : List (backend config).Entry) : Prop :=
  ∀ event, .performed event ∈ log → event.helper = true → event.op.renews = true

theorem HelpersRenew.cons {log : List (backend config).Entry} (renew : HelpersRenew log)
    {entry : (backend config).Entry} (newest : ∀ event, entry = .performed event →
      event.helper = true → event.op.renews = true) : HelpersRenew (entry :: log) := by
  intro event member
  rcases List.mem_cons.mp member with same | old
  · exact newest event same.symm
  · exact renew event old

theorem helpersRenew_kept : Kept config .free fun view => HelpersRenew view.log where
  acts view pid call helper op choice _ _ renew _ may _ := by
    refine renew.cons fun event same program => ?_
    cases same
    obtain rfl : helper = true := program
    rcases leaseKeeperMay_iff.mp may with ⟨_, _, _, rfl⟩ | ⟨_, _, _, rfl⟩
    · rfl
    · rfl
  started view pid call renew _ _ := renew.cons fun event same => by cases same
  quiet view entry after renew _ _ unperformed :=
    renew.cons fun event same => (unperformed event same).elim
  passes view after renew _ := renew

theorem helpersRenew_run (world : World) (labels : List (backend config).Label) :
    HelpersRenew (System.run (boot config world) labels).view.log := by
  refine helpersRenew_kept.run ?_ labels (meets_free _ _)
  intro event member
  cases member

/-- What a call writes has its source in what it was answered before. -/
theorem written_source {world : World} {labels : List (backend config).Label}
    {newer older : List (backend config).Entry} {event : (backend config).Event} {name : String}
    {value : CacheValue}
    (split : (System.run (boot config world) labels).view.log = newer ++ .performed event :: older)
    (writes : Writes name value event) :
    live event.pid older = some event.call ∧
      CacheSource (history event.pid older) event.call name value := by
  obtain ⟨ttl, op, _⟩ := writes
  have program : event.helper = false := by
    cases helper : event.helper with
    | false => rfl
    | true =>
      have renews := helpersRenew_run world labels event (by rw [split]; simp) helper
      rw [op] at renews
      cases renews
  obtain ⟨alive, asks⟩ := allAsked_run _ labels newer event older split program
  refine ⟨alive, ?_⟩
  have allowed := asks.allowed (answers_call config event.call)
  rw [op] at allowed
  exact allowed

/-- An answered read in a process's history is an event, with what it has seen. -/
theorem answered_split {log : List (backend config).Entry} {pid : Nat} {newest past : Past}
    {s : Stmt} {answer : s.Answer} (genuine : AllGenuine log)
    (split : history pid log = newest ++ (⟨.sql s, .ok answer⟩ : Taken interface) :: past) :
    ∃ newer event older, log = newer ++ .performed event :: older ∧
      history pid newer = newest ∧ history pid older = past ∧
      statementOf (.performed event) = some (event.before.db, s) ∧
      answer = s.answer event.before.db event.choice.pick := by
  obtain ⟨newer, event, older, rfl, _, _, same, newest, first⟩ := history_parts split
  obtain ⟨found, answered⟩ := got_genuine (genuine event (by simp)) same
  exact ⟨newer, event, older, rfl, newest, first, found, answered⟩

/-- A value that was found in the cache was there from the start, or was written by
an event and has stood there since. -/
theorem cached_origin {world : World} {labels : List (backend config).Label}
    {newer older : List (backend config).Entry} {event : (backend config).Event} {name : String}
    {value : CacheValue}
    (split : (System.run (boot config world) labels).view.log = newer ++ .performed event :: older)
    (image : isImageKey name)
    (found : (⟨event.op, event.answer⟩ : Taken interface) = ⟨.cacheGet name, some value⟩) :
    (Cached config name value world ∧ Lasts (Cached config name value) older) ∨
      ∃ between writer first, older = between ++ .performed writer :: first ∧
        Writes name value writer ∧ Lasts (Cached config name value) between := by
  have genuine := (follows_run world labels).genuine event (by rw [split]; simp)
  have stood : Cached config name value event.before := by
    obtain ⟨pid, call, helper, op, choice, given, before, after⟩ := event
    cases found
    have answer : (if choice.succeeds then before.cache (cacheKey config name) else none) =
        some value := (congrArg Prod.fst genuine).symm
    split at answer
    · exact answer
    · cases answer
  exact (((cached_brought value image).run _ labels).before newer event older split) stood

end Text2Image
