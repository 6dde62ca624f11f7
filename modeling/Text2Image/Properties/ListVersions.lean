import Text2Image.Properties.CacheKeyspace
import Text2Image.Services.CacheExpiry
import Text2Image.Services.CacheSources

/-! Pages that a bump has retired. The version counter dies with its key and starts again,
so a page may be alive under a number that is handed out once more.
-/

set_option autoImplicit false

namespace Text2Image.ListVersions

open Concurrency Concurrency.Prog ImageCache ImageService

/-! ## Timelines -/

/-- Time passes and others are at work; the cache is left alone. -/
structure Waits (elapsed : Nat) (world met : ExpiringWorld) : Prop where
  clock : met.base.clock = world.base.clock + elapsed
  cache : met.base.cache = world.base.cache
  expiry : met.expiry = world.expiry
  writtenAt : met.writtenAt = world.writtenAt
  writes : met.writes = world.writes

/-- Calls take no time; what the database answers is open. -/
def atOnce (config : Config) (cache : CacheConfig) (pid : Nat) : Setting interface ExpiringWorld Choice where
  perform := performExpiring config cache pid
  drift := Waits 0

abbrev ExpiringTrace := List (Op × Choice × ExpiringWorld)

/-- Redis is there if it is in use. -/
def Served (cache : CacheConfig) (moment : Op × Choice × ExpiringWorld) : Prop :=
  match moment.1 with
  | .cacheGet _ | .cacheSetex .. | .cacheDel _ | .bumpVersion .. | .getVersion .. =>
    moment.2.1.outcome = if cache.enabled then .done else .failed
  | _ => True

inductive Happening where
  | read (call : Call)
  | bump
  | pass (elapsed : Nat)

/-- One thing that happens: a list read of the user, a bump of his list version, or time. -/
inductive Happens (config : Config) (cache : CacheConfig) (userId : Int) (world : ExpiringWorld) :
    Happening → ExpiringTrace → ExpiringWorld → Prop where
  | read {call : Call} {listing : Listing} {pid : Nat} {trace : ExpiringTrace} {reply : Reply}
      {after : ExpiringWorld} (lists : call.listing = some listing) (own : listing.userId = userId)
      (ran : Executes (atOnce config cache pid) (call.program config) world trace reply after)
      (served : ∀ moment ∈ trace, Served cache moment) : Happens config cache userId world (.read call) trace after
  | bump {pid : Nat} {trace : ExpiringTrace} {version : Option Int} {after : ExpiringWorld}
      (ran : Executes (atOnce config cache pid) (invalidateListCacheFor userId) world trace version after)
      (served : ∀ moment ∈ trace, Served cache moment) : Happens config cache userId world .bump trace after
  | pass {elapsed : Nat} {after : ExpiringWorld} (waits : Waits elapsed world after) :
      Happens config cache userId world (.pass elapsed) [] after

/-- What happened, newest first, each with the world it met. -/
inductive Timeline (config : Config) (cache : CacheConfig) (userId : Int) (first : ExpiringWorld) :
    List (Happening × ExpiringWorld) → ExpiringWorld → Prop where
  | start : Timeline config cache userId first [] first
  | next {past : List (Happening × ExpiringWorld)} {world after : ExpiringWorld} {happening : Happening}
      {trace : ExpiringTrace} (before : Timeline config cache userId first past world)
      (happens : Happens config cache userId world happening trace after) :
      Timeline config cache userId first ((happening, world) :: past) after

/-- Nothing has been cached yet. -/
def nothingCached (base : World) : ExpiringWorld where
  base := { base with cache := fun _ => none }
  expiry _ := 0
  writtenAt _ := 0
  writes := 0

section

variable (config : Config) (userId : Int)

/-- The full key of the user's list version. -/
abbrev listVersionOf : String := versionKey config kListVersionNamespace (toString userId)

def listVersion (world : ExpiringWorld) : Int := world.live.version (listVersionOf config userId)

/-- The full key of a page. -/
abbrev pageKey (listing : Listing) (version : Int) : String := cacheKey config (listing.key version)

/-- A list entry that is found was written after the user's last bump. -/
def FindsCurrent (moment : Op × Choice × ExpiringWorld) : Prop :=
  ∀ listing version, listing.userId = userId → moment.1 = .cacheGet (listing.key version) →
    moment.2.1.succeeds = true → moment.2.2.find (pageKey config listing version) ≠ none →
      moment.2.2.writtenAt (listVersionOf config userId) < moment.2.2.writtenAt (pageKey config listing version)

/-- Whatever the user lists now. -/
def ReadsCurrent (cache : CacheConfig) (world : ExpiringWorld) : Prop :=
  ∀ call trace after, Happens config cache userId world (.read call) trace after →
    ∀ moment ∈ trace, FindsCurrent config userId moment

/-- A bump finds no page alive under the number it yields; when the version key dies, no page is
left alive under version 0. -/
def Meets (step : Happening × ExpiringWorld) : Prop :=
  match step.1 with
  | .read _ => True
  | .bump => ∀ listing, listing.userId = userId →
      step.2.find (pageKey config listing (listVersion config userId step.2 + 1)) = none
  | .pass elapsed => step.2.find (listVersionOf config userId) ≠ none →
      step.2.base.clock + elapsed ≥ step.2.expiry (listVersionOf config userId) →
      ∀ listing, listing.userId = userId → step.2.find (pageKey config listing 0) ≠ none →
        step.2.base.clock + elapsed ≥ step.2.expiry (pageKey config listing 0)

end

variable {config : Config} {cache : CacheConfig} {userId : Int} {world after : ExpiringWorld}

/-! ## A list read -/

/-- The operations of a list read once its version is known. -/
def OnPage (key : String) : Op → Prop
  | .cacheGet name | .cacheDel name | .cacheSetex name _ _ => name = key ∨ ∃ storageKey, name = presignKey storageKey
  | .bumpVersion .. => False
  | _ => True

theorem onPage_versionQuery (listing : Listing) (key : String) : OnPage key listing.versionQuery := trivial

theorem onPage_presignWithCache (key storageKey : String) :
    (presignWithCache config storageKey).Only (OnPage key) := by
  have signs : ∀ {α : Type} (next : Except String String → Program α), (∀ url, (next url).Only (OnPage key)) →
      (ImageStorage.presignUrl storageKey >>= next).Only (OnPage key) :=
    fun next rest => ⟨trivial, rest⟩
  unfold presignWithCache
  split
  · trivial
  · split
    · exact ⟨trivial, fun _ => trivial⟩
    · refine ⟨.inr ⟨storageKey, rfl⟩, fun found => ?_⟩
      rcases found with _ | url | json | counter
      case some.text => trivial
      all_goals
        refine signs _ fun signed => ?_
        split
        · trivial
        · split
          · trivial
          · exact ⟨.inr ⟨storageKey, rfl⟩, fun _ => trivial⟩

theorem onPage_presignListImagesInPlace (key : String) (images : List ImageGeneration) :
    (presignListImagesInPlace config images).Only (OnPage key) := by
  induction images with
  | nil => trivial
  | cons image images ih =>
    have signed : (presignStored config image).Only (OnPage key) := by
      unfold presignStored presignInPlace
      split
      · trivial
      · refine (onPage_presignWithCache key image.storage_key).bind fun url => ?_
        split <;> trivial
    exact signed.bind fun _ => ih.bind fun _ => trivial

theorem onPage_findPage (key : String) (userId : Int) (status : Option TaskStatus) (page size : Int) :
    (ImageRepo.findPage userId status page size).Only (OnPage key) := by
  unfold ImageRepo.findPage
  refine ⟨trivial, fun answer => ?_⟩
  simp only [Prog.bind]
  split
  · trivial
  · split
    · refine ⟨trivial, fun counted => ?_⟩
      simp only [Prog.bind]
      split <;> trivial
    · trivial

theorem onPage_listFromDb {key : String} {query : Program (RepoResult ImageRepo.PageResult)}
    (reads : query.Only (OnPage key)) : (listFromDb config key query).Only (OnPage key) := by
  unfold listFromDb
  refine reads.bind fun answer => ?_
  split
  · trivial
  · refine Only.bind ⟨trivial, fun jitter => ⟨.inl rfl, fun _ => trivial⟩⟩ fun _ => ?_
    exact (onPage_presignListImagesInPlace key _).bind fun _ => trivial

theorem onPage_listCached {key : String} {query : Program (RepoResult ImageRepo.PageResult)}
    (reads : query.Only (OnPage key)) : (listCached config key query).Only (OnPage key) := by
  unfold listCached
  refine ⟨.inl rfl, fun found => ?_⟩
  simp only [Prog.bind]
  split
  · exact onPage_listFromDb reads
  · split
    · exact (onPage_presignListImagesInPlace key _).bind fun _ => trivial
    · exact ⟨.inl rfl, fun _ => onPage_listFromDb reads⟩

/-- A list read asks for the version, and then for the page under it. -/
inductive ListProgram (config : Config) (listing : Listing) : Program Reply → Prop where
  | refused {reply : Reply} (nobody : listing.userId ≤ 0) : ListProgram config listing (.done reply)
  | lists {next : Int → Program Reply} (positive : 0 < listing.userId) (normal : listing.Normal)
      (asks : ∀ version, ∃ rest, next version = .call (.cacheGet (listing.key version)) rest)
      (onPage : ∀ version, (next version).Only (OnPage (listing.key version))) :
      ListProgram config listing (.call listing.versionQuery next)

theorem listProgram {call : Call} {listing : Listing} (lists : call.listing = some listing) :
    ListProgram config listing (call.program config) := by
  have normal := Call.listing_normal lists
  have goesOn : ∀ {program : Program (ServiceResult ListResult)} {key : String}, program.Only (OnPage key) →
      (program >>= fun result => (.done (.list result) : Program Reply)).Only (OnPage key) :=
    fun only => only.bind fun _ => trivial
  cases call with
  | listMy userId page size =>
    cases lists
    simp only [Call.program, listMy]
    split
    · rename_i nobody
      exact .refused nobody
    · rename_i positive
      refine .lists (Int.not_le.mp positive) normal (fun version => ⟨_, rfl⟩) fun version => ?_
      exact goesOn (onPage_listCached (onPage_findPage _ _ _ _ _))
  | listMyByStatus userId status page size =>
    cases lists
    simp only [Call.program, listMyByStatus]
    split
    · rename_i nobody
      exact .refused nobody
    · rename_i positive
      refine .lists (Int.not_le.mp positive) normal (fun version => ⟨_, rfl⟩) fun version => ?_
      exact goesOn (onPage_listCached (onPage_findPage _ _ _ _ _))
  | _ => cases lists

/-! ## What is always so -/

/-- What holds of the user's keys in every timeline. -/
structure Kept (config : Config) (cache : CacheConfig) (userId : Int) (world : ExpiringWorld) : Prop where
  ordered : ∀ key, world.writtenAt key ≤ world.writes
  page : ∀ listing version, listing.userId = userId → world.find (pageKey config listing version) ≠ none →
    listing.Normal ∧ 0 < userId ∧ cache.enabled = true
  counted : ∀ value, world.find (listVersionOf config userId) = some value →
    cache.enabled = true ∧ ∃ number : Int, 0 < number ∧ value = .counter number
  /-- A page under version 0 is older than a version key that is alive. -/
  retired : world.find (listVersionOf config userId) ≠ none → ∀ listing, listing.userId = userId →
    world.find (pageKey config listing 0) ≠ none →
      world.writtenAt (pageKey config listing 0) < world.writtenAt (listVersionOf config userId)

/-- The pages alive under the version that is now asked for were written after the last bump. -/
def Fresh (config : Config) (userId : Int) (world : ExpiringWorld) : Prop :=
  ∀ listing, listing.userId = userId →
    world.find (pageKey config listing (listVersion config userId world)) ≠ none →
      world.writtenAt (listVersionOf config userId) <
        world.writtenAt (pageKey config listing (listVersion config userId world))

theorem pageKey_ne_listVersionOf (listing : Listing) (version : Int) :
    pageKey config listing version ≠ listVersionOf config userId :=
  cacheKey_ne_versionKey (listing.key_isImageKey version) _ _

theorem listVersion_of_find {met : ExpiringWorld}
    (same : met.find (listVersionOf config userId) = world.find (listVersionOf config userId)) :
    listVersion config userId met = listVersion config userId world := by
  unfold listVersion World.version
  rw [show met.live.cache (listVersionOf config userId) = world.live.cache (listVersionOf config userId) from same]

theorem listVersion_of_dead (dead : world.find (listVersionOf config userId) = none) :
    listVersion config userId world = 0 := by
  unfold listVersion World.version
  rw [show world.live.cache (listVersionOf config userId) = none from dead]

/-- A live version key holds a positive number. -/
theorem Kept.positive (kept : Kept config cache userId world)
    (alive : world.find (listVersionOf config userId) ≠ none) : 0 < listVersion config userId world := by
  obtain ⟨value, found⟩ := Option.ne_none_iff_exists'.mp alive
  obtain ⟨_, number, positive, rfl⟩ := kept.counted value found
  unfold listVersion World.version
  rw [show world.live.cache (listVersionOf config userId) = some (.counter number) from found]
  exact positive

/-- Nothing but time has gone by, and this much of it. -/
theorem Waits.find {elapsed : Nat} {met : ExpiringWorld} (waits : Waits elapsed world met) (key : String) :
    met.find key = if world.base.clock + elapsed < world.expiry key then world.base.cache key else none := by
  rw [find_eq, waits.clock, waits.expiry, waits.cache]

theorem Waits.alive {elapsed : Nat} {met : ExpiringWorld} {key : String} (waits : Waits elapsed world met)
    (found : met.find key ≠ none) : met.find key = world.find key := by
  rw [waits.find] at found ⊢
  rw [find_eq]
  split at found
  · rename_i later
    have now : world.base.clock < world.expiry key := by
      simp only [TimePoint] at later ⊢
      omega
    rw [if_pos now, if_pos later]
  · exact (found rfl).elim

theorem Waits.same {met : ExpiringWorld} (waits : Waits 0 world met) (key : String) :
    met.find key = world.find key := by
  rw [waits.find, find_eq]
  simp

theorem Kept.waits {elapsed : Nat} {met : ExpiringWorld} (kept : Kept config cache userId world)
    (waits : Waits elapsed world met) : Kept config cache userId met where
  ordered key := by
    rw [waits.writtenAt, waits.writes]
    exact kept.ordered key
  page listing version own found := by
    rw [waits.alive found] at found
    exact kept.page listing version own found
  counted value found := by
    rw [waits.alive (by rw [found]; simp)] at found
    exact kept.counted value found
  retired alive listing own found := by
    rw [waits.writtenAt]
    rw [waits.alive alive] at alive
    rw [waits.alive found] at found
    exact kept.retired alive listing own found

/-! ## While a page is read -/

variable {listing : Listing} {version : Int} {pid : Nat} {op : Op} {choice : Choice}

theorem OnPage.image {name : String} (onPage : name = listing.key version ∨ ∃ storageKey, name = presignKey storageKey) :
    isImageKey name := by
  rcases onPage with rfl | ⟨storageKey, rfl⟩
  · exact listing.key_isImageKey version
  · exact presignKey_isImageKey storageKey

/-- The version key is not touched. -/
theorem listVersionOf_perform (onPage : OnPage (listing.key version) op) :
    (performExpiring config cache pid op choice world).2.find (listVersionOf config userId) =
        world.find (listVersionOf config userId) ∧
      (performExpiring config cache pid op choice world).2.writtenAt (listVersionOf config userId) =
        world.writtenAt (listVersionOf config userId) := by
  apply performExpiring_other
  · rintro name rfl
    exact (cacheKey_ne_versionKey (OnPage.image onPage) _ _).symm
  · intro ttl written
    cases op with
    | cacheSetex name value ttl' =>
      have same := congrArg Prod.fst (Option.some.inj written)
      exact cacheKey_ne_versionKey (OnPage.image onPage) _ _ same
    | bumpVersion => exact onPage.elim
    | _ => cases written

/-- A page that is alive afterwards was alive before, or it is the page that is read. -/
theorem page_perform {listing' : Listing} {version' : Int} (onPage : OnPage (listing.key version) op)
    (found : (performExpiring config cache pid op choice world).2.find (pageKey config listing' version') ≠ none) :
    (world.find (pageKey config listing' version') ≠ none ∧
      (performExpiring config cache pid op choice world).2.writtenAt (pageKey config listing' version') =
        world.writtenAt (pageKey config listing' version')) ∨
    (listing' = listing ∧ version' = version ∧ choice.applies = true ∧ (∃ value ttl, op = .cacheSetex (listing.key version) value ttl) ∧
      (performExpiring config cache pid op choice world).2.writtenAt (pageKey config listing' version') =
        world.writes + 1) := by
  by_cases written : ∃ ttl, writing config cache op = some (pageKey config listing' version', ttl)
  · obtain ⟨ttl, written⟩ := written
    cases applies : choice.applies with
    | false =>
      obtain ⟨same, still⟩ := performExpiring_refused pid world (pageKey config listing' version') applies written
      rw [same] at found
      exact .inl ⟨found, still⟩
    | true =>
      cases op with
      | cacheSetex name value ttl' =>
        have same : name = listing'.key version' := cacheKey_injective (congrArg Prod.fst (Option.some.inj written))
        rcases onPage with page | ⟨storageKey, url⟩
        · obtain ⟨rfl, rfl⟩ := Listing.key_injective (same.symm.trans page)
          exact .inr ⟨rfl, rfl, rfl, ⟨value, ttl', by rw [page]⟩, (performExpiring_written applies written).1⟩
        · exact (presignKey_ne_key storageKey listing' version' (url.symm.trans same)).elim
      | bumpVersion => exact onPage.elim
      | _ => cases written
  · simp only [not_exists] at written
    exact .inl (performExpiring_unwritten written found)

/-- What holds from the moment the version is known. -/
structure Reading (config : Config) (cache : CacheConfig) (listing : Listing) (version : Int)
    (world : ExpiringWorld) : Prop where
  kept : Kept config cache listing.userId world
  fresh : Fresh config listing.userId world
  asked : listVersion config listing.userId world = version

theorem Reading.waits {met : ExpiringWorld} (reading : Reading config cache listing version world)
    (waits : Waits 0 world met) : Reading config cache listing version met where
  kept := reading.kept.waits waits
  fresh listing' own found := by
    rw [listVersion_of_find (waits.same _)] at found ⊢
    rw [waits.same] at found
    rw [waits.writtenAt]
    exact reading.fresh listing' own found
  asked := (listVersion_of_find (waits.same _)).trans reading.asked

theorem ordered_perform (ordered : ∀ key, world.writtenAt key ≤ world.writes) (key : String) :
    (performExpiring config cache pid op choice world).2.writtenAt key ≤
      (performExpiring config cache pid op choice world).2.writes := by
  unfold performExpiring ExpiringWorld.wrote
  split
  · exact ordered key
  · rename_i name ttl written
    by_cases same : key = name
    · simp [same]
    · simp only [Function.update_of_ne same]
      exact Nat.le_succ_of_le (ordered key)

theorem Reading.perform (reading : Reading config cache listing version world) (positive : 0 < listing.userId)
    (normal : listing.Normal) (onPage : OnPage (listing.key version) op) (served : Served cache (op, choice, world)) :
    Reading config cache listing version (performExpiring config cache pid op choice world).2 := by
  obtain ⟨found, stamp⟩ : (performExpiring config cache pid op choice world).2.find
        (listVersionOf config listing.userId) = world.find (listVersionOf config listing.userId) ∧
      (performExpiring config cache pid op choice world).2.writtenAt (listVersionOf config listing.userId) =
        world.writtenAt (listVersionOf config listing.userId) := listVersionOf_perform onPage
  have asked := (listVersion_of_find found).trans reading.asked
  have younger := Nat.lt_succ_of_le (reading.kept.ordered (listVersionOf config listing.userId))
  refine ⟨⟨ordered_perform reading.kept.ordered, ?_, ?_, ?_⟩, ?_, asked⟩
  · intro listing' version' own alive
    rcases page_perform onPage alive with ⟨before, _⟩ | ⟨rfl, rfl, applies, ⟨value, ttl, rfl⟩, _⟩
    · exact reading.kept.page listing' version' own before
    · refine ⟨normal, positive, ?_⟩
      cases enabled : cache.enabled with
      | true => rfl
      | false =>
        simp only [Served, enabled, Bool.false_eq_true, if_false] at served
        simp [Choice.applies, served] at applies
  · intro value counted
    rw [found] at counted
    exact reading.kept.counted value counted
  · intro alive listing' own page
    rw [found] at alive
    rcases page_perform onPage page with ⟨before, same⟩ | ⟨rfl, zero, _⟩
    · rw [same, stamp]
      exact reading.kept.retired alive listing' own before
    · -- a page is not written under version 0 while the version key is alive
      have above := reading.kept.positive alive
      rw [reading.asked] at above
      omega
  · intro listing' own page
    rw [asked] at page ⊢
    rw [stamp]
    rcases page_perform onPage page with ⟨before, same⟩ | ⟨_, _, _, _, newest⟩
    · rw [same]
      have current := reading.fresh listing' own
      rw [reading.asked] at current
      exact current before
    · rw [newest]
      exact younger

theorem reading_executes {program : Program Reply} {reply : Reply} {trace : ExpiringTrace}
    (reading : Reading config cache listing version world) (positive : 0 < listing.userId) (normal : listing.Normal)
    (only : program.Only (OnPage (listing.key version)))
    (ran : Executes (atOnce config cache pid) program world trace reply after)
    (served : ∀ moment ∈ trace, Served cache moment) :
    Reading config cache listing version after ∧
      ∀ moment ∈ trace, OnPage (listing.key version) moment.1 ∧ Reading config cache listing version moment.2.2 := by
  induction ran with
  | done => exact ⟨reading, by simp⟩
  | @call op next choice world met after trace value drift rest ih =>
    obtain ⟨first, later⟩ := List.forall_mem_cons.mp served
    have there := reading.waits drift
    obtain ⟨last, between⟩ := ih (there.perform positive normal only.1 first) (only.2 _) later
    exact ⟨last, List.forall_mem_cons.mpr ⟨⟨only.1, there⟩, between⟩⟩

theorem Reading.findsCurrent {moment : Op × Choice × ExpiringWorld} (onPage : OnPage (listing.key version) moment.1)
    (reading : Reading config cache listing version moment.2.2) : FindsCurrent config listing.userId moment := by
  obtain ⟨op, choice, met⟩ := moment
  rintro listing' version' own rfl _ alive
  rcases onPage with page | ⟨storageKey, url⟩
  · obtain ⟨rfl, rfl⟩ := Listing.key_injective page
    have current := reading.fresh listing' own
    rw [reading.asked] at current
    exact current alive
  · exact (presignKey_ne_key storageKey listing' version' url.symm).elim

/-- The version that a read is answered. -/
theorem answered_versionQuery {met : ExpiringWorld} (kept : Kept config cache listing.userId met)
    (served : Served cache (listing.versionQuery, choice, met)) :
    (performExpiring config cache pid listing.versionQuery choice met).1 =
      listVersion config listing.userId met := by
  have answer : (performExpiring config cache pid listing.versionQuery choice met).1 =
      if choice.succeeds then listVersion config listing.userId met else (0 : Int) := rfl
  rw [answer]
  cases enabled : cache.enabled with
  | true =>
    simp only [Served, enabled, if_true, Listing.versionQuery] at served
    exact if_pos (by simp [Choice.succeeds, served])
  | false =>
    simp only [Served, enabled, Bool.false_eq_true, if_false, Listing.versionQuery] at served
    have dead : met.find (listVersionOf config listing.userId) = none := by
      by_contra alive
      obtain ⟨value, found⟩ := Option.ne_none_iff_exists'.mp alive
      rw [(kept.counted value found).1] at enabled
      cases enabled
    have zero := listVersion_of_dead dead
    exact (if_neg (by simp [Choice.succeeds, served])).trans zero.symm

/-- A list read is refused at once, or it asks for the version and goes on with the page under it. -/
theorem read_executes {call : Call} {trace : ExpiringTrace} (kept : Kept config cache userId world)
    (happens : Happens config cache userId world (.read call) trace after) :
    (after = world ∧ trace = []) ∨
    ∃ (listing : Listing) (pid : Nat) (choice : Choice) (met : ExpiringWorld) (rest : ExpiringTrace)
      (program : Program Reply) (reply : Reply), listing.userId = userId ∧ 0 < listing.userId ∧ listing.Normal ∧
      Waits 0 world met ∧ trace = (listing.versionQuery, choice, met) :: rest ∧
      (∀ moment ∈ trace, Served cache moment) ∧
      program.Only (OnPage (listing.key (listVersion config userId world))) ∧
      Executes (atOnce config cache pid) program
        (performExpiring config cache pid listing.versionQuery choice met).2 rest reply after := by
  cases happens with
  | @read _ listing pid _ reply _ lists own ran served =>
    subst own
    cases shape : call.program config with
    | done reply' =>
      rw [shape] at ran
      obtain ⟨rfl, rfl, rfl⟩ := ran.of_done
      exact .inl ⟨rfl, rfl⟩
    | call op next =>
      have program : ListProgram config listing (call.program config) := listProgram lists
      rw [shape] at program ran
      cases program with
      | @lists next positive normal asks onPage =>
        obtain ⟨choice, met, rest, drift, rfl, goes⟩ := ran.of_call
        have version : (performExpiring config cache pid listing.versionQuery choice met).1 =
            listVersion config listing.userId world :=
          (answered_versionQuery (kept.waits drift) (served _ List.mem_cons_self)).trans
            (listVersion_of_find (drift.same _))
        have asked : Executes (atOnce config cache pid) (next (listVersion config listing.userId world))
            (performExpiring config cache pid listing.versionQuery choice met).2 rest reply after := by
          rw [← version]
          exact goes
        exact .inr ⟨listing, pid, choice, met, rest, _, reply, rfl, positive, normal, drift, rfl, served, onPage _, asked⟩

/-- A read of pages of which those under the current version are current. -/
theorem read_current {call : Call} {trace : ExpiringTrace} (kept : Kept config cache userId world)
    (fresh : Fresh config userId world) (happens : Happens config cache userId world (.read call) trace after) :
    (Kept config cache userId after ∧ Fresh config userId after) ∧ ∀ moment ∈ trace, FindsCurrent config userId moment := by
  rcases read_executes kept happens with ⟨rfl, rfl⟩ |
    ⟨listing, pid, choice, met, rest, program, reply, rfl, positive, normal, drift, rfl, served, onPage, ran⟩
  · exact ⟨⟨kept, fresh⟩, by simp⟩
  · obtain ⟨first, later⟩ := List.forall_mem_cons.mp served
    have there : Reading config cache listing (listVersion config listing.userId world) world := ⟨kept, fresh, rfl⟩
    have known := there.waits drift
    obtain ⟨last, between⟩ := reading_executes
      (known.perform positive normal (onPage_versionQuery listing _) first) positive normal onPage ran later
    refine ⟨⟨last.kept, last.fresh⟩, List.forall_mem_cons.mpr ⟨?_, ?_⟩⟩
    · rintro listing' version' _ asked
      cases asked
    · exact fun moment member => (between moment member).2.findsCurrent (between moment member).1

theorem page_executes {program : Program Reply} {reply : Reply} {trace : ExpiringTrace} {listing' : Listing}
    {version' : Int} (only : program.Only (OnPage (listing.key version)))
    (ran : Executes (atOnce config cache pid) program world trace reply after)
    (found : after.find (pageKey config listing' version') ≠ none) :
    world.find (pageKey config listing' version') ≠ none ∨ version' = version := by
  induction ran with
  | done => exact .inl found
  | @call op next choice world met after trace value drift rest ih =>
    rcases ih (only.2 _) found with before | same
    · rcases page_perform only.1 before with ⟨earlier, _⟩ | ⟨_, same, _⟩
      · exact .inl (drift.same _ ▸ earlier)
      · exact .inr same
    · exact .inr same

/-- A page that is alive after a read was alive before it, or is under the version that was read. -/
theorem page_read {call : Call} {trace : ExpiringTrace} {listing' : Listing} {version' : Int}
    (kept : Kept config cache userId world) (happens : Happens config cache userId world (.read call) trace after)
    (found : after.find (pageKey config listing' version') ≠ none) :
    world.find (pageKey config listing' version') ≠ none ∨ version' = listVersion config userId world := by
  rcases read_executes kept happens with ⟨rfl, rfl⟩ |
    ⟨listing, pid, choice, met, rest, program, reply, rfl, positive, normal, drift, rfl, served, onPage, ran⟩
  · exact .inl found
  · rcases page_executes onPage ran found with before | same
    · rcases page_perform (onPage_versionQuery listing (listing.key (listVersion config listing.userId world)))
        before with ⟨earlier, _⟩ | ⟨_, same, _⟩
      · exact .inl (drift.same _ ▸ earlier)
      · exact .inr same
    · exact .inr same

/-! ## Reading a page that is alive -/

theorem normalizeTaskStatus_statusToString (status : TaskStatus) :
    normalizeTaskStatus (statusToString status) = status := by
  cases status <;> decide

/-- A call that lists these pages. -/
theorem exists_call (normal : listing.Normal) : ∃ call : Call, call.listing = some listing := by
  obtain ⟨userId, status, page, size⟩ := listing
  cases status with
  | none => exact ⟨.listMy userId page size, by simp [Call.listing, normal.page, normal.size]⟩
  | some status =>
    refine ⟨.listMyByStatus userId (statusToString status) page size, ?_⟩
    simp [Call.listing, normal.page, normal.size, normalizeTaskStatus_statusToString]

theorem served_of_succeeds {moment : Op × Choice × ExpiringWorld} (enabled : cache.enabled = true)
    (succeeds : moment.2.1.outcome = .done) : Served cache moment := by
  obtain ⟨op, choice, met⟩ := moment
  cases op <;> first | trivial | simpa [Served, enabled] using succeeds

/-- A page that is alive under the current version can be found. -/
theorem found_page (kept : Kept config cache listing.userId world)
    (alive : world.find (pageKey config listing (listVersion config listing.userId world)) ≠ none)
    (reads : ReadsCurrent config listing.userId cache world) :
    world.writtenAt (listVersionOf config listing.userId) <
      world.writtenAt (pageKey config listing (listVersion config listing.userId world)) := by
  obtain ⟨normal, positive, enabled⟩ := kept.page listing _ rfl alive
  obtain ⟨call, lists⟩ := exists_call normal
  have idle : ∀ world, (atOnce config cache 0).drift world world :=
    fun world => ⟨by simp, rfl, rfl, rfl, rfl⟩
  obtain ⟨trace, reply, after, ran, plain⟩ := exists_executes idle {} (call.program config) world
  have served : ∀ moment ∈ trace, Served cache moment :=
    fun moment member => served_of_succeeds enabled (by rw [plain moment member])
  have current := reads call trace after (.read lists rfl ran served)
  have program : ListProgram config listing (call.program config) := listProgram lists
  cases shape : call.program config with
  | done reply' =>
    rw [shape] at program
    cases program with
    | refused nobody => omega
  | call op next =>
    rw [shape] at program ran
    cases program with
    | @lists next _ _ asks onPage =>
      -- the version is asked for, then the page
      obtain ⟨choice, met, rest, drift, rfl, goes⟩ := ran.of_call
      have known : met.find (listVersionOf config listing.userId) = world.find (listVersionOf config listing.userId) :=
        drift.same _
      have version : (performExpiring config cache 0 listing.versionQuery choice met).1 =
          listVersion config listing.userId world :=
        (answered_versionQuery (kept.waits drift) (served _ List.mem_cons_self)).trans (listVersion_of_find known)
      obtain ⟨after', gets⟩ := asks (listVersion config listing.userId world)
      have seeks : Executes (atOnce config cache 0)
          (.call (.cacheGet (listing.key (listVersion config listing.userId world))) after')
          (performExpiring config cache 0 listing.versionQuery choice met).2 rest reply after := by
        rw [← gets, ← version]
        exact goes
      obtain ⟨choice', met', rest', drift', rfl, _⟩ := seeks.of_call
      have member : (.cacheGet (listing.key (listVersion config listing.userId world)), choice', met') ∈
          (listing.versionQuery, choice, met) ::
            (.cacheGet (listing.key (listVersion config listing.userId world)), choice', met') :: rest' := by
        simp
      have untouched : ∀ key, met'.find key = world.find key ∧ met'.writtenAt key = world.writtenAt key := by
        intro key
        have other : (performExpiring config cache 0 listing.versionQuery choice met).2.find key = met.find key ∧
            (performExpiring config cache 0 listing.versionQuery choice met).2.writtenAt key = met.writtenAt key :=
          performExpiring_other (by rintro name ⟨⟩) (by rintro ttl ⟨⟩)
        refine ⟨(drift'.same key).trans (other.1.trans (drift.same key)), ?_⟩
        rw [drift'.writtenAt, other.2, drift.writtenAt]
      have succeeds : choice'.succeeds = true := by
        have plainly : choice' = {} := plain _ member
        rw [plainly]
        rfl
      have there : met'.find (pageKey config listing (listVersion config listing.userId world)) ≠ none := by
        rwa [(untouched _).1]
      have finds := current _ member listing _ rfl rfl succeeds there
      rwa [(untouched _).2, (untouched _).2] at finds

/-! ## Bumps and time -/

theorem nothing_kept (base : World) : Kept config cache userId (nothingCached base) where
  ordered _ := Nat.le_refl _
  page _ _ _ found := (found (by simp [find_eq, nothingCached])).elim
  counted _ found := by simp [find_eq, nothingCached] at found
  retired alive := (alive (by simp [find_eq, nothingCached])).elim

theorem nothing_fresh (base : World) : Fresh config userId (nothingCached base) :=
  fun _ _ found => (found (by simp [find_eq, nothingCached])).elim

/-- What a bump leaves: the next number under a version key that is the newest of all. -/
structure Bumped (config : Config) (cache : CacheConfig) (userId : Int) (world after : ExpiringWorld) : Prop where
  enabled : cache.enabled = true
  version : after.find (listVersionOf config userId) = some (.counter (listVersion config userId world + 1))
  newest : after.writtenAt (listVersionOf config userId) = world.writes + 1
  writes : after.writes = world.writes + 1
  others : ∀ key, key ≠ listVersionOf config userId → after.find key = world.find key ∧
    after.writtenAt key = world.writtenAt key

theorem Bumped.raised (bumped : Bumped config cache userId world after) :
    listVersion config userId after = listVersion config userId world + 1 := by
  have there : after.live.cache (listVersionOf config userId) = _ := bumped.version
  conv_lhs => unfold listVersion World.version
  rw [there]

/-- A bump succeeds, unless the cache is not in use. -/
theorem bumped_of_happens {trace : ExpiringTrace} (lives : 1 ≤ cache.version_key_ttl)
    (happens : Happens config cache userId world .bump trace after) :
    Bumped config cache userId world after ∨ (cache.enabled = false ∧ after.writes = world.writes ∧
      ∀ key, after.find key = world.find key ∧ after.writtenAt key = world.writtenAt key) := by
  cases happens with
  | bump ran served =>
    obtain ⟨choice, met, drift, rfl, _, rfl⟩ := ran.of_perform
    have outcome : choice.outcome = if cache.enabled then .done else .failed := served _ List.mem_cons_self
    cases enabled : cache.enabled with
    | true =>
      rw [enabled, if_pos rfl] at outcome
      have applies : choice.applies = true := by simp [Choice.applies, outcome]
      obtain ⟨newest, writes⟩ : (performExpiring config cache _ (.bumpVersion kListVersionNamespace (toString userId))
            choice met).2.writtenAt (listVersionOf config userId) = met.writes + 1 ∧
          (performExpiring config cache _ (.bumpVersion kListVersionNamespace (toString userId)) choice met).2.writes =
            met.writes + 1 := performExpiring_written applies rfl
      rw [drift.writes] at newest writes
      refine .inl ⟨enabled, ?_, newest, writes, fun key other => ?_⟩
      · have raised := listVersion_of_find (drift.same (listVersionOf config userId))
        rw [← raised]
        exact performExpiring_bump applies lives
      · rw [← drift.same key, ← drift.writtenAt]
        apply performExpiring_other
        · rintro name ⟨⟩
        · rintro ttl written
          exact other (congrArg Prod.fst (Option.some.inj written)).symm
    | false =>
      rw [enabled] at outcome
      have refused : choice.applies = false := by simp [Choice.applies, outcome]
      refine .inr ⟨rfl, ?_, fun key => ?_⟩
      · rw [← drift.writes]
        simp [atOnce, performExpiring, refused, ExpiringWorld.wrote]
      · rw [← drift.same key, ← drift.writtenAt]
        exact performExpiring_refused _ met key refused rfl

theorem Bumped.kept (bumped : Bumped config cache userId world after) (kept : Kept config cache userId world) :
    Kept config cache userId after where
  ordered key := by
    rw [bumped.writes]
    by_cases same : key = listVersionOf config userId
    · rw [same, bumped.newest]
    · rw [(bumped.others key same).2]
      exact Nat.le_succ_of_le (kept.ordered key)
  page listing version own found := by
    rw [(bumped.others _ (pageKey_ne_listVersionOf listing version)).1] at found
    exact kept.page listing version own found
  counted value found := by
    rw [bumped.version] at found
    refine ⟨bumped.enabled, _, ?_, (Option.some.inj found).symm⟩
    by_cases alive : world.find (listVersionOf config userId) = none
    · have zero := listVersion_of_dead alive
      omega
    · have positive := kept.positive alive
      omega
  retired _ listing own _ := by
    rw [bumped.newest, (bumped.others _ (pageKey_ne_listVersionOf listing 0)).2]
    exact Nat.lt_succ_of_le (kept.ordered _)

/-- After a bump all pages are old; the number it yields must have none alive. -/
theorem Bumped.fresh_iff (bumped : Bumped config cache userId world after) (kept : Kept config cache userId world) :
    Fresh config userId after ↔ Meets config userId (.bump, world) := by
  have number := bumped.raised
  constructor
  · intro fresh listing own
    by_contra alive
    have page := bumped.others _ (pageKey_ne_listVersionOf listing (listVersion config userId world + 1))
    have current := fresh listing own
    rw [number, page.1, page.2, bumped.newest] at current
    have older := kept.ordered (pageKey config listing (listVersion config userId world + 1))
    have newer := current alive
    omega
  · intro meets listing own alive
    rw [number, (bumped.others _ (pageKey_ne_listVersionOf listing _)).1] at alive
    exact (alive (meets listing own)).elim

theorem Waits.dead_iff {elapsed : Nat} {key : String} (waits : Waits elapsed world after)
    (alive : world.find key ≠ none) :
    after.find key = none ↔ world.base.clock + elapsed ≥ world.expiry key := by
  have value : world.base.cache key ≠ none := by
    intro absent
    rw [find_eq, absent, ite_self] at alive
    exact alive rfl
  rw [waits.find]
  split
  · rename_i later
    exact ⟨fun absent => (value absent).elim, fun passed => (Int.not_le.mpr later passed).elim⟩
  · rename_i passed
    exact ⟨fun _ => Int.not_lt.mp passed, fun _ => rfl⟩

/-- Time brings old pages back only by letting the version key die. -/
theorem Waits.fresh_iff {elapsed : Nat} (waits : Waits elapsed world after) (kept : Kept config cache userId world)
    (fresh : Fresh config userId world) :
    Fresh config userId after ↔ Meets config userId (.pass elapsed, world) := by
  by_cases alive : world.find (listVersionOf config userId) = none
  · -- the version key was dead already
    have dead : after.find (listVersionOf config userId) = none := by
      by_contra found
      exact found ((waits.alive found).trans alive)
    refine ⟨fun _ was => (was alive).elim, fun _ listing own page => ?_⟩
    rw [listVersion_of_dead dead] at page ⊢
    rw [waits.alive page] at page
    have current := fresh listing own
    rw [listVersion_of_dead alive] at current
    rw [waits.writtenAt]
    exact current page
  · by_cases dead : after.find (listVersionOf config userId) = none
    · have expires := (waits.dead_iff alive).mp dead
      constructor
      · intro still _ _ listing own page
        by_contra lives
        have found : after.find (pageKey config listing 0) ≠ none := fun absent =>
          lives ((waits.dead_iff page).mp absent)
        have current := still listing own
        rw [listVersion_of_dead dead, waits.writtenAt] at current
        have older := kept.retired alive listing own page
        have newer := current found
        omega
      · intro meets listing own page
        rw [listVersion_of_dead dead] at page
        have before : world.find (pageKey config listing 0) ≠ none := by rwa [waits.alive page] at page
        exact (page ((waits.dead_iff before).mpr (meets alive expires listing own before))).elim
    · -- it is alive still, and so is its number
      have same := waits.alive dead
      refine ⟨fun _ _ expires => (dead ((waits.dead_iff alive).mpr expires)).elim, fun _ listing own page => ?_⟩
      rw [listVersion_of_find same] at page ⊢
      rw [waits.alive page] at page
      rw [waits.writtenAt]
      exact fresh listing own page

/-! ## Whole timelines -/

theorem Fresh.readsCurrent (kept : Kept config cache userId world) (fresh : Fresh config userId world) :
    ReadsCurrent config userId cache world :=
  fun _ _ _ happens => (read_current kept fresh happens).2

theorem fresh_of_readsCurrent (kept : Kept config cache userId world)
    (reads : ReadsCurrent config userId cache world) : Fresh config userId world := by
  rintro listing rfl alive
  exact found_page kept alive reads

/-- One thing happens in a world whose current pages are current. -/
theorem Happens.fresh_iff {happening : Happening} {trace : ExpiringTrace} (lives : 1 ≤ cache.version_key_ttl)
    (happens : Happens config cache userId world happening trace after) (kept : Kept config cache userId world)
    (fresh : Fresh config userId world) :
    Kept config cache userId after ∧ (Fresh config userId after ↔ Meets config userId (happening, world)) := by
  cases happening with
  | read call =>
    have current := read_current kept fresh happens
    exact ⟨current.1.1, fun _ => trivial, fun _ => current.1.2⟩
  | bump =>
    rcases bumped_of_happens lives happens with bumped | ⟨disabled, writes, same⟩
    · exact ⟨bumped.kept kept, bumped.fresh_iff kept⟩
    · -- without a cache nothing is ever found
      have none : ∀ listing version, listing.userId = userId → world.find (pageKey config listing version) = none := by
        intro listing version own
        by_contra found
        have enabled := (kept.page listing version own found).2.2
        rw [disabled] at enabled
        cases enabled
      refine ⟨⟨fun key => ?_, ?_, fun value found => ?_, fun alive => ?_⟩, fun _ listing own => none listing _ own, ?_⟩
      · rw [(same key).2, writes]
        exact kept.ordered key
      · intro listing version own found
        rw [(same _).1, none listing version own] at found
        exact (found rfl).elim
      · rw [(same _).1] at found
        exact kept.counted value found
      · intro listing own found
        rw [(same _).1, none listing 0 own] at found
        exact (found rfl).elim
      · intro _ listing own found
        rw [(same _).1, none listing _ own] at found
        exact (found rfl).elim
  | pass elapsed =>
    cases happens with
    | pass waits => exact ⟨kept.waits waits, waits.fresh_iff kept fresh⟩

theorem timeline_fresh {base : World} {past : List (Happening × ExpiringWorld)} {last : ExpiringWorld}
    (lives : 1 ≤ cache.version_key_ttl) (timeline : Timeline config cache userId (nothingCached base) past last)
    (meets : ∀ step ∈ past, Meets config userId step) :
    (Kept config cache userId last ∧ Fresh config userId last) ∧
      ∀ step ∈ past, Kept config cache userId step.2 ∧ Fresh config userId step.2 := by
  induction timeline with
  | start => exact ⟨⟨nothing_kept base, nothing_fresh base⟩, by simp⟩
  | next before happens ih =>
    obtain ⟨now, earlier⟩ := List.forall_mem_cons.mp meets
    obtain ⟨there, all⟩ := ih earlier
    obtain ⟨kept, step⟩ := happens.fresh_iff lives there.1 there.2
    exact ⟨⟨kept, step.mpr now⟩, List.forall_mem_cons.mpr ⟨there, all⟩⟩

/-- In a timeline no list read, whenever it is made, finds a page older than a bump, exactly if no
bump yields a number under which a page is alive and the version key never dies before the pages
under version 0. -/
theorem reads_current_iff {j : Json} {base : World} {past : List (Happening × ExpiringWorld)}
    {last : ExpiringWorld} (admitted : parseCacheConfig j = .ok cache)
    (timeline : Timeline config cache userId (nothingCached base) past last) :
    (∀ world ∈ last :: past.map Prod.snd, ReadsCurrent config userId cache world) ↔
      ∀ step ∈ past, Meets config userId step := by
  have lives := parseCacheConfig_ttl admitted
  constructor
  · intro reads
    induction timeline with
    | start => simp
    | next before happens ih =>
      obtain ⟨now, earlier⟩ := List.forall_mem_cons.mp reads
      have meets := ih earlier
      obtain ⟨⟨kept, fresh⟩, _⟩ := timeline_fresh lives before meets
      obtain ⟨still, step⟩ := happens.fresh_iff lives kept fresh
      exact List.forall_mem_cons.mpr ⟨step.mp (fresh_of_readsCurrent still now), meets⟩
  · intro meets
    obtain ⟨⟨kept, fresh⟩, all⟩ := timeline_fresh lives timeline meets
    refine List.forall_mem_cons.mpr ⟨fresh.readsCurrent kept, fun world member => ?_⟩
    obtain ⟨step, there, rfl⟩ := List.mem_map.mp member
    exact (all step there).2.readsCurrent (all step there).1

/-! ## A number that comes back -/

def bumpOnce (world : ExpiringWorld) : ExpiringWorld :=
  (performExpiring defaultConfig {} 0 (.bumpVersion kListVersionNamespace (toString (1 : Int))) {} world).2

def waitFor (count : Nat) (world : ExpiringWorld) : ExpiringWorld :=
  { world with base := { world.base with clock := world.base.clock + (count * 1000000000 : Nat) } }

def undisturbedly : List ((ExpiringWorld → ExpiringWorld) × Choice) := List.replicate 5 (id, {})

def firstPage : Call := .listMy 1 0 10

def listOnce (world : ExpiringWorld) : Option (Reply × ExpiringWorld) :=
  (firstPage.program defaultConfig).runAmong (performExpiring defaultConfig {} 0) undisturbedly world

theorem happens_bumpOnce (world : ExpiringWorld) : ∃ trace, Happens defaultConfig {} 1 world .bump trace (bumpOnce world) :=
  ⟨_, .bump (.call ⟨by simp, rfl, rfl, rfl, rfl⟩ .done) (by simp [Served])⟩

theorem happens_waitFor (count : Nat) (world : ExpiringWorld) :
    Happens defaultConfig {} 1 world (.pass (count * 1000000000)) [] (waitFor count world) :=
  .pass ⟨rfl, rfl, rfl, rfl, rfl⟩

theorem happens_listOnce {reply : Reply} (listed : listOnce world = some (reply, after)) :
    Happens defaultConfig {} 1 world (.read firstPage)
      ((firstPage.program defaultConfig).performed (performExpiring defaultConfig {} 0) undisturbedly world) after := by
  have others : ∀ step ∈ undisturbedly, ∀ world, (atOnce defaultConfig {} 0).drift world (step.1 world) := by
    intro step member world
    rw [List.eq_of_mem_replicate member]
    exact ⟨by simp, rfl, rfl, rfl, rfl⟩
  have ran := executes_of_runAmong (σ := atOnce defaultConfig {} 0) others listed
  refine .read rfl rfl ran fun moment member => served_of_succeeds rfl ?_
  obtain ⟨step, there, same⟩ := List.mem_map.mp (choice_of_performed member)
  rw [← same, List.eq_of_mem_replicate there]

/-- A bump; the page is cached just before the version key dies; afterwards, a bump. -/
def beforeDeath : ExpiringWorld := waitFor 86399 (bumpOnce (nothingCached World.empty))

def cachedLate : ExpiringWorld :=
  match listOnce beforeDeath with
  | some listed => listed.2
  | none => beforeDeath

def bumpedAgain : ExpiringWorld := bumpOnce (waitFor 2 cachedLate)

/-- With the version key living for a day. -/
theorem version_returns : ¬ ∀ config j cache userId base past last, parseCacheConfig j = .ok cache →
    Timeline config cache userId (nothingCached base) past last →
      ∀ world ∈ last :: past.map Prod.snd, ReadsCurrent config userId cache world := by
  intro current
  obtain ⟨first, bumps⟩ := happens_bumpOnce (nothingCached World.empty)
  have waits := happens_waitFor 86399 (bumpOnce (nothingCached World.empty))
  obtain ⟨reply, listed⟩ : ∃ reply, listOnce beforeDeath = some (reply, cachedLate) := ⟨_, rfl⟩
  have lists := happens_listOnce listed
  have dies := happens_waitFor 2 cachedLate
  obtain ⟨last, bumpsAgain⟩ := happens_bumpOnce (waitFor 2 cachedLate)
  have timeline := ((((Timeline.start.next bumps).next waits).next lists).next dies).next bumpsAgain
  have reads := current defaultConfig (.object []) {} 1 World.empty _ _ rfl timeline
  have lives : 1 ≤ ({} : CacheConfig).version_key_ttl := by decide
  have enabled : ({} : CacheConfig).enabled ≠ false := by decide
  have kept : ∀ {world after : ExpiringWorld} {trace}, Happens defaultConfig {} 1 world .bump trace after →
      Kept defaultConfig {} 1 world → Kept defaultConfig {} 1 after := by
    intro world after trace happens kept
    rcases bumped_of_happens lives happens with bumped | ⟨disabled, _⟩
    · exact bumped.kept kept
    · exact (enabled disabled).elim
  have early : Kept defaultConfig {} 1 beforeDeath := (kept bumps (nothing_kept _)).waits ⟨rfl, rfl, rfl, rfl, rfl⟩
  have fresh := fresh_of_readsCurrent early (reads beforeDeath (by simp [beforeDeath]))
  have late := (read_current early fresh lists).1.1
  have again : Kept defaultConfig {} 1 bumpedAgain := kept bumpsAgain (late.waits ⟨rfl, rfl, rfl, rfl, rfl⟩)
  have alive : (bumpedAgain.find (pageKey defaultConfig ⟨1, none, 0, 10⟩
      (listVersion defaultConfig 1 bumpedAgain))).isSome = true := by decide
  have older : ¬ bumpedAgain.writtenAt (listVersionOf defaultConfig 1) <
      bumpedAgain.writtenAt (pageKey defaultConfig ⟨1, none, 0, 10⟩ (listVersion defaultConfig 1 bumpedAgain)) := by
    decide
  exact older (found_page again (Option.isSome_iff_ne_none.mp alive)
    (reads bumpedAgain List.mem_cons_self))

/-- The page read after the first bump is cached under version 1. -/
def pagedOnce : ExpiringWorld :=
  match listOnce (bumpOnce (nothingCached World.empty)) with
  | some listed => listed.2
  | none => bumpOnce (nothingCached World.empty)

/-- No other version has a page. -/
theorem pagedOnce_find {version : Int} (other : version ≠ 1) (listing : Listing) :
    pagedOnce.find (pageKey defaultConfig listing version) = none := by
  obtain ⟨_, bumps⟩ := happens_bumpOnce (nothingCached World.empty)
  obtain ⟨reply, listed⟩ : ∃ reply, listOnce (bumpOnce (nothingCached World.empty)) = some (reply, pagedOnce) :=
    ⟨_, rfl⟩
  rcases bumped_of_happens (by decide) bumps with bumped | ⟨disabled, _⟩
  · by_contra found
    have kept : Kept defaultConfig {} 1 _ := bumped.kept (nothing_kept World.empty)
    rcases page_read kept (happens_listOnce listed) found with before | same
    · rw [(bumped.others _ (pageKey_ne_listVersionOf listing version)).1] at before
      exact before (by simp [find_eq, nothingCached])
    · exact other (same.trans (by decide))
  · cases disabled

/-- A page cached under the first version is still alive after the second bump, and is not found. -/
theorem reads_current_bump :
    ReadsCurrent defaultConfig 1 {} (bumpOnce (waitFor 10 pagedOnce)) ∧
      (bumpOnce (waitFor 10 pagedOnce)).find (pageKey defaultConfig ⟨1, none, 0, 10⟩ 1) ≠ none := by
  obtain ⟨_, bumps⟩ := happens_bumpOnce (nothingCached World.empty)
  obtain ⟨reply, listed⟩ : ∃ reply, listOnce (bumpOnce (nothingCached World.empty)) = some (reply, pagedOnce) :=
    ⟨_, rfl⟩
  have lists := happens_listOnce listed
  have waits := happens_waitFor 10 pagedOnce
  obtain ⟨_, bumpsAgain⟩ := happens_bumpOnce (waitFor 10 pagedOnce)
  have timeline := (((Timeline.start.next bumps).next lists).next waits).next bumpsAgain
  have alive : ((bumpOnce (waitFor 10 pagedOnce)).find (pageKey defaultConfig ⟨1, none, 0, 10⟩ 1)).isSome = true := by
    decide
  refine ⟨(reads_current_iff (j := .object []) rfl timeline).mpr ?_ _ List.mem_cons_self,
    Option.isSome_iff_ne_none.mp alive⟩
  have version : listVersion defaultConfig 1 (waitFor 10 pagedOnce) + 1 ≠ 1 := by decide
  simp only [List.forall_mem_cons]
  refine ⟨fun listing _ => ?_, fun _ _ listing _ found => ?_, trivial,
    fun listing _ => by simp [find_eq, nothingCached], by simp⟩
  · have waited : Waits (10 * 1000000000) pagedOnce (waitFor 10 pagedOnce) := ⟨rfl, rfl, rfl, rfl, rfl⟩
    by_contra found
    rw [waited.alive found] at found
    exact found (pagedOnce_find version listing)
  · exact (found (pagedOnce_find (by decide) listing)).elim

end Text2Image.ListVersions
