import Mathlib
import Text2Image.Services.CacheOrigins

/-! How old a list of images can be. -/

set_option autoImplicit false

namespace Text2Image

open Concurrency System ImageCache ImageService

variable {config : Config} {userId : Int}

/-! ## List versions -/

def listVersionKey (config : Config) (userId : Int) : String :=
  versionKey config kListVersionNamespace (toString userId)

def listVersion (config : Config) (userId : Int) (world : World) : Int :=
  world.version (listVersionKey config userId)

/-- The cache is there when it is asked for a version, every bump succeeds, and the
user's list version does not expire. -/
abbrev versionLasts (userId : Int) : Condition (backend config) where
  starts _ _ := True
  performs _ _ op choice _ :=
    (match op with
      | .getVersion .. | .bumpVersion .. => choice.succeeds
      | _ => true) = true
  env event _ :=
    (match event with
      | .cacheExpires key => decide (key ≠ listVersionKey config userId)
      | _ => true) = true

theorem version_of_cache {world after : World} {key : String}
    (same : after.cache key = world.cache key) : after.version key = world.version key := by
  unfold World.version
  rw [same]

/-- No operation that does not drop a version lowers it. -/
theorem perform_version {pid : Nat} {op : Op} {choice : Choice} {world : World}
    (image : ∀ name, op = .cacheDel name → isImageKey name)
    (image' : ∀ name value ttl, op = .cacheSetex name value ttl → isImageKey name) :
    listVersion config userId world ≤
      listVersion config userId (perform config pid op choice world).2 := by
  have change := perform_cache config pid op choice world (listVersionKey config userId)
  generalize found : (perform config pid op choice world).2.cache (listVersionKey config userId) =
    after at change
  cases change with
  | kept => exact le_of_eq (version_of_cache found).symm
  | dropped deletes same => exact (cacheKey_ne_versionKey (image _ deletes) _ _ same.symm).elim
  | written writes same => exact (cacheKey_ne_versionKey (image' _ _ _ writes) _ _ same.symm).elim
  | bumped bumps same =>
    have raised : listVersion config userId (perform config pid op choice world).2 =
        listVersion config userId world + 1 := by
      unfold listVersion
      conv_lhs => unfold World.version
      rw [found]
    omega

theorem version_rises : Rises (versionLasts userId : Condition (backend config)) (listVersion config userId) where
  performs pid call op choice view asks _ := by
    have writes := asks.allowed (answers_call config call)
    refine perform_version ?_ ?_
    · rintro name rfl
      exact writes
    · rintro name value ttl rfl
      exact CacheSource.isImageKey writes
  helps pid call op choice view permitted _ := by
    refine perform_version ?_ ?_
    · rintro name rfl
      cases permitted
    · rintro name value ttl rfl
      cases permitted
  leave pid world := le_of_eq (version_of_cache rfl)
  env event view lasts := by
    cases event with
    | cacheExpires key =>
      have other : listVersionKey config userId ≠ key := (of_decide_eq_true lasts).symm
      exact le_of_eq (version_of_cache (by simp [Env.apply, World.withCache, other])).symm
    | _ => exact le_of_eq rfl

/-! ## Reading pages -/

variable {listing : Listing}

/-- The page as the table shows it. -/
def pageOf (listing : Listing) (t : ImageTable) : ImageRepo.PageResult :=
  ImageRepo.collectPagedResultRows
    ((Stmt.selectPage listing.userId listing.status listing.size
      (listing.page * listing.size)).answer t 0)

def totalOf (listing : Listing) (t : ImageTable) : Int :=
  (Stmt.countByUser listing.userId listing.status).answer t 0

/-- The page was read from the database by operations among these. -/
inductive ReadAmong (listing : Listing) (since : List (backend config).Entry) : ListResult → Prop where
  | page {event : (backend config).Event} {t : ImageTable} (member : .performed event ∈ since)
      (reads : statementOf (.performed event) = some (t, listing.rowsQuery)) :
      ReadAmong listing since ⟨(pageOf listing t).content, (pageOf listing t).total_elements⟩
  | counted {event event' : (backend config).Event} {t t' : ImageTable}
      (member : .performed event ∈ since) (member' : .performed event' ∈ since)
      (reads : statementOf (.performed event) = some (t, listing.rowsQuery))
      (counts : statementOf (.performed event') = some (t', listing.totalQuery)) :
      ReadAmong listing since ⟨(pageOf listing t).content, totalOf listing t'⟩

theorem ReadAmong.mono {since since' : List (backend config).Entry} {page : ListResult}
    (read : ReadAmong listing since page) (wider : ∀ entry ∈ since, entry ∈ since') :
    ReadAmong listing since' page := by
  cases read with
  | page member reads => exact .page (wider _ member) reads
  | counted member member' reads counts =>
    exact .counted (wider _ member) (wider _ member') reads counts

/-- The page in the form in which the cache gives it back. -/
def cachedForm (page : ListResult) : ListResult :=
  ⟨page.content.map fun image => .fromJson (sanitized image).toJson, wrapInt 64 page.total_elements⟩

/-- The process that has read a page has asked for the version before. -/
theorem PageRead.among {log : List (backend config).Entry} {pid : Nat} {version : Int}
    {page : ListResult} (genuine : AllGenuine log)
    (read : PageRead listing version (history pid log) page) :
    ∃ newer event older, log = newer ++ .performed event :: older ∧
      (⟨event.op, event.answer⟩ : Taken interface) = ⟨listing.versionQuery, version⟩ ∧
      ReadAmong listing newer page := by
  -- the version was asked for before the rows were read
  have asks : ∀ {older : List (backend config).Entry} {past : Past}, history pid older = past →
      past.answered listing.versionQuery version → ∃ between event first,
        older = between ++ .performed event :: first ∧
        (⟨event.op, event.answer⟩ : Taken interface) = ⟨listing.versionQuery, version⟩ := by
    rintro older _ rfl asked
    obtain ⟨newest, past, split⟩ := List.append_of_mem asked
    obtain ⟨between, event, first, rfl, _, _, same, _⟩ := history_split split
    exact ⟨between, event, first, rfl, same⟩
  cases read with
  | page split asked =>
    obtain ⟨newer, reads, older, rfl, _, past, found, answered⟩ := answered_split genuine split
    obtain ⟨between, event, first, rfl, same⟩ := asks past asked
    refine ⟨newer ++ .performed reads :: between, event, first, by simp, same, ?_⟩
    rw [answered]
    exact .page (by simp : Entry.performed reads ∈ _) found
  | counted split asked counts =>
    obtain ⟨newer, reads, older, rfl, rest, past, found, answered⟩ := answered_split genuine split
    obtain ⟨between, event, first, rfl, same⟩ := asks past asked
    obtain ⟨newest, past', split'⟩ := List.append_of_mem (rest ▸ counts)
    obtain ⟨newer', counting, older', rfl, _, _, found', answered'⟩ :=
      answered_split (fun event member => genuine event (List.mem_append_left _ member)) split'
    refine ⟨newer' ++ .performed counting :: older' ++ .performed reads :: between, event, first,
      by simp, same, ?_⟩
    rw [answered, answered']
    exact .counted (by simp : Entry.performed reads ∈ _) (by simp : Entry.performed counting ∈ _) found
      found'

/-! ## Versions in a run -/

variable {event : (backend config).Event} {version : Int}

/-- A version that is told is the one there is. -/
theorem version_told (genuine : event.Genuine) (succeeds : event.choice.succeeds = true)
    (same : (⟨event.op, event.answer⟩ : Taken interface) = ⟨listing.versionQuery, version⟩) :
    listVersion config listing.userId event.before = version ∧
      listVersion config listing.userId event.after = version := by
  obtain ⟨pid, call, helper, op, choice, given, before, after⟩ := event
  cases same
  have done : choice.succeeds = true := succeeds
  simp only [Event.Genuine, perform, done] at genuine
  obtain ⟨told, kept⟩ := Prod.mk.inj genuine
  subst kept
  exact ⟨told.symm, told.symm⟩

theorem version_bumped (genuine : event.Genuine) (succeeds : event.choice.succeeds = true)
    (bumps : event.op = .bumpVersion kListVersionNamespace (toString userId)) :
    listVersion config userId event.after = listVersion config userId event.before + 1 := by
  obtain ⟨pid, call, helper, op, choice, given, before, after⟩ := event
  cases bumps
  have applies : choice.applies = true := by
    have done : choice.outcome = .done := of_decide_eq_true succeeds
    simp [Choice.applies, done]
  simp only [Event.Genuine, perform, applies, if_true] at genuine
  obtain ⟨_, raised⟩ := Prod.mk.inj genuine
  subst raised
  simp [listVersion, listVersionKey, World.version, World.withCache]

/-- The pages that calls write are the only values under a page's key. -/
theorem CacheSource.of_page {past : Past} {call : Call} {value : CacheValue}
    (source : CacheSource past call (listing.key version) value) :
    ∃ page, PageRead listing version past page ∧ value = .json (encodeList page) := by
  generalize named : listing.key version = name at source
  have list := listing.key_isListKey version
  cases source with
  | url call storageKey url => exact (presignKey_notList storageKey _ (named ▸ list)).elim
  | missing | task | created => exact (metaKey_notList _ _ _ (named ▸ list)).elim
  | page lists read =>
    obtain ⟨rfl, rfl⟩ := Listing.key_injective named
    exact ⟨_, read, rfl⟩

/-- A page found in the cache under a version told after a bump was read after that bump. -/
theorem cached_page_read {world : World} {labels : List (backend config).Label}
    (behind : ∀ (listing : Listing) version, listing.userId = userId →
      listVersion config userId world < version →
      world.cache (cacheKey config (listing.key version)) = none)
    (meets : Meets (versionLasts userId) (boot config world) labels) (user : listing.userId = userId)
    {newest since oldest : List (backend config).Entry} {bump asks gets : (backend config).Event}
    (log : (System.run (boot config world) labels).view.log =
      newest ++ (since ++ .performed bump :: oldest))
    (bumps : bump.op = .bumpVersion kListVersionNamespace (toString userId))
    {value : CacheValue} {newer between older : List (backend config).Entry}
    (within : since = newer ++ .performed gets :: (between ++ .performed asks :: older))
    (asked : (⟨asks.op, asks.answer⟩ : Taken interface) = ⟨listing.versionQuery, version⟩)
    (got : (⟨gets.op, gets.answer⟩ : Taken interface) = ⟨.cacheGet (listing.key version), some value⟩) :
    ∃ page, value = .json (encodeList page) ∧ ReadAmong listing since page := by
  subst user
  have genuine := (follows_run world labels).genuine
  have risen : Risen (listVersion config listing.userId) { world with keepers := [] }
      (System.run (boot config world) labels).view := version_rises.run _ labels meets
  have met : AllMet (versionLasts listing.userId) (System.run (boot config world) labels).view.log :=
    allMet_run meets
  -- the reader was told a version from after the bump
  have told : listVersion config listing.userId asks.before = version := by
    have place : (System.run (boot config world) labels).view.log = (newest ++ newer ++
        .performed gets :: between) ++ .performed asks :: (older ++ .performed bump :: oldest) := by
      simp [log, within]
    have done : asks.choice.succeeds = true := by
      have op : asks.op = listing.versionQuery := congrArg Taken.op asked
      have meets := met _ _ _ place
      rw [op] at meets
      exact meets
    exact (version_told (genuine asks (by rw [place]; simp)) done asked).1
  have place : (System.run (boot config world) labels).view.log =
      (newest ++ since) ++ .performed bump :: oldest := by simp [log]
  have raised : listVersion config listing.userId bump.after =
      listVersion config listing.userId bump.before + 1 := by
    have meets := met _ _ _ place
    simp only [bumps] at meets
    exact version_bumped (genuine bump (by rw [place]; simp)) meets bumps
  have later := risen.later _ bump _ place asks (by simp [within])
  have started := risen.startedBefore bump (by rw [place]; simp)
  have found : (System.run (boot config world) labels).view.log = (newest ++ newer) ++
      .performed gets :: (between ++ .performed asks :: older ++ .performed bump :: oldest) := by
    simp [log, within]
  rcases cached_origin found (listing.key_isImageKey version) got with
    ⟨first, _⟩ | ⟨afterwards, writer, first, split, writes, _⟩
  · -- no such page is there at the start
    have empty := behind listing version rfl (by
      have begun : listVersion config listing.userId world ≤
        listVersion config listing.userId bump.before := started
      omega)
    exact absurd (first.symm.trans empty) (by simp)
  · -- the writer of the page was told the same version
    have place' : (System.run (boot config world) labels).view.log =
        (newest ++ newer ++ .performed gets :: afterwards) ++ .performed writer :: first := by
      rw [log, within]
      simpa using split
    obtain ⟨_, source⟩ := written_source place' writes
    obtain ⟨page, read, rfl⟩ := source.of_page
    have older : AllGenuine first := fun event member => genuine event (by rw [place']; simp [member])
    obtain ⟨reads, tells, rest, rfl, same, among⟩ := read.among older
    refine ⟨page, rfl, ?_⟩
    have place'' : (System.run (boot config world) labels).view.log =
        (newest ++ newer ++ .performed gets :: afterwards ++ .performed writer :: reads) ++
          .performed tells :: rest := by simp [place']
    have done : tells.choice.succeeds = true := by
      have op : tells.op = listing.versionQuery := congrArg Taken.op same
      have meets := met _ _ _ place''
      rw [op] at meets
      exact meets
    have both := version_told (genuine tells (by rw [place'']; simp)) done same
    rcases compare (place''.symm.trans place) with ⟨gap, _, split⟩ | ⟨equal, _, _⟩ | ⟨gap, _, split⟩
    · -- so it was told after the bump, and has read the rows after that
      have since' : since = newer ++ .performed gets :: afterwards ++ .performed writer :: reads ++
          .performed tells :: gap := by
        refine (List.append_right_inj newest).mp ?_
        simpa using split
      exact among.mono fun entry member => by simp [since', member]
    · -- the two are different operations
      have op : bump.op = listing.versionQuery := by
        rw [← Entry.performed.inj equal]
        exact congrArg Taken.op same
      rw [bumps] at op
      cases op
    · -- a version told before the bump would be lower
      have before := risen.later _ tells _ place'' bump (by rw [split]; simp)
      omega

/-! ## Lists -/

/-- The list that has just been replied, and to whom. -/
def justListed : List (backend config).Entry → Option (Nat × ListResult)
  | .returned pid (.list (.ok result)) :: _ => some (pid, result)
  | _ => none

/-- The call the process was started with. -/
def startedAs (pid : Nat) (log : List (backend config).Entry) : Option Call :=
  log.findSome? fun
    | .started other call => if other = pid then some call else none
    | _ => none

/-- The user's list version is bumped. -/
def bumps (userId : Int) : (backend config).Entry → Bool
  | .performed event =>
    match event.op with
    | .bumpVersion ns identifier => ns = kListVersionNamespace ∧ identifier = toString userId
    | _ => false
  | _ => false

/-- All that has happened since the user's last bump that was over when the process
was started. -/
def sinceBump (userId : Int) (pid : Nat) :
    List (backend config).Entry → Option (List (backend config).Entry)
  | [] => none
  | .started other call :: older =>
    if other = pid then
      if older.any (bumps userId) then
        some (.started other call :: older.takeWhile fun entry => ! bumps userId entry)
      else none
    else (sinceBump userId pid older).map (.started other call :: ·)
  | entry :: older => (sinceBump userId pid older).map (entry :: ·)

theorem bumps_iff {entry : (backend config).Entry} : bumps userId entry = true ↔
    ∃ event, entry = .performed event ∧
      event.op = .bumpVersion kListVersionNamespace (toString userId) := by
  cases entry with
  | performed event =>
    simp only [bumps]
    split
    · rename_i ns identifier op
      simp [op]
    · rename_i other
      simp only [Bool.false_eq_true, false_iff]
      rintro ⟨_, same, op⟩
      cases same
      exact other _ _ op
  | _ => simp [bumps]

/-- Some bump is the last one. -/
theorem last_bump {log : List (backend config).Entry} (some' : log.any (bumps userId) = true) :
    ∃ bump oldest, log = (log.takeWhile fun entry => ! bumps userId entry) ++ .performed bump :: oldest ∧
      bump.op = .bumpVersion kListVersionNamespace (toString userId) := by
  induction log with
  | nil => cases some'
  | cons entry log ih =>
    cases here : bumps userId entry with
    | true =>
      obtain ⟨bump, rfl, op⟩ := bumps_iff.mp here
      exact ⟨bump, log, by simp [here], op⟩
    | false =>
      obtain ⟨bump, oldest, split, op⟩ := ih (by simpa [here] using some')
      exact ⟨bump, oldest, by simpa [here] using split, op⟩

theorem sinceBump_split {pid : Nat} {log since : List (backend config).Entry}
    (found : sinceBump userId pid log = some since) :
    ∃ later call between bump oldest, since = later ++ .started pid call :: between ∧
      log = since ++ .performed bump :: oldest ∧
      bump.op = .bumpVersion kListVersionNamespace (toString userId) := by
  induction log generalizing since with
  | nil => cases found
  | cons entry log ih =>
    have pass : (sinceBump userId pid log).map (entry :: ·) = some since →
        ∃ later call between bump oldest, since = later ++ .started pid call :: between ∧
          entry :: log = since ++ .performed bump :: oldest ∧
          bump.op = .bumpVersion kListVersionNamespace (toString userId) := by
      intro mapped
      obtain ⟨rest, older, rfl⟩ := Option.map_eq_some_iff.mp mapped
      obtain ⟨later, call, between, bump, oldest, rfl, rfl, op⟩ := ih older
      exact ⟨entry :: later, call, between, bump, oldest, rfl, rfl, op⟩
    cases entry with
    | started other call =>
      simp only [sinceBump] at found
      split at found
      · rename_i same
        split at found
        · rename_i bumped
          obtain rfl := Option.some.inj found
          obtain ⟨bump, oldest, split, op⟩ := last_bump bumped
          refine ⟨[], call, _, bump, oldest, by rw [same]; rfl, ?_, op⟩
          rw [List.cons_append, ← split]
        · cases found
      · exact pass found
    | _ => exact pass found

/-- A process was started once, with one call. -/
theorem startedAs_eq {pid : Nat} {call own : Call}
    {l older : List (backend config).Entry} (begun : BegunOnce (l ++ .started pid own :: older))
    (started : startedAs pid (l ++ .started pid own :: older) = some call) : call = own := by
  have once := (begun l pid own older rfl).2
  have none : l.findSome? (fun
      | .started other call => if other = pid then some call else none
      | _ => none : (backend config).Entry → Option Call) = none := by
    rw [List.findSome?_eq_none_iff]
    intro entry member
    cases entry with
    | started other call =>
      by_cases same : other = pid
      · exact (once call (same ▸ member)).elim
      · simp [same]
    | _ => rfl
  rw [startedAs, List.findSome?_append, none] at started
  simpa using started.symm

/-- A reply rests on what its process was answered since it was started. -/
theorem answered_since_start {world : World} {labels : List (backend config).Label} {pid : Nat}
    {call own : Call} {reply : Reply} {later older : List (backend config).Entry}
    (returned : (run (boot config world) labels).view.log =
      .returned pid reply :: (later ++ .started pid own :: older))
    (started : startedAs pid (run (boot config world) labels).view.log = some call) :
    Answers call (history pid later) reply := by
  have begun : BegunOnce (run (boot config world) labels).view.log := begunOnce_run _ labels
  rw [returned] at begun started
  have begun' : BegunOnce (later ++ .started pid own :: older) := begun.tail
  obtain ⟨call', alive, answers⟩ := (tracks_run _ labels).promised
    (answers_call config) (returned.trans (List.nil_append _).symm)
  obtain rfl := begun'.live alive
  obtain rfl := startedAs_eq (l := .returned pid reply :: later) begun started
  rwa [begun'.history] at answers

/-- A list call that starts after a bump shows a page that was read after that bump,
as it was read or in the form in which the cache gives it back. -/
theorem lists_fresh (world : World) (labels : List (backend config).Label) (userId : Int)
    (behind : ∀ (listing : Listing) version, listing.userId = userId →
      listVersion config userId world < version →
      world.cache (cacheKey config (listing.key version)) = none)
    (meets : Meets (versionLasts userId) (boot config world) labels) {pid : Nat} {result : ListResult}
    {call : Call} {listing : Listing} {since : List (backend config).Entry}
    (replied : justListed (run (boot config world) labels).view.log = some (pid, result))
    (started : startedAs pid (run (boot config world) labels).view.log = some call)
    (lists : call.listing = some listing) (user : listing.userId = userId)
    (bumped : sinceBump userId pid (run (boot config world) labels).view.log = some since) :
    ∃ page, ReadAmong listing since page ∧
      (Presents result page ∨ Presents result (cachedForm page)) := by
  obtain ⟨older, returned⟩ : ∃ older, (run (boot config world) labels).view.log =
      .returned pid (.list (.ok result)) :: older := by
    unfold justListed at replied
    split at replied
    · rename_i split
      cases replied
      exact ⟨_, split⟩
    · cases replied
  obtain ⟨later, own, between, bump, oldest, rfl, log, bumps⟩ := sinceBump_split bumped
  have genuine := (follows_run world labels).genuine
  -- the newest entry is the reply, so the call has begun before it
  obtain ⟨later, rfl, rfl⟩ : ∃ rest, later = .returned pid (.list (.ok result)) :: rest ∧
      older = rest ++ .started pid own :: (between ++ .performed bump :: oldest) := by
    have same := returned.symm.trans log
    cases later with
    | nil => cases (List.cons.inj same).1
    | cons first rest =>
      obtain ⟨rfl, split⟩ := List.cons.inj same
      exact ⟨rest, rfl, by simpa using split⟩
  have answers := answered_since_start returned started
  obtain ⟨result', same, known⟩ := answers.list listing lists
  cases same
  have answer := known result rfl
  cases answer with
  | read read presents =>
    have mine : AllGenuine later := fun event member => genuine event (by rw [returned]; simp [member])
    obtain ⟨newer, asks, first, rfl, _, among⟩ := read.among mine
    exact ⟨_, among.mono fun entry member => by simp [member], .inl presents⟩
  | @cached version newest past value page split asked decoded presents =>
    obtain ⟨newer, gets, rest, rfl, _, _, got, rfl⟩ := history_split split
    obtain ⟨newest', past', split'⟩ := List.append_of_mem asked
    obtain ⟨between', asks, first, rfl, _, _, same, _⟩ := history_split split'
    let reply : (backend config).Entry := .returned pid (.list (.ok result))
    have within : reply :: (newer ++ .performed gets :: (between' ++ .performed asks :: first)) ++
        .started pid own :: between = (reply :: newer) ++ .performed gets ::
          (between' ++ .performed asks :: (first ++ .started pid own :: between)) := by simp
    obtain ⟨page', rfl, among⟩ := cached_page_read behind meets user
      (log.trans (List.nil_append _).symm) bumps within
      same got
    rw [decodeList_encodeList] at decoded
    obtain rfl := Option.some.inj decoded
    exact ⟨page', among, .inr presents⟩

/-- A task is created and listed twice, the second time from the cache. -/
def listedRun : List (backend defaultConfig).Label :=
  .start (.create 1 (promptPayload "a") false) :: succeeds 0 11 ++
    .start (.listMy 1 0 10) :: succeeds 1 5 ++ .start (.listMy 1 0 10) :: succeeds 2 2

theorem lists_fresh_listedRun :
    ∃ result since page, justListed (run (boot defaultConfig World.empty) listedRun).view.log =
        some (2, result) ∧
      sinceBump 1 2 (run (boot defaultConfig World.empty) listedRun).view.log = some since ∧
      ReadAmong ⟨1, none, 0, 10⟩ since page ∧
      (Presents result page ∨ Presents result (cachedForm page)) := by
  have replied : (justListed (run (boot defaultConfig World.empty) listedRun).view.log).map Prod.fst =
      some 2 := by decide +kernel
  have called : startedAs 2 (run (boot defaultConfig World.empty) listedRun).view.log =
      some (.listMy 1 0 10) := by rfl
  have bumped : (sinceBump 1 2 (run (boot defaultConfig World.empty) listedRun).view.log).isSome =
      true := by decide +kernel
  obtain ⟨⟨pid, result⟩, replied, rfl⟩ := Option.map_eq_some_iff.mp replied
  obtain ⟨since, bumped⟩ := Option.isSome_iff_exists.mp bumped
  obtain ⟨page, among, presents⟩ := lists_fresh World.empty listedRun 1 (fun _ _ _ _ => rfl)
    (by decide +kernel) replied called rfl rfl bumped
  exact ⟨result, since, page, replied, bumped, among, presents⟩

end Text2Image
