import Text2Image.Properties.StoredImages

/-! Whose stored images an operation signs, reads or removes. -/

set_option autoImplicit false

namespace Text2Image

open Concurrency System TaskStatus ImageCache

variable {config : Config}

/-! ## Keys of a user -/

/-- Where the images of a user are stored. -/
def imageDirectory (userId : Int) : String := s!"images/{userId}/"

def inDirectory (userId : Int) (key : String) : Bool :=
  (imageDirectory userId).toList <+: key.toList

theorem imageDirectory_chars (userId : Int) : (imageDirectory userId).toList =
    "images/".toList ++ ((toString userId).toList ++ '/' :: []) := by
  have slash : (toString "/").toList = ['/'] := by decide
  unfold imageDirectory
  simp only [String.toList_append, List.append_assoc]
  rw [slash]
  rfl

theorem inDirectory_objectKey (userId : Int) (requestId contentType : String) :
    inDirectory userId (ImageStorage.objectKey userId requestId contentType) = true := by
  have slash : (toString "/").toList = ['/'] := by decide
  have directory := imageDirectory_chars userId
  refine decide_eq_true ?_
  rw [directory]
  unfold ImageStorage.objectKey
  simp only [String.toList_append, List.append_assoc]
  rw [slash]
  exact ⟨_, by simp only [List.append_assoc, List.cons_append, List.nil_append]; rfl⟩

/-- A key lies in the directory of one user only. -/
theorem inDirectory_user {userId userId' : Int} {key : String} (inside : inDirectory userId key = true)
    (inside' : inDirectory userId' key = true) : userId = userId' := by
  obtain ⟨rest, first⟩ := of_decide_eq_true inside
  obtain ⟨rest', second⟩ := of_decide_eq_true inside'
  rw [imageDirectory_chars, List.append_assoc, List.append_assoc] at first second
  exact Numbered.number_of_tagged (by decide) (by decide) (first.trans second.symm)

/-- `store` has uploaded an object under this key. -/
def uploads (key : String) : (backend config).Entry → Bool
  | .performed event => justStored [⟨event.op, event.answer⟩] = some key
  | _ => false

/-- The key is one that `store` has produced for this user. -/
def Produced (log : List (backend config).Entry) (userId : Int) (key : String) : Prop :=
  inDirectory userId key = true ∧ log.any (uploads key) = true

instance (log : List (backend config).Entry) (userId : Int) (key : String) :
    Decidable (Produced log userId key) := inferInstanceAs (Decidable (_ ∧ _))

/-- Nothing stored, or something of the user's own. -/
abbrev Own (log : List (backend config).Entry) (userId : Int) (key : String) : Prop :=
  key = "" ∨ Produced log userId key

theorem Own.cons {log : List (backend config).Entry} {userId : Int} {key : String}
    (own : Own log userId key) (entry : (backend config).Entry) : Own (entry :: log) userId key := by
  rcases own with empty | ⟨inside, uploaded⟩
  · exact .inl empty
  · refine .inr ⟨inside, ?_⟩
    rw [List.any_cons, uploaded, Bool.or_true]

/-- What was stored by a process is one of its events. -/
theorem Own.of_stored {view : (backend config).View} {pid : Nat} {userId : Int} {key : String}
    (stored : StoredFor (history pid view.log) userId key) : Own view.log userId key := by
  obtain ⟨⟨requestId, rfl⟩, data, older, past⟩ := stored
  have member : (⟨.putObject (ImageStorage.objectKey userId requestId "image/png") data, .ok true⟩ :
      Taken interface) ∈ history pid view.log := by
    rw [past]
    exact List.mem_cons_self
  obtain ⟨event, present, _, _, same⟩ := mem_history member
  refine .inr ⟨inDirectory_objectKey _ _ _, List.any_eq_true.mpr ⟨_, present, ?_⟩⟩
  refine decide_eq_true ?_
  rw [same]
  exact justStored_put _ data []

/-- The storage keys an operation signs, reads or removes. A url taken from the
cache counts as signed. -/
inductive Uses : Op → String → Prop where
  | signed (key : String) : Uses (.presignGetUrl key) key
  | signedBefore (key : String) : Uses (.cacheGet (presignKey key)) key
  | read (key : String) : Uses (.getObject key) key
  | removed (key : String) : Uses (.deleteObject key) key

/-- What the event uses on behalf of a user had been stored for that user by
then, and is nobody else's. -/
def EventUsesOwn (event : (backend config).Event) (older : List (backend config).Entry) : Prop :=
  ∀ userId, event.call.user = some userId → ∀ key, Uses event.op key → Produced older userId key ∧
    ∀ other, inDirectory other key = true → other = userId

/-- Every event of the log uses only its user's own objects. -/
def UsesOwn (log : List (backend config).Entry) : Prop :=
  ∀ newer event older, log = newer ++ .performed event :: older → EventUsesOwn event older

/-! ## The invariant -/

/-- Every storage key in the database and in the cache is its user's own. -/
structure OwnKeys (config : Config) (log : List (backend config).Entry) (world : World) : Prop where
  rows : ∀ row ∈ world.db.rows, Own log row.user_id row.storage_key
  tasks : ∀ userId id value image, world.cache (cacheKey config (metaKey userId id)) = some value →
    ImageService.decodeImage value = some image → Own log userId image.storage_key
  pages : ∀ userId key value result, isListKey userId key →
    world.cache (cacheKey config key) = some value → ImageService.decodeList value = some result →
    ∀ image ∈ result.content, Own log userId image.storage_key

theorem OwnKeys.cons {log : List (backend config).Entry} {world : World} (keys : OwnKeys config log world)
    (entry : (backend config).Entry) : OwnKeys config (entry :: log) world where
  rows row member := (keys.rows row member).cons entry
  tasks userId id value image cached decoded := (keys.tasks userId id value image cached decoded).cons entry
  pages userId key value result list cached decoded image member :=
    (keys.pages userId key value result list cached decoded image member).cons entry

theorem OwnKeys.settles {log : List (backend config).Entry} {world after : World}
    (keys : OwnKeys config log world) (settles : world.Settles after) : OwnKeys config log after := by
  have stood : ∀ {key value}, after.cache key = some value → world.cache key = some value := by
    intro key value cached
    rcases settles.cache key with gone | kept
    · rw [gone] at cached
      cases cached
    · rw [← kept]
      exact cached
  constructor
  · intro row member
    exact keys.rows row (settles.db ▸ member)
  · intro userId id value image cached
    exact keys.tasks userId id value image (stood cached)
  · intro userId key value result list cached
    exact keys.pages userId key value result list (stood cached)

/-- All keys there are, have been and were inserted are their users' own. -/
structure Isolated (view : (backend config).View) : Prop where
  now : OwnKeys config view.log view.world
  seen : ∀ event, .performed event ∈ view.log → OwnKeys config view.log event.before
  inserted : ∀ entry ∈ view.log, ∀ t values, statementOf entry = some (t, .insert values) →
    Own view.log values.user_id values.storage_key
  used : LogAll (fun entry older => ∀ event, entry = .performed event → EventUsesOwn event older)
    view.log

def insertsOwn (log : List (backend config).Entry) : Stmt → Bool
  | .insert values => Own log values.user_id values.storage_key
  | _ => true

/-- Every created row names no object, or one stored for its user. -/
abbrev createsOwn : Condition (backend config) where
  starts _ _ := True
  performs _ _ op choice view := (executed op choice).all (insertsOwn view.log) = true

variable {view : (backend config).View} {pid : Nat} {call : Call} {op : Op} {choice : Choice}
  {helper : Bool} {userId : Int} {key : String}

theorem createsOwn_inserts {values : Row} (meets : createsOwn.performs pid call op choice view)
    (executes : executed op choice = some (.insert values)) :
    Own view.log values.user_id values.storage_key :=
  of_decide_eq_true (Option.all_eq_true _ _ |>.mp meets _ executes)

theorem Isolated.row (isolated : Isolated view) (genuine : AllGenuine view.log) {s : Stmt}
    {answer : s.Answer} (got : Past.got (history pid view.log) s answer) :
    ∃ t pick, answer = s.answer t pick ∧
      ∀ row ∈ t.rows, Own view.log row.user_id row.storage_key := by
  obtain ⟨event, member, _, _, _, answered⟩ := got_mem genuine got
  exact ⟨_, _, answered, (isolated.seen event member).rows⟩

/-- Every key a call knows of its user is the user's own. -/
theorem Isolated.known (isolated : Isolated view) (genuine : AllGenuine view.log)
    (known : KeyKnown userId (history pid view.log) key) : Own view.log userId key := by
  cases known with
  | @row id row read =>
    obtain ⟨t, pick, answered, own⟩ := isolated.row genuine read
    have member := Keyed.Table.mem_select.mp (fetchOne_mem answered.symm)
    have mine : row.id = id ∧ row.user_id = userId := of_decide_eq_true member.2
    exact mine.2 ▸ own row member.1
  | @page status limit offset rows entry read member =>
    obtain ⟨t, pick, answered, own⟩ := isolated.row genuine read
    rw [answered] at member
    obtain ⟨row, taken, rfl⟩ := List.mem_map.mp member
    have found := List.mem_reverse.mp (List.mem_of_mem_drop (List.mem_of_mem_take taken))
    obtain ⟨present, mine⟩ := Keyed.Table.mem_select.mp found
    have user : row.user_id = userId := (of_decide_eq_true mine).1
    exact user ▸ own row present
  | @inserted values read own =>
    obtain ⟨event, member, _, _, found, _⟩ := got_mem genuine read
    exact own ▸ isolated.inserted _ member _ _ found
  | cached read decoded =>
    obtain ⟨event, member, _, cached⟩ := cached_mem genuine read
    exact (isolated.seen event member).tasks _ _ _ _ cached decoded
  | cachedPage list read decoded present =>
    obtain ⟨event, member, _, cached⟩ := cached_mem genuine read
    exact (isolated.seen event member).pages _ _ _ _ list cached decoded _ present

/-- The copy a worker has of its row names its user's own object, if any. -/
theorem Isolated.claimed (isolated : Isolated view) (genuine : AllGenuine view.log)
    {worker : String} {row : Row} (claimed : Claimed worker (history pid view.log) row) :
    Own view.log row.user_id row.storage_key := by
  cases claimed with
  | next claim some' read =>
    obtain ⟨t, pick, answered, own⟩ := isolated.row genuine read
    exact own row (Keyed.Table.mem_select.mp (fetchOne_mem answered.symm)).1
  | byId claim some' read =>
    obtain ⟨t, pick, answered, own⟩ := isolated.row genuine read
    exact own row (Keyed.Table.mem_select.mp (fetchOne_mem answered.symm)).1

/-! ## What the protocol allows -/

/-- A key that a request uses is one it knows of its user. -/
theorem known_of_uses {past : Past} (allowed : call.protocol config past op)
    (own : call.user = some userId) (uses : Uses op key) : key ≠ "" ∧ KeyKnown userId past key := by
  cases uses with
  | signed =>
    cases call with
    | listMy | listMyByStatus | getById =>
      cases own
      exact allowed
    | _ => exact allowed.elim
  | signedBefore =>
    obtain ⟨user, same, may⟩ := allowed
    rw [own] at same
    cases same
    rcases may with ⟨id, meta'⟩ | list | ⟨storageKey, equal, named, known⟩
    · exact (presignKey_ne_metaKey _ _ _ meta').elim
    · exact (presignKey_notList _ _ list).elim
    · exact presignKey_injective equal ▸ ⟨named, known⟩
  | read =>
    cases call with
    | getBinaryById =>
      cases own
      obtain ⟨named, row, read, rfl⟩ := allowed
      exact ⟨named, .row read⟩
    | _ => exact allowed.elim
  | removed =>
    cases call with
    | deleteById =>
      cases own
      obtain ⟨_, named, row, read, rfl⟩ := allowed
      exact ⟨named, .row read⟩
    | workerTurn => cases own
    | _ => exact allowed.elim

/-- What is written under the key of a task decodes to a key known of its user. -/
theorem CacheWrite.task_known {past : Past} {user id : Int} {value : CacheValue}
    {image : ImageGeneration} (write : CacheWrite user past (metaKey userId id) value)
    (decoded : ImageService.decodeImage value = some image) :
    KeyKnown userId past image.storage_key := by
  generalize same : metaKey userId id = name at write
  cases write with
  | missing other => cases decoded
  | task other stored known =>
    cases decoded
    rw [ImageGeneration.fromJson_toJson_storage_key, metaKey_user same]
    exact known
  | page name result list known => exact (metaKey_notList _ _ _ (same ▸ list)).elim
  | url storageKey url known => cases decoded

/-- What is written under the key of a page decodes to keys known of its user. -/
theorem CacheWrite.page_known {past : Past} {user : Int} {name : String} {value : CacheValue}
    {result : ImageService.ListResult} (list : isListKey userId name)
    (write : CacheWrite user past name value)
    (decoded : ImageService.decodeList value = some result) :
    ∀ image ∈ result.content, KeyKnown userId past image.storage_key := by
  cases write with
  | missing id => cases decoded
  | task id stored known => exact (metaKey_notList _ _ _ list).elim
  | page name stored list' known =>
    rw [ImageService.decodeList_encodeList] at decoded
    cases decoded
    intro image member
    obtain ⟨first, present, rfl⟩ := List.mem_map.mp member
    rw [ImageGeneration.fromJson_toJson_storage_key, list.user list']
    exact known first present
  | url storageKey url known => cases decoded

/-! ## One step -/

/-- The new row of an executed statement names its user's own object, if any. -/
theorem Isolated.wrote {s : Stmt} {row : Row} (isolated : Isolated view)
    (genuine : AllGenuine view.log) (may : Acts config view pid call op helper)
    (found : executed op choice = some s) (meets : createsOwn.performs pid call op choice view)
    (after : row ∈ (s.table view.world.db).rows) : Own view.log row.user_id row.storage_key := by
  rcases Stmt.mem_table.mp after with ⟨old, before, became⟩ | inserted
  · have change := s.onRow_change before
    rw [became] at change
    have own := isolated.now.rows old before
    cases change with
    | retry => exact .inl rfl
    | @finish _ image id user running held =>
      obtain ⟨rfl, _⟩ := executed_eq_some.mp found
      cases helper with
      | true => cases may
      | false =>
        obtain ⟨_, copy, _, claimed, concludes⟩ := sends_finish may
        have mine : old.user_id = copy.user_id := user.trans concludes.same.user_id
        change Own view.log old.user_id image.storage_key
        rw [mine]
        rcases concludes.key with kept | empty | stored
        · rw [kept]
          exact isolated.claimed genuine claimed
        · exact .inl empty
        · exact Own.of_stored stored
    | _ => exact own
  · cases s with
    | insert values =>
      have own := createsOwn_inserts meets found
      cases inserted
      exact own
    | _ => cases inserted

theorem Isolated.performs (isolated : Isolated view) (genuine : AllGenuine view.log)
    (may : Acts config view pid call op helper)
    (meets : createsOwn.performs pid call op choice view) :
    Isolated (view.performs pid call helper op choice) := by
  have writes : ∀ {name value ttl}, op = .cacheSetex name value ttl → ∃ user,
      CacheWrite user (history pid view.log) name value := by
    rintro name value ttl rfl
    cases helper with
    | true => cases may
    | false =>
      obtain ⟨user, _, write⟩ := may
      exact ⟨user, write⟩
  have next : OwnKeys config view.log (perform config pid op choice view.world).2 := by
    constructor
    · intro row after
      rw [perform_table] at after
      cases found : executed op choice with
      | none =>
        rw [found] at after
        exact isolated.now.rows row after
      | some s =>
        rw [found] at after
        exact isolated.wrote genuine may found meets after
    · intro userId id value image cached decoded
      have change := perform_cache config pid op choice view.world
        (cacheKey config (metaKey userId id))
      rw [cached] at change
      generalize new : some value = entry at change
      cases change with
      | kept => exact isolated.now.tasks _ _ _ _ new.symm decoded
      | dropped => cases new
      | written does same =>
        cases new
        obtain ⟨user, write⟩ := writes does
        rw [← cacheKey_injective same] at write
        exact isolated.known genuine (write.task_known decoded)
      | bumped =>
        cases new
        cases decoded
        exact .inl rfl
    · intro userId key value result list cached decoded image member
      have change := perform_cache config pid op choice view.world (cacheKey config key)
      rw [cached] at change
      generalize new : some value = entry at change
      cases change with
      | kept => exact isolated.now.pages _ _ _ _ list new.symm decoded _ member
      | dropped => cases new
      | written does same =>
        cases new
        obtain ⟨user, write⟩ := writes does
        rw [← cacheKey_injective same] at write
        exact isolated.known genuine (write.page_known list decoded image member)
      | bumped =>
        cases new
        cases decoded
  constructor
  · exact next.cons _
  · intro event member
    rcases List.mem_cons.mp member with same | old
    · cases same
      exact isolated.now.cons _
    · exact (isolated.seen event old).cons _
  · intro entry member t values found
    rcases List.mem_cons.mp member with rfl | old
    · rw [statementOf_performs] at found
      obtain ⟨s, executes, same⟩ := Option.map_eq_some_iff.mp found
      cases same
      exact (createsOwn_inserts meets executes).cons _
    · exact (isolated.inserted entry old t values found).cons _
  · refine ⟨?_, isolated.used⟩
    intro event same userId own key uses
    cases same
    cases helper with
    | true =>
      rcases leaseKeeperMay_iff.mp may with ⟨_, _, _, renews⟩ | ⟨_, _, _, renews⟩
      · have renewed : op = _ := renews
        subst renewed
        cases uses
      · have renewed : op = _ := renews
        subst renewed
        cases uses
    | false =>
      obtain ⟨named, known⟩ := known_of_uses may own uses
      have produced := (isolated.known genuine known).resolve_left named
      exact ⟨produced, fun other inside => inDirectory_user inside produced.1⟩

/-! ## Runs -/

theorem isolated_kept : Kept config createsOwn Isolated where
  acts _ _ _ _ _ _ genuine _ isolated _ may meets := isolated.performs genuine may meets
  started view pid call isolated _ _ := by
    refine ⟨isolated.now.cons _, ?_, ?_, ?_, isolated.used⟩
    · intro event member
      rcases List.mem_cons.mp member with same | old
      · cases same
      · exact (isolated.seen event old).cons _
    · intro entry member t values found
      rcases List.mem_cons.mp member with rfl | old
      · cases found
      · exact (isolated.inserted entry old t values found).cons _
    · intro event same
      cases same
  quiet view entry after isolated settles _ unperformed := by
    have kept : OwnKeys config view.log after := isolated.now.settles settles
    refine ⟨kept.cons _, ?_, ?_, ?_, isolated.used⟩
    · intro event member
      rcases List.mem_cons.mp member with same | old
      · exact (unperformed event same.symm).elim
      · exact (isolated.seen event old).cons _
    · intro other member t values found
      rcases List.mem_cons.mp member with rfl | old
      · cases other with
        | performed event => exact (unperformed event rfl).elim
        | _ => cases found
      · exact (isolated.inserted other old t values found).cons _
    · intro event same
      exact (unperformed event same).elim
  passes view after isolated settles :=
    ⟨isolated.now.settles settles, isolated.seen, isolated.inserted, isolated.used⟩

/-- Nothing is stored, cached or known yet. -/
def World.fresh (world : World) : World := { world with db := .empty, cache := fun _ => none }

/-- In every run whose created rows name no object or one stored for their user:
what an operation signs, reads or removes for a user is a key that `store` has
produced for this user. -/
theorem images_isolated (world : World) (labels : List (backend config).Label)
    (creates : Meets createsOwn (boot config world.fresh) labels) :
    UsesOwn (run (boot config world.fresh) labels).view.log := by
  have start : Isolated (boot config world.fresh).view := by
    refine ⟨⟨?_, ?_, ?_⟩, ?_, ?_, trivial⟩
    · intro row member
      cases member
    · intro userId id value image cached
      cases cached
    · intro userId key value result list cached
      cases cached
    · intro event member
      cases member
    · intro entry member
      cases member
  intro newer event older split
  have used := (isolated_kept.run start labels creates).used
  rw [split] at used
  exact used.of_suffix event rfl

/-- A task is created, its image is stored and its binary is read. -/
def binaryRun : List (backend defaultConfig).Label :=
  finishRun ++ .start (.getBinaryById 1 1) :: succeeds 2 2

/-- An image of user 2 is stored. User 1 then creates a task whose request names
that image, cancels it and deletes it. -/
def forgedRun : List (backend defaultConfig).Label :=
  .start (.create 2 (promptPayload "a") false) :: succeeds 0 5 ++
    .start (.workerTurn 0) :: acts 1 [refused, {}, {}, {}] ++ acts 1 storing ++
    acts 1 [{}, refused] ++
    .start (.create 1 (.object [("prompt", .string "abc"), ("request_id", .string "b"),
      ("storage_key", .string "images/2/a.png")]) false) :: succeeds 2 5 ++
    .start (.cancelById 1 2) :: succeeds 3 3 ++
    .start (.deleteById 1 2) :: succeeds 4 3

/-- The keys read or removed for each user. -/
def accesses (log : List (backend config).Entry) : List (Option Int × String) :=
  log.filterMap fun
    | .performed event =>
      match event.op with
      | .getObject key | .deleteObject key => some (event.call.user, key)
      | _ => none
    | _ => none

theorem images_isolated_binaryRun :
    accesses (run (boot defaultConfig World.empty.fresh) binaryRun).view.log =
        [(some 1, "images/1/a.png")] ∧
      UsesOwn (run (boot defaultConfig World.empty.fresh) binaryRun).view.log :=
  ⟨by decide +kernel, images_isolated World.empty binaryRun (by decide +kernel)⟩

/-- What is read or removed for a user lies in the user's directory, where the
user's operations use own objects only. -/
theorem inDirectory_of_accesses {log : List (backend config).Entry} (own : UsesOwn log)
    (used : (some userId, key) ∈ accesses log) : inDirectory userId key = true := by
  obtain ⟨entry, member, found⟩ := List.mem_filterMap.mp used
  obtain ⟨newer, older, split⟩ := List.append_of_mem member
  cases entry with
  | performed event =>
    have uses := own newer event older split
    simp only at found
    split at found
    · rename_i name op
      obtain ⟨user, rfl⟩ := Prod.mk.inj (Option.some.inj found)
      exact (uses userId user name (op ▸ .read name)).1.1
    · rename_i name op
      obtain ⟨user, rfl⟩ := Prod.mk.inj (Option.some.inj found)
      exact (uses userId user name (op ▸ .removed name)).1.1
    · cases found
  | _ => cases found

/-- A request makes the service remove the image of another user. -/
theorem images_unisolated : ¬ ∀ labels : List (backend defaultConfig).Label,
    UsesOwn (run (boot defaultConfig World.empty.fresh) labels).view.log := by
  intro claim
  have removed : (some 1, "images/2/a.png") ∈
      accesses (run (boot defaultConfig World.empty.fresh) forgedRun).view.log := by decide +kernel
  have inside := inDirectory_of_accesses (claim forgedRun) removed
  have outside : inDirectory 1 "images/2/a.png" = false := by decide +kernel
  rw [outside] at inside
  cases inside

end Text2Image
