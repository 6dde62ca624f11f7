import Text2Image.Concurrency.Preservation
import Text2Image.Services.Backend

/-! What each call may do, given what it was answered before.

The definitions only speak of the operations and answers of one call; that the
programs keep to them is proved in the modules that follow.
-/

set_option autoImplicit false

namespace Text2Image

open Concurrency TaskStatus ImageCache

/-- What a call has performed so far, newest first. -/
abbrev Past := List (Taken interface)

namespace Past

variable (past : Past)

def answered (op : Op) (answer : op.Answer) : Prop := (⟨op, answer⟩ : Taken interface) ∈ past

/-- The statement was answered without an error. -/
def got (statement : Stmt) (answer : statement.Answer) : Prop :=
  past.answered (.sql statement) (.ok answer)

end Past

/-! ## Objects -/

/-- A key that names an object. -/
def objectKeyOf (key : String) : Option String := if key = "" then none else some key

theorem objectKeyOf_ne {key : String} (nonempty : key ≠ "") : objectKeyOf key = some key := if_neg nonempty

/-- The key a process has stored an object under with its last operation. -/
def justStored : Past → Option String
  | ⟨.putObject key _, answer⟩ :: _ =>
    match (answer : Except String Bool) with
    | .ok true => some key
    | _ => none
  | _ => none

theorem justStored_put (key data : String) (older : Past) :
    justStored ((⟨.putObject key data, .ok true⟩ : Taken interface) :: older) = some key := rfl

/-- The key of the row a process has read with its last operation. -/
def justRead : Past → Option String
  | ⟨.sql (.selectByIdAndUserId _ _), answer⟩ :: _ =>
    match (answer : RepoResult (Option Row)) with
    | .ok (some row) => objectKeyOf row.storage_key
    | _ => none
  | _ => none

/-- The key whose object a process may have to remove: that of an image it has stored, of one it could
not finish with, or of the row it has deleted.
-/
def keyInHand : Past → Option String
  | [] => none
  | ⟨.putObject key data, answer⟩ :: older => justStored (⟨.putObject key data, answer⟩ :: older)
  | ⟨.sql (.finishClaimedTask image), answer⟩ :: _ =>
    match (answer : RepoResult Nat) with
    | .ok (_ + 1) => none
    | _ => objectKeyOf image.storage_key
  | ⟨.sql (.deleteByIdAndUserId _ _), answer⟩ :: older =>
    match (answer : RepoResult Nat) with
    | .ok (_ + 1) => justRead older
    | _ => none
  | ⟨.deleteObject _, _⟩ :: _ => none
  | _ :: older => keyInHand older

theorem keyInHand_of_justStored {past : Past} {key : String} (stored : justStored past = some key) :
    keyInHand past = some key := by
  unfold justStored at stored
  split at stored
  · exact stored
  · cases stored

/-- The process has the key in hand, and more than its store is behind it. -/
def Removable (past : Past) (key : String) : Prop :=
  keyInHand past = some key ∧ justStored past = none

/-! ## Requests -/

/-- A storage key the call has seen in an image of this user: in a row, in its
own INSERT, or in the cache. -/
inductive KeyKnown (userId : Int) (past : Past) : String → Prop where
  | row {id : Int} {row : Row} (read : past.got (.selectByIdAndUserId id userId) (some row)) :
      KeyKnown userId past row.storage_key
  | page {status : Option TaskStatus} {limit offset : Int} {rows : List (Row × Int)}
      {entry : Row × Int} (read : past.got (.selectPage userId status limit offset) rows)
      (member : entry ∈ rows) : KeyKnown userId past entry.1.storage_key
  | inserted {values : Row} (read : past.got (.insert values) ()) (own : values.user_id = userId) :
      KeyKnown userId past values.storage_key
  | cached {id : Int} {value : CacheValue} {image : ImageGeneration}
      (read : past.answered (.cacheGet (ImageCache.metaKey userId id)) (some value))
      (decoded : ImageService.decodeImage value = some image) :
      KeyKnown userId past image.storage_key
  | cachedPage {key : String} {value : CacheValue} {result : ImageService.ListResult}
      {image : ImageGeneration} (list : isListKey userId key)
      (read : past.answered (.cacheGet key) (some value))
      (decoded : ImageService.decodeList value = some result) (member : image ∈ result.content) :
      KeyKnown userId past image.storage_key

theorem KeyKnown.grow {userId : Int} {past later : Past} {key : String} (grown : past ⊆ later)
    (known : KeyKnown userId past key) : KeyKnown userId later key := by
  cases known with
  | row read => exact .row (grown read)
  | page read member => exact .page (grown read) member
  | inserted read own => exact .inserted (grown read) own
  | cached read decoded => exact .cached (grown read) decoded
  | cachedPage list read decoded member => exact .cachedPage list (grown read) decoded member

/-- The cache entries a request may read. -/
def mayReadCache (userId : Int) (past : Past) (key : String) : Prop :=
  (∃ id, key = ImageCache.metaKey userId id) ∨ isListKey userId key ∨
    ∃ storageKey, key = ImageCache.presignKey storageKey ∧ storageKey ≠ "" ∧
      KeyKnown userId past storageKey

/-- The cache entries a request may write. -/
inductive CacheWrite (userId : Int) (past : Past) : String → CacheValue → Prop where
  | missing (id : Int) :
      CacheWrite userId past (ImageCache.metaKey userId id) (.text ImageCache.kNullMarker)
  | task (id : Int) (image : ImageGeneration) (known : KeyKnown userId past image.storage_key) :
      CacheWrite userId past (ImageCache.metaKey userId id)
        (.json (ImageService.sanitized image).toJson)
  | page (key : String) (result : ImageService.ListResult) (list : isListKey userId key)
      (known : ∀ image ∈ result.content, KeyKnown userId past image.storage_key) :
      CacheWrite userId past key (.json (ImageService.encodeList result))
  | url (storageKey url : String) (known : KeyKnown userId past storageKey) :
      CacheWrite userId past (ImageCache.presignKey storageKey) (.text url)

variable (config : Config)

/-- The quota check has let the call pass. -/
def withinQuota (userId : Int) (isAdmin : Bool) (past : Past) : Prop :=
  isAdmin = true ∨ config.max_active_tasks_per_user ≤ 0 ∨
    ∃ active : Int, past.got (.countActiveTasks userId) active ∧
      active < config.max_active_tasks_per_user

theorem withinQuota.grow {config : Config} {userId : Int} {isAdmin : Bool} {past later : Past}
    (within : withinQuota config userId isAdmin past) (grown : past ⊆ later) :
    withinQuota config userId isAdmin later := by
  rcases within with admin | unlimited | ⟨active, counted, below⟩
  · exact .inl admin
  · exact .inr (.inl unlimited)
  · exact .inr (.inr ⟨active, grown counted, below⟩)

/-- The values `create` inserts for this payload. -/
def CreatesRow (userId : Int) (payload : Json) (values : Row) : Prop :=
  ∃ now createdAt requestId, values = ImageRepo.insertValues
    (ImageService.prepared (ImageService.trimmed (.fromJson payload)) userId now requestId) createdAt

/-! ## Workers -/

/-- The row a turn works on: read back after its own claim has changed a row. -/
inductive Claimed (workerId : String) (past : Past) : Row → Prop where
  | next {now expiresAt : DbTime} {changed : Nat} {row : Row}
      (claim : past.got (.claimNextTask workerId now expiresAt) changed) (some' : 0 < changed)
      (read : past.got (.readClaimed workerId expiresAt) (some row)) : Claimed workerId past row
  | byId {id : Int} {now expiresAt : DbTime} {changed : Nat} {row : Row}
      (claim : past.got (.claimTaskById id workerId now expiresAt) changed) (some' : 0 < changed)
      (read : past.got (.readClaimedById id workerId) (some row)) : Claimed workerId past row

theorem Claimed.grow {workerId : String} {past later : Past} {row : Row} (grown : past ⊆ later)
    (claimed : Claimed workerId past row) : Claimed workerId later row := by
  cases claimed with
  | next claim some' read => exact .next (grown claim) some' (grown read)
  | byId claim some' read => exact .byId (grown claim) some' (grown read)

/-- The row's identity, carried by every copy of it a turn makes. -/
structure SameTask (row : Row) (image : ImageGeneration) : Prop where
  id : image.id = row.id
  user_id : image.user_id = row.user_id
  worker_id : image.worker_id = row.worker_id.getD ""

/-- An image of this user has just been stored under the key. -/
def StoredFor (past : Past) (userId : Int) (key : String) : Prop :=
  (∃ requestId, key = ImageStorage.objectKey userId requestId "image/png") ∧
    ∃ data older, past = (⟨.putObject key data, .ok true⟩ : Taken interface) :: older

/-- What a turn may write back for its row. A success is written right after
its object was stored. -/
structure Concludes (past : Past) (row : Row) (image : ImageGeneration) : Prop where
  same : SameTask row image
  terminal : image.status.isTerminal = true
  completed : image.completed_at.isSome = true
  stored : image.status = Success → ∃ data older,
    past = (⟨.putObject image.storage_key data, .ok true⟩ : Taken interface) :: older
  key : image.storage_key = row.storage_key ∨ image.storage_key = "" ∨
    StoredFor past row.user_id image.storage_key

/-! ## The protocol -/

/-- The statements of a call; reading statements of a request name its user. -/
def Call.sends (past : Past) : Call → Stmt → Prop
  | .create userId payload isAdmin, .insert values =>
    CreatesRow userId payload values ∧ withinQuota config userId isAdmin past
  | .create userId .., .countActiveTasks user => user = userId
  | .create userId .., .selectByRequestIdAndUserId _ user => user = userId
  | .listMy userId .., .selectPage user .. | .listMy userId .., .countByUser user _
  | .listMyByStatus userId .., .selectPage user ..
  | .listMyByStatus userId .., .countByUser user _ => user = userId
  | .getById userId id _, .selectByIdAndUserId task user
  | .getBinaryById userId id, .selectByIdAndUserId task user
  | .cancelById userId id, .selectByIdAndUserId task user
  | .retryById userId id, .selectByIdAndUserId task user
  | .deleteById userId id, .selectByIdAndUserId task user
  | .cancelById userId id, .cancelByIdAndUserId _ task user
  | .retryById userId id, .retryByIdAndUserId task user
  | .deleteById userId id, .deleteByIdAndUserId task user => task = id ∧ user = userId
  | .workerTurn index, .claimNextTask worker .. | .workerTurn index, .readClaimed worker _
  | .workerTurn index, .claimTaskById _ worker .. | .workerTurn index, .readClaimedById _ worker =>
    worker = TaskEngine.workerId config index
  | .workerTurn index, .finishClaimedTask image =>
    ∃ row, Claimed (TaskEngine.workerId config index) past row ∧ Concludes past row image
  | .workerTurn index, .deferClaimedTask id userId worker _ _ =>
    ∃ row, Claimed (TaskEngine.workerId config index) past row ∧ id = row.id ∧
      userId = row.user_id ∧ worker = TaskEngine.workerId config index ∧
      row.retry_count < model_health.kMaxModelHealthAttempts - 1
  | .leaseExpiryTurn, .selectExpired .. | .leaseExpiryTurn, .requeueExpired _
  | .leaseExpiryTurn, .timeoutExpired _ | .leaseExpiryTurn, .selectQueuedIds
  | .recoverOrphanedTasks, .selectQueuedIds => True
  | _, _ => False

/-- The key of an object that the call has read in its row. -/
def KeyShown (userId id : Int) (past : Past) (key : String) : Prop :=
  key ≠ "" ∧ ∃ row, past.got (.selectByIdAndUserId id userId) (some row) ∧ row.storage_key = key

/-- The object operations of a call. -/
def Call.stores (past : Past) : Call → Op → Prop
  | .workerTurn index, .putObject key _ =>
    ∃ row requestId, Claimed (TaskEngine.workerId config index) past row ∧ 0 < row.user_id ∧
      key = ImageStorage.objectKey row.user_id requestId "image/png"
  | .workerTurn _, .deleteObject key => Removable past key
  | .deleteById userId id, .deleteObject key =>
    Removable past key ∧ KeyShown userId id past key
  | .getBinaryById userId id, .getObject key => KeyShown userId id past key
  | .listMy userId .., .presignGetUrl key | .listMyByStatus userId .., .presignGetUrl key
  | .getById userId .., .presignGetUrl key => key ≠ "" ∧ KeyKnown userId past key
  | _, _ => False

def Call.protocol (call : Call) : Protocol interface := fun past op =>
  match op with
  | .sql statement => call.sends config past statement
  | .cacheGet key => ∃ userId, call.user = some userId ∧ mayReadCache userId past key
  | .cacheSetex key value _ => ∃ userId, call.user = some userId ∧ CacheWrite userId past key value
  | .startLeaseKeeper id userId worker =>
    ∃ index row, call = .workerTurn index ∧ worker = TaskEngine.workerId config index ∧
      Claimed worker past row ∧ id = row.id ∧ userId = row.user_id
  | .putObject .. | .getObject _ | .presignGetUrl _ | .deleteObject _ => call.stores config past op
  | _ => True

/-! ## Who sends a statement -/

variable {config} {call : Call} {past : Past}

theorem sends_insert {values : Row} (sends : call.sends config past (.insert values)) :
    ∃ userId payload isAdmin, call = .create userId payload isAdmin ∧
      CreatesRow userId payload values ∧ withinQuota config userId isAdmin past := by
  cases call with
  | create userId payload isAdmin => exact ⟨userId, payload, isAdmin, rfl, sends⟩
  | _ => exact sends.elim

theorem sends_cancel {now : DbTime} {id userId : Int}
    (sends : call.sends config past (.cancelByIdAndUserId now id userId)) :
    call = .cancelById userId id := by
  cases call with
  | cancelById user task =>
    obtain ⟨rfl, rfl⟩ := sends
    rfl
  | _ => exact sends.elim

theorem sends_retry {id userId : Int} (sends : call.sends config past (.retryByIdAndUserId id userId)) :
    call = .retryById userId id := by
  cases call with
  | retryById user task =>
    obtain ⟨rfl, rfl⟩ := sends
    rfl
  | _ => exact sends.elim

theorem sends_delete {id userId : Int}
    (sends : call.sends config past (.deleteByIdAndUserId id userId)) :
    call = .deleteById userId id := by
  cases call with
  | deleteById user task =>
    obtain ⟨rfl, rfl⟩ := sends
    rfl
  | _ => exact sends.elim

theorem sends_finish {image : ImageGeneration}
    (sends : call.sends config past (.finishClaimedTask image)) :
    ∃ index row, call = .workerTurn index ∧ Claimed (TaskEngine.workerId config index) past row ∧
      Concludes past row image := by
  cases call with
  | workerTurn index =>
    obtain ⟨row, claimed, concludes⟩ := sends
    exact ⟨index, row, rfl, claimed, concludes⟩
  | _ => exact sends.elim

theorem sends_defer {id userId : Int} {workerId failureCode errorMessage : String}
    (sends : call.sends config past
      (.deferClaimedTask id userId workerId failureCode errorMessage)) :
    ∃ index row, call = .workerTurn index ∧ Claimed (TaskEngine.workerId config index) past row ∧
      id = row.id ∧ userId = row.user_id ∧ workerId = TaskEngine.workerId config index ∧
      row.retry_count < model_health.kMaxModelHealthAttempts - 1 := by
  cases call with
  | workerTurn index =>
    obtain ⟨row, rest⟩ := sends
    exact ⟨index, row, rfl, rest⟩
  | _ => exact sends.elim

theorem sends_claimNext {workerId : String} {now expiresAt : DbTime}
    (sends : call.sends config past (.claimNextTask workerId now expiresAt)) :
    ∃ index, call = .workerTurn index ∧ workerId = TaskEngine.workerId config index := by
  cases call with
  | workerTurn index => exact ⟨index, rfl, sends⟩
  | _ => exact sends.elim

theorem sends_claimById {id : Int} {workerId : String} {now expiresAt : DbTime}
    (sends : call.sends config past (.claimTaskById id workerId now expiresAt)) :
    ∃ index, call = .workerTurn index ∧ workerId = TaskEngine.workerId config index := by
  cases call with
  | workerTurn index => exact ⟨index, rfl, sends⟩
  | _ => exact sends.elim

/-! ## What programs yield -/

/-- Nothing is asked of the operations; only the value matters. -/
abbrev Gives {α : Type} (program : Program α) (past : Past) (post : Past → α → Prop) : Prop :=
  program.Follows (fun _ _ => True) post past

theorem gives_sql (s : Stmt) :
    Gives (sql s) past fun later answer => later = (⟨.sql s, answer⟩ : Taken interface) :: past :=
  .call trivial fun _ => .done rfl

/-- What an UPDATE reports is whether it has changed anything. -/
theorem gives_updates (s : Stmt) (counts : s.Answer = Nat) :
    Gives (ImageRepo.updates s counts) past fun later result => ∃ answer : RepoResult s.Answer,
      later = (⟨.sql s, answer⟩ : Taken interface) :: past ∧
        result = answer.map fun changed => decide ((counts ▸ changed : Nat) > 0) := by
  unfold ImageRepo.updates
  apply (gives_sql _).bind
  rintro later answer _ rfl
  cases answer with
  | error error => exact .done ⟨_, rfl, rfl⟩
  | ok changed => exact .done ⟨_, rfl, rfl⟩

theorem gives_deleteByIdAndUserId (id userId : Int) :
    Gives (ImageRepo.deleteByIdAndUserId id userId) past fun later result =>
      result = .ok true → ∃ count : Nat, 0 < count ∧
        later = (⟨.sql (.deleteByIdAndUserId id userId), .ok count⟩ : Taken interface) :: past := by
  refine (gives_updates (.deleteByIdAndUserId id userId) rfl).mono ?_
  rintro later result _ ⟨answer, rfl, rfl⟩ changed
  match answer with
  | .error error => cases changed
  | .ok (count : Nat) => exact ⟨count, of_decide_eq_true (Except.ok.inj changed), rfl⟩

theorem gives_findByIdAndUserId (id userId : Int) :
    Gives (ImageRepo.findByIdAndUserId id userId) past fun later result =>
      (∀ image, result = .ok (some image) → ∃ row, image = ImageRepo.rowToImageGeneration row ∧
        later = (⟨.sql (.selectByIdAndUserId id userId), .ok (some row)⟩ : Taken interface) :: past) := by
  unfold ImageRepo.findByIdAndUserId
  apply (gives_sql _).bind
  rintro later answer _ rfl
  match answer with
  | .error error =>
    refine .done ?_
    intro image same
    cases same
  | .ok (none : Option Row) =>
    refine .done ?_
    intro image same
    cases same
  | .ok (some row) =>
    refine .done ?_
    intro image same
    cases same
    exact ⟨row, rfl, rfl⟩

end Text2Image
