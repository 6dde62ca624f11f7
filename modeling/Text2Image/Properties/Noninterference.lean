import Text2Image.Properties.RowShape
import Text2Image.Services.Executions
import Text2Image.Services.Footprint

/-! Which columns of a new row depend on request fields that are not documented. -/

set_option autoImplicit false

namespace Text2Image

open Concurrency TaskStatus ImageService

variable {config : Config}

/-! ## Two payloads -/

/-- The payloads agree on every documented field. -/
def Json.AgreesWith (payload payload' : Json) : Prop :=
  ∀ key ∈ documentedFields, payload.find key = payload'.find key

/-- The columns of a new row that no documented field is for and that `create`
does not set itself. -/
structure ServerColumns where
  retry_count : Int
  max_retries : Int
  failure_code : String
  worker_id : String
  thumbnail_url : String
  storage_key : String
  started_at : Option DbTime
  cancelled_at : Option DbTime
  lease_expires_at : Option DbTime
  deriving DecidableEq

def ImageGeneration.serverColumns (image : ImageGeneration) : ServerColumns where
  retry_count := image.retry_count
  max_retries := image.max_retries
  failure_code := image.failure_code
  worker_id := image.worker_id
  thumbnail_url := image.thumbnail_url
  storage_key := image.storage_key
  started_at := image.started_at.map Chrono.toDbTime
  cancelled_at := image.cancelled_at.map Chrono.toDbTime
  lease_expires_at := image.lease_expires_at.map Chrono.toDbTime

/-- What `create` checks and keeps of a request. -/
structure SameRequest (image image' : ImageGeneration) : Prop where
  prompt : image.prompt = image'.prompt
  negative_prompt : image.negative_prompt = image'.negative_prompt
  num_steps : image.num_steps = image'.num_steps
  height : image.height = image'.height
  width : image.width = image'.width
  seed : image.seed = image'.seed
  request_id : image.request_id = image'.request_id

theorem Json.AgreesWith.sameRequest {payload payload' : Json} (agree : payload.AgreesWith payload') :
    SameRequest (.fromJson payload) (.fromJson payload') := by
  have text : ∀ keys : List String, (∀ key ∈ keys, key ∈ documentedFields) →
      payload.readStringAny keys = payload'.readStringAny keys :=
    fun keys inside => Json.readStringAny_congr fun key member => agree key (inside key member)
  have number : ∀ keys : List String, (∀ key ∈ keys, key ∈ documentedFields) →
      payload.readIntAny keys = payload'.readIntAny keys :=
    fun keys inside => Json.readIntAny_congr fun key member => agree key (inside key member)
  constructor
  · exact congrArg (·.getD "") (text ["prompt"] (by decide))
  · exact congrArg (·.getD "") (text ["negative_prompt", "negativePrompt"] (by decide))
  · exact congrArg (·.getD 8) (number ["num_steps", "numSteps"] (by decide))
  · exact congrArg (·.getD 768) (number ["height"] (by decide))
  · exact congrArg (·.getD 768) (number ["width"] (by decide))
  · exact number ["seed"] (by decide)
  · exact congrArg (·.getD "") (text ["request_id", "requestId"] (by decide))

theorem SameRequest.trimmed {image image' : ImageGeneration} (same : SameRequest image image') :
    SameRequest (trimmed image) (trimmed image') where
  prompt := congrArg trim same.prompt
  negative_prompt := congrArg trim same.negative_prompt
  num_steps := same.num_steps
  height := same.height
  width := same.width
  seed := same.seed
  request_id := congrArg trim same.request_id

theorem SameRequest.validationError {image image' : ImageGeneration}
    (same : SameRequest image image') : validationError image = validationError image' := by
  unfold ImageService.validationError
  rw [same.prompt, same.negative_prompt, same.num_steps, same.height, same.width, same.seed,
    same.request_id]

/-- Such requests become the same row. -/
theorem SameRequest.insertValues {image image' : ImageGeneration} (same : SameRequest image image')
    (columns : image.serverColumns = image'.serverColumns) (userId : Int) (now : TimePoint)
    (requestId : String) (createdAt : TimePoint) :
    ImageRepo.insertValues (prepared image userId now requestId) createdAt =
      ImageRepo.insertValues (prepared image' userId now requestId) createdAt := by
  simp only [ImageGeneration.serverColumns, ServerColumns.mk.injEq] at columns
  obtain ⟨retries, budget, failure, worker, thumbnail, storage, started, cancelled, expires⟩ := columns
  simp only [ImageRepo.insertValues, prepared, same.prompt, same.negative_prompt, same.num_steps, same.height,
    same.width, same.seed, retries, budget, failure, worker, thumbnail, storage, started, cancelled, expires]

theorem create_of_unknown {userId : Int} {payload : Json} {isAdmin : Bool} (unknown : userId ≤ 0) :
    create config userId payload isAdmin = .done (.error unauthorized) := if_pos unknown

theorem create_of_invalid {userId : Int} {payload : Json} {isAdmin : Bool} {error : ServiceError}
    (invalid : validationError (trimmed (.fromJson payload)) = some error) :
    create config userId payload isAdmin =
      .done (.error (if userId ≤ 0 then unauthorized else error)) := by
  unfold create
  split
  · rfl
  · dsimp only
    rw [invalid]
    rfl

/-! ## Inserted rows -/

/-- The rows a run of this program adds to the table, while others are at work. -/
def insertedRows {α : Type} (config : Config) (program : Program α)
    (steps : List ((World → World) × Choice)) (world : World) : List Row :=
  (program.performed (perform config 0) steps world).filterMap fun (op, choice, met) =>
    (executed op choice).bind fun s => s.inserted met.db

theorem insertedRows_call {α : Type} (op : Op) (next : interface.Answer op → Program α) (others : World → World)
    (choice : Choice) (later : List ((World → World) × Choice)) (world : World) :
    insertedRows config (Prog.call op next) ((others, choice) :: later) world =
      ((executed op choice).bind fun s => s.inserted (others world).db).toList ++
        insertedRows config (next (perform config 0 op choice (others world)).1) later
          (perform config 0 op choice (others world)).2 := by
  unfold insertedRows
  rw [Prog.performed, List.filterMap_cons]
  dsimp only
  cases (executed op choice).bind fun s => s.inserted (others world).db <;> rfl

/-- Programs that go on in different ways but insert the same rows then. -/
theorem insertedRows_bind {α β : Type} (program : Program β) {next next' : β → Program α}
    (same : ∀ value steps world, insertedRows config (next value) steps world = insertedRows config (next' value) steps world)
    (steps : List ((World → World) × Choice)) (world : World) :
    insertedRows config (program >>= next) steps world = insertedRows config (program >>= next') steps world := by
  induction program generalizing steps world with
  | done value => exact same value steps world
  | call op rest ih =>
    cases steps with
    | nil => rfl
    | cons step later => rw [Prog.call_bind, Prog.call_bind, insertedRows_call, insertedRows_call, ih]

theorem insertedRows_of_unnamed {α : Type} {program : Program α} (only : program.Only Unnamed)
    (steps : List ((World → World) × Choice)) (world : World) : insertedRows config program steps world = [] := by
  induction program generalizing steps world with
  | done value => rfl
  | call op rest ih =>
    cases steps with
    | nil => rfl
    | cons step later =>
      have nothing : (executed op step.2).bind (fun s => s.inserted (step.1 world).db) = none := by
        refine Option.bind_eq_none_iff.mpr fun s executes => ?_
        obtain ⟨rfl, _⟩ := executed_eq_some.mp executes
        cases s with
        | insert values => exact only.1.elim
        | _ => rfl
      rw [insertedRows_call, nothing, ih _ (only.2 _)]
      rfl

/-- Only the row is inserted. -/
theorem insert_congr {image image' : ImageGeneration} (created : image.created_at = image'.created_at)
    (values : ∀ createdAt, ImageRepo.insertValues image createdAt = ImageRepo.insertValues image' createdAt) :
    ImageRepo.insert image = ImageRepo.insert image' := by
  have createdAt : ImageRepo.createdAtOf image = ImageRepo.createdAtOf image' := by
    unfold ImageRepo.createdAtOf
    rw [created]
  unfold ImageRepo.insert
  rw [createdAt]
  congr 1
  funext createdAt
  rw [values]
  congr 1
  funext answer
  cases answer <;> rfl

/-- Requests that agree on the documented fields and on the server's columns insert the same rows. -/
theorem insertedRows_congr {payload payload' : Json} (agree : payload.AgreesWith payload')
    (columns : (ImageGeneration.fromJson payload).serverColumns =
      (ImageGeneration.fromJson payload').serverColumns) (userId : Int) (isAdmin : Bool)
    (steps : List ((World → World) × Choice)) (world : World) :
    insertedRows config (create config userId payload isAdmin) steps world =
      insertedRows config (create config userId payload' isAdmin) steps world := by
  have same := agree.sameRequest.trimmed
  have requestId : requestIdOf (trimmed (.fromJson payload)) =
      requestIdOf (trimmed (.fromJson payload')) := by
    unfold requestIdOf
    rw [same.request_id]
  unfold create
  dsimp only
  rw [same.validationError, requestId]
  split
  · rfl
  split
  · rfl
  refine insertedRows_bind _ (fun refused => ?_) steps world
  cases refused with
  | some error => exact fun _ _ => rfl
  | none =>
    refine insertedRows_bind _ fun now => insertedRows_bind _ fun requestId => insertedRows_bind _ fun existing => ?_
    match existing with
    | .error error => exact fun _ _ => rfl
    | .ok (some image) => exact fun _ _ => rfl
    | .ok none =>
      have inserts : ImageRepo.insert (prepared (trimmed (.fromJson payload)) userId now requestId) =
          ImageRepo.insert (prepared (trimmed (.fromJson payload')) userId now requestId) :=
        insert_congr rfl fun createdAt => same.insertValues columns userId now requestId createdAt
      rw [inserts]
      refine insertedRows_bind _ fun inserted => ?_
      cases inserted with
      | error error => exact fun _ _ => rfl
      | ok id =>
        -- what comes after the INSERT inserts nothing
        intro steps world
        rw [insertedRows_of_unnamed (unnamed_announceCreated _ _), insertedRows_of_unnamed (unnamed_announceCreated _ _)]

/-- An empty database, one tick after the epoch. -/
def firstTick : World := { World.empty with clock := 1 }

/-- Nobody interferes and everything succeeds. -/
def undisturbed (count : Nat) : List ((World → World) × Choice) := List.replicate count (id, {})

/-- The quota check passes on an empty database, with one operation or none. -/
theorem insertedRows_checkActiveTasks (config : Config) (userId : Int) (isAdmin : Bool) (count : Nat) :
    ∃ left, (left = count ∨ left = count + 1) ∧
      ∀ next : Option ServiceError → Program (ServiceResult ImageGeneration),
        insertedRows config (checkActiveTasks config userId isAdmin >>= next)
            (undisturbed (count + 1)) firstTick =
          insertedRows config (next none) (undisturbed left) firstTick := by
  unfold checkActiveTasks
  dsimp only
  split
  · rename_i limited
    refine ⟨count, .inl rfl, fun next => ?_⟩
    have below : ¬ (0 : Int) ≥ config.max_active_tasks_per_user := Int.not_le.mpr limited.2
    have passed : (if (0 : Int) ≥ config.max_active_tasks_per_user then
        return some ⟨429, "too_many_active_tasks",
          s!"too many active image tasks, limit is {config.max_active_tasks_per_user}",
          [("maxActiveTasks", .integer config.max_active_tasks_per_user),
            ("activeTasks", .integer 0)]⟩
        else return none : Program (Option ServiceError)) = return none := if_neg below
    exact congrArg (fun program => insertedRows config (program >>= next) (undisturbed count) firstTick)
      passed
  · exact ⟨count + 1, .inr rfl, fun _ => rfl⟩

/-- A valid request of a user inserts its row into an empty database. -/
theorem insertedRows_create (config : Config) {userId : Int} {payload : Json} (isAdmin : Bool)
    (known : 0 < userId) (valid : validationError (trimmed (.fromJson payload)) = none) :
    ∃ requestId, insertedRows config (create config userId payload isAdmin) (undisturbed 6) firstTick =
      [{ ImageRepo.insertValues (prepared (trimmed (.fromJson payload)) userId 1 requestId) 1 with
        id := 1 }] := by
  obtain ⟨left, count, same⟩ := insertedRows_checkActiveTasks config userId isAdmin 5
  unfold create
  generalize trimmed (.fromJson payload) = generation at valid ⊢
  rw [if_neg (Int.not_le.mpr known)]
  dsimp only
  rw [valid]
  dsimp only
  rw [same]
  dsimp only
  by_cases named : generation.request_id.isEmpty
  · have made : requestIdOf generation = buildRequestId := if_pos named
    rw [made]
    rcases count with rfl | rfl <;> exact ⟨_, rfl⟩
  · have given : requestIdOf generation = .done generation.request_id := if_neg named
    rw [given]
    rcases count with rfl | rfl <;> exact ⟨_, rfl⟩

/-- Equal rows come from equal server columns. -/
theorem serverColumns_of_row {payload payload' : Json} {userId now createdAt id : Int}
    {requestId requestId' : String}
    (same : ({ ImageRepo.insertValues (prepared (trimmed (.fromJson payload)) userId now requestId)
        createdAt with id := id } : Row) =
      { ImageRepo.insertValues (prepared (trimmed (.fromJson payload')) userId now requestId')
        createdAt with id := id }) :
    (ImageGeneration.fromJson payload).serverColumns =
      (ImageGeneration.fromJson payload').serverColumns := by
  unfold ImageGeneration.serverColumns
  congr 1
  · exact congrArg Row.retry_count same
  · exact congrArg Row.max_retries same
  · exact congrArg Row.failure_code same
  · exact Option.some.inj (congrArg Row.worker_id same)
  · exact congrArg Row.thumbnail_url same
  · exact congrArg Row.storage_key same
  · exact congrArg Row.started_at same
  · exact congrArg Row.cancelled_at same
  · exact congrArg Row.lease_expires_at same

/-! ## Noninterference -/

/-- Two requests that agree on the documented fields insert equal rows, whatever
happens around them, exactly if they are refused as unknown or invalid or agree on
the server's columns too. -/
theorem create_noninterference {payload payload' : Json} (agree : payload.AgreesWith payload')
    (userId : Int) (isAdmin : Bool) :
    (∀ steps world, insertedRows config (create config userId payload isAdmin) steps world =
      insertedRows config (create config userId payload' isAdmin) steps world) ↔
    userId ≤ 0 ∨ (validationError (trimmed (.fromJson payload))).isSome = true ∨
      (ImageGeneration.fromJson payload).serverColumns =
        (ImageGeneration.fromJson payload').serverColumns := by
  have checked := agree.sameRequest.trimmed.validationError
  constructor
  · intro equal
    by_cases known : 0 < userId
    · cases valid : validationError (trimmed (.fromJson payload)) with
      | some error => exact .inr (.inl rfl)
      | none =>
        obtain ⟨requestId, row⟩ := insertedRows_create config isAdmin known valid
        obtain ⟨requestId', row'⟩ := insertedRows_create config isAdmin known
          (checked.symm.trans valid)
        have same := row.symm.trans ((equal (undisturbed 6) firstTick).trans row')
        exact .inr (.inr (serverColumns_of_row (List.singleton_inj.mp same)))
    · exact .inl (Int.not_lt.mp known)
  · intro condition steps world
    rcases condition with unknown | invalid | columns
    · rw [create_of_unknown unknown, create_of_unknown unknown]
    · obtain ⟨error, invalid⟩ := Option.isSome_iff_exists.mp invalid
      rw [create_of_invalid invalid, create_of_invalid (checked.symm.trans invalid)]
    · exact insertedRows_congr agree columns userId isAdmin steps world

def plainPayload : Json := .object [("prompt", .string "abc")]

/-- The status is the server's to set, and it does. -/
def claimingSuccess : Json := .object [("prompt", .string "abc"), ("status", .string "success")]

theorem create_noninterference_status :
    insertedRows defaultConfig (create defaultConfig 1 plainPayload false) (undisturbed 6) firstTick =
      insertedRows defaultConfig (create defaultConfig 1 claimingSuccess false) (undisturbed 6)
        firstTick := by
  refine (create_noninterference ?_ 1 false).mpr (.inr (.inr ?_)) (undisturbed 6) firstTick
  · simp [Json.AgreesWith, documentedFields, plainPayload, claimingSuccess, Json.find, List.lookup_cons]
  · decide

/-- A retry budget, a storage key and a lease that nobody has granted. -/
def forgedPayload : Json :=
  .object [("prompt", .string "abc"), ("max_retries", .integer 1000),
    ("storage_key", .string "images/2/a.png"), ("lease_expires_at", .string "2099-01-01 00:00:00")]

/-- The row takes over what the payload says. -/
theorem create_interferes : plainPayload.AgreesWith forgedPayload ∧
    insertedRows defaultConfig (create defaultConfig 1 plainPayload false) (undisturbed 6) firstTick ≠
      insertedRows defaultConfig (create defaultConfig 1 forgedPayload false) (undisturbed 6)
        firstTick := by
  constructor
  · simp [Json.AgreesWith, documentedFields, plainPayload, forgedPayload, Json.find, List.lookup_cons]
  · decide +kernel

end Text2Image
