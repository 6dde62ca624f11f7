import Text2Image.Models.ImageStorage
import Text2Image.Services.ImageCacheKey

/-! The operations the HTTP handlers call on behalf of a user. -/

set_option autoImplicit false

namespace Text2Image

open Concurrency TaskStatus

/-! ## Object storage -/

namespace ImageStorage

def getObject (key : String) : Program (Except String (Option String)) :=
  Prog.perform (I := interface) (.getObject key)

def deleteObject (key : String) : Program (Except String Bool) :=
  Prog.perform (I := interface) (.deleteObject key)

def putObject (key data : String) : Program (Except String Bool) :=
  Prog.perform (I := interface) (.putObject key data)

def getBytes (storageKey : String) : Program (Except String (Option String)) :=
  if storageKey.isEmpty then return .ok none
  else getObject storageKey

def presignUrl (storageKey : String) : Program (Except String String) :=
  Prog.perform (I := interface) (.presignGetUrl storageKey)

def remove (storageKey : String) : Program (Except String Bool) :=
  if storageKey.isEmpty then return .ok false
  else deleteObject storageKey

/-- Upload an image; the key it now has. -/
def store (userId : Int) (requestId rawBytes contentType : String) :
    Program (Except String String) := do
  if userId ≤ 0 then return .error "userId must be positive"
  else if rawBytes.isEmpty then return .error "rawBytes is empty"
  else
    let key := objectKey userId requestId contentType
    match ← putObject key rawBytes with
    | .error what => return .error what
    | .ok false => return .error ("failed to upload image to MinIO: " ++ key)
    | .ok true => return .ok key

end ImageStorage

namespace ImageService

/-! ## Validation -/

def kPromptMinLength : Nat := 3
def kPromptMaxLength : Nat := 1000
def kNegativePromptMaxLength : Nat := 500
def kMinImageSize : Int := 512
def kMaxImageSize : Int := 2048
def kImageSizeStep : Int := 64
def kMinNumSteps : Int := 1
def kMaxNumSteps : Int := 50
def kMaxRequestIdLength : Nat := 64

/-- `trimInPlace`: blanks of the C locale, at both ends. -/
def trim (s : String) : String :=
  String.ofList ((s.toList.dropWhile Chrono.isSpace).reverse.dropWhile Chrono.isSpace).reverse

def isAsciiAlnum (c : Char) : Bool := c.isAlphanum

def isValidRequestId (id : String) : Bool :=
  match id.toList with
  | [] => false
  | first :: rest =>
    id.utf8ByteSize ≤ kMaxRequestIdLength ∧ isAsciiAlnum first ∧
      (first :: rest).all fun c => isAsciiAlnum c ∨ c = '_' ∨ c = '-'

def badRequest (code message : String) : ServiceError := ⟨400, code, message, []⟩

/-- Width and height share their check. -/
def validSide (side : Int) : Bool :=
  kMinImageSize ≤ side ∧ side ≤ kMaxImageSize ∧ side % kImageSizeStep = 0

def trimmed (generation : ImageGeneration) : ImageGeneration :=
  { generation with
    prompt := trim generation.prompt
    negative_prompt := trim generation.negative_prompt
    request_id := trim generation.request_id }

/-- The check of `validateGenerationParams`, on texts already trimmed. -/
def validationError (generation : ImageGeneration) : Option ServiceError :=
  if ¬ generation.request_id.isEmpty ∧ ¬ isValidRequestId generation.request_id then
    some (badRequest "invalid_request_id"
      "request_id must match ^[A-Za-z0-9][A-Za-z0-9_-]\x7b0,63\x7d$")
  else if generation.prompt.isEmpty then
    some (badRequest "prompt_required" "prompt is required")
  else if generation.prompt.utf8ByteSize < kPromptMinLength ∨
      generation.prompt.utf8ByteSize > kPromptMaxLength then
    some (badRequest "invalid_prompt_length"
      s!"prompt length must be between {kPromptMinLength} and {kPromptMaxLength} characters")
  else if generation.negative_prompt.utf8ByteSize > kNegativePromptMaxLength then
    some (badRequest "invalid_negative_prompt_length"
      s!"negative_prompt must be at most {kNegativePromptMaxLength} characters")
  else if generation.num_steps < kMinNumSteps ∨ generation.num_steps > kMaxNumSteps then
    some (badRequest "invalid_num_steps"
      s!"num_steps must be between {kMinNumSteps} and {kMaxNumSteps}")
  else if ¬ validSide generation.width then
    some (badRequest "invalid_width"
      s!"width must be between {kMinImageSize} and {kMaxImageSize} and a multiple of {kImageSizeStep}")
  else if ¬ validSide generation.height then
    some (badRequest "invalid_height"
      s!"height must be between {kMinImageSize} and {kMaxImageSize} and a multiple of {kImageSizeStep}")
  else if generation.seed.any fun seed => seed < 0 then
    some (badRequest "invalid_seed" "seed must be >= 0")
  else none

/-! ## Errors -/

def unauthorized : ServiceError := ⟨401, "unauthorized", "unauthorized", []⟩

def mapRepoError (error : RepoError) : ServiceError :=
  match error.kind with
  | .DbUnavailable => ⟨503, "database_unavailable", "database is unavailable", []⟩
  | .ConstraintViolation =>
    ⟨409, "database_constraint_violation", "database constraint violation", []⟩
  | .Serialization => ⟨500, "database_serialization_failed", "failed to read database row", []⟩
  | .QueryFailed => ⟨500, "database_query_failed", "database query failed", []⟩
  | .Internal => ⟨500, "database_internal_error", "database operation failed", []⟩

def notFound (code message : String) : ServiceError := ⟨404, code, message, []⟩

def withStatus (error : ServiceError) (image : ImageGeneration) : ServiceError :=
  { error with details := error.details ++ [("status", .string (statusToString image.status))] }

/-! ## Cache and presigned urls -/

variable (config : Config)

def presignWithCache (storageKey : String) : Program (Except String String) := do
  if storageKey.isEmpty then return .ok ""
  else if config.presign_ttl ≤ 0 then ImageStorage.presignUrl storageKey
  else
    match ← cacheGet (ImageCache.presignKey storageKey) with
    | some (.text url) => return .ok url
    | _ =>
      match ← ImageStorage.presignUrl storageKey with
      | .error what => return .error what
      | .ok url =>
        if url.isEmpty then return .ok url
        else
          let _ ← cacheSetex (ImageCache.presignKey storageKey) (.text url) config.presign_ttl
          return .ok url

/-- A url that cannot be signed leaves the image as it was. -/
def presignInPlace (image : ImageGeneration) : Program ImageGeneration := do
  match ← presignWithCache config image.storage_key with
  | .ok url => return { image with image_url := url }
  | .error _ => return image

def presignStored (image : ImageGeneration) : Program ImageGeneration :=
  if image.storage_key.isEmpty then return image else presignInPlace config image

def presignListImagesInPlace : List ImageGeneration → Program (List ImageGeneration)
  | [] => return []
  | image :: images => do
    let signed ← presignStored config image
    let rest ← presignListImagesInPlace images
    return signed :: rest

/-- What the cache may hold of an image: neither its bytes nor its url. -/
def sanitized (image : ImageGeneration) : ImageGeneration :=
  { image with image_bytes := "", image_url := "" }

def writeToCache (key : String) (image : ImageGeneration) : Program Unit := do
  let ttl := if image.status.isTerminal then ImageCache.kMetaTerminal else ImageCache.kMetaInflight
  let _ ← cacheSetex key (.json (sanitized image).toJson) ttl
  return ()

structure ListResult where
  content : List ImageGeneration
  total_elements : Int

def encodeList (result : ListResult) : Json :=
  .object [("total_elements", .integer result.total_elements),
    ("content", .array (result.content.map fun image => (sanitized image).toJson))]

/-- Decode a cached page; `none` where parsing it throws. -/
def decodeList : CacheValue → Option ListResult
  | .json (.object members) =>
    match (Json.object members).find "content" with
    | some (.array items) =>
      some ⟨items.map ImageGeneration.fromJson,
        ((Json.object members).readInt64_tAny ["total_elements"]).getD 0⟩
    | _ => some ⟨[], ((Json.object members).readInt64_tAny ["total_elements"]).getD 0⟩
  | _ => none

theorem decodeList_encodeList (result : ListResult) : decodeList (.json (encodeList result)) =
    some ⟨result.content.map fun image => .fromJson (sanitized image).toJson,
      wrapInt 64 result.total_elements⟩ := by
  simp [decodeList, encodeList, Json.find, Json.readInt64_tAny, List.lookup_cons]

/-- `listTtlWithJitter`: between 60 and 70 seconds. -/
def writeListCache (key : String) (result : ListResult) : Program Unit := do
  let jitter : Nat ← drawRandom
  let ttl := ImageCache.kListBase + (jitter : Int) % (ImageCache.kListJitterMax + 1)
  let _ ← cacheSetex key (.json (encodeList result)) ttl
  return ()

/-- Decode a cached task; `none` where parsing it throws. -/
def decodeImage : CacheValue → Option ImageGeneration
  | .text _ => none
  | .json value => some (.fromJson value)
  | .counter value => some (.fromJson (.integer value))

/-! ## Operations -/

def hexDigits (value : Nat) : String := String.ofList (Nat.toDigits 16 value)

def buildRequestId : Program String := do
  let now ← readClock
  let random ← drawRandom
  return s!"img-{now.tdiv 1000000}-{hexDigits random}"

def requestIdOf (generation : ImageGeneration) : Program String :=
  if generation.request_id.isEmpty then buildRequestId else return generation.request_id

/-- The fields `create` sets itself, whatever the payload said. -/
def prepared (generation : ImageGeneration) (userId : Int) (now : TimePoint) (requestId : String) :
    ImageGeneration :=
  { generation with
    user_id := userId
    created_at := now
    request_id := requestId
    status := Queued
    error_message := ""
    completed_at := none
    image_url := ""
    image_bytes := ""
    generation_time := 0 }

/-- The quota check; administrators and a limit of zero are exempt. -/
def checkActiveTasks (userId : Int) (isAdmin : Bool) : Program (Option ServiceError) := do
  let maxActive := config.max_active_tasks_per_user
  if ¬ isAdmin ∧ maxActive > 0 then
    match ← ImageRepo.countActiveTasksByUserId userId with
    | .error error => return some (mapRepoError error)
    | .ok activeTasks =>
      if activeTasks ≥ maxActive then
        return some ⟨429, "too_many_active_tasks",
          s!"too many active image tasks, limit is {maxActive}",
          [("maxActiveTasks", .integer maxActive), ("activeTasks", .integer activeTasks)]⟩
      else return none
  else return none

/-- After the INSERT: tell the subscribers, refresh the caches, queue the task. -/
def announceCreated (userId : Int) (generation : ImageGeneration) :
    Program (ServiceResult ImageGeneration) := do
  match ← publishTaskUpdated generation with
  | .error _ =>
    return .error ⟨500, "image_task_enqueue_failed", "failed to enqueue image task", []⟩
  | .ok _ =>
    writeToCache (ImageCache.metaKey userId generation.id) generation
    let _ ← invalidateListCacheFor userId
    enqueueTask generation.id
    return .ok generation

def create (userId : Int) (payload : Json) (isAdmin : Bool) :
    Program (ServiceResult ImageGeneration) := do
  if userId ≤ 0 then return .error unauthorized
  else
    let generation := trimmed (.fromJson payload)
    match validationError generation with
    | some error => return .error error
    | none =>
      match ← checkActiveTasks config userId isAdmin with
      | some error => return .error error
      | none =>
        let now ← readClock
        let requestId ← requestIdOf generation
        let generation := prepared generation userId now requestId
        match ← ImageRepo.findByRequestIdAndUserId generation.request_id userId with
        | .error error => return .error (mapRepoError error)
        | .ok (some existing) => return .ok existing
        | .ok none =>
          match ← ImageRepo.insert generation with
          | .error error => return .error (mapRepoError error)
          | .ok insertedId => announceCreated userId { generation with id := insertedId }

/-- A page from the database, cached before its urls are signed. -/
def listFromDb (key : String) (query : Program (RepoResult ImageRepo.PageResult)) :
    Program (ServiceResult ListResult) := do
  match ← query with
  | .error error => return .error (mapRepoError error)
  | .ok page =>
    let result : ListResult := ⟨page.content, page.total_elements⟩
    writeListCache key result
    let content ← presignListImagesInPlace config result.content
    return .ok { result with content := content }

/-- The part `listMy` and `listMyByStatus` share: cache, else database. -/
def listCached (key : String) (query : Program (RepoResult ImageRepo.PageResult)) :
    Program (ServiceResult ListResult) := do
  match ← cacheGet key with
  | none => listFromDb config key query
  | some cached =>
    match decodeList cached with
    | some result =>
      let content ← presignListImagesInPlace config result.content
      return .ok { result with content := content }
    | none =>
      let _ ← cacheDel key
      listFromDb config key query

def listMy (userId page size : Int) : Program (ServiceResult ListResult) := do
  if userId ≤ 0 then return .error unauthorized
  else
    let page := ImageRepo.normalizePage page
    let size := ImageRepo.normalizeSize size
    let version ← getListVersion userId
    listCached config (ImageCache.listMyKey userId version page size)
      (ImageRepo.findByUserId userId page size)

def listMyByStatus (userId : Int) (status : String) (page size : Int) :
    Program (ServiceResult ListResult) := do
  if userId ≤ 0 then return .error unauthorized
  else
    let target := normalizeTaskStatus status
    let page := ImageRepo.normalizePage page
    let size := ImageRepo.normalizeSize size
    let version ← getListVersion userId
    listCached config (ImageCache.listMyStatusKey userId version target page size)
      (ImageRepo.findByUserIdAndStatus userId target page size)

def isNullMarker : CacheValue → Bool
  | .text value => value = ImageCache.kNullMarker
  | _ => false

/-- `getById` when the cache gave nothing usable. -/
def getFromDb (userId id : Int) (includeImagePayload : Bool) :
    Program (ServiceResult ImageGeneration) := do
  let key := ImageCache.metaKey userId id
  match ← ImageRepo.findByIdAndUserId id userId with
  | .error error => return .error (mapRepoError error)
  | .ok none =>
    let _ ← cacheSetex key (.text ImageCache.kNullMarker) ImageCache.kNullMarkerTtl
    return .error (notFound "image_not_found" "image not found")
  | .ok (some generation) =>
    writeToCache key generation
    if includeImagePayload ∧ ¬ generation.storage_key.isEmpty then
      let signed ← presignInPlace config generation
      return .ok signed
    else return .ok generation

def getById (userId id : Int) (includeImagePayload : Bool) :
    Program (ServiceResult ImageGeneration) := do
  if userId ≤ 0 then return .error unauthorized
  else
    match ← cacheGet (ImageCache.metaKey userId id) with
    | none => getFromDb config userId id includeImagePayload
    | some cached =>
      if isNullMarker cached then return .error (notFound "image_not_found" "image not found")
      else
        match decodeImage cached with
        | some image =>
          if includeImagePayload ∧ ¬ image.storage_key.isEmpty then
            let signed ← presignInPlace config image
            return .ok signed
          else return .ok image
        | none =>
          let _ ← cacheDel (ImageCache.metaKey userId id)
          getFromDb config userId id includeImagePayload

/-- Redis clean-up after a cancellation. -/
def dropFromQueue (id : Int) : Program Unit := do
  if ← redisAvailable then
    let _ ← (Prog.perform (I := interface) (.removeFromQueue id) : Program Bool)
    let _ ← (Prog.perform (I := interface) (.forceReleaseLease id) : Program Bool)
    return ()
  else return ()

def cancelById (userId id : Int) : Program (ServiceResult ImageGeneration) := do
  if userId ≤ 0 then return .error unauthorized
  else
    match ← ImageRepo.findByIdAndUserId id userId with
    | .error error => return .error (mapRepoError error)
    | .ok none => return .error (notFound "task_not_found" "task not found")
    | .ok (some current) =>
      if ¬ current.status.canCancel then
        return .error (withStatus (badRequest "task_cancel_not_allowed"
          "task is already completed and cannot be cancelled") current)
      else
        match ← ImageRepo.cancelByIdAndUserId id userId with
        | .error error => return .error (mapRepoError error)
        | .ok none => return .error ⟨409, "task_cancel_conflict", "task cannot be canceled", []⟩
        | .ok (some updated) =>
          dropFromQueue id
          match ← publishTaskUpdated updated with
          | .error _ => return .error ⟨500, "task_cancel_failed", "failed to cancel task", []⟩
          | .ok _ =>
            let _ ← cacheDel (ImageCache.metaKey userId id)
            let _ ← invalidateListCacheFor userId
            return .ok updated

def retryById (userId id : Int) : Program (ServiceResult ImageGeneration) := do
  if userId ≤ 0 then return .error unauthorized
  else
    match ← ImageRepo.findByIdAndUserId id userId with
    | .error error => return .error (mapRepoError error)
    | .ok none => return .error (notFound "task_not_found" "task not found")
    | .ok (some current) =>
      if ¬ current.status.canRetry current.retry_count current.max_retries then
        return .error ⟨409, "task_retry_not_allowed",
          "only failed, timeout or canceled tasks can be retried",
          [("status", .string (statusToString current.status)),
            ("retryCount", .integer current.retry_count),
            ("maxRetries", .integer current.max_retries)]⟩
      else
        match ← ImageRepo.retryByIdAndUserId id userId with
        | .error error => return .error (mapRepoError error)
        | .ok none => return .error ⟨409, "task_retry_conflict", "task cannot be retried", []⟩
        | .ok (some updated) =>
          match ← publishTaskUpdated updated with
          | .error _ => return .error ⟨500, "task_retry_failed", "failed to retry task", []⟩
          | .ok _ =>
            let _ ← cacheDel (ImageCache.metaKey userId id)
            let _ ← invalidateListCacheFor userId
            enqueueTask id
            return .ok updated

structure BinaryResult where
  body : String
  content_type : String

def getBinaryById (userId id : Int) : Program (ServiceResult BinaryResult) := do
  if userId ≤ 0 then return .error unauthorized
  else
    match ← ImageRepo.findByIdAndUserId id userId with
    | .error error => return .error (mapRepoError error)
    | .ok none => return .error (notFound "image_not_found" "image not found")
    | .ok (some generation) =>
      if ¬ generation.status.canReturnBinary generation.storage_key then
        return .error (withStatus
          ⟨409, "image_binary_not_ready", "image binary is not ready", []⟩ generation)
      else
        match ← ImageStorage.getBytes generation.storage_key with
        | .error _ =>
          return .error ⟨500, "image_storage_read_failed", "failed to load image binary", []⟩
        | .ok none =>
          return .error ⟨500, "image_storage_read_failed", "failed to load image binary",
            [("storageKey", .string generation.storage_key)]⟩
        | .ok (some bytes) =>
          return .ok ⟨bytes, ImageStorage.contentTypeForKey generation.storage_key⟩

def removeStored (storageKey : String) : Program Unit := do
  if storageKey.isEmpty then return ()
  else
    let _ ← ImageStorage.remove storageKey
    return ()

def dropPresigned (storageKey : String) : Program Unit := do
  if storageKey.isEmpty then return ()
  else
    let _ ← cacheDel (ImageCache.presignKey storageKey)
    return ()

/-- After the DELETE: the object, the cached task and url, the list pages. -/
def cleanUpDeleted (userId id : Int) (storageKey : String) : Program Unit := do
  removeStored storageKey
  let _ ← cacheDel (ImageCache.metaKey userId id)
  dropPresigned storageKey
  let _ ← invalidateListCacheFor userId
  return ()

def deleteById (userId id : Int) : Program (ServiceResult Unit) := do
  if userId ≤ 0 then return .error unauthorized
  else
    match ← ImageRepo.findByIdAndUserId id userId with
    | .error error => return .error (mapRepoError error)
    | .ok none => return .error (notFound "image_not_found" "image not found")
    | .ok (some currentImage) =>
      if ¬ currentImage.status.canDelete then
        return .error (withStatus (badRequest "task_delete_not_allowed"
          "only completed tasks can be deleted") currentImage)
      else
        match ← ImageRepo.deleteByIdAndUserId id userId with
        | .error error => return .error (mapRepoError error)
        | .ok false =>
          return .error ⟨409, "task_delete_conflict",
            "task cannot be deleted in its current state", []⟩
        | .ok true =>
          cleanUpDeleted userId id currentImage.storage_key
          return .ok ()

end ImageService

end Text2Image
