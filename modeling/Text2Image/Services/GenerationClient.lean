import Text2Image.Services.ImageService

/-! The client of the model service: one generation, the health check, and the
removal of an object whose task it could not finish.
-/

set_option autoImplicit false

namespace Text2Image

open Concurrency TaskStatus

namespace failure

def kPythonServiceRequestFailed : String := "python_service_request_failed"
def kPythonServiceEmptyResponse : String := "python_service_empty_response"
def kPythonServiceInvalidJson : String := "python_service_invalid_json"
def kPythonServiceException : String := "python_service_exception"
def kPythonServiceUnknownException : String := "python_service_unknown_exception"
def kMissingImagePayload : String := "missing_image_payload"
def kStorageWriteFailed : String := "storage_write_failed"
def kModelServiceUnavailable : String := "model_service_unavailable"

end failure

/-! ## Request ids in headers -/

namespace utils

def isAllowedChar (c : Char) : Bool :=
  c.isAlphanum ∨ c = '.' ∨ c = '_' ∨ c = ':' ∨ c = '-'

def kMaxRequestIdLength : Nat := 128

def isBlank (c : Char) : Bool := c.toNat ≤ 32

/-- Blanks and control characters are cut off at both ends; what then still
holds a character outside the header alphabet is dropped altogether. -/
def sanitizeRequestId (raw : String) : String :=
  let trimmed := ((raw.toList.dropWhile isBlank).reverse.dropWhile isBlank).reverse
  if trimmed.isEmpty ∨ (String.ofList trimmed).utf8ByteSize > kMaxRequestIdLength then ""
  else if trimmed.all isAllowedChar then String.ofList trimmed
  else ""

end utils

/-! ## JSON fields of the model service -/

namespace Json

def getStringField (j : Json) (key : String) : Option String :=
  (j.find key).bind asString

end Json

structure ImageHealthResult where
  status : String := "unhealthy"
  model_loaded : Bool := false
  active_kind : String := "none"
  active_generations : Int := 0
  max_concurrent_generations : Int := 0
  detail : String := ""
  deriving DecidableEq, Repr

namespace GenerationClient

def isHttpUrl (url : String) : Bool :=
  "http://".toList <+: url.toList ∨ "https://".toList <+: url.toList

/-- The message `mapHttpError` gives a failed call. -/
def mapHttpError (error : HttpError) : String :=
  if error.status_code = 0 then "model service is unavailable"
  else if error.status_code ≥ 500 then "model service returned an error"
  else if error.status_code ≥ 400 then "model service rejected the request"
  else "model service request failed"

/-- The object the answer describes: its `data` member when that is an object. -/
def resultPayload (remoteJson : Json) : Json :=
  match remoteJson.find "data" with
  | some (.object members) => .object members
  | _ => remoteJson

/-- The status of the answer; one that is not known leaves the task's own. -/
def remoteStatus (payload : Json) (current : TaskStatus) : TaskStatus :=
  let known (status : TaskStatus) := if status ≠ Unknown then status else current
  match payload.getStringField "status" with
  | some rawStatus => known (normalizeTaskStatus rawStatus)
  | none => known (ImageGeneration.fromJson payload).status

/-- The first url the answer gives, unless the task has one already. -/
def remoteImageUrl (payload : Json) (current : String) : String :=
  let named := (ImageGeneration.fromJson payload).image_url
  let url := if named.isEmpty then current else named
  let url := if url.isEmpty then
    ((payload.getStringField "image_url").or (payload.getStringField "url")).getD "" else url
  if url.isEmpty then
    match payload.getStringField "image" with
    | some image => if isHttpUrl image then image else url
    | none => url
  else url

def mergeRemoteResult (remoteJson : Json) (generation : ImageGeneration) : ImageGeneration :=
  let payload := resultPayload remoteJson
  let remote := ImageGeneration.fromJson payload
  { generation with
    request_id := if remote.request_id.isEmpty then generation.request_id else remote.request_id
    status := remoteStatus payload generation.status
    image_url := remoteImageUrl payload generation.image_url
    error_message :=
      if remote.error_message.isEmpty then generation.error_message else remote.error_message
    generation_time :=
      if remote.generation_time > 0 then remote.generation_time else generation.generation_time }

def failed (generation : ImageGeneration) (code message : String) : ImageGeneration :=
  { generation with status := Failed, failure_code := code, error_message := message }

/-- What an answered call makes of the task. -/
def withResponse (generation : ImageGeneration) (result : HttpResult) : ImageGeneration :=
  match result.toExpectedBody with
  | .error error => failed generation failure.kPythonServiceRequestFailed (mapHttpError error)
  | .ok body =>
    if body.text.isEmpty then
      failed generation failure.kPythonServiceEmptyResponse "python service returned empty response"
    else
      match body.json with
      | some remoteJson => mergeRemoteResult remoteJson generation
      | none =>
        failed generation failure.kPythonServiceInvalidJson "python service returned invalid json"

/-- What a thrown call makes of the task. -/
def withException (generation : ImageGeneration) : Thrown → ImageGeneration
  | .exception what =>
    failed generation failure.kPythonServiceException s!"python service exception: {what}"
  | .other =>
    failed generation failure.kPythonServiceUnknownException "python service unknown exception"

def modelPayload (generation : ImageGeneration) : Json :=
  .object ([("prompt", .string generation.prompt),
    ("negative_prompt", .string generation.negative_prompt),
    ("num_steps", .integer generation.num_steps), ("height", .integer generation.height),
    ("width", .integer generation.width), ("request_id", .string generation.request_id)] ++
    ImageGeneration.putSeed generation.seed)

def requestHeaders (generation : ImageGeneration) : List String :=
  let traceId := utils.sanitizeRequestId generation.request_id
  if traceId.isEmpty then [] else [s!"X-Request-Id: {traceId}"]

/-- The call to the model service, with its url and timeout for the download. -/
def requestGeneration (config : Config) (generation : ImageGeneration) :
    Program (ImageGeneration × String × Int) := do
  match config.python_service with
  | .error what => return (withException generation (.exception what), "", 900)
  | .ok service =>
    match service.timeout_seconds with
    | .error what => return (withException generation (.exception what), service.url, 900)
    | .ok timeout =>
      let timeoutSeconds := timeout.getD 900
      match ← Prog.perform (I := interface) (.postJson (service.url ++ "/generate") timeoutSeconds
          (modelPayload generation) (requestHeaders generation)) with
      | .error thrown => return (withException generation thrown, service.url, timeoutSeconds)
      | .ok result => return (withResponse generation result, service.url, timeoutSeconds)

def absoluteUrl (serviceUrl imageUrl : String) : String :=
  if ¬ isHttpUrl imageUrl ∧ ¬ serviceUrl.isEmpty ∧ "/".toList <+: imageUrl.toList then
    serviceUrl ++ imageUrl
  else imageUrl

/-- The image's bytes, empty when the download gave none. What it throws is not
caught here. -/
def downloadImageBytes (url : String) (timeoutSeconds : Int) : Program (Except Thrown String) := do
  match ← Prog.perform (I := interface) (.httpGet url timeoutSeconds true) with
  | .error thrown => return .error thrown
  | .ok result =>
    match result.toExpectedBody with
    | .error _ => return .ok ""
    | .ok body => return .ok body.text

def withDownload (generation : ImageGeneration) (serviceUrl : String) (timeoutSeconds : Int) :
    Program (Except Thrown ImageGeneration) := do
  if generation.image_url.isEmpty then return .ok generation
  else
    let url := absoluteUrl serviceUrl generation.image_url
    match ← downloadImageBytes url timeoutSeconds with
    | .error thrown => return .error thrown
    | .ok bytes => return .ok { generation with image_url := url, image_bytes := bytes }

/-- Bytes mean success unless the call failed. -/
def accepted (generation : ImageGeneration) : ImageGeneration :=
  if ¬ generation.image_bytes.isEmpty ∧ generation.status ≠ Failed then
    { generation with status := Success, failure_code := "", error_message := "" }
  else generation

/-- A task that has not ended has failed. -/
def ended (generation : ImageGeneration) : ImageGeneration :=
  if generation.status = Unknown ∨ generation.status = Pending ∨ generation.status = Queued ∨
      generation.status = Generating then
    { generation with
      status := Failed
      failure_code := failure.kMissingImagePayload
      error_message :=
        if generation.error_message.isEmpty then "model result did not include image data"
        else generation.error_message }
  else generation

def settled (generation : ImageGeneration) : ImageGeneration := ended (accepted generation)

/-- `ImageStorage::store` is called with its default content type. -/
def persistGeneratedImage (generation : ImageGeneration) : Program ImageGeneration := do
  if generation.status ≠ Success then return generation
  else if generation.image_bytes.isEmpty then
    let now ← readClock
    return { failed generation failure.kMissingImagePayload
        "generation succeeded but image binary is missing" with completed_at := some now }
  else
    match ← ImageStorage.store generation.user_id generation.request_id generation.image_bytes
        "image/png" with
    | .ok storage_key =>
      return { generation with
        storage_key := storage_key
        image_url := s!"/api/images/{generation.id}/binary"
        image_bytes := "" }
    | .error what =>
      let now ← readClock
      return { failed generation failure.kStorageWriteFailed
          s!"generation succeeded but failed to store image: {what}" with
        completed_at := some now
        storage_key := ""
        image_bytes := ""
        image_url := "" }

/-- Everything after the call and the download. -/
def conclude (generation : ImageGeneration) : Program ImageGeneration := do
  let generation := settled generation
  if generation.status.isTerminal then
    let now ← readClock
    persistGeneratedImage { generation with completed_at := some now }
  else persistGeneratedImage generation

def generate (config : Config) (generation : ImageGeneration) :
    Program (Except Thrown ImageGeneration) := do
  let (answered, serviceUrl, timeoutSeconds) ← requestGeneration config generation
  match ← withDownload answered serviceUrl timeoutSeconds with
  | .error thrown => return .error thrown
  | .ok generation =>
    let result ← conclude generation
    return .ok result

/-! ## Health -/

/-- An error report keeps what was read before it. -/
def unhealthy (result : ImageHealthResult) (detail : String) : ImageHealthResult :=
  { result with status := "unhealthy", detail := detail }

def healthStatus (remoteStatus : String) (modelLoaded : Bool) : String :=
  if remoteStatus = "healthy" ∨ remoteStatus = "ok" ∨ remoteStatus = "success" then "healthy"
  else if remoteStatus = "busy" ∨ remoteStatus = "loading" ∨ remoteStatus = "unhealthy" then
    remoteStatus
  else if modelLoaded then "healthy"
  else "unhealthy"

/-- The health document, read member by member until one of them throws. -/
def readHealth (healthJson : Json) : ImageHealthResult :=
  match healthJson.value "status" "string" Json.asString "" with
  | .error what => unhealthy {} what
  | .ok status =>
    let remoteStatus := lowerText status
    match healthJson.value "model_loaded" "boolean" Json.asBool false with
    | .error what => unhealthy {} what
    | .ok modelLoaded =>
      let result : ImageHealthResult := { model_loaded := modelLoaded }
      match healthJson.value "active_kind" "string" Json.asString "none" with
      | .error what => unhealthy result what
      | .ok kind =>
        let activeKind := lowerText kind
        let result := { result with active_kind := if activeKind.isEmpty then "none" else activeKind }
        match healthJson.value "active_generations" "number" Json.asInt 0 with
        | .error what => unhealthy result what
        | .ok active =>
          let result := { result with active_generations := max 0 active }
          match healthJson.value "max_concurrent_generations" "number" Json.asInt 0 with
          | .error what => unhealthy result what
          | .ok capacity =>
            { result with
              max_concurrent_generations := max 0 capacity
              status := healthStatus remoteStatus modelLoaded
              detail := remoteStatus }

def healthOf (result : HttpResult) : ImageHealthResult :=
  match result.toExpectedBody with
  | .error error => unhealthy {} (mapHttpError error)
  | .ok body =>
    if body.text.isEmpty then unhealthy {} "empty response body"
    else
      match body.json with
      | none => unhealthy {} "invalid json response"
      | some healthJson => readHealth healthJson

def healthTimeout (timeoutSeconds : Int) : Int :=
  min (if timeoutSeconds ≤ 0 then 5 else timeoutSeconds) 10

/-- Only standard exceptions are caught. -/
def checkHealth (config : Config) : Program (Except Thrown ImageHealthResult) := do
  match config.python_service with
  | .error what => return .ok (unhealthy {} what)
  | .ok service =>
    match service.timeout_seconds with
    | .error what => return .ok (unhealthy {} what)
    | .ok timeout =>
      match ← Prog.perform (I := interface)
          (.httpGet (service.url ++ "/health") (healthTimeout (timeout.getD 30)) false) with
      | .error (.exception what) => return .ok (unhealthy {} what)
      | .error .other => return .error .other
      | .ok result => return .ok (healthOf result)

/-- Failures are only logged. -/
def cleanupOrphanedStoredImage (generation : ImageGeneration) : Program Unit := do
  if generation.storage_key.isEmpty then return ()
  else
    let _ ← ImageStorage.remove generation.storage_key
    return ()

end GenerationClient

end Text2Image
