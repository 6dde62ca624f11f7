import Text2Image.Models.Chrono
import Text2Image.Models.Json
import Text2Image.Models.TaskStatus

/-! A generation task as the services handle it, and its JSON form. -/

set_option autoImplicit false

namespace Text2Image

structure ImageGeneration where
  id : Int := 0
  user_id : Int := 0
  request_id : String := ""
  prompt : String := ""
  negative_prompt : String := ""
  num_steps : Int := 8
  height : Int := 768
  width : Int := 768
  seed : Option Int := none
  status : TaskStatus := .Pending
  retry_count : Int := 0
  max_retries : Int := 3
  failure_code : String := ""
  worker_id : String := ""
  image_url : String := ""
  thumbnail_url : String := ""
  storage_key : String := ""
  image_bytes : String := ""
  error_message : String := ""
  generation_time : Rat := 0
  created_at : TimePoint := 0
  started_at : Option TimePoint := none
  completed_at : Option TimePoint := none
  cancelled_at : Option TimePoint := none
  lease_expires_at : Option TimePoint := none
  deriving DecidableEq, Repr

namespace ImageGeneration

def putOptionalTime (key : String) (value : Option TimePoint) : List (String × Json) :=
  match value with
  | some tp => [(key, .string (Chrono.toDbString tp))]
  | none => []

def putSeed (seed : Option Int) : List (String × Json) :=
  match seed with
  | some value => [("seed", .integer value)]
  | none => []

def toJson (image : ImageGeneration) : Json :=
  .object (
    [("id", .integer image.id), ("taskId", .integer image.id), ("userId", .integer image.user_id),
      ("requestId", .string image.request_id), ("prompt", .string image.prompt),
      ("negativePrompt", .string image.negative_prompt), ("numSteps", .integer image.num_steps),
      ("height", .integer image.height), ("width", .integer image.width),
      ("status", .string (statusToString image.status)), ("retryCount", .integer image.retry_count),
      ("maxRetries", .integer image.max_retries), ("failureCode", .string image.failure_code),
      ("workerId", .string image.worker_id), ("imageUrl", .string image.image_url),
      ("errorMessage", .string image.error_message),
      ("generationTime", .float image.generation_time),
      ("createdAt", .string (Chrono.toDbString image.created_at)),
      ("thumbnailUrl", .string image.thumbnail_url), ("storageKey", .string image.storage_key),
      ("imageBytes", .string image.image_bytes)] ++
    putSeed image.seed ++
    putOptionalTime "startedAt" image.started_at ++
    putOptionalTime "completedAt" image.completed_at ++
    putOptionalTime "cancelledAt" image.cancelled_at ++
    putOptionalTime "leaseExpiresAt" image.lease_expires_at)

def readTimeAny (j : Json) (keys : List String) : Option TimePoint :=
  (j.readStringAny keys).bind Chrono.fromDbString

/-- Absent or ill-typed fields keep the defaults of a fresh `ImageGeneration`. -/
def fromJson (j : Json) : ImageGeneration where
  id := (j.readInt64_tAny ["id", "taskId"]).getD 0
  user_id := (j.readInt64_tAny ["user_id", "userId"]).getD 0
  request_id := (j.readStringAny ["request_id", "requestId"]).getD ""
  prompt := (j.readStringAny ["prompt"]).getD ""
  negative_prompt := (j.readStringAny ["negative_prompt", "negativePrompt"]).getD ""
  num_steps := (j.readIntAny ["num_steps", "numSteps"]).getD 8
  height := (j.readIntAny ["height"]).getD 768
  width := (j.readIntAny ["width"]).getD 768
  seed := j.readIntAny ["seed"]
  status := ((j.readStringAny ["status"]).map statusFromString).getD .Pending
  image_url := (j.readStringAny ["image_url", "imageUrl"]).getD ""
  thumbnail_url := (j.readStringAny ["thumbnail_url", "thumbnailUrl"]).getD ""
  storage_key := (j.readStringAny ["storage_key", "storage_key", "storageKey"]).getD ""
  image_bytes := (j.readStringAny ["image_bytes", "imageBytes"]).getD ""
  error_message := (j.readStringAny ["error_message", "errorMessage"]).getD ""
  generation_time := (j.readDoubleAny ["generation_time", "generationTime"]).getD 0
  retry_count := (j.readIntAny ["retry_count", "retryCount"]).getD 0
  max_retries := (j.readIntAny ["max_retries", "maxRetries"]).getD 3
  failure_code := (j.readStringAny ["failure_code", "failureCode"]).getD ""
  worker_id := (j.readStringAny ["worker_id", "workerId"]).getD ""
  created_at := (readTimeAny j ["created_at", "createdAt"]).getD 0
  started_at := readTimeAny j ["started_at", "startedAt"]
  completed_at := readTimeAny j ["completed_at", "completedAt"]
  cancelled_at := readTimeAny j ["cancelled_at", "cancelledAt"]
  lease_expires_at := readTimeAny j ["lease_expires_at", "leaseExpiresAt"]

theorem lookup_putOptionalTime {key other : String} (different : other ≠ key)
    (value : Option TimePoint) : (putOptionalTime key value).lookup other = none := by
  cases value with
  | none => rfl
  | some tp => simp [putOptionalTime, List.lookup_cons, beq_false_of_ne different]

theorem lookup_putSeed {other : String} (different : other ≠ "seed") (seed : Option Int) :
    (putSeed seed).lookup other = none := by
  cases seed with
  | none => rfl
  | some value => simp [putSeed, List.lookup_cons, beq_false_of_ne different]

/-- What is left of a time point in text: whole seconds. -/
def timeRead (tp : TimePoint) : Option TimePoint := Chrono.fromDbString (Chrono.toDbString tp)

/-- The image as its JSON form gives it back. -/
def reread (image : ImageGeneration) : ImageGeneration :=
  { image with
    id := wrapInt 64 image.id
    user_id := wrapInt 64 image.user_id
    num_steps := wrapInt 32 image.num_steps
    height := wrapInt 32 image.height
    width := wrapInt 32 image.width
    seed := image.seed.map (wrapInt 32)
    retry_count := wrapInt 32 image.retry_count
    max_retries := wrapInt 32 image.max_retries
    created_at := (timeRead image.created_at).getD 0
    started_at := image.started_at.bind timeRead
    completed_at := image.completed_at.bind timeRead
    cancelled_at := image.cancelled_at.bind timeRead
    lease_expires_at := image.lease_expires_at.bind timeRead }

theorem lookup_putSeed_seed (seed : Option Int) :
    (putSeed seed).lookup "seed" = seed.map .integer := by
  cases seed <;> rfl

theorem lookup_putOptionalTime_self (key : String) (value : Option TimePoint) :
    (putOptionalTime key value).lookup key = value.map fun tp => .string (Chrono.toDbString tp) := by
  cases value <;> simp [putOptionalTime]

/-- The optional times, with the two names under which each is read. -/
def times (image : ImageGeneration) : List (String × String × Option TimePoint) :=
  [("started_at", "startedAt", image.started_at), ("completed_at", "completedAt", image.completed_at),
    ("cancelled_at", "cancelledAt", image.cancelled_at),
    ("lease_expires_at", "leaseExpiresAt", image.lease_expires_at)]

theorem readTimeAny_toJson {image : ImageGeneration} {other key : String} {value : Option TimePoint}
    (written : (other, key, value) ∈ image.times) :
    readTimeAny image.toJson [other, key] = value.bind timeRead := by
  -- the first name is never written, and the second only where there is a time
  obtain ⟨absent, found⟩ : image.toJson.find other = none ∧
      image.toJson.find key = value.map fun tp => .string (Chrono.toDbString tp) := by
    simp only [times, List.mem_cons, Prod.mk.injEq, List.not_mem_nil, or_false] at written
    rcases written with ⟨rfl, rfl, rfl⟩ | ⟨rfl, rfl, rfl⟩ | ⟨rfl, rfl, rfl⟩ | ⟨rfl, rfl, rfl⟩ <;>
      simp [toJson, Json.find, List.lookup_append, List.lookup_cons, lookup_putOptionalTime,
        lookup_putSeed, lookup_putOptionalTime_self]
  simp only [readTimeAny, Json.readStringAny, absent, found]
  cases value <;> rfl

theorem readIntAny_toJson_seed (image : ImageGeneration) :
    image.toJson.readIntAny ["seed"] = image.seed.map (wrapInt 32) := by
  have found : image.toJson.find "seed" = image.seed.map .integer := by
    simp [toJson, Json.find, List.lookup_append, List.lookup_cons, lookup_putOptionalTime,
      lookup_putSeed_seed]
  simp only [Json.readIntAny, found]
  cases image.seed <;> rfl

theorem fromJson_toJson (image : ImageGeneration) : fromJson image.toJson = image.reread := by
  have started := @readTimeAny_toJson image "started_at" "startedAt" image.started_at (by simp [times])
  have completed :=
    @readTimeAny_toJson image "completed_at" "completedAt" image.completed_at (by simp [times])
  have cancelled :=
    @readTimeAny_toJson image "cancelled_at" "cancelledAt" image.cancelled_at (by simp [times])
  have expires :=
    @readTimeAny_toJson image "lease_expires_at" "leaseExpiresAt" image.lease_expires_at
      (by simp [times])
  have created : readTimeAny image.toJson ["created_at", "createdAt"] = timeRead image.created_at := by
    simp [toJson, readTimeAny, Json.readStringAny, Json.find, List.lookup_append, List.lookup_cons,
      lookup_putOptionalTime, lookup_putSeed, timeRead]
  simp only [fromJson, reread, readIntAny_toJson_seed, started, completed, cancelled, expires, created]
  simp [toJson, Json.readStringAny, Json.readIntAny, Json.readInt64_tAny, Json.readDoubleAny, Json.find,
    List.lookup_append, List.lookup_cons, lookup_putOptionalTime, lookup_putSeed]

/-- The storage key survives the JSON form of a task. -/
@[simp] theorem fromJson_toJson_storage_key (image : ImageGeneration) :
    (fromJson image.toJson).storage_key = image.storage_key := by
  rw [fromJson_toJson]
  rfl

end ImageGeneration

end Text2Image
