import Text2Image.Services.GenerationClient

/-! What the model service makes of a request for an image: its checks, and the file it
writes. The limits are the defaults.
-/

set_option autoImplicit false

namespace Text2Image.ModelService

def PROMPT_MIN_LENGTH : Nat := 3
def MAX_PROMPT_LENGTH : Nat := 2000
def MAX_NEGATIVE_PROMPT_LENGTH : Nat := 2000
def MIN_NUM_STEPS : Int := 1
def MAX_NUM_STEPS : Int := 50
def MIN_IMAGE_SIDE : Int := 256
def MAX_IMAGE_SIDE : Int := 1024
def IMAGE_SIDE_MULTIPLE : Int := 8
def MAX_IMAGE_PIXELS : Int := 1024 * 1024

/-! ## Texts -/

/-- `str.isspace` -/
def isspace (c : Char) : Bool :=
  let n := c.toNat
  (9 ≤ n ∧ n ≤ 13) ∨ (28 ≤ n ∧ n ≤ 32) ∨ n = 0x85 ∨ n = 0xa0 ∨ n = 0x1680 ∨
    (0x2000 ≤ n ∧ n ≤ 0x200a) ∨ n = 0x2028 ∨ n = 0x2029 ∨ n = 0x202f ∨ n = 0x205f ∨ n = 0x3000

def strip (s : String) : String :=
  String.ofList ((s.toList.dropWhile isspace).reverse.dropWhile isspace).reverse

/-- `fullmatch` of `^[A-Za-z0-9][A-Za-z0-9_-]{0,63}$`. -/
def REQUEST_ID_PATTERN (text : String) : Bool :=
  let letterOrDigit := fun c : Char =>
    decide (('A' ≤ c ∧ c ≤ 'Z') ∨ ('a' ≤ c ∧ c ≤ 'z') ∨ ('0' ≤ c ∧ c ≤ '9'))
  match text.toList with
  | [] => false
  | first :: rest =>
    letterOrDigit first ∧ rest.length ≤ 63 ∧ rest.all fun c => letterOrDigit c ∨ c = '_' ∨ c = '-'

/-! ## The validator -/

structure GenerateRequest where
  prompt : String
  negative_prompt : Option String := some ""
  num_steps : Int := 8
  height : Int := 768
  width : Int := 768
  seed : Option Int := none
  request_id : Option String := none
  deriving DecidableEq, Repr

structure HTTPException where
  status_code : Int
  detail : String
  deriving DecidableEq, Repr

/-- Height and width share their checks. -/
def sideError (field_name : String) (value : Int) : Option String :=
  if value < MIN_IMAGE_SIDE ∨ value > MAX_IMAGE_SIDE then
    some s!"{field_name} must be between {MIN_IMAGE_SIDE} and {MAX_IMAGE_SIDE}"
  else if value % IMAGE_SIDE_MULTIPLE ≠ 0 then
    some s!"{field_name} must be a multiple of {IMAGE_SIDE_MULTIPLE}"
  else none

/-- What the id is read as: an empty one counts as none. -/
def strippedRequestId (request_id : Option String) : Option String :=
  let stripped := strip (request_id.getD "")
  if stripped.isEmpty then none else some stripped

/-- The request with its texts stripped, as the checks see it. -/
def stripped (request : GenerateRequest) : GenerateRequest :=
  { request with
    prompt := strip request.prompt
    negative_prompt := some (strip (request.negative_prompt.getD ""))
    request_id := strippedRequestId request.request_id }

/-- The first check that fails, on a request already stripped. -/
def validationDetail (request : GenerateRequest) : Option String :=
  let negative_prompt := request.negative_prompt.getD ""
  if request.prompt.isEmpty then some "prompt must not be empty"
  else if request.prompt.length < PROMPT_MIN_LENGTH then
    some s!"prompt length must be at least {PROMPT_MIN_LENGTH} characters"
  else if request.prompt.length > MAX_PROMPT_LENGTH then
    some s!"prompt exceeds max length {MAX_PROMPT_LENGTH}"
  else if negative_prompt.length > MAX_NEGATIVE_PROMPT_LENGTH then
    some s!"negative_prompt exceeds max length {MAX_NEGATIVE_PROMPT_LENGTH}"
  else if request.num_steps < MIN_NUM_STEPS ∨ request.num_steps > MAX_NUM_STEPS then
    some s!"num_steps must be between {MIN_NUM_STEPS} and {MAX_NUM_STEPS}"
  else (sideError "height" request.height).or <| (sideError "width" request.width).or <|
    if request.width * request.height > MAX_IMAGE_PIXELS then
      some s!"image size exceeds max pixel budget {MAX_IMAGE_PIXELS}"
    else if request.seed.any (· < 0) then some "seed must be greater than or equal to 0"
    else if request.request_id.any fun request_id => ! REQUEST_ID_PATTERN request_id then
      some "request_id must match ^[A-Za-z0-9][A-Za-z0-9_-]\x7b0,63\x7d$"
    else none

def validate_generate_request (request : GenerateRequest) : Except HTTPException GenerateRequest :=
  match validationDetail (stripped request) with
  | some detail => .error ⟨400, detail⟩
  | none => .ok (stripped request)

/-! ## The body of a request -/

/-- A member of the body, or its default; `none` where it is not of the field's type. -/
def bodyField {α : Type} (body : Json) (key : String) (read : Json → Option α) (default : Option α) :
    Option α :=
  match body.find key with
  | none => default
  | some value => read value

def nullable {α : Type} (read : Json → Option α) (value : Json) : Option (Option α) :=
  match value with
  | .null => some none
  | value => (read value).map some

def asInteger : Json → Option Int
  | .integer number => some number
  | _ => none

/-- The request in a body; `none` stands for an unprocessable one. Values of other types are not
converted here: the backend sends texts and integers.
-/
def GenerateRequest.ofBody (body : Json) : Option GenerateRequest := do
  let prompt ← bodyField body "prompt" Json.asString none
  let negative_prompt ← bodyField body "negative_prompt" (nullable Json.asString) (some (some ""))
  let num_steps ← bodyField body "num_steps" asInteger (some 8)
  let height ← bodyField body "height" asInteger (some 768)
  let width ← bodyField body "width" asInteger (some 768)
  let seed ← bodyField body "seed" (nullable asInteger) (some none)
  let request_id ← bodyField body "request_id" (nullable Json.asString) (some none)
  return { prompt, negative_prompt, num_steps, height, width, seed, request_id }

/-! ## Files -/

/-- A path from the root, as its components. -/
abbrev Path := List String

/-- Where the symbolic links of a file system point to, as they are written. -/
abbrev Links := Path → Option (Bool × List String)

/-- `os.path.realpath`: `rest` is resolved component by component behind `path`, which holds no
link. A target is a path of its own if it begins with a slash. After `fuel` components, as in a
circle of links, the rest is left as it is.
-/
def realpath (links : Links) : Nat → Path → List String → Path
  | 0, path, rest => path ++ rest
  | _ + 1, path, [] => path
  | fuel + 1, path, name :: rest =>
    if name = "" ∨ name = "." then realpath links fuel path rest
    else if name = ".." then realpath links fuel path.dropLast rest
    else
      match links (path ++ [name]) with
      | none => realpath links fuel (path ++ [name]) rest
      | some (absolute, target) => realpath links fuel (if absolute then [] else path) (target ++ rest)

/-- The components of a text, between its slashes. -/
def components (filename : String) : List String :=
  (filename.toList.splitOn '/').map String.ofList

/-- The directory for generated images. It was resolved when the service started, so that no link is
left on the way to it; and there is none in it, as the service saves images only.
-/
structure TempDirectory where
  links : Links
  path : Path
  proper : ∀ name ∈ path, name ≠ "" ∧ name ≠ "." ∧ name ≠ ".."
  settled : ∀ ancestor, ancestor <+: path → links ancestor = none
  plain : ∀ name, links (path ++ [name]) = none

/-- `TEMP_PATH / filename`, resolved; a filename that begins with a slash stands for itself. -/
def candidatePath (temp : TempDirectory) (fuel : Nat) (filename : String) : Path :=
  if "/".toList <+: filename.toList then realpath temp.links fuel [] (components filename)
  else realpath temp.links fuel [] (temp.path ++ components filename)

def resolve_temp_file (temp : TempDirectory) (fuel : Nat) (filename : String) :
    Except HTTPException Path :=
  let candidate := candidatePath temp fuel filename
  if candidate.dropLast ≠ temp.path ∨ candidate.getLast?.getD "" ≠ filename then
    .error ⟨400, "Invalid filename"⟩
  else .ok candidate

end Text2Image.ModelService
