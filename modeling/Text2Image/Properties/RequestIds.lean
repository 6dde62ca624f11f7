import Mathlib
import Text2Image.Services.ModelRequest

/-! A request id on its way from a client's payload to the stored image. -/

set_option autoImplicit false

namespace Text2Image

open ModelService ImageService GenerationClient

/-! ## The alphabet -/

def isIdChar (c : Char) : Bool := isAsciiAlnum c ∨ c = '_' ∨ c = '-'

theorem alnum_ranges {c : Char} : isAsciiAlnum c = true ↔
    (65 ≤ c.toNat ∧ c.toNat ≤ 90) ∨ (97 ≤ c.toNat ∧ c.toNat ≤ 122) ∨ (48 ≤ c.toNat ∧ c.toNat ≤ 57) := by
  simp only [isAsciiAlnum, Char.isAlphanum, Char.isAlpha, Char.isUpper, Char.isLower, Char.isDigit,
    Bool.or_eq_true, Bool.and_eq_true, decide_eq_true_eq, ge_iff_le, UInt32.le_iff_toNat_le,
    Char.toNat, or_assoc]
  rfl

theorem idChar_ranges {c : Char} (member : isIdChar c = true) :
    isAsciiAlnum c = true ∨ c.toNat = 95 ∨ c.toNat = 45 := by
  rcases of_decide_eq_true member with alnum | rfl | rfl
  · exact .inl alnum
  · exact .inr (.inl rfl)
  · exact .inr (.inr rfl)

theorem idChar_bounds {c : Char} (member : isIdChar c = true) :
    45 ≤ c.toNat ∧ c.toNat ≤ 122 ∧ c.toNat ≠ 46 ∧ c.toNat ≠ 47 := by
  rcases idChar_ranges member with alnum | under | hyphen
  · have := alnum_ranges.mp alnum
    omega
  · omega
  · omega

theorem idChar_solid {c : Char} (member : isIdChar c = true) : isspace c = false := by
  have := idChar_bounds member
  simp only [isspace, decide_eq_false_iff_not]
  omega

theorem idChar_inked {c : Char} (member : isIdChar c = true) : utils.isBlank c = false := by
  have := idChar_bounds member
  simp only [utils.isBlank, decide_eq_false_iff_not]
  omega

theorem idChar_allowed {c : Char} (member : isIdChar c = true) : utils.isAllowedChar c = true := by
  rcases of_decide_eq_true member with alnum | rfl | rfl
  · exact decide_eq_true (.inl alnum)
  · rfl
  · rfl

theorem idChar_key {c : Char} (member : isIdChar c = true) : ImageStorage.isKeyChar c = true := by
  rcases of_decide_eq_true member with alnum | rfl | rfl
  · exact decide_eq_true (.inl alnum)
  · rfl
  · rfl

/-! ## Accepted ids -/

/-- What `isValidRequestId` looks for. -/
structure AcceptedId (id : String) : Prop where
  chars : ∀ c ∈ id.toList, isIdChar c = true
  first : ∃ first rest, id.toList = first :: rest ∧ isAsciiAlnum first = true
  size : id.utf8ByteSize ≤ kMaxRequestIdLength

theorem acceptedId {id : String} (valid : isValidRequestId id = true) : AcceptedId id := by
  unfold isValidRequestId at valid
  split at valid
  · cases valid
  · rename_i first rest whole
    obtain ⟨size, alnum, every⟩ := of_decide_eq_true valid
    exact ⟨fun c member => List.all_eq_true.mp every c (whole ▸ member), ⟨first, rest, whole, alnum⟩, size⟩

/-- No text has more characters than bytes. -/
theorem length_le_bytes (chars : List Char) : chars.length ≤ (String.ofList chars).utf8ByteSize := by
  induction chars with
  | nil => simp
  | cons c rest ih =>
    have size := c.utf8Size_pos
    rw [List.length_cons, String.ofList_cons, String.utf8ByteSize_append, String.utf8ByteSize_singleton]
    omega

namespace AcceptedId

variable {id : String} (accepted : AcceptedId id)

include accepted

theorem nonempty : id.isEmpty = false := by
  obtain ⟨first, rest, whole, _⟩ := accepted.first
  rw [String.isEmpty_eq_false_iff]
  intro empty
  rw [empty] at whole
  cases whole

theorem sanitized : utils.sanitizeRequestId id = id := by
  unfold utils.sanitizeRequestId
  rw [Chrono.cut_solid fun c member => idChar_inked (accepted.chars c member)]
  have short : ¬ id.utf8ByteSize > utils.kMaxRequestIdLength := by
    have := accepted.size
    unfold kMaxRequestIdLength at this
    unfold utils.kMaxRequestIdLength
    omega
  have every : id.toList.all utils.isAllowedChar = true :=
    List.all_eq_true.mpr fun c member => idChar_allowed (accepted.chars c member)
  have some : id.toList.isEmpty = false := by
    obtain ⟨first, rest, whole, _⟩ := accepted.first
    rw [whole]
    rfl
  dsimp only
  rw [String.ofList_toList, if_neg (by simp [some, short]), if_pos every]

theorem strip_eq : strip id = id := by
  unfold strip
  rw [Chrono.cut_solid fun c member => idChar_solid (accepted.chars c member), String.ofList_toList]

theorem strippedRequestId_eq : strippedRequestId (some id) = some id := by
  simp [strippedRequestId, accepted.strip_eq, accepted.nonempty]

theorem sanitizeKeyPart_eq : ImageStorage.sanitizeKeyPart id = id := by
  unfold ImageStorage.sanitizeKeyPart
  rw [accepted.nonempty]
  have single : ∀ c ∈ id.toList, (if ImageStorage.isKeyChar c then [c] else List.replicate c.utf8Size '_') =
      [c] := fun c member => if_pos (idChar_key (accepted.chars c member))
  rw [if_neg Bool.false_ne_true, List.flatMap_congr single, List.flatMap_singleton', String.ofList_toList]

theorem matches_pattern : REQUEST_ID_PATTERN id = true := by
  have letters : ∀ {c : Char}, isAsciiAlnum c = true →
      ('A' ≤ c ∧ c ≤ 'Z') ∨ ('a' ≤ c ∧ c ≤ 'z') ∨ ('0' ≤ c ∧ c ≤ '9') := fun alnum => alnum_ranges.mp alnum
  obtain ⟨first, rest, whole, alnum⟩ := accepted.first
  unfold REQUEST_ID_PATTERN
  rw [whole]
  refine decide_eq_true ⟨decide_eq_true (letters alnum), ?_, ?_⟩
  · have bytes := length_le_bytes id.toList
    rw [String.ofList_toList, whole, List.length_cons] at bytes
    have size := accepted.size
    unfold kMaxRequestIdLength at size
    omega
  · refine List.all_eq_true.mpr fun c member => decide_eq_true ?_
    have := accepted.chars c (whole ▸ List.mem_cons_of_mem _ member)
    exact (of_decide_eq_true this).imp_left fun alnum => decide_eq_true (letters alnum)

/-- No dot and no slash. -/
theorem single_component {c : Char} (member : c ∈ id.toList) : c ≠ '.' ∧ c ≠ '/' := by
  have bounds := idChar_bounds (accepted.chars c member)
  constructor
  · rintro rfl
    exact bounds.2.2.1 rfl
  · rintro rfl
    exact bounds.2.2.2 rfl

end AcceptedId

/-! ## The file -/

/-- Where no component is a link or has a meaning of its own, a path is its own resolution. -/
theorem realpath_plain {links : Links} {fuel : Nat} {path rest : Path}
    (proper : ∀ name ∈ rest, name ≠ "" ∧ name ≠ "." ∧ name ≠ "..")
    (plain : ∀ front, front <+: rest → front ≠ [] → links (path ++ front) = none) :
    realpath links fuel path rest = path ++ rest := by
  induction rest generalizing fuel path with
  | nil => cases fuel <;> simp [realpath]
  | cons name rest ih =>
    cases fuel with
    | zero => rfl
    | succ fuel =>
      obtain ⟨named, here, up⟩ := proper name List.mem_cons_self
      have unlinked := plain [name] (List.prefix_append [name] rest) (List.cons_ne_nil _ _)
      rw [realpath, if_neg (by simp [named, here]), if_neg up, unlinked]
      have later : realpath links fuel (path ++ [name]) rest = (path ++ [name]) ++ rest := by
        refine ih (fun other member => proper other (List.mem_cons_of_mem _ member)) ?_
        intro front inside _
        rw [List.append_assoc]
        exact plain (name :: front) (List.cons_prefix_cons.mpr ⟨rfl, inside⟩) (List.cons_ne_nil _ _)
      simpa using later

theorem resolve_component (temp : TempDirectory) (fuel : Nat) {filename : String}
    (single : '/' ∉ filename.toList) (proper : filename ≠ "" ∧ filename ≠ "." ∧ filename ≠ "..") :
    resolve_temp_file temp fuel filename = .ok (temp.path ++ [filename]) := by
  have whole : components filename = [filename] := by
    unfold components
    rw [List.splitOn_eq_singleton single, List.map_singleton, String.ofList_toList]
  have relative : ¬ "/".toList <+: filename.toList := by
    intro absolute
    exact single (absolute.subset (by simp))
  have candidate : candidatePath temp fuel filename = temp.path ++ [filename] := by
    unfold candidatePath
    rw [if_neg relative, whole, realpath_plain, List.nil_append]
    · intro name member
      rcases List.mem_append.mp member with inside | last
      · exact temp.proper name inside
      · rw [List.mem_singleton.mp last]
        exact proper
    · intro front inside _
      rw [List.nil_append]
      rcases List.prefix_concat_iff.mp inside with rfl | above
      · exact temp.plain filename
      · exact temp.settled front above
  unfold resolve_temp_file
  simp [candidate]

theorem AcceptedId.resolve {id : String} (accepted : AcceptedId id) (temp : TempDirectory) (fuel : Nat) :
    resolve_temp_file temp fuel (id ++ ".png") = .ok (temp.path ++ [id ++ ".png"]) := by
  have long : 4 ≤ (id ++ ".png").length := by
    rw [String.length_append]
    exact Nat.le_add_left _ _
  refine resolve_component temp fuel ?_ ⟨?_, ?_, ?_⟩
  · rw [String.toList_append]
    intro slash
    rcases List.mem_append.mp slash with inside | after
    · exact (accepted.single_component inside).2 rfl
    · revert after
      decide +kernel
  all_goals
    intro short
    rw [short] at long
    revert long
    decide +kernel

/-! ## The object key -/

theorem objectKey_chars (userId : Int) (requestId contentType : String) :
    (ImageStorage.objectKey userId requestId contentType).toList =
      "images/".toList ++ ((toString userId).toList ++ '/' ::
        ((ImageStorage.sanitizeKeyPart requestId).toList ++ '.' ::
          (ImageStorage.extension contentType).toList)) := by
  have slash : (toString "/").toList = ['/'] := by decide
  have dot : (toString ".").toList = ['.'] := by decide
  unfold ImageStorage.objectKey
  simp only [String.toList_append, List.append_assoc]
  rw [slash, dot]
  rfl

theorem objectKey_injective {userId userId' : Int} {id id' contentType contentType' : String}
    (accepted : AcceptedId id) (accepted' : AcceptedId id')
    (same : ImageStorage.objectKey userId id contentType = ImageStorage.objectKey userId' id' contentType') :
    userId = userId' ∧ id = id' := by
  have chars := congrArg String.toList same
  rw [objectKey_chars, objectKey_chars, accepted.sanitizeKeyPart_eq, accepted'.sanitizeKeyPart_eq] at chars
  obtain ⟨user, rest⟩ := Numbered.tagged_injective (by decide) (by decide) chars
  have dotless : ∀ {id : String}, AcceptedId id → '.' ∉ id.toList :=
    fun accepted member => (accepted.single_component member).1 rfl
  exact ⟨user, String.toList_inj.mp (Numbered.before_separator (dotless accepted) (dotless accepted') rest)⟩

/-! ## The whole way -/

/-- Every station takes this id as it is. -/
structure Unaltered (id : String) : Prop where
  sanitized : utils.sanitizeRequestId id = id
  header : ∀ generation : ImageGeneration, generation.request_id = id →
    requestHeaders generation = [s!"X-Request-Id: {id}"]
  stripped : strippedRequestId (some id) = some id
  matched : REQUEST_ID_PATTERN id = true
  file : ∀ (temp : TempDirectory) (fuel : Nat),
    resolve_temp_file temp fuel (id ++ ".png") = .ok (temp.path ++ [id ++ ".png"])
  key : ImageStorage.sanitizeKeyPart id = id

theorem AcceptedId.unaltered {id : String} (accepted : AcceptedId id) : Unaltered id where
  sanitized := accepted.sanitized
  header generation same := by
    unfold requestHeaders
    rw [same, accepted.sanitized, if_neg (by simp [accepted.nonempty])]
  stripped := accepted.strippedRequestId_eq
  matched := accepted.matches_pattern
  file := accepted.resolve
  key := accepted.sanitizeKeyPart_eq

/-- An id that the backend accepts is one and the same in the header, in the model service, in the name
of its file and in the key of the object; and no two users or requests share an object.
-/
theorem requestIds_carried :
    (∀ raw, isValidRequestId (trim raw) = true → Unaltered (trim raw)) ∧
    ∀ (userId userId' : Int) (raw raw' contentType contentType' : String), 0 < userId → 0 < userId' →
      isValidRequestId (trim raw) = true → isValidRequestId (trim raw') = true →
      ImageStorage.objectKey userId (trim raw) contentType =
        ImageStorage.objectKey userId' (trim raw') contentType' →
      userId = userId' ∧ trim raw = trim raw' := by
  refine ⟨fun raw valid => (acceptedId valid).unaltered, ?_⟩
  intro userId userId' raw raw' contentType contentType' _ _ valid valid' same
  exact objectKey_injective (acceptedId valid) (acceptedId valid') same

/-- The images of a service under `/app`; `/var/run` is a link, but not on the way there. -/
def generatedImages : TempDirectory where
  links path := if path = ["var", "run"] then some (true, ["run"]) else none
  path := ["app", "generated"]
  proper := by decide
  settled := by
    intro ancestor inside
    refine if_neg ?_
    rintro rfl
    exact absurd inside (by decide)
  plain name := if_neg (by simp)

/-- An id with blanks around it, and two users whose ids run together but for the slash. -/
theorem requestIds_carried_trimmed :
    (Unaltered (trim " img-1 ") ∧
      resolve_temp_file generatedImages 10 (trim " img-1 " ++ ".png") = .ok ["app", "generated", "img-1.png"]) ∧
    ImageStorage.objectKey 1 (trim "2-a") "image/png" ≠ ImageStorage.objectKey 12 (trim "a") "image/png" := by
  have carried := requestIds_carried.1 " img-1 " (by decide +kernel)
  refine ⟨⟨carried, carried.file generatedImages 10⟩, fun same => ?_⟩
  have users := (requestIds_carried.2 1 12 "2-a" "a" "image/png" "image/png" (by decide) (by decide) (by decide +kernel)
    (by decide +kernel) same).1
  exact absurd users (by decide)

end Text2Image
