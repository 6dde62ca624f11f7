import Text2Image.Properties.ExactIntegers
import Text2Image.Properties.RequestIds
import Text2Image.Services.Execution
import Text2Image.Services.Footprint

/-! What the backend has accepted and queued, before the checks of the model service. -/

set_option autoImplicit false

namespace Text2Image

open Concurrency Concurrency.Prog ImageService ModelService GenerationClient

variable {config : Config} {userId : Int} {payload : Json} {isAdmin : Bool}

/-! ## Generated ids -/

theorem mem_hexDigits {n : Nat} {c : Char} (member : c ∈ Nat.toDigits 16 n) :
    ∃ digit < 16, c = Nat.digitChar digit := by
  induction n using Nat.strongRecOn with
  | ind n ih =>
    rw [Nat.toDigits_eq_if (by decide)] at member
    split at member
    · rename_i small
      exact ⟨n, small, List.mem_singleton.mp member⟩
    · rename_i large
      rcases List.mem_append.mp member with front | last
      · exact ih (n / 16) (by omega) front
      · exact ⟨n % 16, Nat.mod_lt _ (by decide), List.mem_singleton.mp last⟩

theorem hexDigit_idChar {digit : Nat} (small : digit < 16) : isIdChar (Nat.digitChar digit) = true := by
  interval_cases digit <;> decide

theorem digit_idChar {c : Char} (digit : c.isDigit = true) : isIdChar c = true := by
  have alnum : isAsciiAlnum c = true := by simp [isAsciiAlnum, Char.isAlphanum, digit]
  exact decide_eq_true (.inl alnum)

/-- A text of such characters has one byte for each of them. -/
theorem idChars_bytes {chars : List Char} (all : ∀ c ∈ chars, isIdChar c = true) :
    (String.ofList chars).utf8ByteSize = chars.length := by
  induction chars with
  | nil => rfl
  | cons c rest ih =>
    obtain ⟨first, others⟩ := List.forall_mem_cons.mp all
    have single : c.utf8Size = 1 := by
      have bounds := idChar_bounds first
      rw [Char.utf8Size_eq_one_iff, UInt32.le_iff_toNat_le]
      exact Nat.le_trans bounds.2.1 (by decide)
    rw [String.ofList_cons, String.utf8ByteSize_append, String.utf8ByteSize_singleton, single, ih others,
      List.length_cons, Nat.add_comm]

/-- A sign and 19 digits. -/
theorem number_length {n : Int} (small : n.natAbs < 10 ^ 19) : (toString n).toList.length ≤ 20 := by
  have short : ∀ m : Nat, m < 10 ^ 19 → (Nat.toDigits 10 m).length ≤ 19 := by
    intro m small
    exact (Nat.length_toDigits_le_iff (by decide) (by decide)).mpr small
  rw [Int.toString_eq_repr, Int.repr_eq_if]
  split
  · rw [Nat.toList_repr]
    have := short n.toNat (by omega)
    omega
  · rw [String.toList_append, List.length_append, Nat.toList_repr]
    have := short (-n).toNat (by omega)
    simp only [String.reduceToList, List.length_cons, List.length_nil]
    omega

/-- The id that is made of a time and a random number. -/
def builtId (now : TimePoint) (random : Nat) : String := s!"img-{now.tdiv 1000000}-{hexDigits random}"

theorem builtId_chars (now : TimePoint) (random : Nat) : (builtId now random).toList =
    ['i', 'm', 'g', '-'] ++ (toString (now.tdiv 1000000)).toList ++ ['-'] ++ Nat.toDigits 16 random := by
  have tag : (toString "img-").toList = ['i', 'm', 'g', '-'] := by decide
  have separator : (toString "-").toList = ['-'] := by decide
  unfold builtId hexDigits
  have digits : (toString (String.ofList (Nat.toDigits 16 random))).toList = Nat.toDigits 16 random :=
    String.toList_ofList
  simp only [String.toList_append, tag, separator, digits]

theorem builtId_accepted {now : Int} {random : Nat} (low : -2 ^ 63 ≤ now) (high : now < 2 ^ 63)
    (drawn : random < 2 ^ 64) : AcceptedId (builtId now random) := by
  have every : ∀ c ∈ (builtId now random).toList, isIdChar c = true := by
    intro c member
    rw [builtId_chars] at member
    simp only [List.mem_append, or_assoc] at member
    rcases member with tag | number | separator | digit
    · simp only [List.mem_cons, List.not_mem_nil, or_false] at tag
      rcases tag with rfl | rfl | rfl | rfl <;> decide
    · rcases Numbered.mem_number number with digit | rfl
      · exact digit_idChar digit
      · decide
    · rw [List.mem_singleton.mp separator]
      decide
    · obtain ⟨value, small, rfl⟩ := mem_hexDigits digit
      exact hexDigit_idChar small
  refine ⟨every, ⟨'i', _, builtId_chars now random, by decide⟩, ?_⟩
  have bytes := idChars_bytes every
  have digits : (Nat.toDigits 16 random).length ≤ 16 :=
    (Nat.length_toDigits_le_iff (by decide) (by decide)).mpr drawn
  have smaller : (now.tdiv 1000000).natAbs ≤ now.natAbs := by
    rw [Int.natAbs_tdiv]
    exact Nat.div_le_self _ _
  have millis : (toString (now.tdiv 1000000)).toList.length ≤ 20 := number_length (by omega)
  rw [String.ofList_toList, builtId_chars] at bytes
  simp only [List.length_append, List.length_cons, List.length_nil] at bytes
  unfold kMaxRequestIdLength
  omega

/-! ## The id of a new row -/

/-- The id of the request, or one made of what the call was answered. -/
def Named (generation : ImageGeneration) (past : Past) (requestId : String) : Prop :=
  (generation.request_id.isEmpty = false ∧ requestId = generation.request_id) ∨
    ∃ now random, past.answered .now now ∧ past.answered .random random ∧ requestId = builtId now random

theorem Named.grow {generation : ImageGeneration} {past later : Past} {requestId : String}
    (named : Named generation past requestId) (grown : past ⊆ later) : Named generation later requestId := by
  rcases named with given | ⟨now, random, timed, drawn, built⟩
  · exact .inl given
  · exact .inr ⟨now, random, grown timed, grown drawn, built⟩

/-- A row is inserted under such an id. -/
def Names (generation : ImageGeneration) : Protocol interface := fun past op =>
  match op with
  | .sql (.insert values) => Named generation past values.request_id
  | _ => True

/-- Operations that insert nothing name nothing. -/
theorem names_of_unnamed {generation : ImageGeneration} {past : Past} {op : Op} (unnamed : Unnamed op) :
    Names generation past op := by
  unfold Names
  split
  · exact unnamed.elim
  · trivial

theorem follows_of_unnamed {α : Type} {program : Program α} (generation : ImageGeneration)
    (only : program.Only Unnamed) (past : Past) :
    program.Follows (Names generation) (fun _ _ => True) past :=
  (only.follows past).weaken fun _ _ => names_of_unnamed

theorem names_requestIdOf (generation : ImageGeneration) (past : Past) :
    (requestIdOf generation).Follows (Names generation) (Named generation) past := by
  unfold requestIdOf
  split
  · refine .call trivial fun now => .call trivial fun random => .done (.inr ⟨now, random, ?_, ?_, rfl⟩)
    · exact List.mem_cons_of_mem _ List.mem_cons_self
    · exact List.mem_cons_self
  · rename_i given
    exact .done (.inl ⟨Bool.eq_false_iff.mpr given, rfl⟩)

theorem names_create : (create config userId payload isAdmin).Follows (Names (trimmed (.fromJson payload)))
    (fun _ _ => True) [] := by
  unfold create
  generalize trimmed (.fromJson payload) = generation
  split
  · exact .done trivial
  dsimp only
  split
  · exact .done trivial
  apply (follows_of_unnamed _ (only_checkActiveTasks trivial isAdmin) _).bind
  intro _ refused _ _
  cases refused with
  | some error => exact .done trivial
  | none =>
    refine .call trivial fun now => ?_
    apply (names_requestIdOf _ _).bind
    intro _ requestId _ named
    apply (follows_of_unnamed _ (only_findByRequestIdAndUserId trivial) _).bind
    intro searched existing grown _
    match existing with
    | .error error => exact .done trivial
    | .ok (some image) => exact .done trivial
    | .ok none =>
      have inserts : (ImageRepo.insert (prepared generation userId now requestId)).Follows
          (Names generation) (fun _ _ => True) searched := by
        unfold ImageRepo.insert
        apply (follows_of_unnamed _ (only_createdAtOf trivial _) _).bind
        intro timed createdAt grown' _
        refine .call ((named.grow grown).grow grown') fun answer => ?_
        cases answer with
        | error error => exact .done trivial
        | ok _ => exact .call trivial fun _ => .done trivial
      apply inserts.bind
      intro _ inserted _ _
      cases inserted with
      | error error => exact .done trivial
      | ok id => exact follows_of_unnamed _ (unnamed_announceCreated _ _) _

/-- The clock and the random numbers a run has read are of 64 bits, as the machine's are. -/
def MachineSized (moments : Trace) : Prop :=
  ∀ moment ∈ moments, moment.2.1.random < 2 ^ 64 ∧
    -2 ^ 63 ≤ moment.2.2.clock ∧ moment.2.2.clock < 2 ^ 63

/-- A new row holds the fields of its request, under an id that passes the backend's own check. -/
structure QueuedFor (payload : Json) (row : Row) : Prop where
  prompt : row.prompt = (trimmed (.fromJson payload)).prompt
  negative_prompt : row.negative_prompt = (trimmed (.fromJson payload)).negative_prompt
  num_steps : row.num_steps = (trimmed (.fromJson payload)).num_steps
  height : row.height = (trimmed (.fromJson payload)).height
  width : row.width = (trimmed (.fromJson payload)).width
  seed : row.seed = (trimmed (.fromJson payload)).seed
  request_id : AcceptedId row.request_id

/-- The check of an id, where there is one. -/
theorem acceptedId_of_valid {generation : ImageGeneration} (valid : validationError generation = none)
    (given : generation.request_id.isEmpty = false) : AcceptedId generation.request_id := by
  unfold validationError at valid
  split at valid
  · cases valid
  · rename_i passed
    simp only [given, Bool.false_eq_true, not_false_eq_true, true_and, not_not] at passed
    exact acceptedId passed

theorem queuedFor_of_inserted {steps : List ((World → World) × Choice)} {world : World} {row : Row}
    (valid : validationError (trimmed (.fromJson payload)) = none)
    (sized : MachineSized ((create config userId payload isAdmin).performed (perform config 0) steps world))
    (inserts : row ∈ insertedRows config (create config userId payload isAdmin) steps world) :
    QueuedFor payload row := by
  obtain ⟨⟨op, choice, met⟩, performed, found⟩ := List.mem_filterMap.mp inserts
  obtain ⟨s, executes, inserted⟩ := Option.bind_eq_some_iff.mp found
  have keeps : (Call.create userId payload isAdmin).Keeps config [] _ _ := keeps_create
  obtain ⟨rfl, _⟩ := executed_eq_some.mp executes
  obtain ⟨past, allowed⟩ := keeps.performed performed
  obtain ⟨past', named, genuine⟩ := names_create.performed_after performed
  cases s with
  | insert values =>
    obtain ⟨⟨now, createdAt, requestId, rfl⟩, _⟩ := allowed
    obtain rfl := Option.some.inj inserted
    refine ⟨rfl, rfl, rfl, rfl, rfl, rfl, ?_⟩
    rcases named with ⟨given, same⟩ | ⟨now, random, timed, drawn, built⟩
    · have accepted := acceptedId_of_valid valid given
      rw [← same] at accepted
      exact accepted
    · rcases genuine _ timed with none' | ⟨choice, met, moment, clock⟩
      · cases none'
      rcases genuine _ drawn with none' | ⟨choice', met', moment', number⟩
      · cases none'
      obtain ⟨_, low, high⟩ := sized _ moment
      obtain ⟨small, _⟩ := sized _ moment'
      rw [← show now = met.clock from clock] at low high
      rw [← show random = choice'.random from number] at small
      have accepted := builtId_accepted low high small
      rw [← built] at accepted
      exact accepted
  | _ => cases inserted

/-! ## The second check -/

/-- What the model service reads from the body of a generation. -/
def requestOf (generation : ImageGeneration) : GenerateRequest where
  prompt := generation.prompt
  negative_prompt := some generation.negative_prompt
  num_steps := generation.num_steps
  height := generation.height
  width := generation.width
  seed := generation.seed
  request_id := some generation.request_id

theorem ofBody_modelPayload (generation : ImageGeneration) :
    GenerateRequest.ofBody (modelPayload generation) = some (requestOf generation) := by
  cases seed : generation.seed <;>
    simp [GenerateRequest.ofBody, bodyField, modelPayload, Json.find, List.lookup_cons, nullable,
      asInteger, Json.asString, ImageGeneration.putSeed, requestOf, seed]

theorem strip_length (s : String) : (strip s).length ≤ s.length := by
  unfold strip
  rw [← String.length_toList, String.toList_ofList, List.length_reverse, ← String.length_toList]
  exact Nat.le_trans (List.dropWhile_suffix _).length_le
    (by rw [List.length_reverse]; exact (List.dropWhile_suffix _).length_le)

theorem length_le_size (s : String) : s.length ≤ s.utf8ByteSize := by
  have bytes := length_le_bytes s.toList
  rw [String.ofList_toList, String.length_toList] at bytes
  exact bytes

/-- Sides that the backend takes are refused exactly if they are longer than 1024. -/
theorem sideError_eq_none_iff {side : Int} (documented : documentedSide side = true) (name : String) :
    sideError name side = none ↔ side ≤ 1024 := by
  have bounds := of_decide_eq_true documented
  unfold sideError MIN_IMAGE_SIDE MAX_IMAGE_SIDE IMAGE_SIDE_MULTIPLE
  constructor
  · intro passes
    split at passes
    · cases passes
    · omega
  · intro short
    rw [if_neg (by omega), if_neg (by omega)]

/-- What the backend's checks leave of a task. -/
structure Checked (generation : ImageGeneration) : Prop where
  prompt : generation.prompt.utf8ByteSize ≤ kPromptMaxLength
  negative_prompt : generation.negative_prompt.utf8ByteSize ≤ kNegativePromptMaxLength
  num_steps : 1 ≤ generation.num_steps ∧ generation.num_steps ≤ 50
  height : documentedSide generation.height = true
  width : documentedSide generation.width = true
  seed : ∀ seed, generation.seed = some seed → 0 ≤ seed
  request_id : AcceptedId generation.request_id

/-- What is left for the model service to refuse: a long side, and a short prompt once it counts
characters and strips its own blanks.
-/
structure Generable (generation : ImageGeneration) : Prop where
  width : generation.width ≤ 1024
  height : generation.height ≤ 1024
  prompt : 3 ≤ (strip generation.prompt).length

theorem texts_of_valid {generation : ImageGeneration} (valid : validationError generation = none) :
    generation.prompt.utf8ByteSize ≤ kPromptMaxLength ∧
      generation.negative_prompt.utf8ByteSize ≤ kNegativePromptMaxLength := by
  unfold validationError at valid
  iterate 3
    split at valid
    · cases valid
  rename_i prompt
  split at valid
  · cases valid
  rename_i negative_prompt
  exact ⟨Nat.not_lt.mp fun long => prompt (.inr long), Nat.not_lt.mp negative_prompt⟩

theorem Checked.validationDetail_eq_none_iff {generation : ImageGeneration} (checked : Checked generation) :
    validationDetail (stripped (requestOf generation)) = none ↔ Generable generation := by
  have prompt : (strip generation.prompt).length ≤ 1000 :=
    (strip_length _).trans ((length_le_size _).trans checked.prompt)
  have negative_prompt : (strip generation.negative_prompt).length ≤ 500 :=
    (strip_length _).trans ((length_le_size _).trans checked.negative_prompt)
  have width := sideError_eq_none_iff checked.width "width"
  have height := sideError_eq_none_iff checked.height "height"
  have matched : ¬ (! REQUEST_ID_PATTERN generation.request_id) = true := by
    simp [checked.request_id.matches_pattern]
  have seeded : ¬ generation.seed.any (· < 0) = true := by
    cases given : generation.seed with
    | none => simp
    | some seed =>
      have := checked.seed seed given
      simpa using this
  unfold validationDetail stripped requestOf
  dsimp only [Option.getD_some]
  rw [checked.request_id.strippedRequestId_eq, Option.any_some]
  by_cases short : (strip generation.prompt).length < PROMPT_MIN_LENGTH
  · constructor
    · intro passes
      split at passes
      · cases passes
      · cases passes
    · intro generable
      exact absurd generable.prompt (Nat.not_le.mpr short)
  · have inked : ¬ (strip generation.prompt).isEmpty = true := by
      intro empty
      rw [String.isEmpty_iff.mp empty] at short
      exact short (by decide)
    rw [if_neg inked, if_neg short, if_neg (by unfold MAX_PROMPT_LENGTH; omega),
      if_neg (by unfold MAX_NEGATIVE_PROMPT_LENGTH; omega),
      if_neg (by unfold MIN_NUM_STEPS MAX_NUM_STEPS; have := checked.num_steps; omega),
      Option.or_eq_none_iff, Option.or_eq_none_iff, height, width, if_neg seeded, if_neg matched]
    constructor
    · rintro ⟨high, wide, _⟩
      exact ⟨wide, high, Nat.not_lt.mp short⟩
    · rintro ⟨wide, high, _⟩
      refine ⟨high, wide, if_neg (Int.not_lt.mpr ?_)⟩
      have tall := (of_decide_eq_true checked.height).1
      exact Int.mul_le_mul wide high (by omega) (by decide)

theorem QueuedFor.checked {row : Row} (queued : QueuedFor payload row)
    (valid : validationError (trimmed (.fromJson payload)) = none) :
    Checked (ImageRepo.rowToImageGeneration row) := by
  obtain ⟨prompt, negative_prompt, num_steps, height, width, seed, request_id⟩ := queued
  obtain ⟨short, short'⟩ := texts_of_valid valid
  obtain ⟨steps, wide, high, positive⟩ := integers_of_valid valid
  rw [← prompt] at short
  rw [← negative_prompt] at short'
  rw [← num_steps] at steps
  rw [← width] at wide
  rw [← height] at high
  rw [← seed] at positive
  exact ⟨short, short', steps, high, wide, positive, request_id⟩

/-! ## Both validators -/

/-- The body that is sent for the row is a request, and it passes the check. -/
def Sendable (row : Row) : Prop :=
  ∃ request accepted,
    GenerateRequest.ofBody (modelPayload (ImageRepo.rowToImageGeneration row)) = some request ∧
      validate_generate_request request = .ok accepted

theorem sendable_iff {row : Row} : Sendable row ↔
    validationDetail (stripped (requestOf (ImageRepo.rowToImageGeneration row))) = none := by
  unfold Sendable
  rw [ofBody_modelPayload]
  constructor
  · rintro ⟨request, accepted, same, validated⟩
    obtain rfl := Option.some.inj same
    unfold validate_generate_request at validated
    split at validated
    · cases validated
    · assumption
  · intro passes
    refine ⟨_, stripped (requestOf (ImageRepo.rowToImageGeneration row)), rfl, ?_⟩
    unfold validate_generate_request
    rw [passes]

/-- A queued row is fit to be sent exactly if its request is fit to be generated. -/
theorem QueuedFor.sendable_iff {row : Row} (queued : QueuedFor payload row)
    (valid : validationError (trimmed (.fromJson payload)) = none) :
    Sendable row ↔ Generable (trimmed (.fromJson payload)) := by
  have width : (ImageRepo.rowToImageGeneration row).width = _ := queued.width
  have height : (ImageRepo.rowToImageGeneration row).height = _ := queued.height
  have prompt : (ImageRepo.rowToImageGeneration row).prompt = _ := queued.prompt
  rw [Text2Image.sendable_iff, (queued.checked valid).validationDetail_eq_none_iff]
  constructor
  · intro generable
    exact ⟨width ▸ generable.width, height ▸ generable.height, prompt ▸ generable.prompt⟩
  · intro generable
    exact ⟨width ▸ generable.width, height ▸ generable.height, prompt ▸ generable.prompt⟩

def AtFirstTick (world : World) : Prop := world.clock = 1

theorem machineSized_undisturbed (config : Config) {α : Type} (program : Program α) (count : Nat) :
    MachineSized (program.performed (perform config 0) (undisturbed count) firstTick) := by
  intro moment member
  obtain ⟨step, undisturbing, chosen⟩ := List.mem_map.mp (choice_of_performed member)
  have random : moment.2.1.random = 0 := by
    rw [← chosen, (List.mem_replicate.mp undisturbing).2]
  have idle : ∀ step ∈ undisturbed count, ∀ world, AtFirstTick world → AtFirstTick (step.1 world) := by
    intro step among world tick
    rw [(List.mem_replicate.mp among).2]
    exact tick
  have stays : ∀ op choice met, AtFirstTick met → AtFirstTick (perform config 0 op choice met).2 :=
    fun op choice met tick => (perform_clock config 0 op choice met).trans tick
  have start : AtFirstTick firstTick := rfl
  have ticks : ∀ moment ∈ program.performed (perform config 0) (undisturbed count) firstTick,
      AtFirstTick moment.2.2 := met_of_performed idle stays start
  have clock : moment.2.2.clock = 1 := ticks moment member
  rw [random, clock]
  decide

/-- Whatever is queued for this payload is fit to be sent. -/
def QueuesSendable (config : Config) (userId : Int) (payload : Json) (isAdmin : Bool) : Prop :=
  ∀ steps world,
    MachineSized ((create config userId payload isAdmin).performed (perform config 0) steps world) →
      ∀ row ∈ insertedRows config (create config userId payload isAdmin) steps world, Sendable row

/-- The request inserts its row into an empty database, and this row tells. -/
theorem generable_of_queues (known : 0 < userId)
    (valid : validationError (trimmed (.fromJson payload)) = none)
    (queues : QueuesSendable config userId payload isAdmin) : Generable (trimmed (.fromJson payload)) := by
  obtain ⟨requestId, inserts⟩ := insertedRows_create config isAdmin known valid
  have sized := machineSized_undisturbed config (create config userId payload isAdmin) 6
  have inserted := inserts ▸ List.mem_singleton_self _
  have queued := queuedFor_of_inserted valid sized inserted
  exact (queued.sendable_iff valid).mp (queues _ _ sized _ inserted)

/-- What the backend queues is accepted by the model service exactly if the request is refused at once,
as unknown or invalid, or its sides are at most 1024 and its prompt has three characters between
its blanks.
-/
theorem queues_sendable_iff (userId : Int) (payload : Json) (isAdmin : Bool) :
    QueuesSendable config userId payload isAdmin ↔
      userId ≤ 0 ∨ (validationError (trimmed (.fromJson payload))).isSome = true ∨
        Generable (trimmed (.fromJson payload)) := by
  constructor
  · intro queues
    by_cases known : 0 < userId
    · cases valid : validationError (trimmed (.fromJson payload)) with
      | some error => exact .inr (.inl rfl)
      | none => exact .inr (.inr (generable_of_queues known valid queues))
    · exact .inl (Int.not_lt.mp known)
  · intro condition steps world sized row inserts
    rcases condition with unknown | invalid | generable
    · rw [create_of_unknown unknown] at inserts
      cases inserts
    · obtain ⟨error, invalid⟩ := Option.isSome_iff_exists.mp invalid
      rw [create_of_invalid invalid] at inserts
      cases inserts
    · cases valid : validationError (trimmed (.fromJson payload)) with
      | some error =>
        rw [create_of_invalid valid] at inserts
        cases inserts
      | none => exact ((queuedFor_of_inserted valid sized inserts).sendable_iff valid).mpr generable

/-- As wide as the backend allows. -/
def widePayload : Json := .object [("prompt", .string "abc"), ("width", .integer 2048)]

/-- One character, of three bytes. -/
def shortPayload : Json := .object [("prompt", .string "图")]

/-- Both are accepted and queued, and the model service refuses what is sent. -/
theorem queued_refused :
    (Accepts defaultConfig 1 widePayload false ∧ ¬ QueuesSendable defaultConfig 1 widePayload false) ∧
      (Accepts defaultConfig 1 shortPayload false ∧ ¬ QueuesSendable defaultConfig 1 shortPayload false) := by
  refine ⟨⟨fun error same => ?_, fun queues => ?_⟩, ⟨fun error same => ?_, fun queues => ?_⟩⟩
  · cases same
  · have generable := generable_of_queues (by decide) (by decide +kernel) queues
    exact absurd generable.width (by decide)
  · cases same
  · have generable := generable_of_queues (by decide) (by decide +kernel) queues
    exact absurd generable.prompt (by decide +kernel)

end Text2Image
