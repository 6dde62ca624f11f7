import Text2Image.Properties.Noninterference

/-! The integers of a request: as they are given, as they are checked, and as they
are stored. -/

set_option autoImplicit false

namespace Text2Image

open Concurrency ImageService

variable {config : Config}

/-! ## Integers of a payload -/

/-- The integer a reader takes, before it is narrowed. -/
def Json.givenInt (j : Json) : List String → Option Int
  | [] => none
  | key :: keys =>
    match j.find key with
    | some (.integer value) => some value
    | _ => j.givenInt keys

theorem Json.readIntAny_eq (j : Json) (keys : List String) :
    j.readIntAny keys = (j.givenInt keys).map (wrapInt 32) := by
  induction keys with
  | nil => rfl
  | cons key keys ih =>
    simp only [readIntAny, givenInt]
    cases j.find key with
    | none => exact ih
    | some value =>
      cases value with
      | integer value => rfl
      | _ => exact ih

def FitsInt (value : Int) : Prop := -2147483648 ≤ value ∧ value < 2147483648

theorem wrapInt_eq_iff (value : Int) : wrapInt 32 value = value ↔ FitsInt value := by
  have range : ((2 ^ 32 : Nat) : Int) = 4294967296 := by decide
  unfold wrapInt FitsInt
  rw [Int.bmod_def, range]
  split <;> omega

/-- A field of a request: its names, its documented range, the column it is for. -/
structure IntegerField where
  names : List String
  documented : Int → Bool
  column : Row → Option Int

def documentedSide (side : Int) : Bool := 512 ≤ side ∧ side ≤ 2048 ∧ side % 64 = 0

def integerFields : List IntegerField :=
  [⟨["num_steps", "numSteps"], fun steps => 1 ≤ steps ∧ steps ≤ 50, fun row => some row.num_steps⟩,
    ⟨["width"], documentedSide, fun row => some row.width⟩,
    ⟨["height"], documentedSide, fun row => some row.height⟩,
    ⟨["seed"], fun seed => 0 ≤ seed, fun row => row.seed⟩]

variable {userId : Int} {payload : Json} {isAdmin : Bool} {field : IntegerField} {given : Int}

/-- The checks of the integers, all of which have passed. -/
theorem integers_of_valid {image : ImageGeneration} (valid : validationError image = none) :
    (1 ≤ image.num_steps ∧ image.num_steps ≤ 50) ∧ documentedSide image.width = true ∧
      documentedSide image.height = true ∧ ∀ seed, image.seed = some seed → 0 ≤ seed := by
  unfold validationError at valid
  iterate 7
    split at valid
    · cases valid
  rename_i steps width height
  split at valid
  · cases valid
  rename_i seed
  refine ⟨?_, Decidable.not_not.mp width, Decidable.not_not.mp height, ?_⟩
  · simp only [kMinNumSteps, kMaxNumSteps] at steps
    omega
  · intro value same
    simpa [same] using seed

/-- What the checks pass lies in the documented range after it was narrowed. -/
theorem documented_of_valid (valid : validationError (trimmed (.fromJson payload)) = none)
    (member : field ∈ integerFields) (gives : payload.givenInt field.names = some given) :
    field.documented (wrapInt 32 given) = true := by
  obtain ⟨steps, width, height, seed⟩ := integers_of_valid valid
  simp only [trimmed, ImageGeneration.fromJson, Json.readIntAny_eq] at steps width height seed
  simp only [integerFields, List.mem_cons, List.not_mem_nil, or_false] at member
  rcases member with rfl | rfl | rfl | rfl
  · simpa [gives] using steps
  · simpa [gives] using width
  · simpa [gives] using height
  · simpa [gives] using seed

/-- A new row holds what the decoder has made of the integer. -/
theorem CreatesRow.column {values : Row} (creates : CreatesRow userId payload values) (id : Int)
    (member : field ∈ integerFields) (gives : payload.givenInt field.names = some given) :
    field.column { values with id := id } = some (wrapInt 32 given) := by
  obtain ⟨now, createdAt, requestId, rfl⟩ := creates
  simp only [integerFields, List.mem_cons, List.not_mem_nil, or_false] at member
  rcases member with rfl | rfl | rfl | rfl <;>
    simp [ImageRepo.insertValues, prepared, trimmed, ImageGeneration.fromJson, Json.readIntAny_eq, gives]

/-! ## Accepted payloads -/

/-- The payload is not refused outright. -/
def Accepts (config : Config) (userId : Int) (payload : Json) (isAdmin : Bool) : Prop :=
  ∀ error, create config userId payload isAdmin ≠ .done (.error error)

theorem Accepts.valid (accepts : Accepts config userId payload isAdmin) :
    validationError (trimmed (.fromJson payload)) = none := by
  cases valid : validationError (trimmed (.fromJson payload)) with
  | none => rfl
  | some error => exact absurd (create_of_invalid valid) (accepts _)

/-- The rows a request inserts are made from its payload. -/
theorem creates_of_inserted {steps : List ((World → World) × Choice)} {world : World} {row : Row}
    (inserts : row ∈ insertedRows config (create config userId payload isAdmin) steps world) :
    ∃ values id, row = { values with id := id } ∧ CreatesRow userId payload values := by
  obtain ⟨⟨op, choice, met⟩, performed, found⟩ := List.mem_filterMap.mp inserts
  obtain ⟨s, executes, inserted⟩ := Option.bind_eq_some_iff.mp found
  have keeps : (Call.create userId payload isAdmin).Keeps config [] _ _ := keeps_create
  obtain ⟨past, allowed⟩ := keeps.performed performed
  obtain ⟨rfl, _⟩ := executed_eq_some.mp executes
  cases s with
  | insert values =>
    obtain ⟨creates, _⟩ := allowed
    exact ⟨values, met.db.next, (Option.some.inj inserted).symm, creates⟩
  | _ => cases inserted

/-- The integers of a payload are checked as they are given, and every row made from
it holds them. -/
def KeepsIntegers (config : Config) (userId : Int) (payload : Json) (isAdmin : Bool) : Prop :=
  ∀ field ∈ integerFields, ∀ given, payload.givenInt field.names = some given →
    (Accepts config userId payload isAdmin → field.documented given = true) ∧
      ∀ steps world, ∀ row ∈ insertedRows config (create config userId payload isAdmin) steps world,
        field.column row = some given

/-- Integers are neither checked nor stored modulo 2^32 exactly if the request is
refused as unknown or invalid, or each of them fits an int. -/
theorem create_keeps_integers (userId : Int) (payload : Json) (isAdmin : Bool) :
    KeepsIntegers config userId payload isAdmin ↔
      userId ≤ 0 ∨ (validationError (trimmed (.fromJson payload))).isSome = true ∨
        ∀ field ∈ integerFields, ∀ given, payload.givenInt field.names = some given → FitsInt given := by
  constructor
  · intro keeps
    by_cases known : 0 < userId
    · cases valid : validationError (trimmed (.fromJson payload)) with
      | some error => exact .inr (.inl rfl)
      | none =>
        -- the request inserts its row into an empty database, with the narrowed integers
        refine .inr (.inr fun field member given gives => ?_)
        obtain ⟨requestId, inserts⟩ := insertedRows_create config isAdmin known valid
        have stored := (keeps field member given gives).2 (undisturbed 6) firstTick _
          (inserts ▸ List.mem_singleton_self _)
        rw [CreatesRow.column ⟨_, _, _, rfl⟩ 1 member gives] at stored
        exact (wrapInt_eq_iff given).mp (Option.some.inj stored)
    · exact .inl (Int.not_lt.mp known)
  · intro condition field member given gives
    constructor
    · intro accepts
      rcases condition with unknown | invalid | fit
      · exact absurd (create_of_unknown unknown) (accepts _)
      · rw [accepts.valid] at invalid
        cases invalid
      · have documented := documented_of_valid accepts.valid member gives
        rwa [(wrapInt_eq_iff given).mpr (fit field member given gives)] at documented
    · intro steps world row inserts
      rcases condition with unknown | invalid | fit
      · rw [create_of_unknown unknown] at inserts
        cases inserts
      · obtain ⟨error, invalid⟩ := Option.isSome_iff_exists.mp invalid
        rw [create_of_invalid invalid] at inserts
        cases inserts
      · obtain ⟨values, id, rfl, creates⟩ := creates_of_inserted inserts
        rw [creates.column id member gives, (wrapInt_eq_iff given).mpr (fit field member given gives)]

/-- More steps than a day's work, by 2^32. -/
def overflowingPayload : Json :=
  .object [("prompt", .string "abc"), ("num_steps", .integer 4294967304)]

/-- It is accepted, and eight steps are stored. -/
theorem create_wraps_integers : Accepts defaultConfig 1 overflowingPayload false ∧
    (insertedRows defaultConfig (create defaultConfig 1 overflowingPayload false) (undisturbed 6)
      firstTick).map Row.num_steps = [8] ∧
    ¬ KeepsIntegers defaultConfig 1 overflowingPayload false := by
  have stores : (insertedRows defaultConfig (create defaultConfig 1 overflowingPayload false)
      (undisturbed 6) firstTick).map Row.num_steps = [8] := by decide +kernel
  refine ⟨fun error same => ?_, stores, fun keeps => ?_⟩
  · cases same
  · obtain ⟨row, inserted, steps⟩ := List.mem_map.mp (stores ▸ List.mem_singleton_self 8)
    have kept := (keeps _ List.mem_cons_self 4294967304 (by decide)).2 _ _ row inserted
    simp only [Option.some.injEq] at kept
    omega

end Text2Image
