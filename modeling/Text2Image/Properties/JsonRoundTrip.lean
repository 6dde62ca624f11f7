import Text2Image.Models.CivilTime
import Text2Image.Models.ImageGeneration

/-! A task and its JSON form determine each other. -/

set_option autoImplicit false

namespace Text2Image.ImageGeneration

/-- The value is one of a signed integer of so many bits. -/
def FitsBits (bits : Nat) (value : Int) : Prop :=
  -2 ^ (bits - 1) ≤ value ∧ value < 2 ^ (bits - 1)

instance (bits : Nat) (value : Int) : Decidable (FitsBits bits value) :=
  inferInstanceAs (Decidable (_ ∧ _))

/-- The integers of a task are of the widths that the record declares. -/
structure DeclaredWidths (image : ImageGeneration) : Prop where
  id : FitsBits 64 image.id
  user_id : FitsBits 64 image.user_id
  num_steps : FitsBits 32 image.num_steps
  height : FitsBits 32 image.height
  width : FitsBits 32 image.width
  seed : ∀ value ∈ image.seed, FitsBits 32 value
  retry_count : FitsBits 32 image.retry_count
  max_retries : FitsBits 32 image.max_retries

/-- Whole seconds that `system_clock` can keep, not before 1970 and not after 9999. -/
def PlainTime (tp : TimePoint) : Prop :=
  ∃ count : Int, tp = Chrono.seconds count ∧ Chrono.Representable (Chrono.seconds count) ∧
    0 ≤ count ∧ count < 253402300800

structure PlainTimes (image : ImageGeneration) : Prop where
  created_at : PlainTime image.created_at
  started_at : ∀ tp ∈ image.started_at, PlainTime tp
  completed_at : ∀ tp ∈ image.completed_at, PlainTime tp
  cancelled_at : ∀ tp ∈ image.cancelled_at, PlainTime tp
  lease_expires_at : ∀ tp ∈ image.lease_expires_at, PlainTime tp

theorem wrapInt_of_fits {bits : Nat} {value : Int} (wide : 0 < bits) (fits : FitsBits bits value) :
    wrapInt bits value = value := by
  obtain ⟨low, high⟩ := fits
  obtain ⟨bits, rfl⟩ := Nat.exists_eq_add_of_le' wide
  simp only [Nat.add_sub_cancel] at low high
  unfold wrapInt
  apply Int.bmod_eq_of_le
  · rw [Nat.pow_succ]
    push_cast
    omega
  · rw [Nat.pow_succ]
    push_cast
    omega

/-- An optional value, every present one of which is kept. -/
theorem bind_eq_self {α : Type} {value : Option α} {read : α → Option α}
    (kept : ∀ x ∈ value, read x = some x) : value.bind read = value := by
  cases value with
  | none => rfl
  | some x => exact kept x rfl

theorem timeRead_of_plain {tp : TimePoint} (plain : PlainTime tp) : timeRead tp = some tp := by
  obtain ⟨count, rfl, fits, first, last⟩ := plain
  exact Chrono.fromDbString_toDbString first last fits

/-- Of such a task nothing is lost. -/
theorem reread_eq {image : ImageGeneration} (widths : DeclaredWidths image) (times : PlainTimes image) :
    image.reread = image := by
  have seed : image.seed.map (wrapInt 32) = image.seed := by
    rw [Option.map_eq_bind]
    exact bind_eq_self fun value present => congrArg some (wrapInt_of_fits (by decide) (widths.seed value present))
  have started := bind_eq_self fun tp present => timeRead_of_plain (times.started_at tp present)
  have completed := bind_eq_self fun tp present => timeRead_of_plain (times.completed_at tp present)
  have cancelled := bind_eq_self fun tp present => timeRead_of_plain (times.cancelled_at tp present)
  have expires := bind_eq_self fun tp present => timeRead_of_plain (times.lease_expires_at tp present)
  simp only [reread, wrapInt_of_fits (by decide) widths.id, wrapInt_of_fits (by decide) widths.user_id,
    wrapInt_of_fits (by decide) widths.num_steps, wrapInt_of_fits (by decide) widths.height,
    wrapInt_of_fits (by decide) widths.width, wrapInt_of_fits (by decide) widths.retry_count,
    wrapInt_of_fits (by decide) widths.max_retries, seed, timeRead_of_plain times.created_at,
    Option.getD_some, started, completed, cancelled, expires]

/-- The JSON form of a task gives back the task. -/
theorem json_keeps {image : ImageGeneration} (widths : DeclaredWidths image) (times : PlainTimes image) :
    fromJson image.toJson = image := by
  rw [fromJson_toJson, reread_eq widths times]

/-- Made in the last second of a year, cancelled on a leap day, and of a status the code does not know. -/
def leapTask : ImageGeneration :=
  { id := 7
    seed := some (-1)
    status := .Unknown
    created_at := Chrono.seconds 1704067199
    cancelled_at := some (Chrono.seconds 1709251199) }

theorem json_keeps_leapTask : fromJson leapTask.toJson = leapTask :=
  json_keeps
    { id := by decide
      user_id := by decide
      num_steps := by decide
      height := by decide
      width := by decide
      seed := by decide
      retry_count := by decide
      max_retries := by decide }
    { created_at := ⟨1704067199, rfl, by decide, by decide, by decide⟩
      started_at := by simp [leapTask]
      completed_at := by simp [leapTask]
      cancelled_at := by
        intro tp present
        exact ⟨1709251199, (Option.some.inj present).symm, by decide, by decide, by decide⟩
      lease_expires_at := by simp [leapTask] }

end Text2Image.ImageGeneration
