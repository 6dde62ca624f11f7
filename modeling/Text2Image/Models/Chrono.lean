import Mathlib.Algebra.Group.Int.Defs
import Mathlib.Algebra.Group.Nat.Defs

/-! Points in time and their text in the database and in JSON.

A time point counts nanoseconds from the epoch; a DATETIME column counts whole
seconds. The calendar is the proleptic Gregorian one, in UTC.
-/

set_option autoImplicit false

namespace Text2Image

/-- Nanoseconds since the epoch. -/
abbrev TimePoint := Int

/-- A DATETIME value: whole seconds since the epoch. -/
abbrev DbTime := Int

namespace Chrono

def ticksPerSecond : Int := 1000000000

def seconds (count : Int) : Int := count * ticksPerSecond

/-- The second a time point falls in; what `toDbString` writes. -/
def toDbTime (tp : TimePoint) : DbTime := tp.fdiv ticksPerSecond

/-- What `system_clock` keeps of a count of nanoseconds: 64 bits of it, with the sign. -/
def wrapTicks (count : Int) : TimePoint := count.bmod (2 ^ 64)

/-- The count is one that `system_clock` can keep. -/
def Representable (count : Int) : Prop := -2 ^ 63 ≤ count ∧ count < 2 ^ 63

instance (count : Int) : Decidable (Representable count) := inferInstanceAs (Decidable (_ ∧ _))

/-- `system_clock::from_time_t`. -/
def fromTimeT (t : Int) : TimePoint := wrapTicks (seconds t)

/-- A time so many seconds after another. -/
def after (tp : TimePoint) (count : Int) : TimePoint := wrapTicks (tp + seconds count)

/-- What reading back the text of a DATETIME gives; `timegm` reports failure by -1. -/
def fromDbTime (t : DbTime) : Option TimePoint :=
  if t = -1 then none else some (fromTimeT t)

/-- Day number of a civil date, counted from the epoch (months 1 to 12). -/
def daysFromCivil (year month day : Int) : Int :=
  let y := if month ≤ 2 then year - 1 else year
  let era := y.fdiv 400
  let yearOfEra := y - era * 400
  let shifted := if month > 2 then month - 3 else month + 9
  let dayOfYear := (153 * shifted + 2) / 5 + day - 1
  let dayOfEra := yearOfEra * 365 + yearOfEra / 4 - yearOfEra / 100 + dayOfYear
  era * 146097 + dayOfEra - 719468

/-- The civil date (year, month, day) of a day number. -/
def civilFromDays (days : Int) : Int × Int × Int :=
  let z := days + 719468
  let era := z.fdiv 146097
  let dayOfEra := z - era * 146097
  let yearOfEra := (dayOfEra - dayOfEra / 1460 + dayOfEra / 36524 - dayOfEra / 146096) / 365
  let dayOfYear := dayOfEra - (365 * yearOfEra + yearOfEra / 4 - yearOfEra / 100)
  let shifted := (5 * dayOfYear + 2) / 153
  let day := dayOfYear - (153 * shifted + 2) / 5 + 1
  let month := if shifted < 10 then shifted + 3 else shifted - 9
  let year := yearOfEra + era * 400
  (if month ≤ 2 then year + 1 else year, month, day)

def twoDigits (n : Int) : String :=
  if n < 10 then "0" ++ toString n else toString n

/-- `put_time` with the format `%Y-%m-%d %H:%M:%S`. -/
def textOfDbTime (t : DbTime) : String :=
  let (year, month, day) := civilFromDays (t.fdiv 86400)
  let rest := t.fmod 86400
  toString year ++ "-" ++ twoDigits month ++ "-" ++ twoDigits day ++ " " ++
    twoDigits (rest / 3600) ++ ":" ++ twoDigits (rest / 60 % 60) ++ ":" ++ twoDigits (rest % 60)

def toDbString (tp : TimePoint) : String := textOfDbTime (toDbTime tp)

/-! ## Reading -/

def isSpace (c : Char) : Bool :=
  c = ' ' ∨ c = '\t' ∨ c = '\n' ∨ c.toNat = 11 ∨ c.toNat = 12 ∨ c = '\r'

theorem blank_le {c : Char} (blank : isSpace c = true) : c.toNat ≤ 32 := by
  simp only [isSpace, decide_eq_true_eq] at blank
  rcases blank with rfl | rfl | rfl | h | h | rfl
  · decide
  · decide
  · decide
  · omega
  · omega
  · decide

/-- A text with nothing to cut off is left alone at both ends. -/
theorem cut_solid {cut : Char → Bool} {text : List Char} (solid : ∀ c ∈ text, cut c = false) :
    ((text.dropWhile cut).reverse.dropWhile cut).reverse = text := by
  have kept : ∀ {text : List Char}, (∀ c ∈ text, cut c = false) → text.dropWhile cut = text := by
    intro text solid
    cases text with
    | nil => rfl
    | cons c rest => rw [List.dropWhile_cons_of_neg (by simp [solid c List.mem_cons_self])]
  rw [kept solid, kept (by simpa using solid), List.reverse_reverse]

def digitsPrefix : Nat → List Char → List Char
  | width + 1, c :: rest => if c.isDigit then c :: digitsPrefix width rest else []
  | _, _ => []

/-- A decimal number of at most `width` digits between the two bounds. -/
def readNumber (low high : Int) (width : Nat) (text : List Char) : Option (Int × List Char) :=
  let digits := digitsPrefix width text
  let value : Int := digits.foldl (fun n c => n * 10 + (c.toNat - 48 : Int)) 0
  if digits.isEmpty ∨ value < low ∨ value > high then none
  else some (value, text.drop digits.length)

/-- What `get_time` fills in of a `tm`. -/
structure Tm where
  tm_year : Int := 0
  tm_mon : Int := 0
  tm_mday : Int := 0
  tm_hour : Int := 0
  tm_min : Int := 0
  tm_sec : Int := 0
  deriving DecidableEq, Repr

/-- The days of the month are counted on from its beginning, also the one before its first. -/
def timegm (tm : Tm) : Int :=
  daysFromCivil (tm.tm_year + 1900) (tm.tm_mon + 1) 1 * 86400 + (tm.tm_mday - 1) * 86400 +
    tm.tm_hour * 3600 + tm.tm_min * 60 + tm.tm_sec

/-- The conversions `%Y`, `%m`, `%d`, `%H`, `%M` and `%S`. -/
inductive Conversion where
  | Y | m | d | H | M | S
  deriving DecidableEq, Repr

/-- The least and the greatest number, and how many digits it has at most. -/
def Conversion.bounds : Conversion → Int × Int × Nat
  | .Y => (0, 9999, 4)
  | .m => (1, 12, 2)
  | .d => (1, 31, 2)
  | .H => (0, 23, 2)
  | .M => (0, 59, 2)
  | .S => (0, 60, 2)

def Conversion.store : Conversion → Int → Tm → Tm
  | .Y, value, tm => { tm with tm_year := value - 1900 }
  | .m, value, tm => { tm with tm_mon := value - 1 }
  | .d, value, tm => { tm with tm_mday := value }
  | .H, value, tm => { tm with tm_hour := value }
  | .M, value, tm => { tm with tm_min := value }
  | .S, value, tm => { tm with tm_sec := value }

/-- One blank may stand before the day. -/
def Conversion.skip : Conversion → List Char → List Char
  | .d, c :: rest => if isSpace c then rest else c :: rest
  | _, text => text

def Conversion.read (conversion : Conversion) (text : List Char) : Option (Int × List Char) :=
  readNumber conversion.bounds.1 conversion.bounds.2.1 conversion.bounds.2.2 (conversion.skip text)

inductive Directive where
  | number (conversion : Conversion)
  /-- Any number of blanks. -/
  | blank
  | literal (c : Char)
  deriving DecidableEq, Repr

/-- `time_get::get`. A text that ends with a number is read as far as it goes; one that
ends where the format goes on otherwise fails.
-/
def getTime : List Directive → List Char → Tm → Option Tm
  | [], _, tm => some tm
  | _ :: _, [], _ => none
  | .number conversion :: format, c :: rest, tm =>
    match conversion.read (c :: rest) with
    | none => none
    | some (value, []) => some (conversion.store value tm)
    | some (value, text) => getTime format text (conversion.store value tm)
  | .blank :: format, c :: rest, tm => getTime format ((c :: rest).dropWhile isSpace) tm
  | .literal l :: format, c :: rest, tm => if c = l then getTime format rest tm else none

/-- `%Y-%m-%d %H:%M:%S`. -/
def dbFormat : List Directive :=
  [.number .Y, .literal '-', .number .m, .literal '-', .number .d, .blank, .number .H, .literal ':', .number .M,
    .literal ':', .number .S]

def fromDbString (value : String) : Option TimePoint :=
  let cleaned := value.toList.takeWhile (· ≠ '.') |>.map fun ch => if ch = 'T' then ' ' else ch
  (getTime dbFormat (cleaned.dropWhile isSpace) {}).bind fun tm => fromDbTime (timegm tm)

theorem toDbTime_seconds (count : Int) : toDbTime (seconds count) = count :=
  Int.mul_fdiv_cancel count (by decide)

theorem toDbTime_le {first second : TimePoint} (le : first ≤ second) : toDbTime first ≤ toDbTime second := by
  unfold toDbTime
  rw [Int.fdiv_eq_ediv_of_nonneg _ (by decide), Int.fdiv_eq_ediv_of_nonneg _ (by decide)]
  exact Int.ediv_le_ediv (by decide) le

theorem wrapTicks_of_representable {count : Int} (fits : Representable count) : wrapTicks count = count := by
  obtain ⟨low, high⟩ := fits
  apply Int.bmod_eq_of_le <;> omega

/-- What does not fit comes out too small. -/
theorem wrapTicks_le {count : Int} (nonneg : 0 ≤ count) : wrapTicks count ≤ count := by
  show Int.bmod count (2 ^ 64) ≤ count
  unfold Int.bmod
  dsimp only
  split <;> omega

/-- The text may stop after any of its numbers; the days of a month without a day begin before it. -/
example : ["2024-01-01", "2024-05", "2024", "2024-"].map fromDbString =
    [some (seconds 1704067200), some (seconds 1714435200), some (seconds 1703980800), none] := by decide

example : fromDbString (toDbString (seconds 1709251199)) = some (seconds 1709251199) := by decide

end Chrono

end Text2Image
