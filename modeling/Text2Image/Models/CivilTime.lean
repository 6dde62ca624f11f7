import Mathlib.Data.List.TakeWhile
import Mathlib.Tactic.IntervalCases
import Text2Image.Models.Chrono

/-! The calendar and the text of a time, read back. -/

set_option autoImplicit false

namespace Text2Image.Chrono

/-! ## The calendar -/

/-- The days of 400 years, by years that begin in March: which year, and which of its days. -/
theorem dayOfYear_bounds {dayOfEra yearOfEra : Int} (first : 0 ≤ dayOfEra) (last : dayOfEra ≤ 146096)
    (year : yearOfEra = (dayOfEra - dayOfEra / 1460 + dayOfEra / 36524 - dayOfEra / 146096) / 365) :
    (0 ≤ yearOfEra ∧ yearOfEra ≤ 399) ∧
      0 ≤ dayOfEra - (365 * yearOfEra + yearOfEra / 4 - yearOfEra / 100) ∧
      dayOfEra - (365 * yearOfEra + yearOfEra / 4 - yearOfEra / 100) ≤ 365 := by
  have years : 0 ≤ yearOfEra ∧ yearOfEra ≤ 399 := by omega
  refine ⟨years, ?_⟩
  -- by the century of the day and of the year
  have centuries : 0 ≤ dayOfEra / 36524 ∧ dayOfEra / 36524 ≤ 4 := by omega
  have hundreds : 0 ≤ yearOfEra / 100 ∧ yearOfEra / 100 ≤ 3 := by omega
  obtain ⟨fromCentury, toCentury⟩ := centuries
  obtain ⟨fromHundred, toHundred⟩ := hundreds
  generalize century : dayOfEra / 36524 = q at *
  generalize hundred : yearOfEra / 100 = g at *
  interval_cases q <;> interval_cases g <;> omega

/-- A day number as the eras, years and days it consists of. -/
structure DayParts (days : Int) where
  era : Int
  year : Int
  day : Int
  years : 0 ≤ year ∧ year ≤ 399
  daysOfYear : 0 ≤ day ∧ day ≤ 365
  total : days = era * 146097 + (year * 365 + year / 4 - year / 100 + day) - 719468
  civil : civilFromDays days =
    (if (if (5 * day + 2) / 153 < 10 then (5 * day + 2) / 153 + 3 else (5 * day + 2) / 153 - 9) ≤ 2 then
        year + era * 400 + 1 else year + era * 400,
      if (5 * day + 2) / 153 < 10 then (5 * day + 2) / 153 + 3 else (5 * day + 2) / 153 - 9,
      day - (153 * ((5 * day + 2) / 153) + 2) / 5 + 1)

def dayParts (days : Int) : DayParts days :=
  let era := (days + 719468).fdiv 146097
  let dayOfEra := days + 719468 - era * 146097
  let year := (dayOfEra - dayOfEra / 1460 + dayOfEra / 36524 - dayOfEra / 146096) / 365
  have within : 0 ≤ dayOfEra ∧ dayOfEra ≤ 146096 := by
    have whole : era = (days + 719468) / 146097 := Int.fdiv_eq_ediv_of_nonneg _ (by decide)
    simp only [dayOfEra, whole]
    omega
  have bounds := dayOfYear_bounds within.1 within.2 rfl
  { era
    year
    day := dayOfEra - (365 * year + year / 4 - year / 100)
    years := bounds.1
    daysOfYear := bounds.2
    total := by omega
    civil := rfl }

theorem month_bounds (days : Int) : 1 ≤ (civilFromDays days).2.1 ∧ (civilFromDays days).2.1 ≤ 12 := by
  obtain ⟨era, year, day, _, bounds, _, civil⟩ := dayParts days
  rw [civil]
  dsimp only
  omega

theorem day_bounds (days : Int) : 1 ≤ (civilFromDays days).2.2 ∧ (civilFromDays days).2.2 ≤ 31 := by
  obtain ⟨era, year, day, _, bounds, _, civil⟩ := dayParts days
  rw [civil]
  dsimp only
  omega

/-- From 1970-01-01 to 9999-12-31. -/
theorem year_bounds {days : Int} (first : 0 ≤ days) (last : days ≤ 2932896) :
    1970 ≤ (civilFromDays days).1 ∧ (civilFromDays days).1 ≤ 9999 := by
  obtain ⟨era, year, day, years, bounds, total, civil⟩ := dayParts days
  rw [civil]
  dsimp only
  have hundreds : 0 ≤ year / 100 ∧ year / 100 ≤ 3 := by omega
  obtain ⟨fromHundred, toHundred⟩ := hundreds
  have months : 0 ≤ (5 * day + 2) / 153 ∧ (5 * day + 2) / 153 ≤ 11 := by omega
  have eras : era ≤ 4 ∨ 5 ≤ era := by omega
  generalize hundred : year / 100 = g at *
  by_cases late : (5 * day + 2) / 153 < 10
  · have month : ¬ (5 * day + 2) / 153 + 3 ≤ 2 := by omega
    simp only [if_pos late, if_neg month]
    interval_cases g <;> omega
  · have month : (5 * day + 2) / 153 - 9 ≤ 2 := by omega
    simp only [if_neg late, if_pos month]
    interval_cases g <;> omega

/-- The days of a month follow each other. -/
theorem daysFromCivil_day (year month day : Int) :
    daysFromCivil year month day = daysFromCivil year month 1 + (day - 1) := by
  unfold daysFromCivil
  dsimp only
  omega

theorem daysFromCivil_civilFromDays (days : Int) :
    daysFromCivil (civilFromDays days).1 (civilFromDays days).2.1 (civilFromDays days).2.2 = days := by
  obtain ⟨era, year, day, years, bounds, total, civil⟩ := dayParts days
  rw [civil]
  unfold daysFromCivil
  dsimp only
  have march : (year + era * 400).fdiv 400 = era := by
    rw [Int.fdiv_eq_ediv_of_nonneg _ (by decide)]
    omega
  have inEra : year + era * 400 - era * 400 = year := by omega
  by_cases late : (5 * day + 2) / 153 < 10
  · have month : ¬ (5 * day + 2) / 153 + 3 ≤ 2 := by omega
    have later : (5 * day + 2) / 153 + 3 > 2 := by omega
    have back : (5 * day + 2) / 153 + 3 - 3 = (5 * day + 2) / 153 := by omega
    simp only [if_pos late, if_neg month, if_pos later, march, inEra, back]
    omega
  · have month : (5 * day + 2) / 153 - 9 ≤ 2 := by omega
    have sooner : ¬ (5 * day + 2) / 153 - 9 > 2 := by omega
    have january : year + era * 400 + 1 - 1 = year + era * 400 := by omega
    have back : (5 * day + 2) / 153 - 9 + 9 = (5 * day + 2) / 153 := by omega
    simp only [if_neg late, if_pos month, if_neg sooner, january, march, inEra, back]
    omega

/-! ## Numbers of a fixed width -/

/-- The last digits of a number. -/
def lastDigits : Nat → Nat → List Char
  | 0, _ => []
  | width + 1, n => lastDigits width (n / 10) ++ [Nat.digitChar (n % 10)]

theorem length_lastDigits (width n : Nat) : (lastDigits width n).length = width := by
  induction width generalizing n with
  | zero => rfl
  | succ width ih => simp [lastDigits, ih]

theorem isDigit_lastDigits {width n : Nat} {c : Char} (member : c ∈ lastDigits width n) : c.isDigit = true := by
  induction width generalizing n with
  | zero => cases member
  | succ width ih =>
    rcases List.mem_append.mp member with front | back
    · exact ih front
    · rw [List.mem_singleton.mp back, Nat.isDigit_digitChar]
      exact decide_eq_true (Nat.mod_lt _ (by decide))

/-- The value that reading accumulates. -/
theorem foldl_lastDigits (width n : Nat) (start : Int) (fits : n < 10 ^ width) :
    (lastDigits width n).foldl (fun value c => value * 10 + (c.toNat - 48 : Int)) start = start * 10 ^ width + n := by
  induction width generalizing n with
  | zero =>
    have zero : n = 0 := by simpa using fits
    simp [lastDigits, zero]
  | succ width ih =>
    have front : n / 10 < 10 ^ width := by
      rw [Nat.pow_succ] at fits
      omega
    have digit : ((Nat.digitChar (n % 10)).toNat : Int) - 48 = n % 10 := by
      rw [Nat.toNat_digitChar_of_lt_ten (Nat.mod_lt _ (by decide))]
      omega
    simp only [lastDigits, List.foldl_append, List.foldl_cons, List.foldl_nil, ih (n / 10) front, digit]
    rw [Int.pow_succ, ← Int.mul_assoc]
    generalize start * 10 ^ width = whole
    omega

theorem digitsPrefix_append {digits rest : List Char} (all : ∀ c ∈ digits, c.isDigit = true) :
    digitsPrefix digits.length (digits ++ rest) = digits := by
  induction digits with
  | nil => cases rest <;> rfl
  | cons c digits ih =>
    obtain ⟨first, later⟩ := List.forall_mem_cons.mp all
    simp only [List.length_cons, List.cons_append, digitsPrefix, first, if_true, ih later]

theorem readNumber_lastDigits {low high : Int} {width n : Nat} {rest : List Char} (wide : 0 < width)
    (fits : n < 10 ^ width) (above : low ≤ n) (below : n ≤ high) :
    readNumber low high width (lastDigits width n ++ rest) = some ((n : Int), rest) := by
  have digits : digitsPrefix width (lastDigits width n ++ rest) = lastDigits width n := by
    have found : digitsPrefix (lastDigits width n).length (lastDigits width n ++ rest) = lastDigits width n :=
      digitsPrefix_append fun c => isDigit_lastDigits
    rwa [length_lastDigits] at found
  have written : lastDigits width n ≠ [] := by
    intro nothing
    have length := length_lastDigits width n
    rw [nothing] at length
    simp only [List.length_nil] at length
    omega
  have value := foldl_lastDigits width n 0 fits
  rw [Int.zero_mul, Int.zero_add] at value
  simp only [readNumber, digits, value, List.isEmpty_iff, written, false_or, List.drop_left]
  rw [if_neg (by omega)]

theorem toList_toString (n : Nat) : (toString (n : Int)).toList = Nat.toDigits 10 n := by
  rw [Int.toString_eq_repr, Int.repr_eq_if, if_pos (Int.natCast_nonneg n), Nat.toList_repr, Int.toNat_natCast]

/-- A four-digit year stands as it is. -/
theorem toString_year {year : Nat} (first : 1000 ≤ year) (last : year ≤ 9999) :
    (toString (year : Int)).toList = lastDigits 4 year := by
  rw [toList_toString, Nat.toDigits_of_base_le (by decide) (by omega), Nat.toDigits_of_base_le (by decide) (by omega),
    Nat.toDigits_of_base_le (by decide) (by omega), Nat.toDigits_of_lt_base (by omega)]
  simp only [lastDigits, List.nil_append]
  rw [Nat.mod_eq_of_lt (by omega : year / 10 / 10 / 10 < 10)]

theorem toList_twoDigits {n : Nat} (fits : n < 100) : (twoDigits n).toList = lastDigits 2 n := by
  unfold twoDigits
  by_cases small : n < 10
  · rw [if_pos (by omega), String.toList_append, toList_toString, Nat.toDigits_of_lt_base small]
    simp only [lastDigits, List.nil_append]
    rw [Nat.div_eq_of_lt small, Nat.mod_eq_of_lt small]
    rfl
  · rw [if_neg (by omega), toList_toString, Nat.toDigits_of_base_le (by decide) (by omega),
      Nat.toDigits_of_lt_base (by omega)]
    simp only [lastDigits, List.nil_append]
    rw [Nat.mod_eq_of_lt (by omega : n / 10 < 10)]

/-! ## The text of a time -/

/-- The six numbers of a time, as `%Y-%m-%d %H:%M:%S` prints them. -/
def fieldsText (year month day hour minute second : Nat) : List Char :=
  lastDigits 4 year ++ '-' :: (lastDigits 2 month ++ '-' :: (lastDigits 2 day ++ ' ' ::
    (lastDigits 2 hour ++ ':' :: (lastDigits 2 minute ++ ':' :: lastDigits 2 second))))

theorem plain_of_digit {c : Char} (digit : c.isDigit = true) : c ≠ '.' ∧ c ≠ 'T' := by
  constructor <;> rintro rfl <;> simp at digit

/-- No character of a printed time is one that reading drops or replaces. -/
theorem plain_of_fieldsText {year month day hour minute second : Nat} {c : Char}
    (member : c ∈ fieldsText year month day hour minute second) : c ≠ '.' ∧ c ≠ 'T' := by
  simp only [fieldsText, List.mem_append, List.mem_cons] at member
  rcases member with digit | rfl | digit | rfl | digit | rfl | digit | rfl | digit | rfl | digit
  all_goals first
    | exact plain_of_digit (isDigit_lastDigits digit)
    | decide

theorem cleaned_fieldsText (year month day hour minute second : Nat) :
    ((fieldsText year month day hour minute second).takeWhile (· ≠ '.')).map
      (fun ch => if ch = 'T' then ' ' else ch) = fieldsText year month day hour minute second := by
  have whole : (fieldsText year month day hour minute second).takeWhile (· ≠ '.') =
      fieldsText year month day hour minute second := by
    rw [List.takeWhile_eq_self_iff]
    intro c member
    simpa using (plain_of_fieldsText member).1
  rw [whole]
  calc (fieldsText year month day hour minute second).map (fun ch => if ch = 'T' then ' ' else ch)
    _ = (fieldsText year month day hour minute second).map id :=
        List.map_congr_left fun c member => if_neg (plain_of_fieldsText member).2
    _ = fieldsText year month day hour minute second := List.map_id _

/-- No blank begins a number. -/
theorem lastDigits_eq_cons {width : Nat} (wide : 0 < width) (n : Nat) :
    ∃ c digits, lastDigits width n = c :: digits ∧ isSpace c = false := by
  obtain ⟨c, digits, written⟩ : ∃ c digits, lastDigits width n = c :: digits :=
    List.exists_cons_of_length_pos (by rwa [length_lastDigits])
  have digit : c.isDigit = true := isDigit_lastDigits (by rw [written]; exact List.mem_cons_self)
  have low : 48 ≤ c.toNat := (Char.isDigit_iff_toNat.mp digit).1
  refine ⟨c, digits, written, Bool.eq_false_iff.mpr fun blank => ?_⟩
  have high := blank_le blank
  omega

theorem dropWhile_lastDigits {width n : Nat} (wide : 0 < width) (rest : List Char) :
    (lastDigits width n ++ rest).dropWhile isSpace = lastDigits width n ++ rest := by
  obtain ⟨c, digits, written, solid⟩ := lastDigits_eq_cons wide n
  rw [written, List.cons_append, List.dropWhile_cons_of_neg (by simp [solid])]

section

variable {conversion : Conversion} {low high : Int} {width n : Nat}

theorem read_lastDigits (bounds : conversion.bounds = (low, high, width)) (wide : 0 < width) (rest : List Char)
    (fits : n < 10 ^ width) (above : low ≤ n) (below : n ≤ high) :
    conversion.read (lastDigits width n ++ rest) = some ((n : Int), rest) := by
  have kept : conversion.skip (lastDigits width n ++ rest) = lastDigits width n ++ rest := by
    obtain ⟨c, digits, written, solid⟩ := lastDigits_eq_cons wide n
    rw [written]
    cases conversion with
    | d => exact if_neg (by simp [solid])
    | _ => rfl
  rw [Conversion.read, kept, bounds]
  exact readNumber_lastDigits wide fits above below

/-- A number with more text after it. -/
theorem getTime_number (bounds : conversion.bounds = (low, high, width)) (wide : 0 < width)
    (format : List Directive) (c : Char) (rest : List Char) (tm : Tm)
    (fits : n < 10 ^ width) (above : low ≤ n) (below : n ≤ high) :
    getTime (.number conversion :: format) (lastDigits width n ++ c :: rest) tm =
      getTime format (c :: rest) (conversion.store n tm) := by
  have found := read_lastDigits bounds wide (c :: rest) fits above below
  obtain ⟨first, digits, written, _⟩ := lastDigits_eq_cons wide n
  rw [written, List.cons_append] at found ⊢
  simp only [getTime, found]

/-- A number at the end of the text, whatever the format goes on with. -/
theorem getTime_lastNumber (bounds : conversion.bounds = (low, high, width)) (wide : 0 < width)
    (format : List Directive) (tm : Tm) (fits : n < 10 ^ width) (above : low ≤ n) (below : n ≤ high) :
    getTime (.number conversion :: format) (lastDigits width n) tm = some (conversion.store n tm) := by
  have found := read_lastDigits bounds wide [] fits above below
  rw [List.append_nil] at found
  obtain ⟨first, digits, written, _⟩ := lastDigits_eq_cons wide n
  rw [written] at found ⊢
  simp only [getTime, found]

theorem getTime_literal (format : List Directive) (c : Char) (rest : List Char) (tm : Tm) :
    getTime (.literal c :: format) (c :: rest) tm = getTime format rest tm := if_pos rfl

end

/-- Printed fields within their bounds are read back. -/
theorem getTime_fieldsText {year month day hour minute second : Nat} (years : year ≤ 9999)
    (months : 1 ≤ month ∧ month ≤ 12) (days : 1 ≤ day ∧ day ≤ 31) (hours : hour ≤ 23)
    (minutes : minute ≤ 59) (seconds : second ≤ 60) :
    getTime dbFormat ((fieldsText year month day hour minute second).dropWhile isSpace) {} =
      some ⟨year - 1900, month - 1, day, hour, minute, second⟩ := by
  unfold fieldsText dbFormat
  rw [dropWhile_lastDigits (by decide),
    getTime_number (rfl : Conversion.Y.bounds = (0, 9999, 4)) (by decide) _ _ _ _ (by omega) (by omega) (by omega),
    getTime_literal,
    getTime_number (rfl : Conversion.m.bounds = (1, 12, 2)) (by decide) _ _ _ _ (by omega) (by omega) (by omega),
    getTime_literal,
    getTime_number (rfl : Conversion.d.bounds = (1, 31, 2)) (by decide) _ _ _ _ (by omega) (by omega) (by omega)]
  rw [getTime, List.dropWhile_cons_of_pos (by decide), dropWhile_lastDigits (by decide),
    getTime_number (rfl : Conversion.H.bounds = (0, 23, 2)) (by decide) _ _ _ _ (by omega) (by omega) (by omega),
    getTime_literal,
    getTime_number (rfl : Conversion.M.bounds = (0, 59, 2)) (by decide) _ _ _ _ (by omega) (by omega) (by omega),
    getTime_literal,
    getTime_lastNumber (rfl : Conversion.S.bounds = (0, 60, 2)) (by decide) _ _ (by omega) (by omega) (by omega)]
  rfl

/-- A time up to the year 9999 is printed by its six fields, from which it can be computed. -/
theorem toList_textOfDbTime {t : Int} (first : 0 ≤ t) (last : t < 253402300800) :
    ∃ year month day hour minute second : Nat,
      (textOfDbTime t).toList = fieldsText year month day hour minute second ∧
      year ≤ 9999 ∧ (1 ≤ month ∧ month ≤ 12) ∧ (1 ≤ day ∧ day ≤ 31) ∧
      hour ≤ 23 ∧ minute ≤ 59 ∧ second ≤ 60 ∧
      daysFromCivil year month 1 * 86400 + (day - 1) * 86400 + hour * 3600 + minute * 60 + second = t := by
  have whole : t.fdiv 86400 = t / 86400 := Int.fdiv_eq_ediv_of_nonneg _ (by decide)
  have part : t.fmod 86400 = t % 86400 := Int.fmod_eq_emod_of_nonneg _ (by decide)
  have years := year_bounds (by omega : 0 ≤ t / 86400) (by omega)
  have months := month_bounds (t / 86400)
  have days := day_bounds (t / 86400)
  have total := daysFromCivil_civilFromDays (t / 86400)
  rw [daysFromCivil_day] at total
  unfold textOfDbTime
  rw [whole, part]
  generalize civilFromDays (t / 86400) = date at *
  obtain ⟨year, month, day⟩ := date
  dsimp only at years months days total ⊢
  -- the numbers printed are natural ones
  obtain ⟨year, rfl⟩ := Int.eq_ofNat_of_zero_le (by omega : 0 ≤ year)
  obtain ⟨month, rfl⟩ := Int.eq_ofNat_of_zero_le (by omega : 0 ≤ month)
  obtain ⟨day, rfl⟩ := Int.eq_ofNat_of_zero_le (by omega : 0 ≤ day)
  obtain ⟨hour, hours⟩ := Int.eq_ofNat_of_zero_le (by omega : 0 ≤ t % 86400 / 3600)
  obtain ⟨minute, minutes⟩ := Int.eq_ofNat_of_zero_le (by omega : 0 ≤ t % 86400 / 60 % 60)
  obtain ⟨second, seconds⟩ := Int.eq_ofNat_of_zero_le (by omega : 0 ≤ t % 86400 % 60)
  refine ⟨year, month, day, hour, minute, second, ?_, by omega, by omega, by omega, by omega, by omega,
    by omega, by omega⟩
  rw [hours, minutes, seconds]
  simp only [String.toList_append, fieldsText]
  rw [toString_year (by omega) (by omega), toList_twoDigits (by omega), toList_twoDigits (by omega),
    toList_twoDigits (by omega), toList_twoDigits (by omega), toList_twoDigits (by omega)]
  simp

/-- A whole second survives its text: from 1970 to 9999, as far as `system_clock` reaches. -/
theorem fromDbString_toDbString {count : Int} (first : 0 ≤ count) (last : count < 253402300800)
    (fits : Representable (seconds count)) : fromDbString (toDbString (seconds count)) = some (seconds count) := by
  obtain ⟨year, month, day, hour, minute, second, text, years, months, days, hours, minutes, secs, total⟩ :=
    toList_textOfDbTime first last
  unfold fromDbString toDbString
  dsimp only
  rw [toDbTime_seconds, text, cleaned_fieldsText, getTime_fieldsText years months days hours minutes secs]
  have whole : timegm ⟨year - 1900, month - 1, day, hour, minute, second⟩ = count := by
    rw [← total]
    unfold timegm
    dsimp only
    rw [Int.sub_add_cancel, Int.sub_add_cancel]
  have succeeds : count ≠ -1 := by omega
  rw [Option.bind_some, whole, fromDbTime, if_neg succeeds, fromTimeT, wrapTicks_of_representable fits]

end Text2Image.Chrono
