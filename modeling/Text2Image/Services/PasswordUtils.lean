import Mathlib.Algebra.Group.Int.Defs
import Mathlib.Data.List.Forall2
import Text2Image.Models.Chrono
import Text2Image.Models.Json

/-! Password hashes: how they are written, and how they are read and compared. -/

set_option autoImplicit false

namespace Text2Image

/-- A C++ string as the bytes it is. -/
abbrev Bytes := List UInt8

/-- The bytes of a text in ASCII. -/
def ascii (text : List Char) : Bytes := text.map fun c => UInt8.ofNat c.toNat

def utf8 (text : String) : Bytes := text.toList.flatMap String.utf8EncodeChar

/-- The character of a byte, as the classic locale takes it. -/
def charOf (byte : UInt8) : Char := Char.ofNat byte.toNat

/-- Whether a sign in front negates, and what comes after it. -/
def sign : List Char → Bool × List Char
  | '-' :: rest => (true, rest)
  | '+' :: rest => (false, rest)
  | text => (false, text)

/-- `std::stoi` and its kin: blanks, a sign, and digits; what follows is ignored. -/
def readInteger (bits : Nat) (text : List Char) : Option Int :=
  let (negative, text) := sign (text.dropWhile Chrono.isSpace)
  let digits := text.takeWhile Char.isDigit
  if digits.isEmpty then none
  else
    let magnitude : Int := Nat.ofDigitChars 10 digits 0
    let value := if negative then -magnitude else magnitude
    if -2 ^ (bits - 1) ≤ value ∧ value < 2 ^ (bits - 1) then some value else none

namespace security

def kSaltBytes : Nat := 16

def kHashBytes : Nat := 32

def kIterations : Int := 100000

/-- PBKDF2 with HMAC-SHA256. The length of the password is passed as an `int`. -/
abbrev Pbkdf2 := (plain : Bytes) → (length : Int) → (salt : Bytes) → (iterations : Int) →
  (size : Nat) → Option (Vector UInt8 size)

/-! ## Hexadecimal digits -/

def hexDigit (n : Nat) : Char := if n < 10 then Char.ofNat (48 + n) else Char.ofNat (87 + n)

def toHex (data : Bytes) : Bytes :=
  data.flatMap fun byte => ascii [hexDigit (byte.toNat / 16), hexDigit (byte.toNat % 16)]

def digitValue (c : Char) : Option Nat :=
  if c.isDigit then some (c.toNat - 48)
  else if 'a' ≤ c ∧ c ≤ 'f' then some (c.toNat - 87)
  else if 'A' ≤ c ∧ c ≤ 'F' then some (c.toNat - 55)
  else none

/-- The value of the digits in front; nothing if there are none. -/
def leadingDigits (text : List Char) : Option Nat :=
  match text.takeWhile fun c => (digitValue c).isSome with
  | [] => none
  | digits => some (digits.foldl (fun value c => value * 16 + (digitValue c).getD 0) 0)

def skip0x : List Char → List Char
  | '0' :: 'x' :: rest | '0' :: 'X' :: rest => rest
  | text => text

/-- `iss >> std::hex >> byte` on so short a text: blanks, a sign, `0x`, and digits. -/
def extractHex (text : List Char) : Option UInt8 :=
  let (negative, text) := sign (text.dropWhile Chrono.isSpace)
  (leadingDigits (skip0x text)).map fun value =>
    if negative then 0 - UInt8.ofNat value else UInt8.ofNat value

def invalidHex : String := "Invalid hex string"

/-- The loop over the pairs of characters. -/
def fromPairs : Bytes → Except String Bytes
  | first :: second :: rest =>
    match extractHex [charOf first, charOf second] with
    | some byte => (fromPairs rest).map (byte :: ·)
    | none => .error invalidHex
  | _ => .ok []

def fromHex (hex : Bytes) : Except String Bytes :=
  if hex.length % 2 ≠ 0 then .error invalidHex else fromPairs hex

/-- The part being read, and what comes after it. -/
def splitFrom (delim : UInt8) : (cur str : Bytes) → List Bytes
  | cur, [] => [cur]
  | cur, c :: rest => if c = delim then cur :: splitFrom delim [] rest else splitFrom delim (cur ++ [c]) rest

def split (str : Bytes) (delim : UInt8) : List Bytes := splitFrom delim [] str

/-! ## Hashing and verifying -/

def dollar : UInt8 := UInt8.ofNat '$'.toNat

def algorithm : Bytes := ascii "pbkdf2_sha256".toList

/-- `std::format("pbkdf2_sha256${}${}${}", ...)` -/
def formatHash (salt out : Bytes) : Bytes :=
  algorithm ++ dollar :: ascii (toString kIterations).toList ++ dollar :: toHex salt ++
    dollar :: toHex out

/-- A salt that could not be drawn is none. -/
def hashPassword (pbkdf2 : Pbkdf2) (salt : Option (Vector UInt8 kSaltBytes)) (plain : Bytes) :
    Except String Bytes :=
  match salt with
  | none => .error "RAND_bytes failed"
  | some salt =>
    match pbkdf2 plain (wrapInt 32 plain.length) salt.toList kIterations kHashBytes with
    | none => .error "PKCS5_PBKDF2_HMAC failed"
    | some out => .ok (formatHash salt.toList out.toList)

/-- The comparison that takes as long whatever it finds. -/
def differs (out hash : Bytes) : UInt8 :=
  (out.zip hash).foldl (fun diff pair => diff ||| (pair.1 ^^^ pair.2)) 0

/-- The iteration count and the two parts in hexadecimal digits, if it has four parts, and
starts as it should.
-/
def header (stored : Bytes) : Option (Int × Bytes × Bytes) :=
  match split stored dollar with
  | [name, count, saltHex, hashHex] =>
    if name ≠ algorithm then none
    else (readInteger 32 (count.map charOf)).map fun iter => (iter, saltHex, hashHex)
  | _ => none

def matchesHash (pbkdf2 : Pbkdf2) (plain : Bytes) (iter : Int) (salt hash : Bytes) : Bool :=
  if salt.isEmpty || hash.isEmpty then false
  else
    match pbkdf2 plain (wrapInt 32 plain.length) salt iter hash.length with
    | none => false
    | some out => differs out.toList hash == 0

/-- An exception leaves the function where a part is no hex string. -/
def verifyParts (pbkdf2 : Pbkdf2) (plain : Bytes) (iter : Int) (saltHex hashHex : Bytes) :
    Except String Bool := do
  let salt ← fromHex saltHex
  let hash ← fromHex hashHex
  return matchesHash pbkdf2 plain iter salt hash

def verifyPassword (pbkdf2 : Pbkdf2) (plain stored : Bytes) : Except String Bool :=
  match header stored with
  | none => .ok false
  | some (iter, saltHex, hashHex) => verifyParts pbkdf2 plain iter saltHex hashHex

/-! ## Parts -/

theorem splitFrom_eq (delim : UInt8) (cur str : Bytes) :
    splitFrom delim cur str = str.splitOnPPrepend (· == delim) cur.reverse := by
  induction str generalizing cur with
  | nil => simp [splitFrom]
  | cons c rest ih =>
    rw [splitFrom, List.splitOnPPrepend_cons_eq_if]
    by_cases same : c = delim
    · simp [same, ih]
    · simp [same, ih]

theorem split_eq (str : Bytes) (delim : UInt8) : split str delim = str.splitOn delim :=
  splitFrom_eq delim [] str

/-! ## Pairs of digits -/

theorem le_of_digit {c : Char} {n : Nat} (digit : digitValue c = some n) : 48 ≤ c.toNat := by
  unfold digitValue at digit
  split at digit
  · rename_i h
    simp only [Char.isDigit, Bool.and_eq_true, decide_eq_true_eq] at h
    exact h.1
  · split at digit
    · rename_i h
      exact Nat.le_trans (by decide) (show 97 ≤ c.toNat from h.1)
    · split at digit
      · rename_i h
        exact Nat.le_trans (by decide) (show 65 ≤ c.toNat from h.1)
      · cases digit

theorem sign_other {c : Char} (rest : List Char) (plus : c ≠ '+') (minus : c ≠ '-') :
    sign (c :: rest) = (false, c :: rest) := by
  unfold sign
  split
  · rename_i same
    exact absurd (List.cons.inj same).1 minus
  · rename_i same
    exact absurd (List.cons.inj same).1 plus
  · rfl

theorem skip0x_single (c : Char) : skip0x [c] = [c] := by
  unfold skip0x
  split
  · rename_i same
    cases same
  · rename_i same
    cases same
  · rfl

theorem skip0x_other {first second : Char}
    (other : ¬(first = '0' ∧ (second = 'x' ∨ second = 'X'))) :
    skip0x [first, second] = [first, second] := by
  unfold skip0x
  split
  · rename_i same
    simp only [List.cons.injEq] at same
    exact absurd ⟨same.1, .inl same.2.1⟩ other
  · rename_i same
    simp only [List.cons.injEq] at same
    exact absurd ⟨same.1, .inr same.2.1⟩ other
  · rfl

/-- A digit is neither a blank nor a sign. -/
theorem sign_digit {c : Char} {n : Nat} (rest : List Char) (digit : digitValue c = some n) :
    sign ((c :: rest).dropWhile Chrono.isSpace) = (false, c :: rest) := by
  have low := le_of_digit digit
  have inked : Chrono.isSpace c = false := by
    refine Bool.eq_false_iff.mpr fun blank => ?_
    have high := Chrono.blank_le blank
    omega
  rw [List.dropWhile_cons_of_neg (by simp [inked])]
  refine sign_other rest ?_ ?_ <;> rintro rfl <;> exact absurd low (by decide)

theorem skip0x_digit {first second : Char} {n : Nat} (digit : digitValue second = some n) :
    skip0x [first, second] = [first, second] := by
  refine skip0x_other fun skipped => ?_
  rcases skipped.2 with rfl | rfl <;> cases digit

theorem extractHex_digits {first second : Char} {high low : Nat}
    (upper : digitValue first = some high) (lower : digitValue second = some low) :
    extractHex [first, second] = some (UInt8.ofNat (high * 16 + low)) := by
  simp [extractHex, sign_digit _ upper, skip0x_digit lower, leadingDigits, upper, lower]

theorem digitValue_hexDigit : ∀ n < 16, digitValue (hexDigit n) = some n := by decide

theorem hexDigit_ascii : ∀ n < 16, charOf (UInt8.ofNat (hexDigit n).toNat) = hexDigit n := by decide

theorem dollar_ne_hexDigit : ∀ n < 16, dollar ≠ UInt8.ofNat (hexDigit n).toNat := by decide

theorem fromPairs_toHex (data : Bytes) : fromPairs (toHex data) = .ok data := by
  induction data with
  | nil => rfl
  | cons byte rest ih =>
    have upper : byte.toNat / 16 < 16 := by have := byte.toNat_lt; omega
    have lower : byte.toNat % 16 < 16 := Nat.mod_lt _ (by decide)
    have pair := extractHex_digits (digitValue_hexDigit _ upper) (digitValue_hexDigit _ lower)
    rw [Nat.div_add_mod', UInt8.ofNat_toNat] at pair
    show fromPairs (UInt8.ofNat (hexDigit (byte.toNat / 16)).toNat ::
      UInt8.ofNat (hexDigit (byte.toNat % 16)).toNat :: toHex rest) = _
    rw [fromPairs, hexDigit_ascii _ upper, hexDigit_ascii _ lower, pair, ih]
    rfl

theorem length_toHex (data : Bytes) : (toHex data).length = 2 * data.length := by
  induction data with
  | nil => rfl
  | cons byte rest ih =>
    have more : (toHex (byte :: rest)).length = (toHex rest).length + 2 := rfl
    rw [more, ih, List.length_cons]
    omega

/-- Reading what was written gives the bytes back. -/
theorem fromHex_toHex (data : Bytes) : fromHex (toHex data) = .ok data := by
  rw [fromHex, length_toHex, if_neg (by omega), fromPairs_toHex]

theorem dollar_notMem_toHex (data : Bytes) : dollar ∉ toHex data := by
  intro found
  simp only [toHex, List.mem_flatMap, ascii, List.map_cons, List.map_nil, List.mem_cons,
    List.not_mem_nil, or_false] at found
  obtain ⟨byte, _, same | same⟩ := found
  · exact dollar_ne_hexDigit _ (by have := byte.toNat_lt; omega) same
  · exact dollar_ne_hexDigit _ (Nat.mod_lt _ (by decide)) same

/-! ## The comparison -/

theorem foldl_differs (pairs : List (UInt8 × UInt8)) (diff : UInt8) :
    pairs.foldl (fun diff pair => diff ||| (pair.1 ^^^ pair.2)) diff = 0 ↔
      diff = 0 ∧ ∀ pair ∈ pairs, pair.1 = pair.2 := by
  induction pairs generalizing diff with
  | nil => simp
  | cons pair rest ih =>
    rw [List.foldl_cons, ih, UInt8.or_eq_zero_iff, UInt8.xor_eq_zero_iff, List.forall_mem_cons, and_assoc]

theorem differs_eq_zero {out hash : Bytes} (same : out.length = hash.length) :
    differs out hash = 0 ↔ out = hash := by
  have pairwise : (∀ pair ∈ out.zip hash, pair.1 = pair.2) ↔ List.Forall₂ Eq out hash := by
    rw [List.forall₂_iff_zip, and_iff_right same, Prod.forall]
  rw [differs, foldl_differs, and_iff_right rfl, pairwise, List.forall₂_eq_eq_eq]

/-! ## Hashes that were written -/

theorem split_formatHash (salt out : Bytes) : split (formatHash salt out) dollar =
    [algorithm, ascii (toString kIterations).toList, toHex salt, toHex out] := by
  have clean : ∀ part ∈ [algorithm, ascii (toString kIterations).toList, toHex salt, toHex out],
      dollar ∉ part := by
    simp only [List.forall_mem_cons]
    exact ⟨by decide, by decide, dollar_notMem_toHex salt, dollar_notMem_toHex out, by simp⟩
  rw [split_eq, ← List.splitOn_intercalate dollar clean (by simp)]
  simp [List.intercalate, formatHash]
theorem matchesHash_iff {pbkdf2 : Pbkdf2} {plain salt hash : Bytes} {iter : Int} :
    matchesHash pbkdf2 plain iter salt hash = true ↔ salt ≠ [] ∧ hash ≠ [] ∧
      (pbkdf2 plain (wrapInt 32 plain.length) salt iter hash.length).map Vector.toList =
        some hash := by
  unfold matchesHash
  by_cases empty : (salt.isEmpty || hash.isEmpty) = true
  · rw [if_pos empty]
    simp only [Bool.or_eq_true, List.isEmpty_iff] at empty
    refine iff_of_false Bool.false_ne_true fun filled => ?_
    exact empty.elim filled.1 filled.2.1
  · rw [if_neg empty]
    simp only [Bool.or_eq_true, List.isEmpty_iff, not_or] at empty
    cases pbkdf2 plain (wrapInt 32 plain.length) salt iter hash.length with
    | none => simp
    | some out => simp [empty, differs_eq_zero]

/-! ## What is accepted, and what is meant -/

/-- A pair that extraction takes: two digits, or one behind a blank or a sign. -/
def ReadablePair (first second : Char) : Prop :=
  (digitValue first).isSome ∧ ¬(first = '0' ∧ (second = 'x' ∨ second = 'X')) ∨
    (Chrono.isSpace first ∨ first = '-' ∨ first = '+') ∧ (digitValue second).isSome

/-- A text that can be cut into such pairs. -/
def Readable : Bytes → Prop
  | [] => True
  | [_] => False
  | first :: second :: rest => ReadablePair (charOf first) (charOf second) ∧ Readable rest

theorem leadingDigits_cons (c : Char) (rest : List Char) :
    (leadingDigits (c :: rest)).isSome = (digitValue c).isSome := by
  unfold leadingDigits
  cases digit : digitValue c <;> simp [digit]

theorem blank_digit {c : Char} (blank : Chrono.isSpace c = true) : digitValue c = none := by
  cases digit : digitValue c with
  | none => rfl
  | some n =>
    have low := le_of_digit digit
    have high := Chrono.blank_le blank
    omega

theorem extractHex_isSome_eq (text : List Char) : (extractHex text).isSome =
    (leadingDigits (skip0x (sign (text.dropWhile Chrono.isSpace)).2)).isSome :=
  Option.isSome_map

theorem extractHex_isSome (first second : Char) :
    (extractHex [first, second]).isSome ↔ ReadablePair first second := by
  rw [extractHex_isSome_eq, ReadablePair]
  by_cases blank : Chrono.isSpace first = true
  · have none := blank_digit blank
    rw [List.dropWhile_cons_of_pos blank]
    by_cases blank' : Chrono.isSpace second = true
    · simp [blank', none, blank_digit blank', sign, skip0x, leadingDigits]
    · rw [List.dropWhile_cons_of_neg blank']
      by_cases plus : second = '+'
      · subst plus
        simp [none, sign, skip0x, leadingDigits, show digitValue '+' = .none from rfl]
      by_cases minus : second = '-'
      · subst minus
        simp [none, sign, skip0x, leadingDigits, show digitValue '-' = .none from rfl]
      rw [sign_other [] plus minus, skip0x_single, leadingDigits_cons]
      simp [none, blank]
  · rw [List.dropWhile_cons_of_neg blank]
    by_cases plus : first = '+'
    · subst plus
      simp [sign, skip0x_single, leadingDigits_cons, show digitValue '+' = .none from rfl]
    by_cases minus : first = '-'
    · subst minus
      simp [sign, skip0x_single, leadingDigits_cons, show digitValue '-' = .none from rfl]
    rw [sign_other [second] plus minus]
    by_cases skipped : first = '0' ∧ (second = 'x' ∨ second = 'X')
    · have gone : skip0x [first, second] = [] := by
        rcases skipped with ⟨rfl, rfl | rfl⟩ <;> rfl
      rw [gone]
      refine iff_of_false (by simp [leadingDigits]) ?_
      rintro (⟨_, unskipped⟩ | ⟨before, _⟩)
      · exact unskipped skipped
      · rcases before with before | before | before
        · exact blank before
        · exact minus before
        · exact plus before
    · rw [skip0x_other skipped, leadingDigits_cons]
      simp [skipped, blank, plus, minus]

theorem fromPairs_isOk (hex : Bytes) (even : hex.length % 2 = 0) :
    (∃ bytes, fromPairs hex = .ok bytes) ↔ Readable hex := by
  induction hex using Readable.induct with
  | case1 => simp [fromPairs, Readable]
  | case2 => cases even
  | case3 first second rest ih =>
    have rest_even : rest.length % 2 = 0 := by
      simp only [List.length_cons] at even
      omega
    rw [Readable, ← ih rest_even, ← extractHex_isSome, fromPairs]
    cases extractHex [charOf first, charOf second] with
    | none => simp
    | some byte => cases fromPairs rest <;> simp [Except.map]

theorem Readable.even {hex : Bytes} (readable : Readable hex) : hex.length % 2 = 0 := by
  induction hex using Readable.induct with
  | case1 => rfl
  | case2 => exact readable.elim
  | case3 first second rest ih =>
    have shorter := ih readable.2
    simp only [List.length_cons]
    omega

/-- The texts that are read without an exception. -/
theorem fromHex_isOk (hex : Bytes) : (∃ bytes, fromHex hex = .ok bytes) ↔ Readable hex := by
  unfold fromHex
  split
  · rename_i odd
    exact iff_of_false (by simp) fun readable => odd readable.even
  · rename_i even
    exact fromPairs_isOk hex (not_not.mp even)

end security

end Text2Image
