import Mathlib.Data.List.TakeWhile
import Text2Image.Services.PasswordUtils

/-! Which stored hashes a password is verified against: those that hashing writes, those of
the same form, and some that are not.
-/

set_option autoImplicit false

namespace Text2Image.security

/-! ## Well-formed hashes -/

/-- Two digits for each byte. -/
inductive Spells : (hex data : Bytes) → Prop where
  | nil : Spells [] []
  | cons {first second : UInt8} {high low : Nat} {hex data : Bytes}
      (upper : digitValue (charOf first) = some high) (lower : digitValue (charOf second) = some low)
      (rest : Spells hex data) :
      Spells (first :: second :: hex) (UInt8.ofNat (high * 16 + low) :: data)

/-- Digits and no more. -/
structure Decimal (digits : Bytes) (count : Int) : Prop where
  some_digit : digits ≠ []
  all_digits : ∀ c ∈ digits.map charOf, c.isDigit = true
  value : count = Nat.ofDigitChars 10 (digits.map charOf) 0

/-- A stored hash as it is meant to be. -/
def WellFormed (stored : Bytes) (count : Int) (salt hash : Bytes) : Prop :=
  ∃ digits saltHex hashHex,
    stored = algorithm ++ dollar :: digits ++ dollar :: saltHex ++ dollar :: hashHex ∧
    Decimal digits count ∧ Spells saltHex salt ∧ Spells hashHex hash ∧ salt ≠ [] ∧ hash ≠ []

theorem Spells.fromPairs {hex data : Bytes} (spells : Spells hex data) :
    fromPairs hex = .ok data := by
  induction spells with
  | nil => rfl
  | cons upper lower _ ih =>
    rw [security.fromPairs, extractHex_digits upper lower, ih]
    rfl

theorem Spells.even {hex data : Bytes} (spells : Spells hex data) : hex.length % 2 = 0 := by
  induction spells with
  | nil => rfl
  | cons _ _ _ ih =>
    simp only [List.length_cons]
    omega

theorem Spells.fromHex {hex data : Bytes} (spells : Spells hex data) : fromHex hex = .ok data := by
  rw [security.fromHex, if_neg (not_not.mpr spells.even), spells.fromPairs]

theorem Spells.clean {hex data : Bytes} (spells : Spells hex data) : dollar ∉ hex := by
  have digitless : digitValue (charOf dollar) = none := by decide
  induction spells with
  | nil => exact List.not_mem_nil
  | cons upper lower _ ih =>
    intro found
    rcases List.mem_cons.mp found with rfl | found
    · rw [digitless] at upper
      cases upper
    · rcases List.mem_cons.mp found with rfl | found
      · rw [digitless] at lower
        cases lower
      · exact ih found

theorem Decimal.clean {digits : Bytes} {count : Int} (decimal : Decimal digits count) :
    dollar ∉ digits := by
  intro found
  have digit := decimal.all_digits _ (List.mem_map_of_mem found)
  exact absurd digit (by decide)

/-- A count that is read at all is read for what it is. -/
theorem Decimal.read {digits : Bytes} {count iter : Int} {bits : Nat} (decimal : Decimal digits count)
    (read : readInteger bits (digits.map charOf) = some iter) : iter = count := by
  have all := decimal.all_digits
  have unsigned : sign ((digits.map charOf).dropWhile Chrono.isSpace) = (false, digits.map charOf) := by
    cases digits with
    | nil => exact absurd rfl decimal.some_digit
    | cons c rest =>
      have digit : digitValue (charOf c) = some ((charOf c).toNat - 48) :=
        if_pos (all _ List.mem_cons_self)
      exact sign_digit _ digit
  have whole : (digits.map charOf).takeWhile Char.isDigit = digits.map charOf :=
    List.takeWhile_eq_self_iff.mpr all
  simp only [readInteger, unsigned, whole, Bool.false_eq_true, if_false] at read
  split at read
  · cases read
  · split at read
    · exact (Option.some.inj read).symm.trans decimal.value.symm
    · cases read

theorem WellFormed.split {stored : Bytes} {count : Int} {salt hash : Bytes}
    (formed : WellFormed stored count salt hash) : ∃ digits saltHex hashHex,
      split stored dollar = [algorithm, digits, saltHex, hashHex] ∧ Decimal digits count ∧
      Spells saltHex salt ∧ Spells hashHex hash := by
  obtain ⟨digits, saltHex, hashHex, rfl, decimal, spellsSalt, spellsHash, _⟩ := formed
  refine ⟨digits, saltHex, hashHex, ?_, decimal, spellsSalt, spellsHash⟩
  have clean : ∀ part ∈ [algorithm, digits, saltHex, hashHex], dollar ∉ part := by
    simp only [List.forall_mem_cons]
    exact ⟨by decide, decimal.clean, spellsSalt.clean, spellsHash.clean, by simp⟩
  rw [split_eq, ← List.splitOn_intercalate dollar clean (by simp)]
  simp [List.intercalate]

/-! ## What is verified -/

variable (pbkdf2 : Pbkdf2) (plain stored : Bytes)

/-- PBKDF2 gives the bytes that the last part is read for. -/
def Matches (iter : Int) (saltHex hashHex : Bytes) : Prop :=
  ∃ salt hash, fromHex saltHex = .ok salt ∧ fromHex hashHex = .ok hash ∧ salt ≠ [] ∧ hash ≠ [] ∧
    (pbkdf2 plain (wrapInt 32 plain.length) salt iter hash.length).map Vector.toList = some hash

/-- The verification comes to an end, and accepts nothing but what is well formed. -/
def VerifiesWellFormed : Prop :=
  ∃ accepted, verifyPassword pbkdf2 plain stored = .ok accepted ∧
    (accepted = true → ∃ count salt hash, WellFormed stored count salt hash ∧
      (pbkdf2 plain (wrapInt 32 plain.length) salt count hash.length).map Vector.toList = some hash)

variable {pbkdf2 plain stored}

theorem verifyParts_isOk {iter : Int} {saltHex hashHex : Bytes} :
    (∃ accepted, verifyParts pbkdf2 plain iter saltHex hashHex = .ok accepted) ↔
      Readable saltHex ∧ Readable hashHex := by
  rw [← fromHex_isOk, ← fromHex_isOk]
  unfold verifyParts
  cases fromHex saltHex with
  | error what => exact iff_of_false (by rintro ⟨_, ⟨⟩⟩) (by rintro ⟨⟨_, ⟨⟩⟩, _⟩)
  | ok salt =>
    cases fromHex hashHex with
    | error what => exact iff_of_false (by rintro ⟨_, ⟨⟩⟩) (by rintro ⟨_, _, ⟨⟩⟩)
    | ok hash => exact iff_of_true ⟨_, rfl⟩ ⟨⟨_, rfl⟩, _, rfl⟩

theorem verifyParts_accepts {iter : Int} {saltHex hashHex : Bytes} :
    verifyParts pbkdf2 plain iter saltHex hashHex = .ok true ↔
      Matches pbkdf2 plain iter saltHex hashHex := by
  unfold Matches verifyParts
  cases fromHex saltHex with
  | error what => exact iff_of_false (by rintro ⟨⟩) (by rintro ⟨_, _, ⟨⟩, _⟩)
  | ok salt =>
    cases fromHex hashHex with
    | error what => exact iff_of_false (by rintro ⟨⟩) (by rintro ⟨_, _, _, ⟨⟩, _⟩)
    | ok hash =>
      constructor
      · intro accepts
        exact ⟨salt, hash, rfl, rfl, matchesHash_iff.mp (Except.ok.inj accepts)⟩
      · rintro ⟨_, _, ⟨⟩, ⟨⟩, fits⟩
        exact congrArg Except.ok (matchesHash_iff.mpr fits)

/-- A well-formed hash is read for what it is. -/
theorem WellFormed.header {count iter : Int} {salt hash saltHex hashHex : Bytes}
    (formed : WellFormed stored count salt hash)
    (read : header stored = some (iter, saltHex, hashHex)) :
    iter = count ∧ fromHex saltHex = .ok salt ∧ fromHex hashHex = .ok hash := by
  obtain ⟨digits, saltHex', hashHex', parts, decimal, spellsSalt, spellsHash⟩ := formed.split
  simp only [security.header, parts, ne_eq, not_true_eq_false, if_false, Option.map_eq_some_iff,
    Prod.mk.injEq] at read
  obtain ⟨value, counted, rfl, rfl, rfl⟩ := read
  exact ⟨decimal.read counted, spellsSalt.fromHex, spellsHash.fromHex⟩

/-- A verification is as it should be exactly if the header of the stored text is not read, or
both parts behind it are pairs that are taken, and the text is well formed or nothing matches.
-/
theorem verifies_wellFormed_iff (pbkdf2 : Pbkdf2) (plain stored : Bytes) :
    VerifiesWellFormed pbkdf2 plain stored ↔ ∀ iter saltHex hashHex,
      header stored = some (iter, saltHex, hashHex) → Readable saltHex ∧ Readable hashHex ∧
        ((∃ count salt hash, WellFormed stored count salt hash) ∨
          ¬ Matches pbkdf2 plain iter saltHex hashHex) := by
  unfold VerifiesWellFormed verifyPassword
  cases read : header stored with
  | none => exact iff_of_true ⟨false, rfl, fun accepted => by cases accepted⟩ fun _ _ _ h => by cases h
  | some parts =>
    obtain ⟨iter, saltHex, hashHex⟩ := parts
    constructor
    · rintro ⟨accepted, verifies, formed⟩ _ _ _ ⟨⟩
      have readable := verifyParts_isOk.mp ⟨accepted, verifies⟩
      refine ⟨readable.1, readable.2, or_iff_not_imp_right.mpr fun fits => ?_⟩
      have accepts := verifyParts_accepts.mpr (not_not.mp fits)
      obtain ⟨count, salt, hash, formed, _⟩ := formed (Except.ok.inj (verifies.symm.trans accepts))
      exact ⟨count, salt, hash, formed⟩
    · intro readable
      obtain ⟨saltReadable, hashReadable, formed⟩ := readable iter saltHex hashHex rfl
      obtain ⟨accepted, verifies⟩ : ∃ accepted,
          verifyParts pbkdf2 plain iter saltHex hashHex = .ok accepted :=
        verifyParts_isOk.mpr ⟨saltReadable, hashReadable⟩
      refine ⟨accepted, verifies, ?_⟩
      rintro rfl
      have fits := verifyParts_accepts.mp verifies
      obtain ⟨count, salt, hash, formed⟩ := formed.resolve_right (not_not.mpr fits)
      refine ⟨count, salt, hash, formed, ?_⟩
      obtain ⟨rfl, readSalt, readHash⟩ := formed.header read
      obtain ⟨salt', hash', readSalt', readHash', _, _, derived⟩ := fits
      cases readSalt.symm.trans readSalt'
      cases readHash.symm.trans readHash'
      exact derived

/-- Zeros for every password. -/
def zeroDigest : Pbkdf2 := fun _ _ _ _ size => some (Vector.replicate size 0)

def oddPart : Bytes := ascii "pbkdf2_sha256$1$0$00".toList

def blankInPair : Bytes := ascii "pbkdf2_sha256$1x$ 5$0g".toList

/-- A part of odd length is an exception; a blank in a pair and text behind the count or a
digit are accepted.
-/
theorem malformed_verified : ¬ VerifiesWellFormed zeroDigest [] oddPart ∧
    ¬ VerifiesWellFormed zeroDigest [] blankInPair := by
  constructor
  · rintro ⟨accepted, verifies, _⟩
    have throws : verifyPassword zeroDigest [] oddPart = .error invalidHex := by decide +kernel
    rw [throws] at verifies
    cases verifies
  · rintro ⟨accepted, verifies, formed⟩
    have accepts : verifyPassword zeroDigest [] blankInPair = .ok true := by decide +kernel
    obtain ⟨count, salt, hash, formed, _⟩ := formed (Except.ok.inj (verifies.symm.trans accepts))
    obtain ⟨digits, saltHex, hashHex, parts, decimal, _⟩ := formed.split
    have read : split blankInPair dollar =
        [algorithm, ascii ['1', 'x'], ascii [' ', '5'], ascii ['0', 'g']] := by decide +kernel
    obtain ⟨_, rfl, _⟩ : _ ∧ ascii ['1', 'x'] = digits ∧ _ := by
      simpa only [List.cons.injEq] using read.symm.trans parts
    exact absurd (decimal.all_digits 'x' (by decide)) (by decide)

/-! ## Hashing and verifying -/

/-- PBKDF2 where it never fails. -/
def total (derive : Bytes → Int → Bytes → Int → (size : Nat) → Vector UInt8 size) : Pbkdf2 :=
  fun plain length salt iterations size => some (derive plain length salt iterations size)

section

variable (derive : Bytes → Int → Bytes → Int → (size : Nat) → Vector UInt8 size)
  (salt : Vector UInt8 kSaltBytes)

/-- What a password is hashed to with a salt. -/
def digest (plain : Bytes) : Vector UInt8 kHashBytes :=
  derive plain (wrapInt 32 plain.length) salt.toList kIterations kHashBytes

theorem header_formatHash (out : Vector UInt8 kHashBytes) : header (formatHash salt.toList out.toList) =
    some (kIterations, toHex salt.toList, toHex out.toList) := by
  have counted : readInteger 32 ((ascii (toString kIterations).toList).map charOf) =
      some kIterations := by decide +kernel
  simp only [header, split_formatHash, counted, ne_eq, not_true_eq_false, if_false, Option.map_some]

theorem verifyPassword_formatHash (plain : Bytes) (out : Vector UInt8 kHashBytes) :
    verifyPassword (total derive) plain (formatHash salt.toList out.toList) =
      .ok (decide (digest derive salt plain = out)) := by
  have ends : matchesHash (total derive) plain kIterations salt.toList out.toList =
      decide (digest derive salt plain = out) := by
    rw [Bool.eq_iff_iff, matchesHash_iff, decide_eq_true_iff]
    have salted : salt.toList ≠ [] := by
      rw [← List.length_pos_iff, Vector.length_toList]
      decide
    have hashed : out.toList ≠ [] := by
      rw [← List.length_pos_iff, Vector.length_toList]
      decide
    rw [and_iff_right salted, and_iff_right hashed, Vector.length_toList, total, Option.map_some,
      Option.some_inj, Vector.toList_inj, digest]
  rw [verifyPassword, header_formatHash]
  show verifyParts (total derive) plain kIterations (toHex salt.toList) (toHex out.toList) = _
  rw [verifyParts, fromHex_toHex, fromHex_toHex, ← ends]
  rfl

/-- Every password fits its own hash, and those it shares a digest with. -/
theorem verify_hashPassword (plain : Bytes) : ∃ stored,
    hashPassword (total derive) (some salt) plain = .ok stored ∧
    verifyPassword (total derive) plain stored = .ok true ∧
    (∀ other, verifyPassword (total derive) other stored =
      .ok (decide (digest derive salt other = digest derive salt plain))) ∧
    split stored dollar = [algorithm, ascii (toString kIterations).toList, toHex salt.toList,
      toHex (digest derive salt plain).toList] ∧
    ∀ data, fromHex (toHex data) = .ok data := by
  refine ⟨formatHash salt.toList (digest derive salt plain).toList, rfl, ?_, fun other => ?_, ?_, ?_⟩
  · rw [verifyPassword_formatHash, decide_eq_true rfl]
  · exact verifyPassword_formatHash derive salt other _
  · exact split_formatHash _ _
  · exact fromHex_toHex

end

end Text2Image.security
