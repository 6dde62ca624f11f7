import Text2Image.Properties.PasswordHashes
import Text2Image.Services.SessionLines

/-! What is stored for a password: the hash that was made of it just before, with a salt of its own.
Another password fits it only if PBKDF2 tells the two not apart.
-/

set_option autoImplicit false

namespace Text2Image

/-! ## Hashes as texts -/

theorem utf8_charOf {byte : UInt8} (ascii : byte.toNat < 128) : String.utf8EncodeChar (charOf byte) = [byte] := by
  have all : ∀ n < 128, String.utf8EncodeChar (Char.ofNat n) = [UInt8.ofNat n] := by decide +kernel
  have same := all byte.toNat ascii
  rwa [UInt8.ofNat_toNat] at same

/-- A text in ASCII is read as the bytes it was written from. -/
theorem utf8_ofList_charOf {bytes : Bytes} (ascii : ∀ byte ∈ bytes, byte.toNat < 128) :
    utf8 (String.ofList (bytes.map charOf)) = bytes := by
  rw [utf8, String.toList_ofList]
  induction bytes with
  | nil => rfl
  | cons byte rest ih =>
    obtain ⟨first, others⟩ := List.forall_mem_cons.mp ascii
    rw [List.map_cons, List.flatMap_cons, utf8_charOf first, ih others]
    rfl

namespace security

theorem toHex_ascii (data : Bytes) : ∀ byte ∈ toHex data, byte.toNat < 128 := by
  have digits : ∀ n < 16, (UInt8.ofNat (hexDigit n).toNat).toNat < 128 := by decide
  intro byte member
  simp only [toHex, List.mem_flatMap, ascii, List.map_cons, List.map_nil, List.mem_cons,
    List.not_mem_nil, or_false] at member
  obtain ⟨source, _, same | same⟩ := member
  · exact same ▸ digits _ (by have := source.toNat_lt; omega)
  · exact same ▸ digits _ (Nat.mod_lt _ (by decide))

theorem formatHash_ascii (salt out : Bytes) : ∀ byte ∈ formatHash salt out, byte.toNat < 128 := by
  have name : ∀ byte ∈ algorithm, byte.toNat < 128 := by decide +kernel
  have count : ∀ byte ∈ ascii (toString kIterations).toList, byte.toNat < 128 := by decide +kernel
  have delim : dollar.toNat < 128 := by decide
  simp only [formatHash, List.forall_mem_append, List.forall_mem_cons]
  exact ⟨⟨⟨name, delim, count⟩, delim, toHex_ascii salt⟩, delim, toHex_ascii out⟩

/-- A password fits a hash if PBKDF2 makes the same of it with the salt of the hash. -/
theorem verifyPassword_written (pbkdf2 : Pbkdf2) (salt : Vector UInt8 kSaltBytes) (out : Vector UInt8 kHashBytes)
    (plain : Bytes) : verifyPassword pbkdf2 plain (formatHash salt.toList out.toList) =
      .ok (decide (pbkdf2 plain (wrapInt 32 plain.length) salt.toList kIterations kHashBytes = some out)) := by
  have salted : salt.toList ≠ [] := by
    rw [← List.length_pos_iff, Vector.length_toList]
    decide
  have hashed : out.toList ≠ [] := by
    rw [← List.length_pos_iff, Vector.length_toList]
    decide
  have fits : matchesHash pbkdf2 plain kIterations salt.toList out.toList =
      decide (pbkdf2 plain (wrapInt 32 plain.length) salt.toList kIterations kHashBytes = some out) := by
    rw [Bool.eq_iff_iff, matchesHash_iff, decide_eq_true_iff, and_iff_right salted, and_iff_right hashed,
      Vector.length_toList]
    cases pbkdf2 plain (wrapInt 32 plain.length) salt.toList kIterations kHashBytes with
    | none => simp
    | some digest => simp [Vector.toList_inj]
  rw [verifyPassword, header_formatHash]
  show verifyParts pbkdf2 plain kIterations (toHex salt.toList) (toHex out.toList) = _
  rw [verifyParts, fromHex_toHex, fromHex_toHex, ← fits]
  rfl

end security

namespace Auth

open Concurrency Concurrency.Prog

variable {d : Deployment} {token_store : RefreshTokenStore}

abbrev Salt := Vector UInt8 security.kSaltBytes

/-- What PBKDF2 makes of a password. -/
def Deployment.digest (d : Deployment) (salt : Salt) (password : String) :
    Option (Vector UInt8 security.kHashBytes) :=
  d.pbkdf2 (utf8 password) (wrapInt 32 (utf8 password).length) salt.toList security.kIterations security.kHashBytes

/-- The text is the hash of the password with this salt. -/
def IsHash (d : Deployment) (salt : Salt) (password stored : String) : Prop :=
  ∃ out, d.digest salt password = some out ∧
    stored = String.ofList ((security.formatHash salt.toList out.toList).map charOf)

/-- A password fits the hash of another only if both give the same digest. -/
theorem IsHash.verifies {salt : Salt} {password stored : String} (hash : IsHash d salt password stored)
    (plain : String) : AuthService.verifyPassword d plain stored =
      .ok (decide (d.digest salt plain = d.digest salt password)) := by
  obtain ⟨out, derived, rfl⟩ := hash
  rw [AuthService.verifyPassword, utf8_ofList_charOf (security.formatHash_ascii _ _),
    security.verifyPassword_written, derived]
  rfl

/-! ## Writers -/

/-- The password a call is to store. -/
def Call.newPassword : Call → Option String
  | .register payload => (User.fromJson payload).toOption.map User.password
  | .changePassword _ payload => textOf payload "new_password"
  | _ => none

/-- The text is the hash of the password the call is to store, with the salt drawn last. -/
def Hashed (d : Deployment) (call : Call) (past : List (Taken interface)) (stored : String) : Prop :=
  ∃ salt password older, past = (⟨.salt, some salt⟩ : Taken interface) :: older ∧
    call.newPassword = some password ∧ IsHash d salt password stored

/-- Only hashes are stored. -/
def Call.hashes (d : Deployment) (call : Call) : Protocol interface := fun past op =>
  match op with
  | .sql (.insert user) => Hashed d call past user.password
  | .sql (.updatePassword _ stored) => Hashed d call past stored
  | _ => True

variable {call : Call} {past : List (Taken interface)}

theorem hashes_of_keepsUsers {α : Type} {program : Program α} (keeps : program.Only Op.KeepsUsers) :
    program.Follows (call.hashes d) (fun _ _ => True) past := by
  refine (keeps.follows past).weaken ?_
  intro past op keeps
  cases op with
  | sql s => cases s <;> trivial
  | _ => trivial

theorem follows_hashPassword {password : String} (given : call.newPassword = some password) :
    (AuthService.hashPassword d password).run.Follows (call.hashes d)
      (fun later result => ∀ stored, result = .ok stored → Hashed d call later stored) past := by
  refine .call trivial fun salt => ?_
  cases salt with
  | none => exact .done nofun
  | some salt =>
    show Follows _ _ (throwing (security.hashPassword d.pbkdf2 (some salt) (utf8 password)) >>=
      fun stored => (pure (String.ofList (stored.map charOf)) : Action String)).run _
    have derives : security.hashPassword d.pbkdf2 (some salt) (utf8 password) =
        (d.digest salt password).elim (.error "PKCS5_PBKDF2_HMAC failed")
          fun out => .ok (security.formatHash salt.toList out.toList) := by
      simp only [security.hashPassword, Deployment.digest]
      split <;> rename_i derived <;> simp only [derived] <;> rfl
    cases derived : d.digest salt password with
    | none =>
      rw [derives, derived]
      exact .done nofun
    | some out =>
      rw [derives, derived]
      refine .done ?_
      rintro _ ⟨⟩
      exact ⟨salt, password, past, rfl, given, out, derived, rfl⟩

theorem hashes_register (payload : Json) :
    (AuthService.registerUser d payload).run.Follows ((Call.register payload).hashes d) (fun _ _ => True) [] := by
  have exists' : ∀ key, Only (I := interface) Op.KeepsUsers (existsBy key).run :=
    fun key => Only.fallible (Only.relabel ⟨trivial, fun _ => trivial⟩) fun _ => trivial
  unfold AuthService.registerUser
  cases read : User.fromJson payload with
  | error what => exact .done trivial
  | ok user =>
    have given : (Call.register payload).newPassword = some user.password := by
      simp [Call.newPassword, read, Except.toOption]
    rw [throwing_bind]
    refine Follows.fallible (hashes_of_keepsUsers only_refuseIf) (fun _ _ _ => trivial) fun later _ _ => ?_
    refine Follows.fallible (hashes_of_keepsUsers (exists' _)) (fun _ _ _ => trivial) fun later _ _ => ?_
    refine Follows.fallible (hashes_of_keepsUsers only_refuseIf) (fun _ _ _ => trivial) fun later _ _ => ?_
    refine Follows.fallible (hashes_of_keepsUsers (exists' _)) (fun _ _ _ => trivial) fun later _ _ => ?_
    refine Follows.fallible (hashes_of_keepsUsers only_refuseIf) (fun _ _ _ => trivial) fun later _ _ => ?_
    refine Follows.fallible (follows_hashPassword given) (fun _ _ _ => trivial) fun later stored hashed => ?_
    refine @Follows.fallible _ _ _ _ _ (fun _ _ => True) _ _ _ _ (.call (hashed stored rfl) fun _ => .done trivial)
      (fun _ _ _ => trivial) fun later id _ => .done trivial

theorem hashes_changePassword (userId : Int) (payload : Json) :
    (AuthService.changePassword d token_store userId payload).run.Follows
      ((Call.changePassword userId payload).hashes d) (fun _ _ => True) [] := by
  rcases changePassword_run d token_store userId payload with ⟨failure, ends⟩ | ⟨old, new, read, goes⟩
  · rw [ends]
    exact .done trivial
  · rw [goes]
    have revokes : Only Op.KeepsUsers (service (token_store.revokeUser userId)).run :=
      Only.relabel (only_revokeUser trivial (fun _ => trivial) (fun _ => trivial) (fun _ => trivial) userId)
    refine Follows.fallible (hashes_of_keepsUsers (only_getProfile (fun _ => trivial) userId))
      (fun _ _ _ => trivial) fun later user _ => ?_
    refine Follows.fallible (hashes_of_keepsUsers trivial) (fun _ _ _ => trivial) fun later correct _ => ?_
    refine Follows.fallible (hashes_of_keepsUsers only_refuseIf) (fun _ _ _ => trivial) fun later _ _ => ?_
    refine Follows.fallible (hashes_of_keepsUsers revokes) (fun _ _ _ => trivial) fun later _ _ => ?_
    refine Follows.fallible (follows_hashPassword read) (fun _ _ _ => trivial) fun later stored hashed => ?_
    refine @Follows.fallible _ _ _ _ _ (fun _ _ => True) _ _ _ _ (.call (hashed stored rfl) fun _ => .done trivial)
      (fun _ _ _ => trivial) fun later updated _ => ?_
    exact (hashes_of_keepsUsers only_refuseIf)

theorem hashes_call (d : Deployment) (token_store : RefreshTokenStore) (call : Call) :
    ((backend d token_store).program call).Follows (call.hashes d) (fun _ _ => True) [] := by
  cases call with
  | register payload => exact (hashes_register payload).bind fun _ _ _ _ => .done trivial
  | login payload => exact (hashes_of_keepsUsers (keepsUsers_login payload)).bind fun _ _ _ _ => .done trivial
  | refresh payload => exact (hashes_of_keepsUsers (keepsUsers_refresh payload)).bind fun _ _ _ _ => .done trivial
  | logout payload => exact (hashes_of_keepsUsers (keepsUsers_logout payload)).bind fun _ _ _ _ => .done trivial
  | changePassword userId payload => exact (hashes_changePassword userId payload).bind fun _ _ _ _ => .done trivial

end Auth

end Text2Image
