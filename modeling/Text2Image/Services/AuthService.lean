import Text2Image.Services.ImageService
import Text2Image.Services.RefreshTokenStore

/-! Registration, sessions and password changes, and the tokens they deal in. -/

set_option autoImplicit false

namespace Text2Image.Auth

open Concurrency

/-! ## Tokens -/

namespace utils

variable (d : Deployment)

def kDefaultAccessExpirationMinutes : Int := 15

def kDefaultRefreshExpirationDays : Int := 7

def positiveConfigInt (key : String) (fallback : Int) : Int :=
  match d.jwt.find key with
  | some (.integer value) => max 1 (wrapInt 32 value)
  | _ => fallback

def accessTokenExpiresInSeconds : Int :=
  wrapInt 32 (positiveConfigInt d "access_expiration_minutes" kDefaultAccessExpirationMinutes * 60)

def refreshTokenExpiresInSeconds : Int :=
  wrapInt 32 (positiveConfigInt d "refresh_expiration_days" kDefaultRefreshExpirationDays *
    (24 * 60 * 60))

def hexDigit (n : Nat) : Char := if n < 10 then Char.ofNat (48 + n) else Char.ofNat (87 + n)

/-- `{:02x}` -/
def hexByte (byte : UInt8) : List Char := [hexDigit (byte.toNat / 16), hexDigit (byte.toNat % 16)]

/-- The bytes of a version 4 UUID, as text. -/
def uuid (bytes : Fin 16 → UInt8) : String :=
  let version := (bytes 6 &&& 0x0F) ||| 0x40
  let variant := (bytes 8 &&& 0x3F) ||| 0x80
  String.ofList (hexByte (bytes 0) ++ hexByte (bytes 1) ++ hexByte (bytes 2) ++ hexByte (bytes 3) ++
    '-' :: hexByte (bytes 4) ++ hexByte (bytes 5) ++ '-' :: hexByte version ++ hexByte (bytes 7) ++
    '-' :: hexByte variant ++ hexByte (bytes 9) ++ '-' :: hexByte (bytes 10) ++ hexByte (bytes 11) ++
    hexByte (bytes 12) ++ hexByte (bytes 13) ++ hexByte (bytes 14) ++ hexByte (bytes 15))

def generateJti : Program String := do
  return uuid (← random)

/-- A date in a token: whole seconds. -/
def numericDate (time : TimePoint) : Json := .integer (Chrono.toDbTime time)

def createToken (userId : Int) (username role : String) : Program String := do
  let issuedAt ← now
  let expiresAt := Chrono.after (← now) (accessTokenExpiresInSeconds d)
  let jti ← generateJti
  return d.sign (.object [("exp", numericDate expiresAt), ("iat", numericDate issuedAt),
    ("iss", .string "backend"), ("jti", .string jti),
    ("role", .string (if role.isEmpty then "user" else role)), ("type", .string "access"),
    ("uid", .integer userId), ("username", .string username)])

def refreshPayload (userId : Int) (jti : String) (issuedAt expiresAt : TimePoint) : Json :=
  .object [("exp", numericDate expiresAt), ("iat", numericDate issuedAt),
    ("iss", .string "backend"), ("jti", .string jti), ("type", .string "refresh"),
    ("uid", .integer userId)]

def issueRefreshToken (userId : Int) (jti : String) : Program String := do
  let issuedAt ← now
  let expiresAt := Chrono.after (← now) (refreshTokenExpiresInSeconds d)
  return d.sign (refreshPayload userId jti issuedAt expiresAt)

structure RefreshTokenClaims where
  user_id : Int
  jti : String
  deriving DecidableEq, Repr

/-- A claim that is missing counts as empty; one that is no text throws. -/
def claimString (payload : Json) (name : String) : Option String :=
  match payload.find name with
  | some claim => claim.asString
  | none => some ""

/-- What a payload claims, if it is one of a refresh token. -/
def refreshClaims (payload : Json) : Option RefreshTokenClaims := do
  let type ← claimString payload "type"
  if type ≠ "refresh" then none
  else
    let jti ← claimString payload "jti"
    if jti.isEmpty then none
    else
      let uid ← payload.find "uid"
      return ⟨← uid.asInt64, jti⟩

def verified (now : TimePoint) (token : String) : Option RefreshTokenClaims :=
  (d.verify now token).bind refreshClaims

def verifyRefreshToken (token : String) : Program (ServiceResult RefreshTokenClaims) := do
  match verified d (← now) token with
  | some claims => return .ok claims
  | none => return .error ⟨401, "invalid_refresh_token", "invalid refresh token", []⟩

end utils

/-! ## The service -/

/-- A call ends with an error it reports, or an exception leaves it. -/
inductive Failure where
  | refused (error : ServiceError)
  | thrown (what : String)

abbrev Action (α : Type) := Fallible interface Failure α

def throwing {α : Type} (result : Except String α) : Action α :=
  .given (result.mapError .thrown)

def refuse {α : Type} (status : Nat) (code message : String) : Action α :=
  .given (.error (.refused ⟨status, code, message, []⟩))

def refuseIf (condition : Bool) (status : Nat) (code message : String) : Action Unit :=
  if condition then refuse status code message else .given (.ok ())

/-- A statement of the repository. -/
def repo (s : UserStmt) : Action s.Answer :=
  .relabel (fun error => .refused (ImageService.mapRepoError error)) (sql s)

def service {α : Type} (program : Program (ServiceResult α)) : Action α :=
  .relabel .refused program

/-- The column `enabled` is not read. -/
def rowToUser (row : UserRow) : User where
  id := row.id
  username := row.username
  email := row.email
  password := row.password
  nickname := row.nickname
  role := row.role

def findBy (key : UserKey) : Action (Option User) := do
  return Option.map rowToUser (← repo (.select key))

def existsBy (key : UserKey) : Action Bool := do
  return Option.isSome (← repo (.select key))

structure LoginResult where
  user : User
  access_token : String
  refresh_token : String
  expires_in : Int
  deriving DecidableEq, Repr

abbrev RefreshResult := LoginResult

namespace AuthService

variable (d : Deployment) (token_store : RefreshTokenStore)

def hashPassword (plain : String) : Action String := do
  let stored ← throwing (security.hashPassword d.pbkdf2 (← Fallible.always salt) (utf8 plain))
  return String.ofList (stored.map charOf)

def verifyPassword (plain stored : String) : Except String Bool :=
  security.verifyPassword d.pbkdf2 (utf8 plain) (utf8 stored)

def text (payload : Json) (key : String) : Action String :=
  throwing (payload.value key "string" Json.asString "")

def issueTokenPair (user : User) : Action RefreshResult := do
  let refreshJti ← Fallible.always utils.generateJti
  service (token_store.store refreshJti user.id (utils.refreshTokenExpiresInSeconds d))
  let access_token ← Fallible.always (utils.createToken d user.id user.username user.role)
  let refresh_token ← Fallible.always (utils.issueRefreshToken d user.id refreshJti)
  return ⟨user, access_token, refresh_token, utils.accessTokenExpiresInSeconds d⟩

def registerUser (payload : Json) : Action User := do
  let user ← throwing (User.fromJson payload)
  refuseIf (! user.validate) 400 "invalid_user_data" "invalid user data"
  let usernameExists ← existsBy (.username user.username)
  refuseIf usernameExists 409 "username_exists" "username already exists"
  let emailExists ← existsBy (.email user.email)
  refuseIf emailExists 409 "email_exists" "email already exists"
  let user := { user with role := "user", password := ← hashPassword d user.password }
  let insertedId ← repo (.insert user)
  return { user with id := insertedId }

def invalidCredentials {α : Type} : Action α :=
  refuse 401 "invalid_credentials" "invalid username or password"

def login (payload : Json) : Action LoginResult := do
  let username ← text payload "username"
  let email ← text payload "email"
  let password ← text payload "password"
  refuseIf (password.isEmpty || (username.isEmpty && email.isEmpty)) 400 "missing_credentials"
    "missing credentials"
  match ← findBy (if ! username.isEmpty then .username username else .email email) with
  | none => invalidCredentials
  | some user =>
    if ← throwing (verifyPassword d password user.password) then issueTokenPair d token_store user
    else invalidCredentials

/-- The token of a refresh or a logout, verified. -/
def presentedClaims (payload : Json) : Action utils.RefreshTokenClaims := do
  let refreshToken ← text payload "refresh_token"
  refuseIf refreshToken.isEmpty 400 "missing_refresh_token" "missing refresh token"
  service (utils.verifyRefreshToken d refreshToken)

def refresh (payload : Json) : Action RefreshResult := do
  let claims ← presentedClaims d payload
  let storedUserId ← service (token_store.consume claims.jti)
  refuseIf (storedUserId ≠ some claims.user_id) 401 "refresh_token_revoked"
    "refresh token has been revoked"
  match ← findBy (.id claims.user_id) with
  | none => refuse 401 "invalid_refresh_token" "invalid refresh token"
  | some user =>
    if user.enabled then issueTokenPair d token_store user
    else refuse 401 "invalid_refresh_token" "invalid refresh token"

def logout (payload : Json) : Action Unit := do
  let claims ← presentedClaims d payload
  service (token_store.revoke claims.jti)

def getProfile (userId : Int) : Action User := do
  refuseIf (userId ≤ 0) 401 "unauthorized" "unauthorized"
  match ← findBy (.id userId) with
  | none => refuse 404 "user_not_found" "user not found"
  | some user => return user

def changePassword (userId : Int) (payload : Json) : Action Unit := do
  let oldPassword ← text payload "old_password"
  let newPassword ← text payload "new_password"
  refuseIf (oldPassword.isEmpty || newPassword.isEmpty) 400 "missing_password"
    "old_password and new_password are required"
  refuseIf (newPassword.utf8ByteSize < 6) 400 "invalid_password"
    "new password must be at least 6 characters"
  let user ← getProfile userId
  let correct ← throwing (verifyPassword d oldPassword user.password)
  refuseIf (! correct) 401 "invalid_password" "old password is incorrect"
  service (token_store.revokeUser userId)
  let updated ← repo (.updatePassword userId (← hashPassword d newPassword))
  refuseIf (! updated) 404 "user_not_found" "user not found"

end AuthService

end Text2Image.Auth
