import Text2Image.Services.AuthOperation

/-! The stores of refresh tokens: one in Redis, one in memory. -/

set_option autoImplicit false

namespace Text2Image

def stoll (text : String) : Option Int := readInteger 64 text.toList

namespace Auth

open Concurrency

def refreshTokenKey (jti : String) : String := "zimage:refresh:" ++ jti

def userRefreshSetKey (userId : Int) : String := "zimage:refresh:user:" ++ toString userId

def refreshStoreUnavailable (message : String) : ServiceError :=
  ⟨503, "refresh_store_unavailable", message, []⟩

/-! ## In Redis -/

namespace RedisRefreshTokenStore

/-- The body runs if Redis is there; whatever it throws is reported as one error. -/
def guarded {α : Type} (body : Fallible interface String α) : Program (ServiceResult α) := do
  if ← redisAvailable then
    match ← body.run with
    | .ok value => return .ok value
    | .error _ => return .error (refreshStoreUnavailable "refresh token store failed")
  else return .error (refreshStoreUnavailable "refresh token store is unavailable")

/-- A number that cannot be read throws. -/
def readUserId (text : String) : Fallible interface String Int :=
  .given (match stoll text with | some userId => .ok userId | none => .error "stoll")

def store (jti : String) (userId ttl : Int) : Program (ServiceResult Unit) :=
  guarded do
    redis (.setex (refreshTokenKey jti) (toString userId) (Chrono.seconds (max ttl 1)))
    redis (.sadd (userRefreshSetKey userId) jti)
    redis (.expire (userRefreshSetKey userId) (Chrono.seconds (max ttl 1)))

def consume (jti : String) : Program (ServiceResult (Option Int)) :=
  guarded do
    match ← redis (.getDel (refreshTokenKey jti)) with
    | none => return none
    | some value =>
      let userId ← readUserId value
      redis (.srem (userRefreshSetKey userId) jti)
      return some userId

def revoke (jti : String) : Program (ServiceResult Unit) :=
  guarded do
    match ← redis (.get (refreshTokenKey jti)) with
    | some value => redis (.srem (userRefreshSetKey (← readUserId value)) jti)
    | none => pure ()
    let _ ← redis (.del (refreshTokenKey jti))

/-- The loop over the members of a user's set. -/
def delEach : List String → Fallible interface String Unit
  | [] => pure ()
  | jti :: rest => do
    let _ ← redis (.del (refreshTokenKey jti))
    delEach rest

def revokeUser (userId : Int) : Program (ServiceResult Unit) :=
  guarded do
    let userKey := userRefreshSetKey userId
    delEach (← redis (.smembers userKey))
    let _ ← redis (.del userKey)

end RedisRefreshTokenStore

/-! ## In memory -/

namespace InMemoryRefreshTokenStore

def store (jti : String) (userId ttl : Int) : Program (ServiceResult Unit) := do
  map (.store jti userId ttl)
  return .ok ()

def consume (jti : String) : Program (ServiceResult (Option Int)) := do
  return .ok (← map (.consume jti))

def revoke (jti : String) : Program (ServiceResult Unit) := do
  map (.revoke jti)
  return .ok ()

def revokeUser (userId : Int) : Program (ServiceResult Unit) := do
  map (.revokeUser userId)
  return .ok ()

end InMemoryRefreshTokenStore

/-! ## Either -/

inductive RefreshTokenStore where
  | Redis
  | InMemory
  deriving DecidableEq, Repr

namespace RefreshTokenStore

def store : RefreshTokenStore → (jti : String) → (userId ttl : Int) → Program (ServiceResult Unit)
  | .Redis => RedisRefreshTokenStore.store
  | .InMemory => InMemoryRefreshTokenStore.store

def consume : RefreshTokenStore → (jti : String) → Program (ServiceResult (Option Int))
  | .Redis => RedisRefreshTokenStore.consume
  | .InMemory => InMemoryRefreshTokenStore.consume

def revoke : RefreshTokenStore → (jti : String) → Program (ServiceResult Unit)
  | .Redis => RedisRefreshTokenStore.revoke
  | .InMemory => InMemoryRefreshTokenStore.revoke

def revokeUser : RefreshTokenStore → (userId : Int) → Program (ServiceResult Unit)
  | .Redis => RedisRefreshTokenStore.revokeUser
  | .InMemory => InMemoryRefreshTokenStore.revokeUser

end RefreshTokenStore

end Auth

end Text2Image
