import Text2Image.Concurrency.Fallible
import Text2Image.Database.Keyspace
import Text2Image.Database.UserRepo
import Text2Image.Services.Operation
import Text2Image.Services.PasswordUtils

/-! What the authentication service shares with all others: the users, the two stores of
refresh tokens, and the time. Only one of the stores is in use.
-/

set_option autoImplicit false

namespace Text2Image.Auth

open Concurrency

/-- What is linked in, and the `jwt` section of the configuration. -/
structure Deployment where
  pbkdf2 : security.Pbkdf2
  sign : (payload : Json) → String
  /-- The payload, if the token decodes and its signature, issuer and times are right. -/
  verify : (now : TimePoint) → (token : String) → Option Json
  jwt : Json

/-- An entry of the map in memory. -/
structure TokenEntry where
  user_id : Int
  expires_at : TimePoint
  deriving DecidableEq, Repr

abbrev TokenMap := String → Option TokenEntry

structure World where
  users : UserTable
  redis : Keyspace.State
  tokens : TokenMap
  clock : TimePoint

def World.empty : World := ⟨.empty, .empty, fun _ => none, 0⟩

/-- What the store in memory does while it holds its lock. -/
inductive MapOp where
  | store (jti : String) (userId : Int) (ttl : Int)
  | consume (jti : String)
  | revoke (jti : String)
  | revokeUser (userId : Int)

namespace MapOp

def Answer : MapOp → Type
  | .consume _ => Option Int
  | .store .. | .revoke _ | .revokeUser _ => Unit

/-- The entries that have not expired. -/
def fresh (now : TimePoint) (tokens : TokenMap) : TokenMap :=
  fun jti => (tokens jti).filter fun entry => decide (now < entry.expires_at)

def run : (op : MapOp) → TimePoint → TokenMap → op.Answer × TokenMap
  | .store jti userId ttl, now, tokens =>
    ((), Function.update tokens jti (some ⟨userId, Chrono.after now (max ttl 1)⟩))
  | .consume jti, now, tokens =>
    ((fresh now tokens jti).map (·.user_id), Function.update (fresh now tokens) jti none)
  | .revoke jti, _, tokens => ((), Function.update tokens jti none)
  | .revokeUser userId, _, tokens =>
    ((), fun jti => (tokens jti).filter fun entry => decide (entry.user_id ≠ userId))

end MapOp

inductive Op where
  | sql (statement : UserStmt)
  | now
  /-- Sixteen bytes of the random device. -/
  | random
  /-- A salt from `RAND_bytes`. -/
  | salt
  | redisAvailable
  | redis (command : Keyspace.Command)
  | map (op : MapOp)

def Answer : Op → Type
  | .sql s => RepoResult s.Answer
  | .now => TimePoint
  | .random => Fin 16 → UInt8
  | .salt => Option (Vector UInt8 security.kSaltBytes)
  | .redisAvailable => Bool
  | .redis command => Except String command.Reply
  | .map op => op.Answer

def interface : Interface := ⟨Op, Answer⟩

abbrev Program (α : Type) := Prog interface α

structure Choice where
  outcome : Outcome := .done
  error : RepoError := {}
  what : String := ""
  /-- Redis is configured, and was there when the process started. -/
  available : Bool := true
  bytes : Fin 16 → UInt8 := fun _ => 0
  salt : Vector UInt8 security.kSaltBytes := Vector.replicate _ 0

def perform : (op : Op) → Choice → World → Answer op × World
  | .sql s, choice, w =>
    let (answer, users) := s.run w.users
    match choice.outcome with
    | .done => (answer.mapError fun message => ⟨.ConstraintViolation, message⟩, { w with users })
    | .failed => (.error choice.error, w)
    | .lost => (.error choice.error, { w with users })
  | .now, _, w => (w.clock, w)
  | .random, choice, w => (choice.bytes, w)
  | .salt, choice, w => (if choice.outcome = .done then some choice.salt else none, w)
  | .redisAvailable, choice, w => (choice.available, w)
  | .redis command, choice, w =>
    let (reply, redis) := command.run w.clock w.redis
    match choice.outcome with
    | .done => (reply, { w with redis })
    | .failed => (.error choice.what, w)
    | .lost => (.error choice.what, { w with redis })
  | .map op, _, w =>
    let (answer, tokens) := op.run w.clock w.tokens
    (answer, { w with tokens })

/-- The operations of one call, in order, with the world each of them met. -/
abbrev Trace := List (Op × Choice × World)

/-! ## Programs -/

def now : Program TimePoint := Prog.perform (I := interface) .now

def random : Program (Fin 16 → UInt8) := Prog.perform (I := interface) .random

def salt : Program (Option (Vector UInt8 security.kSaltBytes)) :=
  Prog.perform (I := interface) .salt

def redisAvailable : Program Bool := Prog.perform (I := interface) .redisAvailable

def sql (s : UserStmt) : Program (RepoResult s.Answer) := Prog.perform (I := interface) (.sql s)

def redis (command : Keyspace.Command) : Fallible interface String command.Reply :=
  Prog.perform (I := interface) (.redis command)

def map (op : MapOp) : Program op.Answer := Prog.perform (I := interface) (.map op)

end Text2Image.Auth
