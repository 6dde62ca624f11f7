import Text2Image.Models.Json

/-! User accounts, and what a registration has to look like. -/

set_option autoImplicit false

namespace Text2Image

structure User where
  id : Int := 0
  username : String := ""
  password : String := ""
  email : String := ""
  nickname : String := ""
  role : String := "user"
  enabled : Bool := true
  deriving DecidableEq, Repr

namespace User

/-- The field of this name, if the object has it; a member of another type throws. -/
def field {α : Type} (j : Json) (key expected : String) (convert : Json → Option α) (fallback : α) :
    Except String α :=
  match j.find key with
  | some member => member.get expected convert
  | none => .ok fallback

def fromJson (j : Json) : Except String User := do
  let user : User := {}
  let id ← field j "id" "number" Json.asInt64 user.id
  let username ← field j "username" "string" Json.asString user.username
  let password ← field j "password" "string" Json.asString user.password
  let email ← field j "email" "string" Json.asString user.email
  let nickname ← field j "nickname" "string" Json.asString user.nickname
  let role ← field j "role" "string" Json.asString user.role
  let enabled ← field j "enabled" "boolean" Json.asBool user.enabled
  return { id, username, password, email, nickname, role, enabled }

/-! ## Validation -/

/-- `[a-zA-Z0-9._%+-]` -/
def isMailboxChar (c : Char) : Bool := c.isAlphanum || ['.', '_', '%', '+', '-'].contains c

/-- `[a-zA-Z0-9.-]` -/
def isDomainChar (c : Char) : Bool := c.isAlphanum || ['.', '-'].contains c

/-- `[a-zA-Z0-9.-]+\.[a-zA-Z]{2,}`: the last dot parts the two. -/
def matchesDomain (text : List Char) : Bool :=
  let topLevel := (text.reverse.takeWhile (· ≠ '.')).reverse
  let domain := (text.take (text.length - topLevel.length)).dropLast
  decide (topLevel.length < text.length) && ! domain.isEmpty && domain.all isDomainChar &&
    decide (2 ≤ topLevel.length) && topLevel.all Char.isAlpha

/-- A full match of `[a-zA-Z0-9._%+-]+@[a-zA-Z0-9.-]+\.[a-zA-Z]{2,}`. -/
def matchesEmail (email : String) : Bool :=
  let mailbox := email.toList.takeWhile (· ≠ '@')
  let domain := email.toList.drop mailbox.length
  ! mailbox.isEmpty && mailbox.all isMailboxChar && ! domain.isEmpty && matchesDomain domain.tail

/-- Lengths are in bytes. -/
def validate (user : User) : Bool :=
  if user.username.utf8ByteSize < 3 ∨ user.username.utf8ByteSize > 20 then false
  else if user.password.utf8ByteSize < 6 then false
  else matchesEmail user.email

example : matchesEmail "a.b@c.d.org" = true := by decide +kernel

end User

end Text2Image
