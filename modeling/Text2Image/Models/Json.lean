import Mathlib.Algebra.Group.Nat.Defs

/-! JSON values as the backend reads and writes them, and the readers that look
one field up under several names.
-/

set_option autoImplicit false

namespace Text2Image

/-- A parsed JSON value. Objects list their members in order, with distinct names. -/
inductive Json where
  | null
  | boolean (value : Bool)
  | integer (value : Int)
  | float (value : Rat)
  | string (value : String)
  | array (items : List Json)
  | object (members : List (String × Json))
  deriving Repr

/-- The member of this name; values other than objects contain none. -/
def Json.find (j : Json) (key : String) : Option Json :=
  match j with
  | .object members => members.lookup key
  | _ => none

/-- Conversion to a signed machine integer of the given width. -/
def wrapInt (bits : Nat) (value : Int) : Int := value.bmod (2 ^ bits)

namespace Json

variable (j : Json)

def readStringAny : List String → Option String
  | [] => none
  | key :: keys =>
    match j.find key with
    | some (.string value) => some value
    | _ => readStringAny keys

def readIntAny : List String → Option Int
  | [] => none
  | key :: keys =>
    match j.find key with
    | some (.integer value) => some (wrapInt 32 value)
    | _ => readIntAny keys

def readInt64_tAny : List String → Option Int
  | [] => none
  | key :: keys =>
    match j.find key with
    | some (.integer value) => some (wrapInt 64 value)
    | _ => readInt64_tAny keys

/-- A double is kept as the rational it denotes. -/
def readDoubleAny : List String → Option Rat
  | [] => none
  | key :: keys =>
    match j.find key with
    | some (.integer value) => some value
    | some (.float value) => some value
    | _ => readDoubleAny keys

variable {j}

theorem readStringAny_none {keys : List String} (absent : ∀ key ∈ keys, j.find key = none) :
    j.readStringAny keys = none := by
  induction keys with
  | nil => rfl
  | cons key keys ih =>
    simp only [readStringAny, absent key List.mem_cons_self]
    exact ih fun other member => absent other (List.mem_cons_of_mem _ member)

theorem readIntAny_none {keys : List String} (absent : ∀ key ∈ keys, j.find key = none) :
    j.readIntAny keys = none := by
  induction keys with
  | nil => rfl
  | cons key keys ih =>
    simp only [readIntAny, absent key List.mem_cons_self]
    exact ih fun other member => absent other (List.mem_cons_of_mem _ member)

variable {j' : Json}

theorem readStringAny_congr {keys : List String} (agree : ∀ key ∈ keys, j.find key = j'.find key) :
    j.readStringAny keys = j'.readStringAny keys := by
  induction keys with
  | nil => rfl
  | cons key keys ih =>
    simp only [readStringAny, agree key List.mem_cons_self]
    rw [ih fun other member => agree other (List.mem_cons_of_mem _ member)]

theorem readIntAny_congr {keys : List String} (agree : ∀ key ∈ keys, j.find key = j'.find key) :
    j.readIntAny keys = j'.readIntAny keys := by
  induction keys with
  | nil => rfl
  | cons key keys ih =>
    simp only [readIntAny, agree key List.mem_cons_self]
    rw [ih fun other member => agree other (List.mem_cons_of_mem _ member)]

/-! ## Strict readers, which throw -/

def typeName : Json → String
  | .null => "null"
  | .boolean _ => "boolean"
  | .integer _ | .float _ => "number"
  | .string _ => "string"
  | .array _ => "array"
  | .object _ => "object"

def typeError (id : Nat) (text : String) : String :=
  "[json.exception.type_error." ++ toString id ++ "] " ++ text

/-- `json.get<T>()`: throws where the value does not convert. -/
def get {α : Type} (j : Json) (expected : String) (convert : Json → Option α) : Except String α :=
  match convert j with
  | some result => .ok result
  | none => .error (typeError 302 ("type must be " ++ expected ++ ", but is " ++ j.typeName))

/-- `json.value(key, fallback)`: throws on a value that is no object, and on a
member that does not convert. -/
def value {α : Type} (j : Json) (key expected : String) (convert : Json → Option α) (fallback : α) :
    Except String α :=
  match j with
  | .object members =>
    match members.lookup key with
    | none => .ok fallback
    | some member =>
      match convert member with
      | some result => .ok result
      | none => .error (typeError 302
          ("type must be " ++ expected ++ ", but is " ++ member.typeName))
  | other => .error (typeError 306 ("cannot use value() with " ++ other.typeName))

def asString : Json → Option String
  | .string text => some text
  | _ => none

def asInt64 : Json → Option Int
  | .integer number => some (wrapInt 64 number)
  | .float number => some (wrapInt 64 (number.num.tdiv number.den))
  | _ => none

def asBool : Json → Option Bool
  | .boolean flag => some flag
  | _ => none

/-- Conversion to `int`: floats are cut off, booleans count as 0 and 1. -/
def asInt : Json → Option Int
  | .integer number => some (wrapInt 32 number)
  | .float number => some (wrapInt 32 (number.num.tdiv number.den))
  | .boolean flag => some (if flag then 1 else 0)
  | _ => none

end Json

end Text2Image
