import Text2Image.Database.Statement
import Text2Image.Models.User

/-! The table of users and the statements on it. -/

set_option autoImplicit false

namespace Text2Image

structure UserRow where
  id : Int
  username : String
  email : String
  password : String
  nickname : String
  role : String
  enabled : Bool
  deriving DecidableEq, Repr

/-- Two rows that the unique keys permit together. -/
def UserRow.Apart (a b : UserRow) : Prop :=
  collates a.username b.username = false ∧ collates a.email b.email = false

instance (a b : UserRow) : Decidable (a.Apart b) := inferInstanceAs (Decidable (_ ∧ _))

/-- The table with its two unique keys. -/
structure UserTable where
  users : Keyed.Table UserRow.id
  unique : users.rows.Pairwise UserRow.Apart

/-- What an INSERT writes; the other columns take their defaults. -/
def UserRow.of (user : User) (id : Int) : UserRow where
  id := id
  username := user.username
  email := user.email
  password := user.password
  nickname := user.nickname
  role := user.role
  enabled := true

namespace UserTable

def empty : UserTable := ⟨.empty, .nil⟩

def rows (t : UserTable) : List UserRow := t.users.rows

/-- Change rows, but not what the unique keys are on. -/
def modify (t : UserTable) (id : Int) (change : UserRow → UserRow)
    (keeps : ∀ row, (change row).id = row.id ∧ (change row).username = row.username ∧
      (change row).email = row.email) : UserTable where
  users := t.users.update (fun row => decide (row.id = id)) change fun row => (keeps row).1
  unique := by
    refine List.pairwise_map.mpr (t.unique.imp ?_)
    intro a b apart
    split <;> split <;> simpa only [UserRow.Apart, (keeps _).2.1, (keeps _).2.2] using apart

def setPassword (t : UserTable) (id : Int) (password : String) : UserTable :=
  t.modify id (fun row => { row with password := password }) fun _ => ⟨rfl, rfl, rfl⟩

def setEnabled (t : UserTable) (id : Int) (enabled : Bool) : UserTable :=
  t.modify id (fun row => { row with enabled := enabled }) fun _ => ⟨rfl, rfl, rfl⟩

/-- The row of this user, if the unique keys admit it. -/
def insert (t : UserTable) (user : User) : Option UserTable :=
  if free : ∀ row ∈ t.rows, row.Apart (.of user t.users.next) then
    some {
      users := t.users.insert (UserRow.of user) rfl
      unique := by
        refine List.pairwise_append.mpr ⟨t.unique, List.pairwise_singleton _ _, ?_⟩
        intro a old b new
        rw [List.mem_singleton.mp new]
        exact free a old }
  else none

end UserTable

/-! ## Statements -/

/-- The condition of a SELECT that reads one user. -/
inductive UserKey where
  | username (username : String)
  | email (email : String)
  | id (id : Int)
  deriving DecidableEq, Repr

def UserKey.names : UserKey → UserRow → Bool
  | .username name, row => collates row.username name
  | .email address, row => collates row.email address
  | .id number, row => row.id = number

/-- The row the key names; the unique keys leave at most one. -/
def UserTable.find (t : UserTable) (key : UserKey) : Option UserRow :=
  t.rows.find? key.names

inductive UserStmt where
  | select (key : UserKey)
  | insert (user : User)
  | updatePassword (id : Int) (passwordHash : String)

namespace UserStmt

def Answer : UserStmt → Type
  | .select _ => Option UserRow
  | .insert _ => Int
  | .updatePassword _ _ => Bool

/-- What the database answers, with the table that is left. An UPDATE counts the rows it
changes. -/
def run : (s : UserStmt) → UserTable → Except String s.Answer × UserTable
  | .select key, t => (.ok (t.find key), t)
  | .insert user, t =>
    match t.insert user with
    | some t' => (.ok t.users.next, t')
    | none => (.error "Duplicate entry", t)
  | .updatePassword id passwordHash, t =>
    (.ok (t.rows.any fun row => decide (row.id = id ∧ row.password ≠ passwordHash)),
      t.setPassword id passwordHash)

end UserStmt

/-! ## Looking users up -/

namespace UserTable

variable {t : UserTable} {key : UserKey} {row : UserRow}

theorem find_mem (found : t.find key = some row) : row ∈ t.rows ∧ key.names row = true :=
  ⟨List.mem_of_find?_eq_some found, List.find?_some found⟩

end UserTable

end Text2Image
