import Mathlib.Data.List.Infix
import Mathlib.Logic.Function.Basic
import Text2Image.Models.ImageGeneration

/-! The hub that tells WebSocket connections of their user's tasks. Calls take a lock, so
they happen one after the other.
-/

set_option autoImplicit false

namespace Text2Image

/-- The address of a connection; a pointer may also be null. -/
abbrev Connection := Nat

structure TaskEventHub where
  subscribers_ : Int → Option (List Connection) := fun _ => none
  owners_ : Connection → Option Int := fun _ => none

namespace TaskEventHub

variable (hub : TaskEventHub)

def subscribe (userId : Int) (connection : Option Connection) : TaskEventHub :=
  match connection with
  | none => hub
  | some key =>
    if userId ≤ 0 then hub
    else
      { subscribers_ := Function.update hub.subscribers_ userId
          (some (((hub.subscribers_ userId).getD []).insert key))
        owners_ := Function.update hub.owners_ key (some userId) }

def unsubscribe (connection : Option Connection) : TaskEventHub :=
  match connection with
  | none => hub
  | some key =>
    match hub.owners_ key with
    | none => hub
    | some userId =>
      let owners_ := Function.update hub.owners_ key none
      match hub.subscribers_ userId with
      | none => { hub with owners_ }
      | some subscribers =>
        let left := subscribers.erase key
        { subscribers_ := Function.update hub.subscribers_ userId (if left.isEmpty then none else some left)
          owners_ }

def copySubscribersLocked (userId : Int) : List Connection := (hub.subscribers_ userId).getD []

def payload (generation : ImageGeneration) : Json :=
  .object [("type", .string "image.task.updated"), ("task", generation.toJson)]

/-- Who is sent what; a send that fails stops no other. -/
def publishTaskUpdated (generation : ImageGeneration) : List (Connection × Json) :=
  if generation.user_id ≤ 0 then []
  else (hub.copySubscribersLocked generation.user_id).map fun connection => (connection, payload generation)

/-! ## Calls -/

inductive Call where
  | subscribe (userId : Int) (connection : Option Connection)
  | unsubscribe (connection : Option Connection)
  deriving DecidableEq, Repr

/-- The hub after some calls, newest first. -/
def after : List Call → TaskEventHub
  | [] => {}
  | .subscribe userId connection :: past => (after past).subscribe userId connection
  | .unsubscribe connection :: past => (after past).unsubscribe connection

variable {hub}

theorem subscribe_some {userId : Int} (user : 0 < userId) (key : Connection) :
    hub.subscribe userId (some key) =
      { subscribers_ := Function.update hub.subscribers_ userId
          (some ((hub.copySubscribersLocked userId).insert key))
        owners_ := Function.update hub.owners_ key (some userId) } :=
  if_neg (Int.not_le.mpr user)

theorem unsubscribe_unowned {key : Connection} (unowned : hub.owners_ key = none) :
    hub.unsubscribe (some key) = hub := by
  simp only [unsubscribe, unowned]

theorem owners_unsubscribe {key : Connection} {userId : Int} (owner : hub.owners_ key = some userId) :
    (hub.unsubscribe (some key)).owners_ = Function.update hub.owners_ key none := by
  simp only [unsubscribe, owner]
  split <;> rfl

/-- A set that becomes empty goes. -/
theorem subscribers_unsubscribe {key : Connection} {userId : Int} (owner : hub.owners_ key = some userId)
    (other : Int) :
    (hub.unsubscribe (some key)).subscribers_ other =
      if other = userId then
        (hub.subscribers_ userId).bind fun subscribers =>
          if (subscribers.erase key).isEmpty then none else some (subscribers.erase key)
      else hub.subscribers_ other := by
  simp only [unsubscribe, owner]
  cases subscribers : hub.subscribers_ userId with
  | none => by_cases same : other = userId <;> simp [same, subscribers]
  | some set => by_cases same : other = userId <;> simp [same]

theorem copySubscribersLocked_unsubscribe {key : Connection} {userId : Int}
    (owner : hub.owners_ key = some userId) (other : Int) :
    (hub.unsubscribe (some key)).copySubscribersLocked other =
      if other = userId then (hub.copySubscribersLocked userId).erase key
      else hub.copySubscribersLocked other := by
  unfold copySubscribersLocked
  rw [subscribers_unsubscribe owner]
  split
  · cases hub.subscribers_ userId with
    | none => simp
    | some set =>
      by_cases last : set.erase key = []
      · simp only [Option.bind_some, Option.getD_some, last]
        rfl
      · have left : (set.erase key).isEmpty = false := by simpa using last
        simp only [Option.bind_some, Option.getD_some, left, Bool.false_eq_true, if_false]
  · rfl

theorem copySubscribersLocked_subscribe {userId : Int} (user : 0 < userId) (key : Connection) (other : Int) :
    (hub.subscribe userId (some key)).copySubscribersLocked other =
      if other = userId then (hub.copySubscribersLocked userId).insert key
      else hub.copySubscribersLocked other := by
  unfold copySubscribersLocked
  rw [subscribe_some user]
  by_cases same : other = userId <;> simp [same, copySubscribersLocked]

end TaskEventHub

end Text2Image
