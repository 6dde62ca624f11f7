import Mathlib.Logic.Function.Basic
import Mathlib.Data.List.Basic

/-! A keyspace of texts and sets whose entries may expire, with the commands on it.
Times are counts of some unit; an entry is dead from its expiry on.
-/

set_option autoImplicit false

namespace Keyspace

inductive Value where
  | text (value : String)
  | members (members : List String)
  deriving DecidableEq, Repr

structure Entry where
  value : Value
  expiry : Option Int
  deriving DecidableEq, Repr

def Entry.liveAt (entry : Entry) (now : Int) : Bool :=
  match entry.expiry with
  | some expiry => now < expiry
  | none => true

/-- Dead entries may still be there; no command sees them. -/
abbrev State := String → Option Entry

namespace State

def empty : State := fun _ => none

variable (s : State)

def live (now : Int) (key : String) : Option Entry := (s key).filter (·.liveAt now)

def put (key : String) (entry : Entry) : State := Function.update s key (some entry)

def remove (key : String) : State := Function.update s key none

/-- The members of a set; what is absent is the empty set. -/
def membersAt (now : Int) (key : String) : Option (List String) :=
  match s.live now key with
  | some ⟨.members members, _⟩ => some members
  | some ⟨.text _, _⟩ => none
  | none => some []

/-- The text of a key, where it holds no set. -/
def textAt (now : Int) (key : String) : Option (Option String) :=
  match s.live now key with
  | some ⟨.text value, _⟩ => some (some value)
  | some ⟨.members _, _⟩ => none
  | none => some none

end State

inductive Command where
  | get (key : String)
  | setex (key value : String) (ttl : Int)
  | getDel (key : String)
  | del (key : String)
  | sadd (key member : String)
  | srem (key member : String)
  | smembers (key : String)
  | expire (key : String) (ttl : Int)
  deriving DecidableEq, Repr

namespace Command

def Reply : Command → Type
  | .get _ | .getDel _ => Option String
  | .del _ => Bool
  | .smembers _ => List String
  | .setex .. | .sadd .. | .srem .. | .expire .. => Unit

def key : Command → String
  | .get key | .setex key _ _ | .getDel key | .del key | .sadd key _ | .srem key _
  | .smembers key | .expire key _ => key

def wrongType : String := "WRONGTYPE Operation against a key holding the wrong kind of value"

/-- The reply of a command, or its error, and the keyspace it leaves. -/
def run : (command : Command) → Int → State → Except String command.Reply × State
  | .get key, now, s =>
    match s.textAt now key with
    | some value => (.ok value, s)
    | none => (.error wrongType, s)
  | .setex key value ttl, now, s =>
    if ttl ≤ 0 then (.error "ERR invalid expire time in 'setex' command", s)
    else (.ok (), s.put key ⟨.text value, some (now + ttl)⟩)
  | .getDel key, now, s =>
    match s.textAt now key with
    | some (some value) => (.ok (some value), s.remove key)
    | some none => (.ok none, s)
    | none => (.error wrongType, s)
  | .del key, now, s => (.ok (s.live now key).isSome, s.remove key)
  | .sadd key member, now, s =>
    match s.live now key with
    | some ⟨.members members, expiry⟩ => (.ok (), s.put key ⟨.members (members.insert member), expiry⟩)
    | some ⟨.text _, _⟩ => (.error wrongType, s)
    | none => (.ok (), s.put key ⟨.members [member], none⟩)
  | .srem key member, now, s =>
    match s.live now key with
    | some ⟨.members members, expiry⟩ =>
      let left := members.filter (· ≠ member)
      (.ok (), if left.isEmpty then s.remove key else s.put key ⟨.members left, expiry⟩)
    | some ⟨.text _, _⟩ => (.error wrongType, s)
    | none => (.ok (), s)
  | .smembers key, now, s =>
    match s.membersAt now key with
    | some members => (.ok members, s)
    | none => (.error wrongType, s)
  | .expire key ttl, now, s =>
    match s.live now key with
    | some entry =>
      (.ok (), if ttl ≤ 0 then s.remove key else s.put key { entry with expiry := some (now + ttl) })
    | none => (.ok (), s)

/-- A command touches no key but its own. -/
theorem run_other {command : Command} {now : Int} {s : State} {key : String}
    (other : key ≠ command.key) : (command.run now s).2 key = s key := by
  cases command <;> simp only [Command.key] at other <;> simp only [run] <;> (repeat' split) <;>
    simp [State.put, State.remove, Function.update_of_ne other]

end Command

namespace State

variable {s : State} {now ttl : Int} {key : String}

theorem live_of_ne {command : Command} {later : Int} (other : key ≠ command.key) :
    ((command.run now s).2).live later key = s.live later key := by
  unfold live
  rw [Command.run_other other]

/-- What is dead stays dead. -/
theorem live_of_later {later : Int} {entry : Entry} (forward : now ≤ later)
    (alive : s.live later key = some entry) : s.live now key = some entry := by
  obtain ⟨present, fresh⟩ := Option.filter_eq_some_iff.mp alive
  refine Option.filter_eq_some_iff.mpr ⟨present, ?_⟩
  cases expires : entry.expiry with
  | none => simp [Entry.liveAt, expires]
  | some expiry =>
    simp only [Entry.liveAt, expires, decide_eq_true_eq] at fresh ⊢
    omega

@[simp] theorem live_put_self {entry : Entry} :
    (s.put key entry).live now key = if entry.liveAt now then some entry else none := by
  simp [live, put, Option.filter]

theorem live_put_of_ne {entry : Entry} {other : String} (different : other ≠ key) :
    (s.put key entry).live now other = s.live now other := by
  simp [live, put, Function.update_of_ne different]

@[simp] theorem live_remove_self : (s.remove key).live now key = none := by
  simp [live, remove]

/-! ## Keys without a text -/

/-- From this time on the key holds no text. -/
def Textless (s : State) (now : Int) (key : String) : Prop :=
  ∀ later, now ≤ later → ∀ text expiry, s.live later key ≠ some ⟨.text text, expiry⟩

theorem Textless.later {later : Int} (textless : s.Textless now key) (forward : now ≤ later) :
    s.Textless later key := fun time after => textless time (Int.le_trans forward after)

theorem textless_remove : (s.remove key).Textless now key := by
  intro later _ text expiry
  simp

theorem textless_members {members : List String} {expiry : Option Int} :
    (s.put key ⟨.members members, expiry⟩).Textless now key := by
  intro later _ text expiry' found
  rw [live_put_self] at found
  split at found <;> simp at found

/-- Only SETEX puts a text where none is. -/
theorem Textless.run {command : Command} (textless : s.Textless now key)
    (other : ∀ value ttl, command ≠ .setex key value ttl) : ((command.run now s).2).Textless now key := by
  by_cases same : command.key = key
  · subst same
    cases command with
    | setex key value ttl => exact absurd rfl (other value ttl)
    | get key => simp only [Command.run]; split <;> exact textless
    | smembers key => simp only [Command.run]; split <;> exact textless
    | del key => exact textless_remove
    | getDel key =>
      simp only [Command.run]
      split
      · exact textless_remove
      · exact textless
      · exact textless
    | sadd key member =>
      simp only [Command.run]
      split
      · exact textless_members
      · exact textless
      · exact textless_members
    | srem key member =>
      simp only [Command.run]
      split
      · split
        · exact textless_remove
        · exact textless_members
      · exact textless
      · exact textless
    | expire key ttl =>
      simp only [Command.run]
      split
      · rename_i entry found
        split
        · exact textless_remove
        · obtain ⟨value, expiry⟩ := entry
          cases value with
          | text text => exact absurd found (textless now (Int.le_refl _) text expiry)
          | members members => exact textless_members
      · exact textless
  · intro later forward text expiry found
    rw [live_of_ne (Ne.symm same)] at found
    exact textless later forward text expiry found

/-- Whatever GETDEL finds, it leaves no text. -/
theorem textless_getDel : (((Command.getDel key).run now s).2).Textless now key := by
  have textAt : ∀ later, now ≤ later → ∀ text expiry, s.live later key = some ⟨.text text, expiry⟩ →
      s.textAt now key = some (some text) := by
    intro later forward text expiry found
    rw [State.textAt, live_of_later forward found]
  simp only [Command.run]
  split
  · exact textless_remove
  · rename_i absent
    intro later forward text expiry found
    cases absent.symm.trans (textAt later forward text expiry found)
  · rename_i wrong
    intro later forward text expiry found
    cases wrong.symm.trans (textAt later forward text expiry found)

/-- A text is where SETEX has just put it, or it was there before. -/
theorem textAt_run {command : Command} {text : String}
    (found : (command.run now s).2.textAt now key = some (some text)) :
    (∃ ttl, command = .setex key text ttl ∧ 0 < ttl) ∨
      (s.textAt now key = some (some text) ∧ ∀ value ttl, 0 < ttl → command ≠ .setex key value ttl) := by
  by_cases same : command.key = key
  · subst same
    cases command with
    | setex key value ttl =>
      simp only [Command.run, Command.key] at found ⊢
      split at found
      · rename_i refused
        refine .inr ⟨found, fun value' ttl' positive equal => ?_⟩
        cases equal
        omega
      · rename_i positive
        left
        refine ⟨ttl, ?_, Int.not_le.mp positive⟩
        simp only [textAt, live_put_self, Entry.liveAt] at found
        split at found <;> simp_all
    | get key | smembers key =>
      refine .inr ⟨?_, nofun⟩
      simp only [Command.run] at found
      split at found <;> exact found
    | del key => simp [Command.run, Command.key, textAt] at found
    | getDel key =>
      refine .inr ⟨?_, nofun⟩
      simp only [Command.run] at found
      split at found
      · simp [Command.key, textAt] at found
      · exact found
      · exact found
    | sadd key member =>
      refine .inr ⟨?_, nofun⟩
      simp only [Command.run] at found
      split at found
      · simp only [Command.key, textAt, live_put_self] at found
        split at found <;> simp_all
      · exact found
      · simp [Command.key, textAt, Entry.liveAt] at found
    | srem key member =>
      refine .inr ⟨?_, nofun⟩
      simp only [Command.run] at found
      split at found
      · split at found
        · simp [Command.key, textAt] at found
        · simp only [Command.key, textAt, live_put_self] at found
          split at found <;> simp_all
      · exact found
      · exact found
    | expire key ttl =>
      refine .inr ⟨?_, nofun⟩
      simp only [Command.run] at found
      split at found
      · rename_i entry live
        obtain ⟨value, expiry⟩ := entry
        split at found
        · simp [Command.key, textAt] at found
        · simp only [Command.key, textAt, live_put_self, live] at found ⊢
          cases value <;> split at found <;> simp_all
      · exact found
  · right
    refine ⟨?_, fun value ttl _ equal => same (by rw [equal]; rfl)⟩
    rwa [textAt, live_of_ne (Ne.symm same)] at found

/-- A text that is there later has been there all along. -/
theorem textAt_later {later : Int} {text : String} (forward : now ≤ later)
    (found : s.textAt later key = some (some text)) : s.textAt now key = some (some text) := by
  unfold textAt at found ⊢
  cases live : s.live later key with
  | none => simp [live] at found
  | some entry =>
    rw [live] at found
    rw [live_of_later forward live]
    exact found

/-! ## Keys that hold a set -/

theorem liveAt_of_live {entry : Entry} (live : s.live now key = some entry) : entry.liveAt now = true :=
  (Option.filter_eq_some_iff.mp live).2

/-- The set of a key is the one of its entry, or empty. -/
theorem membersAt_cases {members : List String} (set : s.membersAt now key = some members) :
    (s.live now key = none ∧ members = []) ∨ ∃ expiry, s.live now key = some ⟨.members members, expiry⟩ := by
  unfold membersAt at set
  split at set
  · rename_i found expiry live
    cases set
    exact .inr ⟨expiry, live⟩
  · cases set
  · rename_i absent
    cases set
    exact .inl ⟨absent, rfl⟩

/-- Whether an entry is alive does not depend on what it holds. -/
theorem membersAt_put {value : Value} {members : List String} {expiry : Option Int}
    (alive : Entry.liveAt ⟨value, expiry⟩ now = true) :
    (s.put key ⟨.members members, expiry⟩).membersAt now key = some members := by
  have alive' : Entry.liveAt ⟨.members members, expiry⟩ now = true := alive
  rw [membersAt, live_put_self, if_pos alive']

theorem membersAt_remove : (s.remove key).membersAt now key = some [] := by
  rw [membersAt, live_remove_self]

theorem membersAt_congr {other : State} (same : other.live now key = s.live now key) :
    other.membersAt now key = s.membersAt now key := by
  rw [membersAt, membersAt, same]

theorem run_smembers {members : List String} (set : s.membersAt now key = some members) :
    (Command.smembers key).run now s = (.ok members, s) := by
  simp only [Command.run, set]

theorem run_sadd {members : List String} (set : s.membersAt now key = some members)
    (member : String) : ((Command.sadd key member).run now s).1 = .ok () ∧
    ((Command.sadd key member).run now s).2.membersAt now key = some (members.insert member) := by
  rcases membersAt_cases set with ⟨absent, rfl⟩ | ⟨expiry, live⟩
  · simp only [Command.run, absent]
    have alive : Entry.liveAt ⟨.members [member], none⟩ now = true := rfl
    exact ⟨trivial, membersAt_put alive⟩
  · simp only [Command.run, live]
    exact ⟨trivial, membersAt_put (liveAt_of_live live)⟩

theorem run_srem {members : List String} (set : s.membersAt now key = some members)
    (member : String) : ((Command.srem key member).run now s).1 = .ok () ∧
    ((Command.srem key member).run now s).2.membersAt now key = some (members.filter (· ≠ member)) := by
  rcases membersAt_cases set with ⟨absent, rfl⟩ | ⟨expiry, live⟩
  · simp only [Command.run, absent]
    exact ⟨trivial, set⟩
  · simp only [Command.run, live]
    refine ⟨trivial, ?_⟩
    split
    · rename_i nothing
      rw [List.isEmpty_iff.mp nothing]
      exact membersAt_remove
    · exact membersAt_put (liveAt_of_live live)

theorem run_expire {members : List String} (set : s.membersAt now key = some members)
    (positive : 0 < ttl) : ((Command.expire key ttl).run now s).1 = .ok () ∧
    ((Command.expire key ttl).run now s).2.membersAt now key = some members := by
  rcases membersAt_cases set with ⟨absent, rfl⟩ | ⟨expiry, live⟩
  · simp only [Command.run, absent]
    exact ⟨trivial, set⟩
  · simp only [Command.run, live, if_neg (Int.not_le.mpr positive)]
    have alive : Entry.liveAt ⟨.members members, some (now + ttl)⟩ now = true := by
      simp only [Entry.liveAt, decide_eq_true_eq]
      omega
    exact ⟨trivial, membersAt_put alive⟩

/-- As time passes, a set stays as it is, or dies as a whole. -/
theorem membersAt_later {members : List String} {later : Int} (set : s.membersAt now key = some members)
    (forward : now ≤ later) :
    s.membersAt later key = some members ∨ s.membersAt later key = some [] := by
  cases live : s.live later key with
  | none => exact .inr (by rw [membersAt, live])
  | some entry =>
    have before := live_of_later forward live
    rw [membersAt, before] at set
    rw [membersAt, live]
    exact .inl set

end State

end Keyspace
