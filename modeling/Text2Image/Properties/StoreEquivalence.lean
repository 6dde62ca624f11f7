import Mathlib.Algebra.Order.Ring.Int
import Text2Image.Services.StoreRuns

/-! The two stores of refresh tokens against a ledger of the calls. -/

set_option autoImplicit false

namespace Text2Image.Auth

open Concurrency

/-! ## What the calls say -/

def StoredFor (past : List StoreCall) (jti : String) (userId : Int) : Prop :=
  ∃ ttl, StoreCall.store jti userId ttl ∈ past

def elapsed (past : List StoreCall) : Int := (past.map StoreCall.clock).sum

/-- The callers' part: ids are as generated and are not used twice, users are numbered in 64 bits, and
the time is one that a clock can show.
-/
def Proper (past : List StoreCall) : StoreCall → Prop
  | .store jti userId _ => IsId jti ∧ (-2 ^ 63 ≤ userId ∧ userId < 2 ^ 63) ∧ ∀ other, ¬ StoredFor past jti other
  | .consume jti | .revoke jti => IsId jti
  | .revokeUser _ => True
  | .passTime ticks => Chrono.Representable (elapsed past + ticks)

def ProperRun : List StoreCall → Prop
  | [] => True
  | call :: past => Proper past call ∧ ProperRun past

/-- The call consumes the token or revokes it, by itself or with all of its user's. -/
def StoreCall.Ends (jti : String) (userId : Int) : StoreCall → Prop
  | .consume other | .revoke other => other = jti
  | .revokeUser other => other = userId
  | .store .. | .passTime _ => False

/-- The token was stored with this expiry, and nothing has ended it since. -/
def Kept (past : List StoreCall) (jti : String) (entry : TokenEntry) : Prop :=
  ∃ newer ttl older, past = newer ++ .store jti entry.user_id ttl :: older ∧
    entry.expires_at = elapsed older + Chrono.seconds (max ttl 1) ∧ ∀ call ∈ newer, ¬ call.Ends jti entry.user_id

/-- The token was stored, has not expired, and has been neither consumed nor revoked. -/
def Consumable (past : List StoreCall) (jti : String) (userId : Int) : Prop :=
  ∃ entry : TokenEntry, entry.user_id = userId ∧ Kept past jti entry ∧ elapsed past < entry.expires_at

theorem kept_cons {past : List StoreCall} {call : StoreCall} {jti : String} {entry : TokenEntry} :
    Kept (call :: past) jti entry ↔ (Kept past jti entry ∧ ¬ call.Ends jti entry.user_id) ∨
      ∃ ttl, call = .store jti entry.user_id ttl ∧
        entry.expires_at = elapsed past + Chrono.seconds (max ttl 1) := by
  constructor
  · rintro ⟨newer, ttl, older, split, expires, ends⟩
    cases newer with
    | nil =>
      obtain ⟨rfl, rfl⟩ := List.cons.inj split
      exact .inr ⟨ttl, rfl, expires⟩
    | cons first newer =>
      obtain ⟨rfl, rfl⟩ := List.cons.inj split
      obtain ⟨now, before⟩ := List.forall_mem_cons.mp ends
      exact .inl ⟨⟨newer, ttl, older, rfl, expires, before⟩, now⟩
  · rintro (⟨⟨newer, ttl, older, rfl, expires, ends⟩, now⟩ | ⟨ttl, rfl, expires⟩)
    · exact ⟨call :: newer, ttl, older, rfl, expires, List.forall_mem_cons.mpr ⟨now, ends⟩⟩
    · exact ⟨[], ttl, past, rfl, expires, by simp⟩

theorem Kept.storedFor {past : List StoreCall} {jti : String} {entry : TokenEntry}
    (kept : Kept past jti entry) : StoredFor past jti entry.user_id := by
  obtain ⟨newer, ttl, older, rfl, _⟩ := kept
  exact ⟨ttl, by simp⟩

theorem StoredFor.cons {past : List StoreCall} {jti : String} {userId : Int} (stored : StoredFor past jti userId)
    (call : StoreCall) : StoredFor (call :: past) jti userId := by
  obtain ⟨ttl, member⟩ := stored
  exact ⟨ttl, List.mem_cons_of_mem _ member⟩

theorem storedFor_cons {past : List StoreCall} {call : StoreCall} {jti : String} {userId : Int}
    (stored : StoredFor (call :: past) jti userId) :
    (∃ ttl, call = .store jti userId ttl) ∨ StoredFor past jti userId := by
  obtain ⟨ttl, member⟩ := stored
  rcases List.mem_cons.mp member with rfl | older
  · exact .inl ⟨ttl, rfl⟩
  · exact .inr ⟨ttl, older⟩

/-- A token has one user. -/
theorem ProperRun.unique {past : List StoreCall} (proper : ProperRun past) {jti : String} {userId other : Int}
    (first : StoredFor past jti userId) (second : StoredFor past jti other) : userId = other := by
  induction past with
  | nil =>
    obtain ⟨_, member⟩ := first
    cases member
  | cons call past ih =>
    rcases storedFor_cons first with ⟨ttl, rfl⟩ | earlier
    · rcases storedFor_cons second with ⟨_, same⟩ | earlier
      · cases same
        rfl
      · exact (proper.1.2.2 _ earlier).elim
    · rcases storedFor_cons second with ⟨_, rfl⟩ | earlier'
      · exact (proper.1.2.2 _ earlier).elim
      · exact ih proper.2 earlier earlier'

theorem ProperRun.stored {past : List StoreCall} (proper : ProperRun past) {jti : String} {userId : Int}
    (stored : StoredFor past jti userId) : IsId jti ∧ -2 ^ 63 ≤ userId ∧ userId < 2 ^ 63 := by
  induction past with
  | nil =>
    obtain ⟨_, member⟩ := stored
    cases member
  | cons call past ih =>
    rcases storedFor_cons stored with ⟨ttl, rfl⟩ | older
    · exact ⟨proper.1.1, proper.1.2.1⟩
    · exact ih proper.2 older

/-! ## The ledger -/

theorem fresh_eq_some {tokens : TokenMap} {now : TimePoint} {jti : String} {entry : TokenEntry} :
    MapOp.fresh now tokens jti = some entry ↔ tokens jti = some entry ∧ now < entry.expires_at := by
  simp [MapOp.fresh, Option.filter_eq_some_iff]

/-- What a call does to the tokens where times have no bound. -/
def StoreCall.recorded (call : StoreCall) (now : TimePoint) (tokens : TokenMap) : TokenMap :=
  match call with
  | .store jti userId ttl => Function.update tokens jti (some ⟨userId, now + Chrono.seconds (max ttl 1)⟩)
  | .consume jti => Function.update (MapOp.fresh now tokens) jti none
  | .revoke jti => Function.update tokens jti none
  | .revokeUser userId => fun jti => (tokens jti).filter fun entry => decide (entry.user_id ≠ userId)
  | .passTime _ => tokens

/-- The tokens after these calls, newest first. -/
def ledger : List StoreCall → TokenMap
  | [] => fun _ => none
  | latest :: past => latest.recorded (elapsed past) (ledger past)

theorem elapsed_cons (call : StoreCall) (past : List StoreCall) :
    elapsed (call :: past) = elapsed past + call.clock := by
  simp [elapsed, Int.add_comm]

theorem clock_nonneg (call : StoreCall) : 0 ≤ call.clock := by
  cases call with
  | passTime ticks => exact Int.natCast_nonneg ticks
  | _ => exact Int.le_refl 0

theorem elapsed_nonneg (past : List StoreCall) : 0 ≤ elapsed past := by
  induction past with
  | nil => exact Int.le_refl 0
  | cons call past ih =>
    rw [elapsed_cons]
    exact Int.add_nonneg ih (clock_nonneg call)

theorem recorded_of_store {now : TimePoint} {tokens : TokenMap} {jti other : String} {userId ttl : Int}
    (different : other ≠ jti) : (StoreCall.store jti userId ttl).recorded now tokens other = tokens other :=
  Function.update_of_ne different _ _

theorem recorded_of_gone {call : StoreCall} {now : TimePoint} {tokens : TokenMap} {jti : String}
    (gone : call = .consume jti ∨ call = .revoke jti) : call.recorded now tokens jti = none := by
  rcases gone with rfl | rfl <;> exact Function.update_self _ _ _

/-- A call that stores no token under this id keeps its entry unless it ends it, or the entry has expired. -/
theorem recorded_iff {call : StoreCall} {now : TimePoint} {tokens : TokenMap} {jti : String}
    {entry : TokenEntry} (alive : now < entry.expires_at) (other : ∀ userId ttl, call ≠ .store jti userId ttl) :
    call.recorded now tokens jti = some entry ↔ tokens jti = some entry ∧ ¬ call.Ends jti entry.user_id := by
  cases call with
  | store other' userId ttl =>
    have different : jti ≠ other' := by
      rintro rfl
      exact other userId ttl rfl
    rw [recorded_of_store different]
    simp [StoreCall.Ends]
  | consume other' =>
    by_cases same : jti = other'
    · subst same
      rw [recorded_of_gone (.inl rfl)]
      simp [StoreCall.Ends]
    · have kept : (StoreCall.consume other').recorded now tokens jti = MapOp.fresh now tokens jti :=
        Function.update_of_ne same _ _
      rw [kept, fresh_eq_some]
      simp [StoreCall.Ends, alive, Ne.symm same]
  | revoke other' =>
    by_cases same : jti = other'
    · subst same
      rw [recorded_of_gone (.inr rfl)]
      simp [StoreCall.Ends]
    · have kept : (StoreCall.revoke other').recorded now tokens jti = tokens jti :=
        Function.update_of_ne same _ _
      rw [kept]
      simp [StoreCall.Ends, Ne.symm same]
  | revokeUser userId =>
    show (tokens jti).filter (fun entry => decide (entry.user_id ≠ userId)) = some entry ↔ _
    rw [Option.filter_eq_some_iff, decide_eq_true_eq]
    exact and_congr_right fun _ => not_congr eq_comm
  | passTime ticks => simp [StoreCall.recorded, StoreCall.Ends]

theorem recorded_store (now : TimePoint) (tokens : TokenMap) (jti : String) (userId ttl : Int) :
    (StoreCall.store jti userId ttl).recorded now tokens jti =
      some ⟨userId, now + Chrono.seconds (max ttl 1)⟩ :=
  Function.update_self _ _ _

/-- No other call puts anything there. -/
theorem of_recorded {call : StoreCall} {now : TimePoint} {tokens : TokenMap} {jti : String}
    {entry : TokenEntry} (other : ∀ userId ttl, call ≠ .store jti userId ttl)
    (found : call.recorded now tokens jti = some entry) : tokens jti = some entry := by
  cases call with
  | store other' userId ttl =>
    have different : jti ≠ other' := by
      rintro rfl
      exact other userId ttl rfl
    rwa [recorded_of_store different] at found
  | consume other' =>
    by_cases same : jti = other'
    · rw [same] at found
      cases (recorded_of_gone (.inl rfl)).symm.trans found
    · have kept : (StoreCall.consume other').recorded now tokens jti = MapOp.fresh now tokens jti :=
        Function.update_of_ne same _ _
      exact (fresh_eq_some.mp (kept.symm.trans found)).1
  | revoke other' =>
    by_cases same : jti = other'
    · rw [same] at found
      cases (recorded_of_gone (.inr rfl)).symm.trans found
    · have kept : (StoreCall.revoke other').recorded now tokens jti = tokens jti :=
        Function.update_of_ne same _ _
      exact kept.symm.trans found
  | revokeUser userId => exact (Option.filter_eq_some_iff.mp found).1
  | passTime ticks => exact found

/-- A new token under its own id. -/
theorem kept_store {past : List StoreCall} {jti : String} {userId ttl : Int} {entry : TokenEntry}
    (fresh : ∀ other, ¬ StoredFor past jti other) :
    Kept (.store jti userId ttl :: past) jti entry ↔ entry = ⟨userId, elapsed past + Chrono.seconds (max ttl 1)⟩ := by
  rw [kept_cons]
  constructor
  · rintro (⟨kept, _⟩ | ⟨_, same, expires⟩)
    · exact (fresh _ kept.storedFor).elim
    · cases same
      rw [← expires]
  · rintro rfl
    exact .inr ⟨ttl, rfl, rfl⟩

/-- Under every other id nothing new is kept. -/
theorem kept_other {past : List StoreCall} {call : StoreCall} {jti : String} {entry : TokenEntry}
    (other : ∀ userId ttl, call ≠ .store jti userId ttl) :
    Kept (call :: past) jti entry ↔ Kept past jti entry ∧ ¬ call.Ends jti entry.user_id := by
  rw [kept_cons]
  constructor
  · rintro (kept | ⟨ttl, same, _⟩)
    · exact kept
    · exact (other _ _ same).elim
  · exact .inl

/-- The ledger holds the tokens that are kept; those that have expired do not matter. -/
structure Records (past : List StoreCall) (held : TokenMap) : Prop where
  tokens : ∀ jti entry, elapsed past < entry.expires_at → (held jti = some entry ↔ Kept past jti entry)
  owners : ∀ jti entry, held jti = some entry → StoredFor past jti entry.user_id
  times : ∀ jti entry, held jti = some entry → 0 ≤ entry.expires_at

theorem records_nil : Records [] (ledger []) where
  tokens jti entry _ := by
    constructor
    · intro absent
      cases absent
    · rintro ⟨newer, ttl, older, split, _⟩
      simp at split
  owners jti entry absent := by cases absent
  times jti entry absent := by cases absent

theorem Records.step {past : List StoreCall} {call : StoreCall} {tokens : TokenMap}
    (records : Records past tokens) (proper : Proper past call) :
    Records (call :: past) (call.recorded (elapsed past) tokens) := by
  refine ⟨fun jti entry alive => ?_, fun jti entry found => ?_, fun jti entry found => ?_⟩
  · have before : elapsed past < entry.expires_at := by
      have forward := clock_nonneg call
      rw [elapsed_cons] at alive
      omega
    by_cases stores : ∃ userId ttl, call = .store jti userId ttl
    · obtain ⟨userId, ttl, rfl⟩ := stores
      rw [recorded_store, kept_store proper.2.2, Option.some.injEq, eq_comm]
    · have other : ∀ userId ttl, call ≠ .store jti userId ttl :=
        fun userId ttl same => stores ⟨userId, ttl, same⟩
      rw [recorded_iff before other, records.tokens jti entry before, kept_other other]
  · by_cases stores : ∃ userId ttl, call = .store jti userId ttl
    · obtain ⟨userId, ttl, rfl⟩ := stores
      rw [recorded_store, Option.some.injEq] at found
      rw [← found]
      exact ⟨ttl, List.mem_cons_self⟩
    · exact (records.owners jti entry
        (of_recorded (fun userId ttl same => stores ⟨userId, ttl, same⟩) found)).cons call
  · by_cases stores : ∃ userId ttl, call = .store jti userId ttl
    · obtain ⟨userId, ttl, rfl⟩ := stores
      rw [recorded_store, Option.some.injEq] at found
      rw [← found]
      exact Int.add_nonneg (elapsed_nonneg past) (Int.le_of_lt (lifetime_pos ttl))
    · exact records.times jti entry (of_recorded (fun userId ttl same => stores ⟨userId, ttl, same⟩) found)

theorem records {past : List StoreCall} (proper : ProperRun past) : Records past (ledger past) := by
  induction past with
  | nil => exact records_nil
  | cons call past ih => exact (ih proper.2).step proper.1

/-- The ledger has what the calls say. -/
theorem ledger_consume {past : List StoreCall} (proper : ProperRun past) (jti : String) (userId : Int) :
    (MapOp.fresh (elapsed past) (ledger past) jti).map (·.user_id) = some userId ↔ Consumable past jti userId := by
  have holds := records proper
  simp only [Option.map_eq_some_iff, fresh_eq_some, Consumable]
  constructor
  · rintro ⟨entry, ⟨present, alive⟩, rfl⟩
    exact ⟨entry, rfl, (holds.tokens jti entry alive).mp present, alive⟩
  · rintro ⟨entry, rfl, kept, alive⟩
    exact ⟨entry, ⟨(holds.tokens jti entry alive).mpr kept, alive⟩, rfl⟩

/-! ## In memory -/

/-- The map after a call. -/
def StoreCall.remembered (call : StoreCall) (now : TimePoint) (tokens : TokenMap) : TokenMap :=
  match call with
  | .store jti userId ttl => ((MapOp.store jti userId ttl).run now tokens).2
  | .consume jti => ((MapOp.consume jti).run now tokens).2
  | .revoke jti => ((MapOp.revoke jti).run now tokens).2
  | .revokeUser userId => ((MapOp.revokeUser userId).run now tokens).2
  | .passTime _ => tokens

theorem memory_step (call : StoreCall) (world : World) :
    (call.step .InMemory world).2 =
      { world with
        tokens := call.remembered world.clock world.tokens
        clock := world.clock + call.clock } := by
  cases call <;> rfl

theorem memory_clock (past : List StoreCall) : (reached .InMemory past).clock = elapsed past := by
  induction past with
  | nil => rfl
  | cons call past ih => rw [reached, memory_step, elapsed_cons, ← ih]

/-- The entry with its expiry in the bits that the clock has for it. -/
def TokenEntry.wrapped (entry : TokenEntry) : TokenEntry :=
  { entry with expires_at := Chrono.wrapTicks entry.expires_at }

def wrapped (tokens : TokenMap) : TokenMap := fun jti => (tokens jti).map TokenEntry.wrapped

/-- What has not expired has not expired in those bits either. -/
def Timely (now : TimePoint) (tokens : TokenMap) : Prop :=
  ∀ jti entry, tokens jti = some entry → now < entry.expires_at → now < Chrono.wrapTicks entry.expires_at

theorem fresh_wrapped {now : TimePoint} {tokens : TokenMap} (timely : Timely now tokens)
    (times : ∀ jti entry, tokens jti = some entry → 0 ≤ entry.expires_at) :
    MapOp.fresh now (wrapped tokens) = wrapped (MapOp.fresh now tokens) := by
  funext jti
  unfold MapOp.fresh wrapped
  dsimp only
  cases found : tokens jti with
  | none => rfl
  | some entry =>
    have least := Chrono.wrapTicks_le (times jti entry found)
    have alive : now < Chrono.wrapTicks entry.expires_at ↔ now < entry.expires_at :=
      ⟨fun alive => Int.lt_of_lt_of_le alive least, timely jti entry found⟩
    simp only [Option.map_some, Option.filter_some, TokenEntry.wrapped, alive]
    split <;> rfl

theorem update_wrapped (tokens : TokenMap) (jti : String) (entry : Option TokenEntry) :
    Function.update (wrapped tokens) jti (entry.map TokenEntry.wrapped) = wrapped (Function.update tokens jti entry) := by
  funext other
  unfold wrapped
  by_cases same : other = jti
  · rw [same, Function.update_self, Function.update_self]
  · rw [Function.update_of_ne same, Function.update_of_ne same]

/-- The map is the ledger in the clock's bits, as long as nothing expires too early. -/
theorem remembered_wrapped {now : TimePoint} {tokens : TokenMap} (call : StoreCall) (timely : Timely now tokens)
    (times : ∀ jti entry, tokens jti = some entry → 0 ≤ entry.expires_at) :
    call.remembered now (wrapped tokens) = wrapped (call.recorded now tokens) := by
  cases call with
  | store jti userId ttl => exact update_wrapped tokens jti (some ⟨userId, now + Chrono.seconds (max ttl 1)⟩)
  | consume jti =>
    have taken : (StoreCall.consume jti).remembered now (wrapped tokens) =
        Function.update (MapOp.fresh now (wrapped tokens)) jti none := rfl
    rw [taken, fresh_wrapped timely times]
    exact update_wrapped _ jti none
  | revoke jti => exact update_wrapped tokens jti none
  | revokeUser userId =>
    funext jti
    show (wrapped tokens jti).filter (fun entry => decide (entry.user_id ≠ userId)) = ((tokens jti).filter
      fun entry => decide (entry.user_id ≠ userId)).map TokenEntry.wrapped
    unfold wrapped
    cases tokens jti with
    | none => rfl
    | some entry =>
      by_cases own : entry.user_id = userId <;> simp [Option.filter_some, TokenEntry.wrapped, own]
  | passTime ticks => rfl

/-! ## In Redis -/

/-- An entry of the ledger as the text of a key. -/
def asText (entry : TokenEntry) : Keyspace.Entry := ⟨.text (toString entry.user_id), some entry.expires_at⟩

/-- At this time the keys hold what the ledger holds, and each set tokens of its user. -/
structure Simulates (past : List StoreCall) (now : TimePoint) (s : Keyspace.State) (tokens : TokenMap) :
    Prop where
  tokens : ∀ jti, IsId jti → s.live now (refreshTokenKey jti) = (MapOp.fresh now tokens jti).map asText
  sets : ∀ userId, ∃ members, s.membersAt now (userRefreshSetKey userId) = some members ∧
    ∀ jti ∈ members, StoredFor past jti userId

section

variable {past : List StoreCall} {call : StoreCall} {now later : TimePoint} {s s' : Keyspace.State}
  {tokens tokens' : TokenMap} {jti : String} {userId ttl : Int} {world : World}

theorem live_later (forward : now ≤ later) (key : String) :
    s.live later key = (s.live now key).filter (·.liveAt later) := by
  cases live : s.live later key with
  | some entry =>
    rw [Keyspace.State.live_of_later forward live]
    exact (if_pos (Keyspace.State.liveAt_of_live live)).symm
  | none =>
    cases before : s.live now key with
    | none => rfl
    | some entry =>
      obtain ⟨present, _⟩ := Option.filter_eq_some_iff.mp before
      rw [Keyspace.State.live, present] at live
      exact live.symm

theorem fresh_later (forward : now ≤ later) (jti : String) :
    MapOp.fresh later tokens jti = (MapOp.fresh now tokens jti).filter fun entry => decide (later < entry.expires_at) := by
  apply Option.ext
  intro entry
  rw [fresh_eq_some, Option.filter_eq_some_iff, fresh_eq_some, decide_eq_true_eq]
  constructor
  · rintro ⟨present, alive⟩
    exact ⟨⟨present, Int.lt_of_le_of_lt forward alive⟩, alive⟩
  · rintro ⟨⟨present, _⟩, alive⟩
    exact ⟨present, alive⟩

/-- Both clocks are the same, so time takes away the same tokens. -/
theorem Simulates.ages (simulates : Simulates past now s tokens) (forward : now ≤ later) :
    Simulates past later s tokens where
  tokens jti id := by
    rw [live_later forward, fresh_later forward, simulates.tokens jti id]
    cases MapOp.fresh now tokens jti with
    | none => rfl
    | some entry =>
      by_cases alive : later < entry.expires_at <;> simp [Option.filter, asText, Keyspace.Entry.liveAt, alive]
  sets userId := by
    obtain ⟨members, set, stored⟩ := simulates.sets userId
    rcases Keyspace.State.membersAt_later set forward with same | gone
    · exact ⟨members, same, stored⟩
    · exact ⟨[], gone, by simp⟩

/-- A call on one token, and on the set of one user. -/
theorem Simulates.touch {members : List String} (simulates : Simulates past now s tokens) (id : IsId jti)
    (agree : AgreeElsewhere jti userId s s')
    (own : s'.live now (refreshTokenKey jti) = (MapOp.fresh now tokens' jti).map asText)
    (others : ∀ other, other ≠ jti → MapOp.fresh now tokens' other = MapOp.fresh now tokens other)
    (set : s'.membersAt now (userRefreshSetKey userId) = some members)
    (stored : ∀ member ∈ members, StoredFor (call :: past) member userId) :
    Simulates (call :: past) now s' tokens' where
  tokens other id' := by
    by_cases same : other = jti
    · rw [same, own]
    · have untouched := agree (refreshTokenKey other) (fun equal => same (refreshTokenKey_injective equal))
        (id'.key_ne userId)
      rw [Keyspace.State.live, untouched, others other same]
      exact simulates.tokens other id'
  sets other := by
    by_cases same : other = userId
    · rw [same]
      exact ⟨members, set, stored⟩
    · have untouched := agree (userRefreshSetKey other) (Ne.symm (id.key_ne other))
        (fun equal => same (userRefreshSetKey_injective equal))
      obtain ⟨before, set', stored'⟩ := simulates.sets other
      refine ⟨before, ?_, fun member among => (stored' member among).cons call⟩
      rw [← set']
      apply Keyspace.State.membersAt_congr
      rw [Keyspace.State.live, untouched]
      rfl

theorem fresh_congr {other : String} (same : tokens' other = tokens other) :
    MapOp.fresh now tokens' other = MapOp.fresh now tokens other := by
  rw [MapOp.fresh, MapOp.fresh, same]

theorem fresh_fresh : MapOp.fresh now (MapOp.fresh now tokens) jti = MapOp.fresh now tokens jti := by
  apply Option.ext
  intro entry
  simp only [fresh_eq_some]
  exact ⟨fun h => h.1, fun h => ⟨h, h.2⟩⟩

/-- What a call is answered. -/
def StoreCall.recalls (call : StoreCall) (now : TimePoint) (tokens : TokenMap) : StoreAnswer :=
  match call with
  | .consume jti => .ok ((MapOp.fresh now tokens jti).map (·.user_id))
  | _ => .ok none

theorem recalls_consume (now : TimePoint) (tokens : TokenMap) (jti : String) :
    (StoreCall.consume jti).recalls now tokens = .ok ((MapOp.fresh now tokens jti).map (·.user_id)) := rfl

/-- A call in Redis answers and leaves what the ledger says. -/
def Mirrors (past : List StoreCall) (call : StoreCall) (world : World) (tokens : TokenMap) : Prop :=
  ∃ later, attended (call.program .Redis) world =
      (call.recalls world.clock tokens, { world with redis := later }) ∧
    Simulates (call :: past) world.clock later (call.recorded world.clock tokens)

theorem mirrors_store (simulates : Simulates past world.clock world.redis tokens) (id : IsId jti) :
    Mirrors past (.store jti userId ttl) world tokens := by
  obtain ⟨members, set, stored⟩ := simulates.sets userId
  obtain ⟨later, ran, agree, own, set'⟩ := redis_store ttl id set
  have alive : world.clock < world.clock + Chrono.seconds (max ttl 1) :=
    Int.lt_add_of_pos_right _ (lifetime_pos ttl)
  refine ⟨later, attended_told ran, simulates.touch id agree ?_ ?_ set' ?_⟩
  · have put : MapOp.fresh world.clock ((StoreCall.store jti userId ttl).recorded world.clock tokens) jti =
        some ⟨userId, world.clock + Chrono.seconds (max ttl 1)⟩ :=
      fresh_eq_some.mpr ⟨recorded_store _ _ _ _ _, alive⟩
    rw [put, own]
    rfl
  · exact fun other different => fresh_congr (recorded_of_store different)
  · intro member among
    rcases List.mem_insert_iff.mp among with rfl | before
    · exact ⟨ttl, List.mem_cons_self⟩
    · exact (stored member before).cons _

theorem mirrors_consume (simulates : Simulates past world.clock world.redis tokens) (id : IsId jti)
    (reads : ∀ entry, tokens jti = some entry → stoll (toString entry.user_id) = some entry.user_id) :
    Mirrors past (.consume jti) world tokens := by
  have held := simulates.tokens jti id
  have gone : MapOp.fresh world.clock ((StoreCall.consume jti).recorded world.clock tokens) jti = none := by
    unfold MapOp.fresh
    rw [recorded_of_gone (.inl rfl)]
    rfl
  have others : ∀ other, other ≠ jti →
      MapOp.fresh world.clock ((StoreCall.consume jti).recorded world.clock tokens) other =
        MapOp.fresh world.clock tokens other :=
    fun other different => (fresh_congr (Function.update_of_ne different _ _)).trans fresh_fresh
  unfold Mirrors
  rw [recalls_consume]
  cases found : MapOp.fresh world.clock tokens jti with
  | none =>
    rw [found] at held
    obtain ⟨members, set, stored⟩ := simulates.sets 0
    have agree : AgreeElsewhere jti 0 world.redis world.redis := fun _ _ _ => rfl
    refine ⟨world.redis, redis_consume_none held, simulates.touch id agree ?_ others set ?_⟩
    · rw [gone, held]
    · exact fun member among => (stored member among).cons _
  | some entry =>
    rw [found] at held
    obtain ⟨members, set, stored⟩ := simulates.sets entry.user_id
    obtain ⟨later, ran, agree, own, set'⟩ := redis_consume id (reads entry (fresh_eq_some.mp found).1) held set
    refine ⟨later, ran, simulates.touch id agree ?_ others set' ?_⟩
    · rw [gone, own]
      rfl
    · exact fun member among => (stored member (List.mem_filter.mp among).1).cons _

theorem mirrors_revoke (simulates : Simulates past world.clock world.redis tokens) (id : IsId jti)
    (reads : ∀ entry, tokens jti = some entry → stoll (toString entry.user_id) = some entry.user_id) :
    Mirrors past (.revoke jti) world tokens := by
  have held := simulates.tokens jti id
  have gone : MapOp.fresh world.clock ((StoreCall.revoke jti).recorded world.clock tokens) jti = none := by
    unfold MapOp.fresh
    rw [recorded_of_gone (.inr rfl)]
    rfl
  have others : ∀ other, other ≠ jti →
      MapOp.fresh world.clock ((StoreCall.revoke jti).recorded world.clock tokens) other =
        MapOp.fresh world.clock tokens other :=
    fun other different => fresh_congr (Function.update_of_ne different _ _)
  cases found : MapOp.fresh world.clock tokens jti with
  | none =>
    rw [found] at held
    obtain ⟨members, set, stored⟩ := simulates.sets 0
    have agree : AgreeElsewhere jti 0 world.redis (world.redis.remove (refreshTokenKey jti)) :=
      fun key token _ => Function.update_of_ne token _ _
    have set' : (world.redis.remove (refreshTokenKey jti)).membersAt world.clock (userRefreshSetKey 0) =
        some members := by
      rw [← set]
      apply Keyspace.State.membersAt_congr
      unfold Keyspace.State.live Keyspace.State.remove
      rw [Function.update_of_ne (Ne.symm (id.key_ne 0))]
    refine ⟨_, attended_told (redis_revoke_none held), simulates.touch id agree ?_ others set' ?_⟩
    · rw [gone, Keyspace.State.live_remove_self]
      rfl
    · exact fun member among => (stored member among).cons _
  | some entry =>
    rw [found] at held
    obtain ⟨members, set, stored⟩ := simulates.sets entry.user_id
    obtain ⟨later, ran, agree, own, set'⟩ := redis_revoke id (reads entry (fresh_eq_some.mp found).1) held set
    refine ⟨later, attended_told ran, simulates.touch id agree ?_ others set' ?_⟩
    · rw [gone, own]
      rfl
    · exact fun member among => (stored member (List.mem_filter.mp among).1).cons _

/-- Every live token of the user stands in the user's set. -/
def Listed (userId : Int) (world : World) : Prop :=
  ∀ jti, IsId jti → world.tokenAt world.clock .Redis jti = some userId →
    ∃ members, world.redis.membersAt world.clock (userRefreshSetKey userId) = some members ∧ jti ∈ members

theorem tokenAt_eq (simulates : Simulates past world.clock world.redis tokens) (id : IsId jti)
    (reads : ∀ entry, tokens jti = some entry → stoll (toString entry.user_id) = some entry.user_id) :
    world.tokenAt world.clock .Redis jti = (MapOp.fresh world.clock tokens jti).map (·.user_id) := by
  unfold World.tokenAt Keyspace.State.textAt
  dsimp only
  rw [simulates.tokens jti id]
  cases found : MapOp.fresh world.clock tokens jti with
  | none => rfl
  | some entry => exact reads entry (fresh_eq_some.mp found).1

theorem mirrors_revokeUser (proper : ProperRun past) (simulates : Simulates past world.clock world.redis tokens)
    (owners : ∀ jti entry, tokens jti = some entry → StoredFor past jti entry.user_id)
    (reads : ∀ jti entry, tokens jti = some entry → stoll (toString entry.user_id) = some entry.user_id)
    (listed : Listed userId world) : Mirrors past (.revokeUser userId) world tokens := by
  obtain ⟨members, set, stored⟩ := simulates.sets userId
  refine ⟨_, attended_told (redis_revokeUser set), fun jti id => ?_, fun other => ?_⟩
  · have untouched : ((without members world.redis).remove (userRefreshSetKey userId)).live world.clock
        (refreshTokenKey jti) = (without members world.redis).live world.clock (refreshTokenKey jti) := by
      unfold Keyspace.State.live Keyspace.State.remove
      rw [Function.update_of_ne (id.key_ne userId)]
    have filtered : MapOp.fresh world.clock ((StoreCall.revokeUser userId).recorded world.clock tokens) jti =
        (MapOp.fresh world.clock tokens jti).filter fun entry => decide (entry.user_id ≠ userId) := by
      apply Option.ext
      intro entry
      rw [fresh_eq_some, Option.filter_eq_some_iff, fresh_eq_some]
      show (tokens jti).filter _ = some entry ∧ _ ↔ _
      rw [Option.filter_eq_some_iff]
      tauto
    rw [untouched, filtered]
    -- the tokens in the set are the user's, and the user's are in the set
    by_cases among : jti ∈ members
    · rw [Keyspace.State.live, without_of_mem among]
      cases found : MapOp.fresh world.clock tokens jti with
      | none => rfl
      | some entry =>
        have same := proper.unique (owners jti entry (fresh_eq_some.mp found).1) (stored jti among)
        simp [Option.filter, same]
    · have kept : (without members world.redis).live world.clock (refreshTokenKey jti) =
          world.redis.live world.clock (refreshTokenKey jti) := by
        unfold Keyspace.State.live
        rw [without_of_ne]
        intro other member same
        exact among (refreshTokenKey_injective same ▸ member)
      rw [kept, simulates.tokens jti id]
      cases found : MapOp.fresh world.clock tokens jti with
      | none => rfl
      | some entry =>
        have different : entry.user_id ≠ userId := by
          intro same
          have live : world.tokenAt world.clock .Redis jti = some userId := by
            rw [tokenAt_eq simulates id (reads jti), found, ← same]
            rfl
          obtain ⟨members', set', among'⟩ := listed jti id live
          obtain rfl := Option.some.inj (set.symm.trans set')
          exact among among'
        simp [Option.filter, different]
  · by_cases same : other = userId
    · rw [same]
      exact ⟨[], Keyspace.State.membersAt_remove, by simp⟩
    · obtain ⟨members', set', stored'⟩ := simulates.sets other
      refine ⟨members', ?_, fun member among => (stored' member among).cons _⟩
      rw [← set']
      apply Keyspace.State.membersAt_congr
      unfold Keyspace.State.live Keyspace.State.remove
      rw [Function.update_of_ne fun equal => same (userRefreshSetKey_injective equal), without_of_ne]
      exact fun member among => Ne.symm ((proper.stored (stored member among)).1.key_ne other)

end

end Text2Image.Auth
