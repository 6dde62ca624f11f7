import Mathlib.Data.List.TakeWhile
import Text2Image.Models.Numbered
import Text2Image.Services.AuthExecution

/-! The two stores of refresh tokens, each called on its own while its commands succeed. -/

set_option autoImplicit false

namespace Text2Image

/-! ## Numbers as texts -/

theorem solid_of_number {c : Char} (written : c.isDigit = true ∨ c = '-') : Chrono.isSpace c = false := by
  refine Bool.eq_false_iff.mpr fun blank => ?_
  have high := Chrono.blank_le blank
  rcases written with digit | rfl
  · have low : 48 ≤ c.toNat := (Char.isDigit_iff_toNat.mp digit).1
    omega
  · exact absurd high (by decide)

/-- Digits alone are read as the number they write. -/
theorem magnitude_toDigits (n : Nat) :
    ((Nat.toDigits 10 n).takeWhile Char.isDigit).isEmpty = false ∧
      Nat.ofDigitChars 10 ((Nat.toDigits 10 n).takeWhile Char.isDigit) 0 = n := by
  have whole : (Nat.toDigits 10 n).takeWhile Char.isDigit = Nat.toDigits 10 n := by
    rw [List.takeWhile_eq_self_iff]
    exact fun c member => Nat.isDigit_of_mem_toDigits (by decide) (by decide) member
  rw [whole, List.isEmpty_eq_false_iff]
  exact ⟨Nat.toDigits_ne_nil, by simp⟩

theorem sign_toDigits (n : Nat) : sign (Nat.toDigits 10 n) = (false, Nat.toDigits 10 n) := by
  unfold sign
  split
  · rename_i rest written
    exact (Numbered.sign_notMem n (by rw [written]; exact List.mem_cons_self)).elim
  · rename_i rest written
    have member : '+' ∈ Nat.toDigits 10 n := by rw [written]; exact List.mem_cons_self
    cases Nat.isDigit_of_mem_toDigits (by decide) (by decide) member
  · rfl

/-- A number of 64 bits is read back from its text. -/
theorem stoll_toString {value : Int} (low : -2 ^ 63 ≤ value) (high : value < 2 ^ 63) :
    stoll (toString value) = some value := by
  have solid : (toString value).toList.dropWhile Chrono.isSpace = (toString value).toList := by
    cases written : (toString value).toList with
    | nil => rfl
    | cons c rest =>
      have first := solid_of_number (Numbered.mem_number (written ▸ List.mem_cons_self))
      rw [List.dropWhile_cons_of_neg (by simp [first])]
  unfold stoll readInteger
  rw [solid, Int.toString_eq_repr, Int.repr_eq_if]
  by_cases positive : 0 ≤ value
  · obtain ⟨some, read⟩ := magnitude_toDigits value.toNat
    simp only [positive, if_true, Nat.toList_repr, sign_toDigits, some, read, Bool.false_eq_true, if_false]
    rw [if_pos (by omega), Int.toNat_of_nonneg positive]
  · have signed : ("-" ++ (-value).toNat.repr).toList = '-' :: Nat.toDigits 10 (-value).toNat := by
      rw [String.toList_append, Nat.toList_repr]
      rfl
    obtain ⟨some, read⟩ := magnitude_toDigits (-value).toNat
    simp only [positive, if_false, signed, sign, some, read, Bool.false_eq_true, if_true]
    have back : -((-value).toNat : Int) = value := by omega
    rw [back, if_pos ⟨low, high⟩]

/-- What has been read once is read again from its own text. -/
theorem stoll_of_read {text : String} {value : Int} (read : stoll text = some value) :
    stoll (toString value) = some value := by
  simp only [stoll, readInteger, Option.ite_none_left_eq_some, Option.ite_none_right_eq_some,
    Option.some.injEq] at read
  obtain ⟨_, bounds, rfl⟩ := read
  exact stoll_toString bounds.1 bounds.2

namespace Auth

open Concurrency Concurrency.Prog

/-! ## Calls -/

inductive StoreCall where
  | store (jti : String) (userId ttl : Int)
  | consume (jti : String)
  | revoke (jti : String)
  | revokeUser (userId : Int)
  | passTime (ticks : Nat)
  deriving DecidableEq

/-- Only a consume tells its caller anything. -/
abbrev StoreAnswer := ServiceResult (Option Int)

def told (program : Program (ServiceResult Unit)) : Program StoreAnswer :=
  program.bind fun result => .done (result.map fun _ => none)

def StoreCall.program (token_store : RefreshTokenStore) : StoreCall → Program StoreAnswer
  | .store jti userId ttl => told (token_store.store jti userId ttl)
  | .consume jti => token_store.consume jti
  | .revoke jti => told (token_store.revoke jti)
  | .revokeUser userId => told (token_store.revokeUser userId)
  | .passTime _ => .done (.ok none)

/-- Time is all that passes by itself. -/
def StoreCall.clock : StoreCall → Int
  | .passTime ticks => ticks
  | _ => 0

/-- A program on its own: Redis is there, and each command does as documented. -/
def attended {α : Type} (program : Program α) (world : World) : α × World :=
  program.runAlone perform {} world

def StoreCall.step (token_store : RefreshTokenStore) (call : StoreCall) (world : World) :
    StoreAnswer × World :=
  let ran := attended (call.program token_store) world
  (ran.1, { ran.2 with clock := ran.2.clock + call.clock })

theorem StoreCall.step_eq {token_store : RefreshTokenStore} {call : StoreCall} {world after : World}
    {answer : StoreAnswer} (ran : attended (call.program token_store) world = (answer, after)) :
    call.step token_store world = (answer, { after with clock := after.clock + call.clock }) := by
  unfold StoreCall.step
  rw [ran]

/-- The world that a sequence of calls leaves, newest first. -/
def reached (token_store : RefreshTokenStore) : List StoreCall → World
  | [] => .empty
  | latest :: past => (latest.step token_store (reached token_store past)).2

/-- What the next call after those is answered. -/
def answer (token_store : RefreshTokenStore) (past : List StoreCall) (call : StoreCall) : StoreAnswer :=
  (call.step token_store (reached token_store past)).1

theorem attended_told {program : Program (ServiceResult Unit)} {world after : World}
    (ran : attended program world = (.ok (), after)) : attended (told program) world = (.ok none, after) := by
  unfold told
  exact runAlone_bind ran

/-! ## The store in Redis -/

theorem attended_guarded {α : Type} {body : Fallible interface String α} {value : α} {world after : World}
    (ran : attended body.run world = (.ok value, after)) :
    attended (RedisRefreshTokenStore.guarded body) world = (.ok value, after) := by
  unfold RedisRefreshTokenStore.guarded
  exact runAlone_bind ran

theorem attended_bind {α β ε : Type} {first : Fallible interface ε β} {next : β → Fallible interface ε α}
    {world middle : World} {value : β} (ran : attended first.run world = (.ok value, middle)) :
    attended (first >>= next).run world = attended (next value).run middle :=
  runAlone_fallible ran

theorem attended_redis {command : Keyspace.Command} {reply : command.Reply} {world : World}
    (replies : (command.run world.clock world.redis).1 = .ok reply) :
    attended (redis command).run world =
      (.ok reply, { world with redis := (command.run world.clock world.redis).2 }) := by
  have ran : attended (redis command).run world = ((command.run world.clock world.redis).1,
      { world with redis := (command.run world.clock world.redis).2 }) := rfl
  rw [ran, replies]

/-- An id as they are generated. -/
def IsId (jti : String) : Prop := ∃ bytes, jti = utils.uuid bytes

theorem hexDigit_ne (byte : UInt8) : utils.hexDigit (byte.toNat / 16) ≠ 'u' := by
  have all : ∀ n < 16, utils.hexDigit n ≠ 'u' := by decide
  have bound := byte.toNat_lt
  exact all _ (by omega)

/-- The key of a token is not the key of a user's set. -/
theorem IsId.key_ne {jti : String} (id : IsId jti) (userId : Int) :
    refreshTokenKey jti ≠ userRefreshSetKey userId := by
  obtain ⟨bytes, rfl⟩ := id
  intro same
  have chars : (utils.uuid bytes).toList = "user:".toList ++ (toString userId).toList := by
    have front : "zimage:refresh:user:" = "zimage:refresh:" ++ "user:" := by decide
    unfold refreshTokenKey userRefreshSetKey at same
    rw [front, String.append_assoc, String.append_right_inj] at same
    rw [same, String.toList_append]
  unfold utils.uuid at chars
  rw [String.toList_ofList] at chars
  exact hexDigit_ne _ (List.cons.inj chars).1

theorem userRefreshSetKey_injective {userId other : Int}
    (same : userRefreshSetKey userId = userRefreshSetKey other) : userId = other :=
  Numbered.number_injective (congrArg String.toList ((String.append_right_inj _).mp same))

theorem lifetime_pos (ttl : Int) : 0 < Chrono.seconds (max ttl 1) := by
  unfold Chrono.seconds Chrono.ticksPerSecond
  omega

/-- A keyspace that differs from another at the key of a token and the key of a set at most. -/
def AgreeElsewhere (jti : String) (userId : Int) (before later : Keyspace.State) : Prop :=
  ∀ key, key ≠ refreshTokenKey jti → key ≠ userRefreshSetKey userId → later key = before key

section

variable {jti : String} {userId : Int} {members : List String} {world : World} {expiry : Option Int}

theorem redis_store (ttl : Int) (id : IsId jti)
    (set : world.redis.membersAt world.clock (userRefreshSetKey userId) = some members) :
    ∃ later, attended (RedisRefreshTokenStore.store jti userId ttl) world =
        (.ok (), { world with redis := later }) ∧ AgreeElsewhere jti userId world.redis later ∧
      later.live world.clock (refreshTokenKey jti) = some ⟨.text (toString userId),
        some (world.clock + Chrono.seconds (max ttl 1))⟩ ∧
      later.membersAt world.clock (userRefreshSetKey userId) = some (members.insert jti) := by
  have positive := lifetime_pos ttl
  have apart := id.key_ne userId
  have sets : (Keyspace.Command.setex (refreshTokenKey jti) (toString userId)
      (Chrono.seconds (max ttl 1))).run world.clock world.redis =
      (.ok (), world.redis.put (refreshTokenKey jti) ⟨.text (toString userId),
        some (world.clock + Chrono.seconds (max ttl 1))⟩) := by
    simp only [Keyspace.Command.run, if_neg (Int.not_le.mpr positive)]
  have alive : Keyspace.Entry.liveAt ⟨.text (toString userId),
      some (world.clock + Chrono.seconds (max ttl 1))⟩ world.clock = true := by
    simp only [Keyspace.Entry.liveAt, decide_eq_true_eq]
    omega
  generalize Keyspace.Entry.mk (.text (toString userId)) (some (world.clock + Chrono.seconds (max ttl 1))) =
    entry at *
  have set₁ : (world.redis.put (refreshTokenKey jti) entry).membersAt world.clock (userRefreshSetKey userId) =
      some members := by
    rw [Keyspace.State.membersAt_congr (Keyspace.State.live_put_of_ne (Ne.symm apart))]
    exact set
  obtain ⟨added, set₂⟩ := Keyspace.State.run_sadd set₁ jti
  obtain ⟨expires, set₃⟩ := Keyspace.State.run_expire set₂ positive
  refine ⟨_, attended_guarded ?_, ?_, ?_, set₃⟩
  · refine (attended_bind (attended_redis (congrArg Prod.fst sets))).trans ?_
    rw [sets]
    refine (attended_bind (attended_redis added)).trans ?_
    exact attended_redis expires
  · intro key token user
    rw [Keyspace.Command.run_other user, Keyspace.Command.run_other user]
    exact Function.update_of_ne token _ _
  · rw [Keyspace.State.live_of_ne apart, Keyspace.State.live_of_ne apart, Keyspace.State.live_put_self]
    exact if_pos alive

theorem redis_consume_none (absent : world.redis.live world.clock (refreshTokenKey jti) = none) :
    attended (RedisRefreshTokenStore.consume jti) world = (.ok none, world) := by
  have replies : (Keyspace.Command.getDel (refreshTokenKey jti)).run world.clock world.redis =
      (.ok none, world.redis) := by
    simp only [Keyspace.Command.run, Keyspace.State.textAt, absent]
  refine attended_guarded ((attended_bind (attended_redis (congrArg Prod.fst replies))).trans ?_)
  rw [replies]
  rfl

/-- A token that is taken, consumed or revoked. -/
theorem redis_taken (id : IsId jti)
    (set : world.redis.membersAt world.clock (userRefreshSetKey userId) = some members)
    (first : Keyspace.State) (taken : first.live world.clock (refreshTokenKey jti) = none)
    (others : ∀ key, key ≠ refreshTokenKey jti → first key = world.redis key) :
    ∃ later, ((Keyspace.Command.srem (userRefreshSetKey userId) jti).run world.clock first) = (.ok (), later) ∧
      AgreeElsewhere jti userId world.redis later ∧ later.live world.clock (refreshTokenKey jti) = none ∧
      later.membersAt world.clock (userRefreshSetKey userId) = some (members.filter (· ≠ jti)) := by
  have apart := id.key_ne userId
  have set₁ : first.membersAt world.clock (userRefreshSetKey userId) = some members := by
    rw [← set]
    apply Keyspace.State.membersAt_congr
    unfold Keyspace.State.live
    rw [others _ (Ne.symm apart)]
  obtain ⟨removed, set₂⟩ := Keyspace.State.run_srem set₁ jti
  refine ⟨((Keyspace.Command.srem (userRefreshSetKey userId) jti).run world.clock first).2,
    Prod.ext removed rfl, ?_, ?_, set₂⟩
  · intro key token user
    exact (Keyspace.Command.run_other user).trans
      (others key token)
  · rw [Keyspace.State.live_of_ne apart, taken]

theorem redis_consume (id : IsId jti) (read : stoll (toString userId) = some userId)
    (live : world.redis.live world.clock (refreshTokenKey jti) = some ⟨.text (toString userId), expiry⟩)
    (set : world.redis.membersAt world.clock (userRefreshSetKey userId) = some members) :
    ∃ later, attended (RedisRefreshTokenStore.consume jti) world =
        (.ok (some userId), { world with redis := later }) ∧ AgreeElsewhere jti userId world.redis later ∧
      later.live world.clock (refreshTokenKey jti) = none ∧
      later.membersAt world.clock (userRefreshSetKey userId) = some (members.filter (· ≠ jti)) := by
  have replies : (Keyspace.Command.getDel (refreshTokenKey jti)).run world.clock world.redis =
      (.ok (some (toString userId)), world.redis.remove (refreshTokenKey jti)) := by
    simp only [Keyspace.Command.run, Keyspace.State.textAt, live]
  obtain ⟨later, removes, agree, gone, set'⟩ := redis_taken id set _
    Keyspace.State.live_remove_self fun key other => Function.update_of_ne other _ _
  refine ⟨later, attended_guarded ?_, agree, gone, set'⟩
  refine (attended_bind (attended_redis (congrArg Prod.fst replies))).trans ?_
  rw [replies]
  have number : attended (RedisRefreshTokenStore.readUserId (toString userId)).run
      { world with redis := world.redis.remove (refreshTokenKey jti) } =
      (.ok userId, { world with redis := world.redis.remove (refreshTokenKey jti) }) := by
    unfold RedisRefreshTokenStore.readUserId
    rw [read]
    rfl
  refine (attended_bind number).trans ?_
  refine (attended_bind (attended_redis (congrArg Prod.fst removes))).trans ?_
  dsimp only
  rw [removes]
  rfl

theorem redis_revoke_none (absent : world.redis.live world.clock (refreshTokenKey jti) = none) :
    attended (RedisRefreshTokenStore.revoke jti) world =
      (.ok (), { world with redis := world.redis.remove (refreshTokenKey jti) }) := by
  have replies : (Keyspace.Command.get (refreshTokenKey jti)).run world.clock world.redis =
      (.ok none, world.redis) := by
    simp only [Keyspace.Command.run, Keyspace.State.textAt, absent]
  refine attended_guarded ((attended_bind (attended_redis (congrArg Prod.fst replies))).trans ?_)
  rw [replies]
  rfl

theorem redis_revoke (id : IsId jti) (read : stoll (toString userId) = some userId)
    (live : world.redis.live world.clock (refreshTokenKey jti) = some ⟨.text (toString userId), expiry⟩)
    (set : world.redis.membersAt world.clock (userRefreshSetKey userId) = some members) :
    ∃ later, attended (RedisRefreshTokenStore.revoke jti) world =
        (.ok (), { world with redis := later }) ∧ AgreeElsewhere jti userId world.redis later ∧
      later.live world.clock (refreshTokenKey jti) = none ∧
      later.membersAt world.clock (userRefreshSetKey userId) = some (members.filter (· ≠ jti)) := by
  have apart := id.key_ne userId
  have replies : (Keyspace.Command.get (refreshTokenKey jti)).run world.clock world.redis =
      (.ok (some (toString userId)), world.redis) := by
    simp only [Keyspace.Command.run, Keyspace.State.textAt, live]
  obtain ⟨removed, set₂⟩ := Keyspace.State.run_srem set jti
  generalize left : ((Keyspace.Command.srem (userRefreshSetKey userId) jti).run world.clock world.redis).2 =
    first at set₂
  refine ⟨first.remove (refreshTokenKey jti), attended_guarded ?_, ?_, Keyspace.State.live_remove_self, ?_⟩
  · refine (attended_bind (attended_redis (congrArg Prod.fst replies))).trans ?_
    rw [replies]
    have number : attended (RedisRefreshTokenStore.readUserId (toString userId)).run world =
        (.ok userId, world) := by
      unfold RedisRefreshTokenStore.readUserId
      rw [read]
      rfl
    refine (attended_bind number).trans ?_
    refine (attended_bind (attended_redis removed)).trans ?_
    rw [left]
    rfl
  · intro key token user
    refine (Function.update_of_ne token _ _).trans ?_
    rw [← left]
    exact Keyspace.Command.run_other user
  · rw [← set₂]
    apply Keyspace.State.membersAt_congr
    unfold Keyspace.State.live Keyspace.State.remove
    rw [Function.update_of_ne (Ne.symm apart)]

/-- The keyspace without these tokens. -/
def without : List String → Keyspace.State → Keyspace.State
  | [], s => s
  | jti :: rest, s => without rest (s.remove (refreshTokenKey jti))

theorem without_of_none {jtis : List String} {s : Keyspace.State} {key : String} (absent : s key = none) :
    without jtis s key = none := by
  induction jtis generalizing s with
  | nil => exact absent
  | cons first rest ih =>
    apply ih
    unfold Keyspace.State.remove
    by_cases same : key = refreshTokenKey first
    · rw [same, Function.update_self]
    · rw [Function.update_of_ne same, absent]

theorem without_of_mem {jtis : List String} {s : Keyspace.State} (member : jti ∈ jtis) :
    without jtis s (refreshTokenKey jti) = none := by
  induction jtis generalizing s with
  | nil => cases member
  | cons first rest ih =>
    rcases List.mem_cons.mp member with rfl | later
    · have removed : s.remove (refreshTokenKey jti) (refreshTokenKey jti) = none := Function.update_self _ _ _
      unfold without
      exact without_of_none removed
    · exact ih later

theorem without_of_ne {jtis : List String} {s : Keyspace.State} {key : String}
    (other : ∀ jti ∈ jtis, key ≠ refreshTokenKey jti) : without jtis s key = s key := by
  induction jtis generalizing s with
  | nil => rfl
  | cons first rest ih =>
    obtain ⟨different, others⟩ := List.forall_mem_cons.mp other
    exact (ih others).trans (Function.update_of_ne different _ _)

theorem attended_delEach (jtis : List String) (world : World) :
    attended (RedisRefreshTokenStore.delEach jtis).run world =
      (.ok (), { world with redis := without jtis world.redis }) := by
  induction jtis generalizing world with
  | nil => rfl
  | cons first rest ih =>
    have deletes : ((Keyspace.Command.del (refreshTokenKey first)).run world.clock world.redis).1 =
        .ok (world.redis.live world.clock (refreshTokenKey first)).isSome := rfl
    exact (attended_bind (attended_redis deletes)).trans (ih _)

theorem redis_revokeUser
    (set : world.redis.membersAt world.clock (userRefreshSetKey userId) = some members) :
    attended (RedisRefreshTokenStore.revokeUser userId) world =
      (.ok (), { world with
        redis := (without members world.redis).remove (userRefreshSetKey userId) }) := by
  have replies := Keyspace.State.run_smembers set
  refine attended_guarded ((attended_bind (attended_redis (congrArg Prod.fst replies))).trans ?_)
  rw [replies]
  refine (attended_bind (attended_delEach members _)).trans ?_
  rfl

end

end Auth

end Text2Image
