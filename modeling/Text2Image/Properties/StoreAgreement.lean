import Text2Image.Properties.StoreEquivalence

/-! When the two stores of refresh tokens give the same answers. -/

set_option autoImplicit false

namespace Text2Image.Auth

open Concurrency

variable {past calls : List StoreCall} {call : StoreCall} {world : World} {tokens : TokenMap} {userId : Int}

/-! ## One call -/

theorem Simulates.cons {now : TimePoint} {s : Keyspace.State} (simulates : Simulates past now s tokens)
    (call : StoreCall) : Simulates (call :: past) now s tokens where
  tokens := simulates.tokens
  sets userId := by
    obtain ⟨members, set, stored⟩ := simulates.sets userId
    exact ⟨members, set, fun jti member => (stored jti member).cons call⟩

/-- Whoever is revoked stands in the user's set. -/
def StoreCall.ListedIn (call : StoreCall) (world : World) : Prop :=
  ∀ userId, call = .revokeUser userId → Listed userId world

theorem mirrors (properRun : ProperRun past) (proper : Proper past call)
    (simulates : Simulates past world.clock world.redis tokens)
    (owners : ∀ jti entry, tokens jti = some entry → StoredFor past jti entry.user_id)
    (listed : call.ListedIn world) : Mirrors past call world tokens := by
  have reads : ∀ jti entry, tokens jti = some entry →
      stoll (toString entry.user_id) = some entry.user_id := by
    intro jti entry found
    obtain ⟨_, low, high⟩ := properRun.stored (owners jti entry found)
    exact stoll_toString low high
  cases call with
  | store jti userId ttl => exact mirrors_store simulates proper.1
  | consume jti => exact mirrors_consume simulates proper (reads jti)
  | revoke jti => exact mirrors_revoke simulates proper (reads jti)
  | revokeUser userId => exact mirrors_revokeUser properRun simulates owners reads (listed userId rfl)
  | passTime ticks => exact ⟨world.redis, rfl, simulates.cons _⟩

/-! ## Runs -/

/-- After these calls Redis has what the ledger has. -/
structure InStep (past : List StoreCall) : Prop where
  clock : (reached .Redis past).clock = elapsed past
  simulates : Simulates past (elapsed past) (reached .Redis past).redis (ledger past)

/-- Each time all tokens of a user are revoked, the live ones are in the user's set. -/
def AllListed (calls : List StoreCall) : Prop :=
  ∀ userId past, .revokeUser userId :: past <:+ calls → Listed userId (reached .Redis past)

/-- No token expires before its time because its expiry does not fit into the bits of the clock. -/
def AllTimely (calls : List StoreCall) : Prop :=
  ∀ past, past <:+ calls → ∀ jti entry, Kept past jti entry → elapsed past < entry.expires_at →
    elapsed past < Chrono.wrapTicks entry.expires_at

theorem InStep.mirrors (inStep : InStep past) (properRun : ProperRun past) (proper : Proper past call)
    (listed : call.ListedIn (reached .Redis past)) : Mirrors past call (reached .Redis past) (ledger past) :=
  Auth.mirrors properRun proper (inStep.clock ▸ inStep.simulates) (records properRun).owners listed

theorem InStep.step (inStep : InStep past) (properRun : ProperRun past) (proper : Proper past call)
    (listed : call.ListedIn (reached .Redis past)) : InStep (call :: past) := by
  obtain ⟨later, ran, simulates⟩ := inStep.mirrors properRun proper listed
  have redis : reached .Redis (call :: past) =
      { reached .Redis past with redis := later, clock := (reached .Redis past).clock + call.clock } :=
    congrArg Prod.snd (StoreCall.step_eq ran)
  refine ⟨?_, ?_⟩
  · rw [redis, elapsed_cons, inStep.clock]
  · rw [redis, ledger, elapsed_cons, ← inStep.clock]
    exact simulates.ages (Int.le_add_of_nonneg_right (clock_nonneg call))

theorem inStep_nil : InStep [] where
  clock := rfl
  simulates := ⟨fun _ _ => rfl, fun _ => ⟨[], rfl, by simp⟩⟩

theorem AllListed.suffix (listed : AllListed calls) (inside : past <:+ calls) : AllListed past :=
  fun userId earlier within => listed userId earlier (within.trans inside)

theorem AllTimely.suffix (timely : AllTimely calls) (inside : past <:+ calls) : AllTimely past :=
  fun earlier within => timely earlier (within.trans inside)

theorem inStep (proper : ProperRun past) (listed : AllListed past) : InStep past := by
  induction past with
  | nil => exact inStep_nil
  | cons call past ih =>
    have before := ih proper.2 (listed.suffix (List.suffix_cons call past))
    refine before.step proper.2 proper.1 ?_
    rintro userId rfl
    exact listed userId past List.suffix_rfl

theorem AllTimely.timely (timely : AllTimely calls) (proper : ProperRun calls) :
    Timely (elapsed calls) (ledger calls) :=
  fun jti entry found alive =>
    timely calls List.suffix_rfl jti entry (((records proper).tokens jti entry alive).mp found) alive

/-- The map after calls before which nothing has expired too early. -/
theorem memory_tokens (proper : ProperRun (call :: past)) (timely : AllTimely past)
    (before : (reached .InMemory past).tokens = wrapped (ledger past)) :
    (reached .InMemory (call :: past)).tokens = wrapped (ledger (call :: past)) := by
  rw [reached, memory_step, memory_clock, before]
  exact remembered_wrapped call (timely.timely proper.2) (records proper.2).times

theorem memory_eq (proper : ProperRun past) (timely : AllTimely past) :
    (reached .InMemory past).tokens = wrapped (ledger past) := by
  induction past with
  | nil => rfl
  | cons call past ih =>
    have earlier := timely.suffix (List.suffix_cons call past)
    exact memory_tokens proper earlier (ih proper.2 earlier)

/-! ## Answers -/

/-- Whatever comes next, both stores answer it alike, and a token can be consumed from either exactly if
the calls so far say so.
-/
structure Agree (past : List StoreCall) : Prop where
  answers : ∀ call, Proper past call → answer .Redis past call = answer .InMemory past call
  consumable : ∀ token_store jti userId, IsId jti →
    (answer token_store past (.consume jti) = .ok (some userId) ↔ Consumable past jti userId)

theorem memory_answer (past : List StoreCall) (call : StoreCall) :
    answer .InMemory past call = call.recalls (elapsed past) (reached .InMemory past).tokens := by
  rw [← memory_clock]
  cases call <;> rfl

/-- The bits of an expiry are not part of an answer. -/
theorem recalls_wrapped {now : TimePoint} (timely : Timely now tokens)
    (times : ∀ jti entry, tokens jti = some entry → 0 ≤ entry.expires_at) :
    call.recalls now (wrapped tokens) = call.recalls now tokens := by
  cases call with
  | consume jti =>
    rw [recalls_consume, recalls_consume, fresh_wrapped timely times]
    unfold wrapped
    cases MapOp.fresh now tokens jti <;> rfl
  | _ => rfl

theorem revokeUser_step {members : List String}
    (set : world.redis.membersAt world.clock (userRefreshSetKey userId) = some members) :
    (StoreCall.revokeUser userId).step .Redis world =
      (.ok none, { world with
        redis := (without members world.redis).remove (userRefreshSetKey userId), clock := world.clock + 0 }) := by
  have ran : attended ((StoreCall.revokeUser userId).program .Redis) world = _ :=
    attended_told (redis_revokeUser set)
  exact StoreCall.step_eq ran

/-- Redis answers what the ledger says. -/
theorem InStep.answer_eq (inStep : InStep past) (properRun : ProperRun past) (proper : Proper past call) :
    answer .Redis past call = call.recalls (elapsed past) (ledger past) := by
  rw [← inStep.clock]
  by_cases everybody : ∃ userId, call = .revokeUser userId
  · -- the answer to this one says nothing about the tokens
    obtain ⟨userId, rfl⟩ := everybody
    obtain ⟨members, set, _⟩ := inStep.simulates.sets userId
    rw [← inStep.clock] at set
    exact congrArg Prod.fst (revokeUser_step set)
  · have listed : call.ListedIn (reached .Redis past) := fun userId same => (everybody ⟨userId, same⟩).elim
    obtain ⟨later, ran, _⟩ := inStep.mirrors properRun proper listed
    exact congrArg Prod.fst (StoreCall.step_eq ran)

theorem memory_answer_eq (proper : ProperRun past) (timely : AllTimely past) :
    answer .InMemory past call = call.recalls (elapsed past) (ledger past) := by
  rw [memory_answer, memory_eq proper timely]
  exact recalls_wrapped (timely.timely proper) (records proper).times

theorem InStep.agree (inStep : InStep past) (proper : ProperRun past) (timely : AllTimely past) : Agree past := by
  refine ⟨fun call proper' => ?_, fun token_store jti userId id => ?_⟩
  · rw [inStep.answer_eq proper proper', memory_answer_eq proper timely]
  · have recorded : (StoreCall.consume jti).recalls (elapsed past) (ledger past) = .ok (some userId) ↔
        Consumable past jti userId := by
      rw [recalls_consume, Except.ok.injEq]
      exact ledger_consume proper jti userId
    rw [← recorded]
    cases token_store with
    | Redis =>
      have proper' : Proper past (.consume jti) := id
      rw [inStep.answer_eq proper proper']
    | InMemory => rw [memory_answer_eq proper timely]

/-- A token that expires too early can no longer be consumed from memory. -/
theorem not_agree_of_early {jti : String} {entry : TokenEntry} (proper : ProperRun past) (kept : Kept past jti entry)
    (alive : elapsed past < entry.expires_at) (early : Chrono.wrapTicks entry.expires_at ≤ elapsed past)
    (held : (reached .InMemory past).tokens = wrapped (ledger past)) : ¬ Agree past := by
  intro agree
  have found := ((records proper).tokens jti entry alive).mpr kept
  have id := (proper.stored kept.storedFor).1
  have consumed := (agree.consumable .InMemory jti entry.user_id id).mpr ⟨entry, rfl, kept, alive⟩
  have gone : MapOp.fresh (elapsed past) (wrapped (ledger past)) jti = none := by
    unfold MapOp.fresh wrapped
    rw [found, Option.map_some, Option.filter_some]
    exact if_neg (by simp [TokenEntry.wrapped, Int.not_lt.mpr early])
  rw [memory_answer, held, recalls_consume, gone] at consumed
  cases consumed

/-- A live token that is not in its user's set survives the revocation in Redis alone. -/
theorem InStep.unlisted (inStep : InStep past) (proper : ProperRun past)
    (unlisted : ¬ Listed userId (reached .Redis past)) : ¬ Agree (.revokeUser userId :: past) := by
  intro agree
  unfold Listed at unlisted
  push Not at unlisted
  obtain ⟨jti, id, live, missing⟩ := unlisted
  have simulates := inStep.simulates
  rw [← inStep.clock] at simulates
  have reads : ∀ entry, ledger past jti = some entry →
      stoll (toString entry.user_id) = some entry.user_id := by
    intro entry found
    obtain ⟨_, low, high⟩ := proper.stored ((records proper).owners jti entry found)
    exact stoll_toString low high
  obtain ⟨members, set, _⟩ := simulates.sets userId
  have outside := missing members set
  rw [tokenAt_eq simulates id reads] at live
  obtain ⟨entry, fresh, own⟩ := Option.map_eq_some_iff.mp live
  subst own
  have left : reached .Redis (.revokeUser entry.user_id :: past) = _ := congrArg Prod.snd (revokeUser_step set)
  have now : (reached .Redis (.revokeUser entry.user_id :: past)).clock = (reached .Redis past).clock := by
    rw [left]
    exact Int.add_zero _
  have alive : (reached .Redis (.revokeUser entry.user_id :: past)).redis.live
      (reached .Redis (.revokeUser entry.user_id :: past)).clock (refreshTokenKey jti) = some (asText entry) := by
    have held := simulates.tokens jti id
    rw [fresh] at held
    rw [now, left, ← show _ = some (asText entry) from held]
    unfold Keyspace.State.live Keyspace.State.remove
    dsimp only
    rw [Function.update_of_ne (id.key_ne _), without_of_ne]
    intro other member same
    exact outside (refreshTokenKey_injective same ▸ member)
  have empty : (reached .Redis (.revokeUser entry.user_id :: past)).redis.membersAt
      (reached .Redis (.revokeUser entry.user_id :: past)).clock (userRefreshSetKey entry.user_id) = some [] := by
    rw [left]
    exact Keyspace.State.membersAt_remove
  obtain ⟨later, ran, _⟩ := redis_consume id (reads entry (fresh_eq_some.mp fresh).1) alive empty
  have consumed : answer .Redis (.revokeUser entry.user_id :: past) (.consume jti) = .ok (some entry.user_id) := by
    have step : attended ((StoreCall.consume jti).program .Redis) _ = _ := ran
    exact congrArg Prod.fst (StoreCall.step_eq step)
  obtain ⟨_, own, kept, _⟩ := (agree.consumable .Redis jti entry.user_id id).mp consumed
  -- the calls say that it has been revoked
  rcases kept_cons.mp kept with ⟨_, open_⟩ | ⟨_, store, _⟩
  · exact open_ own.symm
  · cases store

theorem ProperRun.suffix (proper : ProperRun calls) (inside : past <:+ calls) : ProperRun past := by
  induction calls with
  | nil =>
    rw [List.suffix_nil.mp inside]
    trivial
  | cons call rest ih =>
    rcases List.suffix_cons_iff.mp inside with rfl | within
    · exact proper
    · exact ih proper.2 within

/-- Expiries that the clock can show are in time. -/
theorem allTimely_of_representable (calls : List StoreCall)
    (fits : ∀ jti userId ttl past, .store jti userId ttl :: past <:+ calls →
      elapsed past + Chrono.seconds (max ttl 1) < 2 ^ 63) : AllTimely calls := by
  rintro _ inside jti entry ⟨newer, ttl, past, rfl, expires, _⟩ alive
  have bound := fits jti entry.user_id ttl past ((List.suffix_append newer _).trans inside)
  have first := elapsed_nonneg past
  have lasts := lifetime_pos ttl
  have representable : Chrono.Representable entry.expires_at := by
    rw [expires]
    exact ⟨by omega, bound⟩
  rwa [Chrono.wrapTicks_of_representable representable]

/-- Through a run the stores agree exactly if every revocation of a user finds the user's live tokens
in the set, and no token expires too early because its expiry does not fit.
-/
theorem stores_agree_iff (calls : List StoreCall) (proper : ProperRun calls) :
    (∀ past, past <:+ calls → Agree past) ↔ AllListed calls ∧ AllTimely calls := by
  constructor
  · intro agree
    induction calls with
    | nil =>
      refine ⟨fun userId past inside => ?_, fun past inside jti entry kept => ?_⟩
      · cases List.suffix_nil.mp inside
      · rw [List.suffix_nil.mp inside] at kept
        obtain ⟨_, member⟩ := kept.storedFor
        cases member
    | cons call rest ih =>
      obtain ⟨listed, timely⟩ := ih proper.2 fun past inside =>
        agree past (inside.trans (List.suffix_cons call rest))
      refine ⟨fun userId past inside => ?_, fun past inside jti entry kept alive => ?_⟩
      · rcases List.suffix_cons_iff.mp inside with same | within
        · obtain ⟨rfl, rfl⟩ := List.cons.inj same
          by_contra unlisted
          exact (inStep proper.2 listed).unlisted proper.2 unlisted (agree _ List.suffix_rfl)
        · exact listed userId past within
      · rcases List.suffix_cons_iff.mp inside with rfl | within
        · by_contra early
          have held := memory_tokens proper timely (memory_eq proper.2 timely)
          exact not_agree_of_early proper kept alive (Int.not_lt.mp early) held (agree _ List.suffix_rfl)
        · exact timely past within jti entry kept alive
  · rintro ⟨listed, timely⟩ past inside
    have properPast := proper.suffix inside
    exact (inStep properPast (listed.suffix inside)).agree properPast (timely.suffix inside)

def firstId : String := utils.uuid fun _ => 0

def secondId : String := utils.uuid fun _ => 255

/-- The second store shortens the life of the user's set. -/
def shortenedCalls : List StoreCall :=
  [.revokeUser 1, .passTime 2000000000, .store secondId 1 1, .store firstId 1 100]

theorem properRun_store : ProperRun [.store firstId 1 100] := by
  refine ⟨⟨⟨_, rfl⟩, by decide, fun other => ?_⟩, trivial⟩
  rintro ⟨_, member⟩
  cases member

theorem stores_agree_stored : Agree [.store firstId 1 100] := by
  refine (stores_agree_iff [.store firstId 1 100] properRun_store).mpr ⟨?_, allTimely_of_representable _ ?_⟩ _
    List.suffix_rfl
  · intro userId past inside
    rcases List.suffix_cons_iff.mp inside with same | within
    · cases same
    · cases List.suffix_nil.mp within
  · intro jti userId ttl past inside
    rcases List.suffix_cons_iff.mp inside with same | within
    · obtain ⟨same, rfl⟩ := List.cons.inj same
      cases same
      decide
    · cases List.suffix_nil.mp within

theorem shortened_survives : ProperRun shortenedCalls ∧
    answer .Redis shortenedCalls (.consume firstId) = .ok (some 1) ∧
    answer .InMemory shortenedCalls (.consume firstId) = .ok none := by
  refine ⟨⟨trivial, ⟨by decide, by decide⟩, ⟨⟨_, rfl⟩, by decide, ?_⟩, properRun_store⟩, rfl, rfl⟩
  rintro other ⟨_, member⟩
  have different : secondId ≠ firstId := by decide +kernel
  exact different (StoreCall.store.inj (List.mem_singleton.mp member)).1

/-- A life of ten thousand million seconds does not fit into the clock. -/
example : answer .Redis [.store firstId 1 10000000000] (.consume firstId) = .ok (some 1) ∧
    answer .InMemory [.store firstId 1 10000000000] (.consume firstId) = .ok none := ⟨rfl, rfl⟩

end Text2Image.Auth
