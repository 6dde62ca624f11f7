import Mathlib.Data.List.Nodup
import Text2Image.Services.TaskEventHub

/-! Whose tasks a connection is told of. -/

set_option autoImplicit false

namespace Text2Image.TaskEventHub

/-- The user that a connection has last been subscribed for, unless it has been unsubscribed since. A
call without a user or a connection subscribes nothing.
-/
def subscription : List Call → Connection → Option Int
  | [], _ => none
  | .subscribe userId connection :: past, key =>
    if connection = some key ∧ 0 < userId then some userId else subscription past key
  | .unsubscribe connection :: past, key =>
    if connection = some key then none else subscription past key

/-- After these calls every connection hears of its own user's tasks, once, and of nothing else. -/
structure Isolated (past : List Call) : Prop where
  once : ∀ generation : ImageGeneration,
    (((after past).publishTaskUpdated generation).map Prod.fst).Nodup
  exact : ∀ (generation : ImageGeneration) (key : Connection) (message : Json), 0 < generation.user_id →
    ((key, message) ∈ (after past).publishTaskUpdated generation ↔
      subscription past key = some generation.user_id ∧ message = payload generation)
  released : ∀ (key : Connection), subscription past key = none →
    (after past).owners_ key = none ∧
    ∀ (userId : Int) (set : List Connection), (after past).subscribers_ userId = some set → key ∉ set
  inhabited : ∀ userId : Int, (after past).subscribers_ userId ≠ some []

theorem subscription_user {past : List Call} {key : Connection} {userId : Int}
    (subscribed : subscription past key = some userId) : 0 < userId := by
  induction past with
  | nil => cases subscribed
  | cons call past ih =>
    cases call with
    | subscribe user connection =>
      simp only [subscription] at subscribed
      split at subscribed
      · rename_i here
        rw [← Option.some.inj subscribed]
        exact here.2
      · exact ih subscribed
    | unsubscribe connection =>
      simp only [subscription] at subscribed
      split at subscribed
      · cases subscribed
      · exact ih subscribed

/-! ## The two maps -/

/-- Each map of the hub tells the subscriptions. -/
structure Mirrors (hub : TaskEventHub) (owner : Connection → Option Int) : Prop where
  owners : ∀ key, hub.owners_ key = owner key
  members : ∀ key userId, key ∈ hub.copySubscribersLocked userId ↔ owner key = some userId
  nodup : ∀ userId, (hub.copySubscribersLocked userId).Nodup
  inhabited : ∀ userId, hub.subscribers_ userId ≠ some []

theorem mirrors_new : Mirrors {} (subscription []) where
  owners _ := rfl
  members key userId := by simp [copySubscribersLocked, subscription]
  nodup _ := List.nodup_nil
  inhabited userId empty := by cases empty

variable {past : List Call} {key : Connection}

theorem Mirrors.unsubscribe (mirrors : Mirrors (after past) (subscription past)) (key : Connection) :
    Mirrors ((after past).unsubscribe (some key)) (subscription (.unsubscribe (some key) :: past)) := by
  have owner := mirrors.owners key
  cases subscribed : subscription past key with
  | none =>
    rw [subscribed] at owner
    have same : subscription (.unsubscribe (some key) :: past) = subscription past := by
      funext other
      by_cases here : key = other
      · subst here
        simp [subscription, subscribed]
      · simp [subscription, here]
    rw [unsubscribe_unowned owner, same]
    exact mirrors
  | some userId =>
    rw [subscribed] at owner
    refine ⟨?_, ?_, ?_, ?_⟩
    · intro other
      rw [owners_unsubscribe owner]
      by_cases here : key = other
      · subst here
        simp [subscription]
      · simp [subscription, here, Ne.symm here, mirrors.owners]
    · intro other user
      rw [copySubscribersLocked_unsubscribe owner]
      by_cases mine : user = userId
      · subst mine
        rw [if_pos rfl, (mirrors.nodup user).mem_erase_iff, mirrors.members]
        by_cases here : key = other
        · subst here
          simp [subscription]
        · simp [subscription, here, Ne.symm here]
      · rw [if_neg mine, mirrors.members]
        by_cases here : key = other
        · subst here
          simp [subscription, subscribed, Ne.symm mine]
        · simp [subscription, here]
    · intro user
      rw [copySubscribersLocked_unsubscribe owner]
      split
      · exact (mirrors.nodup userId).erase key
      · exact mirrors.nodup user
    · intro user
      rw [subscribers_unsubscribe owner]
      split
      · cases (after past).subscribers_ userId with
        | none => simp
        | some set =>
          rw [Option.bind_some]
          split
          · simp
          · rename_i left
            simpa using left
      · exact mirrors.inhabited user

/-- The set of another user keeps the connection, so there must be none. -/
theorem Mirrors.subscribe (mirrors : Mirrors (after past) (subscription past)) {userId : Int} (user : 0 < userId)
    (own : subscription past key = none ∨ subscription past key = some userId) :
    Mirrors ((after past).subscribe userId (some key)) (subscription (.subscribe userId (some key) :: past)) where
  owners other := by
    rw [subscribe_some user]
    by_cases here : key = other
    · subst here
      simp [subscription, user]
    · simp [subscription, here, Ne.symm here, mirrors.owners]
  members other member := by
    rw [copySubscribersLocked_subscribe user]
    by_cases mine : member = userId
    · subst mine
      rw [if_pos rfl, List.mem_insert_iff, mirrors.members]
      by_cases here : key = other
      · subst here
        simp [subscription, user]
      · simp [subscription, here, Ne.symm here]
    · rw [if_neg mine, mirrors.members]
      by_cases here : key = other
      · subst here
        rcases own with free | own
        · simp [subscription, user, free, Ne.symm mine]
        · simp [subscription, user, own, Ne.symm mine]
      · simp [subscription, here]
  nodup member := by
    rw [copySubscribersLocked_subscribe user]
    split
    · exact List.Nodup.insert (mirrors.nodup userId)
    · exact mirrors.nodup member
  inhabited member := by
    rw [subscribe_some user]
    by_cases mine : member = userId
    · subst mine
      intro empty
      have inside : key ∈ ((after past).copySubscribersLocked member).insert key := List.mem_insert_self
      have none : ((after past).copySubscribersLocked member).insert key = [] := by simpa using empty
      rw [none] at inside
      cases inside
    · simpa [mine] using mirrors.inhabited member

theorem Mirrors.isolated (mirrors : Mirrors (after past) (subscription past)) : Isolated past where
  once generation := by
    unfold publishTaskUpdated
    split
    · exact List.nodup_nil
    · rw [List.map_map]
      exact (List.map_id _).symm ▸ mirrors.nodup generation.user_id
  exact generation key message user := by
    rw [publishTaskUpdated, if_neg (Int.not_le.mpr user), ← mirrors.members]
    simp [eq_comm]
  released key free := by
    refine ⟨(mirrors.owners key).trans free, fun userId set held inside => ?_⟩
    have member : key ∈ (after past).copySubscribersLocked userId := by
      rw [copySubscribersLocked, held]
      exact inside
    rw [mirrors.members, free] at member
    cases member
  inhabited := mirrors.inhabited

/-! ## Retargeting -/

/-- Nobody subscribes a connection that belongs to another user. -/
def NeverRetargeted (calls : List Call) : Prop :=
  ∀ (userId : Int) (key : Connection) (past : List Call), .subscribe userId (some key) :: past <:+ calls →
    0 < userId → subscription past key = none ∨ subscription past key = some userId

theorem mirrors_after {calls : List Call} (steady : NeverRetargeted calls) :
    Mirrors (after calls) (subscription calls) := by
  induction calls with
  | nil => exact mirrors_new
  | cons call past ih =>
    have mirrors := ih fun userId key earlier inside =>
      steady userId key earlier (inside.trans (List.suffix_cons call past))
    cases call with
    | subscribe userId connection =>
      cases connection with
      | none => exact mirrors
      | some key =>
        by_cases user : 0 < userId
        · exact mirrors.subscribe user (steady userId key past List.suffix_rfl user)
        · have ignored : (after past).subscribe userId (some key) = after past := if_pos (Int.not_lt.mp user)
          have unchanged : subscription (.subscribe userId (some key) :: past) = subscription past := by
            funext other
            simp [subscription, user]
          rw [after, ignored, unchanged]
          exact mirrors
    | unsubscribe connection =>
      cases connection with
      | none => exact mirrors
      | some key => exact mirrors.unsubscribe key

/-- A connection that is subscribed for a second user still hears of the first one's tasks. -/
theorem Isolated.retargeted {userId owner : Int} (isolated : Isolated past)
    (owned : subscription past key = some owner) (user : 0 < userId) (other : owner ≠ userId) :
    ¬ Isolated (.subscribe userId (some key) :: past) := by
  intro still
  have first : 0 < owner := subscription_user owned
  have before := (isolated.exact { user_id := owner } key _ first).mpr ⟨owned, rfl⟩
  have kept : (key, payload { user_id := owner }) ∈
      (after (.subscribe userId (some key) :: past)).publishTaskUpdated { user_id := owner } := by
    rw [publishTaskUpdated, if_neg (Int.not_le.mpr first)] at before ⊢
    rw [after, copySubscribersLocked_subscribe user, if_neg other]
    exact before
  have told := ((still.exact { user_id := owner } key _ first).mp kept).1
  simp [subscription, user] at told
  exact other told.symm

/-- The hub isolates users through a whole sequence of calls exactly when no connection changes hands. -/
theorem isolated_iff (calls : List Call) :
    (∀ past, past <:+ calls → Isolated past) ↔ NeverRetargeted calls := by
  constructor
  · intro isolated userId key past inside user
    cases owned : subscription past key with
    | none => exact .inl rfl
    | some owner =>
      by_cases same : owner = userId
      · exact .inr (congrArg some same)
      · have before := isolated past ((List.suffix_cons _ past).trans inside)
        exact (before.retargeted owned user same (isolated _ inside)).elim
  · intro steady past inside
    refine (mirrors_after ?_).isolated
    intro userId key earlier within
    exact steady userId key earlier (within.trans inside)

/-- One connection, subscribed for user 1 and then for user 2: it hears of a task of user 1, and still
does after it has been unsubscribed.
-/
theorem retargeted_told :
    let calls : List Call := [.subscribe 2 (some 7), .subscribe 1 (some 7)]
    let left : List Call := .unsubscribe (some 7) :: calls
    subscription calls 7 = some 2 ∧ subscription left 7 = none ∧
    ((after calls).publishTaskUpdated { user_id := 1 }).map Prod.fst = [7] ∧
    ((after left).publishTaskUpdated { user_id := 1 }).map Prod.fst = [7] := by
  decide +kernel

end Text2Image.TaskEventHub
