import Text2Image.Properties.DisabledAccounts
import Text2Image.Services.TokenLineage

/-! Each refresh token is good for one refresh, in every run. -/

set_option autoImplicit false

namespace Text2Image.Auth

open Concurrency Concurrency.Prog Concurrency.System

variable {d : Deployment} {token_store : RefreshTokenStore} {past : List (Taken interface)} {jti : String}

/-! ## What the answers tell -/

theorem answered_redis (command : Keyspace.Command) : (redis command).run.Follows (fun _ _ => True)
    (fun later reply => (⟨.redis command, reply⟩ : Taken interface) ∈ later) past :=
  .call trivial fun _ => .done List.mem_cons_self

/-- What a value of the body tells, a value of the guarded call tells. -/
theorem tells_guarded {α : Type} {body : Fallible interface String α}
    {tells : List (Taken interface) → α → Prop}
    (follows : ∀ past, body.run.Follows (fun _ _ => True)
      (fun later result => ∀ value, result = .ok value → tells later value) past) :
    (RedisRefreshTokenStore.guarded body).Follows (fun _ _ => True)
      (fun later result => ∀ value, result = .ok value → tells later value) past := by
  refine .call trivial fun available => ?_
  cases available with
  | false => exact .done nofun
  | true =>
    refine (follows _).bind fun later result _ told => ?_
    cases result with
    | error error => exact .done nofun
    | ok value =>
      refine .done fun other same => ?_
      cases same
      exact told value rfl

/-- Some answer has found the token. -/
def Found (token_store : RefreshTokenStore) (past : List (Taken interface)) (jti : String) : Prop :=
  ∃ taken ∈ past, Finds token_store jti taken.op taken.answer = true

/-- Some answer has found the token, or deleted it. -/
def Over (token_store : RefreshTokenStore) (past : List (Taken interface)) (jti : String) : Prop :=
  ∃ taken ∈ past, Ends token_store jti taken.op taken.answer = true

/-- A consume that yields a user has found the token. -/
theorem consume_finds : (token_store.consume jti).Follows (fun _ _ => True)
    (fun later result => ∀ stored, result = .ok stored → ∀ userId, stored = some userId →
      Found token_store later jti) past := by
  cases token_store with
  | InMemory =>
    refine .call trivial fun found => .done ?_
    rintro stored same userId rfl
    obtain rfl : found = some userId := Except.ok.inj same
    exact ⟨_, List.mem_cons_self, decide_eq_true ⟨rfl, rfl⟩⟩
  | Redis =>
    refine tells_guarded fun past => Follows.fallible (answered_redis _) nofun fun later found asked => ?_
    cases found with
    | none =>
      refine .done ?_
      rintro stored same userId rfl
      cases same
    | some text =>
      refine (follows_free _ later).mono fun _ _ grown _ _ _ _ _ => ?_
      exact ⟨_, grown asked, decide_eq_true ⟨rfl, rfl⟩⟩

/-- A revocation that succeeds has deleted the token. -/
theorem revoke_ends : (token_store.revoke jti).Follows (fun _ _ => True)
    (fun later result => ∀ value, result = .ok value →
      Over token_store later jti) past := by
  cases token_store with
  | InMemory =>
    refine .call trivial fun _ => .done fun _ _ => ?_
    exact ⟨_, List.mem_cons_self, decide_eq_true ⟨rfl, rfl⟩⟩
  | Redis =>
    have deletes : ∀ past : List (Taken interface), Follows (I := interface) (fun _ _ => True)
        (fun later (result : Except String Unit) => ∀ value, result = .ok value →
          Over .Redis later jti)
        (do let _ ← redis (.del (refreshTokenKey jti)) : Fallible interface String Unit).run past := by
      intro past
      refine Follows.fallible (answered_redis _) nofun fun later deleted asked => .done fun _ _ => ?_
      exact ⟨_, asked, decide_eq_true ⟨rfl, rfl⟩⟩
    refine tells_guarded fun past => Follows.fallible (answered_redis _) nofun fun later found _ => ?_
    cases found with
    | none => exact deletes later
    | some text =>
      refine Follows.fallible (follows_free _ later) (fun _ _ _ => nofun) fun later userId _ => ?_
      exact Follows.fallible (follows_free _ later) (fun _ _ _ => nofun) fun later _ _ => deletes later

/-! ## What the replies tell -/

/-- The token of the request, verified when the call began, has this id. -/
def PresentsId (d : Deployment) (payload : Json) (past : List (Taken interface)) (jti : String) : Prop :=
  ∃ token time claims, presentedToken payload = some token ∧ past.getLast? = some ⟨.now, time⟩ ∧
    utils.verified d time token = some claims ∧ claims.jti = jti

theorem PresentsId.unique {payload : Json} {front : List (Taken interface)} {token : String}
    {time : TimePoint} {claims : utils.RefreshTokenClaims} (present : presentedToken payload = some token)
    (verifies : utils.verified d time token = some claims)
    (presents : PresentsId d payload (front ++ [⟨.now, time⟩]) jti) : claims.jti = jti := by
  obtain ⟨token', time', claims', present', first, verifies', same⟩ := presents
  cases present.symm.trans present'
  rw [List.getLast?_concat] at first
  cases first
  cases verifies.symm.trans verifies'
  exact same

/-- Whatever a call that presents a token goes on to achieve, it achieves for this token. -/
theorem presented_achieves {α : Type} {payload : Json} {next : utils.RefreshTokenClaims → Action α}
    {achieved : List (Taken interface) → String → Prop}
    (achieves : ∀ claims past, (next claims).run.Follows (fun _ _ => True)
      (fun later result => ∀ value, result = .ok value → achieved later claims.jti) past) :
    (AuthService.presentedClaims d payload >>= next).run.Follows (fun _ _ => True)
      (fun later result => ∀ value, result = .ok value → ∀ jti, PresentsId d payload later jti →
        achieved later jti) [] := by
  rw [Fallible.run_bind]
  rcases presentedClaims_run (d := d) payload with ⟨failure, _, ends⟩ | ⟨token, present, goes⟩
  · rw [ends]
    exact .done nofun
  · rw [goes]
    refine .call trivial fun time => ?_
    dsimp only [Prog.bind]
    cases verifies : utils.verified d time token with
    | none => exact .done nofun
    | some claims =>
      refine (achieves claims _).suffix.mono ?_
      rintro later result _ ⟨achieved, front, rfl⟩ value same jti presents
      rw [← presents.unique present verifies]
      exact achieved value same

/-- What a call that succeeds has done to the token it presents. -/
def Achieves (d : Deployment) (token_store : RefreshTokenStore) (past : List (Taken interface)) :
    Call → Reply → Prop
  | .refresh payload, .tokens (.ok _) => ∀ jti, PresentsId d payload past jti → Found token_store past jti
  | .logout payload, .finished (.ok _) => ∀ jti, PresentsId d payload past jti → Over token_store past jti
  | _, _ => True

theorem refresh_finds (claims : utils.RefreshTokenClaims) :
    (refreshWith d token_store claims).run.Follows (fun _ _ => True) (fun later result =>
      ∀ value, result = .ok value → Found token_store later claims.jti) past := by
  have consumes : (service (token_store.consume claims.jti)).run.Follows (fun _ _ => True)
      (fun later result => ∀ stored, result = .ok stored → ∀ userId, stored = some userId →
        Found token_store later claims.jti) past := by
    refine consume_finds.bind fun later result _ told => ?_
    cases result with
    | error error => exact .done nofun
    | ok stored =>
      refine .done fun other same => ?_
      cases same
      exact told stored rfl
  refine Follows.fallible consumes (fun _ _ _ => nofun) fun later stored told => ?_
  rw [refuseIf_bind]
  split
  · exact .done nofun
  · rename_i same
    have own : stored = some claims.user_id := by simpa using same
    obtain ⟨taken, member, finds⟩ := told stored rfl _ own
    exact (follows_free _ later).mono fun _ _ grown _ _ _ => ⟨taken, grown member, finds⟩

theorem logout_ends (claims : utils.RefreshTokenClaims) :
    (service (token_store.revoke claims.jti)).run.Follows (fun _ _ => True) (fun later result =>
      ∀ value, result = .ok value → Over token_store later claims.jti)
      past := by
  refine revoke_ends.bind fun later result _ told => ?_
  cases result with
  | error error => exact .done nofun
  | ok value => exact .done fun _ _ => told value rfl

theorem call_achieves (call : Call) : ((backend d token_store).program call).Follows (fun _ _ => True)
    (fun past reply => Achieves d token_store past call reply) [] := by
  cases call with
  | refresh payload =>
    refine (presented_achieves fun claims past => refresh_finds claims).bind fun later result _ achieves => ?_
    cases result with
    | error failure => exact .done trivial
    | ok value => exact .done (achieves value rfl)
  | logout payload =>
    refine (presented_achieves fun claims past => logout_ends claims).bind fun later result _ achieves => ?_
    cases result with
    | error failure => exact .done trivial
    | ok value => exact .done (achieves value rfl)
  | register payload | login payload | changePassword userId payload =>
    exact (follows_free _ _).bind fun _ _ _ _ => .done trivial

/-! ## Every run -/

/-- The process has refreshed the token: new ones have been returned for it. -/
def Refreshed (log : List (backend d token_store).Entry) (pid : Nat) (jti : String) : Prop :=
  ∃ newer older payload result, log = newer ++ .returned pid (Reply.tokens (.ok result)) :: older ∧
    live pid older = some (Call.refresh payload) ∧ PresentsId d payload (history pid older) jti

/-- The process has logged the token out, and has been told so. -/
def LoggedOut (log : List (backend d token_store).Entry) (pid : Nat) (jti : String) : Prop :=
  ∃ newer older payload, log = newer ++ .returned pid (Reply.finished (.ok ())) :: older ∧
    live pid older = some (Call.logout payload) ∧ PresentsId d payload (history pid older) jti

/-- The token would be accepted now. -/
def Live (view : (backend d token_store).View) (jti : String) : Prop :=
  (World.tokenAt view.world view.world.clock token_store jti).isSome = true

variable {world : World} {labels : List (backend d token_store).Label}

theorem achieved {newer older : List (backend d token_store).Entry} {pid : Nat} {call : Call} {reply : Reply}
    (split : (run (initial world) labels).view.log = newer ++ .returned pid reply :: older)
    (alive : live pid older = some call) : Achieves d token_store (history pid older) call reply := by
  obtain ⟨other, alive', achieves⟩ := (tracks_run world labels).promised call_achieves split
  cases alive.symm.trans alive'
  exact achieves

theorem Refreshed.finding {log newer : List (backend d token_store).Entry} {pid : Nat}
    (split : (run (initial world) labels).view.log = newer ++ log) (refreshed : Refreshed log pid jti) :
    ∃ event, .performed event ∈ log ∧ event.pid = pid ∧ finding jti event := by
  obtain ⟨front, older, payload, result, rfl, alive, presents⟩ := refreshed
  rw [← List.append_assoc] at split
  obtain ⟨taken, member, finds⟩ := achieved split alive jti presents
  obtain ⟨event, performed, own, _, rfl⟩ := mem_history member
  exact ⟨event, by simp [performed], own, finds⟩

theorem LoggedOut.ending {log newer : List (backend d token_store).Entry} {pid : Nat}
    (split : (run (initial world) labels).view.log = newer ++ log) (out : LoggedOut log pid jti) :
    Occurred (ending jti) log := by
  obtain ⟨front, older, payload, rfl, alive, presents⟩ := out
  rw [← List.append_assoc] at split
  obtain ⟨taken, member, ends⟩ := achieved split alive jti presents
  obtain ⟨event, performed, _, _, rfl⟩ := mem_history member
  exact ⟨event, by simp [performed], ends⟩

/-- A token is refreshed at most once. Once it has been refreshed or logged out, no consume finds it,
and no call that begins later refreshes it. And of the tokens of a login at most one would be
accepted.
-/
structure SingleUse (view : (backend d token_store).View) : Prop where
  once : ∀ jti pid pid', Refreshed view.log pid jti → Refreshed view.log pid' jti → pid = pid'
  ended : ∀ newer older jti pid, view.log = newer ++ older → Refreshed older pid jti ∨ LoggedOut older pid jti →
    (∀ event, .performed event ∈ newer → ¬ finding jti event) ∧
      ∀ later, (∀ entry ∈ older, entry.pid ≠ later) → ¬ Refreshed view.log later jti
  line : ∀ root jti jti', Descends view.log root jti → Descends view.log root jti' → Live view jti →
    Live view jti' → jti = jti'

/-- In every run whose ids are fresh, refresh tokens are single use. -/
theorem tokens_single_use (meets : Meets (freshIds d token_store) (initial world) labels) :
    SingleUse (run (initial world) labels).view := by
  constructor
  · intro jti pid pid' refreshed refreshed'
    obtain ⟨first, member, rfl, finds⟩ := refreshed.finding (List.nil_append _).symm
    obtain ⟨second, member', rfl, finds'⟩ := refreshed'.finding (List.nil_append _).symm
    rw [finding_once meets member member' finds finds']
  · intro newer older jti pid split spent
    have ended : Occurred (ending jti) older := by
      rcases spent with refreshed | out
      · obtain ⟨event, member, _, finds⟩ := refreshed.finding split
        exact ⟨event, member, ends_of_finds finds⟩
      · exact out.ending split
    have unfound : ∀ event, .performed event ∈ newer → ¬ finding jti event := by
      intro event member
      obtain ⟨front, between, rfl⟩ := List.append_of_mem member
      rw [List.append_assoc, List.cons_append] at split
      obtain ⟨earlier, performed, ends⟩ := ended
      exact not_finding_after meets split ⟨earlier, List.mem_append_right _ performed, ends⟩
    refine ⟨unfound, fun later fresh refreshed => ?_⟩
    obtain ⟨event, member, own, finds⟩ := refreshed.finding (List.nil_append _).symm
    rw [split] at member
    rcases List.mem_append.mp member with new | old
    · exact unfound event new finds
    · exact fresh _ old own
  · intro root jti jti' descends descends' live live'
    have there : ∀ {jti}, Live (run (initial world) labels).view jti →
        ¬ Gone token_store jti (run (initial world) labels).view.world := by
      intro jti live gone
      unfold Live at live
      rw [gone.tokenAt (Int.le_refl _)] at live
      cases live
    exact descends.last meets descends' (there live) (there live')

/-- A login, a refresh, the first token once more, and a logout with the second. -/
def replayedRun : List (backend plainDeployment .InMemory).Label :=
  let oneJti := utils.uuid fun _ => 1
  let presented (call : Json → Call) (token : String) := call (.object [("refresh_token", .string token)])
  .start (.login aliceLogin) :: List.replicate 8 (.act 0 {}) ++
    .start (presented .refresh zeroJti) :: List.replicate 10 (.act 1 { bytes := fun _ => 1 }) ++
    .start (presented .refresh zeroJti) :: List.replicate 10 (.act 2 { bytes := fun _ => 2 }) ++
    .start (presented .logout oneJti) :: List.replicate 2 (.act 3 {})

theorem tokens_single_use_replayed : SingleUse (run (initial aliceWorld) replayedRun).view :=
  tokens_single_use (by decide +kernel)

end Text2Image.Auth
