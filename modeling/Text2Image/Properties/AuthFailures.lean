import Text2Image.Properties.DisabledAccounts
import Text2Image.Services.AuthExecution

/-! What a refresh or a change of password that fails leaves behind. -/

set_option autoImplicit false

namespace Text2Image.Auth

open Concurrency Concurrency.Prog

variable {d : Deployment} {token_store : RefreshTokenStore} {world after : World} {trace : Trace}

/-! ## Refreshes -/

/-- The store still gives the token to the user it claims. -/
def World.holds (w : World) (now : TimePoint) (token_store : RefreshTokenStore)
    (claims : utils.RefreshTokenClaims) : Prop :=
  w.tokenAt now token_store claims.jti = some claims.user_id

/-- An error leaves a verified token as live as it was. -/
def RefreshKeeps (d : Deployment) (token_store : RefreshTokenStore) (payload : Json)
    (world after : World) (trace : Trace) (reply : Except Failure RefreshResult) : Prop :=
  ∀ claims, Presents d payload trace claims → (∃ failure, reply = .error failure) →
    world.holds after.clock token_store claims → after.holds after.clock token_store claims

/-- Once a live token has been taken out of the store, all that is asked for is served. -/
def RefreshServed (d : Deployment) (token_store : RefreshTokenStore) (payload : Json)
    (world after : World) (trace : Trace) : Prop :=
  ∀ claims, Presents d payload trace claims → world.holds after.clock token_store claims →
    (∃ moment ∈ trace, Takes claims.jti moment = true) →
    ∀ moment ∈ trace, Served (refreshWants claims.user_id) (takenAt moment)

/-- No id that is drawn is that of the token presented. -/
def DrawsAnew (d : Deployment) (payload : Json) (trace : Trace) : Prop :=
  ∀ claims, Presents d payload trace claims → ∀ moment ∈ trace, Draws claims.jti moment = false

theorem holds_of_same {now : TimePoint} {claims : utils.RefreshTokenClaims}
    (redis : after.redis = world.redis) (tokens : after.tokens = world.tokens)
    (holds : world.holds now token_store claims) : after.holds now token_store claims := by
  cases token_store with
  | Redis => simpa only [World.holds, World.tokenAt, redis] using holds
  | InMemory => simpa only [World.holds, World.tokenAt, tokens] using holds

/-- A refresh whose token verifies goes on from there. -/
theorem executes_refresh {payload : Json} {reply : Except Failure RefreshResult}
    {claims : utils.RefreshTokenClaims} (presents : Presents d payload trace claims)
    (ran : Executes undisturbed (AuthService.refresh d token_store payload).run world trace reply after) :
    ∃ choice met rest, trace = (.now, choice, met) :: rest ∧ undisturbed.drift world met ∧
      Executes undisturbed (refreshWith d token_store claims).run met rest reply after := by
  obtain ⟨token, choice, met, rest, present, rfl, verifies⟩ := presents
  rcases refresh_run d token_store payload with ⟨failure, absent, _⟩ | ⟨token', present', goes⟩
  · rw [absent] at present
    cases present
  · cases present.symm.trans present'
    rw [goes] at ran
    obtain ⟨choice', met', rest', drifts, same, goesOn⟩ := Executes.of_call ran
    cases same
    refine ⟨choice, met, rest, rfl, drifts, ?_⟩
    have next : refreshFrom d token_store token met.clock = (refreshWith d token_store claims).run := by
      rw [refreshFrom, verifies]
    rw [← next]
    exact goesOn

theorem refresh_served_keeps {payload : Json} {reply : Except Failure RefreshResult}
    (ran : Executes undisturbed (AuthService.refresh d token_store payload).run world trace reply after)
    (served : RefreshServed d token_store payload world after trace) :
    RefreshKeeps d token_store payload world after trace reply := by
  rintro claims presents ⟨failure, rfl⟩ holds
  obtain ⟨choice, met, rest, rfl, drifts, goes⟩ := executes_refresh presents ran
  have reports := Reports.executes (faithful_refreshWith claims) goes
  rcases executes_refreshWith goes with ⟨_, redis, tokens, _⟩ | ⟨⟨moment, member, taken⟩, _⟩
  · refine holds_of_same ?_ ?_ holds
    · rw [redis, drifts.1]
    · rw [tokens, drifts.1]
  · have all := served claims presents holds ⟨moment, List.mem_cons_of_mem _ member, taken⟩
    exact (reports.mpr fun moment member => all moment (List.mem_cons_of_mem _ member)).elim

theorem refresh_keeps_served {payload : Json} {reply : Except Failure RefreshResult}
    (ran : Executes undisturbed (AuthService.refresh d token_store payload).run world trace reply after)
    (anew : DrawsAnew d payload trace)
    (keeps : RefreshKeeps d token_store payload world after trace reply) :
    RefreshServed d token_store payload world after trace := by
  rintro claims presents holds ⟨moment, member, takes⟩
  have fresh := anew claims presents
  have kept := keeps claims presents
  obtain ⟨choice, met, rest, rfl, drifts, goes⟩ := executes_refresh presents ran
  have reports := Reports.executes (faithful_refreshWith claims) goes
  have reads : Served (refreshWants claims.user_id) (takenAt (.now, choice, met)) := ⟨rfl, rfl⟩
  cases reply with
  | ok result =>
    exact List.forall_mem_cons.mpr ⟨reads, reports.mp trivial⟩
  | error failure =>
    have still := kept ⟨failure, rfl⟩ holds
    rcases executes_refreshWith goes with ⟨spared, _⟩ | ⟨_, gone⟩
    · rcases List.mem_cons.mp member with rfl | member
      · cases takes
      · rw [spared moment member] at takes
        cases takes
    · have none := (gone (List.forall_mem_cons.mp fresh).2).tokenAt (Int.le_refl after.clock)
      rw [World.holds, none] at still
      cases still

/-! ## Changes of passwords -/

/-- An error leaves the users and the live tokens as they were. -/
def ChangeKeeps (token_store : RefreshTokenStore) (world after : World) (reply : Except Failure Unit) :
    Prop :=
  (∃ failure, reply = .error failure) → Unchanged token_store after.clock world after

/-- Once a user or a live token has been changed, all that is asked for is served. -/
def ChangeServed (d : Deployment) (token_store : RefreshTokenStore) (payload : Json) (after : World)
    (trace : Trace) : Prop :=
  (∃ moment ∈ trace, Changes token_store after.clock moment) →
    ∀ newPassword, textOf payload "new_password" = some newPassword →
      ∀ moment ∈ trace, Served (changeWants d newPassword) (takenAt moment)

theorem change_keeps_iff {userId : Int} {payload : Json} {reply : Except Failure Unit}
    (ran : Executes undisturbed (AuthService.changePassword d token_store userId payload).run world trace
      reply after) :
    ChangeKeeps token_store world after reply ↔ ChangeServed d token_store payload after trace := by
  rcases changePassword_run d token_store userId payload with
    ⟨failure, ends⟩ | ⟨oldPassword, newPassword, given, goes⟩
  · rw [ends] at ran
    obtain ⟨rfl, _, rfl⟩ := Executes.of_done ran
    exact iff_of_true (fun _ => ⟨rfl, fun _ => rfl⟩) fun ⟨_, member, _⟩ => by cases member
  rw [goes] at ran
  constructor
  · rintro keeps ⟨moment, member, changes⟩ newPassword' given'
    cases given.symm.trans given'
    cases reply with
    | ok value => exact (sound_changeFor userId oldPassword newPassword).executes ran trivial
    | error failure => exact (changed_changeFor ran member changes (keeps ⟨failure, rfl⟩)).elim
  · rintro served ⟨failure, rfl⟩
    refine unchanged_executes ran fun moment member changes => ?_
    have all := served ⟨moment, member, changes⟩ newPassword given
    rcases executes_changeFor ran with ⟨_, reads⟩ | ⟨earlier, later, middle, rfl, _, _, changing⟩
    · exact unchanged_of_reads (reads moment member) _ changes
    · have reports := Reports.executes (faithful_changeWith userId newPassword) changing
      exact (reports.mpr fun moment member => all moment (List.mem_append_right _ member)).elim

/-- While nobody else touches the users or the tokens: a refresh that fails leaves its token live
if, once a live token has been taken, all else is served, and only then, as long as no id is
drawn twice; a change of password that fails leaves the users and the live tokens as they
were exactly if, once one of them has been changed, all else is served.
-/
theorem failures_atomic (d : Deployment) (token_store : RefreshTokenStore) (world after : World)
    (trace : Trace) :
    (∀ payload reply,
      Executes undisturbed (AuthService.refresh d token_store payload).run world trace reply after →
      (RefreshServed d token_store payload world after trace →
        RefreshKeeps d token_store payload world after trace reply) ∧
      (DrawsAnew d payload trace → RefreshKeeps d token_store payload world after trace reply →
        RefreshServed d token_store payload world after trace)) ∧
    ∀ userId payload reply,
      Executes undisturbed (AuthService.changePassword d token_store userId payload).run world trace reply
        after →
      (ChangeKeeps token_store world after reply ↔ ChangeServed d token_store payload after trace) :=
  ⟨fun _ _ ran => ⟨refresh_served_keeps ran, refresh_keeps_served ran⟩, fun _ _ _ ran =>
    change_keeps_iff ran⟩

/-! ## Failures after the first step -/

/-- User 1 with a live token. -/
def signedIn : World :=
  { aliceWorld with tokens := Function.update aliceWorld.tokens zeroJti (some ⟨1, 1000000⟩) }

def presentZero : Json := .object [("refresh_token", .string zeroJti)]

def newSecret : Json := .object [("old_password", .string "secret"), ("new_password", .string "terces")]

/-- The token is taken; then the SELECT fails. -/
def selectFails : List Choice := [{}, {}, { outcome := .failed }]

/-- The tokens are revoked; then the UPDATE fails. -/
def updateFails : List Choice := [{}, {}, {}, { outcome := .failed }]

theorem verified_zeroJti (time : TimePoint) :
    utils.verified plainDeployment time zeroJti = some ⟨1, zeroJti⟩ := by
  show utils.refreshClaims (utils.refreshPayload 1 zeroJti 0 0) = some ⟨1, zeroJti⟩
  decide +kernel

/-- What is found by running a program with these choices. -/
theorem executes_choices {α β : Type} (program : Program α) (choices : List Choice) (world : World)
    (observe : α → World → β) (value : β)
    (ran : (program.runAmong perform (choices.map fun choice => (id, choice)) world).map
      (fun result => observe result.1 result.2) = some value) :
    ∃ trace reply after, Executes undisturbed program world trace reply after ∧
      observe reply after = value := by
  have idle : ∀ step ∈ choices.map fun choice => ((id : World → World), choice), ∀ world,
      undisturbed.drift world (step.1 world) := by
    intro step member world
    obtain ⟨choice, _, rfl⟩ := List.mem_map.mp member
    exact ⟨rfl, Int.le_refl _⟩
  obtain ⟨reply, after, executes, observed⟩ := executes_of_observed idle ran
  exact ⟨_, reply, after, executes, observed⟩

/-- A failed SELECT costs the user his token, a failed UPDATE all of them. -/
theorem failures_lose_tokens :
    (∃ trace reply after, Executes undisturbed
      (AuthService.refresh plainDeployment .InMemory presentZero).run signedIn trace reply after ∧
      ¬ RefreshKeeps plainDeployment .InMemory presentZero signedIn after trace reply) ∧
    ∃ trace reply after, Executes undisturbed
      (AuthService.changePassword plainDeployment .InMemory 1 newSecret).run signedIn trace reply after ∧
      ¬ ChangeKeeps .InMemory signedIn after reply := by
  constructor
  · obtain ⟨trace, reply, after, ran, observed⟩ := executes_choices
      (AuthService.refresh plainDeployment .InMemory presentZero).run selectFails signedIn
      (fun reply after => (reply.isOk, signedIn.tokenAt after.clock .InMemory zeroJti,
        after.tokenAt after.clock .InMemory zeroJti)) (false, some 1, none) (by decide +kernel)
    simp only [Prod.mk.injEq] at observed
    obtain ⟨failed, live, dead⟩ := observed
    refine ⟨trace, reply, after, ran, fun keeps => ?_⟩
    have presents : Presents plainDeployment presentZero trace ⟨1, zeroJti⟩ := by
      rcases refresh_run plainDeployment .InMemory presentZero with ⟨failure, absent, _⟩ | ⟨token, present, goes⟩
      · cases absent
      · cases present
        rw [goes] at ran
        obtain ⟨choice, met, rest, _, rfl, _⟩ := Executes.of_call ran
        exact ⟨zeroJti, choice, met, rest, rfl, rfl, verified_zeroJti _⟩
    cases reply with
    | ok result => cases failed
    | error failure => cases dead.symm.trans (keeps ⟨1, zeroJti⟩ presents ⟨failure, rfl⟩ live)
  · obtain ⟨trace, reply, after, ran, observed⟩ := executes_choices
      (AuthService.changePassword plainDeployment .InMemory 1 newSecret).run updateFails signedIn
      (fun reply after => (reply.isOk, signedIn.tokenAt after.clock .InMemory zeroJti,
        after.tokenAt after.clock .InMemory zeroJti)) (false, some 1, none) (by decide +kernel)
    simp only [Prod.mk.injEq] at observed
    obtain ⟨failed, live, dead⟩ := observed
    refine ⟨trace, reply, after, ran, fun keeps => ?_⟩
    cases reply with
    | ok result => cases failed
    | error failure => cases dead.symm.trans (((keeps ⟨failure, rfl⟩).2 zeroJti).trans live)

end Text2Image.Auth
