import Text2Image.Concurrency.Observation
import Text2Image.Services.AuthBackend
import Text2Image.Services.AuthExecution

/-! What keeps a disabled account without tokens, in every run. -/

set_option autoImplicit false

namespace Text2Image.Auth

open Concurrency Concurrency.System

variable {d : Deployment} {token_store : RefreshTokenStore}

/-- The row of the user the call is for has been disabled. -/
def Disabled (d : Deployment) (world : World) : Call → Prop
  | .login payload => ∃ credentials row, presentedCredentials payload = some credentials ∧
      world.users.find credentials.key = some row ∧ row.enabled = false
  | .refresh payload => ∃ token time claims row, presentedToken payload = some token ∧
      utils.verified d time token = some claims ∧ world.users.find (.id claims.user_id) = some row ∧
      row.enabled = false
  | _ => False

def Reply.hasTokens : Reply → Bool
  | .tokens result => result.isOk
  | _ => false

/-! ## What a call performs -/

/-- The operations of a process, each with what was left open and the world it met, oldest first. -/
def traceOf (pid : Nat) : List (backend d token_store).Entry → Trace
  | [] => []
  | .performed event :: older =>
    if event.pid = pid ∧ event.helper = false then
      (traceOf pid older).concat (event.op, event.choice, event.before)
    else traceOf pid older
  | _ :: older => traceOf pid older

theorem history_eq {pid : Nat} {log : List (backend d token_store).Entry} (genuine : AllGenuine log) :
    history pid log = ((traceOf pid log).map takenAt).reverse := by
  induction log with
  | nil => rfl
  | cons entry older ih =>
    have same := ih fun event member => genuine event (List.mem_cons_of_mem _ member)
    cases entry with
    | performed event =>
      have answered : event.answer = (perform event.op event.choice event.before).1 :=
        congrArg Prod.fst (genuine event List.mem_cons_self)
      by_cases own : event.pid = pid ∧ event.helper = false
      · rw [history, traceOf, if_pos own, if_pos own, same, answered]
        simp [takenAt]
        rfl
      · rw [history, traceOf, if_neg own, if_neg own]
        exact same
    | started | returned | crashed => exact same

/-- The operation does not fail. -/
def Unfailing (moment : Op × Choice × World) : Prop :=
  moment.1.answered (perform moment.1 moment.2.1 moment.2.2).1 = true

/-- What a call has to present and to meet for tokens: a login, the password of the row that its SELECT
finds; a refresh, a token that verifies and is live when it is taken, of a user who is still there.
-/
def Grants (d : Deployment) (token_store : RefreshTokenStore) : Call → Trace → Prop
  | .login payload, trace => ∃ credentials, presentedCredentials payload = some credentials ∧
      ∀ moment ∈ trace, Unfailing moment ∧ ∀ key, moment.1 = .sql (.select key) →
        ∃ row, moment.2.2.users.find key = some row ∧
          AuthService.verifyPassword d credentials.password row.password = .ok true
  | .refresh payload, trace => ∃ claims, Presents d payload trace claims ∧
      ∀ moment ∈ trace, Unfailing moment ∧
        (moment.1 = token_store.consuming claims.jti →
          moment.2.2.tokenAt moment.2.2.clock token_store claims.jti = some claims.user_id) ∧
        ∀ key, moment.1 = .sql (.select key) → moment.2.2.users.find key ≠ none
  | _, _ => False

/-! ## What it is answered -/

/-- A SELECT that does not fail finds the row that is there. -/
theorem select_of_unfailing {key : UserKey} {choice : Choice} {met : World}
    (goes : Unfailing (.sql (.select key), choice, met)) :
    (perform (.sql (.select key)) choice met).1 = .ok (met.users.find key) := by
  cases settled : choice.outcome with
  | done =>
    simp only [perform, settled]
    rfl
  | failed | lost =>
    simp only [Unfailing, perform, settled] at goes
    cases goes

/-- A GETDEL that does not fail finds the text that is there. -/
theorem getDel_of_unfailing {key : String} {choice : Choice} {met : World}
    (goes : Unfailing (.redis (.getDel key), choice, met)) : ∃ value, met.redis.textAt met.clock key = some value ∧
      (perform (.redis (.getDel key)) choice met).1 = .ok value := by
  cases settled : choice.outcome with
  | done =>
    rcases found : met.redis.textAt met.clock key with _ | value
    · simp only [Unfailing, perform, settled, Keyspace.Command.run, found] at goes
      cases goes
    · refine ⟨value, rfl, ?_⟩
      simp only [perform, settled, Keyspace.Command.run, found]
      cases value <;> rfl
  | failed | lost =>
    simp only [Unfailing, perform, settled] at goes
    cases goes

theorem served_login (password : String) (moment : Op × Choice × World) :
    Served (loginWants d password) (takenAt moment) ↔ Unfailing moment ∧
      ∀ key, moment.1 = .sql (.select key) → ∃ row, moment.2.2.users.find key = some row ∧
        AuthService.verifyPassword d password row.password = .ok true := by
  obtain ⟨op, choice, met⟩ := moment
  refine and_congr_right fun goes => ?_
  have others : (∀ answer, loginWants d password op answer = true) → (∀ key, op ≠ .sql (.select key)) →
      (loginWants d password op (perform op choice met).1 = true ↔
        ∀ key, op = .sql (.select key) → ∃ row, met.users.find key = some row ∧
          AuthService.verifyPassword d password row.password = .ok true) := fun any other =>
    iff_of_true (any _) fun key same => (other key same).elim
  cases op with
  | sql s =>
    cases s with
    | select key =>
      show loginWants d password (.sql (.select key)) (perform (.sql (.select key)) choice met).1 = true ↔ _
      rw [select_of_unfailing goes]
      simp only [Op.sql.injEq, UserStmt.select.injEq, forall_eq']
      cases found : met.users.find key with
      | none => simp [loginWants]
      | some row => cases verifies : AuthService.verifyPassword d password row.password <;> simp [loginWants, verifies]
    | insert user => exact others (fun _ => rfl) fun key same => by cases same
    | updatePassword id stored => exact others (fun _ => rfl) fun key same => by cases same
  | _ => exact others (fun _ => rfl) fun key same => by cases same

theorem served_refresh {claims : utils.RefreshTokenClaims} {moment : Op × Choice × World}
    (within : moment.1.Refreshes token_store claims.jti) :
    Served (refreshWants claims.user_id) (takenAt moment) ↔ Unfailing moment ∧
      (moment.1 = token_store.consuming claims.jti →
        moment.2.2.tokenAt moment.2.2.clock token_store claims.jti = some claims.user_id) ∧
      ∀ key, moment.1 = .sql (.select key) → moment.2.2.users.find key ≠ none := by
  obtain ⟨op, choice, met⟩ := moment
  refine and_congr_right fun goes => ?_
  rcases within with plain | rfl | ⟨key, rfl⟩
  · have consumes : op ≠ token_store.consuming claims.jti := by
      rintro rfl
      cases token_store <;> cases plain
    have selects : ∀ key, op ≠ .sql (.select key) := by
      rintro key rfl
      cases plain
    exact iff_of_true (refreshWants_lenient claims.user_id op _ plain)
      ⟨fun same => (consumes same).elim, fun key same => (selects key same).elim⟩
  · cases token_store with
    | InMemory => simp [takenAt, perform, RefreshTokenStore.consuming, refreshWants, MapOp.run, World.tokenAt, belongsTo]
    | Redis =>
      obtain ⟨value, found, answered⟩ := getDel_of_unfailing goes
      show refreshWants claims.user_id (.redis (.getDel (refreshTokenKey claims.jti)))
        (perform (.redis (.getDel (refreshTokenKey claims.jti))) choice met).1 = true ↔ _
      rw [answered]
      simp only [RefreshTokenStore.consuming, World.tokenAt, found]
      cases value <;> simp [refreshWants, belongsTo]
  · have other : Op.sql (.select key) ≠ token_store.consuming claims.jti := fun same => by
      cases token_store <;> cases same
    show refreshWants claims.user_id (.sql (.select key)) (perform (.sql (.select key)) choice met).1 = true ↔ _
    rw [select_of_unfailing goes]
    simp only [Op.sql.injEq, UserStmt.select.injEq, forall_eq', other, false_imp_iff, true_and]
    cases found : met.users.find key <;> simp [refreshWants]

/-- The answers a call got that gives tokens. -/
def GrantsAnswered (d : Deployment) : Call → List (Taken interface) → Prop
  | .login payload, past => LoginGrants d payload past
  | .refresh payload, past => RefreshGrants d payload past
  | _, _ => False

theorem call_grants (call : Call) : ((backend d token_store).program call).Follows (fun _ _ => True)
    (fun past reply => reply.hasTokens = true ↔ GrantsAnswered d call past) [] := by
  have others : ∀ {α : Type} (program : Program α) (wrap : α → Reply),
      (∀ value, (wrap value).hasTokens = false) → (∀ past, ¬ GrantsAnswered d call past) →
      (program.bind fun value => .done (wrap value)).Follows (fun _ _ => True)
        (fun past reply => reply.hasTokens = true ↔ GrantsAnswered d call past) [] := by
    intro α program wrap none never
    refine (program.follows_free []).bind fun past value _ _ => .done (iff_of_false ?_ (never past))
    rw [none]
    exact Bool.false_ne_true
  cases call with
  | login payload => exact (login_grants payload).bind fun past result _ grants => .done grants
  | refresh payload => exact (refresh_grants payload).bind fun past result _ grants => .done grants
  | register payload => exact others _ _ (fun _ => rfl) fun _ => id
  | logout payload => exact others _ _ (fun _ => rfl) fun _ => id
  | changePassword userId payload => exact others _ _ (fun _ => rfl) fun _ => id

/-- What a refresh takes from its store is the token it has verified. -/
def OwnToken (d : Deployment) (token_store : RefreshTokenStore) : Call → List (Taken interface) → Prop
  | .refresh payload, past => ∀ token time claims, presentedToken payload = some token →
      past.getLast? = some ⟨.now, time⟩ → utils.verified d time token = some claims →
      ∀ taken ∈ past, taken.op.Refreshes token_store claims.jti
  | _, _ => True

theorem refresh_ownToken (payload : Json) :
    (AuthService.refresh d token_store payload).run.Follows (fun _ _ => True)
      (fun past _ => OwnToken d token_store (.refresh payload) past) [] := by
  rcases refresh_run d token_store payload with ⟨failure, absent, ends⟩ | ⟨token, present, goes⟩
  · rw [ends]
    refine .done fun token time claims present => ?_
    rw [absent] at present
    cases present
  · rw [goes]
    refine .call trivial fun time => ?_
    unfold refreshFrom
    cases verifies : utils.verified d time token with
    | none =>
      refine .done fun token' time' claims present' first verifies' => ?_
      cases present.symm.trans present'
      cases first
      rw [verifies] at verifies'
      cases verifies'
    | some claims =>
      have refreshes : (refreshWith d token_store claims).run.Only (Op.Refreshes token_store claims.jti) :=
        refreshes_refreshWith claims
      refine (((refreshes.follows [⟨Op.now, time⟩]).adds).mono ?_).weaken fun _ _ _ => trivial
      rintro past reply _ ⟨_, added, rfl, own⟩ token' time' claims' present' first verifies'
      cases present.symm.trans present'
      rw [List.getLast?_concat] at first
      cases first
      cases verifies.symm.trans verifies'
      exact List.forall_mem_append.mpr ⟨own, List.forall_mem_singleton.mpr (.inl rfl)⟩

theorem call_ownToken (call : Call) : ((backend d token_store).program call).Follows (fun _ _ => True)
    (fun past _ => OwnToken d token_store call past) [] := by
  cases call with
  | refresh payload => exact (refresh_ownToken payload).bind fun past result _ own => .done own
  | _ => exact (Prog.follows_free _ []).mono fun _ _ _ _ => trivial

/-- In terms of the worlds that the operations met. -/
theorem grantsAnswered_iff (call : Call) {trace : Trace}
    (own : OwnToken d token_store call ((trace.map takenAt).reverse)) :
    GrantsAnswered d call ((trace.map takenAt).reverse) ↔ Grants d token_store call trace := by
  have all : ∀ {wanted : Wanted}, (∀ taken ∈ (trace.map takenAt).reverse, Served wanted taken) ↔
      ∀ moment ∈ trace, Served wanted (takenAt moment) := by
    intro wanted
    simp only [List.mem_reverse, List.forall_mem_map]
  cases call with
  | login payload =>
    refine exists_congr fun credentials => and_congr_right fun _ => all.trans ?_
    exact forall_congr' fun moment => imp_congr_right fun _ => served_login credentials.password moment
  | refresh payload =>
    cases trace with
    | nil =>
      refine iff_of_false ?_ ?_
      · rintro ⟨token, time, claims, _, first, _⟩
        cases first
      · rintro ⟨claims, ⟨token, choice, met, rest, _, first, _⟩, _⟩
        cases first
    | cons first rest =>
      obtain ⟨op, choice, met⟩ := first
      have oldest : (((op, choice, met) :: rest).map takenAt).reverse.getLast? =
          some ⟨op, (perform op choice met).1⟩ := by simp [takenAt]
      have each : ∀ token claims, presentedToken payload = some token → op = .now →
          utils.verified d met.clock token = some claims → ((∀ taken ∈ (((op, choice, met) :: rest).map
            takenAt).reverse, Served (refreshWants claims.user_id) taken) ↔
          ∀ moment ∈ (op, choice, met) :: rest, Unfailing moment ∧
            (moment.1 = token_store.consuming claims.jti →
              moment.2.2.tokenAt moment.2.2.clock token_store claims.jti = some claims.user_id) ∧
            ∀ key, moment.1 = .sql (.select key) → moment.2.2.users.find key ≠ none) := by
        rintro token claims present rfl verifies
        have within := own token met.clock claims present oldest verifies
        refine all.trans (forall_congr' fun moment => imp_congr_right fun member => served_refresh ?_)
        exact within (takenAt moment) (List.mem_reverse.mpr (List.mem_map_of_mem member))
      constructor
      · rintro ⟨token, time, claims, present, latest, verifies, served⟩
        cases oldest.symm.trans latest
        exact ⟨claims, ⟨token, choice, met, rest, present, rfl, verifies⟩,
          (each token claims present rfl verifies).mp served⟩
      · rintro ⟨claims, ⟨token, choice', met', rest', present, same, verifies⟩, goes⟩
        cases same
        exact ⟨token, met.clock, claims, present, oldest, verifies,
          (each token claims present rfl verifies).mpr goes⟩
  | _ => exact Iff.rfl

/-- In every run: the calls that start while their user is disabled get no tokens, exactly if none
of them presents and meets all that tokens are given for. The account's being disabled is never asked
about. -/
theorem disabled_refused (d : Deployment) (token_store : RefreshTokenStore) (world : World)
    (labels : List (backend d token_store).Label) :
    (∀ first call rest newer older (reply : Reply), labels = first ++ .start call :: rest →
      Disabled d (run (initial world) first).view.world call →
      (run (initial world) labels).view.log =
        newer ++ .returned (run (initial world) first).next reply :: older →
      reply.hasTokens = false) ↔
    ∀ first call rest newer older (reply : Reply), labels = first ++ .start call :: rest →
      Disabled d (run (initial world) first).view.world call →
      (run (initial world) labels).view.log =
        newer ++ .returned (run (initial world) first).next reply :: older →
      ¬ Grants d token_store call (traceOf (run (initial world) first).next older) := by
  have told : ∀ first call rest newer older (reply : Reply), labels = first ++ .start call :: rest →
      (run (initial world) labels).view.log =
        newer ++ .returned (run (initial world) first).next reply :: older →
      (reply.hasTokens = true ↔ Grants d token_store call (traceOf (run (initial world) first).next older)) := by
    rintro first call rest newer older reply rfl split
    obtain ⟨granted, own⟩ := promised_reply (fun call => (call_grants call).and (call_ownToken call)) split
    have genuine : AllGenuine older := fun event member =>
      allGenuine_run world _ event (split ▸ List.mem_append_right _ (List.mem_cons_of_mem _ member))
    rw [history_eq genuine] at granted own
    exact granted.trans (grantsAnswered_iff call own)
  constructor
  · intro refused first call rest newer older reply started disabled split grants
    have granted := (told first call rest newer older reply started split).mpr grants
    rw [refused first call rest newer older reply started disabled split] at granted
    cases granted
  · intro ungranted first call rest newer older reply started disabled split
    refine Bool.eq_false_iff.mpr fun granted => ?_
    exact ungranted first call rest newer older reply started disabled split
      ((told first call rest newer older reply started split).mp granted)

/-! ## A disabled account -/

/-- Tokens are their ids, and all are user 1's; a password is its own digest. -/
def plainDeployment : Deployment where
  pbkdf2 plain _ _ _ _ := some (Vector.ofFn fun i => plain.getD i 0)
  sign payload := (utils.claimString payload "jti").getD ""
  verify _ token := some (utils.refreshPayload 1 token 0 0)
  jwt := .object []

def alice : UserRow :=
  ⟨1, "alice", "alice@example.com", "pbkdf2_sha256$1$00$736563726574", "", "user", true⟩

/-- One user, nothing else. -/
def aliceWorld : World :=
  { World.empty with
    users := ⟨⟨[alice], 2, by decide, by decide⟩, by decide⟩ }

def aliceLogin : Json := .object [("username", .string "alice"), ("password", .string "secret")]

/-- The id of a token made from zeros. -/
def zeroJti : String := utils.uuid fun _ => 0

/-- A login, and the account is disabled. -/
def disabling : List (backend plainDeployment .InMemory).Label :=
  .start (.login aliceLogin) :: List.replicate 8 (.act 0 {}) ++ [.env (.setEnabled 1 false)]

/-- Afterwards the token is refreshed. -/
def disabledRun : List (backend plainDeployment .InMemory).Label :=
  disabling ++ .start (.refresh (.object [("refresh_token", .string zeroJti)])) ::
    List.replicate 10 (.act 1 { bytes := fun _ => 1 })

/-- Whose reply ends a log, and whether it has tokens. -/
def lastReply (log : List (backend plainDeployment .InMemory).Entry) : Option (Nat × Bool) :=
  match log with
  | .returned pid reply :: _ => some (pid, Reply.hasTokens reply)
  | _ => none

theorem lastReply_eq {log : List (backend plainDeployment .InMemory).Entry} {pid : Nat} {tokens : Bool}
    (last : lastReply log = some (pid, tokens)) :
    ∃ (reply : Reply) (older : List (backend plainDeployment .InMemory).Entry),
      log = [] ++ .returned pid reply :: older ∧ reply.hasTokens = tokens := by
  unfold lastReply at last
  split at last
  · rename_i reply older
    simp only [Option.some.injEq, Prod.mk.injEq] at last
    obtain ⟨rfl, rfl⟩ := last
    exact ⟨reply, older, rfl, rfl⟩
  · cases last

/-- A refresh gives tokens to an account that was disabled before it started. -/
theorem disabled_granted : ¬ ∀ first call rest newer older (reply : Reply),
    disabledRun = first ++ .start call :: rest →
    Disabled plainDeployment (run (initial aliceWorld) first).view.world call →
    (run (initial aliceWorld) disabledRun).view.log =
      newer ++ .returned (run (initial aliceWorld) first).next reply :: older →
    reply.hasTokens = false := by
  intro claim
  have last : lastReply (run (initial aliceWorld) disabledRun).view.log =
      some ((run (initial aliceWorld) disabling).next, true) := by decide +kernel
  have gone : (run (initial aliceWorld) disabling).view.world.users.find (.id 1) =
      some { alice with enabled := false } := by decide +kernel
  have verifies : utils.verified plainDeployment 0 zeroJti = some ⟨1, zeroJti⟩ := by decide +kernel
  obtain ⟨reply, older, split, tokens⟩ := lastReply_eq last
  have refused := claim disabling _ _ [] older reply rfl
    ⟨zeroJti, 0, ⟨1, zeroJti⟩, _, by decide +kernel, verifies, gone, rfl⟩ split
  rw [tokens] at refused
  cases refused

end Text2Image.Auth
