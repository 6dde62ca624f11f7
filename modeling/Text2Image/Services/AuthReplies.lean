import Text2Image.Services.AuthService

/-! What the replies of the authentication service tell of the operations behind them:
a login or a refresh gives tokens exactly if each of its operations is answered, and
answered as it has to be.
-/

set_option autoImplicit false

namespace Text2Image.Auth

open Concurrency Concurrency.Prog

/-- The caller of the operation is told of no failure. -/
def Op.answered : (op : Op) → Answer op → Bool
  | .sql _, answer => answer.isOk
  | .salt, answer => answer.isSome
  | .redisAvailable, available => available
  | .redis _, reply => reply.isOk
  | .now, _ | .random, _ | .map _, _ => true

/-- What the answers to some operations have to be. -/
abbrev Wanted := (op : Op) → Answer op → Bool

/-- The operation is answered, and as wanted. -/
def Served (wanted : Wanted) (taken : Taken interface) : Prop :=
  taken.op.answered taken.answer = true ∧ wanted taken.op taken.answer = true

instance (wanted : Wanted) (taken : Taken interface) : Decidable (Served wanted taken) :=
  inferInstanceAs (Decidable (_ ∧ _))

/-- Operations any answer to which will do. -/
def Op.plain : Op → Bool
  | .sql _ | .salt | .redis (.getDel _) | .map (.consume _) => false
  | _ => true

def Wanted.Lenient (wanted : Wanted) : Prop := ∀ op answer, op.plain = true → wanted op answer = true

/-! ## Programs that fail only if an operation does -/

abbrev Faithful (wanted : Wanted) {ε α : Type} (program : Fallible interface ε α) : Prop :=
  Fallible.Faithful (Served wanted) program

/-- Nothing but questions that are always answered. -/
abbrev Quiet (wanted : Wanted) {α : Type} (program : Program α) : Prop :=
  Reports (I := interface) (Served wanted) (fun _ => True) program

variable {d : Deployment} {token_store : RefreshTokenStore} {wanted : Wanted}

theorem Quiet.call {α : Type} {op : Op} {next : Answer op → Program α} (lenient : wanted.Lenient)
    (plain : op.plain = true) (always : ∀ answer, op.answered answer = true)
    (rest : ∀ answer, Quiet wanted (next answer)) : Quiet wanted (.call op next : Program α) :=
  Reports.call (I := interface) _ (fun answer _ => rest answer) fun answer refused =>
    (refused ⟨always answer, lenient op answer plain⟩).elim

theorem quiet_now {α : Type} {next : TimePoint → Program α} (lenient : wanted.Lenient)
    (rest : ∀ time, Quiet wanted (next time)) : Quiet wanted (.call .now next : Program α) :=
  .call lenient rfl (fun _ => rfl) rest

theorem quiet_random {α : Type} {next : (Fin 16 → UInt8) → Program α} (lenient : wanted.Lenient)
    (rest : ∀ bytes, Quiet wanted (next bytes)) : Quiet wanted (.call .random next : Program α) :=
  .call lenient rfl (fun _ => rfl) rest

theorem quiet_createToken (lenient : wanted.Lenient) (userId : Int) (username role : String) :
    Quiet wanted (utils.createToken d userId username role) :=
  quiet_now lenient fun _ => quiet_now lenient fun _ => quiet_random lenient fun _ => reports_done trivial

theorem quiet_issueRefreshToken (lenient : wanted.Lenient) (userId : Int) (jti : String) :
    Quiet wanted (utils.issueRefreshToken d userId jti) :=
  quiet_now lenient fun _ => quiet_now lenient fun _ => reports_done trivial

theorem faithful_redis (lenient : wanted.Lenient) (command : Keyspace.Command)
    (plain : (Op.redis command).plain = true) : Faithful wanted (redis command) := by
  refine Reports.call (I := interface) _ (fun answer served => ?_) fun answer refused => misses_done ?_
  · cases answer with
    | error what => exact (Bool.false_ne_true served.1).elim
    | ok reply => exact reports_done trivial
  · cases answer with
    | error what => exact id
    | ok reply => exact (refused ⟨rfl, lenient (.redis command) (.ok reply) plain⟩).elim

theorem reports_guarded {α : Type} {accepted : α → Prop} (lenient : wanted.Lenient)
    {body : Fallible interface String α}
    (reports : Reports (I := interface) (Served wanted) (Fallible.Yields accepted) body.run) :
    Reports (I := interface) (Served wanted) (Fallible.Yields accepted)
      (RedisRefreshTokenStore.guarded body) := by
  refine Reports.call (I := interface) _ (fun available served => ?_) fun available refused => ?_
  · have there : available = true := served.1
    rw [there]
    refine reports.bind (fun result yields => ?_) fun result unwanted => ?_
    · cases result with
      | ok value => exact reports_done yields
      | error error => exact yields.elim
    · cases result with
      | ok value => exact misses_done unwanted
      | error error => exact misses_done id
  · have gone : available = false :=
      Bool.eq_false_iff.mpr fun there => refused ⟨there, lenient .redisAvailable available rfl⟩
    rw [gone]
    exact misses_done id

theorem faithful_store (lenient : wanted.Lenient) (jti : String) (userId ttl : Int) :
    Faithful wanted (ε := ServiceError) (token_store.store jti userId ttl) := by
  cases token_store with
  | Redis =>
    refine reports_guarded lenient ?_
    exact (faithful_redis lenient (.setex ..) rfl).bind fun _ =>
      (faithful_redis lenient (.sadd ..) rfl).bind fun _ => faithful_redis lenient (.expire ..) rfl
  | InMemory =>
    refine Reports.call (I := interface) _ (fun _ _ => reports_done trivial) fun answer refused => ?_
    exact (refused ⟨rfl, lenient (.map (.store jti userId ttl)) answer rfl⟩).elim

theorem faithful_issueTokenPair (lenient : wanted.Lenient) (user : User) :
    Faithful wanted (AuthService.issueTokenPair d token_store user) := by
  refine (Fallible.faithful_always (quiet_random lenient fun _ => reports_done trivial)).bind fun jti => ?_
  refine Fallible.Faithful.bind (Fallible.reports_relabel _ (faithful_store lenient jti user.id _))
    fun _ => ?_
  refine (Fallible.faithful_always (quiet_createToken lenient _ _ _)).bind fun access => ?_
  refine (Fallible.faithful_always (quiet_issueRefreshToken lenient _ _)).bind fun refresh => ?_
  exact Fallible.faithful_ok _

/-! ## Logins -/

/-- The text of a member, as `value(key, "")` reads it. -/
def textOf (payload : Json) (key : String) : Option String :=
  (payload.value key "string" Json.asString "").toOption

structure Credentials where
  key : UserKey
  password : String

/-- The credentials a login presents, if they are there. -/
def presentedCredentials (payload : Json) : Option Credentials := do
  let username ← textOf payload "username"
  let email ← textOf payload "email"
  let password ← textOf payload "password"
  if password.isEmpty || (username.isEmpty && email.isEmpty) then none
  else return ⟨if ! username.isEmpty then .username username else .email email, password⟩

/-- The row a login reads has to fit the password. -/
def loginWants (d : Deployment) (password : String) : Wanted
  | .sql (.select _), .ok (some row) =>
    match AuthService.verifyPassword d password row.password with
    | .ok correct => correct
    | .error _ => false
  | .sql (.select _), _ => false
  | _, _ => true

theorem loginWants_lenient (password : String) : (loginWants d password).Lenient := by
  intro op answer plain
  cases op with
  | sql => cases plain
  | _ => rfl

/-- The answers a login got that gives tokens. -/
def LoginGrants (d : Deployment) (payload : Json) (past : List (Taken interface)) : Prop :=
  ∃ credentials, presentedCredentials payload = some credentials ∧
    ∀ taken ∈ past, Served (loginWants d credentials.password) taken

theorem throwing_bind {α β : Type} (value : β) (next : β → Action α) :
    (throwing (.ok value) >>= next).run = (next value).run := rfl

theorem refuseIf_bind {α : Type} (condition : Bool) (status : Nat) (code message : String)
    (next : Unit → Action α) : (refuseIf condition status code message >>= next).run =
      if condition then .done (.error (.refused ⟨status, code, message, []⟩)) else (next ()).run := by
  cases condition <;> rfl

/-- A login once its user is found. -/
def loginAs (d : Deployment) (token_store : RefreshTokenStore) (password : String) (user : User) :
    Action LoginResult := do
  if ← throwing (AuthService.verifyPassword d password user.password) then
    AuthService.issueTokenPair d token_store user
  else AuthService.invalidCredentials

/-- A login once its credentials are there. -/
def loginWith (d : Deployment) (token_store : RefreshTokenStore) (credentials : Credentials) :
    Action LoginResult := do
  match ← findBy credentials.key with
  | none => AuthService.invalidCredentials
  | some user => loginAs d token_store credentials.password user

/-- A login without credentials fails at once; the others go on from them. -/
theorem login_run (d : Deployment) (token_store : RefreshTokenStore) (payload : Json) :
    (∃ failure, presentedCredentials payload = none ∧
      (AuthService.login d token_store payload).run = .done (.error failure)) ∨
    ∃ credentials, presentedCredentials payload = some credentials ∧
      (AuthService.login d token_store payload).run = (loginWith d token_store credentials).run := by
  unfold AuthService.login AuthService.text presentedCredentials textOf
  cases payload.value "username" "string" Json.asString "" with
  | error what => exact .inl ⟨.thrown what, rfl, rfl⟩
  | ok username =>
    cases payload.value "email" "string" Json.asString "" with
    | error what => exact .inl ⟨.thrown what, rfl, rfl⟩
    | ok email =>
      cases payload.value "password" "string" Json.asString "" with
      | error what => exact .inl ⟨.thrown what, rfl, rfl⟩
      | ok password =>
        simp only [throwing_bind, refuseIf_bind]
        by_cases missing : (password.isEmpty || (username.isEmpty && email.isEmpty)) = true
        · exact .inl ⟨_, if_pos missing, if_pos missing⟩
        · exact .inr ⟨_, if_neg missing, if_neg missing⟩

/-- The row a login reads decides on it. -/
theorem faithful_loginWith (credentials : Credentials) :
    Faithful (loginWants d credentials.password) (loginWith d token_store credentials) := by
  have decides : ∀ row, Served (loginWants d credentials.password)
        ⟨.sql (.select credentials.key), .ok (some row)⟩ ∧
        Faithful (loginWants d credentials.password)
          (loginAs d token_store credentials.password (rowToUser row)) ∨
      ¬ Served (loginWants d credentials.password)
        ⟨.sql (.select credentials.key), .ok (some row)⟩ ∧
        Misses (I := interface) (Fallible.Yields fun _ => True)
          (loginAs d token_store credentials.password (rowToUser row)).run := by
    intro row
    have password : (rowToUser row).password = row.password := rfl
    simp only [Served, loginWants, loginAs, password]
    cases AuthService.verifyPassword d credentials.password row.password with
    | error what => exact .inr ⟨fun served => Bool.false_ne_true served.2, misses_done id⟩
    | ok correct =>
      cases correct with
      | false => exact .inr ⟨fun served => Bool.false_ne_true served.2, misses_done id⟩
      | true =>
        exact .inl ⟨⟨rfl, rfl⟩, faithful_issueTokenPair (loginWants_lenient _) (rowToUser row)⟩
  refine Reports.call (I := interface) (.sql (.select credentials.key)) (fun answer served => ?_) fun answer refused => ?_
  · rcases answer with error | none | row
    · exact (Bool.false_ne_true served.1).elim
    · exact (Bool.false_ne_true served.2).elim
    · exact ((decides row).resolve_right fun refused => refused.1 served).2
  · rcases answer with error | none | row
    · exact misses_done id
    · exact misses_done id
    · exact ((decides row).resolve_left fun granted => refused granted.1).2

/-- A login gives tokens exactly if its credentials are there and all it asks for is served. -/
theorem login_grants (payload : Json) :
    (AuthService.login d token_store payload).run.Follows (fun _ _ => True)
      (fun past reply => reply.isOk = true ↔ LoginGrants d payload past) [] := by
  rcases login_run d token_store payload with
    ⟨failure, absent, ends⟩ | ⟨credentials, present, goes⟩
  · rw [ends]
    refine .done (iff_of_false Bool.false_ne_true ?_)
    rintro ⟨credentials, present, _⟩
    rw [absent] at present
    cases present
  · rw [goes]
    refine (faithful_loginWith credentials []).mono fun past reply _ => ?_
    rintro ⟨added, rfl, reported⟩
    rw [List.append_nil]
    have same : LoginGrants d payload added ↔
        ∀ taken ∈ added, Served (loginWants d credentials.password) taken := by
      constructor
      · rintro ⟨other, present', all⟩
        cases present.symm.trans present'
        exact all
      · exact fun all => ⟨credentials, present, all⟩
    rw [same, ← reported]
    cases reply <;> simp [Except.isOk, Except.toBool, Fallible.Yields]

/-! ## Refreshes -/

/-- The token a refresh presents, if there is one. -/
def presentedToken (payload : Json) : Option String := do
  let refreshToken ← textOf payload "refresh_token"
  if refreshToken.isEmpty then none else return refreshToken

def belongsTo (userId : Int) (stored : Option Int) : Bool := decide (stored = some userId)

theorem belongsTo_iff {userId : Int} {stored : Option Int} :
    belongsTo userId stored = true ↔ stored = some userId := decide_eq_true_iff

/-- A refresh has to find its token live, and the user it was given to. -/
def refreshWants (userId : Int) : Wanted
  | .redis (.getDel _), .ok (some text) => belongsTo userId (stoll text)
  | .redis (.getDel _), _ => false
  | .map (.consume _), stored => belongsTo userId stored
  | .sql (.select _), .ok found => found.isSome
  | .sql (.select _), .error _ => false
  | _, _ => true

theorem refreshWants_lenient (userId : Int) : (refreshWants userId).Lenient := by
  intro op answer plain
  cases op with
  | sql => cases plain
  | redis command =>
    cases command with
    | getDel => cases plain
    | _ => rfl
  | map op =>
    cases op with
    | consume => cases plain
    | _ => rfl
  | _ => rfl

theorem reports_readUserId {α : Type} {accepted : α → Prop} (userId : Int) {text : String}
    {next : Int → Fallible interface String α} (served : Taken interface → Prop)
    (goes : Reports (I := interface) served (Fallible.Yields accepted) (next userId).run)
    (read : stoll text = some userId) :
    Reports (I := interface) served (Fallible.Yields accepted)
      (RedisRefreshTokenStore.readUserId text >>= next).run := by
  rw [RedisRefreshTokenStore.readUserId, read]
  exact goes

theorem reports_consume (userId : Int) (jti : String) :
    Reports (I := interface) (Served (refreshWants userId)) (Fallible.Yields (· = some userId))
      (token_store.consume jti) := by
  have lenient := refreshWants_lenient userId
  cases token_store with
  | Redis =>
    refine reports_guarded lenient ?_
    refine Reports.call (I := interface) (.redis (.getDel (refreshTokenKey jti)))
      (fun reply served => ?_) fun reply refused => ?_
    · rcases reply with what | none | text
      · exact (Bool.false_ne_true served.1).elim
      · exact (Bool.false_ne_true served.2).elim
      · refine reports_readUserId userId _ ?_ (belongsTo_iff.mp served.2)
        refine Fallible.Faithful.bind (faithful_redis lenient (.srem ..) rfl) fun _ => ?_
        exact reports_done rfl
    · rcases reply with what | none | text
      · exact misses_done id
      · exact misses_done nofun
      · have other : stoll text ≠ some userId := fun same => refused ⟨rfl, belongsTo_iff.mpr same⟩
        show Misses (I := interface) _ (RedisRefreshTokenStore.readUserId text >>= fun userId => do
          redis (.srem (userRefreshSetKey userId) jti)
          return some userId).run
        rw [RedisRefreshTokenStore.readUserId]
        cases read : stoll text with
        | none => exact misses_done id
        | some stored =>
          intro past
          refine .call trivial fun reply => ?_
          cases reply with
          | error what => exact .done id
          | ok _ => exact .done fun same => other (read.trans same)
  | InMemory =>
    refine Reports.call (I := interface) (.map (.consume jti)) (fun stored served => ?_)
      fun stored refused => misses_done ?_
    · exact reports_done (belongsTo_iff.mp served.2)
    · exact fun same => refused ⟨rfl, belongsTo_iff.mpr same⟩

/-- A refresh once its token has been verified. -/
def refreshWith (d : Deployment) (token_store : RefreshTokenStore) (claims : utils.RefreshTokenClaims) :
    Action RefreshResult := do
  let storedUserId ← service (token_store.consume claims.jti)
  refuseIf (storedUserId ≠ some claims.user_id) 401 "refresh_token_revoked"
    "refresh token has been revoked"
  match ← findBy (.id claims.user_id) with
  | none => refuse 401 "invalid_refresh_token" "invalid refresh token"
  | some user =>
    if user.enabled then AuthService.issueTokenPair d token_store user
    else refuse 401 "invalid_refresh_token" "invalid refresh token"

theorem refuseIf_bind' {α : Type} {condition : Bool} {status : Nat} {code message : String}
    {next : Unit → Action α} {served : Taken interface → Prop} {accepted : α → Prop}
    (passes : condition = false)
    (goes : Reports (I := interface) served (Fallible.Yields accepted) (next ()).run) :
    Reports (I := interface) served (Fallible.Yields accepted)
      (refuseIf condition status code message >>= next).run := by
  rw [refuseIf_bind, passes]
  exact goes

theorem faithful_refreshWith (claims : utils.RefreshTokenClaims) :
    Faithful (refreshWants claims.user_id) (refreshWith d token_store claims) := by
  have lenient := refreshWants_lenient claims.user_id
  refine Fallible.reports_bind (Fallible.reports_relabel _ (reports_consume claims.user_id claims.jti)) ?_ ?_
  · intro stored same
    refine refuseIf_bind' (by simp [same]) ?_
    refine Reports.call (I := interface) (.sql (.select (.id claims.user_id)))
      (fun answer served => ?_) fun answer refused => ?_
    · rcases answer with error | none | row
      · exact (Bool.false_ne_true served.1).elim
      · exact (Bool.false_ne_true served.2).elim
      · exact faithful_issueTokenPair lenient (rowToUser row)
    · rcases answer with error | none | row
      · exact misses_done id
      · exact misses_done id
      · exact (refused ⟨rfl, rfl⟩).elim
  · intro stored other
    have revoked : decide (stored ≠ some claims.user_id) = true := decide_eq_true other
    rw [refuseIf_bind, revoked]
    exact misses_done id

/-- A request without a token fails at once; the others go on to verify theirs. -/
theorem presentedClaims_run (payload : Json) :
    (∃ failure, presentedToken payload = none ∧
      (AuthService.presentedClaims d payload).run = .done (.error failure)) ∨
    ∃ token, presentedToken payload = some token ∧
      (AuthService.presentedClaims d payload).run =
        (service (utils.verifyRefreshToken d token)).run := by
  unfold AuthService.presentedClaims AuthService.text presentedToken textOf
  cases payload.value "refresh_token" "string" Json.asString "" with
  | error what => exact .inl ⟨.thrown what, rfl, rfl⟩
  | ok token =>
    simp only [throwing_bind, refuseIf_bind]
    by_cases missing : token.isEmpty = true
    · exact .inl ⟨_, if_pos missing, if_pos missing⟩
    · exact .inr ⟨token, if_neg missing, if_neg missing⟩

/-- A refresh once the time is known at which its token is verified. -/
def refreshFrom (d : Deployment) (token_store : RefreshTokenStore) (token : String) (time : TimePoint) :
    Program (Except Failure RefreshResult) :=
  match utils.verified d time token with
  | some claims => (refreshWith d token_store claims).run
  | none => .done (.error (.refused ⟨401, "invalid_refresh_token", "invalid refresh token", []⟩))

theorem refresh_run (d : Deployment) (token_store : RefreshTokenStore) (payload : Json) :
    (∃ failure, presentedToken payload = none ∧
      (AuthService.refresh d token_store payload).run = .done (.error failure)) ∨
    ∃ token, presentedToken payload = some token ∧
      (AuthService.refresh d token_store payload).run = .call .now (refreshFrom d token_store token) := by
  unfold AuthService.refresh
  rw [Fallible.run_bind]
  rcases presentedClaims_run (d := d) payload with ⟨failure, absent, ends⟩ | ⟨token, present, goes⟩
  · exact .inl ⟨failure, absent, by rw [ends]; rfl⟩
  · refine .inr ⟨token, present, ?_⟩
    rw [goes]
    refine congrArg (Prog.call (I := interface) Op.now) (funext fun time => ?_)
    simp only [refreshFrom, Prog.bind]
    cases utils.verified d time token <;> rfl

/-- The answers a refresh got that gives tokens; the oldest tells when it verified its token. -/
def RefreshGrants (d : Deployment) (payload : Json) (past : List (Taken interface)) : Prop :=
  ∃ token time claims, presentedToken payload = some token ∧ past.getLast? = some ⟨.now, time⟩ ∧
    utils.verified d time token = some claims ∧
    ∀ taken ∈ past, Served (refreshWants claims.user_id) taken

/-- A refresh gives tokens exactly if its token verifies and all it asks for is served. -/
theorem refresh_grants (payload : Json) :
    (AuthService.refresh d token_store payload).run.Follows (fun _ _ => True)
      (fun past reply => reply.isOk = true ↔ RefreshGrants d payload past) [] := by
  rcases refresh_run d token_store payload with
    ⟨failure, absent, ends⟩ | ⟨token, present, goes⟩
  · rw [ends]
    refine .done (iff_of_false Bool.false_ne_true ?_)
    rintro ⟨token, time, claims, present, _⟩
    rw [absent] at present
    cases present
  · rw [goes]
    refine .call trivial fun time => ?_
    unfold refreshFrom
    cases verifies : utils.verified d time token with
    | none =>
      refine .done (iff_of_false Bool.false_ne_true ?_)
      rintro ⟨other, time', claims, present', first, verifies', _⟩
      cases present.symm.trans present'
      cases first
      rw [verifies] at verifies'
      cases verifies'
    | some claims =>
      refine (faithful_refreshWith claims _).mono fun past reply _ => ?_
      rintro ⟨added, rfl, reported⟩
      have same : RefreshGrants d payload (added ++ [⟨.now, time⟩]) ↔
          ∀ taken ∈ added, Served (refreshWants claims.user_id) taken := by
        constructor
        · rintro ⟨other, time', claims', present', first, verifies', all⟩
          cases present.symm.trans present'
          rw [List.getLast?_concat] at first
          cases first
          cases verifies.symm.trans verifies'
          exact fun taken member => all taken (List.mem_append_left _ member)
        · intro all
          refine ⟨token, time, claims, present, List.getLast?_concat, verifies, ?_⟩
          rw [List.forall_mem_append, List.forall_mem_singleton]
          exact ⟨all, rfl, rfl⟩
      rw [same, ← reported]
      cases reply <;> simp [Except.isOk, Except.toBool, Fallible.Yields]

/-! ## Changes of passwords -/

/-- The new password has to be hashed, and the row has to be there. -/
def changeWants (d : Deployment) (newPassword : String) : Wanted
  | .salt, salt => (security.hashPassword d.pbkdf2 salt (utf8 newPassword)).isOk
  | .sql (.updatePassword ..), .ok updated => updated
  | .sql (.updatePassword ..), .error _ => false
  | _, _ => true

theorem changeWants_lenient (newPassword : String) : (changeWants d newPassword).Lenient := by
  intro op answer plain
  cases op with
  | sql => cases plain
  | salt => cases plain
  | _ => rfl

theorem faithful_delEach (lenient : wanted.Lenient) (jtis : List String) :
    Faithful wanted (RedisRefreshTokenStore.delEach jtis) := by
  induction jtis with
  | nil => exact Fallible.faithful_ok ()
  | cons jti rest ih => exact (faithful_redis lenient (.del (refreshTokenKey jti)) rfl).bind fun _ => ih

theorem faithful_revokeUser (lenient : wanted.Lenient) (userId : Int) :
    Faithful wanted (ε := ServiceError) (token_store.revokeUser userId) := by
  cases token_store with
  | Redis =>
    refine reports_guarded lenient ?_
    refine (faithful_redis lenient (.smembers (userRefreshSetKey userId)) rfl).bind fun members => ?_
    refine (faithful_delEach lenient members).bind fun _ => ?_
    exact (faithful_redis lenient (.del (userRefreshSetKey userId)) rfl).bind fun _ => reports_done trivial
  | InMemory =>
    refine Reports.call (I := interface) _ (fun _ _ => reports_done trivial) fun answer refused => ?_
    exact (refused ⟨rfl, lenient (.map (.revokeUser userId)) answer rfl⟩).elim

theorem faithful_hashPassword (newPassword : String) :
    Faithful (changeWants d newPassword) (AuthService.hashPassword d newPassword) := by
  refine Reports.call (I := interface) .salt (fun salt served => ?_) fun salt refused => ?_
  · have hashes : (security.hashPassword d.pbkdf2 salt (utf8 newPassword)).isOk = true := served.2
    show Reports (I := interface) _ _ (throwing (security.hashPassword d.pbkdf2 salt (utf8 newPassword)) >>=
      fun stored => (pure (String.ofList (stored.map charOf)) : Action String)).run
    cases hashed : security.hashPassword d.pbkdf2 salt (utf8 newPassword) with
    | error what =>
      rw [hashed] at hashes
      cases hashes
    | ok stored => exact reports_done trivial
  · show Misses (I := interface) _ (throwing (security.hashPassword d.pbkdf2 salt (utf8 newPassword)) >>=
      fun stored => (pure (String.ofList (stored.map charOf)) : Action String)).run
    cases hashed : security.hashPassword d.pbkdf2 salt (utf8 newPassword) with
    | error what => exact misses_done id
    | ok stored =>
      refine (refused ⟨?_, ?_⟩).elim
      · cases salt with
        | none => cases hashed
        | some salt => rfl
      · show (security.hashPassword d.pbkdf2 salt (utf8 newPassword)).isOk = true
        rw [hashed]
        rfl

/-- A change of password once the old one has been found correct. -/
def changeWith (d : Deployment) (token_store : RefreshTokenStore) (userId : Int) (newPassword : String) :
    Action Unit := do
  service (token_store.revokeUser userId)
  let updated ← repo (.updatePassword userId (← AuthService.hashPassword d newPassword))
  refuseIf (! updated) 404 "user_not_found" "user not found"

theorem faithful_changeWith (userId : Int) (newPassword : String) :
    Faithful (changeWants d newPassword) (changeWith d token_store userId newPassword) := by
  have lenient := changeWants_lenient (d := d) newPassword
  refine Fallible.Faithful.bind (Fallible.reports_relabel _ (faithful_revokeUser lenient userId)) fun _ => ?_
  refine (faithful_hashPassword newPassword).bind fun stored => ?_
  refine Reports.call (I := interface) (.sql (.updatePassword userId stored))
    (fun answer served => ?_) fun answer refused => ?_
  · rcases answer with error | updated
    · exact (Bool.false_ne_true served.1).elim
    · have there : updated = true := served.2
      rw [there]
      exact reports_done trivial
  · rcases answer with error | updated
    · exact misses_done id
    · cases updated with
      | false => exact misses_done id
      | true => exact (refused ⟨rfl, rfl⟩).elim

/-- A change of password once the request has been read. -/
def changeFor (d : Deployment) (token_store : RefreshTokenStore) (userId : Int)
    (oldPassword newPassword : String) : Action Unit := do
  let user ← AuthService.getProfile userId
  let correct ← throwing (AuthService.verifyPassword d oldPassword user.password)
  refuseIf (! correct) 401 "invalid_password" "old password is incorrect"
  changeWith d token_store userId newPassword

theorem changePassword_run (d : Deployment) (token_store : RefreshTokenStore) (userId : Int)
    (payload : Json) :
    (∃ failure, (AuthService.changePassword d token_store userId payload).run = .done (.error failure)) ∨
    ∃ oldPassword newPassword, textOf payload "new_password" = some newPassword ∧
      (AuthService.changePassword d token_store userId payload).run =
        (changeFor d token_store userId oldPassword newPassword).run := by
  unfold AuthService.changePassword AuthService.text textOf
  cases payload.value "old_password" "string" Json.asString "" with
  | error what => exact .inl ⟨.thrown what, rfl⟩
  | ok oldPassword =>
    cases payload.value "new_password" "string" Json.asString "" with
    | error what => exact .inl ⟨.thrown what, rfl⟩
    | ok newPassword =>
      simp only [throwing_bind, refuseIf_bind]
      split
      · exact .inl ⟨_, rfl⟩
      · split
        · exact .inl ⟨_, rfl⟩
        · exact .inr ⟨oldPassword, newPassword, rfl, rfl⟩

theorem faithful_findBy {key : UserKey} (any : ∀ answer, wanted (.sql (.select key)) answer = true) :
    Faithful wanted (findBy key) := by
  refine Reports.call (I := interface) (.sql (.select key)) (fun answer served => ?_)
    fun answer refused => ?_
  · rcases answer with error | found
    · exact (Bool.false_ne_true served.1).elim
    · exact reports_done trivial
  · rcases answer with error | found
    · exact misses_done id
    · exact (refused ⟨rfl, any _⟩).elim

theorem sound_refuseIf {condition : Bool} {status : Nat} {code message : String} :
    Sound (I := interface) (Served wanted) (Fallible.Yields fun _ => True)
      (refuseIf condition status code message).run := by
  cases condition <;> exact sound_done _

/-- No password is changed unless all that is asked for is served. -/
theorem sound_changeFor (userId : Int) (oldPassword newPassword : String) :
    Sound (I := interface) (Served (changeWants d newPassword)) (Fallible.Yields fun _ => True)
      (changeFor d token_store userId oldPassword newPassword).run := by
  have profile : Sound (I := interface) (Served (changeWants d newPassword))
      (Fallible.Yields fun _ => True) (AuthService.getProfile userId).run := by
    refine Fallible.sound_bind sound_refuseIf fun _ => ?_
    refine Fallible.sound_bind (faithful_findBy fun _ => rfl).sound fun user => ?_
    cases user <;> exact sound_done _
  refine Fallible.sound_bind profile fun user => ?_
  refine Fallible.sound_bind (sound_done _) fun correct => ?_
  refine Fallible.sound_bind sound_refuseIf fun _ => ?_
  exact (faithful_changeWith userId newPassword).sound

end Text2Image.Auth
