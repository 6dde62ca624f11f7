import Text2Image.Frontend.AuthSession

/-! How often a refresh token is spent. -/

set_option autoImplicit false

namespace Text2Image.session.Tab

variable {exp : String → Option Rat}

/-! ## Answers of the backend -/

/-- The refresh token that an answer brings; the empty text stands for none. -/
def Step.brings : Step → String
  | .refreshAnswered (some payload) | .respond _ (.success payload) => payload.refreshToken
  | _ => ""

/-- The refresh tokens that the backend has issued, the one the tab was opened with included. -/
def issued (start : Tab) (steps : List Step) : List String :=
  steps.map Step.brings ++ [start.storage.refreshToken]

/-- Every refresh succeeds, with both tokens. -/
def Step.succeeds : Step → Bool
  | .refreshAnswered none => false
  | .refreshAnswered (some payload) => ! payload.accessToken.isEmpty ∧ ! payload.refreshToken.isEmpty
  | _ => true

/-- The backend issues no token twice, and every refresh succeeds. -/
def Honest (start : Tab) : List Step → Prop
  | [] => True
  | step :: past =>
    (step.succeeds = true ∧ (step.brings = "" ∨ step.brings ∉ issued start past)) ∧ Honest start past

instance (start : Tab) (steps : List Step) : Decidable (Honest start steps) := by
  induction steps with
  | nil => exact inferInstanceAs (Decidable True)
  | cons step past ih => exact inferInstanceAs (Decidable (_ ∧ _))

/-! ## The invariant -/

/-- No token has been posted twice, and unless a refresh is about to replace it, the stored one has not
been posted at all.
-/
structure Unspent (tab : Tab) (issued : List String) : Prop where
  once : tab.posted.Nodup
  inked : "" ∉ tab.posted
  known : ∀ token ∈ tab.posted, token ∈ issued
  held : tab.storage.refreshToken = "" ∨ tab.storage.refreshToken ∈ issued
  fresh : (tab.refreshPromise = none ∨ ∃ result, tab.refreshPromise = some (.stored result)) →
    tab.storage.refreshToken ∉ tab.posted
  answered : ∀ answer, tab.refreshPromise = some (.answered answer) → ∃ payload, answer = some payload ∧
    payload.accessToken ≠ "" ∧ payload.refreshToken ≠ "" ∧ payload.refreshToken ∈ issued ∧
    payload.refreshToken ∉ tab.posted

variable {tab : Tab} {issued : List String}

theorem Unspent.weaken {more : List String} (unspent : tab.Unspent issued) (within : issued ⊆ more) :
    tab.Unspent more where
  once := unspent.once
  inked := unspent.inked
  known token member := within (unspent.known token member)
  held := unspent.held.imp_right fun member => within member
  fresh := unspent.fresh
  answered answer equal := by
    obtain ⟨payload, same, access, refresh, member, unposted⟩ := unspent.answered answer equal
    exact ⟨payload, same, access, refresh, within member, unposted⟩

/-- At most the stored token is removed. -/
structure Lets (tab other : Tab) : Prop where
  posted : other.posted = tab.posted
  refreshPromise : other.refreshPromise = tab.refreshPromise
  storage : other.storage.refreshToken = tab.storage.refreshToken ∨ other.storage.refreshToken = ""

theorem Unspent.of_lets {other : Tab} (unspent : tab.Unspent issued) (lets : Lets tab other) :
    other.Unspent issued where
  once := lets.posted ▸ unspent.once
  inked := lets.posted ▸ unspent.inked
  known := lets.posted ▸ unspent.known
  held := by
    rcases lets.storage with same | cleared
    · exact same ▸ unspent.held
    · exact .inl cleared
  fresh idle := by
    rw [lets.refreshPromise] at idle
    rw [lets.posted]
    rcases lets.storage with same | cleared
    · exact same ▸ unspent.fresh idle
    · exact cleared ▸ unspent.inked
  answered answer equal := by
    rw [lets.refreshPromise] at equal
    rw [lets.posted]
    exact unspent.answered answer equal

theorem lets_setPhase (i : Nat) (phase : Phase) : Lets tab (tab.setPhase i phase) := ⟨rfl, rfl, .inl rfl⟩

theorem lets_redirectToLogin : Lets tab tab.redirectToLogin := ⟨rfl, rfl, .inr rfl⟩

theorem lets_resetAuthState : Lets tab tab.resetAuthState := ⟨rfl, rfl, .inr rfl⟩

/-! ## Requests -/

/-- Where no refresh is under way, the stored token is posted for the first time. -/
theorem Unspent.awaitRefresh (unspent : tab.Unspent issued) (i : Nat) (answered : Bool) :
    (tab.awaitRefresh exp i answered).Unspent issued := by
  unfold Tab.awaitRefresh refreshAccessToken
  by_cases pending : tab.refreshPromise.isSome = true
  · simp only [pending, if_true]
    exact unspent.of_lets (lets_setPhase _ _)
  · have idle : tab.refreshPromise = none := by simpa using pending
    rw [if_neg pending]
    by_cases refused : tab.storage.refreshToken.isEmpty = true ∨
        isTokenExpired exp tab.storage.refreshToken tab.now = true
    · simp only [refused, if_true]
      exact unspent.of_lets (lets_setPhase _ _)
    · simp only [refused, if_false]
      have stored : tab.storage.refreshToken ≠ "" := by
        intro empty
        exact refused (.inl (by simp [empty]))
      have member : tab.storage.refreshToken ∈ issued := unspent.held.resolve_left stored
      have posted : Unspent { tab with
          refreshPromise := some .posted, posted := tab.storage.refreshToken :: tab.posted } issued := by
        refine ⟨?_, ?_, ?_, unspent.held, ?_, ?_⟩
        · exact List.nodup_cons.mpr ⟨unspent.fresh (.inl idle), unspent.once⟩
        · intro empty
          rcases List.mem_cons.mp empty with same | older
          · exact stored same.symm
          · exact unspent.inked older
        · intro token posted
          rcases List.mem_cons.mp posted with rfl | older
          · exact member
          · exact unspent.known token older
        · rintro (none | ⟨result, stored⟩)
          · cases none
          · cases stored
        · intro answer equal
          cases equal
      exact posted.of_lets (lets_setPhase _ _)

theorem Unspent.intercept (unspent : tab.Unspent issued) (i : Nat) (request : Request) :
    (tab.intercept exp i request).Unspent issued := by
  unfold Tab.intercept
  dsimp only
  split
  · exact unspent.of_lets (lets_setPhase _ _)
  · split
    · exact unspent.awaitRefresh i false
    · exact unspent.of_lets ⟨rfl, rfl, .inl rfl⟩

theorem Unspent.resume (unspent : tab.Unspent issued) (i : Nat) (answered : Bool) (result : Option String) :
    (tab.resume i answered result).Unspent issued := by
  cases result with
  | none => exact unspent.of_lets ⟨rfl, rfl, .inr rfl⟩
  | some token =>
    unfold Tab.resume
    dsimp only
    split
    · exact unspent.of_lets ⟨rfl, rfl, .inl rfl⟩
    · exact unspent.of_lets ⟨rfl, rfl, .inl rfl⟩

theorem refreshToken_setStoredTokens (storage : Storage) (accessToken : String) {refreshToken : String}
    (inked : refreshToken ≠ "") :
    (storage.setStoredTokens accessToken refreshToken).refreshToken = refreshToken := by
  simp [Storage.setStoredTokens, inked]

/-- A login stores a token of its own, a logout removes the stored one. -/
theorem Unspent.complete (unspent : tab.Unspent issued) (request : Request) (payload : Option AuthPayload)
    (new : ∀ tokens, payload = some tokens → tokens.refreshToken = "" ∨
      (tokens.refreshToken ∈ issued ∧ tokens.refreshToken ∉ tab.posted)) :
    (tab.complete request payload).Unspent issued := by
  unfold Tab.complete
  split
  · rename_i tokens _
    split
    · exact unspent
    · rename_i some
      have inked : tokens.refreshToken ≠ "" := fun empty => some (.inr (by simp [empty]))
      obtain ⟨member, unposted⟩ := (new tokens rfl).resolve_left inked
      have stored : (tab.storage.setStoredAuth tokens.accessToken tokens.refreshToken).refreshToken =
          tokens.refreshToken := refreshToken_setStoredTokens _ tokens.accessToken inked
      refine ⟨unspent.once, unspent.inked, unspent.known, .inr ?_, fun _ => ?_, unspent.answered⟩
      · rw [stored]
        exact member
      · rw [stored]
        exact unposted
  · exact unspent.of_lets lets_resetAuthState
  · exact unspent

theorem Unspent.respond (unspent : tab.Unspent issued) (i : Nat) (request : Request) (answer : Answer)
    (new : ∀ tokens, answer = .success tokens → tokens.refreshToken = "" ∨
      (tokens.refreshToken ∈ issued ∧ tokens.refreshToken ∉ tab.posted)) :
    (tab.respond exp i request answer).Unspent issued := by
  have ended : (tab.setPhase i .ended).Unspent issued := unspent.of_lets (lets_setPhase _ _)
  cases answer with
  | success payload =>
    refine ended.complete request (some payload) fun tokens same => ?_
    rw [← Option.some.inj same]
    exact new payload rfl
  | failure => exact ended.complete request none fun _ none => by cases none
  | unauthorized =>
    unfold Tab.respond
    dsimp only
    split
    · exact unspent.awaitRefresh i true
    · exact (ended.of_lets lets_redirectToLogin).complete request none fun _ none => by cases none

/-! ## The refresh -/

theorem Unspent.storeTokens (unspent : tab.Unspent issued) {payload : Option AuthPayload}
    (answered : tab.refreshPromise = some (.answered payload)) : (tab.storeTokens payload).Unspent issued := by
  obtain ⟨tokens, rfl, access, refresh, member, unposted⟩ := unspent.answered payload answered
  unfold Tab.storeTokens
  dsimp only
  have stored := refreshToken_setStoredTokens tab.storage tokens.accessToken refresh
  rw [if_neg (by simp [access, refresh])]
  refine ⟨unspent.once, unspent.inked, unspent.known, .inr ?_, fun _ => ?_, fun answer equal => by cases equal⟩
  · dsimp only
    rw [stored]
    exact member
  · dsimp only
    rw [stored]
    exact unposted

/-! ## Steps -/

/-- The token that a step brings is a new one, or there is none. -/
theorem Unspent.brought (unspent : tab.Unspent issued) {token : String} (new : token = "" ∨ token ∉ issued) :
    token = "" ∨ (token ∈ token :: issued ∧ token ∉ tab.posted) :=
  new.imp_right fun unissued => ⟨List.mem_cons_self, fun posted => unissued (unspent.known token posted)⟩

theorem Unspent.step (unspent : tab.Unspent issued) (step : Step) (succeeds : step.succeeds = true)
    (new : step.brings = "" ∨ step.brings ∉ issued) : (tab.step exp step).Unspent (step.brings :: issued) := by
  have brought := unspent.brought new
  have unspent := unspent.weaken (List.subset_cons_self step.brings issued)
  cases step with
  | clock now => exact unspent.of_lets ⟨rfl, rfl, .inl rfl⟩
  | call kind => exact unspent.of_lets ⟨rfl, rfl, .inl rfl⟩
  | logout revokeRefreshToken =>
    have either : ∀ token : String, Unspent
        (if revokeRefreshToken ∧ ! token.isEmpty then tab.call (.logout token) else tab.resetAuthState)
        (Step.brings (.logout revokeRefreshToken) :: issued) := by
      intro token
      split
      · exact unspent.of_lets ⟨rfl, rfl, .inl rfl⟩
      · exact unspent.of_lets lets_resetAuthState
    exact either (if tab.store.refreshToken.isEmpty then tab.storage.refreshToken else tab.store.refreshToken)
  | checkAuth =>
    unfold Tab.step Tab.checkAuth
    dsimp only
    split
    · exact unspent.of_lets lets_resetAuthState
    · split
      · exact unspent.of_lets lets_resetAuthState
      · exact unspent.of_lets ⟨rfl, rfl, .inl rfl⟩
  | intercept i =>
    unfold Tab.step
    dsimp only
    split
    · split
      · exact unspent.intercept i _
      · exact unspent
    · exact unspent
  | resume i =>
    unfold Tab.step
    dsimp only
    split
    · split
      · exact unspent.resume i _ _
      · exact unspent
    · exact (unspent.of_lets (lets_setPhase _ _)).of_lets lets_redirectToLogin
    · exact unspent
  | respond i answer =>
    unfold Tab.step
    dsimp only
    split
    · split
      · refine unspent.respond i _ answer fun tokens same => ?_
        subst same
        exact brought
      · exact unspent
    · exact unspent
  | refreshAnswered answer =>
    unfold Tab.step
    dsimp only
    split
    · rename_i posted
      cases answer with
      | none => cases succeeds
      | some payload =>
        obtain ⟨access, refresh⟩ := of_decide_eq_true succeeds
        have refresh : payload.refreshToken ≠ "" := by simpa using refresh
        have access : payload.accessToken ≠ "" := by simpa using access
        obtain ⟨member, unposted⟩ := brought.resolve_left refresh
        refine ⟨unspent.once, unspent.inked, unspent.known, unspent.held, ?_, ?_⟩
        · rintro (none | ⟨result, stored⟩)
          · cases none
          · cases stored
        · intro answer equal
          cases equal
          exact ⟨payload, rfl, access, refresh, member, unposted⟩
    · exact unspent
  | refreshThen =>
    unfold Tab.step
    dsimp only
    split
    · rename_i payload answered
      exact unspent.storeTokens answered
    · exact unspent
  | refreshFinally =>
    unfold Tab.step
    dsimp only
    split
    · rename_i result stored
      refine ⟨unspent.once, unspent.inked, unspent.known, unspent.held, fun _ => ?_, fun answer equal => ?_⟩
      · exact unspent.fresh (.inr ⟨result, stored⟩)
      · cases equal
    · exact unspent

/-! ## Those who wait -/

def awaits : Phase → Bool
  | .waiting _ _ => true
  | _ => false

/-- No refresh has failed, and who waits for one waits for a refresh that is over or under way. -/
structure Supplied (tab : Tab) : Prop where
  settled : none ∉ tab.settled
  stored : tab.refreshPromise ≠ some (.stored none)
  waiting : ∀ request ∈ tab.requests, ∀ flight answered, request.phase = .waiting flight answered →
    flight < tab.settled.length ∨ (flight = tab.settled.length ∧ tab.refreshPromise ≠ none)

/-- The refreshes are the same, and nobody new waits for one. -/
structure Spares (tab other : Tab) : Prop where
  settled : other.settled = tab.settled
  refreshPromise : other.refreshPromise = tab.refreshPromise
  requests : ∀ request ∈ other.requests, request ∈ tab.requests ∨ awaits request.phase = false

theorem Supplied.of_spares {other : Tab} (supplied : tab.Supplied) (spares : Spares tab other) :
    other.Supplied where
  settled := spares.settled ▸ supplied.settled
  stored := spares.refreshPromise ▸ supplied.stored
  waiting request member flight answered waits := by
    rw [spares.settled, spares.refreshPromise]
    rcases spares.requests request member with old | idle
    · exact supplied.waiting request old flight answered waits
    · rw [waits] at idle
      cases idle

theorem Spares.trans {middle other : Tab} (first : Spares tab middle) (second : Spares middle other) :
    Spares tab other where
  settled := second.settled.trans first.settled
  refreshPromise := second.refreshPromise.trans first.refreshPromise
  requests request member := by
    rcases second.requests request member with old | idle
    · exact first.requests request old
    · exact .inr idle

theorem mem_modify {requests : List Request} {i : Nat} {change : Request → Request} {request : Request}
    (member : request ∈ requests.modify i change) :
    request ∈ requests ∨ ∃ old ∈ requests, change old = request := by
  obtain ⟨j, found⟩ := List.mem_iff_getElem?.mp member
  rw [List.getElem?_modify] at found
  obtain ⟨old, present, changed⟩ := Option.map_eq_some_iff.mp found
  have older := List.mem_of_getElem? present
  by_cases same : i = j
  · exact .inr ⟨old, older, by simpa [same] using changed⟩
  · have kept : old = request := by simpa [same] using changed
    exact .inl (kept ▸ older)

/-- Where request `i` comes to wait for nothing. -/
theorem spares_modify {i : Nat} {change : Request → Request} (idle : ∀ request, awaits (change request).phase = false) :
    Spares tab { tab with requests := tab.requests.modify i change } where
  settled := rfl
  refreshPromise := rfl
  requests request member := by
    rcases mem_modify member with old | ⟨old, _, rfl⟩
    · exact .inl old
    · exact .inr (idle old)

theorem spares_call (kind : Kind) : Spares tab (tab.call kind) where
  settled := rfl
  refreshPromise := rfl
  requests request member := by
    rcases List.mem_append.mp member with old | new
    · exact .inl old
    · cases List.mem_singleton.mp new
      exact .inr rfl

theorem spares_of_requests {other : Tab} (settled : other.settled = tab.settled)
    (refreshPromise : other.refreshPromise = tab.refreshPromise) (requests : other.requests = tab.requests) :
    Spares tab other where
  settled := settled
  refreshPromise := refreshPromise
  requests _ member := .inl (requests ▸ member)

theorem spares_ended (i : Nat) : Spares tab (tab.setPhase i .ended) := spares_modify fun _ => rfl

theorem spares_redirectToLogin : Spares tab tab.redirectToLogin := spares_of_requests rfl rfl rfl

theorem spares_resetAuthState : Spares tab tab.resetAuthState := spares_of_requests rfl rfl rfl

theorem spares_complete (request : Request) (payload : Option AuthPayload) :
    Spares tab (tab.complete request payload) := by
  unfold Tab.complete
  split
  · split
    · exact spares_of_requests rfl rfl rfl
    · exact spares_of_requests rfl rfl rfl
  · exact spares_resetAuthState
  · exact spares_of_requests rfl rfl rfl

/-- Who asks for a refresh waits for the one that is under way, or for the one that begins. -/
theorem Supplied.awaitRefresh (supplied : tab.Supplied) (i : Nat) (answered : Bool) :
    (tab.awaitRefresh exp i answered).Supplied := by
  have joins : ∀ begun : Tab, begun.Supplied → begun.refreshPromise ≠ none →
      (begun.setPhase i (.waiting begun.settled.length answered)).Supplied := by
    intro begun supplied pending
    refine ⟨supplied.settled, supplied.stored, fun request member flight answered waits => ?_⟩
    rcases mem_modify member with old | ⟨old, _, rfl⟩
    · exact supplied.waiting request old flight answered waits
    · cases waits
      exact .inr ⟨rfl, pending⟩
  have refused : (tab.setPhase i .refused).Supplied := supplied.of_spares (spares_modify fun _ => rfl)
  unfold Tab.awaitRefresh refreshAccessToken
  by_cases pending : tab.refreshPromise.isSome = true
  · simp only [pending, if_true]
    exact joins tab supplied (Option.isSome_iff_ne_none.mp pending)
  · have idle : tab.refreshPromise = none := by simpa using pending
    rw [if_neg pending]
    by_cases barred : tab.storage.refreshToken.isEmpty = true ∨
        isTokenExpired exp tab.storage.refreshToken tab.now = true
    · simp only [barred, if_true]
      exact refused
    · simp only [barred, if_false]
      refine joins { tab with refreshPromise := some .posted, posted := _ :: tab.posted } ?_ (by simp)
      refine ⟨supplied.settled, by simp, fun request member flight answered waits => ?_⟩
      rcases supplied.waiting request member flight answered waits with ended | ⟨_, pending⟩
      · exact .inl ended
      · exact absurd idle pending

theorem Supplied.intercept (supplied : tab.Supplied) (i : Nat) (request : Request) :
    (tab.intercept exp i request).Supplied := by
  unfold Tab.intercept
  dsimp only
  split
  · exact supplied.of_spares (spares_modify fun _ => rfl)
  · split
    · exact supplied.awaitRefresh i false
    · exact supplied.of_spares (spares_modify fun _ => rfl)

theorem Supplied.resume (supplied : tab.Supplied) (i : Nat) (answered : Bool) (result : Option String) :
    (tab.resume i answered result).Supplied := by
  cases result with
  | none => exact supplied.of_spares ((spares_ended i).trans spares_redirectToLogin)
  | some token =>
    unfold Tab.resume
    dsimp only
    split
    · exact supplied.of_spares (spares_modify fun _ => rfl)
    · exact supplied.of_spares (spares_modify fun _ => rfl)

theorem Supplied.respond (supplied : tab.Supplied) (i : Nat) (request : Request) (answer : Answer) :
    (tab.respond exp i request answer).Supplied := by
  cases answer with
  | success payload => exact supplied.of_spares ((spares_ended i).trans (spares_complete _ _))
  | failure => exact supplied.of_spares ((spares_ended i).trans (spares_complete _ _))
  | unauthorized =>
    unfold Tab.respond
    dsimp only
    split
    · exact supplied.awaitRefresh i true
    · exact supplied.of_spares (((spares_ended i).trans spares_redirectToLogin).trans (spares_complete _ _))

theorem Supplied.storeTokens (supplied : tab.Supplied) (unspent : tab.Unspent issued)
    {payload : Option AuthPayload} (answered : tab.refreshPromise = some (.answered payload)) :
    (tab.storeTokens payload).Supplied := by
  obtain ⟨tokens, rfl, access, refresh, _, _⟩ := unspent.answered payload answered
  unfold Tab.storeTokens
  dsimp only
  rw [if_neg (by simp [access, refresh])]
  refine ⟨supplied.settled, by simp, fun request member flight answered waits => ?_⟩
  exact (supplied.waiting request member flight answered waits).imp_right fun ⟨same, _⟩ => ⟨same, by simp⟩

theorem Supplied.step (supplied : tab.Supplied) (unspent : tab.Unspent issued) (step : Step) :
    (tab.step exp step).Supplied := by
  cases step with
  | clock now => exact supplied.of_spares (spares_of_requests rfl rfl rfl)
  | call kind => exact supplied.of_spares (spares_call kind)
  | logout revokeRefreshToken =>
    show (tab.logout revokeRefreshToken).Supplied
    unfold Tab.logout
    dsimp only
    generalize (if tab.store.refreshToken.isEmpty then tab.storage.refreshToken else tab.store.refreshToken) = token
    split
    · exact supplied.of_spares (spares_call _)
    · exact supplied.of_spares spares_resetAuthState
  | checkAuth =>
    unfold Tab.step Tab.checkAuth
    dsimp only
    split
    · exact supplied.of_spares spares_resetAuthState
    · split
      · exact supplied.of_spares spares_resetAuthState
      · exact supplied.of_spares (spares_of_requests rfl rfl rfl)
  | intercept i =>
    unfold Tab.step
    dsimp only
    split
    · split
      · exact supplied.intercept i _
      · exact supplied
    · exact supplied
  | resume i =>
    unfold Tab.step
    dsimp only
    split
    · split
      · exact supplied.resume i _ _
      · exact supplied
    · exact supplied.of_spares ((spares_ended i).trans spares_redirectToLogin)
    · exact supplied
  | respond i answer =>
    unfold Tab.step
    dsimp only
    split
    · split
      · exact supplied.respond i _ answer
      · exact supplied
    · exact supplied
  | refreshAnswered answer =>
    unfold Tab.step
    dsimp only
    split
    · refine ⟨supplied.settled, by simp, fun request member flight answered waits => ?_⟩
      exact (supplied.waiting request member flight answered waits).imp_right fun ⟨same, _⟩ => ⟨same, by simp⟩
    · exact supplied
  | refreshThen =>
    unfold Tab.step
    dsimp only
    split
    · rename_i payload answered
      exact supplied.storeTokens unspent answered
    · exact supplied
  | refreshFinally =>
    unfold Tab.step
    dsimp only
    split
    · rename_i result stored
      have given : result ≠ none := fun failed => supplied.stored (failed ▸ stored)
      refine ⟨?_, by simp, fun request member flight answered waits => .inl ?_⟩
      · intro failed
        rcases List.mem_append.mp failed with old | new
        · exact supplied.settled old
        · exact given (List.mem_singleton.mp new).symm
      · rw [List.length_append, List.length_singleton]
        rcases supplied.waiting request member flight answered waits with ended | ⟨same, _⟩ <;> omega
    · exact supplied

/-- Request `i`, which waits for a refresh, is not sent to the login page: the refresh is under way, or it
has brought a token that the request goes on with, and the session stays.
-/
def Relieved (exp : String → Option Rat) (tab : Tab) (i flight : Nat) : Prop :=
  (flight = tab.settled.length ∧ tab.refreshPromise ≠ none) ∨
  ∃ token, tab.settled[flight]? = some (some token) ∧
    (tab.step exp (.resume i)).storage = tab.storage ∧ (tab.step exp (.resume i)).store = tab.store ∧
    ((tab.step exp (.resume i)).requests[i]?).map Request.authorization = some token

theorem Supplied.relieved (supplied : tab.Supplied) {i flight : Nat} {answered : Bool} {request : Request}
    (present : tab.requests[i]? = some request) (waits : request.phase = .waiting flight answered) :
    tab.Relieved exp i flight := by
  rcases supplied.waiting request (List.mem_of_getElem? present) flight answered waits with ended | pending
  · obtain ⟨result, found⟩ : ∃ result, tab.settled[flight]? = some result :=
      ⟨_, List.getElem?_eq_getElem ended⟩
    cases result with
    | none => exact absurd (List.mem_of_getElem? found) supplied.settled
    | some token =>
      have resumes : tab.step exp (.resume i) = tab.resume i answered (some token) := by
        simp [Tab.step, present, waits, found]
      refine .inr ⟨token, found, ?_⟩
      rw [resumes]
      cases answered <;> simp [Tab.resume, Tab.send, List.getElem?_modify_eq, present]
  · exact .inl pending

/-! ## Runs -/

/-- Both invariants hold in every state of an honest run. -/
theorem unspent_after (storage : Storage) (now : Rat) {steps : List Step} (honest : Honest (opened storage now) steps) :
    (after exp (opened storage now) steps).Unspent (Tab.issued (opened storage now) steps) ∧
      (after exp (opened storage now) steps).Supplied := by
  induction steps with
  | nil =>
    refine ⟨⟨List.nodup_nil, List.not_mem_nil, ?_, .inr List.mem_cons_self, fun _ => List.not_mem_nil, ?_⟩,
      ⟨List.not_mem_nil, ?_, ?_⟩⟩
    · intro token posted
      cases posted
    · intro answer equal
      cases equal
    · intro equal
      cases equal
    · intro request member
      cases member
  | cons step past ih =>
    obtain ⟨⟨succeeds, new⟩, before⟩ := honest
    exact ⟨(ih before).1.step step succeeds new, (ih before).2.step (ih before).1 step⟩

/-- Whatever a tab starts with, no run of it posts a refresh token twice, and who waits for a refresh is
given the token that it brings.
-/
theorem posted_once (exp : String → Option Rat) (storage : Storage) (now : Rat) (steps : List Step)
    (honest : Honest (opened storage now) steps) :
    (after exp (opened storage now) steps).posted.Nodup ∧
      ∀ i request flight answered, (after exp (opened storage now) steps).requests[i]? = some request →
        request.phase = .waiting flight answered →
        (after exp (opened storage now) steps).Relieved exp i flight :=
  have ⟨unspent, supplied⟩ := unspent_after storage now honest
  ⟨unspent.once, fun _ _ _ _ present waits => supplied.relieved present waits⟩

/-- Two requests find their token expired; a third is refused between the storing of the tokens and the
end of the refresh; the first is refused again after that, and the second still waits.
-/
def racingSteps : List Step :=
  [.respond 0 .unauthorized, .resume 0, .refreshFinally, .respond 2 .unauthorized, .intercept 2,
    .call .ordinary, .refreshThen, .refreshAnswered (some ⟨"a1", "r1", true⟩), .intercept 1, .intercept 0,
    .call .ordinary, .call .ordinary]

/-- The tokens are posted once each, and the second request is given the first of the new ones. -/
theorem posted_once_racing :
    (after (fun token => if token = "a0" then some 0 else none) (opened ⟨"a0", "r0", true⟩ 1)
        racingSteps).posted = ["r1", "r0"] ∧
      (after (fun token => if token = "a0" then some 0 else none) (opened ⟨"a0", "r0", true⟩ 1)
        racingSteps).posted.Nodup ∧
      (after (fun token => if token = "a0" then some 0 else none) (opened ⟨"a0", "r0", true⟩ 1)
        racingSteps).Relieved (fun token => if token = "a0" then some 0 else none) 1 0 ∧
      (after (fun token => if token = "a0" then some 0 else none) (opened ⟨"a0", "r0", true⟩ 1)
        racingSteps).settled[0]? = some (some "a1") :=
  have ⟨once, relieved⟩ := posted_once (fun token => if token = "a0" then some 0 else none)
    ⟨"a0", "r0", true⟩ 1 racingSteps (by decide +kernel)
  ⟨by decide +kernel, once, relieved 1 { kind := .ordinary, phase := .waiting 0 false } 0 false
    (by decide +kernel) rfl, by decide +kernel⟩

end Text2Image.session.Tab
