import Mathlib.Algebra.Order.Ring.Unbundled.Rat
import Mathlib.Data.List.Basic

/-! The session of a browser tab: the tokens in the storage, those in the auth store, and the requests
with their interceptors. A handler runs up to the next point where it waits.
-/

set_option autoImplicit false

namespace Text2Image.session

/-! ## Tokens -/

/-- What the storage holds; a missing item reads as empty. The auth store has the same three values. -/
structure Storage where
  token : String := ""
  refreshToken : String := ""
  hasUserInfo : Bool := false
  deriving DecidableEq, Repr

namespace Storage

variable (storage : Storage)

def setStoredTokens (accessToken refreshToken : String) : Storage :=
  { storage with
    token := if accessToken.isEmpty then storage.token else accessToken
    refreshToken := if refreshToken.isEmpty then storage.refreshToken else refreshToken }

def setStoredAuth (accessToken refreshToken : String) : Storage :=
  { storage.setStoredTokens accessToken refreshToken with hasUserInfo := true }

def clearStoredAuth : Storage := {}

end Storage

/-- `exp` is what a token says of its expiry, in seconds, where it can be decoded. -/
def isTokenExpired (exp : String → Option Rat) (token : String) (now : Rat) : Bool :=
  match exp token with
  | none => false
  | some seconds => seconds * 1000 ≤ now

/-- The tokens in an answer, and whether it names the user. -/
structure AuthPayload where
  accessToken : String := ""
  refreshToken : String := ""
  hasUser : Bool := false
  deriving DecidableEq, Repr

/-! ## Requests -/

inductive Kind where
  | ordinary
  | login
  | logout (refreshToken : String)
  deriving DecidableEq, Repr

def Kind.isAuthTokenRequest : Kind → Bool
  | .ordinary => false
  | .login | .logout _ => true

/-- Where a request stands. It waits for a refresh in the interceptor of the request or, once it has
been answered, in that of the response; or the refresh has thrown at once.
-/
inductive Phase where
  | ready
  | waiting (flight : Nat) (answered : Bool)
  | refused
  | sent
  | ended
  deriving DecidableEq, Repr

structure Request where
  kind : Kind
  phase : Phase := .ready
  retry : Bool := false
  authorization : String := ""
  deriving DecidableEq, Repr

inductive Answer where
  | success (payload : AuthPayload)
  | unauthorized
  | failure
  deriving DecidableEq, Repr

/-- What `refreshPromise` stands for: the call is out, it has been answered, the tokens are stored. -/
inductive Flight where
  | posted
  | answered (payload : Option AuthPayload)
  | stored (accessToken : Option String)
  deriving DecidableEq, Repr

/-- `settled` are the results of the refreshes that are over, so the one that is under way has the
next number; `posted` are the tokens given to `/auth/refresh`, newest first.
-/
structure Tab where
  now : Rat := 0
  storage : Storage := {}
  store : Storage := {}
  refreshPromise : Option Flight := none
  settled : List (Option String) := []
  requests : List Request := []
  posted : List String := []
  deriving DecidableEq, Repr

namespace Tab

variable (exp : String → Option Rat) (tab : Tab)

def redirectToLogin : Tab := { tab with storage := Storage.clearStoredAuth }

def resetAuthState : Tab := { tab with store := {}, storage := Storage.clearStoredAuth }

def setPhase (i : Nat) (phase : Phase) : Tab :=
  { tab with requests := tab.requests.modify i fun request => { request with phase } }

/-- The number of the refresh to wait for; none if it throws. -/
def refreshAccessToken : Tab × Option Nat :=
  if tab.refreshPromise.isSome then (tab, some tab.settled.length)
  else
    let refreshToken := tab.storage.refreshToken
    if refreshToken.isEmpty ∨ isTokenExpired exp refreshToken tab.now then (tab, none)
    else
      ({ tab with refreshPromise := some .posted, posted := refreshToken :: tab.posted },
        some tab.settled.length)

/-- Request `i` asks for a refresh. -/
def awaitRefresh (i : Nat) (answered : Bool) : Tab :=
  match tab.refreshAccessToken exp with
  | (left, some flight) => left.setPhase i (.waiting flight answered)
  | (left, none) => left.setPhase i .refused

def send (i : Nat) (authorization : String) : Tab :=
  { tab with requests := tab.requests.modify i fun request => { request with phase := .sent, authorization } }

/-- The interceptor of requests. -/
def intercept (i : Nat) (request : Request) : Tab :=
  let token := tab.storage.token
  if token.isEmpty then tab.setPhase i .sent
  else if isTokenExpired exp token tab.now ∧ ! request.kind.isAuthTokenRequest then
    tab.awaitRefresh exp i false
  else tab.send i token

/-- The refresh that request `i` waits for is over. -/
def resume (i : Nat) (answered : Bool) : Option String → Tab
  | none => (tab.setPhase i .ended).redirectToLogin
  | some token =>
    if answered then
      { tab with requests := tab.requests.modify i fun request =>
          { request with phase := .ready, retry := true, authorization := token } }
    else tab.send i token

/-- What the login and the logout do with an answer that has passed the interceptor of responses. -/
def complete (request : Request) (payload : Option AuthPayload) : Tab :=
  match request.kind, payload with
  | .login, some payload =>
    if payload.accessToken.isEmpty ∨ payload.refreshToken.isEmpty then tab
    else
      { tab with
        store := ⟨payload.accessToken, payload.refreshToken, true⟩
        storage := tab.storage.setStoredAuth payload.accessToken payload.refreshToken }
  | .logout _, _ => tab.resetAuthState
  | _, _ => tab

def respond (i : Nat) (request : Request) : Answer → Tab
  | .success payload => (tab.setPhase i .ended).complete request (some payload)
  | .failure => (tab.setPhase i .ended).complete request none
  | .unauthorized =>
    if ! request.retry ∧ ! request.kind.isAuthTokenRequest then tab.awaitRefresh exp i true
    else (tab.setPhase i .ended).redirectToLogin.complete request none

def call (kind : Kind) : Tab := { tab with requests := tab.requests ++ [{ kind }] }

def logout (revokeRefreshToken : Bool) : Tab :=
  let tokenToRevoke :=
    if tab.store.refreshToken.isEmpty then tab.storage.refreshToken else tab.store.refreshToken
  if revokeRefreshToken ∧ ! tokenToRevoke.isEmpty then tab.call (.logout tokenToRevoke)
  else tab.resetAuthState

def checkAuth : Tab :=
  let saved := tab.storage
  if (saved.token.isEmpty ∧ saved.refreshToken.isEmpty) ∨ ! saved.hasUserInfo then tab.resetAuthState
  else if (saved.token.isEmpty ∨ isTokenExpired exp saved.token tab.now) ∧
      (saved.refreshToken.isEmpty ∨ isTokenExpired exp saved.refreshToken tab.now) then
    tab.resetAuthState
  else { tab with store := saved }

/-- The `then` of a refresh: the tokens are stored, or it throws. -/
def storeTokens (payload : Option AuthPayload) : Tab :=
  match payload with
  | none => { tab with refreshPromise := some (.stored none) }
  | some payload =>
    if payload.accessToken.isEmpty ∨ payload.refreshToken.isEmpty then
      { tab with refreshPromise := some (.stored none) }
    else
      let storage := tab.storage.setStoredTokens payload.accessToken payload.refreshToken
      { tab with
        refreshPromise := some (.stored (some payload.accessToken))
        storage := { storage with hasUserInfo := storage.hasUserInfo || payload.hasUser } }

/-! ## Steps -/

inductive Step where
  | clock (now : Rat)
  | call (kind : Kind)
  | logout (revokeRefreshToken : Bool)
  | checkAuth
  | intercept (i : Nat)
  | resume (i : Nat)
  | respond (i : Nat) (answer : Answer)
  | refreshAnswered (payload : Option AuthPayload)
  | refreshThen
  | refreshFinally
  deriving DecidableEq, Repr

/-- A step that cannot happen now does nothing. -/
def step : Step → Tab
  | .clock now => { tab with now }
  | .call kind => tab.call kind
  | .logout revokeRefreshToken => tab.logout revokeRefreshToken
  | .checkAuth => tab.checkAuth exp
  | .intercept i =>
    match tab.requests[i]? with
    | some request => if request.phase = .ready then tab.intercept exp i request else tab
    | none => tab
  | .resume i =>
    match (tab.requests[i]?).map Request.phase with
    | some (.waiting flight answered) =>
      match tab.settled[flight]? with
      | some result => tab.resume i answered result
      | none => tab
    | some .refused => (tab.setPhase i .ended).redirectToLogin
    | _ => tab
  | .respond i answer =>
    match tab.requests[i]? with
    | some request => if request.phase = .sent then tab.respond exp i request answer else tab
    | none => tab
  | .refreshAnswered payload =>
    if tab.refreshPromise = some .posted then { tab with refreshPromise := some (.answered payload) } else tab
  | .refreshThen =>
    match tab.refreshPromise with
    | some (.answered payload) => tab.storeTokens payload
    | _ => tab
  | .refreshFinally =>
    match tab.refreshPromise with
    | some (.stored result) => { tab with refreshPromise := none, settled := tab.settled ++ [result] }
    | _ => tab

/-- A tab that has just been opened. -/
def opened (storage : Storage) (now : Rat) : Tab := { now, storage, store := storage }

/-- A tab after some steps, newest first. -/
def after (start : Tab) : List Step → Tab
  | [] => start
  | step :: past => (after start past).step exp step

end Tab

end Text2Image.session
