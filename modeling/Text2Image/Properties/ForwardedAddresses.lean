import Mathlib.Data.List.TakeWhile
import Text2Image.Services.ClientAddress

/-! Which address a request is limited by when it comes through the proxy. -/

set_option autoImplicit false

namespace Text2Image.controllers

open rate_limit

variable (remoteAddr : PeerAddress) (headers : Headers)

/-- A client's request as the backend gets it from the proxy. -/
def proxied (proxy : List Char) : HttpRequest := ⟨proxy, nginx.proxySetHeaders remoteAddr headers⟩

/-- The first address in the client's own X-Forwarded-For; without one, where it connects from. -/
def claimedAddress : List Char :=
  let ip := trimWhitespace (((headers.values "x-forwarded-for").headD []).takeWhile (· ≠ ','))
  if ip.isEmpty then remoteAddr.text else ip

theorem values_cons (name field : String) (value : List Char) :
    Headers.values ((name, value) :: headers) field =
      if name.toLower = field then value :: headers.values field else headers.values field := by
  unfold Headers.values
  by_cases same : name.toLower = field <;> simp [same]

theorem lower_realIp : "x-real-ip".toLower = "x-real-ip" := by decide +kernel

theorem lower_forwardedFor : "x-forwarded-for".toLower = "x-forwarded-for" := by decide +kernel

theorem getHeader_realIp (proxy : List Char) :
    (proxied remoteAddr headers proxy).getHeader "x-real-ip" = remoteAddr.text := by
  simp [HttpRequest.getHeader, proxied, nginx.proxySetHeaders, values_cons, lower_realIp]

theorem getHeader_forwardedFor (proxy : List Char) :
    (proxied remoteAddr headers proxy).getHeader "x-forwarded-for" =
      nginx.proxyAddXForwardedFor remoteAddr headers := by
  simp [HttpRequest.getHeader, proxied, nginx.proxySetHeaders, values_cons, lower_realIp,
    lower_forwardedFor]

theorem trimWhitespace_remoteAddr : trimWhitespace remoteAddr.text = remoteAddr.text :=
  Chrono.cut_solid fun c member => (remoteAddr.solid c member).2

theorem realIp_proxied (proxy : List Char) :
    realIp (proxied remoteAddr headers proxy) = remoteAddr.text := by
  unfold realIp
  rw [getHeader_realIp, trimWhitespace_remoteAddr]
  simp [remoteAddr.some]

/-- The proxy appends; what a client has written stays in front. -/
theorem first_forwardedFor :
    (nginx.proxyAddXForwardedFor remoteAddr headers).takeWhile (· ≠ ',') =
      if headers.values "x-forwarded-for" = [] then remoteAddr.text
      else ((headers.values "x-forwarded-for").headD []).takeWhile (· ≠ ',') := by
  unfold nginx.proxyAddXForwardedFor
  have alone : remoteAddr.text.takeWhile (· ≠ ',') = remoteAddr.text := by
    rw [List.takeWhile_eq_self_iff]
    intro c member
    simpa using (remoteAddr.solid c member).1
  cases headers.values "x-forwarded-for" with
  | nil => simpa using alone
  | cons value more =>
    simp only [List.flatMap_cons, List.append_assoc, List.cons_append, reduceCtorEq, if_false,
      List.headD_cons]
    induction value with
    | nil => rfl
    | cons c value ih => simp only [List.cons_append, List.takeWhile_cons, ih]

/-- So the backend believes the client. -/
theorem clientIp_proxied (proxy : List Char) :
    clientIp (proxied remoteAddr headers proxy) true = claimedAddress remoteAddr headers := by
  simp only [clientIp, if_true, getHeader_forwardedFor, first_forwardedFor, realIp_proxied,
    claimedAddress]
  by_cases silent : headers.values "x-forwarded-for" = []
  · rw [if_pos silent, silent, trimWhitespace_remoteAddr, if_neg (by simp [remoteAddr.some])]
    rfl
  · rw [if_neg silent]

theorem claimedAddress_some : claimedAddress remoteAddr headers ≠ [] := by
  unfold claimedAddress
  dsimp only
  split
  · exact remoteAddr.some
  · rename_i claimed
    simpa using claimed

/-! ## The bucket -/

theorem ipKey_injective {config : AddressLimitConfig} {first second : List Char} (some : first ≠ [])
    (some' : second ≠ []) (same : ipKey first config = ipKey second config) : first = second := by
  simp only [ipKey, List.isEmpty_iff, some, some', if_false] at same
  exact String.ofList_inj.mp (String.append_right_inj _ |>.mp same)

/-- Two requests of one peer count as one address, and as one key, exactly when their clients claim
one address; then they empty one bucket.
-/
theorem limited_together_iff (config : AddressLimitConfig) (proxy : List Char) (remoteAddr : PeerAddress)
    (headers headers' : Headers) (trusting : config.trust_proxy = true) :
    let first := proxied remoteAddr headers proxy
    let second := proxied remoteAddr headers' proxy
    let claims := claimedAddress remoteAddr headers = claimedAddress remoteAddr headers'
    (clientIp first config.trust_proxy = clientIp second config.trust_proxy ↔ claims) ∧
    (ipKey (clientIp first config.trust_proxy) config =
      ipKey (clientIp second config.trust_proxy) config ↔ claims) ∧
    (claims → ∀ evaluations arrival limiter,
      acquireAuthIpToken config evaluations first arrival limiter =
        acquireAuthIpToken config evaluations second arrival limiter) := by
  dsimp only
  unfold acquireAuthIpToken
  rw [trusting, clientIp_proxied, clientIp_proxied]
  refine ⟨Iff.rfl, ⟨?_, ?_⟩, ?_⟩
  · exact ipKey_injective (claimedAddress_some remoteAddr headers) (claimedAddress_some remoteAddr headers')
  · intro same
    rw [same]
  · intro same
    rw [same]
    exact fun _ _ _ => rfl

/-- A documentation address. -/
def exampleAddress : PeerAddress where
  text := ['2', '0', '3', '.', '0', '.', '1', '1', '3', '.', '9']
  some := List.cons_ne_nil _ _
  solid := by simp [Chrono.isSpace]

theorem limited_together_unclaimed :
    clientIp (proxied exampleAddress [("User-Agent", ['a'])] []) true =
      clientIp (proxied exampleAddress [("X-Real-IP", "1.2.3.4".toList)] []) true :=
  (limited_together_iff { trust_proxy := true } [] exampleAddress [("User-Agent", ['a'])]
    [("X-Real-IP", "1.2.3.4".toList)] rfl).1.mpr (by decide +kernel)

/-- One peer, two values of X-Forwarded-For: the bucket of a single token lets both requests pass, and
would have refused the second under the first's value.
-/
theorem bucket_evaded :
    let config : AddressLimitConfig := { trust_proxy := true, auth_ip_capacity := 1 }
    let first := proxied exampleAddress [("X-Forwarded-For", "1.2.3.4".toList)] []
    let second := proxied exampleAddress [("X-Forwarded-For", "5.6.7.8".toList)] []
    let spent := (acquireAuthIpToken config {} first ⟨0, 0⟩ ⟨true, fun _ => none⟩).2
    clientIp first true ≠ clientIp second true ∧
    (acquireAuthIpToken config {} first ⟨0, 0⟩ ⟨true, fun _ => none⟩).1.isOk = true ∧
    (acquireAuthIpToken config {} second ⟨0, 0⟩ spent).1.isOk = true ∧
    (acquireAuthIpToken config {} first ⟨0, 0⟩ spent).1.isOk = false := by
  decide +kernel

end Text2Image.controllers
