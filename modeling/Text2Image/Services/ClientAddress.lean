import Text2Image.Services.RateLimiter

/-! The address a request is limited by, behind the proxy. Header values are byte strings. -/

set_option autoImplicit false

namespace Text2Image

abbrev Headers := List (String × List Char)

/-- Names of header fields ignore case. -/
def Headers.values (headers : Headers) (field : String) : List (List Char) :=
  (headers.filter fun header => header.1.toLower = field).map Prod.snd

/-- The address of a connection's other end, as text. -/
structure PeerAddress where
  text : List Char
  some : text ≠ []
  solid : ∀ c ∈ text, c ≠ ',' ∧ Chrono.isSpace c = false

/-! ## The proxy -/

namespace nginx

/-- `$proxy_add_x_forwarded_for` -/
def proxyAddXForwardedFor (remoteAddr : PeerAddress) (headers : Headers) : List Char :=
  (headers.values "x-forwarded-for").flatMap (· ++ [',', ' ']) ++ remoteAddr.text

/-- The headers that `location /api/` sends on. The Host and the scheme are left out. -/
def proxySetHeaders (remoteAddr : PeerAddress) (headers : Headers) : Headers :=
  [("x-real-ip", remoteAddr.text), ("x-forwarded-for", proxyAddXForwardedFor remoteAddr headers)] ++
    headers.filter fun header =>
      header.1.toLower ≠ "x-real-ip" ∧ header.1.toLower ≠ "x-forwarded-for"

end nginx

/-! ## The backend -/

/-- `peerAddr` is the address of the proxy if there is one. -/
structure HttpRequest where
  peerAddr : List Char
  headers : Headers
  deriving DecidableEq, Repr

/-- A header that is missing reads as empty. -/
def HttpRequest.getHeader (req : HttpRequest) (field : String) : List Char :=
  (req.headers.values field).headD []

namespace controllers

def trimWhitespace (s : List Char) : List Char :=
  ((s.dropWhile Chrono.isSpace).reverse.dropWhile Chrono.isSpace).reverse

/-- What `X-Real-IP` says, or else the connection. -/
def realIp (req : HttpRequest) : List Char :=
  let ip := trimWhitespace (req.getHeader "x-real-ip")
  if ip.isEmpty then req.peerAddr else ip

def clientIp (req : HttpRequest) (trustProxy : Bool) : List Char :=
  if trustProxy then
    let first := (req.getHeader "x-forwarded-for").takeWhile (· ≠ ',')
    let ip := trimWhitespace first
    if ip.isEmpty then realIp req else ip
  else req.peerAddr

end controllers

namespace rate_limit

/-- The settings of the limit by address. -/
structure AddressLimitConfig extends RateLimitConfig where
  trust_proxy : Bool := false
  auth_ip_capacity : Int := 5
  auth_ip_window : Int := 60
  key_prefix : String := "zimage:rate:"
  deriving DecidableEq, Repr

def ipKey (ip : List Char) (config : AddressLimitConfig) : String :=
  let safeIp := if ip.isEmpty then "unknown".toList else ip
  config.key_prefix ++ "ip:" ++ String.ofList safeIp

def acquireAuthIpToken (config : AddressLimitConfig) (evaluations : Evaluations) (req : HttpRequest)
    (arrival : Arrival) (limiter : Limiter) : ServiceResult Unit × Limiter :=
  if ! config.enabled then (.ok (), limiter)
  else
    let ip := controllers.clientIp req config.trust_proxy
    tryAcquire config.toRateLimitConfig evaluations (ipKey ip config) config.auth_ip_capacity
      config.auth_ip_window arrival limiter

end rate_limit

end Text2Image
