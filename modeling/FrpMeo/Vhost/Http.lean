import FrpMeo.Vhost.Router

/-!
# HTTP requests and route configs

What the reverse proxy reads from a request and its route config (`pkg/util/vhost/http.go`,
`pkg/util/http/http.go`): the host, the user that routes, the credentials, and the key under which
connections are pooled.
-/

namespace FrpMeo.Vhost

open Lib Lib.Bytes Lib.Text

/-! ## Requests -/

/-- The parts of an `http.Request` that decide where it goes; an absent header is empty. -/
structure Request where
  connect : Bool
  host : Bytes
  path : Bytes
  /-- The host of the first request line; not empty in proxy mode. -/
  urlHost : Bytes
  authorization : Bytes
  proxyAuthorization : Bytes
  deriving DecidableEq

def colon : UInt8 := 58

def lbrack : UInt8 := 91

def rbrack : UInt8 := 93

def hasPort (host : Bytes) : Bool :=
  match host.count colon with
  | 0 => false
  | 1 => true
  | _ => host.head? == some lbrack && (host.zip host.tail).any (· == (rbrack, colon))

def trimDot (host : Bytes) : Bytes := if host.getLast? = some dot then host.dropLast else host

/-- `CanonicalHost`; every caller ignores the error and goes on with the empty host. -/
def canonicalHost (go : Go) (host : Bytes) : Bytes :=
  let host := go.toLower host
  if hasPort host then
    match splitHostPort colon lbrack rbrack host with
    | none => []
    | some (host, _) => trimDot host
  else trimDot host

def lowerByte (c : UInt8) : UInt8 := if 65 ≤ c ∧ c ≤ 90 then c + 32 else c

def parseBasicAuth (go : Go) (auth : Bytes) : Option (Bytes × Bytes) :=
  let scheme := ascii "basic "
  if (auth.take scheme.length).map lowerByte ≠ scheme then none
  else
    match go.decodeBase64 (auth.drop scheme.length) with
    | none => none
    | some cs =>
        match cut colon cs with
        | (_, none) => none
        | (user, some passwd) => some (user, passwd)

def asciiGo : Go :=
  ⟨List.map lowerByte, fun s => if s = ascii "dTpw" then some (ascii "u:p") else none⟩

example : parseBasicAuth asciiGo (ascii "BASIC dTpw") = some (ascii "u", ascii "p") := by
  decide +kernel

def userOf (auth : Option (Bytes × Bytes)) : Bytes := (auth.map Prod.fst).getD []

def getRequestRouteUser (go : Go) (req : Request) : Bytes :=
  -- in proxy mode the other header counts only if there is no `Proxy-Authorization`
  if req.urlHost ≠ [] then
    if req.proxyAuthorization = [] then userOf (parseBasicAuth go req.authorization)
    else userOf (parseBasicAuth go req.proxyAuthorization)
  else userOf (parseBasicAuth go req.authorization)

def satisfies (go : Go) (req : Request) (username password : Bytes) : Bool :=
  if username = [] ∧ password = [] then true
  else if req.urlHost ≠ [] then
    if req.proxyAuthorization = [] then false
    else parseBasicAuth go req.proxyAuthorization == some (username, password)
  else parseBasicAuth go req.authorization == some (username, password)

/-! ## Route configs -/

/-- A proxy's `GetRealConn`, with the credentials of the proxy. -/
structure ConnFn where
  pxy : Nat
  username : Bytes
  password : Bytes
  deriving DecidableEq

/-- The route config that `HTTPProxy.Run` builds for one domain and location. -/
structure RouteSpec where
  domain : Bytes
  location : Bytes
  username : Bytes
  password : Bytes
  routeByHTTPUser : Bytes
  pxy : Nat
  deriving DecidableEq

def RouteSpec.connFn (spec : RouteSpec) : ConnFn := ⟨spec.pxy, spec.username, spec.password⟩

def RouteSpec.place (go : Go) (spec : RouteSpec) : Place :=
  go.place spec.domain spec.location spec.routeByHTTPUser

/-- The connection functions of a registered config: those of a proxy, or of a group object. -/
inductive CreateConn where
  | proxy (fn : ConnFn)
  | group (g : Nat)
  deriving DecidableEq

structure RouteConfig where
  id : Nat
  spec : RouteSpec
  createConn : CreateConn
  deriving DecidableEq

deriving instance DecidableEq for Router

def checkRouteAuthByRequest (go : Go) (req : Request) : Option RouteConfig → Bool
  | none => true
  | some rc => satisfies go req rc.spec.username rc.spec.password

/-- The lookup of `injectRequestInfoToCtx` and of `CreateConnection`. -/
def getRouteConfig (go : Go) (rs : Routers RouteConfig) (req : Request) : Option RouteConfig :=
  (rs.getByRoute go (canonicalHost go req.host) req.path (getRequestRouteUser go req)).map
    Router.payload

theorem exists_route_of_getRouteConfig {go : Go} {rs : Routers RouteConfig} {req : Request}
    {rc : RouteConfig} (h : getRouteConfig go rs req = some rc) :
    ∃ r ∈ rs.routes, r.payload = rc := by
  obtain ⟨r, hr, hrc⟩ := Option.map_eq_some_iff.1 h
  exact ⟨r, Routers.mem_of_getByRoute hr, hrc⟩

/-! ## Pool keys -/

/-- The URL host that `Rewrite` sets, which is the key of the transport's pool. -/
def poolKey (spec : RouteSpec) (endpoint : Bytes) : Bytes :=
  spec.domain ++ dot :: encode spec.location ++ dot :: encode spec.routeByHTTPUser ++
    dot :: encode endpoint

def RouteSpec.SameKey (a b : RouteSpec) : Prop :=
  a.domain = b.domain ∧ a.location = b.location ∧ a.routeByHTTPUser = b.routeByHTTPUser

instance (a b : RouteSpec) : Decidable (a.SameKey b) := inferInstanceAs (Decidable (_ ∧ _))

theorem RouteSpec.SameKey.place_eq {a b : RouteSpec} (h : a.SameKey b) (go : Go) :
    a.place go = b.place go := by
  obtain ⟨hd, hl, hu⟩ := h
  simp [RouteSpec.place, Go.place, hd, hl, hu]

theorem poolKey_inj {a b : RouteSpec} {x y : Bytes} (h : poolKey a x = poolKey b y) :
    a.SameKey b ∧ x = y := by
  -- no dot in an encoded part, so the last three dots of a key are its separators
  obtain ⟨h, hxy⟩ := append_dot_inj (dot_notMem_encode x) (dot_notMem_encode y) h
  obtain ⟨h, hu⟩ := append_dot_inj (dot_notMem_encode _) (dot_notMem_encode _) h
  obtain ⟨hd, hl⟩ := append_dot_inj (dot_notMem_encode _) (dot_notMem_encode _) h
  exact ⟨⟨hd, encode_injective hl, encode_injective hu⟩, encode_injective hxy⟩

end FrpMeo.Vhost
