import FrpMeo.Vhost.Http

/-!
# The tcpmux multiplexer

`Muxer.handle` reads the host of a tcpmux or https connection, looks up a listener, answers, checks
the credentials and hands the connection over (`pkg/util/vhost/vhost.go`); `HTTPConnectTCPMuxer` has
the hooks for `CONNECT` (`pkg/util/tcpmux/httpconnect.go`). The check is made after the answer 200,
and only if the route has a user name.
-/

namespace FrpMeo.Vhost

open Lib Lib.Bytes

/-! ## The muxer -/

structure Listener where
  name : Bytes
  location : Bytes
  routeByHTTPUser : Bytes
  username : Bytes
  password : Bytes
  deriving DecidableEq

inductive Event where
  | response (status : Nat)
  | handed (l : Listener)
  | closed
  deriving DecidableEq

structure Io where
  setDeadline : Bool
  write : Nat → Bool
  clearDeadline : Bool
  /-- The listener has not been closed. -/
  accepting : Bool

/-- The entries of `reqInfoMap`; a missing one is empty. -/
structure ReqInfo where
  host : Bytes
  path : Bytes
  httpUser : Bytes
  httpPwd : Bytes

/-- The functions a muxer is set up with; a hook says what it sends and if it succeeds. -/
structure Hooks (C : Type) where
  vhostFunc : C → Option ReqInfo
  checkAuth : Option (Io → Bytes → Bytes → ReqInfo → List Event × Bool)
  successHook : Option (Io → ReqInfo → List Event × Bool)
  failHook : Io → List Event

variable {C : Type}

/-- `getListener`, with the names that `handle` makes from the request. -/
def getListener (go : Go) (rs : Routers Listener) (info : ReqInfo) : Option Listener :=
  (rs.getByRoute go (go.toLower info.host) (go.toLower info.path) info.httpUser).map
    Router.payload

def Hooks.succeed (h : Hooks C) (io : Io) (info : ReqInfo) : List Event × Bool :=
  match h.successHook with
  | none => ([], true)
  | some hook => hook io info

def Hooks.authorize (h : Hooks C) (io : Io) (l : Listener) (info : ReqInfo) : List Event × Bool :=
  match h.checkAuth with
  | none => ([], true)
  | some check => if l.username = [] then ([], true) else check io l.username l.password info

/-- The connection goes to the listener. A send to a closed listener is only logged. -/
def deliver (io : Io) (l : Listener) : List Event :=
  if !io.clearDeadline then [.closed] else if io.accepting then [.handed l] else []

def Hooks.serve (h : Hooks C) (io : Io) (l : Listener) (info : ReqInfo) : List Event :=
  -- the success hook answers before the credentials are looked at
  match h.succeed io info with
  | (sent, false) => sent ++ [.closed]
  | (sent, true) =>
      match h.authorize io l info with
      | (sent', false) => sent ++ sent' ++ [.closed]
      | (sent', true) => sent ++ sent' ++ deliver io l

def handle (go : Go) (h : Hooks C) (rs : Routers Listener) (io : Io) (c : C) : List Event :=
  if !io.setDeadline then [.closed]
  else
    match h.vhostFunc c with
    | none => [.closed]
    | some info =>
        match getListener go rs info with
        | none => h.failHook io
        | some l => h.serve io l info

/-! ## CONNECT requests -/

/-- What `http.ReadRequest` gives; a missing header is empty. -/
structure ConnectRequest where
  connect : Bool
  host : Bytes
  proxyAuthorization : Bytes

/-- `readHTTPConnectRequest` and `getHostFromHTTPConnect`; `none` is an error. -/
def getHostFromHTTPConnect (go : Go) : Option ConnectRequest → Option ReqInfo
  | none => none
  | some req =>
      if !req.connect then none
      else
        let auth := if req.proxyAuthorization = [] then none
          else parseBasicAuth go req.proxyAuthorization
        let (httpUser, httpPwd) := auth.getD ([], [])
        some ⟨canonicalHost go req.host, [], httpUser, httpPwd⟩

def Io.respond (io : Io) (status : Nat) : List Event :=
  if io.write status then [.response status] else []

def sendConnectResponse (passthrough : Bool) (io : Io) (_ : ReqInfo) : List Event × Bool :=
  if passthrough then ([], true) else (io.respond 200, io.write 200)

def auth (io : Io) (username password : Bytes) (info : ReqInfo) : List Event × Bool :=
  if username = info.httpUser ∧ password = info.httpPwd then ([], true)
  else (io.respond 407, false)

def vhostFailed (io : Io) : List Event := io.respond 404 ++ [.closed]

def httpConnectHooks (go : Go) (passthrough : Bool) : Hooks (Option ConnectRequest) where
  vhostFunc := getHostFromHTTPConnect go
  checkAuth := some auth
  successHook := some (sendConnectResponse passthrough)
  failHook := vhostFailed

/-! ## The property -/

def routeOf (go : Go) (rs : Routers Listener) (req : ConnectRequest) : Option Listener :=
  (getHostFromHTTPConnect go (some req)).bind (getListener go rs)

def Carries (go : Go) (req : ConnectRequest) (l : Listener) : Prop :=
  parseBasicAuth go req.proxyAuthorization = some (l.username, l.password)

/-- The caller gets a 200 and the listener gets the connection only with its credentials. -/
def Guarded (go : Go) (passthrough : Bool) (rs : Routers Listener) (req : ConnectRequest)
    (l : Listener) : Prop :=
  ∀ io, .response 200 ∈ handle go (httpConnectHooks go passthrough) rs io (some req) ∨
      .handed l ∈ handle go (httpConnectHooks go passthrough) rs io (some req) →
    Carries go req l

/-! ## When the property holds -/

theorem parseBasicAuth_nil (go : Go) : parseBasicAuth go [] = none := by
  simp [parseBasicAuth, ascii]

def Listener.Locked (l : Listener) : Prop := l.username ≠ [] ∨ l.password ≠ []

instance (l : Listener) : Decidable l.Locked := inferInstanceAs (Decidable (_ ∨ _))

variable {l : Listener} {go : Go} {req : ConnectRequest} {rs : Routers Listener}

theorem exists_info_of_routeOf (h : routeOf go rs req = some l) (hlocked : l.Locked) :
    ∃ info, getHostFromHTTPConnect go (some req) = some info ∧ getListener go rs info = some l ∧
      ((l.username = info.httpUser ∧ l.password = info.httpPwd) ↔ Carries go req l) := by
  obtain ⟨info, hinfo, hl⟩ := Option.bind_eq_some_iff.1 h
  refine ⟨info, hinfo, hl, ?_⟩
  have hauth : (info.httpUser, info.httpPwd) =
      (parseBasicAuth go req.proxyAuthorization).getD ([], []) := by
    unfold getHostFromHTTPConnect at hinfo
    dsimp only at hinfo
    split_ifs at hinfo with hconnect hempty
    · cases hinfo
      rw [hempty, parseBasicAuth_nil]
    · cases hinfo
      rfl
  unfold Carries
  cases hp : parseBasicAuth go req.proxyAuthorization with
  | none =>
    -- without credentials both are empty, but those of the route are not
    simp only [hp, Option.getD_none, Prod.mk.injEq] at hauth
    rw [hauth.1, hauth.2]
    simp only [reduceCtorEq, iff_false, not_and]
    intro hu hpw
    rcases hlocked with hne | hne
    · exact hne hu
    · exact hne hpw
  | some up =>
    simp only [hp, Option.getD_some] at hauth
    rw [← hauth]
    simp only [Option.some.injEq, Prod.mk.injEq]
    exact and_congr eq_comm eq_comm

variable {info : ReqInfo}

theorem handle_of_info (hinfo : getHostFromHTTPConnect go (some req) = some info)
    (hl : getListener go rs info = some l) (passthrough : Bool) (io : Io) :
    handle go (httpConnectHooks go passthrough) rs io (some req) =
      if !io.setDeadline then [.closed] else (httpConnectHooks go passthrough).serve io l info := by
  have hv : (httpConnectHooks go passthrough).vhostFunc (some req) = some info := hinfo
  simp [handle, hv, hl]

def Io.good : Io := ⟨true, fun _ => true, true, true⟩

theorem response_mem_serve (go : Go) (l : Listener) (info : ReqInfo) :
    .response 200 ∈ (httpConnectHooks go false).serve .good l info := by
  have hsucceed : (httpConnectHooks go false).succeed .good info = ([.response 200], true) := rfl
  unfold Hooks.serve
  rw [hsucceed]
  rcases (httpConnectHooks go false).authorize .good l info with ⟨sent, ok⟩
  cases ok <;> simp

theorem handed_mem_serve (go : Go) (passthrough : Bool) (hu : l.username = []) (info : ReqInfo) :
    .handed l ∈ (httpConnectHooks go passthrough).serve .good l info := by
  cases passthrough <;>
    simp [Hooks.serve, Hooks.succeed, Hooks.authorize, httpConnectHooks, sendConnectResponse,
      deliver, Io.respond, Io.good, hu]

theorem serve_of_mismatch (go : Go) (hu : l.username ≠ [])
    (hmis : ¬ (l.username = info.httpUser ∧ l.password = info.httpPwd)) (io : Io) :
    (httpConnectHooks go true).serve io l info = io.respond 407 ++ [.closed] := by
  simp [Hooks.serve, Hooks.succeed, Hooks.authorize, httpConnectHooks, sendConnectResponse, auth,
    hu, hmis]

/-- The credentials of a route guard it against a request iff the request carries them, or it is
passed through and the route has a user name. -/
theorem guarded_tcpmux_iff (go : Go) (passthrough : Bool) (rs : Routers Listener)
    (req : ConnectRequest) (l : Listener) (hroute : routeOf go rs req = some l)
    (hlocked : l.username ≠ [] ∨ l.password ≠ []) : Guarded go passthrough rs req l ↔
      Carries go req l ∨ passthrough = true ∧ l.username ≠ [] := by
  obtain ⟨info, hinfo, hl, hmatch⟩ := exists_info_of_routeOf hroute hlocked
  have hhandle := handle_of_info hinfo hl passthrough
  constructor
  · intro hguard
    by_cases hcarries : Carries go req l
    · exact .inl hcarries
    · right
      have hgood := hguard .good
      rw [hhandle] at hgood
      cases passthrough with
      | false => exact absurd (hgood (.inl (response_mem_serve go l info))) hcarries
      | true =>
        refine ⟨rfl, fun hu => hcarries ?_⟩
        exact hgood (.inr (handed_mem_serve go true hu info))
  · rintro (hcarries | ⟨rfl, hu⟩) io hevent
    · exact hcarries
    · by_contra hcarries
      rw [hhandle] at hevent
      have hserve := serve_of_mismatch go hu (mt hmatch.1 hcarries) io
      rw [hserve] at hevent
      -- neither a 407 nor a closed connection is what the caller asked for
      cases hd : io.setDeadline <;> cases hw : io.write 407 <;>
        simp [hd, hw, Io.respond] at hevent

/-! ## Two locked routes -/

def oneRoute (l : Listener) : Routers Listener :=
  ⟨[⟨asciiGo.place l.name l.location l.routeByHTTPUser, l⟩], List.nodup_singleton _⟩

def bareConnect : ConnectRequest := ⟨true, ascii "example.com:443", []⟩

def userRoute : Listener := ⟨ascii "example.com", [], [], ascii "u", ascii "p"⟩

def passwordRoute : Listener := ⟨ascii "example.com", [], [], [], ascii "p"⟩

theorem guarded_tcpmux_iff_userRoute :
    routeOf asciiGo (oneRoute userRoute) bareConnect = some userRoute ∧
      Guarded asciiGo true (oneRoute userRoute) bareConnect userRoute := by
  have hroute : routeOf asciiGo (oneRoute userRoute) bareConnect = some userRoute := by
    decide +kernel
  refine ⟨hroute, ?_⟩
  exact (guarded_tcpmux_iff asciiGo true _ bareConnect userRoute hroute (by decide +kernel)).2
    (.inr ⟨rfl, by decide +kernel⟩)

/-- Without credentials: a 200 and the listener of a route with a password only, and a 200 before
the 407 of a route with a user name. -/
theorem locked_routes_answer :
    ¬ Guarded asciiGo false (oneRoute passwordRoute) bareConnect passwordRoute ∧
      handle asciiGo (httpConnectHooks asciiGo false) (oneRoute passwordRoute) .good
        (some bareConnect) = [.response 200, .handed passwordRoute] ∧
      handle asciiGo (httpConnectHooks asciiGo false) (oneRoute userRoute) .good
        (some bareConnect) = [.response 200, .response 407, .closed] := by
  have hrun : handle asciiGo (httpConnectHooks asciiGo false) (oneRoute passwordRoute) .good
      (some bareConnect) = [.response 200, .handed passwordRoute] := by
    decide +kernel
  refine ⟨fun hguard => ?_, hrun, by decide +kernel⟩
  have hcarries := hguard .good (.inl (by rw [hrun]; simp))
  rw [Carries, show bareConnect.proxyAuthorization = [] from rfl, parseBasicAuth_nil] at hcarries
  cases hcarries

end FrpMeo.Vhost
