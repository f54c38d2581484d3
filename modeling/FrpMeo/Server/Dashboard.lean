import FrpMeo.Lib.Transition
import FrpMeo.Server.Firewall

/-!
# The dashboard's listener

`NewService` builds the dashboard's web server and is meant to install a filter that asks
`Firewall.AllowWeb` (`server/service.go`, `pkg/util/http/server.go`). `Server.Run` wraps the
listener once, with the filter of that time; but the firewall is loaded later.
-/

namespace FrpMeo.Server.Dashboard

open Lib.Transition Server.Firewall

/-! ## The web server -/

structure ConnFilter where
  port : Int

def ConnFilter.allow (go : Go) (fw : Firewall) (m : Moment) (filter : ConnFilter)
    (remoteAddr : String) : Bool :=
  (fw.allowWeb go m remoteAddr filter.port).1

structure WebServer where
  tls : Bool
  connFilter : Option ConnFilter

def WebServer.setConnFilter (s : WebServer) (filter : ConnFilter) : WebServer :=
  { s with connFilter := some filter }

inductive Listener where
  | tcp
  | filtered (ln : Listener) (allow : ConnFilter)
  /-- `tls.NewListener`: what the listener below returns goes into the handshake. -/
  | tls (ln : Listener)

def WebServer.run (s : WebServer) : Listener :=
  -- the filter is read once, when the server starts
  let ln := match s.connFilter with
    | none => Listener.tcp
    | some filter => .filtered .tcp filter
  if s.tls then .tls ln else ln

def Listener.accept (go : Go) (fw : Firewall) (m : Moment) (remoteAddr : String) :
    Listener → Option String
  | .tcp => some remoteAddr
  | .filtered ln filter =>
      match ln.accept go fw m remoteAddr with
      | none => none
      | some addr => if filter.allow go fw m addr then some addr else none
  | .tls ln => ln.accept go fw m remoteAddr

/-! ## Building the service -/

structure WebServerConfig where
  port : Int
  tls : Bool

structure Build where
  newServerTLSConfig : Except String Unit
  /-- Listening on the dashboard's port and loading its certificate. -/
  newServer : Except String Unit
  buildServerAuth : Except String Unit
  stateFile : StateFile
  host : Host
  now : Int
  /-- The listeners and plugins that are set up after the firewall. -/
  rest : Except String Unit

structure Service where
  webServer : Option WebServer
  firewall : Option Firewall

def newServer (b : Build) (cfg : WebServerConfig) : Except String WebServer :=
  b.newServer.map fun _ => ⟨cfg.tls, none⟩

def newWebServer (b : Build) (cfg : WebServerConfig) : Except String (Option WebServer) :=
  if 0 < cfg.port then (newServer b cfg).map some else .ok none

def Service.guardDashboard (svr : Service) (port : Int) : Service :=
  match svr.webServer with
  | none => svr
  | some ws =>
      if svr.firewall.isSome then { svr with webServer := some (ws.setConnFilter ⟨port⟩) } else svr

def newService (go : Go) (b : Build) (cfg : WebServerConfig) : Except String Service := do
  b.newServerTLSConfig
  let webServer ← newWebServer b cfg
  b.buildServerAuth
  let svr : Service := ⟨webServer, none⟩
  -- the firewall is still nil here; it is set only below
  let svr := svr.guardDashboard cfg.port
  let fw ← (Firewall.new go b.stateFile b.host b.now).mapError ("init firewall: " ++ ·)
  b.rest
  return { svr with firewall := some fw }

/-! ## The running dashboard -/

/-- A running dashboard: its listener, wrapped when it was started, and the firewall. -/
structure Running where
  listener : Listener
  firewall : Firewall

def Service.run (svr : Service) : Option Running :=
  match svr.webServer, svr.firewall with
  | some ws, some fw => some ⟨ws.run, fw⟩
  | _, _ => none

inductive Action where
  /-- The dashboard's API sets a configuration; saving it may fail. -/
  | setConfig (c : Config) (host : Host) (saveErr : Option String)
  | sweep (now : Int)

def step (go : Go) (r : Running) : Action → Option Running
  | .setConfig c host saveErr =>
      some { r with firewall := (r.firewall.setConfig go c host saveErr).1 }
  | .sweep now => some { r with firewall := r.firewall.prune now }

def Running.LetsThrough (go : Go) (r : Running) (m : Moment) (remoteAddr : String) : Prop :=
  r.listener.accept go r.firewall m remoteAddr = some remoteAddr

def Running.Guarded (go : Go) (r : Running) (port : Int) (m : Moment) (remoteAddr : String) :
    Prop :=
  r.LetsThrough go m remoteAddr ↔ (r.firewall.allowWeb go m remoteAddr port).1 = true

/-! ## No filter is installed -/

theorem bind_eq_ok {ε α β : Type} {x : Except ε α} {f : α → Except ε β} {b : β} :
    x.bind f = .ok b ↔ ∃ a, x = .ok a ∧ f a = .ok b := by
  cases x with
  | error | ok => simp [Except.bind]

variable {b : Build} {cfg : WebServerConfig} {go : Go} {svr : Service}

theorem newWebServer_eq_ok {ws : Option WebServer} (h : newWebServer b cfg = .ok ws) :
    ws = if 0 < cfg.port then some ⟨cfg.tls, none⟩ else none := by
  unfold newWebServer newServer at h
  split_ifs at h ⊢ with hport
  · cases hn : b.newServer with
    | error e =>
      rw [hn] at h
      cases h
    | ok _ =>
      rw [hn] at h
      cases h
      rfl
  · cases h
    rfl

theorem newService_eq_ok (h : newService go b cfg = .ok svr) :
    svr.webServer = (if 0 < cfg.port then some ⟨cfg.tls, none⟩ else none) ∧
      svr.firewall.isSome = true := by
  obtain ⟨_, -, h⟩ := bind_eq_ok.1 h
  obtain ⟨ws, hws, h⟩ := bind_eq_ok.1 h
  obtain ⟨_, -, h⟩ := bind_eq_ok.1 h
  obtain ⟨fw, -, h⟩ := bind_eq_ok.1 h
  obtain ⟨_, -, h⟩ := bind_eq_ok.1 h
  -- the step that guards the dashboard finds no firewall yet
  have hskip : Service.guardDashboard ⟨ws, none⟩ cfg.port = ⟨ws, none⟩ := by
    cases ws <;> rfl
  have hsvr := Except.ok.inj h
  rw [hskip] at hsvr
  rw [← hsvr]
  exact ⟨newWebServer_eq_ok hws, rfl⟩

def plainListener (tls : Bool) : Listener := (WebServer.mk tls none).run

theorem listener_of_reach {r₀ r : Running} (hnew : newService go b cfg = .ok svr)
    (hrun : svr.run = some r₀) (hr : Reach (step go) anyAction r₀ r) :
    r.listener = plainListener cfg.tls := by
  refine invariant_of_reach (P := fun r => r.listener = plainListener cfg.tls) ?_ ?_ hr
  · obtain ⟨hws, -⟩ := newService_eq_ok hnew
    unfold Service.run at hrun
    rw [hws] at hrun
    split_ifs at hrun
    cases hfw : svr.firewall with
    | none => simp [hfw] at hrun
    | some fw =>
      simp only [hfw, Option.some.injEq] at hrun
      rw [← hrun]
      rfl
  · intro u a v hu _ hst
    cases a with
    | setConfig | sweep =>
      cases hst
      exact hu

theorem letsThrough_of_reach {r₀ r : Running} (hnew : newService go b cfg = .ok svr)
    (hrun : svr.run = some r₀) (hr : Reach (step go) anyAction r₀ r) (m : Moment)
    (remoteAddr : String) : r.LetsThrough go m remoteAddr := by
  unfold Running.LetsThrough
  rw [listener_of_reach hnew hrun hr]
  cases cfg.tls <;> rfl

theorem run_isSome (hport : 0 < cfg.port) (hnew : newService go b cfg = .ok svr) :
    svr.run.isSome = true := by
  obtain ⟨hws, hfw⟩ := newService_eq_ok hnew
  obtain ⟨fw, hfw⟩ := Option.isSome_iff_exists.1 hfw
  simp [Service.run, hws, hfw, hport]

/-- The listener decides as `AllowWeb` does exactly when the firewall or its web switch is off, or
it lets the address in. -/
theorem guarded_iff (go : Go) (b : Build) (cfg : WebServerConfig) (svr : Service)
    (hport : 0 < cfg.port) (hnew : newService go b cfg = .ok svr) :
    ∃ r₀, svr.run = some r₀ ∧ ∀ r, Reach (step go) anyAction r₀ r →
      ∀ (m : Moment) (remoteAddr : String), r.Guarded go cfg.port m remoteAddr ↔
        r.firewall.enabled = false ∨ r.firewall.webPort = false ∨
          r.firewall.Admits go m (parseAddr go remoteAddr) cfg.port := by
  obtain ⟨r₀, hrun⟩ := Option.isSome_iff_exists.1 (run_isSome hport hnew)
  refine ⟨r₀, hrun, fun r hr m remoteAddr => ?_⟩
  have hthrough := letsThrough_of_reach hnew hrun hr m remoteAddr
  rw [← r.firewall.allowSwitched_iff go r.firewall.webPort "web port not protected"]
  exact iff_true_left hthrough

/-! ## A dashboard that is to be closed -/

def freshBuild : Build := ⟨.ok (), .ok (), .ok (), .notExist, ⟨[], fun _ _ => 0⟩, 0, .ok ()⟩

def webConfig : WebServerConfig := ⟨7500, true⟩

def denyAll : Config where
  enabled := true
  controlPort := false
  webPort := true
  default := ""
  rules := [⟨"r1", "deny", "*", "", "", 0⟩]
  provider := ProviderConfig.zero

def freshService (go : Go) : Service :=
  match newService go freshBuild webConfig with
  | .ok svr => svr
  | .error _ => ⟨none, none⟩

theorem newService_freshBuild (go : Go) :
    newService go freshBuild webConfig = .ok (freshService go) := rfl

def bareGo : Go := ⟨⟨fun _ => none, fun _ => none, fun _ => ""⟩, FrpMeo.Lib.Text.asciiCase⟩

theorem guarded_iff_freshBuild :
    ∃ r₀, (freshService bareGo).run = some r₀ ∧ ∀ r, Reach (step bareGo) anyAction r₀ r →
      ∀ (m : Moment) (remoteAddr : String), r.Guarded bareGo webConfig.port m remoteAddr ↔
        r.firewall.enabled = false ∨ r.firewall.webPort = false ∨
          r.firewall.Admits bareGo m (parseAddr bareGo remoteAddr) webConfig.port :=
  guarded_iff bareGo freshBuild webConfig (freshService bareGo) (by decide)
    (newService_freshBuild bareGo)

/-- After the dashboard is closed to everyone, the listener still lets each connection through. -/
theorem letsThrough_of_denyAll (go : Go) :
    ∃ r₀ r, (freshService go).run = some r₀ ∧ Reach (step go) anyAction r₀ r ∧
      ∀ (m : Moment) (remoteAddr : String), r.LetsThrough go m remoteAddr ∧
        r.firewall.allowWeb go m remoteAddr webConfig.port = (false, "rule r1") := by
  obtain ⟨r₀, hrun⟩ := Option.isSome_iff_exists.1
    (@run_isSome freshBuild webConfig go _ (by decide) (newService_freshBuild go))
  let r : Running := { r₀ with
    firewall := (r₀.firewall.setConfig go denyAll freshBuild.host none).1 }
  have hr : Reach (step go) anyAction r₀ r :=
    Relation.ReflTransGen.single ⟨.setConfig denyAll freshBuild.host none, trivial, rfl⟩
  refine ⟨r₀, r, hrun, hr, fun m remoteAddr => ⟨?_, rfl⟩⟩
  exact letsThrough_of_reach (newService_freshBuild go) hrun hr m remoteAddr

/-- The dashboard that is closed to everyone is not guarded against anyone. -/
theorem closed_dashboard_lets_through :
    ∃ r₀ r, (freshService bareGo).run = some r₀ ∧ Reach (step bareGo) anyAction r₀ r ∧
      ∀ (m : Moment) (remoteAddr : String), r.LetsThrough bareGo m remoteAddr ∧
        r.firewall.allowWeb bareGo m remoteAddr webConfig.port = (false, "rule r1") ∧
        ¬ r.Guarded bareGo webConfig.port m remoteAddr := by
  obtain ⟨r₀, r, hrun, hr, hall⟩ := letsThrough_of_denyAll bareGo
  refine ⟨r₀, r, hrun, hr, fun m remoteAddr => ?_⟩
  obtain ⟨hthrough, hdeny⟩ := hall m remoteAddr
  refine ⟨hthrough, hdeny, fun hg => ?_⟩
  have hallow := hg.1 hthrough
  rw [hdeny] at hallow
  cases hallow

end FrpMeo.Server.Dashboard
