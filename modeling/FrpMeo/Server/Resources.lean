import FrpMeo.Lib.Unwind
import FrpMeo.Server.Ports
import FrpMeo.Vhost.Domains
import FrpMeo.Vhost.Group
import FrpMeo.Vhost.Tcpmux

/-!
# Registering a proxy

`Control.RegisterProxy` with the `Run` and `Close` of the fourteen proxy types and of the groups
(`server/control.go`, `server/proxy/*.go`, `server/group/*.go`), over what the server holds for its
proxies (`Resources`). What a call asks the operating system is an argument (`Env`), and so is
whether another control takes the name between `Exist` and `Add`. Calls come one at a time.
-/

namespace FrpMeo.Server.Register

open Lib.Unwind Function
open Server.Ports (Manager Moment AcquireError PortsRange newManager)
open Vhost (Go Routers RouteConfig RouteSpec Listener Group GroupErr DomainConfig
  buildDomains utf8 validateDomainConfigForServer)

/-! ## Configuration -/

/-- The part of `v1.ServerConfig` that registrations read, and if there is a `NatHoleController`. -/
structure ServerConfig extends Vhost.ServerConfig where
  proxyBindAddr : String
  maxPortsPerClient : Int
  vhostHTTPPort : Int
  vhostHTTPSPort : Int
  tcpmuxHTTPConnectPort : Int
  natHoleController : Bool

structure LoadBalancer where
  group : String
  groupKey : String

inductive ProxyConf where
  | tcp (remotePort : Int) (lb : LoadBalancer)
  | udp (remotePort : Int)
  | pe (remotePort : Int)
  | tcpudp (remotePort : Int)
  | http (domains : DomainConfig) (locations : List String)
      (routeByHTTPUser httpUser httpPassword : String) (lb : LoadBalancer)
  | https (domains : DomainConfig) (lb : LoadBalancer)
  | tcpmux (multiplexer : String) (domains : DomainConfig)
      (routeByHTTPUser httpUser httpPassword : String) (lb : LoadBalancer)
  | mc (remotePort : Int) (domains : DomainConfig)
  | stcp
  | sudp
  | stcpsudp
  | xtcp
  | xudp
  | xtcpxudp

structure NewProxy where
  proxyName : String
  annotations : Except String Unit
  conf : ProxyConf

def httpConnect : String := "httpconnect"

/-- The switch in `ValidateProxyConfigurerForServer`. -/
def ProxyConf.validateForServer (s : ServerConfig) : ProxyConf → Except String Unit
  | .pe remotePort =>
      if remotePort = 0 then .error "remotePort is required for the pe proxy type" else .ok ()
  | .mc remotePort domains =>
      if remotePort = 0 then .error "remotePort is required for the mc proxy type"
      else validateDomainConfigForServer domains s.toServerConfig
  | .http domains _ _ _ _ _ =>
      if s.vhostHTTPPort = 0 then
        .error "type [http] not supported when vhost http port is not set"
      else validateDomainConfigForServer domains s.toServerConfig
  | .https domains _ =>
      if s.vhostHTTPSPort = 0 then
        .error "type [https] not supported when vhost https port is not set"
      else validateDomainConfigForServer domains s.toServerConfig
  | .tcpmux multiplexer domains _ _ _ _ =>
      if multiplexer = httpConnect ∧ s.tcpmuxHTTPConnectPort = 0 then
        .error ("tcpmux with multiplexer httpconnect not supported because this feature is not " ++
          "enabled in server")
      else validateDomainConfigForServer domains s.toServerConfig
  | .tcp _ _ | .udp _ | .tcpudp _ | .stcp | .sudp | .stcpsudp | .xtcp | .xudp | .xtcpxudp => .ok ()

/-- `NewProxyConfigurerFromMsg`. -/
def NewProxy.validate (msg : NewProxy) (s : ServerConfig) : Except String Unit :=
  match msg.annotations with
  | .error err => .error err
  | .ok () => msg.conf.validateForServer s

/-- `GetUsedPortsNum`: what the constructors set `usedPortsNum` to. -/
def ProxyConf.usedPortsNum : ProxyConf → Int
  | .tcp _ _ | .udp _ | .pe _ | .tcpudp _ => 1
  | _ => 0

/-! ## What the server holds -/

/-- `TCPGroup`; of its listeners only the number matters. -/
structure TCPGroup where
  group : String
  groupKey : String
  addr : String
  port : Int
  realPort : Int
  /-- The port of `realLn`. -/
  lnPort : Int
  lns : Nat

def TCPGroup.new : TCPGroup := ⟨"", "", "", 0, 0, 0, 0⟩

structure MinecraftPortMux where
  routers : Routers Listener
  /-- The port of the muxer's listener. -/
  lnPort : Int
  refs : Nat

structure Tcp where
  ports : Manager
  /-- The ports of the listeners that are open. -/
  listeners : Multiset Int
  groups : String → Option TCPGroup
  muxers : Int → Option MinecraftPortMux

structure Udp where
  ports : Manager
  /-- The ports of the sockets that are open. -/
  conns : Multiset Int

structure HttpVhost where
  routes : Routers RouteConfig
  groups : String → Option Group

/-- `HTTPSGroup` and `TCPMuxGroup`; `route` is the config of the real listener. -/
structure MuxGroup where
  group : String
  groupKey : String
  route : Listener
  lns : Nat

def MuxGroup.new : MuxGroup := ⟨"", "", ⟨[], [], [], [], []⟩, 0⟩

structure VhostMux where
  routes : Routers Listener
  groups : String → Option MuxGroup

inductive Mux where
  | https
  | httpConnect
  deriving DecidableEq

structure Resources where
  tcp : Tcp
  udp : Udp
  http : HttpVhost
  muxes : Mux → VhostMux
  /-- The listeners of the `VisitorManager`. -/
  visitors : Finset String
  /-- `clientCfgs` of the `NatHoleController`. -/
  clients : Finset String
  /-- The names in the `PxyManager`. -/
  pxys : Finset String

def Resources.new (allowPorts : List PortsRange) : Resources where
  tcp := ⟨newManager allowPorts, 0, fun _ => none, fun _ => none⟩
  udp := ⟨newManager allowPorts, 0⟩
  http := ⟨.empty, fun _ => none⟩
  muxes := fun _ => ⟨.empty, fun _ => none⟩
  visitors := ∅
  clients := ∅
  pxys := ∅

structure Env where
  /-- For the calls of `Acquire`. -/
  tcp : Moment
  udp : Moment
  listenTCP : Int → Except String Unit
  resolveUDP : Int → Except String Unit
  listenUDP : Int → Except String Unit
  newMuxer : Except String Unit
  /-- The ports the system picks for a listener that asks for port 0. -/
  tcpPick : Int
  udpPick : Int
  /-- Another control has registered the name since `Exist`. -/
  nameTaken : Bool
  object : Nat
  now : Int

def bound (pick port : Int) : Int := if port = 0 then pick else port

/-! ## Texts of errors -/

def errText : AcquireError → String
  | .alreadyUsed => "port already used"
  | .notAllowed => "port not allowed"
  | .unavailable => "port unavailable"
  | .noAvailable => "no available port"

def errRouterConfigConflict : String := "router config conflict"
def errGroupAuthFailed : String := "group auth failed"
def errGroupParamsInvalid : String := "group params invalid"
def errGroupDifferentPort : String := "group should have same remote port"
def errProxyRepeated : String := "group proxy repeated"

def groupErrText : GroupErr → String
  | .routerConfigConflict => errRouterConfigConflict
  | .groupParamsInvalid => errGroupParamsInvalid
  | .groupAuthFailed => errGroupAuthFailed
  | .proxyRepeated => errProxyRepeated

/-! ## Groups on TCP ports -/

def Tcp.setGroup (t : Tcp) (group : String) (tg : Option TCPGroup) : Tcp :=
  { t with groups := update t.groups group tg }

/-- `TCPGroupCtl.Listen`: the port of the group, and that of its real listener. -/
def Tcp.groupListen (env : Env) (proxyName : String) (lb : LoadBalancer) (addr : String)
    (port : Int) (t : Tcp) : Tcp × Except String (Int × Int) :=
  -- `getOrCreate` leaves its entry behind also when the first listener fails
  let tg := (t.groups lb.group).getD .new
  let t := t.setGroup lb.group (some tg)
  if tg.lns = 0 then
    match t.ports.acquire proxyName port env.tcp with
    | (m, .error err) => ({ t with ports := m }, .error (errText err))
    | (m, .ok realPort) =>
        match env.listenTCP realPort with
        | .error err => ({ t with ports := m.release realPort env.now }, .error err)
        | .ok () =>
            let lnPort := bound env.tcpPick realPort
            let t := { t with ports := m, listeners := lnPort ::ₘ t.listeners }
            (t.setGroup lb.group (some ⟨lb.group, lb.groupKey, addr, port, realPort, lnPort, 1⟩),
              .ok (realPort, lnPort))
  else if tg.group ≠ lb.group ∨ tg.addr ≠ addr then (t, .error errGroupParamsInvalid)
  else if tg.port ≠ port then (t, .error errGroupDifferentPort)
  else if tg.groupKey ≠ lb.groupKey then (t, .error errGroupAuthFailed)
  else
    (t.setGroup lb.group (some { tg with lns := tg.lns + 1 }), .ok (tg.realPort, tg.lnPort))

/-- The last listener closes the real one and runs the `cleanupFn`. -/
def Tcp.groupClose (now : Int) (group : String) (t : Tcp) : Tcp :=
  match t.groups group with
  | none => t
  | some tg =>
      if tg.lns ≤ 1 then
        { t with
          listeners := t.listeners.erase tg.lnPort
          ports := t.ports.release tg.realPort now
          groups := update t.groups group none }
      else t.setGroup group (some { tg with lns := tg.lns - 1 })

/-! ## HTTP routes and groups -/

namespace HttpVhost

def register (go : Go) (object : Nat) (spec : RouteSpec) (v : HttpVhost) :
    HttpVhost × Except String Unit :=
  match v.routes.add go spec.domain spec.location spec.routeByHTTPUser
    ⟨object, spec, .proxy spec.connFn⟩ with
  | none => (v, .error errRouterConfigConflict)
  | some routes => ({ v with routes := routes }, .ok ())

def unRegister (go : Go) (spec : RouteSpec) (v : HttpVhost) : HttpVhost :=
  { v with routes := v.routes.del go spec.domain spec.location spec.routeByHTTPUser }

def setGroup (v : HttpVhost) (group : String) (g : Option Group) : HttpVhost :=
  { v with groups := update v.groups group g }

def groupRegister (go : Go) (object : Nat) (proxyName : String) (lb : LoadBalancer)
    (spec : RouteSpec) (v : HttpVhost) : HttpVhost × Except String Unit :=
  let g := (v.groups lb.group).getD .new
  let v := v.setGroup lb.group (some g)
  match g.register go object object v.routes (utf8 proxyName) (utf8 lb.group) (utf8 lb.groupKey)
    spec with
  | .error err => (v, .error (groupErrText err))
  | .ok (g, routes) => ({ v with routes := routes }.setGroup lb.group (some g), .ok ())

def groupUnRegister (go : Go) (proxyName group : String) (v : HttpVhost) : HttpVhost :=
  match v.groups group with
  | none => v
  | some g =>
      let left := g.remove (utf8 proxyName)
      if left.members = [] then
        { v with routes := v.routes.del go g.domain g.location g.routeByHTTPUser }.setGroup group
          none
      else v.setGroup group (some left)

/-- One turn of the loops in `HTTPProxy.Run`. -/
def listen (go : Go) (object : Nat) (proxyName : String) (lb : LoadBalancer)
    (spec : RouteSpec) : HttpVhost → HttpVhost × Except String Unit :=
  if lb.group ≠ "" then groupRegister go object proxyName lb spec
  else register go object spec

/-- One of the `closeFuncs` of an `HTTPProxy`. -/
def close (go : Go) (proxyName group : String) (spec : RouteSpec) :
    HttpVhost → HttpVhost :=
  if group ≠ "" then groupUnRegister go proxyName group
  else unRegister go spec

end HttpVhost

/-! ## Routes and groups of a muxer -/

def muxerListen (go : Go) (routes : Routers Listener) (l : Listener) : Option (Routers Listener) :=
  routes.add go l.name l.location l.routeByHTTPUser l

def muxerClose (go : Go) (routes : Routers Listener) (l : Listener) : Routers Listener :=
  routes.del go l.name l.location l.routeByHTTPUser

def VhostMux.setGroup (v : VhostMux) (group : String) (g : Option MuxGroup) : VhostMux :=
  { v with groups := update v.groups group g }

/-- `HTTPSGroupController.Listen` and `TCPMuxGroupCtl.Listen`; https leaves the other fields empty.
-/
def VhostMux.groupListen (go : Go) (lb : LoadBalancer) (l : Listener) (v : VhostMux) :
    VhostMux × Except String Unit :=
  let g := (v.groups lb.group).getD .new
  let v := v.setGroup lb.group (some g)
  if g.lns = 0 then
    match muxerListen go v.routes l with
    | none => (v, .error errRouterConfigConflict)
    | some routes =>
        ({ v with routes := routes }.setGroup lb.group (some ⟨lb.group, lb.groupKey, l, 1⟩),
          .ok ())
  else if g.group ≠ lb.group ∨ g.route.name ≠ l.name ∨
      g.route.routeByHTTPUser ≠ l.routeByHTTPUser ∨ g.route.username ≠ l.username ∨
      g.route.password ≠ l.password then (v, .error errGroupParamsInvalid)
  else if g.groupKey ≠ lb.groupKey then (v, .error errGroupAuthFailed)
  else (v.setGroup lb.group (some { g with lns := g.lns + 1 }), .ok ())

def VhostMux.groupClose (go : Go) (group : String) (v : VhostMux) : VhostMux :=
  match v.groups group with
  | none => v
  | some g =>
      if g.lns ≤ 1 then { v with routes := muxerClose go v.routes g.route }.setGroup group none
      else v.setGroup group (some { g with lns := g.lns - 1 })

/-- `listenForDomain` and `httpConnectListen`. -/
def VhostMux.listen (go : Go) (lb : LoadBalancer) (l : Listener) (v : VhostMux) :
    VhostMux × Except String Unit :=
  if lb.group ≠ "" then v.groupListen go lb l
  else
    match muxerListen go v.routes l with
    | none => (v, .error errRouterConfigConflict)
    | some routes => ({ v with routes := routes }, .ok ())

def VhostMux.close (go : Go) (group : String) (l : Listener) (v : VhostMux) : VhostMux :=
  if group ≠ "" then v.groupClose go group
  else { v with routes := muxerClose go v.routes l }

/-! ## Shared Minecraft ports -/

def minecraftPortName (port : Int) : String := "@minecraft-" ++ toString port

def Tcp.minecraftDrop (now port : Int) (mux : MinecraftPortMux) (t : Tcp) : Tcp :=
  { t with
    listeners := t.listeners.erase mux.lnPort
    ports := t.ports.release port now
    muxers := update t.muxers port none }

def Tcp.minecraftMux (env : Env) (port : Int) (t : Tcp) : Tcp × Except String MinecraftPortMux :=
  match t.muxers port with
  | some mux => (t, .ok mux)
  | none =>
      match t.ports.acquire (minecraftPortName port) port env.tcp with
      | (m, .error err) =>
          ({ t with ports := m },
            .error ("acquire minecraft port [" ++ toString port ++ "] error: " ++ errText err))
      | (m, .ok realPort) =>
          match env.listenTCP realPort with
          | .error err => ({ t with ports := m.release realPort env.now }, .error err)
          | .ok () =>
              match env.newMuxer with
              | .error err => ({ t with ports := m.release realPort env.now }, .error err)
              | .ok () =>
                  let mux : MinecraftPortMux := ⟨.empty, bound env.tcpPick realPort, 0⟩
                  ({ t with
                      ports := m
                      listeners := mux.lnPort ::ₘ t.listeners
                      muxers := update t.muxers port (some mux) }, .ok mux)

def Tcp.minecraftListen (go : Go) (env : Env) (port : Int) (l : Listener) (t : Tcp) :
    Tcp × Except String Unit :=
  match t.minecraftMux env port with
  | (t, .error err) => (t, .error err)
  | (t, .ok mux) =>
      match muxerListen go mux.routers l with
      | none =>
          (if mux.refs = 0 then t.minecraftDrop env.now port mux else t,
            .error errRouterConfigConflict)
      | some routers =>
          ({ t with
              muxers := update t.muxers port
                (some { mux with routers := routers, refs := mux.refs + 1 }) }, .ok ())

/-- `Close` of a `minecraftGroupListener`: the route first, then `release`. -/
def Tcp.minecraftClose (go : Go) (now port : Int) (l : Listener) (t : Tcp) : Tcp :=
  match t.muxers port with
  | none => t
  | some mux =>
      if mux.refs ≤ 1 then t.minecraftDrop now port mux
      else
        { t with
          muxers := update t.muxers port
            (some { mux with routers := muxerClose go mux.routers l, refs := mux.refs - 1 }) }

/-! ## Running and closing a proxy -/

inductive Running where
  | tcp (realBindPort lnPort : Int)
  | tcpMember (group : String) (lnPort : Int)
  | udp (realBindPort connPort : Int)
  | tcpudp (realBindPort lnPort connPort : Int)
  | http (group : String) (closeFuncs : List RouteSpec)
  | mux (m : Mux) (group : String) (listeners : List Listener)
  | mc (remotePort : Int) (listeners : List Listener)
  | visitor
  | client
  | visitorAndClient

def Resources.setMux (r : Resources) (mux : Mux) (v : VhostMux) : Resources :=
  { r with muxes := update r.muxes mux v }

def Running.close (go : Go) (now : Int) (name : String) (r : Resources) : Running → Resources
  | .tcp realBindPort lnPort =>
      { r with tcp := { r.tcp with
          listeners := r.tcp.listeners.erase lnPort
          ports := r.tcp.ports.release realBindPort now } }
  | .tcpMember group _ => { r with tcp := r.tcp.groupClose now group }
  | .udp realBindPort connPort =>
      { r with udp := ⟨r.udp.ports.release realBindPort now, r.udp.conns.erase connPort⟩ }
  | .tcpudp realBindPort lnPort connPort =>
      { r with
        tcp := { r.tcp with
          listeners := r.tcp.listeners.erase lnPort
          ports := r.tcp.ports.release realBindPort now }
        udp := ⟨r.udp.ports.release realBindPort now, r.udp.conns.erase connPort⟩ }
  | .http group closeFuncs =>
      { r with http := closeAll (HttpVhost.close go name group) closeFuncs r.http }
  | .mux m group listeners => r.setMux m (closeAll (VhostMux.close go group) listeners (r.muxes m))
  | .mc remotePort listeners =>
      { r with tcp := closeAll (Tcp.minecraftClose go now remotePort) listeners r.tcp }
  | .visitor => { r with visitors := r.visitors.erase name }
  | .client => { r with clients := r.clients.erase name }
  | .visitorAndClient =>
      { r with visitors := r.visitors.erase name, clients := r.clients.erase name }

def tcpRun (s : ServerConfig) (env : Env) (name : String) (remotePort : Int) (lb : LoadBalancer)
    (r : Resources) : Resources × Except String Running :=
  if lb.group ≠ "" then
    match r.tcp.groupListen env name lb s.proxyBindAddr remotePort with
    | (t, .error err) => ({ r with tcp := t }, .error err)
    | (t, .ok (_, lnPort)) => ({ r with tcp := t }, .ok (.tcpMember lb.group lnPort))
  else
    match r.tcp.ports.acquire name remotePort env.tcp with
    | (m, .error err) => ({ r with tcp := { r.tcp with ports := m } }, .error (errText err))
    | (m, .ok realBindPort) =>
        match env.listenTCP realBindPort with
        | .error err =>
            ({ r with tcp := { r.tcp with ports := m.release realBindPort env.now } }, .error err)
        | .ok () =>
            let lnPort := bound env.tcpPick realBindPort
            ({ r with tcp := { r.tcp with ports := m, listeners := lnPort ::ₘ r.tcp.listeners } },
              .ok (.tcp realBindPort lnPort))

def Env.openUDP (env : Env) (port : Int) : Except String Unit :=
  match env.resolveUDP port with
  | .error err => .error err
  | .ok () => env.listenUDP port

def udpRun (env : Env) (name : String) (remotePort : Int) (r : Resources) :
    Resources × Except String Running :=
  match r.udp.ports.acquire name remotePort env.udp with
  | (m, .error err) =>
      ({ r with udp := { r.udp with ports := m } },
        .error ("acquire port " ++ toString remotePort ++ " error: " ++ errText err))
  | (m, .ok realBindPort) =>
      match env.openUDP realBindPort with
      | .error err =>
          ({ r with udp := { r.udp with ports := m.release realBindPort env.now } }, .error err)
      | .ok () =>
          let connPort := bound env.udpPick realBindPort
          ({ r with udp := ⟨m, connPort ::ₘ r.udp.conns⟩ }, .ok (.udp realBindPort connPort))

def tcpudpRun (env : Env) (name : String) (remotePort : Int) (r : Resources) :
    Resources × Except String Running :=
  match r.tcp.ports.acquire name remotePort env.tcp with
  | (m, .error err) =>
      ({ r with tcp := { r.tcp with ports := m } },
        .error ("acquire tcp port error: " ++ errText err))
  | (m, .ok realBindPort) =>
      match r.udp.ports.acquire name realBindPort env.udp with
      | (m', .error err) =>
          ({ r with
              tcp := { r.tcp with ports := m.release realBindPort env.now }
              udp := { r.udp with ports := m' } },
            .error ("acquire udp port " ++ toString realBindPort ++ " error: " ++ errText err))
      | (m', .ok _) =>
          match env.listenTCP realBindPort with
          | .error err =>
              ({ r with
                  tcp := { r.tcp with ports := m.release realBindPort env.now }
                  udp := { r.udp with ports := m'.release realBindPort env.now } }, .error err)
          | .ok () =>
              let lnPort := bound env.tcpPick realBindPort
              match env.openUDP realBindPort with
              | .error err =>
                  -- both ports are given back, but nobody closes the listener
                  ({ r with
                      tcp := { r.tcp with
                        ports := m.release realBindPort env.now
                        listeners := lnPort ::ₘ r.tcp.listeners }
                      udp := { r.udp with ports := m'.release realBindPort env.now } }, .error err)
              | .ok () =>
                  let connPort := bound env.udpPick realBindPort
                  ({ r with
                      tcp := { r.tcp with ports := m, listeners := lnPort ::ₘ r.tcp.listeners }
                      udp := ⟨m', connPort ::ₘ r.udp.conns⟩ },
                    .ok (.tcpudp realBindPort lnPort connPort))

def httpRoutes (s : ServerConfig) (object : Nat) (domains : DomainConfig) (locations : List String)
    (routeByHTTPUser httpUser httpPassword : String) : List RouteSpec :=
  let locations := if locations = [] then [""] else locations
  (buildDomains domains s.toServerConfig).flatMap fun domain => locations.map fun location =>
    { domain := utf8 domain
      location := utf8 location
      username := utf8 httpUser
      password := utf8 httpPassword
      routeByHTTPUser := utf8 routeByHTTPUser
      pxy := object }

def httpRun (go : Go) (env : Env) (name : String) (lb : LoadBalancer) (specs : List RouteSpec)
    (r : Resources) : Resources × Except String Running :=
  match openOrClose (HttpVhost.listen go env.object name lb) (HttpVhost.close go name lb.group)
    specs r.http with
  | (v, .error err) => ({ r with http := v }, .error err)
  | (v, .ok closeFuncs) => ({ r with http := v }, .ok (.http lb.group closeFuncs))

def muxRoutes (s : ServerConfig) (domains : DomainConfig)
    (routeByHTTPUser httpUser httpPassword : String) : List Listener :=
  (buildDomains domains s.toServerConfig).map fun domain =>
    { name := utf8 domain
      location := []
      routeByHTTPUser := utf8 routeByHTTPUser
      username := utf8 httpUser
      password := utf8 httpPassword }

/-- `HTTPSProxy.Run` and `httpConnectRun`. -/
def muxRun (go : Go) (mux : Mux) (lb : LoadBalancer) (ls : List Listener) (r : Resources) :
    Resources × Except String Running :=
  match openOrClose (VhostMux.listen go lb) (VhostMux.close go lb.group) ls (r.muxes mux) with
  | (v, .error err) => (r.setMux mux v, .error err)
  | (v, .ok listeners) => (r.setMux mux v, .ok (.mux mux lb.group listeners))

def mcRun (go : Go) (env : Env) (remotePort : Int) (ls : List Listener) (r : Resources) :
    Resources × Except String Running :=
  match openOrClose (Tcp.minecraftListen go env remotePort)
    (Tcp.minecraftClose go env.now remotePort) ls r.tcp with
  | (t, .error err) => ({ r with tcp := t }, .error err)
  | (t, .ok listeners) => ({ r with tcp := t }, .ok (.mc remotePort listeners))

def startVisitorListener (name : String) (r : Resources) : Resources × Except String Unit :=
  if name ∈ r.visitors then (r, .error ("custom listener for [" ++ name ++ "] is repeated"))
  else ({ r with visitors := insert name r.visitors }, .ok ())

def listenClient (name : String) (r : Resources) : Resources × Except String Unit :=
  if name ∈ r.clients then (r, .error ("proxy [" ++ name ++ "] is repeated"))
  else ({ r with clients := insert name r.clients }, .ok ())

/-- `Run` of stcp, sudp and stcp+sudp. -/
def visitorRun (name : String) (r : Resources) : Resources × Except String Running :=
  match startVisitorListener name r with
  | (r, .error err) => (r, .error err)
  | (r, .ok ()) => (r, .ok .visitor)

/-- `Run` of xtcp and xudp. -/
def clientRun (s : ServerConfig) (kind name : String) (r : Resources) :
    Resources × Except String Running :=
  if s.natHoleController then
    match listenClient name r with
    | (r, .error err) => (r, .error err)
    | (r, .ok ()) => (r, .ok .client)
  else (r, .error (kind ++ " is not supported in frps"))

def xtcpxudpRun (s : ServerConfig) (name : String) (r : Resources) :
    Resources × Except String Running :=
  if s.natHoleController then
    match startVisitorListener name r with
    | (r, .error err) => (r, .error err)
    | (r, .ok ()) =>
        match listenClient name r with
        -- the visitor listener stays
        | (r, .error err) => (r, .error err)
        | (r, .ok ()) => (r, .ok .visitorAndClient)
  else (r, .error "xtcpxudp is not supported in frps")

def ProxyConf.run (go : Go) (s : ServerConfig) (env : Env) (name : String) (r : Resources) :
    ProxyConf → Resources × Except String Running
  | .tcp remotePort lb => tcpRun s env name remotePort lb r
  | .udp remotePort => udpRun env name remotePort r
  | .pe remotePort => udpRun env name remotePort r
  | .tcpudp remotePort => tcpudpRun env name remotePort r
  | .http domains locations routeByHTTPUser httpUser httpPassword lb =>
      httpRun go env name lb
        (httpRoutes s env.object domains locations routeByHTTPUser httpUser httpPassword) r
  | .https domains lb => muxRun go .https lb (muxRoutes s domains "" "" "") r
  | .tcpmux multiplexer domains routeByHTTPUser httpUser httpPassword lb =>
      if multiplexer = httpConnect then
        muxRun go .httpConnect lb (muxRoutes s domains routeByHTTPUser httpUser httpPassword) r
      else (r, .error ("unknown multiplexer [" ++ multiplexer ++ "]"))
  | .mc remotePort domains => mcRun go env remotePort (muxRoutes s domains "" "" "") r
  | .stcp | .sudp | .stcpsudp => visitorRun name r
  | .xtcp => clientRun s "xtcp" name r
  | .xudp => clientRun s "xudp" name r
  | .xtcpxudp => xtcpxudpRun s name r

/-! ## The control -/

structure Proxy where
  conf : ProxyConf
  running : Running

/-- `Control`; the map `proxies` is a list without two entries of one name. -/
structure Control where
  portsUsedNum : Int
  proxies : List (String × Proxy)
  distinct : (proxies.map Prod.fst).Nodup

def Control.new : Control := ⟨0, [], List.nodup_nil⟩

def Control.proxy (ctl : Control) (name : String) : Option Proxy :=
  (ctl.proxies.find? fun entry => entry.1 == name).map Prod.snd

def Control.delete (ctl : Control) (name : String) : Control :=
  { ctl with
    proxies := ctl.proxies.filter fun entry => entry.1 ≠ name
    distinct := (List.filter_sublist.map Prod.fst).nodup ctl.distinct }

theorem Control.notMem_delete (ctl : Control) (name : String) :
    name ∉ (ctl.delete name).proxies.map Prod.fst := by
  simp [Control.delete]

def Control.store (ctl : Control) (name : String) (pxy : Proxy) : Control :=
  { ctl with
    proxies := (name, pxy) :: (ctl.delete name).proxies
    distinct := List.nodup_cons.2 ⟨ctl.notMem_delete name, (ctl.delete name).distinct⟩ }

def Control.count (s : ServerConfig) (ctl : Control) (n : Int) : Control :=
  if 0 < s.maxPortsPerClient then { ctl with portsUsedNum := ctl.portsUsedNum + n } else ctl

def Control.exceeds (s : ServerConfig) (ctl : Control) (conf : ProxyConf) : Bool :=
  0 < s.maxPortsPerClient && s.maxPortsPerClient < ctl.portsUsedNum + conf.usedPortsNum

def addProxy (name : String) (taken : Bool) (r : Resources) : Resources × Except String Unit :=
  if taken ∨ name ∈ r.pxys then (r, .error ("proxy name [" ++ name ++ "] is already in use"))
  else ({ r with pxys := insert name r.pxys }, .ok ())

structure Registered where
  resources : Resources
  control : Control
  err : Option String

/-- `RegisterProxy`, from `pxy.Run` on. -/
def runAndAdd (go : Go) (s : ServerConfig) (msg : NewProxy) (env : Env) (r : Resources)
    (ctl : Control) : Registered :=
  -- the deferred function takes back the reservation
  let rollback := ctl.count s (-msg.conf.usedPortsNum)
  match msg.conf.run go s env msg.proxyName r with
  | (r, .error err) => ⟨r, rollback, some err⟩
  | (r, .ok running) =>
      match addProxy msg.proxyName env.nameTaken r with
      | (r, .error err) => ⟨running.close go env.now msg.proxyName r, rollback, some err⟩
      | (r, .ok ()) => ⟨r, ctl.store msg.proxyName ⟨msg.conf, running⟩, none⟩

def registerProxy (go : Go) (s : ServerConfig) (msg : NewProxy) (env : Env) (r : Resources)
    (ctl : Control) : Registered :=
  match msg.validate s with
  | .error err => ⟨r, ctl, some err⟩
  | .ok () =>
      if ctl.exceeds s msg.conf then ⟨r, ctl, some "exceed the max_ports_per_client"⟩
      else
        let reserved := ctl.count s msg.conf.usedPortsNum
        if msg.proxyName ∈ r.pxys then
          ⟨r, reserved.count s (-msg.conf.usedPortsNum),
            some ("proxy [" ++ msg.proxyName ++ "] already exists")⟩
        else runAndAdd go s msg env r reserved

def closeProxy (go : Go) (now : Int) (name : String) (running : Running) (r : Resources) :
    Resources :=
  let r := running.close go now name r
  { r with pxys := r.pxys.erase name }

end FrpMeo.Server.Register
