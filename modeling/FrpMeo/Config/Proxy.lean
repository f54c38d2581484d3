import FrpMeo.Server.Names
import FrpMeo.Server.Resources

/-!
# Proxy configurations and the message that carries them

A client writes the configuration of a proxy into a `NewProxy` message (`MarshalToMsg` in
`pkg/config/v1/proxy.go`), and the server makes a configuration of it again
(`NewProxyConfigurerFromMsg` in `pkg/config/load.go`). Empty and nil slices or maps are the same:
JSON omits both.
-/

namespace FrpMeo.Config

open Lib.Text
open Server.Names (addUserPrefix)
open Server.Register (LoadBalancer ServerConfig ProxyConf)
open Vhost (DomainConfig)

/-- `strconv.ParseFloat` with the product `UnmarshalString` makes of it, `strings.ToLower`, and
`validation.IsQualifiedName` of Kubernetes. -/
structure Go where
  Float : Type
  parseFloat : String → Except String Float
  /-- `int64(f * float64(base))`. -/
  bytes : Float → Int → Int
  letters : CaseMap
  isQualifiedName : String → List String

structure StringMap where
  entries : List (String × String)
  sorted : entries.Pairwise fun a b => a.1 < b.1

namespace StringMap

instance : EmptyCollection StringMap := ⟨⟨[], List.Pairwise.nil⟩⟩

@[simp] theorem entries_empty : (∅ : StringMap).entries = [] := rfl

end StringMap

/-! ## Bandwidth -/

def cutSuffix (s suffix : String) : Option String :=
  if suffix.toList.isSuffixOf s.toList then
    some (String.ofList (s.toList.take (s.toList.length - suffix.toList.length)))
  else none

def MB : Int := 1024 * 1024

def KB : Int := 1024

def Go.parseQuantity (go : Go) (s : String) : Except String Int :=
  match cutSuffix s "MB", cutSuffix s "KB" with
  | some fstr, _ => (go.parseFloat fstr).map (go.bytes · MB)
  | none, some fstr => (go.parseFloat fstr).map (go.bytes · KB)
  | none, none => .error "unit not support"

/-- `types.BandwidthQuantity`. Its fields are private: a quantity is zero, or it has been parsed. -/
structure BandwidthQuantity (go : Go) where
  s : String
  i : Int
  parsed : (s = "" ∧ i = 0) ∨ (trimSpace s = s ∧ s ≠ "" ∧ go.parseQuantity s = .ok i)

namespace BandwidthQuantity

variable {go : Go}

def zero : BandwidthQuantity go := ⟨"", 0, .inl ⟨rfl, rfl⟩⟩

@[simp] theorem zero_s : (zero : BandwidthQuantity go).s = "" := rfl

theorem eq_zero (q : BandwidthQuantity go) (h : q.s = "") : q = zero := by
  rcases q.parsed with ⟨-, hi⟩ | ⟨-, hne, -⟩
  · cases q
    simp_all [zero]
  · exact absurd h hne

def unmarshalString (q : BandwidthQuantity go) (s : String) :
    BandwidthQuantity go × Option String :=
  if hs : trimSpace s = "" then (q, none)
  else
    match h : go.parseQuantity (trimSpace s) with
    | .error err => (q, some err)
    | .ok i => (⟨trimSpace s, i, .inr ⟨trimSpace_trimSpace s, hs, h⟩⟩, none)

def new (s : String) : BandwidthQuantity go × Option String := zero.unmarshalString s

theorem new_s (q : BandwidthQuantity go) : new q.s = (q, none) := by
  obtain ⟨s, i, ⟨rfl, rfl⟩ | ⟨htrim, hs, hparse⟩⟩ := q
  · have hempty : trimSpace "" = "" := by decide
    rfl
  · have hne : trimSpace s ≠ "" := by rwa [htrim]
    simp only [new, unmarshalString, dif_neg hne]
    split
    · rename_i err herr
      rw [htrim, hparse] at herr
      cases herr
    · rename_i i' hi
      rw [htrim, hparse] at hi
      cases hi
      simp only [htrim]

end BandwidthQuantity

/-! ## Configurations -/

inductive ProxyType where
  | tcp
  | udp
  | tcpmux
  | http
  | https
  | stcp
  | xtcp
  | sudp
  | xudp
  | tcpudp
  | stcpsudp
  | xtcpxudp
  | mc
  | pe
  deriving DecidableEq, Repr

namespace ProxyType

def name : ProxyType → String
  | tcp => "tcp"
  | udp => "udp"
  | tcpmux => "tcpmux"
  | http => "http"
  | https => "https"
  | stcp => "stcp"
  | xtcp => "xtcp"
  | sudp => "sudp"
  | xudp => "xudp"
  | tcpudp => "tcp+udp"
  | stcpsudp => "stcp+sudp"
  | xtcpxudp => "xtcp+xudp"
  | mc => "mc"
  | pe => "pe"

def all : List ProxyType :=
  [tcp, udp, http, https, tcpmux, stcp, xtcp, sudp, xudp, tcpudp, stcpsudp, xtcpxudp, mc, pe]

def ofName? (s : String) : Option ProxyType := all.find? fun t => t.name == s

theorem ofName?_name (t : ProxyType) : ofName? t.name = some t := by
  cases t <;> decide

theorem name_ne_empty (t : ProxyType) : t.name ≠ "" := by
  cases t <;> decide

end ProxyType

structure ProxyTransport (go : Go) where
  useEncryption : Bool := false
  useCompression : Bool := false
  bandwidthLimit : BandwidthQuantity go := .zero
  bandwidthLimitMode : String := ""
  proxyProtocolVersion : String := ""

structure HealthCheck where
  type : String := ""
  path : String := ""

inductive ClientPluginOptions where
  | http2https (localAddr : String)
  | https2http (localAddr : String)
  | https2https (localAddr : String)
  | staticFile (localPath : String)
  | unixDomainSocket (unixPath : String)
  | tls2raw (localAddr : String)
  | other

structure Plugin where
  type : String := ""
  options : Option ClientPluginOptions := none

structure ProxyBaseConfig (go : Go) where
  name : String := ""
  type : String := ""
  annotations : StringMap := ∅
  transport : ProxyTransport go := {}
  metadatas : StringMap := ∅
  loadBalancer : LoadBalancer := ⟨"", ""⟩
  healthCheck : HealthCheck := {}
  localIP : String := ""
  localPort : Int := 0
  plugin : Plugin := {}

structure RemotePortConfig (go : Go) extends ProxyBaseConfig go where
  remotePort : Int := 0

structure PEProxyConfig (go : Go) extends ProxyBaseConfig go where
  remotePort : Int := 0
  forcedHosts : StringMap := ∅

structure HTTPProxyConfig (go : Go) extends ProxyBaseConfig go where
  domains : DomainConfig := ⟨[], ""⟩
  locations : List String := []
  httpUser : String := ""
  httpPassword : String := ""
  hostHeaderRewrite : String := ""
  /-- `RequestHeaders.Set` and `ResponseHeaders.Set`. -/
  requestHeaders : StringMap := ∅
  responseHeaders : StringMap := ∅
  routeByHTTPUser : String := ""

structure HTTPSProxyConfig (go : Go) extends ProxyBaseConfig go where
  domains : DomainConfig := ⟨[], ""⟩

structure MCProxyConfig (go : Go) extends ProxyBaseConfig go where
  domains : DomainConfig := ⟨[], ""⟩
  remotePort : Int := 0

structure TCPMuxProxyConfig (go : Go) extends ProxyBaseConfig go where
  domains : DomainConfig := ⟨[], ""⟩
  httpUser : String := ""
  httpPassword : String := ""
  routeByHTTPUser : String := ""
  multiplexer : String := ""

structure SecretConfig (go : Go) extends ProxyBaseConfig go where
  secretkey : String := ""
  allowUsers : List String := []

inductive ProxyConfigurer (go : Go) where
  | tcp (c : RemotePortConfig go)
  | udp (c : RemotePortConfig go)
  | tcpudp (c : RemotePortConfig go)
  | pe (c : PEProxyConfig go)
  | http (c : HTTPProxyConfig go)
  | https (c : HTTPSProxyConfig go)
  | mc (c : MCProxyConfig go)
  | tcpmux (c : TCPMuxProxyConfig go)
  | stcp (c : SecretConfig go)
  | sudp (c : SecretConfig go)
  | stcpsudp (c : SecretConfig go)
  | xtcp (c : SecretConfig go)
  | xudp (c : SecretConfig go)
  | xtcpxudp (c : SecretConfig go)

/-! ## The message -/

structure NewProxy where
  proxyName : String := ""
  proxyType : String := ""
  useEncryption : Bool := false
  useCompression : Bool := false
  bandwidthLimit : String := ""
  bandwidthLimitMode : String := ""
  group : String := ""
  groupKey : String := ""
  metas : StringMap := ∅
  annotations : StringMap := ∅
  remotePort : Int := 0
  customDomains : List String := []
  subDomain : String := ""
  locations : List String := []
  httpUser : String := ""
  httpPwd : String := ""
  hostHeaderRewrite : String := ""
  headers : StringMap := ∅
  responseHeaders : StringMap := ∅
  routeByHTTPUser : String := ""
  sk : String := ""
  allowUsers : List String := []
  multiplexer : String := ""

variable {go : Go}

def emptyOr (v fallback : String) : String := if v = "" then fallback else v

namespace ProxyBaseConfig

def marshalToMsg (c : ProxyBaseConfig go) (m : NewProxy) : NewProxy :=
  { m with
    proxyName := c.name
    proxyType := c.type
    useEncryption := c.transport.useEncryption
    useCompression := c.transport.useCompression
    bandwidthLimit := c.transport.bandwidthLimit.s
    -- the default value is left out
    bandwidthLimitMode :=
      if c.transport.bandwidthLimitMode ≠ "client" then c.transport.bandwidthLimitMode
      else m.bandwidthLimitMode
    group := c.loadBalancer.group
    groupKey := c.loadBalancer.groupKey
    metas := c.metadatas
    annotations := c.annotations }

def unmarshalFromMsg (c : ProxyBaseConfig go) (m : NewProxy) : ProxyBaseConfig go :=
  { c with
    name := m.proxyName
    type := m.proxyType
    transport :=
      { c.transport with
        useEncryption := m.useEncryption
        useCompression := m.useCompression
        bandwidthLimit :=
          if m.bandwidthLimit ≠ "" then (BandwidthQuantity.new m.bandwidthLimit).1
          else c.transport.bandwidthLimit
        bandwidthLimitMode :=
          if m.bandwidthLimitMode ≠ "" then m.bandwidthLimitMode
          else c.transport.bandwidthLimitMode }
    loadBalancer := ⟨m.group, m.groupKey⟩
    metadatas := m.metas
    annotations := m.annotations }

/-- `Complete`; what it fills in for a plugin is not modelled. -/
def complete (c : ProxyBaseConfig go) : ProxyBaseConfig go :=
  { c with
    localIP := emptyOr c.localIP "127.0.0.1"
    transport :=
      { c.transport with
        bandwidthLimitMode := emptyOr c.transport.bandwidthLimitMode "client" } }

end ProxyBaseConfig

namespace RemotePortConfig

def marshalToMsg (c : RemotePortConfig go) (m : NewProxy) : NewProxy :=
  { c.toProxyBaseConfig.marshalToMsg m with remotePort := c.remotePort }

def unmarshalFromMsg (c : RemotePortConfig go) (m : NewProxy) : RemotePortConfig go :=
  ⟨c.toProxyBaseConfig.unmarshalFromMsg m, m.remotePort⟩

end RemotePortConfig

namespace PEProxyConfig

def marshalToMsg (c : PEProxyConfig go) (m : NewProxy) : NewProxy :=
  { c.toProxyBaseConfig.marshalToMsg m with remotePort := c.remotePort }

def unmarshalFromMsg (c : PEProxyConfig go) (m : NewProxy) : PEProxyConfig go :=
  ⟨c.toProxyBaseConfig.unmarshalFromMsg m, m.remotePort, c.forcedHosts⟩

end PEProxyConfig

namespace HTTPProxyConfig

def marshalToMsg (c : HTTPProxyConfig go) (m : NewProxy) : NewProxy :=
  { c.toProxyBaseConfig.marshalToMsg m with
    customDomains := c.domains.customDomains
    subDomain := c.domains.subDomain
    locations := c.locations
    hostHeaderRewrite := c.hostHeaderRewrite
    httpUser := c.httpUser
    httpPwd := c.httpPassword
    headers := c.requestHeaders
    responseHeaders := c.responseHeaders
    routeByHTTPUser := c.routeByHTTPUser }

def unmarshalFromMsg (c : HTTPProxyConfig go) (m : NewProxy) : HTTPProxyConfig go where
  toProxyBaseConfig := c.toProxyBaseConfig.unmarshalFromMsg m
  domains := ⟨m.customDomains, m.subDomain⟩
  locations := m.locations
  hostHeaderRewrite := m.hostHeaderRewrite
  httpUser := m.httpUser
  httpPassword := m.httpPwd
  requestHeaders := m.headers
  responseHeaders := m.responseHeaders
  routeByHTTPUser := m.routeByHTTPUser

end HTTPProxyConfig

namespace HTTPSProxyConfig

def marshalToMsg (c : HTTPSProxyConfig go) (m : NewProxy) : NewProxy :=
  { c.toProxyBaseConfig.marshalToMsg m with
    customDomains := c.domains.customDomains
    subDomain := c.domains.subDomain }

def unmarshalFromMsg (c : HTTPSProxyConfig go) (m : NewProxy) : HTTPSProxyConfig go where
  toProxyBaseConfig := c.toProxyBaseConfig.unmarshalFromMsg m
  domains := ⟨m.customDomains, m.subDomain⟩

end HTTPSProxyConfig

namespace MCProxyConfig

def marshalToMsg (c : MCProxyConfig go) (m : NewProxy) : NewProxy :=
  { c.toProxyBaseConfig.marshalToMsg m with
    customDomains := c.domains.customDomains
    subDomain := c.domains.subDomain
    remotePort := c.remotePort }

def unmarshalFromMsg (c : MCProxyConfig go) (m : NewProxy) : MCProxyConfig go where
  toProxyBaseConfig := c.toProxyBaseConfig.unmarshalFromMsg m
  domains := ⟨m.customDomains, m.subDomain⟩
  remotePort := m.remotePort

end MCProxyConfig

namespace TCPMuxProxyConfig

def marshalToMsg (c : TCPMuxProxyConfig go) (m : NewProxy) : NewProxy :=
  { c.toProxyBaseConfig.marshalToMsg m with
    customDomains := c.domains.customDomains
    subDomain := c.domains.subDomain
    multiplexer := c.multiplexer
    httpUser := c.httpUser
    httpPwd := c.httpPassword
    routeByHTTPUser := c.routeByHTTPUser }

def unmarshalFromMsg (c : TCPMuxProxyConfig go) (m : NewProxy) : TCPMuxProxyConfig go where
  toProxyBaseConfig := c.toProxyBaseConfig.unmarshalFromMsg m
  domains := ⟨m.customDomains, m.subDomain⟩
  multiplexer := m.multiplexer
  httpUser := m.httpUser
  httpPassword := m.httpPwd
  routeByHTTPUser := m.routeByHTTPUser

end TCPMuxProxyConfig

namespace SecretConfig

def marshalToMsg (c : SecretConfig go) (m : NewProxy) : NewProxy :=
  { c.toProxyBaseConfig.marshalToMsg m with sk := c.secretkey, allowUsers := c.allowUsers }

def unmarshalFromMsg (c : SecretConfig go) (m : NewProxy) : SecretConfig go :=
  ⟨c.toProxyBaseConfig.unmarshalFromMsg m, m.sk, m.allowUsers⟩

end SecretConfig

namespace ProxyConfigurer

def proxyType : ProxyConfigurer go → ProxyType
  | .tcp _ => .tcp
  | .udp _ => .udp
  | .tcpudp _ => .tcpudp
  | .pe _ => .pe
  | .http _ => .http
  | .https _ => .https
  | .mc _ => .mc
  | .tcpmux _ => .tcpmux
  | .stcp _ => .stcp
  | .sudp _ => .sudp
  | .stcpsudp _ => .stcpsudp
  | .xtcp _ => .xtcp
  | .xudp _ => .xudp
  | .xtcpxudp _ => .xtcpxudp

def base : ProxyConfigurer go → ProxyBaseConfig go
  | .tcp c => c.toProxyBaseConfig
  | .udp c => c.toProxyBaseConfig
  | .tcpudp c => c.toProxyBaseConfig
  | .pe c => c.toProxyBaseConfig
  | .http c => c.toProxyBaseConfig
  | .https c => c.toProxyBaseConfig
  | .mc c => c.toProxyBaseConfig
  | .tcpmux c => c.toProxyBaseConfig
  | .stcp c => c.toProxyBaseConfig
  | .sudp c => c.toProxyBaseConfig
  | .stcpsudp c => c.toProxyBaseConfig
  | .xtcp c => c.toProxyBaseConfig
  | .xudp c => c.toProxyBaseConfig
  | .xtcpxudp c => c.toProxyBaseConfig

def complete : ProxyConfigurer go → ProxyConfigurer go
  | .tcp c => .tcp { c with toProxyBaseConfig := c.toProxyBaseConfig.complete }
  | .udp c => .udp { c with toProxyBaseConfig := c.toProxyBaseConfig.complete }
  | .tcpudp c => .tcpudp { c with toProxyBaseConfig := c.toProxyBaseConfig.complete }
  | .pe c => .pe { c with toProxyBaseConfig := c.toProxyBaseConfig.complete }
  | .http c => .http { c with toProxyBaseConfig := c.toProxyBaseConfig.complete }
  | .https c => .https { c with toProxyBaseConfig := c.toProxyBaseConfig.complete }
  | .mc c => .mc { c with toProxyBaseConfig := c.toProxyBaseConfig.complete }
  | .tcpmux c => .tcpmux { c with toProxyBaseConfig := c.toProxyBaseConfig.complete }
  | .stcp c => .stcp { c with toProxyBaseConfig := c.toProxyBaseConfig.complete }
  | .sudp c => .sudp { c with toProxyBaseConfig := c.toProxyBaseConfig.complete }
  | .stcpsudp c => .stcpsudp { c with toProxyBaseConfig := c.toProxyBaseConfig.complete }
  | .xtcp c => .xtcp { c with toProxyBaseConfig := c.toProxyBaseConfig.complete }
  | .xudp c => .xudp { c with toProxyBaseConfig := c.toProxyBaseConfig.complete }
  | .xtcpxudp c => .xtcpxudp { c with toProxyBaseConfig := c.toProxyBaseConfig.complete }

def marshalToMsg (m : NewProxy) : ProxyConfigurer go → NewProxy
  | .tcp c => c.marshalToMsg m
  | .udp c => c.marshalToMsg m
  | .tcpudp c => c.marshalToMsg m
  | .pe c => c.marshalToMsg m
  | .http c => c.marshalToMsg m
  | .https c => c.marshalToMsg m
  | .mc c => c.marshalToMsg m
  | .tcpmux c => c.marshalToMsg m
  | .stcp c => c.marshalToMsg m
  | .sudp c => c.marshalToMsg m
  | .stcpsudp c => c.marshalToMsg m
  | .xtcp c => c.marshalToMsg m
  | .xudp c => c.marshalToMsg m
  | .xtcpxudp c => c.marshalToMsg m

def unmarshalFromMsg (m : NewProxy) : ProxyConfigurer go → ProxyConfigurer go
  | .tcp c => .tcp (c.unmarshalFromMsg m)
  | .udp c => .udp (c.unmarshalFromMsg m)
  | .tcpudp c => .tcpudp (c.unmarshalFromMsg m)
  | .pe c => .pe (c.unmarshalFromMsg m)
  | .http c => .http (c.unmarshalFromMsg m)
  | .https c => .https (c.unmarshalFromMsg m)
  | .mc c => .mc (c.unmarshalFromMsg m)
  | .tcpmux c => .tcpmux (c.unmarshalFromMsg m)
  | .stcp c => .stcp (c.unmarshalFromMsg m)
  | .sudp c => .sudp (c.unmarshalFromMsg m)
  | .stcpsudp c => .stcpsudp (c.unmarshalFromMsg m)
  | .xtcp c => .xtcp (c.unmarshalFromMsg m)
  | .xudp c => .xudp (c.unmarshalFromMsg m)
  | .xtcpxudp c => .xtcpxudp (c.unmarshalFromMsg m)

def new : ProxyType → ProxyConfigurer go
  | .tcp => .tcp { type := ProxyType.tcp.name }
  | .udp => .udp { type := ProxyType.udp.name }
  | .tcpudp => .tcpudp { type := ProxyType.tcpudp.name }
  | .pe => .pe { type := ProxyType.pe.name }
  | .http => .http { type := ProxyType.http.name }
  | .https => .https { type := ProxyType.https.name }
  | .mc => .mc { type := ProxyType.mc.name }
  | .tcpmux => .tcpmux { type := ProxyType.tcpmux.name }
  | .stcp => .stcp { type := ProxyType.stcp.name }
  | .sudp => .sudp { type := ProxyType.sudp.name }
  | .stcpsudp => .stcpsudp { type := ProxyType.stcpsudp.name }
  | .xtcp => .xtcp { type := ProxyType.xtcp.name }
  | .xudp => .xudp { type := ProxyType.xudp.name }
  | .xtcpxudp => .xtcpxudp { type := ProxyType.xtcpxudp.name }

def conf : ProxyConfigurer go → ProxyConf
  | .tcp c => .tcp c.remotePort c.loadBalancer
  | .udp c => .udp c.remotePort
  | .tcpudp c => .tcpudp c.remotePort
  | .pe c => .pe c.remotePort
  | .http c => .http c.domains c.locations c.routeByHTTPUser c.httpUser c.httpPassword
      c.loadBalancer
  | .https c => .https c.domains c.loadBalancer
  | .mc c => .mc c.remotePort c.domains
  | .tcpmux c => .tcpmux c.multiplexer c.domains c.routeByHTTPUser c.httpUser c.httpPassword
      c.loadBalancer
  | .stcp _ => .stcp
  | .sudp _ => .sudp
  | .stcpsudp _ => .stcpsudp
  | .xtcp _ => .xtcp
  | .xudp _ => .xudp
  | .xtcpxudp _ => .xtcpxudp

end ProxyConfigurer

def newProxyMsg (user : String) (c : ProxyConfigurer go) : NewProxy :=
  { c.marshalToMsg {} with proxyName := addUserPrefix user c.base.name }

/-! ## Validation by the server -/

def totalAnnotationSizeLimitB : Nat := 256 * 2 ^ 10

def byteLen (s : String) : Nat := (s.toList.map Char.utf8Size).sum

def annotationsSize (annotations : StringMap) : Nat :=
  (annotations.entries.map fun e => byteLen e.1 + byteLen e.2).sum

def annotationErrors (go : Go) (annotations : StringMap) : List String :=
  annotations.entries.flatMap (fun e =>
    (go.isQualifiedName (toLower go.letters e.1)).map fun msg =>
      "annotation key " ++ e.1 ++ " is invalid: " ++ msg) ++
  (if totalAnnotationSizeLimitB < annotationsSize annotations then
    [s!"annotations size {annotationsSize annotations} is larger than limit " ++
      s!"{totalAnnotationSizeLimitB}"]
   else [])

/-- `ValidateAnnotations`; `errors.Join` puts each error on a line of its own. -/
def validateAnnotations (go : Go) (annotations : StringMap) : Except String Unit :=
  match annotationErrors go annotations with
  | [] => .ok ()
  | errs => .error ("\n".intercalate errs)

def validateProxyConfigurerForServer (s : ServerConfig) (c : ProxyConfigurer go) :
    Except String Unit :=
  match validateAnnotations go c.base.annotations with
  | .error err => .error err
  | .ok () => c.conf.validateForServer s

def newProxyConfigurerFromMsg (go : Go) (s : ServerConfig) (m : NewProxy) :
    Except String (ProxyConfigurer go) :=
  let m := { m with proxyType := emptyOr m.proxyType ProxyType.tcp.name }
  match ProxyType.ofName? m.proxyType with
  | none => .error ("unknown proxy type: " ++ m.proxyType)
  | some t =>
    let configurer := ((ProxyConfigurer.new t).unmarshalFromMsg m).complete
    match validateProxyConfigurerForServer s configurer with
    | .error err => .error err
    | .ok () => .ok configurer

/-! ## What the server reads -/

structure BaseView (go : Go) where
  name : String
  type : String
  useEncryption : Bool
  useCompression : Bool
  bandwidthLimit : BandwidthQuantity go
  bandwidthLimitMode : String
  group : String
  groupKey : String
  metadatas : StringMap
  annotations : StringMap

/-- The other fields that the server reads. Those which a type does not have are zero. -/
structure Fields where
  remotePort : Int := 0
  customDomains : List String := []
  subDomain : String := ""
  locations : List String := []
  httpUser : String := ""
  httpPassword : String := ""
  hostHeaderRewrite : String := ""
  requestHeaders : StringMap := ∅
  responseHeaders : StringMap := ∅
  routeByHTTPUser : String := ""
  multiplexer : String := ""
  secretkey : String := ""
  allowUsers : List String := []

def ProxyBaseConfig.view (c : ProxyBaseConfig go) : BaseView go where
  name := c.name
  type := c.type
  useEncryption := c.transport.useEncryption
  useCompression := c.transport.useCompression
  bandwidthLimit := c.transport.bandwidthLimit
  bandwidthLimitMode := c.transport.bandwidthLimitMode
  group := c.loadBalancer.group
  groupKey := c.loadBalancer.groupKey
  metadatas := c.metadatas
  annotations := c.annotations

namespace ProxyConfigurer

def fields : ProxyConfigurer go → Fields
  | .tcp c => { remotePort := c.remotePort }
  | .udp c => { remotePort := c.remotePort }
  | .tcpudp c => { remotePort := c.remotePort }
  | .pe c => { remotePort := c.remotePort }
  | .http c =>
    { customDomains := c.domains.customDomains
      subDomain := c.domains.subDomain
      locations := c.locations
      httpUser := c.httpUser
      httpPassword := c.httpPassword
      hostHeaderRewrite := c.hostHeaderRewrite
      requestHeaders := c.requestHeaders
      responseHeaders := c.responseHeaders
      routeByHTTPUser := c.routeByHTTPUser }
  | .https c => { customDomains := c.domains.customDomains, subDomain := c.domains.subDomain }
  | .mc c =>
    { customDomains := c.domains.customDomains
      subDomain := c.domains.subDomain
      remotePort := c.remotePort }
  | .tcpmux c =>
    { customDomains := c.domains.customDomains
      subDomain := c.domains.subDomain
      httpUser := c.httpUser
      httpPassword := c.httpPassword
      routeByHTTPUser := c.routeByHTTPUser
      multiplexer := c.multiplexer }
  | .stcp c => { secretkey := c.secretkey, allowUsers := c.allowUsers }
  | .sudp c => { secretkey := c.secretkey, allowUsers := c.allowUsers }
  | .stcpsudp c => { secretkey := c.secretkey, allowUsers := c.allowUsers }
  | .xtcp c => { secretkey := c.secretkey, allowUsers := c.allowUsers }
  | .xudp c => { secretkey := c.secretkey, allowUsers := c.allowUsers }
  | .xtcpxudp c => { secretkey := c.secretkey, allowUsers := c.allowUsers }

end ProxyConfigurer

/-- A configuration that `Complete` has been called on, with the type that its kind has. -/
def ProxyConfigurer.Completed (c : ProxyConfigurer go) : Prop :=
  c.base.type = c.proxyType.name ∧ ∃ c₀ : ProxyConfigurer go, c = c₀.complete

/-! ## Round trip -/

theorem emptyOr_ne {v fallback : String} (h : fallback ≠ "") : emptyOr v fallback ≠ "" := by
  by_cases hv : v = "" <;> simp [emptyOr, hv, h]

theorem mode_restored {mode : String} (h : mode ≠ "") :
    emptyOr (if (if mode ≠ "client" then mode else "") ≠ "" then
      (if mode ≠ "client" then mode else "") else "") "client" = mode := by
  by_cases hclient : mode = "client"
  · simp [hclient, emptyOr]
  · simp [hclient, h, emptyOr]

theorem limit_restored (q : BandwidthQuantity go) :
    (if q.s ≠ "" then (BandwidthQuantity.new q.s).1 else BandwidthQuantity.zero) = q := by
  by_cases hs : q.s = ""
  · rw [if_neg (not_not.2 hs), q.eq_zero hs]
  · rw [if_pos hs, BandwidthQuantity.new_s]

namespace ProxyBaseConfig

def fresh (type : String) : ProxyBaseConfig go := { type }

theorem view_roundtrip (c : ProxyBaseConfig go) (hmode : c.transport.bandwidthLimitMode ≠ "")
    (wireName type : String) :
    (((fresh type).unmarshalFromMsg { c.marshalToMsg {} with proxyName := wireName }).complete :
      ProxyBaseConfig go).view = { c.view with name := wireName } := by
  simp only [view, complete, unmarshalFromMsg, marshalToMsg, fresh, limit_restored,
    mode_restored hmode]

end ProxyBaseConfig

theorem ProxyConfigurer.Completed.mode_ne {c : ProxyConfigurer go} (h : c.Completed) :
    c.base.transport.bandwidthLimitMode ≠ "" := by
  obtain ⟨-, c₀, rfl⟩ := h
  cases c₀ <;> exact emptyOr_ne (by decide)

def rebuilt (user : String) (c : ProxyConfigurer go) : ProxyConfigurer go :=
  ((ProxyConfigurer.new c.proxyType).unmarshalFromMsg (newProxyMsg user c)).complete

section Rebuilt

variable (user : String) (c : ProxyConfigurer go)

theorem rebuilt_base : (rebuilt user c).base =
      ((ProxyBaseConfig.fresh c.proxyType.name).unmarshalFromMsg
        { c.base.marshalToMsg {} with proxyName := addUserPrefix user c.base.name }).complete := by
  cases c <;> rfl

theorem rebuilt_conf : (rebuilt user c).conf = c.conf := by
  cases c <;> rfl

theorem newProxyMsg_proxyType : (newProxyMsg user c).proxyType = c.base.type := by
  cases c <;> rfl

/-- The server refuses what it rebuilds exactly when it would refuse what the client has. -/
theorem validateProxyConfigurerForServer_rebuilt (s : ServerConfig) :
    validateProxyConfigurerForServer s (rebuilt user c) = validateProxyConfigurerForServer s c := by
  have hannotations : (rebuilt user c).base.annotations = c.base.annotations := by
    rw [rebuilt_base]
    rfl
  simp only [validateProxyConfigurerForServer, hannotations, rebuilt_conf]

end Rebuilt

theorem newProxyConfigurerFromMsg_eq {c : ProxyConfigurer go} (user : String)
    (htype : c.base.type = c.proxyType.name) (s : ServerConfig) :
    newProxyConfigurerFromMsg go s (newProxyMsg user c) =
      (validateProxyConfigurerForServer s c).map fun _ => rebuilt user c := by
  have hname : emptyOr (newProxyMsg user c).proxyType ProxyType.tcp.name = c.proxyType.name := by
    rw [newProxyMsg_proxyType, htype, emptyOr, if_neg c.proxyType.name_ne_empty]
  have hmsg : { newProxyMsg user c with proxyType := c.proxyType.name } = newProxyMsg user c := by
    rw [← htype, ← newProxyMsg_proxyType user c]
  simp only [newProxyConfigurerFromMsg, hname, hmsg, ProxyType.ofName?_name]
  rw [← validateProxyConfigurerForServer_rebuilt user c s]
  cases hvalid : validateProxyConfigurerForServer s (rebuilt user c) with
  | error err =>
    rw [rebuilt] at hvalid
    simp only [hvalid, Except.map]
  | ok u =>
    rw [rebuilt] at hvalid
    simp only [hvalid, Except.map, rebuilt]

/-- The server gets every field it reads as the client has it, and the name with the user in front;
it refuses only what it would refuse of the client's. -/
theorem rebuilt_agrees (go : Go) (user : String) (c : ProxyConfigurer go) (hc : c.Completed)
    (s : ServerConfig) : ∃ r : ProxyConfigurer go, r.proxyType = c.proxyType ∧ r.fields = c.fields ∧
      r.base.view = { c.base.view with name := addUserPrefix user c.base.name } ∧
      newProxyConfigurerFromMsg go s (newProxyMsg user c) =
        (validateProxyConfigurerForServer s c).map fun _ => r := by
  refine ⟨rebuilt user c, by cases c <;> rfl, by cases c <;> rfl, ?_,
    newProxyConfigurerFromMsg_eq user hc.1 s⟩
  rw [rebuilt_base]
  exact ProxyBaseConfig.view_roundtrip c.base hc.mode_ne _ _

def sampleGo : Go where
  Float := Unit
  parseFloat := fun _ => .error "invalid syntax"
  bytes := fun _ _ => 0
  letters := asciiCase
  isQualifiedName := fun _ => []

def sampleConfig : ProxyConfigurer sampleGo :=
  ProxyConfigurer.complete
    (.tcp { name := "web", type := "tcp", localPort := 80, remotePort := 6000 })

def sampleServer : ServerConfig where
  subDomainHost := ""
  proxyBindAddr := ""
  maxPortsPerClient := 0
  vhostHTTPPort := 0
  vhostHTTPSPort := 0
  tcpmuxHTTPConnectPort := 0
  natHoleController := true

theorem rebuilt_agrees_web :
    ∃ r : ProxyConfigurer sampleGo, r.proxyType = .tcp ∧ r.fields = { remotePort := 6000 } ∧
      r.base.view = { sampleConfig.base.view with name := "alice.web" } ∧
      newProxyConfigurerFromMsg sampleGo sampleServer (newProxyMsg "alice" sampleConfig) = .ok r :=
  rebuilt_agrees sampleGo "alice" sampleConfig ⟨rfl, _, rfl⟩ sampleServer

/-- With a user, the name that the server has is not the one in the client's configuration. -/
theorem user_renames : sampleConfig.base.name = "web" ∧
      (newProxyConfigurerFromMsg sampleGo sampleServer (newProxyMsg "alice" sampleConfig)).map
        (fun r => r.base.name) = .ok "alice.web" :=
  ⟨rfl, rfl⟩

end FrpMeo.Config
