import FrpMeo.Config.Proxy
import FrpMeo.Lib.Json
import FrpMeo.Wire.Message

/-!
# Announcing a proxy over wire protocol v2

A client announces a proxy through a `Dispatcher` (`pkg/msg/handler.go`), whose send loop ignores
the errors of `WriteMsg`. A v2 frame has at most 64 KiB (`pkg/proto/wire/wire.go`), but the
validation (`pkg/config/v1/validation/proxy.go`) admits annotations of 256 KiB.
-/

namespace FrpMeo.Config

open Lib Lib.Json Wire
open Vhost (DomainConfig)

variable {go : Go}

/-! ## Validation by the client -/

def validatePort (port : Int) (fieldPath : String) : Except String Unit :=
  if 0 ≤ port ∧ port ≤ 65535 then .ok ()
  else .error s!"{fieldPath}: port number {port} must be in the range 0..65535"

def required (value name : String) : Except String Unit :=
  if value = "" then .error (name ++ " is required") else .ok ()

def validateClientPluginOptions : ClientPluginOptions → Except String Unit
  | .http2https localAddr => required localAddr "localAddr"
  | .https2http localAddr => required localAddr "localAddr"
  | .https2https localAddr => required localAddr "localAddr"
  | .staticFile localPath => required localPath "localPath"
  | .unixDomainSocket unixPath => required unixPath "unixPath"
  | .tls2raw localAddr => required localAddr "localAddr"
  | .other => .ok ()

def validateDomainConfigForClient (c : DomainConfig) : Except String Unit :=
  if c.subDomain = "" ∧ c.customDomains = [] then
    .error "subdomain and custom domains should not be both empty"
  else .ok ()

def validateBackend (c : ProxyBaseConfig go) : Except String Unit :=
  if c.plugin.type = "" then (validatePort c.localPort "localPort").mapError ("localPort: " ++ ·)
  else .ok ()

def validatePlugin (c : ProxyBaseConfig go) : Except String Unit :=
  if c.plugin.type = "" then .ok ()
  else
    match c.plugin.options with
    | none => .ok ()
    | some options =>
      (validateClientPluginOptions options).mapError fun err =>
        "plugin " ++ c.plugin.type ++ ": " ++ err

def validateHealthCheck (c : HealthCheck) : Except String Unit :=
  if c.type ∉ ["", "tcp", "http"] then .error ("not support health check type: " ++ c.type)
  else if c.type = "http" ∧ c.path = "" then .error "health check path should not be empty"
  else .ok ()

def validateProxyBaseConfigForClient (c : ProxyBaseConfig go) : Except String Unit := do
  if c.name = "" then throw "name should not be empty"
  validateAnnotations go c.annotations
  if c.transport.proxyProtocolVersion ∉ ["", "v1", "v2"] then
    throw ("not support proxy protocol version: " ++ c.transport.proxyProtocolVersion)
  if c.transport.bandwidthLimitMode ∉ ["client", "server"] then
    throw "bandwidth limit mode should be client or server"
  validateBackend c
  validateHealthCheck c.healthCheck
  validatePlugin c

def validateFieldsForClient : ProxyConfigurer go → Except String Unit
  | .tcpmux c => do
    validateDomainConfigForClient c.domains
    if c.multiplexer ≠ "httpconnect" then throw ("not support multiplexer: " ++ c.multiplexer)
  | .http c => validateDomainConfigForClient c.domains
  | .https c => validateDomainConfigForClient c.domains
  | .mc c => do
    if c.remotePort = 0 then throw "remotePort is required for the mc proxy type"
    validateDomainConfigForClient c.domains
  | .pe c => do
    if c.remotePort = 0 then throw "remotePort is required for the pe proxy type"
    if c.forcedHosts.entries = [] then
      throw "forcedHosts must not be empty for the pe proxy type"
  | .tcp _ | .udp _ | .tcpudp _ | .stcp _ | .sudp _ | .stcpsudp _ | .xtcp _ | .xudp _
  | .xtcpxudp _ => .ok ()

def validateProxyConfigurerForClient (c : ProxyConfigurer go) : Except String Unit := do
  validateProxyBaseConfigForClient c.base
  validateFieldsForClient c

/-! ## Texts of the messages -/

namespace NewProxy

def marshal (m : NewProxy) : Bytes :=
  object
    [textField "proxy_name" m.proxyName, textField "proxy_type" m.proxyType,
      flagField "use_encryption" m.useEncryption, flagField "use_compression" m.useCompression,
      textField "bandwidth_limit" m.bandwidthLimit,
      textField "bandwidth_limit_mode" m.bandwidthLimitMode, textField "group" m.group,
      textField "group_key" m.groupKey, mapField "metas" m.metas.entries,
      mapField "annotations" m.annotations.entries, intField "remote_port" m.remotePort,
      listField "custom_domains" m.customDomains, textField "subdomain" m.subDomain,
      listField "locations" m.locations, textField "http_user" m.httpUser,
      textField "http_pwd" m.httpPwd, textField "host_header_rewrite" m.hostHeaderRewrite,
      mapField "headers" m.headers.entries,
      mapField "response_headers" m.responseHeaders.entries,
      textField "route_by_http_user" m.routeByHTTPUser, textField "sk" m.sk,
      listField "allow_users" m.allowUsers, textField "multiplexer" m.multiplexer]

def size (m : NewProxy) : Nat :=
  objectSize
    [textFieldSize "proxy_name" m.proxyName, textFieldSize "proxy_type" m.proxyType,
      flagFieldSize "use_encryption" m.useEncryption,
      flagFieldSize "use_compression" m.useCompression,
      textFieldSize "bandwidth_limit" m.bandwidthLimit,
      textFieldSize "bandwidth_limit_mode" m.bandwidthLimitMode, textFieldSize "group" m.group,
      textFieldSize "group_key" m.groupKey, mapFieldSize "metas" m.metas.entries,
      mapFieldSize "annotations" m.annotations.entries, intFieldSize "remote_port" m.remotePort,
      listFieldSize "custom_domains" m.customDomains, textFieldSize "subdomain" m.subDomain,
      listFieldSize "locations" m.locations, textFieldSize "http_user" m.httpUser,
      textFieldSize "http_pwd" m.httpPwd, textFieldSize "host_header_rewrite" m.hostHeaderRewrite,
      mapFieldSize "headers" m.headers.entries,
      mapFieldSize "response_headers" m.responseHeaders.entries,
      textFieldSize "route_by_http_user" m.routeByHTTPUser, textFieldSize "sk" m.sk,
      listFieldSize "allow_users" m.allowUsers, textFieldSize "multiplexer" m.multiplexer]

theorem length_marshal (m : NewProxy) : m.marshal.length = m.size := by
  simp only [marshal, size, length_object, List.map_cons, List.map_nil, fieldSize_textField,
    fieldSize_flagField, fieldSize_mapField, fieldSize_intField, fieldSize_listField]

end NewProxy

structure NewProxyResp where
  proxyName : String
  remoteAddr : String
  error : String
  deriving DecidableEq, Repr

namespace NewProxyResp

def marshal (m : NewProxyResp) : Bytes :=
  object [textField "proxy_name" m.proxyName, textField "remote_addr" m.remoteAddr,
    textField "error" m.error]

def size (m : NewProxyResp) : Nat :=
  objectSize [textFieldSize "proxy_name" m.proxyName, textFieldSize "remote_addr" m.remoteAddr,
    textFieldSize "error" m.error]

theorem length_marshal (m : NewProxyResp) : m.marshal.length = m.size := by
  simp only [marshal, size, length_object, List.map_cons, List.map_nil, fieldSize_textField]

end NewProxyResp

/-! ## The two ends -/

def NewProxy.frame (m : NewProxy) : Frame := messageFrame .newProxy m.marshal

def NewProxyResp.frame (m : NewProxyResp) : Frame := messageFrame .newProxyResp m.marshal

def sendLoop : List Frame → Bytes
  | [] => []
  | f :: fs =>
    match newConn.writeFrame f with
    | .ok bytes => bytes ++ sendLoop fs
    | .error _ => sendLoop fs

structure Server where
  decode : Frame → Option NewProxy
  registerProxy : NewProxy → Except String String
  detailedErrorsToClient : Bool

namespace Server

def handleNewProxy (sv : Server) (m : NewProxy) : NewProxyResp :=
  match sv.registerProxy m with
  | .ok remoteAddr => ⟨m.proxyName, remoteAddr, ""⟩
  | .error err =>
    ⟨m.proxyName, "",
      if sv.detailedErrorsToClient then err else "new proxy [" ++ m.proxyName ++ "] error"⟩

def serve (sv : Server) (r : Reader) : Bytes :=
  match newConn.readFrame r with
  | (.error _, _) => []
  | (.ok f, _) =>
    match sv.decode f with
    | none => []
    | some m => sendLoop [(sv.handleNewProxy m).frame]

end Server

structure Announced (sv : Server) (m : NewProxy) : Prop where
  within : m.frame.payload.length ≤ newConn.maxFramePayloadSize.toNat
  sent : sendLoop [m.frame] ≠ []
  answered : ∀ r r' : Reader, r.pending = sendLoop [m.frame] → r'.pending = sv.serve r →
    ∃ rest, newConn.readFrame r' = (.ok (sv.handleNewProxy m).frame, rest)

/-! ## What is dropped -/

theorem frame_size (m : NewProxy) : m.frame.payload.length = m.size + 2 := by
  rw [NewProxy.frame, length_messageFrame, NewProxy.length_marshal]

theorem respFrame_size (m : NewProxyResp) : m.frame.payload.length = m.size + 2 := by
  rw [NewProxyResp.frame, length_messageFrame, NewProxyResp.length_marshal]

variable {f : Frame}

theorem sendLoop_of_le (hflags : f.flags = 0)
    (h : f.payload.length ≤ newConn.maxFramePayloadSize.toNat) :
    sendLoop [f] = Conn.header f ++ f.payload := by
  simp [sendLoop, Conn.writeFrame, hflags, Nat.not_lt.2 h]

theorem sendLoop_of_lt (hflags : f.flags = 0)
    (h : newConn.maxFramePayloadSize.toNat < f.payload.length) : sendLoop [f] = [] := by
  simp [sendLoop, Conn.writeFrame, hflags, h]

theorem readFrame_sendLoop {r : Reader} (hflags : f.flags = 0)
    (h : f.payload.length ≤ newConn.maxFramePayloadSize.toNat)
    (hr : r.pending = sendLoop [f]) : ∃ rest, newConn.readFrame r = (.ok f, rest) := by
  have hbegins : newConn.Begins f r.pending [] :=
    ⟨hflags, h, by rw [hr, sendLoop_of_le hflags h, List.append_nil]⟩
  obtain ⟨rest, hread, -⟩ := Conn.readFrame_of_begins hbegins
  exact ⟨rest, hread⟩

theorem not_readFrame_nil {r rest : Reader} (hr : r.pending = []) :
    newConn.readFrame r ≠ (.ok f, rest) := by
  intro h
  have hbytes := (Conn.begins_of_readFrame h).bytes
  rw [hr] at hbytes
  have hlen := congrArg List.length hbytes
  simp only [List.length_nil, List.length_append, Conn.length_header] at hlen
  omega

/-- An announcement is sent and answered exactly when it and its answer both fit. -/
theorem announced_iff (go : Go) (user : String) (c : ProxyConfigurer go) (sv : Server)
    (hdecode : sv.decode (newProxyMsg user c).frame = some (newProxyMsg user c)) :
    Announced sv (newProxyMsg user c) ↔ (newProxyMsg user c).size + 2 ≤ 64 * 1024 ∧
        (sv.handleNewProxy (newProxyMsg user c)).size + 2 ≤ 64 * 1024 := by
  generalize newProxyMsg user c = m at hdecode
  have hlimit : newConn.maxFramePayloadSize.toNat = 64 * 1024 := rfl
  constructor
  · intro h
    have hsize : m.size + 2 ≤ 64 * 1024 := by
      have hwithin := h.within
      rwa [frame_size, hlimit] at hwithin
    refine ⟨hsize, ?_⟩
    by_contra hlarge
    -- the server reads the announcement, but its response is dropped
    have hdropped : sendLoop [(sv.handleNewProxy m).frame] = [] := by
      apply sendLoop_of_lt rfl
      rw [respFrame_size, hlimit]
      exact Nat.lt_of_not_le hlarge
    obtain ⟨s, hread⟩ := readFrame_sendLoop
      (r := ⟨[sendLoop [m.frame]], .eof⟩) rfl h.within (by simp [Reader.pending])
    have hserve : sv.serve ⟨[sendLoop [m.frame]], .eof⟩ = [] := by
      simp only [Server.serve, hread, hdecode, hdropped]
    obtain ⟨rest, hanswer⟩ := h.answered ⟨[sendLoop [m.frame]], .eof⟩ ⟨[], .eof⟩
      (by simp [Reader.pending]) (by rw [hserve]; rfl)
    exact not_readFrame_nil rfl hanswer
  · rintro ⟨hsize, hresp⟩
    have hwithin : m.frame.payload.length ≤ newConn.maxFramePayloadSize.toNat := by
      rwa [frame_size, hlimit]
    have hrespWithin : (sv.handleNewProxy m).frame.payload.length ≤
        newConn.maxFramePayloadSize.toNat := by
      rwa [respFrame_size, hlimit]
    refine ⟨hwithin, ?_, ?_⟩
    · rw [sendLoop_of_le rfl hwithin]
      intro hnil
      have hlen := congrArg List.length hnil
      simp at hlen
    · intro r r' hr hr'
      obtain ⟨s, hread⟩ := readFrame_sendLoop rfl hwithin hr
      have hserve : sv.serve r = sendLoop [(sv.handleNewProxy m).frame] := by
        simp only [Server.serve, hread, hdecode]
      exact readFrame_sendLoop rfl hrespWithin (hr'.trans hserve)

def sampleAnswerer (m : NewProxy) : Server where
  decode := fun f => if f = m.frame then some m else none
  registerProxy := fun _ => .ok ":6000"
  detailedErrorsToClient := true

theorem announced_iff_web :
    Announced (sampleAnswerer (newProxyMsg "" sampleConfig)) (newProxyMsg "" sampleConfig) :=
  (announced_iff sampleGo "" sampleConfig _ (by simp [sampleAnswerer])).2 (by decide)

def letters (n : Nat) : String := String.ofList (List.replicate n 'a')

theorem byteLen_letters (n : Nat) : byteLen (letters n) = n := by
  have ha : Char.utf8Size 'a' = 1 := by decide
  rw [byteLen, letters, String.toList_ofList, List.map_replicate, List.sum_replicate, ha,
    smul_eq_mul, Nat.mul_one]

theorem quotedSize_letters (n : Nat) : quotedSize (letters n) = n + 2 := by
  have ha : escapedSize 'a' = 1 := by decide
  rw [quotedSize, letters, String.toList_ofList, List.map_replicate, List.sum_replicate, ha,
    smul_eq_mul, Nat.mul_one]

def annotated (text : String) : ProxyConfigurer sampleGo :=
  ProxyConfigurer.complete
    (.tcp
      { name := "web", type := "tcp", localPort := 80, remotePort := 6000
        annotations := ⟨[("note", text)], List.pairwise_singleton _ _⟩ })

theorem annotated_valid {text : String} (h : byteLen text + 4 ≤ totalAnnotationSizeLimitB) :
    validateProxyConfigurerForClient (annotated text) = .ok () := by
  have hnote : byteLen "note" = 4 := by decide
  have herrors : annotationErrors sampleGo (annotated text).base.annotations = [] := by
    have hsize : ¬ totalAnnotationSizeLimitB < byteLen "note" + byteLen text := by omega
    simp [annotationErrors, annotationsSize, annotated, ProxyConfigurer.complete,
      ProxyConfigurer.base, ProxyBaseConfig.complete, sampleGo, hsize]
  have hannotations : validateAnnotations sampleGo (annotated text).base.annotations = .ok () := by
    rw [validateAnnotations, herrors]
  simp only [validateProxyConfigurerForClient, validateProxyBaseConfigForClient, hannotations]
  rfl

theorem size_annotated (text : String) :
    (newProxyMsg "" (annotated text)).size = quotedSize text + 82 := by
  have hname : quotedSize "proxy_name" + 1 + quotedSize "web" = 18 := by decide
  have htype : quotedSize "proxy_type" + 1 + quotedSize "tcp" = 18 := by decide
  have hnote : quotedSize "annotations" + 1 + (quotedSize "note" + 1 + 2) = 23 := by decide
  have hport : quotedSize "remote_port" + 1 + intSize 6000 = 18 := by decide
  have hpresent : (newProxyMsg "" (annotated text)).size =
      commasSize [quotedSize "proxy_name" + 1 + quotedSize "web",
        quotedSize "proxy_type" + 1 + quotedSize "tcp",
        quotedSize "annotations" + 1 + (commasSize [quotedSize "note" + 1 + quotedSize text] + 2),
        quotedSize "remote_port" + 1 + intSize 6000] + 2 := by
    simp [NewProxy.size, newProxyMsg, annotated, ProxyConfigurer.complete,
      ProxyConfigurer.marshalToMsg, RemotePortConfig.marshalToMsg, ProxyBaseConfig.marshalToMsg,
      ProxyConfigurer.base, ProxyBaseConfig.complete, objectSize, present, textFieldSize,
      flagFieldSize, mapFieldSize, intFieldSize, listFieldSize, stringMapSize, emptyOr,
      Server.Names.addUserPrefix]
  rw [hpresent, hname, htype, hport]
  simp only [commasSize, List.sum_cons, List.sum_nil, List.length_cons, List.length_nil]
  omega

/-- A valid annotation of 64 KiB, and nothing of its announcement is ever sent. -/
theorem large_annotation_dropped :
    validateProxyConfigurerForClient (annotated (letters 65536)) = .ok () ∧
      sendLoop [(newProxyMsg "" (annotated (letters 65536))).frame] = [] := by
  constructor
  · apply annotated_valid
    rw [byteLen_letters]
    decide
  · apply sendLoop_of_lt rfl
    rw [frame_size, size_annotated, quotedSize_letters]
    decide

end FrpMeo.Config
