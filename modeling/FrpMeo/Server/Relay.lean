import FrpMeo.Lib.ReadLoop
import FrpMeo.Wire.ReadWriter

/-!
# UDP through the relay

Visitor and provider send UDP packets as messages: `sudp`, and the UDP sides of `stcp+sudp` and
`xtcp+xudp`. Each client uses the codec of its wire protocol; frps joins the connections
(`joinUserConnection` of `server/proxy/proxy.go`), and encodes the messages anew only for `sudp`.
The other types put a byte before the stream that tells it from TCP.
-/

namespace FrpMeo.Server.Relay

open Lib Lib.ReadLoop Wire

/-! ## Codecs on the bytes of each other -/

section Mixed

variable {J : JSON} {v1 : V1 J} {m : Message J} {proto other : String}

def normalizeWireProtocol (wireProtocol : String) : String :=
  if wireProtocol = protocolV2 then protocolV2 else "v1"

def isMixedWireProtocol (left right : String) : Bool :=
  normalizeWireProtocol left != normalizeWireProtocol right

theorem isMixedWireProtocol_eq_true_iff : isMixedWireProtocol proto other = true ↔
      ((proto = protocolV2 ∧ other ≠ protocolV2) ∨ (proto ≠ protocolV2 ∧ other = protocolV2)) := by
  have hne : "v1" ≠ protocolV2 := by decide
  unfold isMixedWireProtocol normalizeWireProtocol
  split_ifs with h1 h2 h2 <;> simp [h1, h2, hne, hne.symm]

theorem newReadWriter_eq (h : isMixedWireProtocol proto other = false) :
    newReadWriter v1 proto = newReadWriter v1 other := by
  unfold isMixedWireProtocol normalizeWireProtocol at h
  unfold newReadWriter
  split_ifs at h ⊢ with h1 h2 h2
  · rfl
  · simp [protocolV2] at h
  · simp [protocolV2] at h
  · rfl

theorem read_other (hJ : J.RoundTrip) (hmixed : isMixedWireProtocol proto other = true)
    (h : Accepts v1 proto m) : ∃ bytes, (newReadWriter v1 proto).writeMsg m = .ok bytes ∧ ∀ rest,
      (∃ err, (newReadWriter v1 other).readMsg (bytes ++ rest) = .error err) ∧
        ∀ t, ∃ err, (newReadWriter v1 other).readMsgInto t (bytes ++ rest) = .error err := by
  rcases isMixedWireProtocol_eq_true_iff.1 hmixed with ⟨hv2, hv1⟩ | ⟨hv1, hv2⟩
  · -- v1 sees the upper byte of the frame type, which is no type of a message
    rw [Accepts, if_pos hv2] at h
    obtain ⟨bytes, hbytes⟩ := carried_v2 hJ h
    refine ⟨0 :: bytes, by rw [newReadWriter, if_pos hv2, hbytes.write], ?_⟩
    intro rest
    rw [newReadWriter, if_neg hv1]
    exact v1.unregistered 0 (bytes ++ rest) typeByte_ne_zero
  · -- v2 sees the byte of the type as the upper byte of a frame type
    rw [Accepts, if_neg hv1] at h
    obtain ⟨bytes, hbytes⟩ := carried_v1 h
    refine ⟨typeByte m.1 :: bytes, by rw [newReadWriter, if_neg hv1, hbytes.write], ?_⟩
    intro rest
    rw [newReadWriter, if_pos hv2]
    exact v2_error_of_malformed (malformed_of_head (typeByte_ne_zero m.1))

end Mixed

/-! ## Layers of a connection -/

/-- `WithEncryption` and `WithCompression`; an encrypted stream begins with random bytes. -/
structure Layers where
  Nonce : Type
  encrypt : Bytes → Nonce → Bytes → Bytes
  decrypt : Bytes → Bytes → Bytes
  compress : Bytes → Bytes
  decompress : Bytes → Bytes
  decrypt_encrypt : ∀ key nonce bytes, decrypt key (encrypt key nonce bytes) = bytes
  decompress_compress : ∀ bytes, decompress (compress bytes) = bytes

structure Transport where
  useEncryption : Bool
  useCompression : Bool
  deriving DecidableEq

namespace Layers

variable (L : Layers)

def wrap (t : Transport) (key : Bytes) (nonce : L.Nonce) (bytes : Bytes) : Bytes :=
  let bytes := if t.useCompression then L.compress bytes else bytes
  if t.useEncryption then L.encrypt key nonce bytes else bytes

def unwrap (t : Transport) (key : Bytes) (wire : Bytes) : Bytes :=
  let bytes := if t.useEncryption then L.decrypt key wire else wire
  if t.useCompression then L.decompress bytes else bytes

variable {L} {t : Transport}

theorem unwrap_wrap (key : Bytes) (nonce : L.Nonce) (bytes : Bytes) :
    L.unwrap t key (L.wrap t key nonce bytes) = bytes := by
  unfold wrap unwrap
  split_ifs with hencryption hcompression hcompression
  · rw [L.decrypt_encrypt, L.decompress_compress]
  · rw [L.decrypt_encrypt]
  · rw [L.decompress_compress]
  · rfl

theorem wrap_plain (key : Bytes) (nonce : L.Nonce) (bytes : Bytes) :
    L.wrap ⟨false, false⟩ key nonce bytes = bytes := rfl

theorem unwrap_plain (key wire : Bytes) : L.unwrap ⟨false, false⟩ key wire = wire := rfl

end Layers

/-! ## frps -/

inductive RelayType where
  | sudp
  | stcpSudp
  | xtcpXudp
  deriving DecidableEq

structure Session where
  type : RelayType
  visitorWireProtocol : String
  proxyWireProtocol : String
  visitorTransport : Transport
  proxyTransport : Transport
  secretKey : Bytes
  encryptionKey : Bytes

structure Piped where
  out : Bytes
  count : Nat
  err : Option StreamErr

/-- The two directions. The end of one closes the other; what is modelled is the time until then. -/
structure Join where
  toProxy : Bytes → Piped
  toVisitor : Bytes → Piped

/-- `libio.Join`. -/
def joinRaw : Join where
  toProxy bytes := ⟨bytes, bytes.length, none⟩
  toVisitor bytes := ⟨bytes, bytes.length, none⟩

def errClosed : StreamErr := .other "use of closed network connection"

def normalizeSUDPBridgeError (err : StreamErr) : Option StreamErr :=
  if err = .eof ∨ err = errClosed then none else some err

section Bridge

variable {J : JSON} (contentLen : J.Body .udpPacket → Nat)

structure Progress where
  out : Bytes
  count : Nat

def forward (dest : ReadWriter J) (s : Progress) (m : Message J) (count : Nat) :
    Progress × Option StreamErr :=
  match dest.writeMsg m with
  | .error err => (s, some err)
  | .ok bytes => (⟨s.out ++ bytes, s.count + count⟩, none)

def bridgeMsg (side : String) (forwardPing : Bool) (dest : ReadWriter J) (s : Progress) :
    Message J → Progress × Option StreamErr
  | ⟨.udpPacket, body⟩ => forward dest s ⟨.udpPacket, body⟩ (contentLen body)
  -- the visitor waits for heartbeats, the provider takes packets only
  | ⟨.ping, body⟩ => if forwardPing then forward dest s ⟨.ping, body⟩ 0 else (s, none)
  | ⟨t, _⟩ => (s, some (.other s!"unexpected SUDP {side} message *{t.name}"))

/-- The error of a message of another type is not one that is normalized away. -/
def bridge (side : String) (forwardPing : Bool) (source dest : ReadWriter J) (bytes : Bytes) :
    Piped :=
  let (s, err) := run source.readMsg (bridgeMsg contentLen side forwardPing dest) ⟨[], 0⟩ bytes
  ⟨s.out, s.count, err.bind normalizeSUDPBridgeError⟩

def bridgeSUDPProxyToVisitor (source dest : ReadWriter J) : Bytes → Piped :=
  bridge contentLen "proxy" true source dest

def bridgeSUDPVisitorToProxy (source dest : ReadWriter J) : Bytes → Piped :=
  bridge contentLen "visitor" false source dest

def joinSUDPMessageBridge (proxyRW visitorRW : ReadWriter J) : Join where
  toProxy := bridgeSUDPVisitorToProxy contentLen visitorRW proxyRW
  toVisitor := bridgeSUDPProxyToVisitor contentLen proxyRW visitorRW

def joinUserConnection (v1 : V1 J) (S : Session) : Join :=
  if S.type = .sudp ∧ isMixedWireProtocol S.proxyWireProtocol S.visitorWireProtocol then
    joinSUDPMessageBridge contentLen (newReadWriter v1 S.proxyWireProtocol)
      (newReadWriter v1 S.visitorWireProtocol)
  -- the other two types carry the same messages, but they are joined byte for byte
  else joinRaw

end Bridge

/-! ## The two clients -/

section Clients

variable {J : JSON} (v1 : V1 J) (L : Layers) (S : Session)

def streamTagUDP : UInt8 := 0x02

/-- The visitor writes the tag to the connection itself, before it puts layers on it. -/
def streamTag : RelayType → Bytes
  | .sudp => []
  | .stcpSudp | .xtcpXudp => [streamTagUDP]

/-- The messages, if the provider takes the connection for UDP by the tag it finds on it. -/
def taggedStream : RelayType → Bytes → Option Bytes
  | .sudp, wire => some wire
  | .stcpSudp, wire | .xtcpXudp, wire =>
      match wire with
      | [] => none
      -- `0x01` goes to the TCP handler, and any other tag closes the connection
      | tag :: rest => if tag = streamTagUDP then some rest else none

def Session.providerKey : Bytes :=
  match S.type with
  | .sudp | .stcpSudp => S.encryptionKey
  | .xtcpXudp => S.secretKey

def packet (body : J.Body .udpPacket) : Message J := ⟨.udpPacket, body⟩

/-- `workConnSenderFn` of the visitor, after the connection has been tagged and wrapped. -/
def visitorSends (nonce : L.Nonce) (bodies : List (J.Body .udpPacket)) : Bytes :=
  streamTag S.type ++ L.wrap S.visitorTransport S.secretKey nonce
    (writeAll (newReadWriter v1 S.visitorWireProtocol).writeMsg (bodies.map packet))

def providerTakes (got : List (Message J)) (m : Message J) :
    List (Message J) × Option StreamErr :=
  (got ++ [m], none)

def providerReads (stream : Bytes) : List (Message J) :=
  (run ((newReadWriter v1 S.proxyWireProtocol).readMsgInto .udpPacket) providerTakes []
    (L.unwrap S.proxyTransport S.providerKey stream)).1

def providerSends (nonce : L.Nonce) (ms : List (Message J)) : Bytes :=
  L.wrap S.proxyTransport S.providerKey nonce
    (writeAll (newReadWriter v1 S.proxyWireProtocol).writeMsg ms)

def visitorTakes (got : List (Message J)) (m : Message J) :
    List (Message J) × Option StreamErr :=
  if m.1 = .udpPacket then (got ++ [m], none) else (got, none)

def visitorReads (wire : Bytes) : List (Message J) :=
  (run (newReadWriter v1 S.visitorWireProtocol).readMsg visitorTakes []
    (L.unwrap S.visitorTransport S.secretKey wire)).1

variable (contentLen : J.Body .udpPacket → Nat)

structure Nonces where
  visitor : L.Nonce
  toProvider : L.Nonce
  provider : L.Nonce
  toVisitor : L.Nonce

variable {L} (n : Nonces L)

def wireToProvider (bodies : List (J.Body .udpPacket)) : Bytes :=
  L.wrap S.proxyTransport S.encryptionKey n.toProvider
    ((joinUserConnection contentLen v1 S).toProxy
      (L.unwrap S.visitorTransport S.secretKey (visitorSends v1 L S n.visitor bodies))).out

def wireToVisitor (ms : List (Message J)) : Bytes :=
  L.wrap S.visitorTransport S.secretKey n.toVisitor
    ((joinUserConnection contentLen v1 S).toVisitor
      (L.unwrap S.proxyTransport S.encryptionKey (providerSends v1 L S n.provider ms))).out

def packets (ms : List (Message J)) : List (Message J) := ms.filter fun m => m.1 = .udpPacket

def Relayed (bodies : List (J.Body .udpPacket)) (ms : List (Message J)) : Prop :=
  ∃ stream, taggedStream S.type (wireToProvider v1 S contentLen n bodies) = some stream ∧
    providerReads v1 L S stream = bodies.map packet ∧
      visitorReads v1 L S (wireToVisitor v1 S contentLen n ms) = packets ms

end Clients

/-! ## The loops on messages that fit -/

section Loops

variable {J : JSON} {v1 : V1 J} {proto other : String} {ms : List (Message J)}

theorem carries_of_accepts (hJ : J.RoundTrip) {m : Message J} (h : Accepts v1 proto m) :
    Carries (newReadWriter v1 proto).writeMsg (newReadWriter v1 proto).readMsg m := by
  obtain ⟨bytes, hbytes⟩ := carried_of_accepts hJ h
  exact ⟨bytes, hbytes.write, hbytes.nonempty, hbytes.read⟩

theorem carriesInto_of_accepts (hJ : J.RoundTrip) {m : Message J} (h : Accepts v1 proto m) :
    Carries (newReadWriter v1 proto).writeMsg ((newReadWriter v1 proto).readMsgInto m.1) m := by
  obtain ⟨bytes, hbytes⟩ := carried_of_accepts hJ h
  exact ⟨bytes, hbytes.write, hbytes.nonempty, hbytes.readInto⟩

theorem handleAll_providerTakes {got : List (Message J)} :
    handleAll providerTakes got ms = (got ++ ms, none) := by
  induction ms generalizing got with
  | nil => rw [handleAll, List.append_nil]
  | cons m ms ih =>
    have htake : providerTakes got m = (got ++ [m], none) := rfl
    rw [handleAll_cons htake, ih, List.append_assoc, List.singleton_append]

theorem handleAll_visitorTakes {got : List (Message J)} :
    handleAll visitorTakes got ms = (got ++ packets ms, none) := by
  induction ms generalizing got with
  | nil => rw [handleAll, packets, List.filter_nil, List.append_nil]
  | cons m ms ih =>
    by_cases hm : m.1 = .udpPacket
    · have htake : visitorTakes got m = (got ++ [m], none) := if_pos hm
      rw [handleAll_cons htake, ih]
      simp [packets, hm]
    · have hskip : visitorTakes got m = (got, none) := if_neg hm
      rw [handleAll_cons hskip, ih]
      simp [packets, hm]

def Expected (m : Message J) : Prop := m.1 = .udpPacket ∨ m.1 = .ping

variable (contentLen : J.Body .udpPacket → Nat)

def payloadLen : Message J → Nat
  | ⟨.udpPacket, body⟩ => contentLen body
  | _ => 0

theorem bridgeMsg_eq {side : String} {forwardPing : Bool} {dest : ReadWriter J} {s : Progress}
    {m : Message J} {bytes : Bytes} (hm : Expected m) (hwrite : dest.writeMsg m = .ok bytes) :
    bridgeMsg contentLen side forwardPing dest s m =
      (⟨s.out ++ if m.1 = .udpPacket ∨ forwardPing then bytes else [],
        s.count + payloadLen contentLen m⟩, none) := by
  obtain ⟨t, body⟩ := m
  rcases hm with hm | hm
  · cases hm
    simp [bridgeMsg, forward, hwrite, payloadLen]
  · cases hm
    cases forwardPing with
    | true => simp [bridgeMsg, forward, hwrite, payloadLen]
    | false => simp [bridgeMsg, payloadLen]

def bridged (forwardPing : Bool) (ms : List (Message J)) : List (Message J) :=
  ms.filter fun m => m.1 = .udpPacket ∨ forwardPing

theorem handleAll_bridgeMsg (hJ : J.RoundTrip) (side : String) (forwardPing : Bool)
    (s : Progress) (hms : ∀ m ∈ ms, Expected m ∧ Accepts v1 other m) :
    handleAll (bridgeMsg contentLen side forwardPing (newReadWriter v1 other)) s ms =
      (⟨s.out ++ writeAll (newReadWriter v1 other).writeMsg (bridged forwardPing ms),
        s.count + (ms.map (payloadLen contentLen)).sum⟩, none) := by
  induction ms generalizing s with
  | nil => simp [handleAll, bridged, writeAll]
  | cons m ms ih =>
    obtain ⟨hexpected, haccepts⟩ := hms m List.mem_cons_self
    obtain ⟨bytes, hbytes⟩ := carried_of_accepts hJ haccepts
    rw [handleAll_cons (bridgeMsg_eq contentLen hexpected hbytes.write),
      ih _ fun m hm => hms m (List.mem_cons_of_mem _ hm)]
    by_cases hforward : m.1 = .udpPacket ∨ forwardPing
    · have hbridged : bridged forwardPing (m :: ms) = m :: bridged forwardPing ms := by
        simp [bridged, hforward]
      rw [hbridged, writeAll_cons hbytes.write, if_pos hforward]
      simp [Nat.add_assoc]
    · have hbridged : bridged forwardPing (m :: ms) = bridged forwardPing ms := by
        simp [bridged, hforward]
      rw [hbridged, if_neg hforward]
      simp [Nat.add_assoc]

theorem bridge_writeAll (hJ : J.RoundTrip) (side : String) (forwardPing : Bool)
    (hms : ∀ m ∈ ms, Expected m ∧ Accepts v1 proto m ∧ Accepts v1 other m) :
    bridge contentLen side forwardPing (newReadWriter v1 proto) (newReadWriter v1 other)
        (writeAll (newReadWriter v1 proto).writeMsg ms) =
      ⟨writeAll (newReadWriter v1 other).writeMsg (bridged forwardPing ms),
        (ms.map (payloadLen contentLen)).sum, none⟩ := by
  have hcarries : ∀ m ∈ ms, Carries (newReadWriter v1 proto).writeMsg
      (newReadWriter v1 proto).readMsg m := fun m hm => carries_of_accepts hJ (hms m hm).2.1
  have hhandle := handleAll_bridgeMsg contentLen hJ side forwardPing ⟨[], 0⟩
    fun m hm => ⟨(hms m hm).1, (hms m hm).2.2⟩
  unfold bridge
  rw [run_writeAll hcarries hhandle (read_nil proto)]
  simp [normalizeSUDPBridgeError]

theorem bridged_true : bridged true ms = ms := by
  simp [bridged]

theorem bridged_false : bridged false ms = packets ms := by
  simp [bridged, packets]

theorem packets_map_packet (bodies : List (J.Body .udpPacket)) :
    packets (bodies.map packet) = bodies.map packet := by
  simp [packets, packet]

theorem run_other {S : Type} (hJ : J.RoundTrip) (hmixed : isMixedWireProtocol proto other = true)
    (hms : ∀ m ∈ ms, Accepts v1 proto m) (handle : S → Message J → S × Option StreamErr) {s : S} :
    (run (newReadWriter v1 other).readMsg handle s
        (writeAll (newReadWriter v1 proto).writeMsg ms)).1 = s ∧
      ∀ t, (run ((newReadWriter v1 other).readMsgInto t) handle s
        (writeAll (newReadWriter v1 proto).writeMsg ms)).1 = s := by
  cases ms with
  | nil =>
    constructor
    · rw [writeAll, run_of_error (read_nil other)]
    · intro t
      rw [writeAll, run_of_error (readInto_nil other t)]
  | cons m ms =>
    -- the first message is already refused
    obtain ⟨bytes, hwrite, hread⟩ := read_other hJ hmixed (hms m List.mem_cons_self)
    obtain ⟨⟨err, herr⟩, hinto⟩ := hread (writeAll (newReadWriter v1 proto).writeMsg ms)
    rw [writeAll_cons hwrite]
    refine ⟨by rw [run_of_error herr], ?_⟩
    intro t
    obtain ⟨err, herr⟩ := hinto t
    rw [run_of_error herr]

end Loops

/-! ## From client to client -/

section Sessions

variable {J : JSON} {v1 : V1 J} {L : Layers} {S : Session} {n : Nonces L}
  {contentLen : J.Body .udpPacket → Nat} {bodies : List (J.Body .udpPacket)}
  {ms : List (Message J)}

def AcceptedByBoth (v1 : V1 J) (S : Session) (ms : List (Message J)) : Prop :=
  ∀ m ∈ ms, Accepts v1 S.visitorWireProtocol m ∧ Accepts v1 S.proxyWireProtocol m

structure Session.Plain (S : Session) : Prop where
  visitor : S.visitorTransport = ⟨false, false⟩
  proxy : S.proxyTransport = ⟨false, false⟩

theorem joinUserConnection_of_same
    (h : isMixedWireProtocol S.proxyWireProtocol S.visitorWireProtocol = false) :
    joinUserConnection contentLen v1 S = joinRaw := by
  simp [joinUserConnection, h]

theorem joinUserConnection_of_tagged (h : S.type ≠ .sudp) :
    joinUserConnection contentLen v1 S = joinRaw := by
  simp [joinUserConnection, h]

theorem joinUserConnection_of_mixed (hsudp : S.type = .sudp)
    (hmixed : isMixedWireProtocol S.proxyWireProtocol S.visitorWireProtocol = true) :
    joinUserConnection contentLen v1 S =
      joinSUDPMessageBridge contentLen (newReadWriter v1 S.proxyWireProtocol)
        (newReadWriter v1 S.visitorWireProtocol) := by
  simp [joinUserConnection, hsudp, hmixed]

variable (hJ : J.RoundTrip)

include hJ

theorem toProxy_out
    (h : S.type = .sudp ∨ isMixedWireProtocol S.proxyWireProtocol S.visitorWireProtocol = false)
    (hbodies : AcceptedByBoth v1 S (bodies.map packet)) :
    ((joinUserConnection contentLen v1 S).toProxy
        (writeAll (newReadWriter v1 S.visitorWireProtocol).writeMsg (bodies.map packet))).out =
      writeAll (newReadWriter v1 S.proxyWireProtocol).writeMsg (bodies.map packet) := by
  cases hmixed : isMixedWireProtocol S.proxyWireProtocol S.visitorWireProtocol with
  | false => rw [joinUserConnection_of_same hmixed, newReadWriter_eq hmixed, joinRaw]
  | true =>
    have hsudp : S.type = .sudp := h.resolve_right (by simp [hmixed])
    have hexpected : ∀ m ∈ bodies.map packet, Expected m := by
      intro m hm
      obtain ⟨body, -, rfl⟩ := List.mem_map.1 hm
      exact .inl rfl
    -- the bridge drops heartbeats in this direction, but the visitor sends none
    have hbridge := bridge_writeAll contentLen hJ "visitor" false
      fun m hm => ⟨hexpected m hm, hbodies m hm⟩
    rw [bridged_false, packets_map_packet] at hbridge
    rw [joinUserConnection_of_mixed hsudp hmixed]
    exact congrArg Piped.out hbridge

theorem toVisitor_out
    (h : S.type = .sudp ∨ isMixedWireProtocol S.proxyWireProtocol S.visitorWireProtocol = false)
    (hexpected : ∀ m ∈ ms, Expected m) (hms : AcceptedByBoth v1 S ms) :
    ((joinUserConnection contentLen v1 S).toVisitor
        (writeAll (newReadWriter v1 S.proxyWireProtocol).writeMsg ms)).out =
      writeAll (newReadWriter v1 S.visitorWireProtocol).writeMsg ms := by
  cases hmixed : isMixedWireProtocol S.proxyWireProtocol S.visitorWireProtocol with
  | false => rw [joinUserConnection_of_same hmixed, newReadWriter_eq hmixed, joinRaw]
  | true =>
    have hsudp : S.type = .sudp := h.resolve_right (by simp [hmixed])
    have hbridge := bridge_writeAll contentLen hJ "proxy" true
      fun m hm => ⟨hexpected m hm, (hms m hm).2, (hms m hm).1⟩
    rw [bridged_true] at hbridge
    rw [joinUserConnection_of_mixed hsudp hmixed]
    exact congrArg Piped.out hbridge

theorem providerReads_of_unwrap (hbodies : AcceptedByBoth v1 S (bodies.map packet)) {stream : Bytes}
    (h : L.unwrap S.proxyTransport S.providerKey stream =
      writeAll (newReadWriter v1 S.proxyWireProtocol).writeMsg (bodies.map packet)) :
    providerReads v1 L S stream = bodies.map packet := by
  have hcarries : ∀ m ∈ bodies.map packet, Carries (newReadWriter v1 S.proxyWireProtocol).writeMsg
      ((newReadWriter v1 S.proxyWireProtocol).readMsgInto .udpPacket) m := by
    intro m hm
    have hinto := carriesInto_of_accepts hJ (hbodies m hm).2
    obtain ⟨body, -, rfl⟩ := List.mem_map.1 hm
    exact hinto
  rw [providerReads, h, run_writeAll hcarries (handleAll_providerTakes) (readInto_nil _ _)]
  rfl

theorem visitorReads_of_unwrap (hms : AcceptedByBoth v1 S ms) {wire : Bytes}
    (h : L.unwrap S.visitorTransport S.secretKey wire =
      writeAll (newReadWriter v1 S.visitorWireProtocol).writeMsg ms) :
    visitorReads v1 L S wire = packets ms := by
  have hcarries : ∀ m ∈ ms, Carries (newReadWriter v1 S.visitorWireProtocol).writeMsg
      (newReadWriter v1 S.visitorWireProtocol).readMsg m :=
    fun m hm => carries_of_accepts hJ (hms m hm).1
  rw [visitorReads, h, run_writeAll hcarries (handleAll_visitorTakes) (read_nil _)]
  rfl

theorem relayed_of_sudp (hsudp : S.type = .sudp)
    (hbodies : AcceptedByBoth v1 S (bodies.map packet)) (hexpected : ∀ m ∈ ms, Expected m)
    (hms : AcceptedByBoth v1 S ms) : Relayed v1 S contentLen n bodies ms := by
  have hkey : S.providerKey = S.encryptionKey := by rw [Session.providerKey, hsudp]
  have htagged : ∀ wire, taggedStream S.type wire = some wire := by
    intro wire
    rw [hsudp, taggedStream]
  refine ⟨_, htagged _, ?_, ?_⟩
  · apply providerReads_of_unwrap hJ hbodies
    rw [wireToProvider, hkey, Layers.unwrap_wrap, visitorSends, hsudp, streamTag, List.nil_append,
      Layers.unwrap_wrap, toProxy_out hJ (.inl hsudp) hbodies]
  · apply visitorReads_of_unwrap hJ hms
    rw [wireToVisitor, Layers.unwrap_wrap, providerSends, hkey, Layers.unwrap_wrap,
      toVisitor_out hJ (.inl hsudp) hexpected hms]

omit hJ in
theorem taggedStream_plain (hplain : S.Plain) (htagged : S.type ≠ .sudp) :
    taggedStream S.type (wireToProvider v1 S contentLen n bodies) =
      some (writeAll (newReadWriter v1 S.visitorWireProtocol).writeMsg (bodies.map packet)) := by
  have hwire : wireToProvider v1 S contentLen n bodies = streamTag S.type ++
      writeAll (newReadWriter v1 S.visitorWireProtocol).writeMsg (bodies.map packet) := by
    rw [wireToProvider, hplain.proxy, Layers.wrap_plain, joinUserConnection_of_tagged htagged,
      hplain.visitor, Layers.unwrap_plain, visitorSends, hplain.visitor, Layers.wrap_plain, joinRaw]
  rw [hwire]
  cases htype : S.type with
  | sudp => exact absurd htype htagged
  | stcpSudp | xtcpXudp => simp [streamTag, taggedStream]

omit hJ in
theorem wireToVisitor_plain (hplain : S.Plain) (htagged : S.type ≠ .sudp) :
    wireToVisitor v1 S contentLen n ms =
      writeAll (newReadWriter v1 S.proxyWireProtocol).writeMsg ms := by
  rw [wireToVisitor, hplain.visitor, Layers.wrap_plain, joinUserConnection_of_tagged htagged,
    hplain.proxy, Layers.unwrap_plain, providerSends, hplain.proxy, Layers.wrap_plain, joinRaw]

theorem relayed_of_same (hplain : S.Plain) (htagged : S.type ≠ .sudp)
    (hsame : isMixedWireProtocol S.proxyWireProtocol S.visitorWireProtocol = false)
    (hbodies : AcceptedByBoth v1 S (bodies.map packet)) (hms : AcceptedByBoth v1 S ms) :
    Relayed v1 S contentLen n bodies ms := by
  refine ⟨_, taggedStream_plain hplain htagged, ?_, ?_⟩
  · apply providerReads_of_unwrap hJ hbodies
    rw [hplain.proxy, Layers.unwrap_plain, newReadWriter_eq hsame]
  · apply visitorReads_of_unwrap hJ hms
    rw [hplain.visitor, Layers.unwrap_plain, wireToVisitor_plain hplain htagged,
      newReadWriter_eq hsame]

theorem relayed_mixed_iff (hplain : S.Plain) (htagged : S.type ≠ .sudp)
    (hmixed : isMixedWireProtocol S.proxyWireProtocol S.visitorWireProtocol = true)
    (hbodies : AcceptedByBoth v1 S (bodies.map packet)) (hms : AcceptedByBoth v1 S ms) :
    Relayed v1 S contentLen n bodies ms ↔ bodies = [] ∧ packets ms = [] := by
  have hmixed' : isMixedWireProtocol S.visitorWireProtocol S.proxyWireProtocol = true := by
    rw [isMixedWireProtocol, bne_comm]
    exact hmixed
  have hprovider : providerReads v1 L S
      (writeAll (newReadWriter v1 S.visitorWireProtocol).writeMsg (bodies.map packet)) = [] := by
    rw [providerReads, hplain.proxy, Layers.unwrap_plain]
    exact (run_other hJ hmixed' (fun m hm => (hbodies m hm).1) _).2 _
  have hvisitor : visitorReads v1 L S (wireToVisitor v1 S contentLen n ms) = [] := by
    rw [visitorReads, hplain.visitor, Layers.unwrap_plain, wireToVisitor_plain hplain htagged]
    exact (run_other hJ hmixed (fun m hm => (hms m hm).2) _).1
  simp only [Relayed, taggedStream_plain hplain htagged, hvisitor, Option.some.injEq,
    exists_eq_left', hprovider]
  constructor
  · rintro ⟨hbodies, hpackets⟩
    exact ⟨List.map_eq_nil_iff.1 hbodies.symm, hpackets.symm⟩
  · rintro ⟨rfl, hpackets⟩
    exact ⟨rfl, hpackets.symm⟩

end Sessions

/-- UDP packets arrive with `sudp` always, and without layers with the other types only if both
clients use the same protocol. -/
theorem relayed_iff {J : JSON} (hJ : J.RoundTrip) (v1 : V1 J) (L : Layers) (S : Session)
    (n : Nonces L) (contentLen : J.Body .udpPacket → Nat) (bodies : List (J.Body .udpPacket))
    (ms : List (Message J)) (hbodies : AcceptedByBoth v1 S (bodies.map packet))
    (hexpected : ∀ m ∈ ms, Expected m) (hms : AcceptedByBoth v1 S ms) :
    (S.type = .sudp → Relayed v1 S contentLen n bodies ms) ∧
      (S.Plain → (Relayed v1 S contentLen n bodies ms ↔ S.type = .sudp ∨
            isMixedWireProtocol S.proxyWireProtocol S.visitorWireProtocol = false ∨
              (bodies = [] ∧ packets ms = []))) := by
  have hsudp : S.type = .sudp → Relayed v1 S contentLen n bodies ms :=
    fun h => relayed_of_sudp hJ h hbodies hexpected hms
  refine ⟨hsudp, ?_⟩
  intro hplain
  by_cases htype : S.type = .sudp
  · simp [htype, hsudp htype]
  · cases hmixed : isMixedWireProtocol S.proxyWireProtocol S.visitorWireProtocol with
    | false => simp [relayed_of_same hJ hplain htype hmixed hbodies hms]
    | true => simp [relayed_mixed_iff hJ hplain htype hmixed hbodies hms, htype]

/-! ## A packet from a visitor -/

def PacketBody : MsgType → Type
  | .udpPacket => Bool
  | _ => Unit

def packetZero : (t : MsgType) → PacketBody t
  | .udpPacket => false
  | .login | .loginResp | .newProxy | .newProxyResp | .closeProxy | .newWorkConn | .reqWorkConn
  | .startWorkConn | .newVisitorConn | .newVisitorConnResp | .ping | .pong
  | .natHoleVisitor | .natHoleClient | .natHoleResp | .natHoleSid | .natHoleReport
  | .proxyMetrics => ()

def hiText : Bytes :=
  Bytes.ascii
    "\x7b\"c\":\"aGk=\",\"r\":\x7b\"IP\":\"10.0.0.9\",\"Port\":5353,\"Zone\":\"\"\x7d\x7d"

def packetJSON : JSON where
  Body := PacketBody
  zero := packetZero
  marshal := fun t body =>
    match t, body with
    | .udpPacket, true => .ok hiText
    | t, _ => .ok (emptyText t)
  unmarshal := fun t text target =>
    if text = emptyText t then .ok target
    else
      match t, target with
      | .udpPacket, _ => if text = hiText then .ok true else .error "not in the sample"
      | _, _ => .error "not in the sample"

theorem packetJSON_roundTrip : packetJSON.RoundTrip := by
  intro t body text h
  cases t with
  | udpPacket =>
    cases body with
    | true | false =>
      cases h
      rfl
  | _ =>
    cases h
    rfl

def packetV1 : V1 packetJSON := Golib.v1 packetJSON_roundTrip

def noLayers : Layers where
  Nonce := Unit
  encrypt _ _ bytes := bytes
  decrypt _ bytes := bytes
  compress bytes := bytes
  decompress bytes := bytes
  decrypt_encrypt _ _ _ := rfl
  decompress_compress _ := rfl

def noNonces : Nonces noLayers := ⟨(), (), (), ()⟩

def mixedSession (type : RelayType) : Session :=
  ⟨type, "v1", "v2", ⟨false, false⟩, ⟨false, false⟩, [], []⟩

def hi : packetJSON.Body .udpPacket := (true : Bool)

def heartbeat : Message packetJSON := ⟨.ping, ()⟩

theorem accepted_sample {type : RelayType} {ms : List (Message packetJSON)}
    (hms : ∀ m ∈ ms, m = packet hi ∨ m = heartbeat) :
    AcceptedByBoth packetV1 (mixedSession type) ms := by
  intro m hm
  rcases hms m hm with rfl | rfl
  · exact ⟨⟨hiText, rfl, by decide⟩, ⟨hiText, rfl, by decide⟩⟩
  · exact ⟨⟨emptyText .ping, rfl, by decide⟩, ⟨emptyText .ping, rfl, by decide⟩⟩

theorem relayed_iff_hi : packetJSON.RoundTrip ∧
      Relayed packetV1 (mixedSession .sudp) (fun _ => 2) noNonces [hi] [heartbeat, packet hi] := by
  refine ⟨packetJSON_roundTrip, ?_⟩
  have hexpected : ∀ m ∈ [heartbeat, packet hi], Expected m := by
    intro m hm
    simp only [List.mem_cons, List.not_mem_nil, or_false] at hm
    rcases hm with rfl | rfl
    · exact .inr rfl
    · exact .inl rfl
  exact (relayed_iff packetJSON_roundTrip packetV1 noLayers (mixedSession .sudp) noNonces _ [hi]
    [heartbeat, packet hi] (accepted_sample (by simp)) hexpected (accepted_sample (by simp))).1 rfl

/-- The same visitor and provider with `stcp+sudp`. -/
theorem stcpSudp_loses_hi :
    ¬ Relayed packetV1 (mixedSession .stcpSudp) (fun _ => 2) noNonces [hi] [packet hi] := by
  intro hrelayed
  have hmixed : isMixedWireProtocol "v2" "v1" = true := by decide
  have hnothing := (relayed_mixed_iff packetJSON_roundTrip ⟨rfl, rfl⟩
    (by decide) hmixed (accepted_sample (by simp)) (accepted_sample (by simp))).1 hrelayed
  cases hnothing.1

end FrpMeo.Server.Relay
