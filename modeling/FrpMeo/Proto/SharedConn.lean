import FrpMeo.Lib.Json
import FrpMeo.Lib.Transition
import FrpMeo.Wire.Message

/-!
# Datagrams on a shared work connection

The datagrams of all sources of a UDP proxy go over one work connection, each as base64 in a
`UDPPacket` message (`pkg/proto/udp/udp.go`, `server/proxy/udp.go`, `client/proxy/udp.go`). When a
message cannot be written, the sender returns; that of frps closes the connection first. A v2 frame
takes 64 KiB.
-/

namespace FrpMeo.Proto.SharedConn

open Lib Lib.Json Lib.Transition Wire

/-! ## Packets -/

/-- `net.UDPAddr`; `ip` is the text that `IP.MarshalText` gives. -/
structure UDPAddr where
  ip : String
  port : Int
  zone : String
  deriving DecidableEq, Repr

structure UDPPacket where
  content : Bytes
  localAddr : Option UDPAddr
  remoteAddr : Option UDPAddr
  deriving DecidableEq

def newUDPPacket (buf : Bytes) (laddr raddr : Option UDPAddr) : UDPPacket := ⟨buf, laddr, raddr⟩

namespace UDPAddr

def marshal (a : UDPAddr) : Bytes :=
  object [("IP", some (quote a.ip)), ("Port", some (int a.port)), ("Zone", some (quote a.zone))]

def size (a : UDPAddr) : Nat := quotedSize a.ip + intSize a.port + quotedSize a.zone + 23

theorem length_marshal (a : UDPAddr) : a.marshal.length = a.size := by
  have hip : quotedSize "IP" = 4 := by decide
  have hport : quotedSize "Port" = 6 := by decide
  have hzone : quotedSize "Zone" = 6 := by decide
  simp only [marshal, length_object, fieldSize, objectSize, present, commasSize, List.map_cons,
    List.map_nil, List.filterMap_cons, List.filterMap_nil, Option.map_some, List.sum_cons,
    List.sum_nil, List.length_cons, List.length_nil, length_quote, length_int, hip, hport, hzone,
    size]
  omega

end UDPAddr

namespace UDPPacket

/-- A `[]byte` field is base64 in quotes, and all three fields may be left out. -/
def marshal (p : UDPPacket) : Bytes :=
  object
    [("c", if p.content = [] then none else some (34 :: (Bytes.encode p.content ++ [34]))),
      ("l", p.localAddr.map UDPAddr.marshal), ("r", p.remoteAddr.map UDPAddr.marshal)]

def size (n : Nat) (addr : UDPAddr) : Nat :=
  (if n = 0 then 0 else 4 * ((n + 2) / 3) + 7) + addr.size + 6

theorem length_marshal (buf : Bytes) (addr : UDPAddr) :
    (newUDPPacket buf none (some addr)).marshal.length = size buf.length addr := by
  have hc : quotedSize "c" = 3 := by decide
  have hr : quotedSize "r" = 3 := by decide
  cases buf with
  | nil =>
    simp [newUDPPacket, marshal, length_object, fieldSize, objectSize, present, commasSize, size,
      UDPAddr.length_marshal, hr]
    omega
  | cons b buf =>
    simp [newUDPPacket, marshal, length_object, fieldSize, objectSize, present, commasSize, size,
      UDPAddr.length_marshal, Bytes.length_encode, hc, hr]
    omega

end UDPPacket

/-! ## The forwarder and the sender -/

structure Datagram where
  payload : Bytes
  addr : UDPAddr

def packet (packetSize : Nat) (d : Datagram) : UDPPacket :=
  newUDPPacket (d.payload.take packetSize) none (some d.addr)

def write (p : UDPPacket) : Except StreamErr Bytes :=
  newConn.writeFrame (messageFrame .udpPacket p.marshal)

inductive Side where
  | frps
  | frpc
  deriving DecidableEq, Repr

structure State where
  sendCh : List UDPPacket
  written : Bytes
  returned : Bool
  closed : Bool

def init : State := ⟨[], [], false, false⟩

def sendChCap : Nat := 1024

inductive Action where
  | read (d : Datagram)
  /-- `workConnSenderFn` takes a packet from the channel. -/
  | send

def Enabled (s : State) : Action → Prop
  | .read _ => True
  | .send => s.sendCh ≠ [] ∧ s.returned = false

instance decidableEnabled (s : State) (a : Action) : Decidable (Enabled s a) := by
  cases a <;> unfold Enabled <;> infer_instance

def next (side : Side) (packetSize : Nat) (s : State) : Action → State
  | .read d =>
    -- a channel that is full drops the packet
    if s.sendCh.length < sendChCap then
      { s with sendCh := s.sendCh ++ [packet packetSize d] }
    else s
  | .send =>
    match s.sendCh with
    | [] => s
    | p :: ps =>
      match write p with
      | .ok bytes => { s with sendCh := ps, written := s.written ++ bytes }
      | .error _ => { s with sendCh := ps, returned := true, closed := side == .frps }

def step (side : Side) (packetSize : Nat) : State → Action → Option State :=
  stepOf Enabled (next side packetSize)

/-! ## What fits -/

def Harmless (packetSize : Nat) (d : Datagram) : Prop :=
  UDPPacket.size (min packetSize d.payload.length) d.addr + 2 ≤ 64 * 1024

theorem write_packet {packetSize : Nat} {d : Datagram} :
    (∃ bytes, write (packet packetSize d) = .ok bytes) ↔ Harmless packetSize d := by
  have hlen : (messageFrame .udpPacket (packet packetSize d).marshal).payload.length =
      UDPPacket.size (min packetSize d.payload.length) d.addr + 2 := by
    rw [length_messageFrame, packet, UDPPacket.length_marshal, List.length_take]
  have hlimit : newConn.maxFramePayloadSize.toNat = 64 * 1024 := rfl
  simp only [write, Conn.writeFrame, hlen, hlimit, Harmless]
  rw [if_neg (by simp [messageFrame])]
  by_cases hfits : UDPPacket.size (min packetSize d.payload.length) d.addr + 2 ≤ 64 * 1024
  · simp [hfits, Nat.not_lt.2 hfits]
  · simp [hfits, Nat.lt_of_not_le hfits]

/-! ## Runs -/

def From (arrives : Datagram → Prop) (_ : State) : Action → Prop
  | .read d => arrives d
  | .send => True

structure Flowing (packetSize : Nat) (s : State) : Prop where
  sends : s.returned = false
  isOpen : s.closed = false
  queued : ∀ p ∈ s.sendCh, ∃ d, p = packet packetSize d ∧ Harmless packetSize d

variable {side : Side} {packetSize : Nat} {arrives : Datagram → Prop}

theorem flowing_step {s t : State} {a : Action} (hs : Flowing packetSize s)
    (hok : From (fun d => Harmless packetSize d) s a) (h : step side packetSize s a = some t) :
    Flowing packetSize t := by
  obtain ⟨hen, rfl⟩ := stepOf_eq_some_iff.1 h
  cases a with
  | read d =>
    simp only [next]
    split
    · refine ⟨hs.sends, hs.isOpen, ?_⟩
      intro p hp
      rcases List.mem_append.1 hp with hp | hp
      · exact hs.queued p hp
      · exact ⟨d, List.mem_singleton.1 hp, hok⟩
    · exact hs
  | send =>
    cases hch : s.sendCh with
    | nil => exact absurd hch hen.1
    | cons p ps =>
      obtain ⟨d, rfl, hd⟩ := hs.queued p (hch ▸ List.mem_cons_self)
      obtain ⟨bytes, hwrite⟩ := (write_packet).2 hd
      simp only [next, hch, hwrite]
      refine ⟨hs.sends, hs.isOpen, ?_⟩
      intro q hq
      exact hs.queued q (hch ▸ List.mem_cons_of_mem _ hq)

theorem reach_returned (side : Side) {d : Datagram} (harrives : arrives d)
    (hd : ¬ Harmless packetSize d) :
    Reach (step side packetSize) (From arrives) init ⟨[], [], true, side == .frps⟩ := by
  have hread : step side packetSize init (.read d) =
      some ⟨[packet packetSize d], [], false, false⟩ := rfl
  have hsend : step side packetSize ⟨[packet packetSize d], [], false, false⟩ .send =
      some ⟨[], [], true, side == .frps⟩ := by
    cases hwrite : write (packet packetSize d) with
    | ok bytes => exact absurd ((write_packet).1 ⟨bytes, hwrite⟩) hd
    | error err => simp [step, stepOf, Enabled, next, hwrite]
  apply Relation.ReflTransGen.tail
  · exact Relation.ReflTransGen.single ⟨.read d, harrives, hread⟩
  · exact ⟨.send, trivial, hsend⟩

/-- The shared work connection stays open in every run iff each datagram that may arrive fits in a
frame. -/
theorem stays_open_iff (side : Side) (packetSize : Nat) (arrives : Datagram → Prop) :
    (∀ t, Reach (step side packetSize) (From arrives) init t →
        t.closed = false ∧ t.returned = false) ↔
      ∀ d, arrives d → Harmless packetSize d := by
  constructor
  · intro h d harrives
    by_contra hd
    have hreturned := (h _ (reach_returned side harrives hd)).2
    cases hreturned
  · intro h t hreach
    have hguard : ∀ s a, From arrives s a → From (fun d => Harmless packetSize d) s a := by
      intro s a ha
      cases a with
      | read d => exact h d ha
      | send => trivial
    have hinit : Flowing packetSize init := ⟨rfl, rfl, by simp [init]⟩
    have hflow : Flowing packetSize t :=
      invariant_of_reach hinit (fun s a t hs hok hst => flowing_step hs hok hst)
        (reach_mono hguard hreach)
    exact ⟨hflow.isOpen, hflow.sends⟩

def largest : Datagram := ⟨List.replicate 65507 0, ⟨"203.0.113.7", 4000, ""⟩⟩

/-- With a buffer that takes it, frps closes the work connection. -/
theorem largest_closes :
    ∃ t, Reach (step .frps 65507) (From fun d => d = largest) init t ∧ t.closed = true := by
  refine ⟨_, reach_returned .frps rfl ?_, rfl⟩
  have hsize : UDPPacket.size 65507 ⟨"203.0.113.7", 4000, ""⟩ = 87399 := by decide
  simp only [Harmless, largest, List.length_replicate, Nat.min_self, hsize]
  decide

end FrpMeo.Proto.SharedConn
