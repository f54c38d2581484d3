import FrpMeo.Wire.Frame

/-!
# Messages on a v2 connection

A message is a frame (`pkg/msg/wire_v2.go`): two bytes with the number of its type and then its JSON
text. All that is used of the JSON package is `JSON.RoundTrip`. `ReadMsg` makes the target of the
decoding itself, `ReadMsgInto` gets it.
-/

namespace FrpMeo.Wire

open Lib

/-! ## Types of messages -/

inductive MsgType where
  | login
  | loginResp
  | newProxy
  | newProxyResp
  | closeProxy
  | newWorkConn
  | reqWorkConn
  | startWorkConn
  | newVisitorConn
  | newVisitorConnResp
  | ping
  | pong
  | udpPacket
  | natHoleVisitor
  | natHoleClient
  | natHoleResp
  | natHoleSid
  | natHoleReport
  | proxyMetrics
  deriving DecidableEq, Repr

namespace MsgType

def name : MsgType → String
  | login => "msg.Login"
  | loginResp => "msg.LoginResp"
  | newProxy => "msg.NewProxy"
  | newProxyResp => "msg.NewProxyResp"
  | closeProxy => "msg.CloseProxy"
  | newWorkConn => "msg.NewWorkConn"
  | reqWorkConn => "msg.ReqWorkConn"
  | startWorkConn => "msg.StartWorkConn"
  | newVisitorConn => "msg.NewVisitorConn"
  | newVisitorConnResp => "msg.NewVisitorConnResp"
  | ping => "msg.Ping"
  | pong => "msg.Pong"
  | udpPacket => "msg.UDPPacket"
  | natHoleVisitor => "msg.NatHoleVisitor"
  | natHoleClient => "msg.NatHoleClient"
  | natHoleResp => "msg.NatHoleResp"
  | natHoleSid => "msg.NatHoleSid"
  | natHoleReport => "msg.NatHoleReport"
  | proxyMetrics => "msg.ProxyMetrics"

end MsgType

/-- The constants `V2TypeLogin`, …, which are also the entries of `v2MsgTypeIDMap`. -/
def v2MsgTypeID : MsgType → UInt16
  | .login => 1
  | .loginResp => 2
  | .newProxy => 3
  | .newProxyResp => 4
  | .closeProxy => 5
  | .newWorkConn => 6
  | .reqWorkConn => 7
  | .startWorkConn => 8
  | .newVisitorConn => 9
  | .newVisitorConnResp => 10
  | .ping => 11
  | .pong => 12
  | .udpPacket => 13
  | .natHoleVisitor => 14
  | .natHoleClient => 15
  | .natHoleResp => 16
  | .natHoleSid => 17
  | .natHoleReport => 18
  | .proxyMetrics => 19

def v2MsgTypes : List MsgType :=
  [.login, .loginResp, .newProxy, .newProxyResp, .closeProxy, .newWorkConn, .reqWorkConn,
    .startWorkConn, .newVisitorConn, .newVisitorConnResp, .ping, .pong, .udpPacket,
    .natHoleVisitor, .natHoleClient, .natHoleResp, .natHoleSid, .natHoleReport, .proxyMetrics]

def v2MsgReflectType (typeID : UInt16) : Option MsgType :=
  v2MsgTypes.find? fun t => v2MsgTypeID t = typeID

theorem v2MsgReflectType_eq_some_iff {typeID : UInt16} {t : MsgType} :
    v2MsgReflectType typeID = some t ↔ v2MsgTypeID t = typeID := by
  constructor
  · intro h
    have hfound := List.find?_some h
    simpa using hfound
  · intro h
    subst h
    cases t <;> decide

/-! ## The codec -/

/-- `encoding/json` on messages: `unmarshal` keeps fields the text does not name, and `zero` is what
`reflect.New` makes. -/
structure JSON where
  Body : MsgType → Type
  zero : (t : MsgType) → Body t
  marshal : (t : MsgType) → Body t → Except String Bytes
  unmarshal : (t : MsgType) → Bytes → Body t → Except String (Body t)

def JSON.RoundTrip (J : JSON) : Prop :=
  ∀ t (body : J.Body t) text, J.marshal t body = .ok text →
    J.unmarshal t text (J.zero t) = .ok body

abbrev Message (J : JSON) := (t : MsgType) × J.Body t

/-- What a variable of the interface type `Message` may hold. -/
inductive Value (J : JSON) where
  | nil
  | struct (m : Message J)
  | pointer (m : Message J)
  | other (type : String)
  | otherPointer (type : String)

def Value.message? {J : JSON} : Value J → Option (Message J)
  | .struct m | .pointer m => some m
  | .nil | .other _ | .otherPointer _ => none

section Codec

variable {J : JSON} (c : Conn)

def unknownTypeErr (type : String) : StreamErr := .other s!"unknown v2 message type {type}"

def encodeV2MessageFrame : Value J → Except StreamErr Frame
  | .nil => .error (.other "nil message")
  | .other type | .otherPointer type => .error (unknownTypeErr type)
  | .struct m | .pointer m =>
      match J.marshal m.1 m.2 with
      | .error text => .error (.other text)
      | .ok content => .ok ⟨frameTypeMessage, 0, BigEndian.put 2 (v2MsgTypeID m.1).toNat ++ content⟩

def frameTypeErr (type : UInt16) : StreamErr :=
  .other s!"unexpected frame type {type}, want {frameTypeMessage}"

def tooShortErr : StreamErr := .other "message frame payload too short"

def payloadTypeID (payload : Bytes) : UInt16 := UInt16.ofNat (BigEndian.value (payload.take 2))

def unmarshalContent (t : MsgType) (payload : Bytes) (target : J.Body t) :
    Except StreamErr (Message J) :=
  match J.unmarshal t (payload.drop 2) target with
  | .error text => .error (.other text)
  | .ok body => .ok ⟨t, body⟩

def decodeV2MessageFrame (f : Frame) : Except StreamErr (Message J) :=
  if f.type ≠ frameTypeMessage then .error (frameTypeErr f.type)
  else if f.payload.length < 2 then .error tooShortErr
  else
    match v2MsgReflectType (payloadTypeID f.payload) with
    | none => .error (unknownTypeErr (toString (payloadTypeID f.payload)))
    | some t => unmarshalContent t f.payload (J.zero t)

/-- The message that the target of the pointer holds afterwards. -/
def decodeV2MessageFrameInto (f : Frame) (out : Value J) : Except StreamErr (Message J) :=
  if f.type ≠ frameTypeMessage then .error (frameTypeErr f.type)
  else if f.payload.length < 2 then .error tooShortErr
  else
    match out with
    | .nil | .struct _ | .other _ => .error (.other "message target must be a pointer")
    | .otherPointer type => .error (unknownTypeErr type)
    | .pointer ⟨t, target⟩ =>
        if payloadTypeID f.payload ≠ v2MsgTypeID t then
          match v2MsgReflectType (payloadTypeID f.payload) with
          | none => .error (unknownTypeErr (toString (payloadTypeID f.payload)))
          | some actual => .error (.other s!"unexpected message type {actual.name}, want {t.name}")
        else unmarshalContent t f.payload target

def writeMsg (m : Value J) : Except StreamErr Bytes :=
  match encodeV2MessageFrame m with
  | .error err => .error err
  | .ok f => c.writeFrame f

def readMsg (r : Reader) : Except StreamErr (Message J) × Reader :=
  match c.readFrame r with
  | (.error err, r) => (.error err, r)
  | (.ok f, r) => (decodeV2MessageFrame f, r)

def readMsgInto (r : Reader) (out : Value J) : Except StreamErr (Message J) × Reader :=
  match c.readFrame r with
  | (.error err, r) => (.error err, r)
  | (.ok f, r) => (decodeV2MessageFrameInto f out, r)

def writeMsgs : List (Value J) → Except StreamErr Bytes
  | [] => .ok []
  | m :: ms =>
      match writeMsg c m, writeMsgs ms with
      | .ok bytes, .ok more => .ok (bytes ++ more)
      | .error err, _ | _, .error err => .error err

def readMsgs : Nat → Reader → Except StreamErr (List (Message J)) × Reader
  | 0, r => (.ok [], r)
  | n + 1, r =>
      match readMsg c r with
      | (.error err, r) => (.error err, r)
      | (.ok m, r) =>
          match readMsgs n r with
          | (.error err, r) => (.error err, r)
          | (.ok ms, r) => (.ok (m :: ms), r)

/-! ## Messages and frames -/

variable {c} {m : Message J} {v : Value J} {r r' : Reader} {rest : Bytes} {content : Bytes}

def messageFrame (t : MsgType) (content : Bytes) : Frame :=
  ⟨frameTypeMessage, 0, BigEndian.put 2 (v2MsgTypeID t).toNat ++ content⟩

theorem encodeV2MessageFrame_eq (hv : v.message? = some m)
    (hcontent : J.marshal m.1 m.2 = .ok content) :
    encodeV2MessageFrame v = .ok (messageFrame m.1 content) := by
  cases v with
  | struct | pointer =>
    cases hv
    simp [encodeV2MessageFrame, hcontent, messageFrame]
  | nil | other | otherPointer => cases hv

theorem length_messageFrame (t : MsgType) :
    (messageFrame t content).payload.length = content.length + 2 := by
  simp [messageFrame, Nat.add_comm]

theorem payloadTypeID_messageFrame {t : MsgType} :
    payloadTypeID (messageFrame t content).payload = v2MsgTypeID t := by
  have htake : (messageFrame t content).payload.take 2 = BigEndian.put 2 (v2MsgTypeID t).toNat := by
    simp [messageFrame]
  rw [payloadTypeID, htake, BigEndian.value_put_of_lt (v2MsgTypeID t).toNat_lt,
    UInt16.ofNat_toNat]

theorem drop_messageFrame (t : MsgType) :
    (messageFrame t content).payload.drop 2 = content := by
  simp [messageFrame]

theorem decodeV2MessageFrame_messageFrame (t : MsgType) :
    decodeV2MessageFrame (J := J) (messageFrame t content) =
      unmarshalContent t (messageFrame t content).payload (J.zero t) := by
  have htype : v2MsgReflectType (payloadTypeID (messageFrame t content).payload) = some t :=
    v2MsgReflectType_eq_some_iff.2 (payloadTypeID_messageFrame).symm
  have hlen : ¬ (messageFrame t content).payload.length < 2 := by
    rw [length_messageFrame]
    omega
  unfold decodeV2MessageFrame
  rw [if_neg (by simp [messageFrame]), if_neg hlen, htype]

theorem writeMsg_eq (hv : v.message? = some m) (hcontent : J.marshal m.1 m.2 = .ok content)
    (hsize : content.length + 2 ≤ c.maxFramePayloadSize.toNat) :
    writeMsg c v = .ok (Conn.header (messageFrame m.1 content) ++
      (messageFrame m.1 content).payload) := by
  simp only [writeMsg, encodeV2MessageFrame_eq hv hcontent, Conn.writeFrame]
  rw [if_neg (by simp [messageFrame]), if_neg (by rw [length_messageFrame]; omega)]

theorem readMsg_messageFrame (hJ : J.RoundTrip) (hcontent : J.marshal m.1 m.2 = .ok content)
    (hsize : content.length + 2 ≤ c.maxFramePayloadSize.toNat)
    (hpending : r.pending = Conn.header (messageFrame m.1 content) ++
      (messageFrame m.1 content).payload ++ rest) :
    ∃ r' : Reader, readMsg c r = (.ok m, r') ∧ r'.pending = rest ∧ r'.fin = r.fin := by
  have hbegins : c.Begins (messageFrame m.1 content) r.pending rest :=
    ⟨rfl, by rw [length_messageFrame]; exact hsize, hpending⟩
  obtain ⟨r', hread, hrest, hfin⟩ := Conn.readFrame_of_begins hbegins
  refine ⟨r', ?_, hrest, hfin⟩
  simp only [readMsg, hread, decodeV2MessageFrame_messageFrame, unmarshalContent,
    drop_messageFrame, hJ m.1 m.2 content hcontent]

def Fits (c : Conn) (m : Message J) : Prop :=
  ∃ content, J.marshal m.1 m.2 = .ok content ∧ content.length + 2 ≤ c.maxFramePayloadSize.toNat

/-- Messages that are written one after the other are read one after the other. -/
theorem readMsgs_writeMsgs (hJ : J.RoundTrip) {vs : List (Value J)} {ms : List (Message J)}
    (hvs : vs.map Value.message? = ms.map some) (hfits : ∀ m ∈ ms, Fits c m) :
    ∃ bytes, writeMsgs c vs = .ok bytes ∧ ∀ (r : Reader) rest, r.pending = bytes ++ rest →
      ∃ r' : Reader, readMsgs c ms.length r = (.ok ms, r') ∧ r'.pending = rest ∧
        r'.fin = r.fin := by
  induction ms generalizing vs with
  | nil =>
    have hnil : vs = [] := List.map_eq_nil_iff.1 hvs
    subst hnil
    exact ⟨[], rfl, fun r rest hr => ⟨r, rfl, hr, rfl⟩⟩
  | cons m ms ih =>
    obtain ⟨v, vs, rfl, hv, hvs⟩ := List.map_eq_cons_iff.1 hvs
    obtain ⟨content, hcontent, hsize⟩ := hfits m List.mem_cons_self
    obtain ⟨more, hmore, hreads⟩ := ih hvs fun m hm => hfits m (List.mem_cons_of_mem _ hm)
    have hwrite := writeMsg_eq hv hcontent hsize
    refine ⟨Conn.header (messageFrame m.1 content) ++ (messageFrame m.1 content).payload ++ more,
      by simp only [writeMsgs, hwrite, hmore], ?_⟩
    intro r rest hr
    rw [List.append_assoc] at hr
    -- the first message is read from the front; the others are still pending
    obtain ⟨r1, hread, hpending, hfin⟩ := readMsg_messageFrame hJ hcontent hsize hr
    obtain ⟨r2, hreads, hrest, hfin'⟩ := hreads r1 rest hpending
    refine ⟨r2, ?_, hrest, hfin'.trans hfin⟩
    simp only [List.length_cons, readMsgs, hread, hreads]

/-! ## The two ways of reading -/

variable {t : MsgType} {f : Frame} {body : J.Body t} {out : Value J} {target : J.Body t}

theorem unmarshalContent_eq_ok_iff {payload : Bytes} : unmarshalContent t payload target = .ok m ↔
      ∃ body, m = ⟨t, body⟩ ∧ J.unmarshal t (payload.drop 2) target = .ok body := by
  unfold unmarshalContent
  cases J.unmarshal t (payload.drop 2) target with
  | error text => simp
  | ok body =>
    constructor
    · intro h
      cases h
      exact ⟨body, rfl, rfl⟩
    · rintro ⟨body', rfl, hbody⟩
      cases hbody
      rfl

theorem decodeV2MessageFrame_eq_ok_iff : decodeV2MessageFrame f = .ok ⟨t, body⟩ ↔
      f.type = frameTypeMessage ∧ 2 ≤ f.payload.length ∧
        payloadTypeID f.payload = v2MsgTypeID t ∧
          J.unmarshal t (f.payload.drop 2) (J.zero t) = .ok body := by
  unfold decodeV2MessageFrame
  by_cases htype : f.type = frameTypeMessage
  swap
  · simp [htype]
  by_cases hlen : f.payload.length < 2
  · simp [htype, hlen]
  rw [if_neg (by simp [htype]), if_neg hlen]
  cases hknown : v2MsgReflectType (payloadTypeID f.payload) with
  | none =>
    have hne : payloadTypeID f.payload ≠ v2MsgTypeID t := by
      intro hid
      rw [v2MsgReflectType_eq_some_iff.2 hid.symm] at hknown
      cases hknown
    simp [hne]
  | some t' =>
    have hid := v2MsgReflectType_eq_some_iff.1 hknown
    simp only [unmarshalContent_eq_ok_iff]
    constructor
    · rintro ⟨body', heq, hbody⟩
      cases heq
      exact ⟨htype, Nat.not_lt.1 hlen, hid.symm, hbody⟩
    · rintro ⟨-, -, hid', hbody⟩
      have htt : t' = t := by
        have hsame := v2MsgReflectType_eq_some_iff.2 hid'.symm
        rw [hknown] at hsame
        exact Option.some.inj hsame
      subst htt
      exact ⟨body, rfl, hbody⟩

theorem decodeV2MessageFrameInto_eq_ok_iff :
    decodeV2MessageFrameInto f (.pointer ⟨t, target⟩) = .ok ⟨t, body⟩ ↔
      f.type = frameTypeMessage ∧ 2 ≤ f.payload.length ∧
        payloadTypeID f.payload = v2MsgTypeID t ∧
          J.unmarshal t (f.payload.drop 2) target = .ok body := by
  unfold decodeV2MessageFrameInto
  by_cases htype : f.type = frameTypeMessage
  swap
  · simp [htype]
  by_cases hlen : f.payload.length < 2
  · simp [htype, hlen]
  by_cases hid : payloadTypeID f.payload = v2MsgTypeID t
  · rw [if_neg (by simp [htype]), if_neg hlen]
    simp only [hid, ne_eq, not_true_eq_false, if_false, unmarshalContent_eq_ok_iff]
    constructor
    · rintro ⟨body', heq, hbody⟩
      cases heq
      exact ⟨htype, Nat.not_lt.1 hlen, trivial, hbody⟩
    · rintro ⟨-, -, -, hbody⟩
      exact ⟨body, rfl, hbody⟩
  · rw [if_neg (by simp [htype]), if_neg hlen]
    simp only [ne_eq, hid, not_false_eq_true, if_true]
    cases v2MsgReflectType (payloadTypeID f.payload) <;> simp

theorem readMsg_eq_ok (h : readMsg c r = (.ok ⟨t, body⟩, r')) :
    ∃ f, c.readFrame r = (.ok f, r') ∧ decodeV2MessageFrame f = .ok ⟨t, body⟩ := by
  rcases hread : c.readFrame r with ⟨res, r1⟩
  cases res with
  | error err => simp [readMsg, hread] at h
  | ok f =>
    simp only [readMsg, hread, Prod.mk.injEq] at h
    exact ⟨f, by rw [h.2], h.1⟩

theorem readMsgInto_eq_ok (h : readMsgInto c r out = (.ok m, r')) :
    ∃ f, c.readFrame r = (.ok f, r') ∧ decodeV2MessageFrameInto f out = .ok m := by
  rcases hread : c.readFrame r with ⟨res, r1⟩
  cases res with
  | error err => simp [readMsgInto, hread] at h
  | ok f =>
    simp only [readMsgInto, hread, Prod.mk.injEq] at h
    exact ⟨f, by rw [h.2], h.1⟩

theorem readMsg_iff_readMsgInto : readMsg c r = (.ok ⟨t, body⟩, r') ↔
      readMsgInto c r (.pointer ⟨t, J.zero t⟩) = (.ok ⟨t, body⟩, r') := by
  constructor
  · intro h
    obtain ⟨f, hread, hdecode⟩ := readMsg_eq_ok h
    have hinto := decodeV2MessageFrameInto_eq_ok_iff.2 (decodeV2MessageFrame_eq_ok_iff.1 hdecode)
    simp only [readMsgInto, hread, hinto]
  · intro h
    obtain ⟨f, hread, hdecode⟩ := readMsgInto_eq_ok h
    have hfresh := decodeV2MessageFrame_eq_ok_iff.2 (decodeV2MessageFrameInto_eq_ok_iff.1 hdecode)
    simp only [readMsg, hread, hfresh]

/-! ## What is not a message -/

inductive Malformed (c : Conn) (bytes : Bytes) : Prop where
  | header (h : bytes.length < 8)
  | payload (h : bytes.length < 8 + Conn.headerLength bytes)
  | flags (h : Conn.headerFlags bytes ≠ 0)
  | length (h : c.maxFramePayloadSize.toNat < Conn.headerLength bytes)
  | frameType (h : Conn.headerType bytes ≠ frameTypeMessage)
  | short (h : Conn.headerLength bytes < 2)
  | msgType (h : v2MsgReflectType (payloadTypeID (bytes.drop 8)) = none)

variable {bytes : Bytes}

theorem payloadTypeID_drop (h : c.Begins f bytes rest) (hlen : 2 ≤ f.payload.length) :
    payloadTypeID (bytes.drop 8) = payloadTypeID f.payload := by
  have hdrop : (bytes.drop 8).take 2 = f.payload.take 2 := by
    rw [h.bytes, List.append_assoc, List.drop_append_of_le_length (by simp),
      List.drop_of_length_le (by simp), List.nil_append, List.take_append_of_le_length hlen]
  rw [payloadTypeID, hdrop, payloadTypeID]

theorem not_malformed (h : c.Begins f bytes rest)
    (htype : f.type = frameTypeMessage) (hlen : 2 ≤ f.payload.length)
    (hid : payloadTypeID f.payload = v2MsgTypeID t) : ¬ Malformed c bytes := by
  have hbytes : bytes = Conn.header f ++ (f.payload ++ rest) := by
    rw [h.bytes, List.append_assoc]
  have hsmall : f.payload.length < 256 ^ 4 :=
    Nat.lt_of_le_of_lt h.size c.maxFramePayloadSize.toNat_lt
  have hlength : Conn.headerLength bytes = f.payload.length := by
    rw [hbytes, Conn.headerLength_header hsmall]
  have htotal : bytes.length = 8 + f.payload.length + rest.length := by
    rw [hbytes, List.length_append, List.length_append, Conn.length_header, Nat.add_assoc]
  intro hbad
  cases hbad with
  | flags hbad =>
    rw [hbytes, Conn.headerFlags_header] at hbad
    exact hbad h.flags
  | length hbad =>
    rw [hlength] at hbad
    exact absurd h.size (Nat.not_le.2 hbad)
  | frameType hbad =>
    rw [hbytes, Conn.headerType_header] at hbad
    exact hbad htype
  | header | payload | short => omega
  | msgType hbad =>
    rw [payloadTypeID_drop h hlen, v2MsgReflectType_eq_some_iff.2 hid.symm] at hbad
    cases hbad

theorem decodeV2MessageFrameInto_pointer (h : decodeV2MessageFrameInto f out = .ok m) :
    ∃ t target body, out = .pointer ⟨t, target⟩ ∧ m = ⟨t, body⟩ := by
  unfold decodeV2MessageFrameInto at h
  split_ifs at h
  cases out with
  | nil | struct | other | otherPointer => cases h
  | pointer m' =>
    obtain ⟨t, target⟩ := m'
    simp only at h
    split_ifs at h
    · cases hknown : v2MsgReflectType (payloadTypeID f.payload) <;> simp [hknown] at h
    · obtain ⟨body, rfl, -⟩ := unmarshalContent_eq_ok_iff.1 h
      exact ⟨t, target, body, rfl, rfl⟩

/-- Nothing is read from bytes that do not begin with the frame of a message. -/
theorem readMsg_of_malformed (h : Malformed c r.pending) :
    ∃ err r', readMsg (J := J) c r = (.error err, r') := by
  rcases hread : readMsg c r with ⟨res, r'⟩
  cases res with
  | error err => exact ⟨err, r', rfl⟩
  | ok m =>
    obtain ⟨f, hframe, hdecode⟩ := readMsg_eq_ok hread
    obtain ⟨htype, hlen, hid, -⟩ := decodeV2MessageFrame_eq_ok_iff.1 hdecode
    exact absurd h (not_malformed (Conn.begins_of_readFrame hframe) htype hlen hid)

theorem readMsgInto_of_malformed (h : Malformed c r.pending ∨
      ∀ t target, out = .pointer ⟨t, target⟩ → payloadTypeID (r.pending.drop 8) ≠ v2MsgTypeID t) :
    ∃ err r', readMsgInto c r out = (.error err, r') := by
  rcases hread : readMsgInto c r out with ⟨res, r'⟩
  cases res with
  | error err => exact ⟨err, r', rfl⟩
  | ok m =>
    obtain ⟨f, hframe, hdecode⟩ := readMsgInto_eq_ok hread
    obtain ⟨t, target, body, rfl, rfl⟩ := decodeV2MessageFrameInto_pointer hdecode
    obtain ⟨htype, hlen, hid, -⟩ := decodeV2MessageFrameInto_eq_ok_iff.1 hdecode
    have hbegins := Conn.begins_of_readFrame hframe
    rcases h with h | h
    · exact absurd h (not_malformed hbegins htype hlen hid)
    · have hne := h t target rfl
      rw [payloadTypeID_drop hbegins hlen] at hne
      exact absurd hid hne

end Codec

/-- The contract of the v2 codec. -/
theorem codec_contract (J : JSON) (hJ : J.RoundTrip) :
    -- what is written is read back, whatever the pieces in which the bytes come
    (∀ (vs : List (Value J)) (ms : List (Message J)), vs.map Value.message? = ms.map some →
      (∀ m ∈ ms, Fits newConn m) → ∃ bytes, writeMsgs newConn vs = .ok bytes ∧
          ∀ (r : Reader) (rest : Bytes), r.pending = bytes ++ rest →
            ∃ r' : Reader, readMsgs newConn ms.length r = (.ok ms, r') ∧ r'.pending = rest) ∧
    -- both ways of reading give the same message and leave the same bytes
    (∀ (r r' : Reader) (t : MsgType) (body : J.Body t), readMsg newConn r = (.ok ⟨t, body⟩, r') ↔
        readMsgInto newConn r (.pointer ⟨t, J.zero t⟩) = (.ok ⟨t, body⟩, r')) ∧
    -- a stream that does not begin with a message gives an error
    (∀ r : Reader, Malformed newConn r.pending →
      (∃ err r', readMsg (J := J) newConn r = (.error err, r')) ∧
        ∀ out : Value J, ∃ err r', readMsgInto newConn r out = (.error err, r')) ∧
    -- and so does a target of another type
    (∀ (r : Reader) (out : Value J), (∀ t target, out = .pointer ⟨t, target⟩ →
        payloadTypeID (r.pending.drop 8) ≠ v2MsgTypeID t) →
          ∃ err r', readMsgInto newConn r out = (.error err, r')) := by
  refine ⟨?_, ?_, ?_, ?_⟩
  · intro vs ms hvs hfits
    obtain ⟨bytes, hwrite, hreads⟩ := readMsgs_writeMsgs hJ hvs hfits
    refine ⟨bytes, hwrite, ?_⟩
    intro r rest hr
    obtain ⟨r', hread, hrest, -⟩ := hreads r rest hr
    exact ⟨r', hread, hrest⟩
  · intro r r' t body
    exact readMsg_iff_readMsgInto
  · intro r hbad
    exact ⟨readMsg_of_malformed hbad, fun out => readMsgInto_of_malformed (.inl hbad)⟩
  · intro r out hother
    exact readMsgInto_of_malformed (.inr hother)

def SampleBody : MsgType → Type
  | .closeProxy => Bool
  | _ => Unit

def sampleZero : (t : MsgType) → SampleBody t
  | .closeProxy => false
  | .login | .loginResp | .newProxy | .newProxyResp | .newWorkConn | .reqWorkConn
  | .startWorkConn | .newVisitorConn | .newVisitorConnResp | .ping | .pong | .udpPacket
  | .natHoleVisitor | .natHoleClient | .natHoleResp | .natHoleSid | .natHoleReport
  | .proxyMetrics => ()

/-- The text of a message without any field set; structures are not left out. -/
def emptyText : MsgType → Bytes
  | .login => Bytes.ascii "\x7b\"client_spec\":\x7b\x7d\x7d"
  | .natHoleResp => Bytes.ascii "\x7b\"detect_behavior\":\x7b\x7d\x7d"
  | _ => Bytes.ascii "\x7b\x7d"

def closeText : Bytes := Bytes.ascii "\x7b\"proxy_name\":\"ssh\"\x7d"

def sampleJSON : JSON where
  Body := SampleBody
  zero := sampleZero
  marshal := fun t body =>
    match t, body with
    | .closeProxy, true => .ok closeText
    | t, _ => .ok (emptyText t)
  unmarshal := fun t text target =>
    if text = emptyText t then .ok target
    else
      match t, target with
      | .closeProxy, _ => if text = closeText then .ok true else .error "not in the sample"
      | _, _ => .error "not in the sample"

theorem sampleJSON_roundTrip : sampleJSON.RoundTrip := by
  intro t body text h
  cases t with
  | closeProxy =>
    cases body with
    | true | false =>
      cases h
      rfl
  | _ =>
    cases h
    rfl

def sampleValues : List (Value sampleJSON) := [.pointer ⟨.closeProxy, true⟩, .struct ⟨.ping, ()⟩]

theorem codec_contract_closeProxy : sampleJSON.RoundTrip ∧
      ∃ bytes, writeMsgs newConn sampleValues = .ok bytes ∧
        ∀ (r : Reader) (rest : Bytes), r.pending = bytes ++ rest →
          ∃ r' : Reader, readMsgs (J := sampleJSON) newConn 2 r =
            (.ok [⟨.closeProxy, true⟩, ⟨.ping, ()⟩], r') ∧ r'.pending = rest := by
  refine ⟨sampleJSON_roundTrip, ?_⟩
  have hfits : ∀ m ∈ [(⟨.closeProxy, true⟩ : Message sampleJSON), ⟨.ping, ()⟩],
      Fits newConn m := by
    intro m hm
    simp only [List.mem_cons, List.not_mem_nil, or_false] at hm
    rcases hm with rfl | rfl
    · exact ⟨closeText, rfl, by decide⟩
    · exact ⟨emptyText .ping, rfl, by decide⟩
  exact (codec_contract sampleJSON sampleJSON_roundTrip).1 sampleValues _ rfl hfits

end FrpMeo.Wire
