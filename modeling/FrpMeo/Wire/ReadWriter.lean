import FrpMeo.Wire.Message

/-!
# The codecs of the two wire protocols

`msg.NewReadWriter` (`pkg/msg/handler.go`) chooses the codec by the wire protocol of the client:
that of `Wire.Message`, or the one of v1, which comes from another library: `V1` carries what is
documented of it, and `Golib.v1` meets that. The first byte is zero for v2 and never for v1.
-/

namespace FrpMeo.Wire

open Lib

/-- `msg.ReadWriter` over the bytes of a connection; `readMsgInto` reads into a new variable. -/
structure ReadWriter (J : JSON) where
  writeMsg : Message J → Except StreamErr Bytes
  readMsg : Bytes → Except StreamErr (Message J × Bytes)
  readMsgInto : MsgType → Bytes → Except StreamErr (Message J × Bytes)

def readResult {J : JSON} :
    Except StreamErr (Message J) × Reader → Except StreamErr (Message J × Bytes)
  | (.error err, _) => .error err
  | (.ok m, r) => .ok (m, r.pending)

def newV2ReadWriter (J : JSON) : ReadWriter J where
  writeMsg m := FrpMeo.Wire.writeMsg newConn (.pointer m)
  readMsg bytes := readResult (FrpMeo.Wire.readMsg newConn ⟨[bytes], .eof⟩)
  readMsgInto t bytes :=
    readResult (FrpMeo.Wire.readMsgInto newConn ⟨[bytes], .eof⟩ (.pointer ⟨t, J.zero t⟩))

/-- The constants `TypeLogin`, …, which are the keys of `msgTypeMap`. -/
def typeByte : MsgType → UInt8
  | .login => 'o'.toUInt8
  | .loginResp => '1'.toUInt8
  | .newProxy => 'p'.toUInt8
  | .newProxyResp => '2'.toUInt8
  | .closeProxy => 'c'.toUInt8
  | .newWorkConn => 'w'.toUInt8
  | .reqWorkConn => 'r'.toUInt8
  | .startWorkConn => 's'.toUInt8
  | .newVisitorConn => 'v'.toUInt8
  | .newVisitorConnResp => '3'.toUInt8
  | .ping => 'h'.toUInt8
  | .pong => '4'.toUInt8
  | .udpPacket => 'u'.toUInt8
  | .natHoleVisitor => 'i'.toUInt8
  | .natHoleClient => 'n'.toUInt8
  | .natHoleResp => 'm'.toUInt8
  | .natHoleSid => '5'.toUInt8
  | .natHoleReport => '6'.toUInt8
  | .proxyMetrics => '7'.toUInt8

/-- The codec of v1: a message begins with the byte of its type; `Within` are those in the limit. -/
structure V1 (J : JSON) extends ReadWriter J where
  Within : Message J → Prop
  carries : ∀ m, Within m → ∃ bytes, writeMsg m = .ok (typeByte m.1 :: bytes) ∧
    ∀ rest, readMsg (typeByte m.1 :: bytes ++ rest) = .ok (m, rest) ∧
      readMsgInto m.1 (typeByte m.1 :: bytes ++ rest) = .ok (m, rest)
  unregistered : ∀ b rest, (∀ t, typeByte t ≠ b) →
    (∃ err, readMsg (b :: rest) = .error err) ∧ ∀ t, ∃ err, readMsgInto t (b :: rest) = .error err
  ends : readMsg [] = .error .eof ∧ ∀ t, readMsgInto t [] = .error .eof

theorem typeByte_ne_zero (t : MsgType) : typeByte t ≠ 0 := by
  cases t <;> decide

section Codecs

variable {J : JSON} (v1 : V1 J)

def protocolV2 : String := "v2"

def newReadWriter (wireProtocol : String) : ReadWriter J :=
  if wireProtocol = protocolV2 then newV2ReadWriter J else v1.toReadWriter

def Accepts (wireProtocol : String) (m : Message J) : Prop :=
  if wireProtocol = protocolV2 then Fits newConn m else v1.Within m

variable {v1} {m : Message J} {rest : Bytes} {proto other : String}

/-- What a codec does with a message that fits. -/
structure Carried (rw : ReadWriter J) (m : Message J) (bytes : Bytes) : Prop where
  write : rw.writeMsg m = .ok bytes
  nonempty : bytes ≠ []
  read : ∀ rest, rw.readMsg (bytes ++ rest) = .ok (m, rest)
  readInto : ∀ rest, rw.readMsgInto m.1 (bytes ++ rest) = .ok (m, rest)

theorem header_messageFrame (t : MsgType) (content : Bytes) :
    ∃ tail, Conn.header (messageFrame t content) = 0 :: tail := by
  have hput : BigEndian.put 2 frameTypeMessage.toNat = [0, 16] := by decide
  rw [Conn.header, List.append_assoc]
  exact ⟨_, congrArg (· ++ _) hput⟩

theorem carried_v2 (hJ : J.RoundTrip) (h : Fits newConn m) :
    ∃ bytes, Carried (newV2ReadWriter J) m (0 :: bytes) := by
  obtain ⟨content, hcontent, hsize⟩ := h
  have hwrite : FrpMeo.Wire.writeMsg newConn (.pointer m) =
      .ok (Conn.header (messageFrame m.1 content) ++ (messageFrame m.1 content).payload) :=
    writeMsg_eq rfl hcontent hsize
  obtain ⟨tail, htail⟩ : ∃ tail, Conn.header (messageFrame m.1 content) ++
      (messageFrame m.1 content).payload = 0 :: tail := by
    obtain ⟨tail, htail⟩ := header_messageFrame m.1 content
    rw [htail]
    exact ⟨_, List.cons_append⟩
  rw [htail] at hwrite
  have hread : ∀ rest, ∃ r' : Reader,
      FrpMeo.Wire.readMsg newConn ⟨[(0 :: tail) ++ rest], .eof⟩ = (.ok m, r') ∧
        r'.pending = rest := by
    intro rest
    have hpending : (⟨[(0 :: tail) ++ rest], .eof⟩ : Reader).pending =
        Conn.header (messageFrame m.1 content) ++ (messageFrame m.1 content).payload ++ rest := by
      rw [htail]
      simp [Reader.pending]
    obtain ⟨r', hr', hrest, -⟩ := readMsg_messageFrame hJ hcontent hsize hpending
    exact ⟨r', hr', hrest⟩
  refine ⟨tail, hwrite, List.cons_ne_nil _ _, ?_, ?_⟩
  · intro rest
    obtain ⟨r', hr', hrest⟩ := hread rest
    simp only [newV2ReadWriter, hr', readResult, hrest]
  · intro rest
    obtain ⟨r', hr', hrest⟩ := hread rest
    simp only [newV2ReadWriter, readMsg_iff_readMsgInto.1 hr', readResult, hrest]

theorem carried_v1 (h : v1.Within m) :
    ∃ bytes, Carried v1.toReadWriter m (typeByte m.1 :: bytes) := by
  obtain ⟨bytes, hwrite, hread⟩ := v1.carries m h
  exact ⟨bytes, hwrite, List.cons_ne_nil _ _, fun rest => (hread rest).1,
    fun rest => (hread rest).2⟩

theorem carried_of_accepts (hJ : J.RoundTrip) (h : Accepts v1 proto m) :
    ∃ bytes, Carried (newReadWriter v1 proto) m bytes := by
  unfold Accepts at h
  unfold newReadWriter
  split_ifs at h ⊢ with hproto
  · obtain ⟨bytes, hbytes⟩ := carried_v2 hJ h
    exact ⟨_, hbytes⟩
  · obtain ⟨bytes, hbytes⟩ := carried_v1 h
    exact ⟨_, hbytes⟩

/-! ## A codec on the bytes of the other -/

theorem malformed_of_head {b : UInt8} (hb : b ≠ 0) : Malformed newConn (b :: rest) := by
  rcases rest with - | ⟨c, rest⟩
  · exact .header (by simp)
  · apply Malformed.frameType
    intro htype
    have hb' : b.toNat ≠ 0 := fun h => hb (UInt8.toNat_inj.1 h)
    have hb256 := b.toNat_lt
    have hc256 := c.toNat_lt
    have hvalue : BigEndian.value ((b :: c :: rest).take 2) = b.toNat * 256 + c.toNat := by
      simp [BigEndian.value]
    have hnat := congrArg UInt16.toNat htype
    rw [Conn.headerType, hvalue, UInt16.toNat_ofNat_of_lt' (by unfold UInt16.size; omega)] at hnat
    have hsixteen : frameTypeMessage.toNat = 16 := rfl
    omega

theorem v2_error_of_malformed {bytes : Bytes} (h : Malformed newConn bytes) :
    (∃ err, (newV2ReadWriter J).readMsg bytes = .error err) ∧
      ∀ t, ∃ err, (newV2ReadWriter J).readMsgInto t bytes = .error err := by
  have hpending : (⟨[bytes], .eof⟩ : Reader).pending = bytes := by simp [Reader.pending]
  rw [← hpending] at h
  constructor
  · obtain ⟨err, r', hread⟩ := readMsg_of_malformed (J := J) h
    exact ⟨err, by simp only [newV2ReadWriter, hread, readResult]⟩
  · intro t
    have hinto : ∃ err r', FrpMeo.Wire.readMsgInto newConn ⟨[bytes], .eof⟩
        (.pointer ⟨t, J.zero t⟩) = (.error err, r') := readMsgInto_of_malformed (.inl h)
    obtain ⟨err, r', hread⟩ := hinto
    exact ⟨err, by simp only [newV2ReadWriter, hread, readResult]⟩

theorem read_nil (proto : String) : (newReadWriter v1 proto).readMsg [] = .error .eof := by
  unfold newReadWriter
  split_ifs
  · rfl
  · exact v1.ends.1

theorem readInto_nil (proto : String) (t : MsgType) :
    (newReadWriter v1 proto).readMsgInto t [] = .error .eof := by
  unfold newReadWriter
  split_ifs
  · rfl
  · exact v1.ends.2 t

end Codecs

/-! ## A codec of v1 -/

namespace Golib

/-- The limit of the reader. -/
def maxMsgLength : Nat := 10240

/-- The types that `RegisterMsg` has been called for. -/
def registered (b : UInt8) : Option MsgType := v2MsgTypes.find? fun t => typeByte t = b

/-- The type, the text, and the bytes that are still to come. -/
def unpack : Bytes → Except StreamErr (MsgType × Bytes × Bytes)
  | [] => .error .eof
  | b :: rest =>
      match registered b with
      | none => .error (.other "message type error")
      | some t =>
          if rest.length < 8 then .error .unexpectedEOF
          else if maxMsgLength < BigEndian.value (rest.take 8) then
            .error (.other "message length exceed the limit")
          else if (rest.drop 8).length < BigEndian.value (rest.take 8) then .error .unexpectedEOF
          else
            .ok (t, (rest.drop 8).take (BigEndian.value (rest.take 8)),
              (rest.drop 8).drop (BigEndian.value (rest.take 8)))

variable {J : JSON}

def writeMsg (m : Message J) : Except StreamErr Bytes :=
  match J.marshal m.1 m.2 with
  | .error text => .error (.other text)
  | .ok content => .ok (typeByte m.1 :: (BigEndian.put 8 content.length ++ content))

/-- `json.Unmarshal` into a new variable of the type. -/
def decodeAs (t : MsgType) (content rest : Bytes) : Except StreamErr (Message J × Bytes) :=
  match J.unmarshal t content (J.zero t) with
  | .error text => .error (.other text)
  | .ok body => .ok (⟨t, body⟩, rest)

def readMsg (bytes : Bytes) : Except StreamErr (Message J × Bytes) :=
  match unpack bytes with
  | .error err => .error err
  | .ok (t, content, rest) => decodeAs t content rest

/-- The type that was read does not matter. -/
def readMsgInto (t : MsgType) (bytes : Bytes) : Except StreamErr (Message J × Bytes) :=
  match unpack bytes with
  | .error err => .error err
  | .ok (_, content, rest) => decodeAs t content rest

theorem registered_typeByte (t : MsgType) : registered (typeByte t) = some t := by
  cases t <;> decide

theorem unpack_packed (t : MsgType) {content : Bytes} (h : content.length ≤ maxMsgLength)
    (rest : Bytes) : unpack (typeByte t :: (BigEndian.put 8 content.length ++ content) ++ rest) =
      .ok (t, content, rest) := by
  have hlt : content.length < 256 ^ 8 := Nat.lt_of_le_of_lt h (by decide)
  have hvalue : BigEndian.value ((BigEndian.put 8 content.length ++ (content ++ rest)).take 8) =
      content.length := by
    rw [List.take_left' (by simp), BigEndian.value_put_of_lt hlt]
  have hdrop : (BigEndian.put 8 content.length ++ (content ++ rest)).drop 8 = content ++ rest :=
    List.drop_left' (by simp)
  rw [List.cons_append, List.append_assoc]
  simp only [unpack, registered_typeByte, hvalue, hdrop]
  rw [if_neg (by simp), if_neg (Nat.not_lt.2 h), if_neg (by simp), List.take_left, List.drop_left]

theorem unpack_unregistered {b : UInt8} (h : ∀ t, typeByte t ≠ b) (rest : Bytes) :
    unpack (b :: rest) = .error (.other "message type error") := by
  have hnone : registered b = none := by
    apply List.find?_eq_none.2
    intro t _
    simpa using h t
  simp only [unpack, hnone]

/-- One byte for the type, eight for the length, and the text. -/
def v1 (hJ : J.RoundTrip) : V1 J where
  writeMsg := writeMsg
  readMsg := readMsg
  readMsgInto := readMsgInto
  Within m := ∃ content, J.marshal m.1 m.2 = .ok content ∧ content.length ≤ maxMsgLength
  carries := by
    rintro m ⟨content, hcontent, hlen⟩
    have hdecode : ∀ rest, decodeAs m.1 content rest = .ok (m, rest) := by
      intro rest
      simp only [decodeAs, hJ m.1 m.2 content hcontent]
    refine ⟨BigEndian.put 8 content.length ++ content, by simp only [writeMsg, hcontent], ?_⟩
    intro rest
    constructor
    · simp only [readMsg, unpack_packed m.1 hlen rest, hdecode]
    · simp only [readMsgInto, unpack_packed m.1 hlen rest, hdecode]
  unregistered := by
    intro b rest h
    refine ⟨⟨.other "message type error", ?_⟩, fun t => ⟨.other "message type error", ?_⟩⟩
    · simp only [readMsg, unpack_unregistered h rest]
    · simp only [readMsgInto, unpack_unregistered h rest]
  ends := ⟨rfl, fun _ => rfl⟩

end Golib

end FrpMeo.Wire
