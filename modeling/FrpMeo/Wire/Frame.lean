import FrpMeo.Lib.ByteStream

/-!
# Frames

A v2 connection carries frames (`pkg/proto/wire/wire.go`): a header of eight bytes with type, flags
and length, and the payload. `WriteFrame` and `ReadFrame` refuse flags and payloads above the limit
of the connection.
-/

namespace FrpMeo.Wire

open Lib

def frameTypeServerHello : UInt16 := 2

def frameTypeMessage : UInt16 := 16

def defaultMaxFramePayloadSize : UInt32 := 64 * 1024

structure Frame where
  type : UInt16
  flags : UInt16
  payload : Bytes
  deriving DecidableEq

structure Conn where
  maxFramePayloadSize : UInt32

def newConn : Conn := ⟨defaultMaxFramePayloadSize⟩

namespace Conn

variable (c : Conn)

def flagsErr (flags : UInt16) : StreamErr := .other s!"unsupported frame flags: {flags}"

def lengthErr (length : Nat) : StreamErr :=
  .other s!"frame payload length {length} exceeds limit {c.maxFramePayloadSize}"

def header (f : Frame) : Bytes :=
  BigEndian.put 2 f.type.toNat ++ BigEndian.put 2 f.flags.toNat ++
    BigEndian.put 4 f.payload.length

def writeFrame (f : Frame) : Except StreamErr Bytes :=
  if f.flags ≠ 0 then .error (flagsErr f.flags)
  else if c.maxFramePayloadSize.toNat < f.payload.length then
    .error (c.lengthErr f.payload.length)
  else .ok (header f ++ f.payload)

def headerType (header : Bytes) : UInt16 := UInt16.ofNat (BigEndian.value (header.take 2))

def headerFlags (header : Bytes) : UInt16 := UInt16.ofNat (BigEndian.value ((header.drop 2).take 2))

def headerLength (header : Bytes) : Nat := BigEndian.value ((header.drop 4).take 4)

def readFrame (r : Reader) : Except StreamErr Frame × Reader :=
  match r.readFull 8 with
  | (.error err, r) => (.error err, r)
  | (.ok header, r) =>
      if headerFlags header ≠ 0 then (.error (flagsErr (headerFlags header)), r)
      else if c.maxFramePayloadSize.toNat < headerLength header then
        (.error (c.lengthErr (headerLength header)), r)
      else
        match r.readFull (headerLength header) with
        | (.error err, r) => (.error err, r)
        | (.ok payload, r) => (.ok ⟨headerType header, headerFlags header, payload⟩, r)

/-! ## Where a frame begins -/

structure Begins (f : Frame) (bytes rest : Bytes) : Prop where
  flags : f.flags = 0
  size : f.payload.length ≤ c.maxFramePayloadSize.toNat
  bytes : bytes = header f ++ f.payload ++ rest

@[simp] theorem length_header (f : Frame) : (header f).length = 8 := by
  simp [header]

theorem headerType_header (f : Frame) (rest : Bytes) : headerType (header f ++ rest) = f.type := by
  have htake : (header f ++ rest).take 2 = BigEndian.put 2 f.type.toNat := by
    simp [header]
  have hvalue : BigEndian.value (BigEndian.put 2 f.type.toNat) = f.type.toNat :=
    BigEndian.value_put_of_lt f.type.toNat_lt
  rw [headerType, htake, hvalue, UInt16.ofNat_toNat]

theorem headerFlags_header (f : Frame) (rest : Bytes) :
    headerFlags (header f ++ rest) = f.flags := by
  have htake : ((header f ++ rest).drop 2).take 2 = BigEndian.put 2 f.flags.toNat := by
    simp [header]
  have hvalue : BigEndian.value (BigEndian.put 2 f.flags.toNat) = f.flags.toNat :=
    BigEndian.value_put_of_lt f.flags.toNat_lt
  rw [headerFlags, htake, hvalue, UInt16.ofNat_toNat]

theorem headerLength_header {f : Frame} (h : f.payload.length < 256 ^ 4) (rest : Bytes) :
    headerLength (header f ++ rest) = f.payload.length := by
  have htake : ((header f ++ rest).drop 4).take 4 = BigEndian.put 4 f.payload.length := by
    rw [header, List.append_assoc, List.drop_append_of_le_length (by simp),
      List.drop_of_length_le (by simp), List.nil_append, List.take_append_of_le_length (by simp),
      List.take_of_length_le (by simp)]
  rw [headerLength, htake, BigEndian.value_put_of_lt h]

theorem header_of_fields {bytes : Bytes} (hlen : bytes.length = 8) {payload : Bytes}
    (hpayload : payload.length = headerLength bytes) :
    header ⟨headerType bytes, headerFlags bytes, payload⟩ = bytes := by
  have h1 : (bytes.take 2).length = 2 := by simp [hlen]
  have h2 : ((bytes.drop 2).take 2).length = 2 := by simp [hlen]
  have h3 : ((bytes.drop 4).take 4).length = 4 := by simp [hlen]
  have hsplit : bytes.take 2 ++ (bytes.drop 2).take 2 ++ (bytes.drop 4).take 4 = bytes := by
    have hlast : (bytes.drop 4).take 4 = bytes.drop 4 := List.take_of_length_le (by simp [hlen])
    rw [hlast, ← List.take_add, List.take_append_drop]
  have htype : BigEndian.put 2 (headerType bytes).toNat = bytes.take 2 := by
    have hlt := BigEndian.value_lt (bytes.take 2)
    rw [h1] at hlt
    rw [headerType, UInt16.toNat_ofNat_of_lt' hlt, BigEndian.put_value h1]
  have hflags : BigEndian.put 2 (headerFlags bytes).toNat = (bytes.drop 2).take 2 := by
    have hlt := BigEndian.value_lt ((bytes.drop 2).take 2)
    rw [h2] at hlt
    rw [headerFlags, UInt16.toNat_ofNat_of_lt' hlt, BigEndian.put_value h2]
  have hlength : BigEndian.put 4 payload.length = (bytes.drop 4).take 4 := by
    rw [hpayload, headerLength, BigEndian.put_value h3]
  rw [header, htype, hflags, hlength, hsplit]

variable {c} {f : Frame} {r : Reader} {rest : Bytes}

theorem Begins.of_writeFrame {bytes : Bytes} (h : c.writeFrame f = .ok bytes) (rest : Bytes) :
    c.Begins f (bytes ++ rest) rest := by
  unfold writeFrame at h
  split_ifs at h with hflags hsize
  cases h
  exact ⟨not_not.1 hflags, Nat.not_lt.1 hsize, rfl⟩

/-- A frame that begins the pending bytes is read, and no byte after it. -/
theorem readFrame_of_begins (h : c.Begins f r.pending rest) :
    ∃ r' : Reader, c.readFrame r = (.ok f, r') ∧ r'.pending = rest ∧ r'.fin = r.fin := by
  have hbytes : r.pending = header f ++ (f.payload ++ rest) := by rw [h.bytes, List.append_assoc]
  have hsmall : f.payload.length < 256 ^ 4 :=
    Nat.lt_of_le_of_lt h.size c.maxFramePayloadSize.toNat_lt
  have hflags : headerFlags (header f) = 0 := by
    rw [← List.append_nil (header f), headerFlags_header, h.flags]
  have htype : headerType (header f) = f.type := by
    rw [← List.append_nil (header f), headerType_header]
  have hlength : headerLength (header f) = f.payload.length := by
    rw [← List.append_nil (header f), headerLength_header hsmall]
  -- the header
  obtain ⟨r1, hread, hleft, hfin⟩ := Reader.readFull_of_le (n := 8) (r := r) (by simp [hbytes])
  have hhead : r.pending.take 8 = header f := by
    rw [hbytes, List.take_append_of_le_length (by simp), List.take_of_length_le (by simp)]
  have hleft : r1.pending = f.payload ++ rest := by
    rw [hleft, hbytes, List.drop_append_of_le_length (by simp), List.drop_of_length_le (by simp),
      List.nil_append]
  -- the payload
  obtain ⟨r2, hread', hleft', hfin'⟩ :=
    Reader.readFull_of_le (n := f.payload.length) (r := r1) (by simp [hleft])
  have hpayload : r1.pending.take f.payload.length = f.payload := by
    rw [hleft, List.take_append_of_le_length (Nat.le_refl _), List.take_length]
  refine ⟨r2, ?_, ?_, hfin'.trans hfin⟩
  · rw [hhead] at hread
    rw [hpayload] at hread'
    simp only [readFrame, hread, hflags, hlength, hread', htype]
    rw [if_neg (by simp), if_neg (Nat.not_lt.2 h.size), ← h.flags]
  · rw [hleft', hleft, List.drop_append_of_le_length (Nat.le_refl _), List.drop_length,
      List.nil_append]

/-- Only a frame that begins the pending bytes is read. -/
theorem begins_of_readFrame {r' : Reader} (h : c.readFrame r = (.ok f, r')) :
    c.Begins f r.pending r'.pending := by
  rcases Nat.lt_or_ge r.pending.length 8 with h8 | h8
  · obtain ⟨err, r1, hread, -⟩ := Reader.readFull_of_lt h8
    simp [readFrame, hread] at h
  obtain ⟨r1, hread, hleft, -⟩ := Reader.readFull_of_le h8
  have hlen : (r.pending.take 8).length = 8 := by simp [h8]
  simp only [readFrame, hread] at h
  by_cases hflags : headerFlags (r.pending.take 8) = 0
  swap
  · simp [hflags] at h
  by_cases hsize : c.maxFramePayloadSize.toNat < headerLength (r.pending.take 8)
  · simp [hflags, hsize] at h
  rcases Nat.lt_or_ge r1.pending.length (headerLength (r.pending.take 8)) with hfull | hfull
  · obtain ⟨err, r2, hread', -⟩ := Reader.readFull_of_lt hfull
    simp [hflags, hsize, hread'] at h
  obtain ⟨r2, hread', hleft', -⟩ := Reader.readFull_of_le hfull
  rw [if_neg (by simp [hflags]), if_neg hsize, hread'] at h
  obtain ⟨rfl, rfl⟩ := h
  have hpayload : (r1.pending.take (headerLength (r.pending.take 8))).length =
      headerLength (r.pending.take 8) := by
    rw [List.length_take]
    exact Nat.min_eq_left hfull
  refine ⟨hflags, ?_, ?_⟩
  · rw [hpayload]
    exact Nat.not_lt.1 hsize
  · rw [header_of_fields hlen hpayload, hleft', List.append_assoc, List.take_append_drop, hleft,
      List.take_append_drop]

end Conn

end FrpMeo.Wire
