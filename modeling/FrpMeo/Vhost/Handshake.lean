import FrpMeo.Lib.VarInt
import FrpMeo.Lib.Text

/-!
# The host in a Minecraft handshake

frps routes a Minecraft connection by the server that its first packet names
(`pkg/util/vhost/minecraft.go`). `readHandshakeServerHost` reads the length, then the packet, and in
it an id, a version and the server address, up to the first NUL.
-/

namespace FrpMeo.Vhost.Minecraft

open Lib Lib.VarInt

/-! ## Reading -/

inductive IntSize
  | bits32
  | bits64

def IntSize.bits : IntSize → Nat
  | .bits32 => 32
  | .bits64 => 64

inductive Err
  | eof
  | unexpectedEOF
  | new (text : String)
  deriving DecidableEq

structure Stream where
  bytes : Bytes
  fin : Err

def readByte (r : Stream) : Except Err UInt8 × Stream :=
  match r.bytes with
  | [] => (.error r.fin, r)
  | b :: bytes => (.ok b, { r with bytes })

def readFull (n : Nat) (r : Stream) : Except Err Bytes × Stream :=
  if n ≤ r.bytes.length then (.ok (r.bytes.take n), { r with bytes := r.bytes.drop n })
  else
    (.error (if r.bytes ≠ [] ∧ r.fin = .eof then .unexpectedEOF else r.fin), { r with bytes := [] })

/-- The loop over the groups of a number, with `left` turns left before the turn `i = 5`. -/
def varIntLoop (size : IntSize) : (left i : Nat) → BitVec size.bits → Stream →
    Except Err (BitVec size.bits × Nat) × Stream
  | 0, _, _, r => (.error (.new "varint too long"), r)
  | left + 1, i, value, r =>
      match readByte r with
      | (.error err, r) => (.error err, r)
      | (.ok b, r) =>
          let value := value ||| (BitVec.ofNat size.bits (b &&& 0x7f).toNat <<< (7 * i))
          if b &&& 0x80 = 0 then (.ok (value, i + 1), r)
          else varIntLoop size left (i + 1) value r

def readVarIntStream (size : IntSize) (r : Stream) : Except Err (BitVec size.bits) × Stream :=
  let (res, r) := varIntLoop size 5 0 0 r
  (res.map Prod.fst, r)

/-- A buffer is a stream that ends in an error of its own. -/
def readVarIntBuf (size : IntSize) (buf : Bytes) : Except Err (BitVec size.bits × Nat) :=
  (varIntLoop size 5 0 0 ⟨buf, .new "incomplete varint"⟩).1

def readMinecraftString (size : IntSize) (buf : Bytes) : Except Err (Bytes × Nat) :=
  match readVarIntBuf size buf with
  | .error err => .error err
  | .ok (length, n) =>
      if length.toInt < 0 ∨ ((buf.drop n).length : Int) < length.toInt then
        .error (.new "incomplete string")
      else .ok ((buf.drop n).take length.toInt.toNat, n + length.toInt.toNat)

def maxMinecraftHandshakeSize : Int := 32 * 1024

def beforeNul (host : Bytes) : Bytes :=
  match host.idxOf? 0 with
  | some i => host.take i
  | none => host

def parsePayload (size : IntSize) (payload : Bytes) : Except Err Bytes :=
  match readVarIntBuf size payload with
  | .error _ => .error (.new "not a minecraft handshake packet")
  | .ok (packetID, n) =>
      if packetID ≠ 0 then .error (.new "not a minecraft handshake packet")
      else
        let payload := payload.drop n
        match readVarIntBuf size payload with
        | .error err => .error err
        | .ok (_, n) =>
            let payload := payload.drop n
            match readMinecraftString size payload with
            | .error err => .error err
            | .ok (host, _) =>
                let host := beforeNul host
                if host = [] then .error (.new "empty minecraft server address") else .ok host

def readHandshakeServerHost (size : IntSize) (r : Stream) : Except Err Bytes × Stream :=
  match readVarIntStream size r with
  | (.error err, r) => (.error err, r)
  | (.ok length, r) =>
      if length.toInt ≤ 0 ∨ maxMinecraftHandshakeSize < length.toInt then
        (.error (.new "invalid minecraft handshake length"), r)
      else
        match readFull length.toInt.toNat r with
        | (.error err, r) => (.error err, r)
        | (.ok payload, r) => (parsePayload size payload, r)

/-! ## Numbers -/

variable {size : IntSize} {code payload host : Bytes}

theorem varIntLoop_of_isVarInt (size : IntSize) {left : Nat} (h : IsVarInt left code) {a i : Nat}
    (ha : a < 128 ^ i) (rest : Bytes) (fin : Err) :
    varIntLoop size left i (BitVec.ofNat size.bits a) ⟨code ++ rest, fin⟩ =
      (.ok (BitVec.ofNat size.bits (a + 128 ^ i * value code), i + code.length), ⟨rest, fin⟩) := by
  -- on the code; `a` is what the groups before it amount to, less than the unit of the next group
  induction h generalizing a i with
  | @last left b hb =>
    have hlast : b &&& 0x80 = 0 := by simpa [continues] using hb
    rw [varIntLoop]
    simp only [readByte, List.cons_append, List.nil_append, hlast, if_true]
    rw [or_shift_group size.bits _ ha]
    simp [value, group]
  | @more left b code hb _ ih =>
    have hmore : b &&& 0x80 ≠ 0 := by simpa [continues] using hb
    have hlt : a + 128 ^ i * group b < 128 ^ (i + 1) := by
      have hgroup := group_lt b
      rw [Nat.pow_succ]
      nlinarith
    rw [varIntLoop]
    simp only [readByte, List.cons_append, hmore, if_false]
    rw [or_shift_group size.bits _ ha]
    have hvalue : a + 128 ^ i * value (b :: code) =
        a + 128 ^ i * group b + 128 ^ (i + 1) * value code := by
      rw [value, Nat.pow_succ]
      ring
    have hcount : i + (b :: code).length = i + 1 + code.length := by
      simp only [List.length_cons]
      omega
    rw [hvalue, hcount]
    exact ih hlt

theorem varIntLoop_reads (size : IntSize) (left i : Nat) (v : BitVec size.bits) (r : Stream) :
    (varIntLoop size left i v r).2.fin = r.fin ∧
      ∃ code, r.bytes = code ++ (varIntLoop size left i v r).2.bytes ∧ code.length ≤ left ∧
        (∀ res, (varIntLoop size left i v r).1 = .ok res → IsVarInt left code) := by
  -- on the turns that are left, for any word that has been collected
  induction left generalizing i v r with
  | zero => exact ⟨rfl, [], rfl, Nat.le_refl _, by simp [varIntLoop]⟩
  | succ left ih =>
    rw [varIntLoop]
    cases hbytes : r.bytes with
    | nil =>
      simp only [readByte, hbytes]
      exact ⟨trivial, [], by simp, by simp⟩
    | cons b bytes =>
      simp only [readByte, hbytes]
      split_ifs with hlast
      · refine ⟨rfl, [b], rfl, by simp, ?_⟩
        intro _ _
        exact .last (by simpa [continues] using hlast)
      · obtain ⟨hfin, code, hcode, hlen, hok⟩ := ih (i + 1)
          (v ||| (BitVec.ofNat size.bits (b &&& 0x7f).toNat <<< (7 * i))) { r with bytes := bytes }
        refine ⟨hfin, b :: code, ?_, by simpa using hlen, ?_⟩
        · rw [List.cons_append, ← hcode]
        · intro res hres
          exact .more (by simpa [continues] using hlast) (hok res hres)

def IntSize.read (size : IntSize) (code : Bytes) : BitVec size.bits :=
  BitVec.ofNat size.bits (value code)

theorem varIntLoop_five (size : IntSize) (h : IsVarInt 5 code) (rest : Bytes) (fin : Err) :
    varIntLoop size 5 0 0 ⟨code ++ rest, fin⟩ =
      (.ok (size.read code, code.length), ⟨rest, fin⟩) := by
  have hloop := varIntLoop_of_isVarInt size h (a := 0) (i := 0) (by simp) rest fin
  simpa [IntSize.read] using hloop

theorem readVarIntBuf_eq_ok_iff {buf : Bytes} {v : BitVec size.bits} {n : Nat} :
    readVarIntBuf size buf = .ok (v, n) ↔
      ∃ code, IsVarInt 5 code ∧ code <+: buf ∧ v = size.read code ∧ n = code.length := by
  unfold readVarIntBuf
  constructor
  · intro h
    obtain ⟨-, code, hbytes, -, hcode⟩ :=
      varIntLoop_reads size 5 0 0 ⟨buf, .new "incomplete varint"⟩
    have hloop := varIntLoop_five size (hcode _ h)
      (varIntLoop size 5 0 0 ⟨buf, .new "incomplete varint"⟩).2.bytes (.new "incomplete varint")
    rw [← hbytes, Prod.ext_iff] at hloop
    rw [hloop.1] at h
    cases h
    exact ⟨code, hcode _ hloop.1, ⟨_, hbytes.symm⟩, rfl, rfl⟩
  · rintro ⟨code, hcode, ⟨rest, rfl⟩, rfl, rfl⟩
    rw [varIntLoop_five size hcode]

/-! ## The form of a handshake -/

structure IsAddress (size : IntSize) (lengthCode address : Bytes) : Prop where
  code : IsVarInt 5 lengthCode
  length : (size.read lengthCode).toInt = address.length

def HasHost (size : IntSize) (payload host : Bytes) : Prop :=
  ∃ idCode versionCode lengthCode address after : Bytes,
    payload = idCode ++ (versionCode ++ (lengthCode ++ (address ++ after))) ∧
      (IsVarInt 5 idCode ∧ size.read idCode = 0) ∧ IsVarInt 5 versionCode ∧
        IsAddress size lengthCode address ∧ host = beforeNul address ∧ host ≠ []

structure Handshake (size : IntSize) (lengthCode payload host : Bytes) : Prop where
  code : IsVarInt 5 lengthCode
  length : (size.read lengthCode).toInt = payload.length
  small : (payload.length : Int) ≤ maxMinecraftHandshakeSize
  host : HasHost size payload host

theorem readMinecraftString_eq_ok_iff {buf s : Bytes} {m : Nat} :
    readMinecraftString size buf = .ok (s, m) ↔
      ∃ lengthCode after, buf = lengthCode ++ (s ++ after) ∧ IsAddress size lengthCode s ∧
        m = lengthCode.length + s.length := by
  unfold readMinecraftString
  constructor
  · intro h
    cases hread : readVarIntBuf size buf with
    | error err =>
      rw [hread] at h
      cases h
    | ok res =>
      obtain ⟨length, n⟩ := res
      simp only [hread] at h
      split_ifs at h with hbad
      cases h
      obtain ⟨code, hcode, ⟨rest, rfl⟩, rfl, rfl⟩ := readVarIntBuf_eq_ok_iff.1 hread
      rw [List.drop_left] at hbad ⊢
      -- the length is not negative and the buffer has as many bytes
      have hlen : (rest.take (size.read code).toInt.toNat).length =
          (size.read code).toInt.toNat := by
        rw [List.length_take]
        omega
      refine ⟨code, rest.drop (size.read code).toInt.toNat, ?_, ⟨hcode, ?_⟩, by rw [hlen]⟩
      · rw [List.take_append_drop]
      · rw [hlen]
        omega
  · rintro ⟨code, after, rfl, haddr, rfl⟩
    have hread : readVarIntBuf size (code ++ (s ++ after)) = .ok (size.read code, code.length) :=
      readVarIntBuf_eq_ok_iff.2 ⟨code, haddr.code, List.prefix_append _ _, rfl, rfl⟩
    have hgood : ¬ ((size.read code).toInt < 0 ∨
        (((code ++ (s ++ after)).drop code.length).length : Int) < (size.read code).toInt) := by
      rw [haddr.length, List.drop_left, List.length_append]
      omega
    simp only [hread, if_neg hgood]
    rw [haddr.length, List.drop_left, Int.toNat_natCast, List.take_left]

theorem parsePayload_eq_ok_iff :
    parsePayload size payload = .ok host ↔ HasHost size payload host := by
  unfold parsePayload HasHost
  constructor
  · intro h
    cases hid : readVarIntBuf size payload with
    | error err =>
      rw [hid] at h
      cases h
    | ok res =>
      obtain ⟨packetID, n⟩ := res
      simp only [hid] at h
      split_ifs at h with hzero
      obtain ⟨idCode, hidCode, ⟨rest, rfl⟩, rfl, rfl⟩ := readVarIntBuf_eq_ok_iff.1 hid
      rw [List.drop_left] at h
      cases hversion : readVarIntBuf size rest with
      | error err =>
        rw [hversion] at h
        cases h
      | ok res =>
        obtain ⟨version, n⟩ := res
        obtain ⟨versionCode, hversionCode, ⟨rest', rfl⟩, -, rfl⟩ :=
          readVarIntBuf_eq_ok_iff.1 hversion
        simp only [hversion] at h
        rw [List.drop_left] at h
        cases hstring : readMinecraftString size rest' with
        | error err =>
          rw [hstring] at h
          cases h
        | ok res =>
          obtain ⟨address, m⟩ := res
          obtain ⟨lengthCode, after, rfl, haddr, -⟩ :=
            readMinecraftString_eq_ok_iff.1 hstring
          simp only [hstring] at h
          split_ifs at h with hempty
          cases h
          exact ⟨idCode, versionCode, lengthCode, address, after, rfl,
            ⟨hidCode, not_not.1 hzero⟩, hversionCode, haddr, rfl, hempty⟩
  · rintro ⟨idCode, versionCode, lengthCode, address, after, rfl, ⟨hidCode, hzero⟩, hversionCode,
      haddr, rfl, hempty⟩
    have hid : readVarIntBuf size (idCode ++ (versionCode ++ (lengthCode ++ (address ++ after)))) =
        .ok (size.read idCode, idCode.length) :=
      readVarIntBuf_eq_ok_iff.2 ⟨idCode, hidCode, List.prefix_append _ _, rfl, rfl⟩
    have hversion : readVarIntBuf size (versionCode ++ (lengthCode ++ (address ++ after))) =
        .ok (size.read versionCode, versionCode.length) :=
      readVarIntBuf_eq_ok_iff.2 ⟨versionCode, hversionCode, List.prefix_append _ _, rfl, rfl⟩
    have hstring : readMinecraftString size (lengthCode ++ (address ++ after)) =
        .ok (address, lengthCode.length + address.length) :=
      readMinecraftString_eq_ok_iff.2 ⟨lengthCode, after, rfl, haddr, rfl⟩
    simp only [hid, hzero, ne_eq, not_true_eq_false, if_false, List.drop_left, hversion, hstring,
      hempty]

/-! ## The first packet -/

theorem readVarIntStream_eq {r : Stream} : readVarIntStream size r =
      ((varIntLoop size 5 0 0 r).1.map Prod.fst, (varIntLoop size 5 0 0 r).2) := rfl

theorem readVarIntStream_of_isVarInt (size : IntSize) (h : IsVarInt 5 code) (rest : Bytes)
    (fin : Err) :
    readVarIntStream size ⟨code ++ rest, fin⟩ = (.ok (size.read code), ⟨rest, fin⟩) := by
  unfold readVarIntStream
  rw [varIntLoop_five size h]
  rfl

theorem readVarIntStream_cases (size : IntSize) (r : Stream) :
    (∃ code rest, IsVarInt 5 code ∧ r.bytes = code ++ rest ∧
        readVarIntStream size r = (.ok (size.read code), ⟨rest, r.fin⟩)) ∨
      (∀ code, IsVarInt 5 code → ¬ code <+: r.bytes) ∧
        ∃ err consumed rest, r.bytes = consumed ++ rest ∧ consumed.length ≤ 5 ∧
          readVarIntStream size r = (.error err, ⟨rest, r.fin⟩) := by
  obtain ⟨hfin, consumed, hbytes, hlen, hcode⟩ := varIntLoop_reads size 5 0 0 r
  cases hloop : (varIntLoop size 5 0 0 r).1 with
  | ok res =>
    refine .inl ⟨consumed, _, hcode res hloop, hbytes, ?_⟩
    have hread := readVarIntStream_of_isVarInt size (hcode res hloop)
      (varIntLoop size 5 0 0 r).2.bytes r.fin
    rwa [← hbytes] at hread
  | error err =>
    have hread : readVarIntStream size r =
        (.error err, ⟨(varIntLoop size 5 0 0 r).2.bytes, r.fin⟩) := by
      rw [readVarIntStream_eq, hloop, ← hfin]
      rfl
    refine .inr ⟨?_, err, consumed, _, hbytes, hlen, hread⟩
    -- with a code in front the reading would have succeeded
    rintro code hvar ⟨rest, hrest⟩
    have hok := readVarIntStream_of_isVarInt size hvar rest r.fin
    rw [hrest, hread] at hok
    cases hok

theorem readFull_append {rest : Bytes} (fin : Err) :
    readFull payload.length ⟨payload ++ rest, fin⟩ = (.ok payload, ⟨rest, fin⟩) := by
  unfold readFull
  simp

theorem readFull_cases (n : Nat) (r : Stream) :
    (∃ payload rest, r.bytes = payload ++ rest ∧ payload.length = n ∧
        readFull n r = (.ok payload, ⟨rest, r.fin⟩)) ∨
      r.bytes.length < n ∧ ∃ err, readFull n r = (.error err, ⟨[], r.fin⟩) := by
  unfold readFull
  by_cases h : n ≤ r.bytes.length
  · rw [if_pos h]
    exact .inl ⟨_, _, (List.take_append_drop n r.bytes).symm, List.length_take_of_le h, rfl⟩
  · rw [if_neg h]
    exact .inr ⟨by omega, _, rfl⟩

theorem HasHost.payload_ne_nil (h : HasHost size payload host) : payload ≠ [] := by
  obtain ⟨idCode, versionCode, lengthCode, address, after, rfl, ⟨hid, -⟩, -⟩ := h
  cases hid with
  | last | more => simp

theorem readHandshakeServerHost_eq_ok_iff {r r' : Stream} :
    readHandshakeServerHost size r = (.ok host, r') ↔
      r'.fin = r.fin ∧ ∃ lengthCode payload, r.bytes = lengthCode ++ (payload ++ r'.bytes) ∧
        Handshake size lengthCode payload host := by
  constructor
  · intro h
    rcases readVarIntStream_cases size r with
      ⟨code, rest, hcode, hbytes, hread⟩ | ⟨-, err, consumed, rest, -, -, hread⟩
    · simp only [readHandshakeServerHost, hread] at h
      by_cases hlength :
          (size.read code).toInt ≤ 0 ∨ maxMinecraftHandshakeSize < (size.read code).toInt
      · rw [if_pos hlength] at h
        cases h
      · rw [if_neg hlength] at h
        rcases readFull_cases (size.read code).toInt.toNat ⟨rest, r.fin⟩ with
          ⟨payload, rest', hrest, hlen, hfull⟩ | ⟨-, err, hfull⟩
        · simp only [hfull, Prod.mk.injEq] at h
          obtain ⟨hhost, rfl⟩ := h
          refine ⟨rfl, code, payload, by rw [hbytes, ← hrest], ?_⟩
          exact ⟨hcode, by omega, by omega, parsePayload_eq_ok_iff.1 hhost⟩
        · simp only [hfull] at h
          cases h
    · simp only [readHandshakeServerHost, hread] at h
      cases h
  · rintro ⟨hfin, code, payload, hbytes, hhand⟩
    obtain ⟨bytes, fin⟩ := r
    obtain ⟨bytes', fin'⟩ := r'
    subst hfin hbytes
    -- the check of the length passes, since the payload has a packet id at least
    have hpos := List.length_pos_iff.2 hhand.host.payload_ne_nil
    have hsmall := hhand.small
    have hgood : ¬ ((size.read code).toInt ≤ 0 ∨
        maxMinecraftHandshakeSize < (size.read code).toInt) := by
      rw [hhand.length]
      omega
    simp only [readHandshakeServerHost, readVarIntStream_of_isVarInt size hhand.code, if_neg hgood]
    rw [hhand.length, Int.toNat_natCast, readFull_append]
    simp only [parsePayload_eq_ok_iff.2 hhand.host]

theorem readHandshakeServerHost_consumes (r : Stream) :
    ∃ consumed, r.bytes = consumed ++ (readHandshakeServerHost size r).2.bytes ∧
      ((∃ lengthCode, IsVarInt 5 lengthCode ∧ lengthCode <+: r.bytes ∧
          consumed.length ≤ lengthCode.length + (size.read lengthCode).toInt.toNat) ∨
        (∀ code, IsVarInt 5 code → ¬ code <+: r.bytes) ∧ consumed.length ≤ 5) := by
  rcases readVarIntStream_cases size r with
    ⟨code, rest, hcode, hbytes, hread⟩ | ⟨hnone, err, consumed, rest, hbytes, hlen, hread⟩
  · have hpre : code <+: r.bytes := ⟨rest, hbytes.symm⟩
    simp only [readHandshakeServerHost, hread]
    split_ifs with hlength
    · exact ⟨code, hbytes, .inl ⟨code, hcode, hpre, Nat.le_add_right _ _⟩⟩
    · rcases readFull_cases (size.read code).toInt.toNat ⟨rest, r.fin⟩ with
        ⟨payload, rest', hrest, hlen, hfull⟩ | ⟨hlen, err, hfull⟩
      · refine ⟨code ++ payload, ?_, .inl ⟨code, hcode, hpre, ?_⟩⟩
        · simp only [hfull]
          rw [hbytes, List.append_assoc, ← hrest]
        · rw [List.length_append, hlen]
      · refine ⟨code ++ rest, ?_, .inl ⟨code, hcode, hpre, ?_⟩⟩
        · simp only [hfull, List.append_nil]
          exact hbytes
        · rw [List.length_append]
          exact Nat.add_le_add_left (Nat.le_of_lt hlen) _
  · simp only [readHandshakeServerHost, hread]
    exact ⟨consumed, hbytes, .inr ⟨hnone, hlen⟩⟩

/-! ## What clients send -/

def varInt (n : Nat) : Bytes := encode 4 n

def handshakePayload (version : UInt32) (address : Bytes) (port : UInt16) (nextState : UInt32) :
    Bytes :=
  varInt 0 ++ (varInt version.toNat ++ (varInt address.length ++ (address ++
    ([UInt8.ofNat (port.toNat / 256), UInt8.ofNat (port.toNat % 256)] ++
      varInt nextState.toNat))))

def packet (payload : Bytes) : Bytes := varInt payload.length ++ payload

theorem isVarInt_varInt {n : Nat} : IsVarInt 5 (varInt n) := isVarInt_encode 4 n

theorem IntSize.toInt_read_varInt (size : IntSize) {n : Nat}
    (h : (n : Int) ≤ maxMinecraftHandshakeSize) : (size.read (varInt n)).toInt = n := by
  unfold maxMinecraftHandshakeSize at h
  unfold IntSize.read varInt
  -- 32 KiB fit in an `int` of either size
  rw [value_encode (by omega), BitVec.toInt_ofNat', Int.bmod_eq_of_le]
  all_goals cases size <;> simp only [IntSize.bits] <;> omega

theorem beforeNul_append {suffix : Bytes} (hhost : 0 ∉ host)
    (hsuffix : suffix = [] ∨ ∃ more, suffix = 0 :: more) : beforeNul (host ++ suffix) = host := by
  unfold beforeNul
  rcases hsuffix with rfl | ⟨more, rfl⟩
  · have hidx : List.idxOf? 0 (host ++ []) = none := by simpa using hhost
    rw [hidx, List.append_nil]
  · rw [Text.idxOf?_append_cons hhost]
    exact List.take_left

theorem beforeNul_begins (address : Bytes) : beforeNul address <+: address := by
  unfold beforeNul
  cases address.idxOf? 0 with
  | none => exact List.prefix_refl _
  | some i => exact List.take_prefix i address

theorem HasHost.contained (h : HasHost size payload host) : host <:+: payload := by
  obtain ⟨idCode, versionCode, lengthCode, address, after, rfl, -, -, -, rfl, -⟩ := h
  obtain ⟨rest, hrest⟩ := beforeNul_begins address
  refine ⟨idCode ++ (versionCode ++ lengthCode), rest ++ after, ?_⟩
  nth_rewrite 2 [← hrest]
  simp only [List.append_assoc]

theorem handshake_of_client {version nextState : UInt32} {suffix : Bytes} {port : UInt16}
    (hempty : host ≠ []) (hhost : 0 ∉ host)
    (hsuffix : suffix = [] ∨ ∃ more, suffix = 0 :: more)
    (hsmall : ((handshakePayload version (host ++ suffix) port nextState).length : Int) ≤
      maxMinecraftHandshakeSize) :
    Handshake size (varInt (handshakePayload version (host ++ suffix) port nextState).length)
      (handshakePayload version (host ++ suffix) port nextState) host where
  code := isVarInt_varInt
  length := size.toInt_read_varInt hsmall
  small := hsmall
  host := by
    have haddress : (((host ++ suffix).length : Nat) : Int) ≤ maxMinecraftHandshakeSize := by
      refine le_trans ?_ hsmall
      simp only [handshakePayload, List.length_append]
      omega
    have hzero : size.read (varInt 0) = 0 := by
      cases size <;> decide
    exact ⟨varInt 0, varInt version.toNat, varInt (host ++ suffix).length, host ++ suffix, _, rfl,
      ⟨isVarInt_varInt, hzero⟩, isVarInt_varInt,
      ⟨isVarInt_varInt, size.toInt_read_varInt haddress⟩,
      (beforeNul_append hhost hsuffix).symm, hempty⟩

theorem handshake_routes (size : IntSize) :
    (∀ (version : UInt32) (host suffix : Bytes) (port : UInt16) (nextState : UInt32) (more : Bytes)
        (fin : Err), host ≠ [] → 0 ∉ host → (suffix = [] ∨ ∃ bytes, suffix = 0 :: bytes) →
        (handshakePayload version (host ++ suffix) port nextState).length ≤ 32 * 1024 →
          readHandshakeServerHost size
              ⟨packet (handshakePayload version (host ++ suffix) port nextState) ++ more, fin⟩ =
            (.ok host, ⟨more, fin⟩)) ∧
      (∀ (r r' : Stream) (host : Bytes), readHandshakeServerHost size r = (.ok host, r') →
        ∃ lengthCode payload, r.bytes = lengthCode ++ (payload ++ r'.bytes) ∧
          Handshake size lengthCode payload host ∧ host <:+: payload) ∧
      ∀ r : Stream, ∃ consumed, r.bytes = consumed ++ (readHandshakeServerHost size r).2.bytes ∧
        ((∃ lengthCode, IsVarInt 5 lengthCode ∧ lengthCode <+: r.bytes ∧
            consumed.length ≤ lengthCode.length + (size.read lengthCode).toInt.toNat) ∨
          (∀ code, IsVarInt 5 code → ¬ code <+: r.bytes) ∧ consumed.length ≤ 5) := by
  refine ⟨?_, ?_, readHandshakeServerHost_consumes⟩
  · intro version host suffix port nextState more fin hempty hhost hsuffix hsmall
    rw [readHandshakeServerHost_eq_ok_iff]
    refine ⟨rfl, _, _, List.append_assoc _ _ _, ?_⟩
    apply handshake_of_client hempty hhost hsuffix
    unfold maxMinecraftHandshakeSize
    omega
  · intro r r' host h
    obtain ⟨-, lengthCode, payload, hbytes, hhand⟩ := readHandshakeServerHost_eq_ok_iff.1 h
    exact ⟨lengthCode, payload, hbytes, hhand, hhand.host.contained⟩

theorem handshake_routes_forge :
    readHandshakeServerHost .bits32 ⟨packet (handshakePayload 0xffffffff
        (Bytes.ascii "mc.example.com" ++ 0 :: Bytes.ascii "FML") 25565 2) ++ [1, 2], .eof⟩ =
      (.ok (Bytes.ascii "mc.example.com"), ⟨[1, 2], .eof⟩) :=
  (handshake_routes .bits32).1 _ _ _ _ _ _ _ (by decide) (by decide) (.inr ⟨_, rfl⟩)
    (by decide)

end FrpMeo.Vhost.Minecraft
