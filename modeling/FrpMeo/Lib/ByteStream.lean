import FrpMeo.Lib.Bytes

/-!
# Byte streams

Numbers of fixed width with the most significant byte first (`encoding/binary`), and readers that
deliver bytes in arbitrary pieces (`io.Reader`). What `readFull` returns depends on the bytes alone
(`readFull_of_le`, `readFull_of_lt`).
-/

namespace FrpMeo.Lib

namespace BigEndian

/-- The `k` lowest bytes of a number, as `PutUint16`, `PutUint32` and `PutUint64` write them. -/
def put : Nat → Nat → Bytes
  | 0, _ => []
  | k + 1, n => UInt8.ofNat (n / 256 ^ k) :: put k n

def value : Bytes → Nat
  | [] => 0
  | b :: bytes => b.toNat * 256 ^ bytes.length + value bytes

@[simp] theorem length_put (k n : Nat) : (put k n).length = k := by
  induction k with
  | zero => rfl
  | succ k ih => rw [put, List.length_cons, ih]

theorem value_put (k n : Nat) : value (put k n) = n % 256 ^ k := by
  induction k with
  | zero => rw [put, value, Nat.pow_zero, Nat.mod_one]
  | succ k ih =>
    -- the leading byte counts the multiples of `256 ^ k`
    have hlead : (UInt8.ofNat (n / 256 ^ k)).toNat = n / 256 ^ k % 256 := UInt8.toNat_ofNat
    calc value (put (k + 1) n)
        = n / 256 ^ k % 256 * 256 ^ k + n % 256 ^ k := by rw [put, value, ih, hlead, length_put]
      _ = n % 256 ^ k + 256 ^ k * (n / 256 ^ k % 256) := by rw [Nat.add_comm, Nat.mul_comm]
      _ = n % 256 ^ (k + 1) := (Nat.mod_pow_succ).symm

theorem value_put_of_lt {k n : Nat} (h : n < 256 ^ k) : value (put k n) = n := by
  rw [value_put, Nat.mod_eq_of_lt h]

variable {k m n : Nat}

theorem put_inj (hm : m < 256 ^ k) (hn : n < 256 ^ k) (h : put k m = put k n) : m = n := by
  have hvalue := congrArg value h
  rwa [value_put_of_lt hm, value_put_of_lt hn] at hvalue

theorem value_lt (bytes : Bytes) : value bytes < 256 ^ bytes.length := by
  induction bytes with
  | nil => exact Nat.one_pos
  | cons b bytes ih =>
    have hb : b.toNat + 1 ≤ 256 := b.toNat_lt
    calc value (b :: bytes)
        < b.toNat * 256 ^ bytes.length + 256 ^ bytes.length := by
          rw [value]
          exact Nat.add_lt_add_left ih _
      _ = (b.toNat + 1) * 256 ^ bytes.length := (Nat.succ_mul _ _).symm
      _ ≤ 256 * 256 ^ bytes.length := Nat.mul_le_mul_right _ hb
      _ = 256 ^ (b :: bytes).length := by rw [List.length_cons, Nat.pow_succ, Nat.mul_comm]

/-- Only the `k` lowest bytes matter. -/
theorem put_congr (h : m % 256 ^ k = n % 256 ^ k) : put k m = put k n := by
  induction k with
  | zero => rfl
  | succ k ih =>
    have hlow : m % 256 ^ k = n % 256 ^ k := by
      have hmod := congrArg (· % 256 ^ k) h
      have hdvd : 256 ^ k ∣ 256 ^ (k + 1) := pow_dvd_pow 256 (Nat.le_succ k)
      simpa [Nat.mod_mod_of_dvd _ hdvd] using hmod
    have hlead : m / 256 ^ k % 256 = n / 256 ^ k % 256 := by
      rw [← Nat.mod_mul_right_div_self, ← Nat.mod_mul_right_div_self, ← Nat.pow_succ, h]
    have hbyte : UInt8.ofNat (m / 256 ^ k) = UInt8.ofNat (n / 256 ^ k) := by
      apply UInt8.toNat_inj.1
      exact hlead
    rw [put, put, hbyte, ih hlow]

/-- Reading bytes and writing the number gives the bytes back. -/
theorem put_value {bytes : Bytes} (h : bytes.length = k) :
    put k (value bytes) = bytes := by
  subst h
  induction bytes with
  | nil => rfl
  | cons b bytes ih =>
    have hlt := value_lt bytes
    have hlead : value (b :: bytes) / 256 ^ bytes.length = b.toNat := by
      rw [value, Nat.add_comm, Nat.add_mul_div_right _ _ (Nat.pow_pos (by omega)),
        Nat.div_eq_of_lt hlt, Nat.zero_add]
    have hlow : value (b :: bytes) % 256 ^ bytes.length = value bytes % 256 ^ bytes.length := by
      rw [value, Nat.mul_add_mod']
    rw [List.length_cons, put, hlead, UInt8.ofNat_toNat, put_congr hlow, ih]

end BigEndian

/-! ## Readers -/

inductive StreamErr where
  | eof
  | unexpectedEOF
  | other (text : String)
  deriving DecidableEq

/-- A reader. A call of `Read` delivers at most the next piece; the error comes after the last. -/
structure Reader where
  pieces : List Bytes
  fin : StreamErr

namespace Reader

def pending (r : Reader) : Bytes := r.pieces.flatten

def fill : Nat → List Bytes → Bytes × List Bytes
  | _, [] => ([], [])
  | n, piece :: pieces =>
      -- a full buffer takes no further call, so an empty piece would stay where it is
      if n = 0 then ([], piece :: pieces)
      else if piece.length ≤ n then
        let (got, rest) := fill (n - piece.length) pieces
        (piece ++ got, rest)
      else (piece.take n, piece.drop n :: pieces)

def readFull (n : Nat) (r : Reader) : Except StreamErr Bytes × Reader :=
  let (got, rest) := fill n r.pieces
  let r' : Reader := { r with pieces := rest }
  if got.length = n then (.ok got, r')
  -- the end is expected only if nothing has come yet
  else if got ≠ [] ∧ r.fin = .eof then (.error .unexpectedEOF, r')
  else (.error r.fin, r')

theorem fill_fst (n : Nat) (pieces : List Bytes) : (fill n pieces).1 = pieces.flatten.take n := by
  induction pieces generalizing n with
  | nil => simp [fill]
  | cons piece pieces ih =>
    unfold fill
    split_ifs with hzero hle
    · simp [hzero]
    · simp [ih, List.take_append, List.take_of_length_le hle]
    · have hlt : n ≤ piece.length := by omega
      simp [List.take_append_of_le_length hlt]

theorem flatten_fill_snd (n : Nat) (pieces : List Bytes) :
    (fill n pieces).2.flatten = pieces.flatten.drop n := by
  induction pieces generalizing n with
  | nil => simp [fill]
  | cons piece pieces ih =>
    unfold fill
    split_ifs with hzero hle
    · simp [hzero]
    · simp [ih, List.drop_append, List.drop_of_length_le hle]
    · have hlt : n ≤ piece.length := by omega
      simp [List.drop_append_of_le_length hlt]

variable {n : Nat} {r : Reader}

/-- Enough bytes are to come: the next `n` are read, and the others are still to come. -/
theorem readFull_of_le (h : n ≤ r.pending.length) :
    ∃ r' : Reader, r.readFull n = (.ok (r.pending.take n), r') ∧
      r'.pending = r.pending.drop n ∧ r'.fin = r.fin := by
  have hgot : (fill n r.pieces).1 = r.pending.take n := fill_fst n r.pieces
  have hlen : (fill n r.pieces).1.length = n := by
    rw [hgot, List.length_take]
    omega
  refine ⟨⟨(fill n r.pieces).2, r.fin⟩, ?_, flatten_fill_snd n r.pieces, rfl⟩
  rw [← hgot]
  exact if_pos hlen

/-- Too few bytes are to come: an error, and nothing is left. -/
theorem readFull_of_lt (h : r.pending.length < n) :
    ∃ err, ∃ r' : Reader, r.readFull n = (.error err, r') ∧ r'.pending = [] ∧ r'.fin = r.fin := by
  have hgot : (fill n r.pieces).1 = r.pending := by
    rw [fill_fst]
    exact List.take_of_length_le h.le
  have hlen : ¬ (fill n r.pieces).1.length = n := by
    rw [hgot]
    omega
  have hrest : (fill n r.pieces).2.flatten = [] := by
    rw [flatten_fill_snd]
    exact List.drop_of_length_le h.le
  have hread : r.readFull n =
      if (fill n r.pieces).1 ≠ [] ∧ r.fin = .eof then
        (.error .unexpectedEOF, ⟨(fill n r.pieces).2, r.fin⟩)
      else (.error r.fin, ⟨(fill n r.pieces).2, r.fin⟩) := if_neg hlen
  rw [hread]
  split_ifs <;> exact ⟨_, _, rfl, hrest, rfl⟩

end Reader

end FrpMeo.Lib
