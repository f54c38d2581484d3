import FrpMeo.Lib.Bytes

/-!
# Variable-length integers

Numbers in groups of seven bits, the lowest first; every byte but the last has its high bit set.
`encode` is the shortest way to write one and is read back (`value_encode`). A reader that collects
the groups in a machine word gets the number modulo the size of the word (`or_shift_group`).
-/

namespace FrpMeo.Lib.VarInt

def continues (b : UInt8) : Bool := b &&& 0x80 ≠ 0

def group (b : UInt8) : Nat := (b &&& 0x7f).toNat

inductive IsVarInt : Nat → Bytes → Prop
  | last {k : Nat} {b : UInt8} : continues b = false → IsVarInt (k + 1) [b]
  | more {k : Nat} {b : UInt8} {code : Bytes} :
      continues b = true → IsVarInt k code → IsVarInt (k + 1) (b :: code)

def value : Bytes → Nat
  | [] => 0
  | b :: code => group b + 128 * value code

/-- The shortest code of a number below `128 ^ (k + 1)`. -/
def encode : Nat → Nat → Bytes
  | 0, n => [UInt8.ofNat (n % 128)]
  | k + 1, n =>
      if n < 128 then [UInt8.ofNat (n % 128)]
      else UInt8.ofNat (n % 128 + 128) :: encode k (n / 128)

theorem group_lt : ∀ b, group b < 128 := by
  intro b
  unfold group
  rw [UInt8.toNat_and]
  exact Nat.and_lt_two_pow _ (by decide : (0x7f : UInt8).toNat < 2 ^ 7)

theorem group_ofNat (n : Nat) :
    group (UInt8.ofNat (n % 128)) = n % 128 ∧ group (UInt8.ofNat (n % 128 + 128)) = n % 128 := by
  have h : ∀ i : Fin 128, group (UInt8.ofNat i) = i ∧ group (UInt8.ofNat (i + 128)) = i := by
    decide +kernel
  exact h ⟨n % 128, Nat.mod_lt n (by decide)⟩

theorem continues_ofNat (n : Nat) : continues (UInt8.ofNat (n % 128)) = false ∧
      continues (UInt8.ofNat (n % 128 + 128)) = true := by
  have h : ∀ i : Fin 128, continues (UInt8.ofNat i) = false ∧
      continues (UInt8.ofNat (i + 128)) = true := by
    decide +kernel
  exact h ⟨n % 128, Nat.mod_lt n (by decide)⟩

theorem isVarInt_encode (k n : Nat) : IsVarInt (k + 1) (encode k n) := by
  induction k generalizing n with
  | zero => exact .last (continues_ofNat n).1
  | succ k ih =>
    unfold encode
    split_ifs
    · exact .last (continues_ofNat n).1
    · exact .more (continues_ofNat n).2 (ih (n / 128))

theorem value_last {n : Nat} (h : n < 128) : value [UInt8.ofNat (n % 128)] = n := by
  rw [value, value, (group_ofNat n).1, Nat.mod_eq_of_lt h, Nat.mul_zero, Nat.add_zero]

theorem value_encode {k n : Nat} (h : n < 128 ^ (k + 1)) : value (encode k n) = n := by
  induction k generalizing n with
  | zero => exact value_last (by simpa using h)
  | succ k ih =>
    unfold encode
    split_ifs with hn
    · exact value_last hn
    · have hdiv : n / 128 < 128 ^ (k + 1) := by
        apply Nat.div_lt_of_lt_mul
        rwa [Nat.pow_succ'] at h
      rw [value, (group_ofNat n).2, ih hdiv]
      exact Nat.mod_add_div n 128

/-- Setting the next group in a word adds it at its place. -/
theorem or_shift_group (w : Nat) {a i : Nat} (d : Nat) (ha : a < 128 ^ i) :
    BitVec.ofNat w a ||| (BitVec.ofNat w d <<< (7 * i)) = BitVec.ofNat w (a + 128 ^ i * d) := by
  have hpow : 128 ^ i = 2 ^ (7 * i) := by rw [Nat.pow_mul]
  rw [hpow] at ha ⊢
  have hshift : BitVec.ofNat w d <<< (7 * i) = BitVec.ofNat w (2 ^ (7 * i) * d) := by
    apply BitVec.eq_of_toNat_eq
    simp [BitVec.toNat_shiftLeft, Nat.shiftLeft_eq, Nat.mul_comm]
  rw [hshift, ← BitVec.ofNat_or, Nat.or_comm, ← Nat.two_pow_add_eq_or_of_lt ha, Nat.add_comm]

end FrpMeo.Lib.VarInt
