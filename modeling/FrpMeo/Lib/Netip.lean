import Mathlib.Tactic

/-!
# Addresses and networks

The values of `net/netip`: an address is 32 or 128 bits, the latter with a zone, and a network an
address without a zone and a length that fits. Go's zero values are `none`. Parsing is left open in
`Parsers`; `ParsesAddr` is what the library documents of it.
-/

namespace FrpMeo.Lib.Netip

inductive Addr where
  | v4 (a : BitVec 32)
  | v6 (a : BitVec 128) (zone : String)
  deriving DecidableEq

namespace Addr

def bitLen : Addr → Nat
  | v4 _ => 32
  | v6 _ _ => 128

def hasZone : Addr → Bool
  | v4 _ => false
  | v6 _ zone => zone != ""

/-- `Is4In6`: the address has the form `::ffff:a.b.c.d`. -/
def is4In6 : Addr → Bool
  | v4 _ => false
  | v6 a _ => a >>> 32 == 0xffff#128

/-- `Unmap`: an IPv4 address in its IPv6 form becomes the plain one, and loses its zone. -/
def unmap : Addr → Addr
  | v4 a => v4 a
  | v6 a zone => if is4In6 (v6 a zone) then v4 (a.setWidth 32) else v6 a zone

def withoutZone : Addr → Addr
  | v4 a => v4 a
  | v6 a _ => v6 a ""

@[simp] theorem hasZone_withoutZone (ip : Addr) : ip.withoutZone.hasZone = false := by
  cases ip <;> rfl

end Addr

structure Prefix where
  addr : Addr
  bits : Nat
  noZone : addr.hasZone = false
  fits : bits ≤ addr.bitLen

namespace Prefix

def ofAddr (ip : Addr) (bits : Nat) : Option Prefix :=
  if h : bits ≤ ip.withoutZone.bitLen then some ⟨ip.withoutZone, bits, by simp, h⟩ else none

def maskAddr (bits : Nat) : Addr → Addr
  | .v4 a => .v4 ((a >>> (32 - bits)) <<< (32 - bits))
  | .v6 a zone => .v6 ((a >>> (128 - bits)) <<< (128 - bits)) zone

def masked (p : Prefix) : Prefix where
  addr := maskAddr p.bits p.addr
  bits := p.bits
  noZone := by
    have hz := p.noZone
    cases h : p.addr with
    | v4 a => rfl
    | v6 a zone => rwa [h] at hz
  fits := by
    have hb := p.fits
    cases h : p.addr <;> rwa [h] at hb

/-- `Contains`: the same family, no zone, and the same first bits. -/
def contains (p : Prefix) (ip : Addr) : Bool :=
  match p.addr, ip with
  | .v4 a, .v4 b => (b ^^^ a) >>> (32 - p.bits) == 0#32
  | .v6 a _, .v6 b zone => zone == "" && (b ^^^ a) >>> (128 - p.bits) == 0#128
  | _, _ => false

end Prefix

/-! ## Networks as sets of addresses -/

def Agree {w : Nat} (n : Nat) (a b : BitVec w) : Prop := ∀ i < n, a.getMsbD i = b.getMsbD i

variable {w n : Nat}

theorem xor_shiftRight_eq_zero_iff (a b : BitVec w) (h : n ≤ w) :
    (b ^^^ a) >>> (w - n) = 0#w ↔ Agree n a b := by
  constructor
  · intro hz i hi
    have hbit := congrArg (fun x => x.getMsbD (i + (w - n))) hz
    have hin : i + (w - n) < w := by omega
    have hout : ¬ i + (w - n) < w - n := by omega
    simp only [BitVec.getMsbD_ushiftRight, BitVec.getMsbD_zero, BitVec.getMsbD_xor, hin, hout,
      decide_true, decide_false, Bool.not_false, Bool.true_and, Nat.add_sub_cancel] at hbit
    exact (bne_eq_false_iff_eq.1 hbit).symm
  · intro hag
    apply BitVec.eq_of_getMsbD_eq
    intro i hi
    simp only [BitVec.getMsbD_ushiftRight, BitVec.getMsbD_zero, BitVec.getMsbD_xor]
    by_cases hk : i < w - n
    · simp [hk]
    · rw [hag (i - (w - n)) (by omega)]
      simp

theorem agree_mask (a b : BitVec w) (h : n ≤ w) :
    Agree n ((a >>> (w - n)) <<< (w - n)) b ↔ Agree n a b := by
  refine forall₂_congr fun i hi => ?_
  have hin : i + (w - n) < w := by omega
  have hout : ¬ i + (w - n) < w - n := by omega
  rw [BitVec.getMsbD_shiftLeft, BitVec.getMsbD_ushiftRight]
  simp [hin, hout]

theorem agree_append {v : Nat} (c : BitVec v) (a b : BitVec w) :
    Agree (v + n) (c ++ a) (c ++ b) ↔ Agree n a b := by
  constructor
  · intro h i hi
    have hbit := h (v + i) (by omega)
    simpa [BitVec.getMsbD_append] using hbit
  · intro h i hi
    rw [BitVec.getMsbD_append, BitVec.getMsbD_append]
    split_ifs with hv
    · exact h (i - v) (by omega)
    · rfl

namespace Addr

/-- The 16-byte form, which is the same for `a.b.c.d` and `::ffff:a.b.c.d` and has no zone. Two
addresses are the same IP address when these are equal. -/
def to16 : Addr → BitVec 128
  | v4 a => 0xffff#96 ++ a
  | v6 a _ => a

def IsV4 : Addr → Prop
  | v4 _ => True
  | v6 a zone => is4In6 (v6 a zone) = true

theorem toNat_mapped (b : BitVec 32) :
    (0xffff#96 ++ b : BitVec (96 + 32)).toNat = 0xffff * 2 ^ 32 + b.toNat := by
  rw [BitVec.toNat_append, ← Nat.shiftLeft_add_eq_or_of_lt b.isLt, Nat.shiftLeft_eq]
  rfl

theorem is4In6_iff (a : BitVec 128) (zone : String) :
    (v6 a zone).is4In6 = true ↔ a = 0xffff#96 ++ a.setWidth 32 := by
  have hhigh : (a >>> 32).toNat = a.toNat / 2 ^ 32 := by
    rw [BitVec.toNat_ushiftRight, Nat.shiftRight_eq_div_pow]
  have hlow : (a.setWidth 32).toNat = a.toNat % 2 ^ 32 := BitVec.toNat_setWidth ..
  have hmapped := toNat_mapped (a.setWidth 32)
  unfold is4In6
  rw [beq_iff_eq]
  constructor
  · intro h
    have hnat := congrArg BitVec.toNat h
    rw [hhigh, BitVec.toNat_ofNat] at hnat
    apply BitVec.eq_of_toNat_eq
    rw [hmapped, hlow]
    omega
  · intro h
    have hnat := congrArg BitVec.toNat h
    rw [hmapped, hlow] at hnat
    apply BitVec.eq_of_toNat_eq
    rw [hhigh, BitVec.toNat_ofNat]
    omega

@[simp] theorem to16_unmap (ip : Addr) : ip.unmap.to16 = ip.to16 := by
  cases ip with
  | v4 a => rfl
  | v6 a zone =>
    unfold unmap
    dsimp only
    split_ifs with h
    · exact ((is4In6_iff a zone).1 h).symm
    · rfl

theorem isV4_iff (ip : Addr) : ip.IsV4 ↔ ∃ b : BitVec 32, ip.to16 = 0xffff#96 ++ b := by
  cases ip with
  | v4 a => exact ⟨fun _ => ⟨a, rfl⟩, fun _ => trivial⟩
  | v6 a zone =>
    constructor
    · intro h
      exact ⟨a.setWidth 32, (is4In6_iff a zone).1 h⟩
    · intro h
      obtain ⟨b, hb⟩ := h
      have ha : a = 0xffff#96 ++ b := hb
      apply (is4In6_iff a zone).2
      have hlow : a.setWidth 32 = b := by
        apply BitVec.eq_of_toNat_eq
        rw [BitVec.toNat_setWidth, ha, toNat_mapped]
        have hlt := b.isLt
        omega
      rw [hlow, ha]

/-- The plain form of an address: IPv4, or IPv6 outside the mapped range. -/
theorem unmap_cases (ip : Addr) :
    (∃ b, ip.unmap = v4 b ∧ ip.IsV4) ∨ ∃ b zone, ip = v6 b zone ∧ ip.unmap = ip ∧ ¬ ip.IsV4 := by
  cases ip with
  | v4 a => exact .inl ⟨a, rfl, trivial⟩
  | v6 a zone =>
    by_cases h : is4In6 (v6 a zone) = true
    · exact .inl ⟨a.setWidth 32, if_pos h, h⟩
    · exact .inr ⟨a, zone, rfl, if_neg h, h⟩

theorem unmap_unmap (ip : Addr) : ip.unmap.unmap = ip.unmap := by
  rcases ip.unmap_cases with ⟨b, hb, -⟩ | ⟨b, zone, -, hb, -⟩
  · rw [hb]
    rfl
  · rw [hb, hb]

end Addr

namespace Prefix

/-- A network of IPv4 addresses: one written in IPv4, or one inside `::ffff:0:0/96`. -/
def InV4 (p : Prefix) : Prop := p.addr.bitLen = 32 ∨ p.addr.is4In6 = true ∧ 96 ≤ p.bits

def bits16 (p : Prefix) : Nat := p.bits + (128 - p.addr.bitLen)

/-- The addresses of a network: those of its family that begin with its bits. An IPv4 address is the
same in either form, and a network of IPv6 has none. -/
def Denotes (p : Prefix) (ip : Addr) : Prop :=
  (p.InV4 ↔ ip.IsV4) ∧ Agree p.bits16 p.addr.to16 ip.to16

variable {p : Prefix} {z : String}

theorem contains_v4_iff {a : BitVec 32} (hp : p.addr = .v4 a) (b : BitVec 32) :
    p.contains (.v4 b) = true ↔ Agree p.bits a b := by
  have hfits : p.bits ≤ 32 := by
    have hb := p.fits
    rwa [hp] at hb
  unfold contains
  rw [hp]
  rw [beq_iff_eq]
  exact xor_shiftRight_eq_zero_iff a b hfits

variable {a : BitVec 128}

theorem contains_v6_iff (hp : p.addr = .v6 a z) (b : BitVec 128) (zone : String) :
    p.contains (.v6 b zone) = true ↔ zone = "" ∧ Agree p.bits a b := by
  have hfits : p.bits ≤ 128 := by
    have hb := p.fits
    rwa [hp] at hb
  unfold contains
  rw [hp]
  rw [Bool.and_eq_true, beq_iff_eq, beq_iff_eq]
  exact and_congr_right fun _ => xor_shiftRight_eq_zero_iff a b hfits

theorem contains_v4_of_v6 (hp : p.addr = .v6 a z) (b : BitVec 32) : p.contains (.v4 b) = false := by
  unfold contains
  rw [hp]

theorem contains_v6_of_v4 {a : BitVec 32} (hp : p.addr = .v4 a) (b : BitVec 128) (zone : String) :
    p.contains (.v6 b zone) = false := by
  unfold contains
  rw [hp]

theorem contains_unmap_v4_iff {x : BitVec 32} (hp : p.addr = .v4 x) (ip : Addr) :
    p.contains ip.unmap = true ↔ ip.IsV4 ∧ Agree (96 + p.bits) (0xffff#96 ++ x) ip.to16 := by
  rcases ip.unmap_cases with ⟨b, hb, hv4⟩ | ⟨b, zone, rfl, hb, hv6⟩
  · have h16 : ip.to16 = 0xffff#96 ++ b := by
      rw [← Addr.to16_unmap, hb]
      rfl
    rw [hb, contains_v4_iff hp, h16, agree_append]
    simp [hv4]
  · rw [hb, contains_v6_of_v4 hp]
    simp [hv6]

theorem contains_unmap_v6_iff {x : BitVec 128} (hp : p.addr = .v6 x z) {ip : Addr}
    (hzone : ip.hasZone = false) :
    p.contains ip.unmap = true ↔ ¬ ip.IsV4 ∧ Agree p.bits x ip.to16 := by
  rcases ip.unmap_cases with ⟨b, hb, hv4⟩ | ⟨b, zone, rfl, hb, hv6⟩
  · rw [hb, contains_v4_of_v6 hp]
    simp [hv4]
  · have hz : zone = "" := by simpa [Addr.hasZone] using hzone
    rw [hb, contains_v6_iff hp, and_iff_right hz, and_iff_right hv6]
    rfl

/-- Masking leaves the network as it is. -/
theorem contains_masked (ip : Addr) : p.masked.contains ip = p.contains ip := by
  have hbits := p.fits
  rw [Bool.eq_iff_iff]
  cases hp : p.addr with
  | v4 a =>
    have hm : p.masked.addr = .v4 ((a >>> (32 - p.bits)) <<< (32 - p.bits)) := by
      simp only [masked, maskAddr, hp]
    rw [hp] at hbits
    cases ip with
    | v4 b =>
      rw [contains_v4_iff hm, contains_v4_iff hp]
      exact agree_mask a b hbits
    | v6 b zone => rw [contains_v6_of_v4 hm, contains_v6_of_v4 hp]
  | v6 a z =>
    have hm : p.masked.addr = .v6 ((a >>> (128 - p.bits)) <<< (128 - p.bits)) z := by
      simp only [masked, maskAddr, hp]
    rw [hp] at hbits
    cases ip with
    | v4 b => rw [contains_v4_of_v6 hm, contains_v4_of_v6 hp]
    | v6 b zone =>
      rw [contains_v6_iff hm, contains_v6_iff hp]
      exact and_congr_right fun _ => agree_mask a b hbits

end Prefix

structure Parsers where
  parseAddr : String → Option Addr
  parsePrefix : String → Option Prefix
  addrString : Addr → String

/-! ## Texts of addresses -/

/-- The characters of an address without its zone: hexadecimal digits, colons and dots. -/
def isAddrChar (c : Char) : Bool :=
  c.isDigit || (97 ≤ c.toNat && c.toNat ≤ 102) || (65 ≤ c.toNat && c.toNat ≤ 70) || c == ':' ||
    c == '.'

/-- A text without a zone that is read as an address: dotted decimals for IPv4, and at least two
colons for IPv6. -/
structure PlainText (s : List Char) (ip : Addr) : Prop where
  chars : ∀ c ∈ s, isAddrChar c = true
  nonempty : s ≠ []
  noZone : ip.hasZone = false
  colons : if ip.bitLen = 32 then ':' ∉ s else 2 ≤ s.count ':'

/-- What `netip.ParseAddr` documents: it reads dotted decimals, IPv6 texts, and these with `%` and a
zone that is not empty. -/
structure ParsesAddr (parse : String → Option Addr) : Prop where
  plain : ∀ (s : List Char) (ip : Addr), '%' ∉ s → parse (String.ofList s) = some ip →
    PlainText s ip
  zone : ∀ s zone : List Char, '%' ∉ s →
    parse (String.ofList (s ++ '%' :: zone)) =
      match parse (String.ofList s) with
      | some (.v6 a _) => if zone = [] then none else some (.v6 a (String.ofList zone))
      | _ => none

namespace ParsesAddr

variable {parse : String → Option Addr} {ip : Addr} {s : String}

/-- A text that is read is a plain one, or a plain IPv6 text with a zone. -/
theorem cases (h : ParsesAddr parse) (hs : parse s = some ip) : PlainText s.toList ip ∨
      ∃ (body zone : List Char) (a : BitVec 128), s.toList = body ++ '%' :: zone ∧ '%' ∉ body ∧
        zone ≠ [] ∧ PlainText body (.v6 a "") ∧ parse (String.ofList body) = some (.v6 a "") ∧
        ip = .v6 a (String.ofList zone) := by
  by_cases hmem : '%' ∈ s.toList
  · obtain ⟨body, zone, hcut, hbody⟩ := List.eq_append_cons_of_mem hmem
    have hread := h.zone body zone hbody
    rw [← hcut, String.ofList_toList, hs] at hread
    cases hp : parse (String.ofList body) with
    | none => simp [hp] at hread
    | some x =>
      cases x with
      | v4 a => simp [hp] at hread
      | v6 a z =>
        have hplain := h.plain body _ hbody hp
        have hz : z = "" := by simpa [Addr.hasZone] using hplain.noZone
        subst hz
        by_cases hne : zone = []
        · simp [hp, hne] at hread
        · simp only [hp, hne, if_false, Option.some.injEq] at hread
          exact .inr ⟨body, zone, a, hcut, hbody, hne, hplain, hp, hread⟩
  · exact .inl (h.plain _ _ hmem (by rw [String.ofList_toList, hs]))

/-- No text that is read starts with a bracket. -/
theorem head_ne (h : ParsesAddr parse) (hs : parse s = some ip) : s.toList.head? ≠ some '[' := by
  have hplain : ∀ (t : List Char) (x : Addr) (u : List Char), PlainText t x →
      (t ++ u).head? ≠ some '[' := by
    intro t x u ht hhead
    cases t with
    | nil => exact ht.nonempty rfl
    | cons c t =>
      have hc : c = '[' := by simpa using hhead
      have hchar := ht.chars c (by simp)
      rw [hc] at hchar
      exact absurd hchar (by decide)
  rcases h.cases hs with ht | ⟨body, zone, a, hcut, -, -, ht, -, -⟩
  · simpa using hplain _ _ [] ht
  · rw [hcut]
    exact hplain _ _ _ ht

end ParsesAddr

end FrpMeo.Lib.Netip
