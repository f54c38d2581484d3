import Mathlib.Tactic

/-!
# Byte strings and base64

A Go string is any sequence of bytes. `encode` is the padded standard encoding of `encoding/base64`;
it is injective and has no dot, so texts joined by dots can be taken apart again (`append_dot_inj`).
-/

namespace FrpMeo.Lib

abbrev Bytes := List UInt8

namespace Bytes

def ascii (s : String) : Bytes := s.toList.map fun c => UInt8.ofNat c.toNat

def dot : UInt8 := 46

def lowerAscii (b : UInt8) : UInt8 := if 65 ≤ b ∧ b ≤ 90 then b + 32 else b

def joinDots : List Bytes → Bytes
  | [] => []
  | [part] => part
  | part :: parts => part ++ dot :: joinDots parts

/-- Two texts that end in a dot and a part without dots are equal only part by part. -/
theorem append_dot_inj {a b x y : Bytes} (hx : dot ∉ x) (hy : dot ∉ y)
    (h : a ++ dot :: x = b ++ dot :: y) : a = b ∧ x = y := by
  induction a generalizing b with
  | nil =>
    cases b with
    | nil => simpa using h
    | cons c b =>
      simp only [List.nil_append, List.cons_append, List.cons.injEq] at h
      exact absurd (by rw [h.2]; simp) hx
  | cons c a ih =>
    cases b with
    | nil =>
      simp only [List.nil_append, List.cons_append, List.cons.injEq] at h
      exact absurd (by rw [← h.2]; simp) hy
    | cons d b =>
      simp only [List.cons_append, List.cons.injEq] at h
      obtain ⟨hab, hxy⟩ := ih h.2
      exact ⟨by rw [h.1, hab], hxy⟩

/-! ## Base64 -/

def digit : Option (Fin 64) → UInt8
  | none => 61
  | some n =>
      if n < 26 then UInt8.ofNat (65 + n)
      else if n < 52 then UInt8.ofNat (97 + (n - 26))
      else if n < 62 then UInt8.ofNat (48 + (n - 52))
      else if n = 62 then 43
      else 47

/-- The bits of a text in groups of six, padded to full quanta of four. -/
def sextets : Bytes → List (Option (Fin 64))
  | [] => []
  | [a] => [some (.ofNat 64 (a.toNat / 4)), some (.ofNat 64 (a.toNat % 4 * 16)), none, none]
  | [a, b] =>
      [some (.ofNat 64 (a.toNat / 4)), some (.ofNat 64 (a.toNat % 4 * 16 + b.toNat / 16)),
        some (.ofNat 64 (b.toNat % 16 * 4)), none]
  | a :: b :: c :: rest =>
      some (.ofNat 64 (a.toNat / 4)) :: some (.ofNat 64 (a.toNat % 4 * 16 + b.toNat / 16)) ::
        some (.ofNat 64 (b.toNat % 16 * 4 + c.toNat / 64)) :: some (.ofNat 64 (c.toNat % 64)) ::
          sextets rest

def encode (s : Bytes) : Bytes := (sextets s).map digit

/-- Three bytes take four characters, and so does what is left. -/
theorem length_encode (s : Bytes) : (encode s).length = 4 * ((s.length + 2) / 3) := by
  rw [encode, List.length_map]
  induction s using sextets.induct with
  | case1 => rfl
  | case2 a => simp [sextets]
  | case3 a b => simp [sextets]
  | case4 a b c rest ih =>
    simp only [sextets, List.length_cons, ih]
    omega

theorem digit_injective : Function.Injective digit := by decide +kernel

theorem digit_ne_dot : ∀ n, digit n ≠ dot := by decide +kernel

theorem dot_notMem_encode (s : Bytes) : dot ∉ encode s := by
  intro h
  obtain ⟨n, -, hn⟩ := List.mem_map.1 h
  exact digit_ne_dot n hn

theorem sextets_injective : Function.Injective sextets := by
  intro s
  induction s using sextets.induct with
  | case1 =>
    intro t h
    match t with
    | [] => rfl
    | [_] | [_, _] | _ :: _ :: _ :: _ => simp [sextets] at h
  | case2 a =>
    intro t h
    have ha := a.toNat_lt
    match t with
    | [] | [_, _] | _ :: _ :: _ :: _ => simp [sextets] at h
    | [a'] =>
      have ha' := a'.toNat_lt
      simp only [sextets, List.cons.injEq, Option.some.injEq, Fin.ext_iff, Fin.val_ofNat] at h
      have hab : a.toNat = a'.toNat := by omega
      rw [UInt8.toNat_inj.1 hab]
  | case3 a b =>
    intro t h
    have ha := a.toNat_lt
    have hb := b.toNat_lt
    match t with
    | [] | [_] | _ :: _ :: _ :: _ => simp [sextets] at h
    | [a', b'] =>
      have ha' := a'.toNat_lt
      have hb' := b'.toNat_lt
      simp only [sextets, List.cons.injEq, Option.some.injEq, Fin.ext_iff, Fin.val_ofNat] at h
      have h1 : a.toNat = a'.toNat := by omega
      have h2 : b.toNat = b'.toNat := by omega
      rw [UInt8.toNat_inj.1 h1, UInt8.toNat_inj.1 h2]
  | case4 a b c rest ih =>
    intro t h
    have ha := a.toNat_lt
    have hb := b.toNat_lt
    have hc := c.toNat_lt
    match t with
    | [] | [_] | [_, _] => simp [sextets] at h
    | a' :: b' :: c' :: rest' =>
      have ha' := a'.toNat_lt
      have hb' := b'.toNat_lt
      have hc' := c'.toNat_lt
      simp only [sextets, List.cons.injEq, Option.some.injEq, Fin.ext_iff, Fin.val_ofNat] at h
      obtain ⟨hd1, hd2, hd3, hd4, hrest⟩ := h
      -- a byte is spread over two sextets, and only these two matter for it
      have h1 : a.toNat = a'.toNat := by
        clear hd3 hd4 hc hc'
        omega
      have h2 : b.toNat = b'.toNat := by
        clear hd1 hd4
        omega
      have h3 : c.toNat = c'.toNat := by
        clear hd1 hd2 ha ha'
        omega
      rw [UInt8.toNat_inj.1 h1, UInt8.toNat_inj.1 h2, UInt8.toNat_inj.1 h3, ih hrest]

theorem encode_injective : Function.Injective encode :=
  (List.map_injective_iff.2 digit_injective).comp sextets_injective

end Bytes

end FrpMeo.Lib
