import Mathlib.Data.String.Basic
import FrpMeo.Lib.Text

/-!
# The reason of a reputation verdict

`cleanReason` of `server/firewall/firewall.go` prepares the text of a reputation provider before it
is logged. `json.Unmarshal` has replaced invalid UTF-8, so the text is a sequence of runes.
-/

namespace FrpMeo.Server

open Lib.Text
open String (ofList utf8Len utf8Len_cons utf8Len_le_of_sublist)

def maxReasonLen : Nat := 64

def writtenRune (r : Char) : Char := if r.toNat < 0x20 ∨ r.toNat = 0x7f then ' ' else r

/-- The loop of `cleanReason`, with the runes its builder holds. -/
def writeRunes (b : List Char) : List Char → List Char
  | [] => b
  | r :: rs => if maxReasonLen ≤ utf8Len b then b else writeRunes (b ++ [writtenRune r]) rs

def cleanReason (s : String) : String :=
  trimSpace (ofList (writeRunes [] (trimSpace s).toList))

def IsBreak (r : Char) : Prop := 0x80 ≤ r.toNat ∧ r.toNat ≤ 0x9f ∨ r.toNat ∈ [0x2028, 0x2029]

instance (r : Char) : Decidable (IsBreak r) := inferInstanceAs (Decidable (_ ∨ _))

/-- One line of the log: no rune of category Cc, no separator, and at most 64 bytes. -/
structure OneLine (s : String) : Prop where
  controls : ∀ r ∈ s.toList, ¬ r.toNat < 0x20 ∧ r.toNat ≠ 0x7f
  breaks : ∀ r ∈ s.toList, ¬ IsBreak r
  short : s.utf8ByteSize ≤ 64

/-- The runes of `rs` the loop writes when its builder holds `n` bytes. -/
def keptRunes (n : Nat) : List Char → List Char
  | [] => []
  | r :: rs => if maxReasonLen ≤ n then [] else r :: keptRunes (n + r.utf8Size) rs

def shownRunes (s : String) : List Char :=
  trim (isSpace ∘ writtenRune) (keptRunes 0 (trim isSpace s.toList))

variable {r : Char}

theorem utf8Size_writtenRune : (writtenRune r).utf8Size = r.utf8Size := by
  unfold writtenRune
  split_ifs with hctl
  · have hle : r.val ≤ 0x7f := by
      rw [UInt32.le_iff_toNat_le]
      change r.toNat ≤ 0x7f
      omega
    simp [Char.utf8Size, hle]
  · rfl

theorem utf8Len_map_writtenRune (rs : List Char) : utf8Len (rs.map writtenRune) = utf8Len rs := by
  induction rs with
  | nil => rfl
  | cons r rs ih => simp [utf8Size_writtenRune, ih]

/-- The builder's length decides which runes are written, and writing keeps the lengths. -/
theorem writeRunes_eq (b rs : List Char) :
    writeRunes b rs = b ++ (keptRunes (utf8Len b) rs).map writtenRune := by
  induction rs generalizing b with
  | nil => simp [writeRunes, keptRunes]
  | cons r rs ih =>
    unfold writeRunes keptRunes
    split_ifs with hfull
    · simp
    · simp [ih, utf8Size_writtenRune]

/-- The loop stops at the first rune past the limit, which has at most four bytes. -/
theorem utf8Len_keptRunes_le (n : Nat) (h : n ≤ 67) (rs : List Char) :
    n + utf8Len (keptRunes n rs) ≤ 67 := by
  induction rs generalizing n with
  | nil => simpa [keptRunes] using h
  | cons r rs ih =>
    unfold keptRunes
    split_ifs with hfull
    · simpa using h
    · have hsize := r.utf8Size_le_four
      have := ih (n + r.utf8Size) (by simp only [maxReasonLen] at hfull; omega)
      rw [utf8Len_cons]
      omega

theorem toList_cleanReason (s : String) :
    (cleanReason s).toList = (shownRunes s).map writtenRune := by
  simp [cleanReason, shownRunes, trimSpace, writeRunes_eq, trim, List.dropWhile_map,
    ← List.map_reverse]

theorem utf8ByteSize_cleanReason (s : String) :
    (cleanReason s).utf8ByteSize = utf8Len (shownRunes s) := by
  rw [← String.ofList_toList (s := cleanReason s), String.utf8ByteSize_ofList, toList_cleanReason,
    utf8Len_map_writtenRune]

theorem writtenRune_not_ascii_control (r : Char) :
    ¬ (writtenRune r).toNat < 0x20 ∧ (writtenRune r).toNat ≠ 0x7f := by
  unfold writtenRune
  split_ifs with hctl
  · decide
  · exact not_or.1 hctl

theorem isBreak_writtenRune : IsBreak (writtenRune r) ↔ IsBreak r := by
  unfold writtenRune
  split_ifs with hctl
  · refine iff_of_false (by decide) fun hbreak => ?_
    simp only [IsBreak, List.mem_cons, List.not_mem_nil, or_false] at hbreak
    omega
  · rfl

end FrpMeo.Server
