import FrpMeo.Lib.Text

/-!
# Ranges of numbers

`ParseRangeNumbers` (`pkg/util/util/util.go`) reads a text such as `1000-2000,2001`. It expands a
range by counting in 64 bits, and never leaves the loop of one that ends at the largest number.
-/

namespace FrpMeo.Config.Ranges

open Lib.Text

def maxInt : Int := 2 ^ 63 - 1

inductive RangeErr where
  /-- `range number is invalid`. -/
  | shape
  /-- The same, followed by the error of `strconv.ParseInt` on the text. -/
  | number (text : String)
  deriving DecidableEq

inductive Entry where
  | single (n : Int)
  | range (minValue maxValue : Int)
  deriving DecidableEq

def parseInt (text : List Char) : Except RangeErr Int :=
  let num := trimSpace (String.ofList text)
  match atoi num with
  | none => .error (.number num)
  | some n => .ok n

def parseEntry (numRangeStr : List Char) : Except RangeErr Entry :=
  match split '-' numRangeStr with
  | [a] => (parseInt a).map .single
  | [a, b] => do
    let minValue ← parseInt a
    let maxValue ← parseInt b
    if maxValue < minValue then .error .shape else .ok (.range minValue maxValue)
  | _ => .error .shape

/-- The loop over a range; `none` if it has not come to its end in `fuel` rounds. -/
def expand (maxValue : Int) : Nat → Int → List Int → Option (List Int)
  | 0, _, _ => none
  | fuel + 1, i, numbers =>
    if i ≤ maxValue then expand maxValue fuel ((i + 1).bmod (2 ^ 64)) (numbers ++ [i])
    else some numbers

/-- What is returned: the numbers so far, and the error if there is one. -/
def parseEntries (fuel : Nat) : List (List Char) → List Int →
    Option (List Int × Option RangeErr)
  | [], numbers => some (numbers, none)
  | text :: rest, numbers =>
    match parseEntry text with
    | .error e => some (numbers, some e)
    | .ok (.single n) => parseEntries fuel rest (numbers ++ [n])
    | .ok (.range minValue maxValue) =>
      (expand maxValue fuel minValue numbers).bind (parseEntries fuel rest)

def entries (rangeStr : String) : List (List Char) := split ',' (trimSpace rangeStr).toList

def parseRangeNumbers (fuel : Nat) (rangeStr : String) : Option (List Int × Option RangeErr) :=
  parseEntries fuel (entries rangeStr) []

/-! ## What is named -/

def Entry.numbers : Entry → List Int
  | .single n => [n]
  | .range lo hi => (List.range (hi + 1 - lo).toNat).map fun k : Nat => lo + k

def named : List (List Char) → Except RangeErr (List Int)
  | [] => .ok []
  | text :: rest =>
    match parseEntry text with
    | .error e => .error e
    | .ok entry => (named rest).map (entry.numbers ++ ·)

/-- No range that is reached ends at the largest number. -/
def Ends : List (List Char) → Prop
  | [] => True
  | text :: rest => ∀ e, parseEntry text = .ok e → (∀ lo, e ≠ .range lo maxInt) ∧ Ends rest

variable {texts : List (List Char)} {text : List Char} {numbers : List Int} {fuel : Nat}
  {i lo hi : Int}

theorem atoi_bounds {s : String} {n : Int} (h : atoi s = some n) : -2 ^ 63 ≤ n ∧ n ≤ maxInt := by
  unfold atoi at h
  unfold maxInt
  split at h <;> simp only [Option.bind_eq_some_iff] at h <;> obtain ⟨k, -, hk⟩ := h <;>
    split_ifs at hk <;> cases hk <;> omega

theorem bounds_of_parseInt {n : Int} (h : parseInt text = .ok n) : -2 ^ 63 ≤ n ∧ n ≤ maxInt := by
  simp only [parseInt] at h
  split at h
  · cases h
  · rename_i hn
    cases h
    exact atoi_bounds hn

theorem bounds_of_parseEntry (h : parseEntry text = .ok (.range lo hi)) :
    -2 ^ 63 ≤ lo ∧ lo ≤ hi ∧ hi ≤ maxInt := by
  unfold parseEntry at h
  split at h
  · rename_i a _
    cases ha : parseInt a <;> simp [ha, Except.map] at h
  · rename_i a b _
    cases ha : parseInt a with
    | error e => simp [ha, bind, Except.bind] at h
    | ok lo' =>
      cases hb : parseInt b with
      | error e => simp [ha, hb, bind, Except.bind] at h
      | ok hi' =>
        simp only [ha, hb, bind, Except.bind] at h
        split_ifs at h with hlt
        cases h
        exact ⟨(bounds_of_parseInt ha).1, by omega, (bounds_of_parseInt hb).2⟩
  · cases h

theorem expand_eq (hhi : hi < maxInt) (hlo : -2 ^ 63 ≤ i) (hi' : i ≤ hi + 1) :
    expand hi fuel i numbers = if (hi + 1 - i).toNat < fuel then
      some (numbers ++ (Entry.range i hi).numbers) else none := by
  unfold maxInt at hhi
  induction fuel generalizing i numbers with
  | zero => rfl
  | succ fuel ih =>
    rw [expand]
    split_ifs with hle hfuel hfuel
    · have hnext : (i + 1).bmod (2 ^ 64) = i + 1 := Int.bmod_eq_of_le (by omega) (by omega)
      have hlen : (hi + 1 - i).toNat = (hi + 1 - (i + 1)).toNat + 1 := by omega
      rw [hnext, ih (by omega) (by omega), if_pos (by omega)]
      simp [Entry.numbers, hlen, List.range_succ_eq_map, Function.comp_def, Int.add_assoc,
        Int.add_comm 1]
    · have hnext : (i + 1).bmod (2 ^ 64) = i + 1 := Int.bmod_eq_of_le (by omega) (by omega)
      rw [hnext, ih (by omega) (by omega), if_neg (by omega)]
    · have hlen : (hi + 1 - i).toNat = 0 := by omega
      simp [Entry.numbers, hlen]
    · omega

/-- The counter is never above the largest number. -/
theorem expand_maxInt (hi' : i ≤ maxInt) : expand maxInt fuel i numbers = none := by
  induction fuel generalizing i numbers with
  | zero => rfl
  | succ fuel ih =>
    rw [expand, if_pos hi']
    refine ih ?_
    have := Int.bmod_lt (x := i + 1) (m := 2 ^ 64) (by decide)
    unfold maxInt
    omega

theorem parseEntries_exact {r : List Int × Option RangeErr}
    (h : parseEntries fuel texts numbers = some r) :
    (named texts).map (numbers ++ ·) = r.2.elim (.ok r.1) .error := by
  induction texts generalizing numbers with
  | nil =>
    cases h
    simp [named, Except.map]
  | cons text rest ih =>
    have hmap : ∀ ns : List Int, ((named rest).map (ns ++ ·)).map (numbers ++ ·) =
        (named rest).map (numbers ++ ns ++ ·) := by
      intro ns
      cases named rest <;> simp [Except.map]
    simp only [parseEntries] at h
    simp only [named]
    split at h <;> rename_i hp
    · cases h
      simp [hp, Except.map]
    · rw [hp, ← ih h]
      exact hmap _
    · obtain ⟨hlo, hle, hmax⟩ := bounds_of_parseEntry hp
      obtain ⟨ns, hns, h⟩ := Option.bind_eq_some_iff.1 h
      rw [hp, ← ih h]
      rcases hmax.lt_or_eq with hlt | rfl
      · rw [expand_eq hlt hlo (by omega)] at hns
        split_ifs at hns
        cases hns
        exact hmap _
      · rw [expand_maxInt hle] at hns
        cases hns

theorem exists_fuel (h : Ends texts) :
    ∃ N, ∀ fuel, N ≤ fuel → ∀ numbers, (parseEntries fuel texts numbers).isSome := by
  induction texts with
  | nil => exact ⟨0, fun _ _ _ => rfl⟩
  | cons text rest ih =>
    cases hp : parseEntry text with
    | error e => exact ⟨0, fun _ _ _ => by simp [parseEntries, hp]⟩
    | ok entry =>
      obtain ⟨hentry, hrest⟩ := h entry hp
      obtain ⟨N, hN⟩ := ih hrest
      cases entry with
      | single n =>
        refine ⟨N, fun fuel hfuel numbers => ?_⟩
        simpa [parseEntries, hp] using hN fuel hfuel _
      | range lo hi =>
        obtain ⟨hlo, hle, hmax⟩ := bounds_of_parseEntry hp
        have hlt : hi < maxInt := lt_of_le_of_ne hmax fun heq => hentry lo (heq ▸ rfl)
        refine ⟨max N ((hi + 1 - lo).toNat + 1), fun fuel hfuel numbers => ?_⟩
        simp only [parseEntries, hp]
        rw [expand_eq hlt hlo (by omega), if_pos (by omega)]
        exact hN fuel (by omega) _

theorem parseEntries_endless (h : ¬ Ends texts) (fuel : Nat) (numbers : List Int) :
    parseEntries fuel texts numbers = none := by
  induction texts generalizing numbers with
  | nil => exact absurd trivial h
  | cons text rest ih =>
    simp only [Ends, not_forall] at h
    obtain ⟨entry, hp, h⟩ := h
    cases entry with
    | single n => simpa [parseEntries, hp] using ih (fun hrest => h ⟨nofun, hrest⟩) _
    | range lo hi =>
      simp only [parseEntries, hp, Option.bind_eq_none_iff]
      intro ns hns
      refine ih (fun hrest => h ⟨?_, hrest⟩) ns
      rintro _ ⟨⟩
      rw [expand_maxInt (bounds_of_parseEntry hp).2.1] at hns
      cases hns

/-- It returns iff no range that is reached ends at the largest number. Then it fails or returns
exactly the numbers named. -/
theorem parseRangeNumbers_exact_iff (rangeStr : String) :
    ((∃ fuel, (parseRangeNumbers fuel rangeStr).isSome) ↔ Ends (entries rangeStr)) ∧
      ∀ fuel r, parseRangeNumbers fuel rangeStr = some r →
        named (entries rangeStr) = r.2.elim (.ok r.1) .error := by
  unfold parseRangeNumbers
  generalize entries rangeStr = texts
  refine ⟨⟨fun ⟨fuel, h⟩ => ?_, fun h => ?_⟩, fun fuel r h => ?_⟩
  · by_contra hends
    simp [parseEntries_endless hends] at h
  · obtain ⟨N, hN⟩ := exists_fuel h
    exact ⟨N, hN N le_rfl []⟩
  · rw [← parseEntries_exact h]
    cases named texts <;> simp [Except.map]

def largest : String := "9223372036854775807-9223372036854775807"

theorem parseRangeNumbers_endless : ¬ ∃ fuel, (parseRangeNumbers fuel largest).isSome := by
  rintro ⟨fuel, h⟩
  have htexts : entries largest = [largest.toList] := by decide +kernel
  have hp : parseEntry largest.toList = .ok (.range maxInt maxInt) := by decide +kernel
  have hends : ¬ Ends [largest.toList] := fun h => (h _ hp).1 maxInt rfl
  rw [parseRangeNumbers, htexts, parseEntries_endless hends] at h
  cases h

end FrpMeo.Config.Ranges
