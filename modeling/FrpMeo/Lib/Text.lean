import Mathlib.Tactic

/-!
# Text operations of the Go library

The functions of `strings`, `strconv` and `net` that decide how a text is read, on lists and then on
`String`.
-/

namespace FrpMeo.Lib.Text

/-! ## Characters -/

def isSpace (c : Char) : Bool :=
  c.toNat ∈ [0x09, 0x0a, 0x0b, 0x0c, 0x0d, 0x20, 0x85, 0xa0, 0x1680, 0x2028, 0x2029, 0x202f,
    0x205f, 0x3000] || (0x2000 ≤ c.toNat && c.toNat ≤ 0x200a)

/-- `unicode.ToLower`: fixed on ASCII, and left to the Unicode tables elsewhere. -/
structure CaseMap where
  lower : Char → Char
  ascii : ∀ c : Char, c.val < 128 → lower c = c.toLower

def asciiCase : CaseMap := ⟨Char.toLower, fun _ _ => rfl⟩

/-! ## Lists -/

section Lists

variable {α : Type}

def trim (p : α → Bool) (s : List α) : List α := ((s.dropWhile p).reverse.dropWhile p).reverse

variable {p : α → Bool} {s : List α} {c : α}

theorem dropWhile_of_head (h : ∀ c ∈ s.head?, p c = false) : s.dropWhile p = s := by
  cases s with
  | nil => rfl
  | cons c s => simp [h c rfl]

theorem trim_of_forall (h : ∀ c ∈ s, p c = false) : trim p s = s := by
  have hkeep : ∀ l : List α, (∀ c ∈ l, p c = false) → l.dropWhile p = l := fun l hl =>
    dropWhile_of_head fun c hc => hl c (List.mem_of_mem_head? hc)
  rw [trim, hkeep s h, hkeep s.reverse (by simpa using h), List.reverse_reverse]

theorem trim_trim : trim p (trim p s) = trim p s := by
  have hhead : ∀ (l : List α), ∀ c ∈ (l.dropWhile p).head?, p c = false := by
    intro l c hc
    simpa [Option.mem_def.1 hc] using List.head?_dropWhile_not p l
  -- the left end of the trimmed text is that of the text trimmed on its left
  have hleft : ∀ c ∈ (trim p s).head?, p c = false := by
    intro c hc
    apply hhead s
    have hprefix : trim p s <+: s.dropWhile p := by
      rw [← List.reverse_suffix, trim, List.reverse_reverse]
      exact List.dropWhile_suffix p
    obtain ⟨rest, hrest⟩ := hprefix
    cases ht : trim p s with
    | nil => simp [ht] at hc
    | cons d t =>
      rw [ht] at hc hrest
      rw [← hrest]
      exact hc
  rw [trim, dropWhile_of_head hleft]
  conv_lhs => rw [trim, List.reverse_reverse, dropWhile_of_head (hhead _)]
  rfl

theorem dropWhile_append_cons (h : p c = false) (s t : List α) :
    (s ++ c :: t).dropWhile p = s.dropWhile p ++ c :: t := by
  induction s with
  | nil => simp [h]
  | cons b s ih =>
    cases hb : p b with
    | false => simp [hb]
    | true => simp [hb, ih]

/-- Before an element that is kept, only the left is trimmed, and after it only the right. -/
theorem trim_append_cons (hs : ∀ b ∈ s, p b = false) (hc : p c = false) (t : List α) :
    trim p (s ++ c :: t) = s ++ c :: (t.reverse.dropWhile p).reverse := by
  have hleft : (s ++ c :: t).dropWhile p = s ++ c :: t := by
    rw [dropWhile_append_cons hc]
    cases s with
    | nil => rfl
    | cons b s => simp [hs b (by simp)]
  rw [trim, hleft, List.reverse_append, List.reverse_cons, List.append_assoc, List.singleton_append,
    dropWhile_append_cons hc]
  simp

theorem exists_append_cons_last (h : c ∈ s) : ∃ u v, s = u ++ c :: v ∧ c ∉ v := by
  obtain ⟨v, u, hs, hv⟩ := List.eq_append_cons_of_mem (List.mem_reverse.2 h)
  refine ⟨u.reverse, v.reverse, ?_, by simpa using hv⟩
  have hrev := congrArg List.reverse hs
  simpa using hrev

variable [DecidableEq α]

/-- `strings.Cut` at one element: what is before and after its first occurrence. -/
def cut (sep : α) : List α → List α × Option (List α)
  | [] => ([], none)
  | c :: s =>
      if c = sep then ([], some s)
      else
        let (before, after) := cut sep s
        (c :: before, after)

theorem cut_of_notMem {sep : α} (h : sep ∉ s) : cut sep s = (s, none) := by
  induction s with
  | nil => rfl
  | cons c s ih =>
    have hc : c ≠ sep := fun he => h (by simp [he])
    have hs : sep ∉ s := fun hmem => h (List.mem_cons_of_mem c hmem)
    simp [cut, hc, ih hs]

theorem cut_append {sep : α} {lo hi : List α} (h : sep ∉ lo) :
    cut sep (lo ++ sep :: hi) = (lo, some hi) := by
  induction lo with
  | nil => simp [cut]
  | cons c lo ih =>
    have hc : c ≠ sep := fun he => h (by simp [he])
    have hlo : sep ∉ lo := fun hmem => h (List.mem_cons_of_mem c hmem)
    simp [cut, hc, ih hlo]

/-- `strings.Split` at one element; the result has one part more than there are separators. -/
def split (sep : α) : List α → List (List α)
  | [] => [[]]
  | c :: s =>
      if c = sep then [] :: split sep s
      else
        match split sep s with
        | [] => [[c]]
        | part :: parts => (c :: part) :: parts

/-- `strings.ReplaceAll`; `skip` elements belong to an occurrence that has been replaced. -/
def replaceAll (old new : List α) : Nat → List α → List α
  | _, [] => []
  | skip + 1, _ :: s => replaceAll old new skip s
  | 0, c :: s =>
      if old.isPrefixOf (c :: s) then new ++ replaceAll old new (old.length - 1) s
      else c :: replaceAll old new 0 s

def lastIdxOf? (c : α) (s : List α) : Option Nat :=
  (s.reverse.idxOf? c).map fun i => s.length - 1 - i

/-- `net.SplitHostPort`, given the characters `:`, `[` and `]`; `none` is any of its errors. -/
def splitHostPort (colon lbrack rbrack : α) (s : List α) : Option (List α × List α) :=
  match lastIdxOf? colon s with
  | none => none
  | some i =>
      if s.head? = some lbrack then
        match s.idxOf? rbrack with
        | none => none
        | some e =>
            -- the first ']' stands right before the last ':'
            if e + 1 = i ∧ lbrack ∉ s.drop 1 ∧ rbrack ∉ s.drop (e + 1) then
              some ((s.take e).drop 1, s.drop (i + 1))
            else none
      else if colon ∉ s.take i ∧ lbrack ∉ s ∧ rbrack ∉ s then some (s.take i, s.drop (i + 1))
      else none

theorem idxOf?_append_cons {u : List α} (h : c ∉ u) (v : List α) :
    (u ++ c :: v).idxOf? c = some u.length := by
  induction u with
  | nil => simp [List.idxOf?_cons]
  | cons b u ih =>
    have hb : ¬ b = c := fun he => h (by simp [he])
    have hu : c ∉ u := fun hmem => h (List.mem_cons_of_mem b hmem)
    simp [List.idxOf?_cons, hb, ih hu]

theorem lastIdxOf?_append_cons {v : List α} (h : c ∉ v) (u : List α) :
    lastIdxOf? c (u ++ c :: v) = some u.length := by
  have hrev : (u ++ c :: v).reverse = v.reverse ++ c :: u.reverse := by simp
  rw [lastIdxOf?, hrev, idxOf?_append_cons (by simpa using h), Option.map_some]
  simp only [List.length_append, List.length_cons, List.length_reverse]
  congr 1
  omega

theorem lastIdxOf?_of_notMem (h : c ∉ s) : lastIdxOf? c s = none := by
  rw [lastIdxOf?, List.idxOf?_eq_none_iff.2 (by simpa using h), Option.map_none]

section SplitHostPort

variable {colon lbrack rbrack : α} {host port : List α}

theorem splitHostPort_of_notMem (h : colon ∉ host) :
    splitHostPort colon lbrack rbrack host = none := by
  rw [splitHostPort, lastIdxOf?_of_notMem h]

theorem splitHostPort_of_count (hhead : host.head? ≠ some lbrack) (h : 2 ≤ host.count colon) :
    splitHostPort colon lbrack rbrack host = none := by
  have hmem : colon ∈ host := List.count_pos_iff.1 (by omega)
  obtain ⟨u, v, hs, hv⟩ := exists_append_cons_last hmem
  have hcount : host.count colon = u.count colon + 1 := by
    rw [hs, List.count_append, List.count_cons_self, List.count_eq_zero.2 hv]
  have hu : colon ∈ u := List.count_pos_iff.1 (by omega)
  have htake : host.take u.length = u := by simp [hs]
  have hlast : lastIdxOf? colon host = some u.length := by rw [hs, lastIdxOf?_append_cons hv]
  simp [splitHostPort, hlast, hhead, htake, hu]

/-- What `net.JoinHostPort` makes of a host without a colon. -/
theorem splitHostPort_joined (hhead : lbrack ≠ colon) (hhost : colon ∉ host) (hport : colon ∉ port)
    (hleft : lbrack ∉ host ++ port) (hright : rbrack ∉ host ++ port) (hne : rbrack ≠ colon) :
    splitHostPort colon lbrack rbrack (host ++ colon :: port) = some (host, port) := by
  have hnot : (host ++ colon :: port).head? ≠ some lbrack := by
    intro h
    have hmem := List.mem_of_mem_head? (Option.mem_def.2 h)
    simp_all
  simp only [List.mem_append, not_or] at hleft hright
  have hdrop : (host ++ colon :: port).drop (host.length + 1) = port := by
    rw [List.drop_append]
    simp
  simp only [splitHostPort, lastIdxOf?_append_cons hport, hnot, if_false, hdrop]
  simp [hhost, hleft, hright, hhead, hne]

/-- What `net.JoinHostPort` makes of a host with a colon. -/
theorem splitHostPort_bracketed (hlr : lbrack ≠ rbrack) (hlc : lbrack ≠ colon)
    (hrc : rbrack ≠ colon) (hport : colon ∉ port) (hleft : lbrack ∉ port) (hright : rbrack ∉ port) :
    splitHostPort colon lbrack rbrack (lbrack :: host ++ rbrack :: colon :: port) =
      if lbrack ∉ host ∧ rbrack ∉ host then some (host, port) else none := by
  have hlast : lastIdxOf? colon (lbrack :: host ++ rbrack :: colon :: port) =
      some (host.length + 2) := by
    have hs : lbrack :: host ++ rbrack :: colon :: port =
        (lbrack :: host ++ [rbrack]) ++ colon :: port := by simp
    rw [hs, lastIdxOf?_append_cons hport]
    simp
  by_cases hr : rbrack ∈ host
  · -- the first ']' is inside the host
    obtain ⟨u, v, hs, hu⟩ := List.eq_append_cons_of_mem hr
    have hfirst : (lbrack :: host ++ rbrack :: colon :: port).idxOf? rbrack =
        some (u.length + 1) := by
      have happ : lbrack :: host ++ rbrack :: colon :: port =
          (lbrack :: u) ++ rbrack :: (v ++ rbrack :: colon :: port) := by simp [hs]
      rw [happ, idxOf?_append_cons (by simp [hlr.symm, hu])]
      simp
    have hshort : ¬ u.length + 1 + 1 = host.length + 2 := by
      rw [hs]
      simp
    simp only [splitHostPort, hlast, hfirst, hshort, false_and, if_false, hr, not_true, and_false]
    simp
  · have hfirst : (lbrack :: host ++ rbrack :: colon :: port).idxOf? rbrack =
        some (host.length + 1) := by
      rw [idxOf?_append_cons (by simp [hlr.symm, hr])]
      simp
    have hdrop : (lbrack :: host ++ rbrack :: colon :: port).drop (host.length + 2) =
        colon :: port := by
      rw [List.drop_append]
      simp
    have hdrop' : (lbrack :: host ++ rbrack :: colon :: port).drop (host.length + 3) = port := by
      rw [List.drop_append]
      simp
    have htake : (lbrack :: host ++ rbrack :: colon :: port).take (host.length + 1) =
        lbrack :: host := by
      simp
    by_cases hl : lbrack ∈ host
    · simp only [splitHostPort, hlast, hfirst]
      simp [hl]
    · simp only [splitHostPort, hlast, hfirst, hdrop, hdrop', htake]
      simp [hl, hr, hlc, hrc, hlr, hleft, hright]

end SplitHostPort

end Lists

/-! ## Longest beginnings -/

section Longest

variable {ι α : Type} [DecidableEq α] [LT α] [Std.Irrefl (α := α) (· < ·)]
  [Std.Trichotomous (α := α) (· < ·)] {entries : List ι} {text : List α}

/-- A beginning of a text comes before it in a dictionary, so in descending order the first entry
whose key begins the text has the longest such key. -/
theorem length_le_of_find?_isPrefixOf (key : ι → List α)
    (hdesc : entries.Pairwise fun a b => key b ≤ key a) {e e' : ι}
    (hfind : entries.find? (fun e => (key e).isPrefixOf text) = some e) (hmem : e' ∈ entries)
    (hbegins : key e' <+: text) : (key e').length ≤ (key e).length := by
  obtain ⟨he, before, after, rfl, hbefore⟩ := List.find?_eq_some_iff_append.1 hfind
  rw [List.isPrefixOf_iff_prefix] at he
  rw [List.mem_append, List.mem_cons] at hmem
  rcases hmem with hlt | rfl | hgt
  · have hnot := hbefore e' hlt
    rw [Bool.not_eq_true', ← Bool.not_eq_true, List.isPrefixOf_iff_prefix] at hnot
    exact absurd hbegins hnot
  · exact Nat.le_refl _
  · have hle : key e' ≤ key e := (List.pairwise_cons.1 (List.pairwise_append.1 hdesc).2.1).1 e' hgt
    rcases List.prefix_or_prefix_of_prefix hbegins he with hshort | hlong
    · exact hshort.length_le
    · rw [List.le_antisymm hle hlong.le]

end Longest

/-! ## Strings -/

def trimSpace (s : String) : String := String.ofList (trim isSpace s.toList)

theorem trimSpace_trimSpace (s : String) : trimSpace (trimSpace s) = trimSpace s := by
  rw [trimSpace, trimSpace, String.toList_ofList, trim_trim]

def trimRight (c : Char) (s : String) : String :=
  String.ofList (s.toList.reverse.dropWhile (· == c)).reverse

def toLower (cm : CaseMap) (s : String) : String := String.ofList (s.toList.map cm.lower)

/-- `strings.EqualFold` with a text of ASCII letters other than `k` and `s`, the two that fold with
letters outside ASCII. -/
def equalFoldAscii (s pat : String) : Bool :=
  s.toList.map Char.toLower == pat.toList.map Char.toLower

def replace (s old new : String) : String :=
  String.ofList (replaceAll old.toList new.toList 0 s.toList)

def digitsVal? (s : List Char) : Option Nat :=
  if s ≠ [] ∧ s.all Char.isDigit then
    some (s.foldl (fun n c => 10 * n + (c.toNat - '0'.toNat)) 0)
  else none

/-- `strconv.Atoi` on a 64-bit machine; `none` is an error. -/
def atoi (s : String) : Option Int :=
  match s.toList with
  | '-' :: ds => (digitsVal? ds).bind fun n => if n ≤ 2 ^ 63 then some (-(n : Int)) else none
  | '+' :: ds => (digitsVal? ds).bind fun n => if n < 2 ^ 63 then some (n : Int) else none
  | ds => (digitsVal? ds).bind fun n => if n < 2 ^ 63 then some (n : Int) else none

end FrpMeo.Lib.Text
