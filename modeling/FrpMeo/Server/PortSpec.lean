import FrpMeo.Server.Decision

/-!
# The check of a rule's port text

A port text is read twice (`server/firewall/firewall.go`): `ParsePortSpec` checks it when a rule is
saved, and `compilePorts` reads it into ranges and drops what it cannot read.
-/

set_option linter.dupNamespace false

namespace FrpMeo.Server.Firewall

open Lib.Text Lib.Netip

/-! ## The check -/

def checkEntries (quote : String → String) : List (List Char) → Option String
  | [] => none
  | part :: parts =>
      match parsePortRange (String.ofList part) with
      | none =>
          some ("invalid port " ++ quote (trimSpace (String.ofList part)) ++
            ": want a port, a lo-hi range, or all")
      | some _ => checkEntries quote parts

/-- `ParsePortSpec`; `none` is that the text is accepted, and `quote` is the verb `%q`. -/
def parsePortSpec (quote : String → String) (spec : String) : Option String :=
  let spec := trimSpace spec
  if spec = "" ∨ spec = "*" ∨ equalFoldAscii spec "all" then none
  else checkEntries quote (split ',' spec.toList)

/-! ## Entries -/

inductive EntryWellFormed (entry : String) : Prop where
  | number (n : Int) (hdash : '-' ∉ (trimSpace entry).toList) (hport : PortText (trimSpace entry) n)
  | range (before after : List Char) (lo hi : Int)
      (hentry : (trimSpace entry).toList = before ++ '-' :: after) (hdash : '-' ∉ before)
      (hbefore : PortText (String.ofList before) lo) (hafter : PortText (String.ofList after) hi)
      (hle : lo ≤ hi)

/-- Every entry of a text is read into a range. The text of any port has no entries. -/
def KeepsEveryEntry (text : String) : Prop :=
  ∀ ranges, compilePorts text = some ranges →
    (split ',' (trimSpace text).toList).map (fun part => parsePortRange (String.ofList part)) =
      ranges.map some

theorem entryWellFormed_iff (entry : String) :
    EntryWellFormed entry ↔ ∃ port, EntryNames entry port := by
  constructor
  · intro h
    cases h with
    | number n hdash hport => exact ⟨n, .number hdash hport⟩
    | range before after lo hi hentry hdash hbefore hafter hle =>
      exact ⟨lo, .range before after lo hi hentry hdash hbefore hafter (le_refl lo) hle⟩
  · intro h
    obtain ⟨port, hnames⟩ := h
    cases hnames with
    | number hdash hport => exact .number port hdash hport
    | range before after lo hi hentry hdash hbefore hafter hlo hhi =>
      exact .range before after lo hi hentry hdash hbefore hafter (hlo.trans hhi)

/-! ## The two walks -/

theorem checkEntries_eq_none_iff (quote : String → String) (parts : List (List Char)) :
    checkEntries quote parts = none ↔
      ∀ part ∈ parts, (parsePortRange (String.ofList part)).isSome = true := by
  induction parts with
  | nil => simp [checkEntries]
  | cons part parts ih =>
    cases hpart : parsePortRange (String.ofList part) with
    | none => simp [checkEntries, hpart]
    | some r => simpa [checkEntries, hpart] using ih

theorem map_eq_filterMap_iff {α β : Type} (f : α → Option β) (l : List α) :
    l.map f = (l.filterMap f).map some ↔ ∀ a ∈ l, (f a).isSome = true := by
  induction l with
  | nil => simp
  | cons a l ih =>
    cases ha : f a with
    | none =>
      -- the head of the left side is `none`, and the right side has no `none`
      have hne : none :: l.map f ≠ (l.filterMap f).map some := by
        intro h
        have hmem : none ∈ (l.filterMap f).map some := h ▸ List.mem_cons_self
        simp at hmem
      simp [ha, hne]
    | some b => simpa [ha] using ih

theorem keepsEveryEntry_iff {text : String} (hany : ¬ (trimSpace text = "" ∨ trimSpace text = "*" ∨
      equalFoldAscii (trimSpace text) "all" = true)) :
    KeepsEveryEntry text ↔ ∀ part ∈ split ',' (trimSpace text).toList,
      (parsePortRange (String.ofList part)).isSome = true := by
  have hcompile : compilePorts text = some ((split ',' (trimSpace text).toList).filterMap
      fun part => parsePortRange (String.ofList part)) := by
    simp only [compilePorts, hany, if_false]
  rw [← map_eq_filterMap_iff]
  constructor
  · intro h
    exact h _ hcompile
  · intro h ranges hranges
    rw [hcompile] at hranges
    rw [← Option.some.inj hranges]
    exact h

/-- The check accepts a text exactly when the compiler drops no entry of it. -/
theorem parsePortSpec_eq_none_iff (quote : String → String) (text : String) :
    parsePortSpec quote text = none ↔ KeepsEveryEntry text := by
  by_cases hany : trimSpace text = "" ∨ trimSpace text = "*" ∨
      equalFoldAscii (trimSpace text) "all" = true
  · have hcompile : compilePorts text = none := by simp only [compilePorts, hany, if_true]
    simp [parsePortSpec, hany, KeepsEveryEntry, hcompile]
  · rw [keepsEveryEntry_iff hany, ← checkEntries_eq_none_iff quote]
    simp only [parsePortSpec, hany, if_false]

theorem matches_compileRule_iff (go : Go) (r : Rule) (i : Nat) (ip : Option Addr) (port : Int) :
    (compileRule go r i).matches ip port = true ↔
      (compileSource go r.cidr).contains ip = true ∧ PortTextNames r.port port := by
  simp only [CompiledRule.matches, compileRule, Bool.and_eq_true, compilePorts_iff]

/-- A port text passes the check exactly when the compiler drops no entry, and then the rule matches
the ports it names; otherwise only ports that a well-formed entry names. -/
theorem parsePortSpec_agrees (go : Go) (quote : String → String) (r : Rule) (i : Nat)
    (ip : Option Addr) : (parsePortSpec quote r.port = none ↔ KeepsEveryEntry r.port) ∧
      (parsePortSpec quote r.port = none → ∀ port : Int, 0 ≤ port → port ≤ 65535 →
        ((compileRule go r i).matches ip port = true ↔
          (compileSource go r.cidr).contains ip = true ∧ PortTextNames r.port port)) ∧
      (parsePortSpec quote r.port ≠ none → ∀ port : Int,
        (compileRule go r i).matches ip port = true → ∃ part ∈ split ',' (trimSpace r.port).toList,
            EntryWellFormed (String.ofList part) ∧ EntryNames (String.ofList part) port) := by
  refine ⟨parsePortSpec_eq_none_iff quote r.port, ?_, ?_⟩
  · intro _ port _ _
    exact matches_compileRule_iff go r i ip port
  · intro hrefused port hmatches
    obtain ⟨-, hnames⟩ := (matches_compileRule_iff go r i ip port).1 hmatches
    rcases hnames with hany | ⟨part, hpart, hnames⟩
    · -- a text of any port is never refused
      apply absurd _ hrefused
      simp [parsePortSpec, hany]
    · exact ⟨part, hpart, (entryWellFormed_iff _).2 ⟨port, hnames⟩, hnames⟩

def plainQuote (s : String) : String := "\"" ++ s ++ "\""

theorem parsePortSpec_agrees_reversed : parsePortSpec plainQuote "6010-6000, ,+80" =
        some "invalid port \"6010-6000\": want a port, a lo-hi range, or all" ∧
      ¬ KeepsEveryEntry "6010-6000, ,+80" ∧
      (compileRule tableGo ⟨"", "allow", "", "6010-6000, ,+80", "", 0⟩ 0).matches none 80 = true ∧
      ∃ part ∈ split ',' (trimSpace "6010-6000, ,+80").toList,
        EntryWellFormed (String.ofList part) ∧ EntryNames (String.ofList part) 80 := by
  have hrefused : parsePortSpec plainQuote "6010-6000, ,+80" =
      some "invalid port \"6010-6000\": want a port, a lo-hi range, or all" := by decide +kernel
  have hmatches : (compileRule tableGo ⟨"", "allow", "", "6010-6000, ,+80", "", 0⟩ 0).matches none
      80 = true := by decide +kernel
  obtain ⟨hiff, -, hnarrow⟩ := parsePortSpec_agrees tableGo plainQuote
    ⟨"", "allow", "", "6010-6000, ,+80", "", 0⟩ 0 none
  refine ⟨hrefused, ?_, hmatches, hnarrow (by rw [hrefused]; simp) 80 hmatches⟩
  intro hkeeps
  have haccepted := hiff.2 hkeeps
  rw [hrefused] at haccepted
  cases haccepted

end FrpMeo.Server.Firewall
