import Mathlib.Data.List.TakeWhile
import FrpMeo.Server.Decision

/-!
# The spellings of a source address

A peer's address reaches the firewall as a text, alone or joined with a port. `parseAddr`
(`server/firewall/firewall.go`) takes the port off and unmaps the address, but keeps its zone, and
no network contains an address with a zone.
-/

set_option linter.dupNamespace false

namespace FrpMeo.Server.Firewall

open Lib.Text Lib.Netip

/-! ## Spellings -/

structure Spelling where
  host : String
  port : Option String

def joinHostPort (host port : String) : String :=
  if ':' ∈ host.toList then "[" ++ host ++ "]:" ++ port else host ++ ":" ++ port

def Spelling.text (sp : Spelling) : String :=
  match sp.port with
  | none => sp.host
  | some port => joinHostPort sp.host port

/-- The spelling names an address; a port is written in digits. -/
structure Spelling.Names (go : Go) (sp : Spelling) (ip : Addr) : Prop where
  host : go.netip.parseAddr sp.host = some ip
  port : ∀ port, sp.port = some port → ∀ c ∈ port.toList, c.isDigit = true

/-- The zone is not blank, and next to a port it has no brackets of its own. -/
def Spelling.ZoneReads (sp : Spelling) : Addr → Prop
  | .v4 _ => True
  | .v6 _ zone => zone = "" ∨ (∃ c ∈ zone.toList, isSpace c = false) ∧
      (sp.port.isSome = true → '[' ∉ zone.toList ∧ ']' ∉ zone.toList)

/-- The address is shown without a zone; only a mapped IPv4 address can lose one. -/
def Spelling.Plain (sp : Spelling) (ip : Addr) : Prop := ip.unmap.hasZone = false ∧ sp.ZoneReads ip

def Firewall.manualDecision (go : Go) (f : Firewall) (now : Int) (remoteAddr : String)
    (port : Int) : Option Bool :=
  (f.firstMatch now (parseAddr go remoteAddr) port).map CompiledRule.allow

/-! ## Characters -/

variable {c : Char} {ip x : Addr} {go : Go} {sp : Spelling}

theorem toNat_of_isDigit (h : c.isDigit = true) : 48 ≤ c.toNat ∧ c.toNat ≤ 57 := by
  simp only [Char.isDigit, Bool.and_eq_true, decide_eq_true_eq] at h
  exact ⟨h.1, h.2⟩

theorem not_isSpace_of_isAddrChar (h : isAddrChar c = true) : isSpace c = false := by
  have hrange : 46 ≤ c.toNat ∧ c.toNat ≤ 102 := by
    simp only [isAddrChar, Bool.or_eq_true, Bool.and_eq_true, decide_eq_true_eq, beq_iff_eq] at h
    rcases h with (((h | h) | h) | rfl) | rfl
    · have hd := toNat_of_isDigit h
      omega
    · omega
    · omega
    · decide
    · decide
  simp only [isSpace, List.mem_cons, List.not_mem_nil, or_false, Bool.or_eq_false_iff,
    decide_eq_false_iff_not, Bool.and_eq_false_iff, not_or, not_le]
  omega

theorem PlainText.notMem {s : List Char} (h : PlainText s ip) (hc : isAddrChar c = false) :
    c ∉ s := by
  intro hmem
  have hchar := h.chars c hmem
  rw [hc] at hchar
  cases hchar

theorem notMem_of_digits {port : List Char} (h : ∀ c ∈ port, c.isDigit = true)
    (hc : c.isDigit = false) : c ∉ port := by
  intro hmem
  have hdigit := h c hmem
  rw [hc] at hdigit
  cases hdigit

/-! ## What the firewall reads -/

variable {s : String}

theorem source_of_split_none (h : splitHostPort ':' '[' ']' s.toList = none) :
    source go s = go.netip.parseAddr (trimSpace s) := by
  simp [source, h]

theorem source_of_split_some {host port : List Char}
    (h : splitHostPort ':' '[' ']' s.toList = some (host, port)) :
    source go s = go.netip.parseAddr (trimSpace (String.ofList host)) := by
  simp [source, h]

variable {host port : String}

theorem toList_joinHostPort_of_mem (h : ':' ∈ host.toList) :
    (joinHostPort host port).toList = '[' :: host.toList ++ ']' :: ':' :: port.toList := by
  simp [joinHostPort, h]

theorem toList_joinHostPort_of_notMem (h : ':' ∉ host.toList) :
    (joinHostPort host port).toList = host.toList ++ ':' :: port.toList := by
  simp [joinHostPort, h]

theorem splitHostPort_joinHostPort (hleft : '[' ∉ host.toList)
    (hright : ']' ∉ host.toList) (hport : ∀ c ∈ port.toList, c.isDigit = true) :
    splitHostPort ':' '[' ']' (joinHostPort host port).toList =
      some (host.toList, port.toList) := by
  have hpc : ':' ∉ port.toList := notMem_of_digits hport (by decide)
  have hpl : '[' ∉ port.toList := notMem_of_digits hport (by decide)
  have hpr : ']' ∉ port.toList := notMem_of_digits hport (by decide)
  by_cases hc : ':' ∈ host.toList
  · rw [toList_joinHostPort_of_mem hc,
      splitHostPort_bracketed (by decide) (by decide) (by decide) hpc hpl hpr]
    exact if_pos ⟨hleft, hright⟩
  · rw [toList_joinHostPort_of_notMem hc]
    exact splitHostPort_joined (by decide) hc hpc (by simp [hleft, hpl]) (by simp [hright, hpr])
      (by decide)

section Reading

theorem source_text (h : sp.Names go ip)
    (hcolons : ':' ∉ sp.host.toList ∨ 2 ≤ sp.host.toList.count ':')
    (hleft : sp.port.isSome = true → '[' ∉ sp.host.toList)
    (hright : sp.port.isSome = true → ']' ∉ sp.host.toList)
    (hhead : sp.host.toList.head? ≠ some '[') :
    source go sp.text = go.netip.parseAddr (trimSpace sp.host) := by
  cases hport : sp.port with
  | none =>
    have htext : sp.text = sp.host := by simp [Spelling.text, hport]
    rw [htext]
    apply source_of_split_none
    rcases hcolons with hno | htwo
    · exact splitHostPort_of_notMem hno
    · exact splitHostPort_of_count hhead htwo
  | some port =>
    have htext : sp.text = joinHostPort sp.host port := by simp [Spelling.text, hport]
    rw [hport] at hleft hright
    have hsplit : splitHostPort ':' '[' ']' sp.text.toList =
        some (sp.host.toList, port.toList) := by
      rw [htext]
      exact splitHostPort_joinHostPort (hleft rfl) (hright rfl) (h.port port hport)
    rw [source_of_split_some hsplit, String.ofList_toList] 

theorem PlainText.colons_cases {s : List Char} (h : PlainText s ip) :
    ':' ∉ s ∨ 2 ≤ s.count ':' := by
  have hcolons := h.colons
  by_cases hlen : ip.bitLen = 32
  · exact .inl (by simpa [hlen] using hcolons)
  · exact .inr (by simpa [hlen] using hcolons)

variable (hparse : ParsesAddr go.netip.parseAddr)

include hparse

theorem source_text_plain (h : sp.Names go ip)
    (hplain : PlainText sp.host.toList ip) : source go sp.text = some ip := by
  have htrim : trimSpace sp.host = sp.host := by
    rw [trimSpace, trim_of_forall fun c hc => not_isSpace_of_isAddrChar (hplain.chars c hc),
      String.ofList_toList]
  rw [source_text h (PlainText.colons_cases hplain)
    (fun _ => PlainText.notMem hplain (by decide)) (fun _ => PlainText.notMem hplain (by decide))
    (hparse.head_ne h.host), htrim, h.host]

variable {a : BitVec 128} {body zone : List Char}

theorem parseAddr_trimSpace_zone (hhost : host.toList = body ++ '%' :: zone)
    (hbody : '%' ∉ body) (hplain : PlainText body (.v6 a ""))
    (hread : go.netip.parseAddr (String.ofList body) = some (.v6 a "")) :
    go.netip.parseAddr (trimSpace host) = if (zone.reverse.dropWhile isSpace).reverse = [] then none
      else some (.v6 a (String.ofList (zone.reverse.dropWhile isSpace).reverse)) := by
  rw [trimSpace, hhost, trim_append_cons
    (fun c hc => not_isSpace_of_isAddrChar (hplain.chars c hc)) (by decide), hparse.zone _ _ hbody,
    hread]

theorem source_text_of_bracket (h : sp.Names go ip)
    (hport : sp.port = some port) (hcolon : ':' ∈ sp.host.toList)
    (hin : ¬ ('[' ∉ sp.host.toList ∧ ']' ∉ sp.host.toList)) : source go sp.text = none := by
  have hdigits := h.port port hport
  have htext : sp.text.toList = '[' :: sp.host.toList ++ ']' :: ':' :: port.toList := by
    simp only [Spelling.text, hport]
    exact toList_joinHostPort_of_mem hcolon
  have hsplit : splitHostPort ':' '[' ']' sp.text.toList = none := by
    rw [htext, splitHostPort_bracketed (by decide) (by decide) (by decide)
      (notMem_of_digits hdigits (by decide)) (notMem_of_digits hdigits (by decide))
      (notMem_of_digits hdigits (by decide))]
    exact if_neg hin
  rw [source_of_split_none hsplit]
  cases hp : go.netip.parseAddr (trimSpace sp.text) with
  | none => rfl
  | some x =>
    apply absurd _ (hparse.head_ne hp)
    have htrim : trim isSpace sp.text.toList =
        [] ++ '[' :: ((sp.host.toList ++ ']' :: ':' :: port.toList).reverse.dropWhile
          isSpace).reverse := by
      rw [htext]
      exact trim_append_cons (fun b hb => absurd hb List.not_mem_nil)
        (show isSpace '[' = false by decide) _
    simp [trimSpace, htrim]

theorem source_text_zone (hhost : sp.host.toList = body ++ '%' :: zone) (hbody : '%' ∉ body)
    (hplain : PlainText body (.v6 a ""))
    (hread : go.netip.parseAddr (String.ofList body) = some (.v6 a "")) (hne : zone ≠ [])
    (h : sp.Names go (.v6 a (String.ofList zone))) : (sp.ZoneReads (.v6 a (String.ofList zone)) ∧
        ∃ z, z ≠ "" ∧ source go sp.text = some (.v6 a z)) ∨
      ¬ sp.ZoneReads (.v6 a (String.ofList zone)) ∧ source go sp.text = none := by
  have hne' : ¬ String.ofList zone = "" := by
    intro he
    exact hne (by simpa using congrArg String.toList he)
  have hcount : 2 ≤ sp.host.toList.count ':' := by
    have hc : 2 ≤ body.count ':' := by simpa [Addr.bitLen] using hplain.colons
    rw [hhost, List.count_append]
    omega
  have hmem : ∀ c, isAddrChar c = false → c ≠ '%' → (c ∈ sp.host.toList ↔ c ∈ zone) := by
    intro c hc hp
    rw [hhost]
    simp [hp, PlainText.notMem hplain hc]
  have hzoneText := parseAddr_trimSpace_zone hparse hhost hbody hplain hread
  by_cases hbrackets : sp.port.isSome = true → '[' ∉ zone ∧ ']' ∉ zone
  · rw [source_text h (.inr hcount)
      (fun hp => by rw [hmem '[' (by decide) (by decide)]; exact (hbrackets hp).1)
      (fun hp => by rw [hmem ']' (by decide) (by decide)]; exact (hbrackets hp).2)
      (hparse.head_ne h.host), hzoneText]
    have hblank : (zone.reverse.dropWhile isSpace).reverse = [] ↔
        ¬ ∃ c ∈ zone, isSpace c = false := by
      simp [List.dropWhile_eq_nil_iff]
    by_cases hnil : (zone.reverse.dropWhile isSpace).reverse = []
    · refine .inr ⟨fun hr => ?_, if_pos hnil⟩
      rcases hr with hr | ⟨hr, -⟩
      · exact hne' hr
      · exact hblank.1 hnil (by simpa using hr)
    · have hzone : ∃ c ∈ zone, isSpace c = false := not_not.1 fun h => hnil (hblank.2 h)
      refine .inl ⟨.inr ⟨by simpa using hzone, by simpa using hbrackets⟩, _, ?_, if_neg hnil⟩
      intro he
      exact hnil (by simpa using congrArg String.toList he)
  · refine .inr ⟨fun hr => ?_, ?_⟩
    · rcases hr with hr | ⟨-, hr⟩
      · exact hne' hr
      · exact hbrackets (by simpa using hr)
    · obtain ⟨hsome, hin⟩ := Classical.not_imp.1 hbrackets
      obtain ⟨port, hport⟩ := Option.isSome_iff_exists.1 hsome
      apply source_text_of_bracket hparse h hport (List.count_pos_iff.1 (by omega))
      rwa [hmem '[' (by decide) (by decide), hmem ']' (by decide) (by decide)]

end Reading

/-! ## Decisions -/

theorem parseAddr_of_plain (hparse : ParsesAddr go.netip.parseAddr) (h : sp.Names go ip)
    (hplain : sp.Plain ip) : parseAddr go sp.text = some ip.unmap := by
  rw [parseAddr_eq]
  rcases hparse.cases h.host with ht | ⟨body, zone, a, hhost, hbody, hne, ht, hread, rfl⟩
  · rw [source_text_plain hparse h ht, Option.map_some]
  · rcases source_text_zone hparse hhost hbody ht hread hne h with ⟨-, z, -, hs⟩ | ⟨hno, -⟩
    · rw [hs, Option.map_some]
      congr 1
      -- an address that has a zone and is shown without one is in the IPv6 form of IPv4
      by_cases hmapped : (Addr.v6 a z).is4In6 = true
      · exact (if_pos hmapped).trans (if_pos hmapped).symm
      · have hun : (Addr.v6 a (String.ofList zone)).unmap = .v6 a (String.ofList zone) :=
          if_neg hmapped
        have hz := hplain.1
        rw [hun] at hz
        have hnil : String.ofList zone = "" := by simpa [Addr.hasZone] using hz
        exact absurd (by simpa using congrArg String.toList hnil) hne
    · exact absurd hplain.2 hno

theorem parseAddr_of_not_plain (hparse : ParsesAddr go.netip.parseAddr) (h : sp.Names go ip)
    (hplain : ¬ sp.Plain ip) : ∀ x, parseAddr go sp.text = some x → x.hasZone = true := by
  intro x hx
  rw [parseAddr_eq] at hx
  rcases hparse.cases h.host with ht | ⟨body, zone, a, hhost, hbody, hne, ht, hread, rfl⟩
  · apply absurd _ hplain
    cases ip with
    | v4 b => exact ⟨rfl, trivial⟩
    | v6 b z =>
      have hz : z = "" := by simpa [Addr.hasZone] using ht.noZone
      refine ⟨?_, .inl hz⟩
      rcases (Addr.v6 b z).unmap_cases with ⟨c, hc, -⟩ | ⟨c, zone, -, hun, -⟩
      · rw [hc]
        rfl
      · rw [hun, hz]
        rfl
  · rcases source_text_zone hparse hhost hbody ht hread hne h with ⟨hreads, z, hz, hs⟩ | ⟨-, hs⟩
    · rw [hs, Option.map_some, Option.some.injEq] at hx
      by_cases hmapped : (Addr.v6 a z).is4In6 = true
      · have hun : (Addr.v6 a (String.ofList zone)).unmap = .v4 (a.setWidth 32) := if_pos hmapped
        exact absurd ⟨by rw [hun]; rfl, hreads⟩ hplain
      · have hun : (Addr.v6 a z).unmap = .v6 a z := if_neg hmapped
        rw [← hx, hun]
        simpa [Addr.hasZone] using hz
    · rw [hs] at hx
      cases hx

theorem contains_hasZone {p : Prefix} (h : x.hasZone = true) : p.contains x = false := by
  cases x with
  | v4 a => cases h
  | v6 a zone =>
    have hz : (zone == "") = false := by simpa [Addr.hasZone] using h
    cases hp : p.addr <;> simp [Prefix.contains, hp, hz]

theorem firstMatch_of_hasZone (f : Firewall) (now port : Int) {ip : Option Addr}
    (h : ∀ x, ip = some x → x.hasZone = true) :
    f.firstMatch now ip port = f.firstMatch now none port := by
  have hsource : ∀ s : Source, s.contains ip = s.contains none := by
    intro s
    cases s with
    | any | never => rfl
    | network p =>
      cases ip with
      | none => rfl
      | some x => simp [Source.contains, contains_hasZone (h x rfl)]
  simp only [Firewall.firstMatch, CompiledRule.matches, hsource]

variable {y : Addr}

theorem unmap_eq_of_to16 (h : x.to16 = y.to16) (hx : x.unmap.hasZone = false)
    (hy : y.unmap.hasZone = false) : x.unmap = y.unmap := by
  have hfamily : x.IsV4 ↔ y.IsV4 := by rw [x.isV4_iff, y.isV4_iff, h]
  have h16 : x.unmap.to16 = y.unmap.to16 := by rw [Addr.to16_unmap, Addr.to16_unmap, h]
  rcases x.unmap_cases with ⟨a, ha, hxv⟩ | ⟨a, z, hxz, hux, hxv⟩
  · rcases y.unmap_cases with ⟨b, hb, -⟩ | ⟨b, z, -, -, hyv⟩
    · rw [ha, hb] at h16 ⊢
      have hab : a = b := by
        apply BitVec.eq_of_toNat_eq
        have hn := congrArg BitVec.toNat h16
        simp only [Addr.to16, Addr.toNat_mapped] at hn
        omega
      rw [hab]
    · exact absurd (hfamily.1 hxv) hyv
  · rcases y.unmap_cases with ⟨b, hb, hyv⟩ | ⟨b, z', hyz, huy, -⟩
    · exact absurd (hfamily.2 hyv) hxv
    · rw [hux] at hx h16 ⊢
      rw [huy] at hy h16 ⊢
      rw [hxz] at hx h16 ⊢
      rw [hyz] at hy h16 ⊢
      have hz : z = "" := by simpa [Addr.hasZone] using hx
      have hz' : z' = "" := by simpa [Addr.hasZone] using hy
      have hab : a = b := h16
      rw [hz, hz', hab]

theorem exists_plainText (hparse : ParsesAddr go.netip.parseAddr) (h : sp.Names go ip) :
    ∃ (w : String) (x : Addr), go.netip.parseAddr w = some x ∧ PlainText w.toList x ∧
      x.to16 = ip.to16 := by
  rcases hparse.cases h.host with ht | ⟨body, zone, a, -, -, -, ht, hread, rfl⟩
  · exact ⟨sp.host, ip, h.host, ht, rfl⟩
  · exact ⟨String.ofList body, .v6 a "", hread, by simpa using ht, rfl⟩

def denyAddr (w : String) : Rule := ⟨"", "deny", w, "", "", 0⟩

theorem firstMatch_denyAddr {w : String} (hw : go.netip.parseAddr w = some x)
    (ht : PlainText w.toList x) (f : Firewall) (now port : Int) :
    let g := { f with rules := compileRules go [denyAddr w] }
    g.firstMatch now none port = none ∧
      ∀ a : Addr, a.hasZone = false → x.to16 = a.to16 →
        (g.firstMatch now (some a.unmap) port).map CompiledRule.allow = some false := by
  have htrim : trimSpace w = w := by
    rw [trimSpace, trim_of_forall fun c hc => not_isSpace_of_isAddrChar (ht.chars c hc),
      String.ofList_toList]
  have hall : ¬ (trimSpace w = "" ∨ trimSpace w = "*") := by
    rw [htrim]
    intro h
    rcases h with h | h
    · exact ht.nonempty (by simp [h])
    · apply PlainText.notMem ht (show isAddrChar '*' = false by decide)
      simp [h]
  have hslash : '/' ∉ (trimSpace w).toList := by
    rw [htrim]
    exact PlainText.notMem ht (by decide)
  have hparse : go.netip.parseAddr (trimSpace w) = some x := by rw [htrim, hw]
  obtain ⟨q, hq, -, -⟩ := compileSource_address hall hslash hparse
  have hports : compilePorts "" = none := by decide
  have hmatch : ∀ ip, (compileRule go (denyAddr w) 0).matches ip port =
      (Source.network q).contains ip := by
    intro ip
    simp [CompiledRule.matches, compileRule, denyAddr, hq, hports]
  have hlive : (compileRule go (denyAddr w) 0).expired now = false := rfl
  have hrules : compileRules go [denyAddr w] = [compileRule go (denyAddr w) 0] := rfl
  constructor
  · simp [Firewall.firstMatch, hrules, hmatch, hlive, Source.contains]
  · intro a hzone hsame
    have hin : (Source.network q).contains (some a.unmap) = true := by
      have hdenotes : CidrDenotes go w (some a) := .address x a hslash hparse rfl hsame
      have hzones : ∀ b, some a = some b → b.hasZone = false := by
        intro b hb
        cases hb
        exact hzone
      rw [← hq]
      exact (contains_compileSource_iff go w hzones).2 hdenotes
    have hdeny : (compileRule go (denyAddr w) 0).allow = false := by
      show equalFoldAscii (trimSpace "deny") "allow" = false
      decide
    simp [Firewall.firstMatch, hrules, hmatch, hlive, hin, hdeny]

theorem exists_manualDecision_ne (hparse : ParsesAddr go.netip.parseAddr) {s t : Spelling}
    (hs : s.Names go x) (ht : t.Names go y) (hx : s.Plain x) (hy : ¬ t.Plain y) :
    ∃ g : Firewall, g.manualDecision go 0 s.text 0 ≠ g.manualDecision go 0 t.text 0 := by
  obtain ⟨w, a, hw, hplain, hsame⟩ := exists_plainText hparse hs
  obtain ⟨hnone, hdenied⟩ := firstMatch_denyAddr hw hplain openFirewall 0 0
  refine ⟨{ openFirewall with rules := compileRules go [denyAddr w] }, ?_⟩
  have hleft := hdenied x.unmap hx.1 (by rw [Addr.to16_unmap, hsame])
  rw [Addr.unmap_unmap] at hleft
  rw [Firewall.manualDecision, Firewall.manualDecision, parseAddr_of_plain hparse hs hx, hleft,
    firstMatch_of_hasZone _ _ _ (parseAddr_of_not_plain hparse ht hy), hnone]
  simp

/-- Two spellings of one address get the same decision from all rules iff both are shown to the
rules without a zone or neither is. -/
theorem same_decision_iff (go : Go) (hparse : ParsesAddr go.netip.parseAddr) (s t : Spelling)
    (x y : Addr) (hs : s.Names go x) (ht : t.Names go y) (hsame : x.to16 = y.to16) :
    (∀ (f : Firewall) (now port : Int),
        f.manualDecision go now s.text port = f.manualDecision go now t.text port) ↔
      (s.Plain x ↔ t.Plain y) := by
  constructor
  · intro hall
    constructor
    · intro hx
      by_contra hy
      obtain ⟨g, hg⟩ := exists_manualDecision_ne hparse hs ht hx hy
      exact hg (hall g 0 0)
    · intro hy
      by_contra hx
      obtain ⟨g, hg⟩ := exists_manualDecision_ne hparse ht hs hy hx
      exact hg (hall g 0 0).symm
  · intro hiff f now port
    by_cases hx : s.Plain x
    · have hy := hiff.1 hx
      rw [Firewall.manualDecision, Firewall.manualDecision, parseAddr_of_plain hparse hs hx,
        parseAddr_of_plain hparse ht hy, unmap_eq_of_to16 hsame hx.1 hy.1]
    · have hy : ¬ t.Plain y := fun h => hx (hiff.2 h)
      rw [Firewall.manualDecision, Firewall.manualDecision,
        firstMatch_of_hasZone _ _ _ (parseAddr_of_not_plain hparse hs hx),
        firstMatch_of_hasZone _ _ _ (parseAddr_of_not_plain hparse ht hy)]

/-! ## A link-local peer -/

def linkTable (s : List Char) : Option Addr :=
  if s = "fe80::1".toList then some (.v6 0xfe800000000000000000000000000001#128 "")
  else if s = "10.0.0.7".toList then some (.v4 0x0a000007#32)
  else if s = "::ffff:10.0.0.7".toList then some (.v6 (0xffff#96 ++ 0x0a000007#32) "")
  else none

def tableParser (table : List Char → Option Addr) (s : String) : Option Addr :=
  match cut '%' s.toList with
  | (body, none) => table body
  | (body, some zone) =>
      match table body with
      | some (.v6 a _) => if zone = [] then none else some (.v6 a (String.ofList zone))
      | _ => none

theorem parsesAddr_tableParser {table : List Char → Option Addr}
    (h : ∀ s ip, table s = some ip → PlainText s ip) : ParsesAddr (tableParser table) where
  plain := by
    intro s ip hno hread
    apply h
    simpa [tableParser, cut_of_notMem hno] using hread
  zone := by
    intro s zone hno
    have hcut : cut '%' (s ++ '%' :: zone) = (s, some zone) := cut_append hno
    cases hread : table s with
    | none => simp [tableParser, hcut, cut_of_notMem hno, hread]
    | some x =>
      cases x with
      | v4 | v6 => simp [tableParser, hcut, cut_of_notMem hno, hread]

def linkGo : Go where
  netip :=
    { parseAddr := tableParser linkTable
      parsePrefix := fun s =>
        if s = "fe80::/10" then
          some ⟨.v6 0xfe800000000000000000000000000000#128 "", 10, rfl, by decide⟩
        else none
      addrString := fun _ => "" }
  letters := asciiCase

theorem parsesAddr_linkGo : ParsesAddr linkGo.netip.parseAddr := by
  apply parsesAddr_tableParser
  intro s ip h
  unfold linkTable at h
  split_ifs at h with h₁ h₂ h₃
  · cases h
    rw [h₁]
    exact ⟨List.all_eq_true.1 (by decide), by decide, rfl, by decide⟩
  · cases h
    rw [h₂]
    exact ⟨List.all_eq_true.1 (by decide), by decide, rfl, by decide⟩
  · cases h
    rw [h₃]
    exact ⟨List.all_eq_true.1 (by decide), by decide, rfl, by decide⟩

/-- The plain and the mapped spelling of one IPv4 address, the second with a port. -/
theorem same_decision_iff_mapped :
    Spelling.text ⟨"::ffff:10.0.0.7", some "5555"⟩ = "[::ffff:10.0.0.7]:5555" ∧
      ∀ (f : Firewall) (now port : Int), f.manualDecision linkGo now "10.0.0.7" port =
          f.manualDecision linkGo now "[::ffff:10.0.0.7]:5555" port := by
  have htext : Spelling.text ⟨"::ffff:10.0.0.7", some "5555"⟩ = "[::ffff:10.0.0.7]:5555" := by
    decide +kernel
  have hplain : Spelling.Names linkGo ⟨"10.0.0.7", none⟩ (.v4 0x0a000007#32) :=
    ⟨by decide +kernel, by simp⟩
  have hmapped : Spelling.Names linkGo ⟨"::ffff:10.0.0.7", some "5555"⟩
      (.v6 (0xffff#96 ++ 0x0a000007#32) "") :=
    ⟨by decide +kernel, by
      intro port hport
      cases hport
      exact List.all_eq_true.1 (by decide)⟩
  refine ⟨htext, ?_⟩
  rw [← htext]
  refine (same_decision_iff linkGo parsesAddr_linkGo ⟨"10.0.0.7", none⟩
    ⟨"::ffff:10.0.0.7", some "5555"⟩ _ _ hplain hmapped rfl).2 ?_
  exact iff_of_true ⟨rfl, trivial⟩ ⟨by decide, .inl rfl⟩

def denyLinkLocal : Firewall :=
  { openFirewall with rules := compileRules linkGo [⟨"", "deny", "fe80::/10", "", "", 0⟩] }

/-- With its zone the peer is not met by the rule that denies it without. -/
theorem zone_escapes_deny :
    Spelling.Names linkGo ⟨"fe80::1", none⟩ (.v6 0xfe800000000000000000000000000001#128 "") ∧
      Spelling.Names linkGo ⟨"fe80::1%eth0", some "5555"⟩
        (.v6 0xfe800000000000000000000000000001#128 "eth0") ∧
      Spelling.text ⟨"fe80::1%eth0", some "5555"⟩ = "[fe80::1%eth0]:5555" ∧
      denyLinkLocal.manualDecision linkGo 100 "fe80::1" 7000 = some false ∧
      denyLinkLocal.manualDecision linkGo 100 "[fe80::1%eth0]:5555" 7000 = none ∧
      (denyLinkLocal.allow linkGo ⟨100, fun _ _ => (false, "")⟩ "[fe80::1%eth0]:5555" 7000).1 =
        true := by
  refine ⟨⟨by decide +kernel, by simp⟩, ⟨by decide +kernel, ?_⟩, by decide +kernel,
    by decide +kernel, by decide +kernel, by decide +kernel⟩
  intro port hport
  cases hport
  exact List.all_eq_true.1 (by decide)

end FrpMeo.Server.Firewall
