import FrpMeo.Server.Firewall

/-!
# The decision of the firewall, from the texts of its rules

A reference for `Allow` (`server/firewall/firewall.go`) without compiled rules: what a CIDR text and
a port text stand for, when a rule decides about a connection, and what follows when none does. An
IPv4 address is the same in its plain and its `::ffff:` form.
-/

set_option linter.dupNamespace false

namespace FrpMeo.Server.Firewall

open Lib.Text Lib.Netip

/-! ## What the texts of a rule stand for -/

/-- The address a peer's text names, in the form it was written in; `none` if it names none. -/
def source (go : Go) (remoteAddr : String) : Option Addr :=
  let host := ((splitHostPort ':' '[' ']' remoteAddr.toList).map fun hp => String.ofList hp.1).getD
    remoteAddr
  go.netip.parseAddr (trimSpace host)

theorem parseAddr_eq (go : Go) (remoteAddr : String) :
    parseAddr go remoteAddr = (source go remoteAddr).map Addr.unmap := rfl

/-- A CIDR text that parses neither as a network nor as an address stands for none. -/
inductive CidrDenotes (go : Go) (text : String) (ip : Option Addr) : Prop where
  | all (h : trimSpace text = "" ∨ trimSpace text = "*")
  | network (p : Prefix) (a : Addr) (hslash : '/' ∈ (trimSpace text).toList)
      (hparse : go.netip.parsePrefix (trimSpace text) = some p) (hip : ip = some a)
      (hin : p.Denotes a)
  | address (x a : Addr) (hslash : '/' ∉ (trimSpace text).toList)
      (hparse : go.netip.parseAddr (trimSpace text) = some x) (hip : ip = some a)
      (hsame : x.to16 = a.to16)

def PortText (s : String) (n : Int) : Prop := atoi (trimSpace s) = some n ∧ 0 ≤ n ∧ n ≤ 65535

inductive EntryNames (entry : String) (port : Int) : Prop where
  | number (hdash : '-' ∉ (trimSpace entry).toList) (hport : PortText (trimSpace entry) port)
  | range (before after : List Char) (lo hi : Int)
      (hentry : (trimSpace entry).toList = before ++ '-' :: after) (hdash : '-' ∉ before)
      (hbefore : PortText (String.ofList before) lo) (hafter : PortText (String.ofList after) hi)
      (hlo : lo ≤ port) (hhi : port ≤ hi)

def PortTextNames (text : String) (port : Int) : Prop :=
  (trimSpace text = "" ∨ trimSpace text = "*" ∨ equalFoldAscii (trimSpace text) "all" = true) ∨
    ∃ entry ∈ split ',' (trimSpace text).toList, EntryNames (String.ofList entry) port

structure Decides (go : Go) (now : Int) (ip : Option Addr) (port : Int) (r : Rule) : Prop where
  live : r.expiresAt = 0 ∨ now < r.expiresAt
  source : CidrDenotes go r.cidr ip
  ports : PortTextNames r.port port

/-- The action of a rule; every text but `allow` denies. -/
def Rule.Allows (r : Rule) : Prop := equalFoldAscii (trimSpace r.action) "allow" = true

inductive FirstDeciding (decides : Rule → Prop) : List Rule → Rule → Prop where
  | here {r : Rule} {rules : List Rule} (h : decides r) : FirstDeciding decides (r :: rules) r
  | later {q r : Rule} {rules : List Rule} (hq : ¬ decides q)
      (h : FirstDeciding decides rules r) : FirstDeciding decides (q :: rules) r

def Firewall.ProviderBlocks (go : Go) (f : Firewall) (m : Moment) (ip : Option Addr)
    (port : Int) : Prop :=
  ∃ a, ip = some a ∧ f.asksProvider go a.unmap port = true ∧
    (m.checkExternal (go.netip.addrString a.unmap) f.provider.effective).1 = true

/-- The reference: the first rule that decides, else the provider, else the default policy. -/
inductive ReferenceAllows (go : Go) (f : Firewall) (rules : List Rule) (m : Moment)
    (ip : Option Addr) (port : Int) : Prop where
  | rule (r : Rule) (hfirst : FirstDeciding (Decides go m.now ip port) rules r)
      (hallows : r.Allows)
  | default (hnone : ∀ r ∈ rules, ¬ Decides go m.now ip port r)
      (hprovider : ¬ f.ProviderBlocks go m ip port) (hdefault : f.defaultPolicy = "allow")

/-! ## Networks -/

variable {go : Go} {text entry : String} {ip : Option Addr}

section

variable (hall : ¬ (trimSpace text = "" ∨ trimSpace text = "*"))

include hall

theorem compileSource_network {p : Prefix} (hslash : '/' ∈ (trimSpace text).toList)
    (hparse : go.netip.parsePrefix (trimSpace text) = some p) :
    ∃ q : Prefix, compileSource go text = .network q.masked ∧
      (q = p ∧ ¬ (p.addr.is4In6 = true ∧ 96 ≤ p.bits) ∨
        (p.addr.is4In6 = true ∧ 96 ≤ p.bits) ∧ q.addr = p.addr.unmap ∧ q.bits = p.bits - 96) := by
  simp only [compileSource, hall, if_false, hslash, if_true, hparse]
  by_cases hmapped : p.addr.is4In6 = true ∧ 96 ≤ p.bits
  · have hfits := p.fits
    cases hp : p.addr with
    | v4 x =>
      rw [hp] at hmapped
      simp [Addr.is4In6] at hmapped
    | v6 x z =>
      rw [hp] at hmapped hfits
      have hun : (Addr.v6 x z).unmap = .v4 (x.setWidth 32) := if_pos hmapped.1
      have hlen : p.bits - 96 ≤ 32 := by
        have hbits : p.bits ≤ 128 := hfits
        omega
      have hof : Prefix.ofAddr (.v4 (x.setWidth 32)) (p.bits - 96) =
          some ⟨.v4 (x.setWidth 32), p.bits - 96, rfl, hlen⟩ := dif_pos hlen
      rw [if_pos hmapped, hun, hof]
      exact ⟨_, rfl, .inr ⟨hmapped, rfl, rfl⟩⟩
  · rw [if_neg hmapped]
    exact ⟨p, rfl, .inl ⟨rfl, hmapped⟩⟩

omit hall in
theorem contains_iff_denotes {p q : Prefix} {a : Addr} (hzone : a.hasZone = false)
    (h : q = p ∧ ¬ (p.addr.is4In6 = true ∧ 96 ≤ p.bits) ∨
      (p.addr.is4In6 = true ∧ 96 ≤ p.bits) ∧ q.addr = p.addr.unmap ∧ q.bits = p.bits - 96) :
    q.masked.contains a.unmap = true ↔ p.Denotes a := by
  rw [Prefix.contains_masked]
  rcases h with ⟨rfl, hmapped⟩ | ⟨hmapped, haddr, hbits⟩
  · cases hq : q.addr with
    | v4 x =>
      have hv4 : q.InV4 := .inl (by rw [hq]; rfl)
      have hlen : q.bits16 = 96 + q.bits := by simp [Prefix.bits16, hq, Addr.bitLen, Nat.add_comm]
      rw [Prefix.contains_unmap_v4_iff hq, Prefix.Denotes, hlen, iff_true_left hv4, hq]
      rfl
    | v6 x z =>
      have hv6 : ¬ q.InV4 := by
        intro hin
        rcases hin with hlen | hin
        · simp [hq, Addr.bitLen] at hlen
        · exact hmapped hin
      have hlen : q.bits16 = q.bits := by simp [Prefix.bits16, hq, Addr.bitLen]
      rw [Prefix.contains_unmap_v6_iff hq hzone, Prefix.Denotes, hlen, iff_false_left hv6, hq]
      rfl
  · cases hp : p.addr with
    | v4 x =>
      rw [hp] at hmapped
      simp [Addr.is4In6] at hmapped
    | v6 x z =>
      have hv4 : p.InV4 := .inr hmapped
      rw [hp] at hmapped haddr
      have hq : q.addr = .v4 (x.setWidth 32) := haddr.trans (if_pos hmapped.1)
      -- in 16-byte form the two networks are one: the first 96 bits are those of `::ffff:0:0`
      have hlen : 96 + q.bits = p.bits16 := by
        rw [hbits]
        simp only [Prefix.bits16, hp, Addr.bitLen]
        omega
      rw [Prefix.contains_unmap_v4_iff hq, Prefix.Denotes, hlen, iff_true_left hv4, hp,
        ← (Addr.is4In6_iff x z).1 hmapped.1]
      rfl

theorem compileSource_address {x : Addr} (hslash : '/' ∉ (trimSpace text).toList)
    (hparse : go.netip.parseAddr (trimSpace text) = some x) :
    ∃ q : Prefix, compileSource go text = .network q ∧ q.addr = x.unmap.withoutZone ∧
      q.bits = x.unmap.withoutZone.bitLen := by
  have hlen : x.unmap.bitLen = x.unmap.withoutZone.bitLen := by cases x.unmap <;> rfl
  have hof : Prefix.ofAddr x.unmap x.unmap.bitLen =
      some ⟨x.unmap.withoutZone, x.unmap.bitLen, by simp, hlen.le⟩ := dif_pos hlen.le
  simp only [compileSource, hall, if_false, hslash, hparse, hof]
  exact ⟨_, rfl, rfl, hlen⟩

omit hall in
theorem contains_address_iff {q : Prefix} {x a : Addr} (hzone : a.hasZone = false)
    (haddr : q.addr = x.unmap.withoutZone) (hbits : q.bits = x.unmap.withoutZone.bitLen) :
    q.contains a.unmap = true ↔ x.to16 = a.to16 := by
  have hall : ∀ y z : BitVec 128, Agree 128 y z ↔ y = z := by
    intro y z
    constructor
    · exact fun h => BitVec.eq_of_getMsbD_eq h
    · intro h i _
      rw [h]
  -- the two forms of an IPv4 address are one in 16 bytes, so the family follows from them
  have hfamily : x.to16 = a.to16 → (x.IsV4 ↔ a.IsV4) := by
    intro h
    rw [x.isV4_iff, a.isV4_iff, h]
  rcases x.unmap_cases with ⟨b, hb, hv4⟩ | ⟨b, zone, hx, hb, hv6⟩
  · have h16 : x.to16 = 0xffff#96 ++ b := by
      rw [← Addr.to16_unmap, hb]
      rfl
    rw [hb] at haddr hbits
    have hlen : 96 + q.bits = 128 := by
      rw [hbits]
      rfl
    rw [Prefix.contains_unmap_v4_iff haddr, hlen, hall, ← h16]
    exact ⟨fun h => h.2, fun h => ⟨(hfamily h).1 hv4, h⟩⟩
  · rw [hb, hx] at haddr hbits
    have hlen : q.bits = 128 := hbits
    have h16 : x.to16 = b := by
      rw [hx]
      rfl
    rw [Prefix.contains_unmap_v6_iff haddr hzone, hlen, hall, ← h16]
    exact ⟨fun h => h.2, fun h => ⟨fun ha => hv6 ((hfamily h).2 ha), h⟩⟩

theorem cidrDenotes_network_iff (hslash : '/' ∈ (trimSpace text).toList) : CidrDenotes go text ip ↔
      ∃ p a, go.netip.parsePrefix (trimSpace text) = some p ∧ ip = some a ∧ p.Denotes a := by
  constructor
  · intro h
    cases h with
    | all h => exact absurd h hall
    | network p a _ hparse hip hin => exact ⟨p, a, hparse, hip, hin⟩
    | address x a hno => exact absurd hslash hno
  · intro h
    obtain ⟨p, a, hparse, hip, hin⟩ := h
    exact .network p a hslash hparse hip hin

theorem cidrDenotes_address_iff (hslash : '/' ∉ (trimSpace text).toList) : CidrDenotes go text ip ↔
      ∃ x a, go.netip.parseAddr (trimSpace text) = some x ∧ ip = some a ∧ x.to16 = a.to16 := by
  constructor
  · intro h
    cases h with
    | all h => exact absurd h hall
    | network p a hyes => exact absurd hyes hslash
    | address x a _ hparse hip hsame => exact ⟨x, a, hparse, hip, hsame⟩
  · intro h
    obtain ⟨x, a, hparse, hip, hsame⟩ := h
    exact .address x a hslash hparse hip hsame

end

theorem contains_compileSource_iff (go : Go) (text : String)
    (hzone : ∀ a, ip = some a → a.hasZone = false) :
    (compileSource go text).contains (ip.map Addr.unmap) = true ↔ CidrDenotes go text ip := by
  by_cases hall : trimSpace text = "" ∨ trimSpace text = "*"
  · simp only [compileSource, hall, if_true, Source.contains, true_iff]
    exact .all hall
  by_cases hslash : '/' ∈ (trimSpace text).toList
  · rw [cidrDenotes_network_iff hall hslash]
    cases hparse : go.netip.parsePrefix (trimSpace text) with
    | none => simp [compileSource, hall, hslash, hparse, Source.contains]
    | some p =>
      obtain ⟨q, hq, hqp⟩ := compileSource_network hall hslash hparse
      rw [hq]
      cases ip with
      | none => simp [Source.contains]
      | some a => simpa [Source.contains] using contains_iff_denotes (hzone a rfl) hqp
  · rw [cidrDenotes_address_iff hall hslash]
    cases hparse : go.netip.parseAddr (trimSpace text) with
    | none => simp [compileSource, hall, hslash, hparse, Source.contains]
    | some x =>
      obtain ⟨q, hq, haddr, hbits⟩ := compileSource_address hall hslash hparse
      rw [hq]
      cases ip with
      | none => simp [Source.contains]
      | some a => simpa [Source.contains] using contains_address_iff (hzone a rfl) haddr hbits

/-! ## Ports -/

theorem parsePort_iff {s : String} {n : Int} : parsePort s = some n ↔ PortText s n := by
  unfold parsePort PortText
  cases h : atoi (trimSpace s) with
  | none => simp
  | some k =>
    by_cases hk : k < 0 ∨ 65535 < k
    · simp only [hk, if_true, Option.some.injEq]
      constructor
      · intro h
        cases h
      · intro h
        omega
    · simp only [hk, if_false, Option.some.injEq]
      omega

section

variable (hempty : trimSpace entry ≠ "")

include hempty

theorem parsePortRange_of_dash {before after : List Char}
    (hentry : (trimSpace entry).toList = before ++ '-' :: after) (hbefore : '-' ∉ before) :
    parsePortRange entry = match parsePort (String.ofList before) with
      | none => none
      | some lo => match parsePort (String.ofList after) with
        | none => none
        | some hi => if hi < lo then none else some ⟨lo, hi⟩ := by
  have hcut : cut '-' (before ++ '-' :: after) = (before, some after) := cut_append hbefore
  cases hlo : parsePort (String.ofList before) with
  | none => simp [parsePortRange, hempty, hentry, hcut, hlo]
  | some lo =>
    cases hhi : parsePort (String.ofList after) with
    | none | some => simp [parsePortRange, hempty, hentry, hcut, hlo, hhi]

theorem parsePortRange_of_noDash (hdash : '-' ∉ (trimSpace entry).toList) :
    parsePortRange entry = match parsePort (trimSpace entry) with
      | none => none
      | some lo => some ⟨lo, lo⟩ := by
  cases hport : parsePort (trimSpace entry) with
  | none | some => simp [parsePortRange, hempty, cut_of_notMem hdash, hport]

omit hempty in
theorem not_entryNames_of_empty (hempty : trimSpace entry = "") (port : Int) :
    ¬ EntryNames entry port := by
  intro h
  cases h with
  | number _ hport =>
    have hnum : atoi (trimSpace "") = none := by decide
    rw [hempty, PortText, hnum] at hport
    exact absurd hport.1 (by simp)
  | range before after lo hi hentry =>
    rw [hempty] at hentry
    simp at hentry

theorem parsePortRange_iff_of_dash (hdash : '-' ∈ (trimSpace entry).toList) (port : Int) :
    (∃ r, parsePortRange entry = some r ∧ r.lo ≤ port ∧ port ≤ r.hi) ↔ EntryNames entry port := by
  obtain ⟨before, after, hentry, hbefore⟩ := List.eq_append_cons_of_mem hdash
  rw [parsePortRange_of_dash hempty hentry hbefore]
  constructor
  · intro h
    obtain ⟨r, hr, hlo, hhi⟩ := h
    cases hp : parsePort (String.ofList before) with
    | none => simp [hp] at hr
    | some lo =>
      cases hq : parsePort (String.ofList after) with
      | none => simp [hp, hq] at hr
      | some hi =>
        by_cases hlt : hi < lo
        · simp [hp, hq, hlt] at hr
        · simp only [hp, hq, hlt, if_false, Option.some.injEq] at hr
          subst hr
          exact .range before after lo hi hentry hbefore ((parsePort_iff).1 hp)
            ((parsePort_iff).1 hq) hlo hhi
  · intro h
    cases h with
    | number hno => exact absurd hdash hno
    | range before' after' lo hi hentry' hbefore' hlo hhi hle hge =>
      -- the text is cut at its first '-', so both readings cut at one place
      have hcut' : cut '-' (before' ++ '-' :: after') = (before', some after') :=
        cut_append hbefore'
      rw [← hentry', hentry, cut_append hbefore] at hcut'
      cases hcut'
      have hlt : ¬ hi < lo := by omega
      rw [(parsePort_iff).2 hlo, (parsePort_iff).2 hhi]
      exact ⟨⟨lo, hi⟩, if_neg hlt, hle, hge⟩

theorem parsePortRange_iff_of_noDash (hdash : '-' ∉ (trimSpace entry).toList) (port : Int) :
    (∃ r, parsePortRange entry = some r ∧ r.lo ≤ port ∧ port ≤ r.hi) ↔ EntryNames entry port := by
  rw [parsePortRange_of_noDash hempty hdash]
  constructor
  · intro h
    obtain ⟨r, hr, hlo, hhi⟩ := h
    cases hp : parsePort (trimSpace entry) with
    | none => simp [hp] at hr
    | some n =>
      simp only [hp, Option.some.injEq] at hr
      subst hr
      have hn : n = port := by
        dsimp only at hlo hhi
        omega
      subst hn
      exact .number hdash ((parsePort_iff).1 hp)
  · intro h
    cases h with
    | number _ hport =>
      rw [(parsePort_iff).2 hport]
      exact ⟨⟨port, port⟩, rfl, le_refl _, le_refl _⟩
    | range before after lo hi hentry =>
      apply absurd _ hdash
      rw [hentry]
      simp

end

theorem parsePortRange_iff {port : Int} :
    (∃ r, parsePortRange entry = some r ∧ r.lo ≤ port ∧ port ≤ r.hi) ↔ EntryNames entry port := by
  by_cases hempty : trimSpace entry = ""
  · have hnone : parsePortRange entry = none := by simp [parsePortRange, hempty]
    simp [hnone, not_entryNames_of_empty hempty port]
  by_cases hdash : '-' ∈ (trimSpace entry).toList
  · exact parsePortRange_iff_of_dash hempty hdash port
  · exact parsePortRange_iff_of_noDash hempty hdash port

theorem compilePorts_iff (text : String) (port : Int) :
    ((compilePorts text).map fun ranges => matchRanges ranges port).getD true = true ↔
      PortTextNames text port := by
  by_cases hany : trimSpace text = "" ∨ trimSpace text = "*" ∨
      equalFoldAscii (trimSpace text) "all" = true
  · simp only [compilePorts, hany, if_true, Option.map_none, Option.getD_none, true_iff]
    exact .inl hany
  · simp only [compilePorts, hany, if_false, Option.map_some, Option.getD_some, PortTextNames,
      false_or, matchRanges, List.any_eq_true, List.mem_filterMap, Bool.and_eq_true,
      decide_eq_true_eq]
    constructor
    · intro h
      obtain ⟨r, ⟨entry, hmem, hr⟩, hin⟩ := h
      exact ⟨entry, hmem, (parsePortRange_iff).1 ⟨r, hr, hin⟩⟩
    · intro h
      obtain ⟨entry, hmem, hnames⟩ := h
      obtain ⟨r, hr, hin⟩ := (parsePortRange_iff).2 hnames
      exact ⟨r, ⟨entry, hmem, hr⟩, hin⟩

/-! ## The first rule -/

theorem CompiledRule.live_iff (c : CompiledRule) (now : Int) :
    (!c.expired now) = true ↔ c.rule.expiresAt = 0 ∨ now < c.rule.expiresAt := by
  simp only [CompiledRule.expired, Bool.not_eq_true', Bool.and_eq_false_iff, bne_eq_false_iff_eq,
    decide_eq_false_iff_not, not_le]

theorem compileRule_decides_iff (go : Go) (r : Rule) (i : Nat) (now port : Int)
    (hzone : ∀ a, ip = some a → a.hasZone = false) :
    (!(compileRule go r i).expired now && (compileRule go r i).matches (ip.map Addr.unmap) port)
      = true ↔ Decides go now ip port r := by
  have hlive : (!(compileRule go r i).expired now) = true ↔ r.expiresAt = 0 ∨ now < r.expiresAt :=
    (compileRule go r i).live_iff now
  have hmatches : (compileRule go r i).matches (ip.map Addr.unmap) port = true ↔
      CidrDenotes go r.cidr ip ∧ PortTextNames r.port port := by
    simp only [CompiledRule.matches, compileRule, Bool.and_eq_true]
    exact and_congr (contains_compileSource_iff go r.cidr hzone) (compilePorts_iff r.port port)
  rw [Bool.and_eq_true, hlive, hmatches]
  exact ⟨fun h => ⟨h.1, h.2.1, h.2.2⟩, fun h => ⟨h.live, h.source, h.ports⟩⟩

section FirstDeciding

variable {decides : Rule → Prop}

theorem find_mapIdx (test : CompiledRule → Bool) (compile : Nat → Rule → CompiledRule)
    (htest : ∀ i r, test (compile i r) = true ↔ decides r) (rules : List Rule) :
    (∃ i r, FirstDeciding decides rules r ∧
        (rules.mapIdx compile).find? test = some (compile i r)) ∨
      (∀ r ∈ rules, ¬ decides r) ∧ (rules.mapIdx compile).find? test = none := by
  induction rules generalizing compile with
  | nil => exact .inr ⟨by simp, rfl⟩
  | cons q rules ih =>
    rw [List.mapIdx_cons]
    by_cases hq : decides q
    · exact .inl ⟨0, q, .here hq, List.find?_cons_of_pos ((htest 0 q).2 hq)⟩
    · have hskip : ∀ l, (compile 0 q :: l).find? test = l.find? test :=
        fun l => List.find?_cons_of_neg fun h => hq ((htest 0 q).1 h)
      rw [hskip]
      rcases ih (fun i => compile (i + 1)) (fun i r => htest (i + 1) r) with
        ⟨i, r, hfirst, hfind⟩ | ⟨hnone, hfind⟩
      · exact .inl ⟨i + 1, r, .later hq hfirst, hfind⟩
      · exact .inr ⟨by simpa [hq] using hnone, hfind⟩

theorem FirstDeciding.mem_and_decides {rules : List Rule} {r : Rule}
    (h : FirstDeciding decides rules r) : r ∈ rules ∧ decides r := by
  induction h with
  | here h => exact ⟨by simp, h⟩
  | later _ _ ih => exact ⟨List.mem_cons_of_mem _ ih.1, ih.2⟩

theorem FirstDeciding.unique {rules : List Rule} {r r' : Rule}
    (h : FirstDeciding decides rules r) (h' : FirstDeciding decides rules r') : r = r' := by
  induction h with
  | here h =>
    cases h' with
    | here => rfl
    | later hq => exact absurd h hq
  | later hq _ ih =>
    cases h' with
    | here h => exact absurd h hq
    | later _ h' => exact ih h'

end FirstDeciding

/-! ## The decision -/

theorem reputation_eq_none_iff (go : Go) (f : Firewall) (m : Moment) (ip : Option Addr)
    (port : Int) :
    f.reputation go m (ip.map Addr.unmap) port = none ↔ ¬ f.ProviderBlocks go m ip port := by
  cases ip with
  | none => simp [Firewall.reputation, Firewall.ProviderBlocks]
  | some a =>
    simp only [Firewall.reputation, Firewall.ProviderBlocks, Option.map_some, Option.some.injEq,
      exists_eq_left']
    by_cases hasks : f.asksProvider go a.unmap port = true
    · rcases m.checkExternal (go.netip.addrString a.unmap) f.provider.effective with
        ⟨blocked, why⟩
      cases blocked <;> simp
    · simp [hasks]

/-- `Allow` decides as the reference, for every source without a zone. -/
theorem allow_iff_reference (go : Go) (f : Firewall) (rules : List Rule) (m : Moment)
    (remoteAddr : String) (port : Int)
    (hzone : ∀ a, source go remoteAddr = some a → a.hasZone = false) :
    (Firewall.allow go { f with rules := compileRules go rules } m remoteAddr port).1 = true ↔
      f.enabled = false ∨ ReferenceAllows go f rules m (source go remoteAddr) port := by
  rw [Firewall.allow_iff, parseAddr_eq]
  apply or_congr Iff.rfl
  have hscan := find_mapIdx
    (fun c => !c.expired m.now && c.matches ((source go remoteAddr).map Addr.unmap) port)
    (fun i r => compileRule go r i)
    (fun i r => compileRule_decides_iff go r i m.now port hzone) rules
  have hreputation := reputation_eq_none_iff go { f with rules := compileRules go rules } m
    (source go remoteAddr) port
  rcases hscan with ⟨i, r, hfirst, hfind⟩ | ⟨hnone, hfind⟩
  · constructor
    · intro h
      rcases h with ⟨c, hc, hallow⟩ | ⟨hno, -⟩
      · have hcr : compileRule go r i = c := Option.some.inj (hfind.symm.trans hc)
        subst hcr
        exact .rule r hfirst hallow
      · exact absurd (hfind.symm.trans hno) (by simp)
    · intro h
      cases h with
      | rule r' hfirst' hallows =>
        obtain rfl := hfirst.unique hfirst'
        exact .inl ⟨_, hfind, hallows⟩
      | default hnone => exact absurd hfirst.mem_and_decides.2 (hnone r hfirst.mem_and_decides.1)
  · constructor
    · intro h
      rcases h with ⟨c, hc, -⟩ | ⟨-, hrep, hdefault⟩
      · exact absurd (hfind.symm.trans hc) (by simp)
      · exact .default hnone (hreputation.1 hrep) hdefault
    · intro h
      cases h with
      | rule r hfirst => exact absurd hfirst.mem_and_decides.2 (hnone r hfirst.mem_and_decides.1)
      | default _ hprovider hdefault => exact .inr ⟨hfind, hreputation.2 hprovider, hdefault⟩

def tableGo : Go where
  netip :=
    { parseAddr := fun s =>
        if s = "10.0.0.7" then some (.v4 0x0a000007#32)
        else if s = "::ffff:10.0.0.7" then some (.v6 (0xffff#96 ++ 0x0a000007#32) "")
        else none
      parsePrefix := fun s =>
        if s = "10.0.0.0/8" then some ⟨.v4 0x0a000000#32, 8, rfl, by decide⟩ else none
      addrString := fun _ => "" }
  letters := asciiCase

def openFirewall : Firewall where
  enabled := true
  controlPort := false
  webPort := false
  defaultPolicy := "allow"
  rules := []
  provider := withMode ProviderConfig.zero
  selfProviderPort := 0
  localIPs := []

def denyRange : Rule := ⟨"lan", "deny", "10.0.0.0/8", "x, 6000-6010", "", 0⟩

/-- The mapped spelling of an IPv4 source is met by an IPv4 network. -/
theorem allow_iff_reference_mapped :
    (Firewall.allow tableGo { openFirewall with rules := compileRules tableGo [denyRange] }
        ⟨100, fun _ _ => (false, "")⟩ "[::ffff:10.0.0.7]:5555" 6001).1 = false ∧
      ¬ ReferenceAllows tableGo openFirewall [denyRange] ⟨100, fun _ _ => (false, "")⟩
        (source tableGo "[::ffff:10.0.0.7]:5555") 6001 := by
  have hsource : source tableGo "[::ffff:10.0.0.7]:5555" =
      some (.v6 (0xffff#96 ++ 0x0a000007#32) "") := by decide +kernel
  have hdenied : (Firewall.allow tableGo
      { openFirewall with rules := compileRules tableGo [denyRange] }
      ⟨100, fun _ _ => (false, "")⟩ "[::ffff:10.0.0.7]:5555" 6001).1 = false := by decide +kernel
  refine ⟨hdenied, fun href => ?_⟩
  have hallowed := (allow_iff_reference tableGo openFirewall [denyRange]
    ⟨100, fun _ _ => (false, "")⟩ "[::ffff:10.0.0.7]:5555" 6001 (by
      intro a ha
      rw [hsource] at ha
      cases ha
      rfl)).2 (.inr href)
  rw [hdenied] at hallowed
  cases hallowed

end FrpMeo.Server.Firewall
