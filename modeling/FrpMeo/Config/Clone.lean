import FrpMeo.Config.Proxy
import FrpMeo.Lib.Heap

/-!
# Copies of configurations

`Clone` of the proxy and visitor configurations and of plugin options (`pkg/config/v1`). `out := *c`
copies pointers, maps and slices as references; `Clone` then replaces those it knows by copies of
what they refer to.
-/

namespace FrpMeo.Config.Clone

open Lib Function

/-! ## Structs and their reference fields -/

inductive VisitorType where
  | stcp
  | xtcp
  | sudp
  | xudp
  | stcpsudp
  | xtcpxudp
  deriving DecidableEq, Repr

inductive ConfigKind where
  | proxy (t : ProxyType)
  | visitor (t : VisitorType)
  deriving DecidableEq, Repr

inductive PluginKind where
  | http2https
  | httpProxy
  | https2http
  | https2https
  | http2http
  | socks5
  | staticFile
  | unixDomainSocket
  | tls2raw
  | virtualNet
  | virtualNetVisitor
  deriving DecidableEq, Repr

inductive RefField where
  | enabled
  | annotations
  | metadatas
  | httpHeaders
  | customDomains
  | locations
  | requestHeaders
  | responseHeaders
  | forcedHosts
  | allowUsers
  | natTraversal
  | enableHTTP2
  deriving DecidableEq, Repr

namespace RefField

def all : List RefField :=
  [enabled, annotations, metadatas, httpHeaders, customDomains, locations, requestHeaders,
    responseHeaders, forcedHosts, allowUsers, natTraversal, enableHTTP2]

theorem mem_all (f : RefField) : f ∈ all := by
  cases f <;> decide

end RefField

open RefField

def refFields : ConfigKind → List RefField
  | .proxy t =>
      -- `ProxyBaseConfig`
      [enabled, annotations, metadatas, httpHeaders] ++
        match t with
        | .tcp | .udp | .tcpudp => []
        | .http => [customDomains, locations, requestHeaders, responseHeaders]
        | .https | .tcpmux | .mc => [customDomains]
        | .pe => [forcedHosts]
        | .stcp | .sudp | .stcpsudp => [allowUsers]
        | .xtcp | .xudp | .xtcpxudp => [allowUsers, natTraversal]
  | .visitor t =>
      -- `VisitorBaseConfig`
      [enabled] ++
        match t with
        | .stcp | .sudp | .stcpsudp => []
        | .xtcp | .xudp | .xtcpxudp => [natTraversal]

def pluginFields : PluginKind → List RefField
  | .http2https | .http2http => [requestHeaders]
  | .https2http | .https2https => [requestHeaders, enableHTTP2]
  | .httpProxy | .socks5 | .staticFile | .unixDomainSocket | .tls2raw | .virtualNet
  | .virtualNetVisitor => []

/-! ## The fields that `Clone` replaces -/

def proxyBaseClone : List RefField := [enabled, annotations, metadatas, httpHeaders]

def domainClone : List RefField := [customDomains]

def visitorBaseClone : List RefField := [enabled]

def clonedFields : ConfigKind → List RefField
  | .proxy .tcp => proxyBaseClone
  | .proxy .udp => proxyBaseClone
  | .proxy .tcpudp => proxyBaseClone
  | .proxy .http =>
      proxyBaseClone ++ domainClone ++ [locations] ++ [requestHeaders] ++ [responseHeaders]
  | .proxy .https => proxyBaseClone ++ domainClone
  | .proxy .mc => proxyBaseClone ++ domainClone
  | .proxy .pe => proxyBaseClone ++ [forcedHosts]
  | .proxy .tcpmux => proxyBaseClone ++ domainClone
  | .proxy .stcp => proxyBaseClone ++ [allowUsers]
  | .proxy .xtcp => proxyBaseClone ++ [allowUsers] ++ [natTraversal]
  | .proxy .xudp => proxyBaseClone ++ [allowUsers] ++ [natTraversal]
  | .proxy .xtcpxudp => proxyBaseClone ++ [allowUsers] ++ [natTraversal]
  | .proxy .sudp => proxyBaseClone ++ [allowUsers]
  | .proxy .stcpsudp => proxyBaseClone ++ [allowUsers]
  | .visitor .stcp => visitorBaseClone
  | .visitor .sudp => visitorBaseClone
  | .visitor .stcpsudp => visitorBaseClone
  | .visitor .xtcp => visitorBaseClone ++ [natTraversal]
  | .visitor .xudp => visitorBaseClone ++ [natTraversal]
  | .visitor .xtcpxudp => visitorBaseClone ++ [natTraversal]

def clonedPluginFields : PluginKind → List RefField
  | .http2https => [requestHeaders]
  | .httpProxy => []
  | .https2http => [requestHeaders, enableHTTP2]
  | .https2https => [requestHeaders, enableHTTP2]
  | .http2http => [requestHeaders]
  | .socks5 => []
  | .staticFile => []
  | .unixDomainSocket => []
  | .tls2raw => []
  | .virtualNet => []
  | .virtualNetVisitor => []

variable {f : RefField}

theorem mem_clonedFields {k : ConfigKind} (h : f ∈ refFields k) : f ∈ clonedFields k := by
  cases k with
  | proxy t => cases t <;> simpa [refFields, clonedFields, proxyBaseClone, domainClone] using h
  | visitor t => cases t <;> simpa [refFields, clonedFields, visitorBaseClone] using h

theorem mem_clonedPluginFields {k : PluginKind} (h : f ∈ pluginFields k) :
    f ∈ clonedPluginFields k := by
  cases k <;> exact h

/-! ## The heap -/

/-- A flag (`*bool`, `NatTraversalConfig`), the texts of a slice, or pairs of a map or slice. -/
inductive Data where
  | flag (b : Bool)
  | texts (l : List String)
  | pairs (l : List (String × String))
  deriving DecidableEq

section Heap

variable {σ : Type}

structure PluginStruct (σ : Type) where
  kind : PluginKind
  scalars : σ
  refs : RefField → Option Nat

structure ConfigStruct (σ : Type) where
  kind : ConfigKind
  name : String
  scalars : σ
  refs : RefField → Option Nat
  plugin : Option Nat

inductive Cell (σ : Type) where
  | data (d : Data)
  | plugin (p : PluginStruct σ)
  | config (c : ConfigStruct σ)

def Cell.refs : Cell σ → List Nat
  | .data _ => []
  | .plugin p => RefField.all.filterMap p.refs
  | .config c => RefField.all.filterMap c.refs ++ c.plugin.toList

/-- `slices.Clone`, `maps.Clone`, `util.ClonePtr`, `NatTraversalConfig.Clone`. -/
def cloneRef (h : Heap (Cell σ)) : Option Nat → Heap (Cell σ) × Option Nat
  | none => (h, none)
  | some l =>
      match h.cell l with
      | some (.data d) => ((h.alloc (.data d)).1, some (h.alloc (.data d)).2)
      | _ => (h, some l)

def cloneRefs : List RefField → Heap (Cell σ) → (RefField → Option Nat) →
    Heap (Cell σ) × (RefField → Option Nat)
  | [], h, refs => (h, refs)
  | f :: fields, h, refs =>
      cloneRefs fields (cloneRef h (refs f)).1 (update refs f (cloneRef h (refs f)).2)

def clonePlugin (h : Heap (Cell σ)) : Option Nat → Heap (Cell σ) × Option Nat
  | none => (h, none)
  | some l =>
      match h.cell l with
      | some (.plugin p) =>
          let r := cloneRefs (clonedPluginFields p.kind) h p.refs
          let a := r.1.alloc (.plugin { p with refs := r.2 })
          (a.1, some a.2)
      | _ => (h, some l)

def clone (h : Heap (Cell σ)) (l : Nat) : Heap (Cell σ) × Nat :=
  match h.cell l with
  | some (.config c) =>
      let r := cloneRefs (clonedFields c.kind) h c.refs
      let p := clonePlugin r.1 c.plugin
      p.1.alloc (.config { c with refs := r.2, plugin := p.2 })
  | _ => (h, l)

/-! ## Values -/

structure PluginValue (σ : Type) where
  kind : PluginKind
  scalars : σ
  refs : RefField → Option Data

structure ConfigValue (σ : Type) where
  kind : ConfigKind
  name : String
  scalars : σ
  refs : RefField → Option Data
  plugin : Option (PluginValue σ)

def dataAt (h : Heap (Cell σ)) (l : Nat) : Option Data :=
  match h.cell l with
  | some (.data d) => some d
  | _ => none

def readRefs (h : Heap (Cell σ)) (refs : RefField → Option Nat) (f : RefField) : Option Data :=
  (refs f).bind (dataAt h)

def pluginAt (h : Heap (Cell σ)) (l : Nat) : Option (PluginValue σ) :=
  match h.cell l with
  | some (.plugin p) => some ⟨p.kind, p.scalars, readRefs h p.refs⟩
  | _ => none

def value (h : Heap (Cell σ)) (l : Nat) : Option (ConfigValue σ) :=
  match h.cell l with
  | some (.config c) =>
      some ⟨c.kind, c.name, c.scalars, readRefs h c.refs, c.plugin.bind (pluginAt h)⟩
  | _ => none

def TypedRefs (h : Heap (Cell σ)) (fields : List RefField) (refs : RefField → Option Nat) : Prop :=
  ∀ f l, refs f = some l → f ∈ fields ∧ ∃ d, h.cell l = some (.data d)

def TypedPlugin (h : Heap (Cell σ)) (l : Nat) : Prop :=
  ∃ p, h.cell l = some (.plugin p) ∧ TypedRefs h (pluginFields p.kind) p.refs

def Typed (h : Heap (Cell σ)) (l : Nat) : Prop :=
  ∃ c, h.cell l = some (.config c) ∧ TypedRefs h (refFields c.kind) c.refs ∧
    ∀ p, c.plugin = some p → TypedPlugin h p

/-! ## What is reached from a configuration -/

variable {h : Heap (Cell σ)} {l : Nat}

theorem dataAt_of_cell {d : Data} (hl : h.cell l = some (.data d)) : dataAt h l = some d := by
  rw [dataAt, hl]

theorem mem_refs_plugin {p : PluginStruct σ} {r : Nat} :
    r ∈ (Cell.plugin p).refs ↔ ∃ f, p.refs f = some r := by
  rw [Cell.refs, List.mem_filterMap]
  constructor
  · intro h
    obtain ⟨f, -, hf⟩ := h
    exact ⟨f, hf⟩
  · intro h
    obtain ⟨f, hf⟩ := h
    exact ⟨f, f.mem_all, hf⟩

theorem mem_refs_config {c : ConfigStruct σ} {r : Nat} :
    r ∈ (Cell.config c).refs ↔ (∃ f, c.refs f = some r) ∨ c.plugin = some r := by
  rw [Cell.refs, List.mem_append, List.mem_filterMap, Option.mem_toList]
  constructor
  · intro h
    rcases h with ⟨f, -, hf⟩ | hp
    · exact .inl ⟨f, hf⟩
    · exact .inr hp
  · intro h
    rcases h with ⟨f, hf⟩ | hp
    · exact .inl ⟨f, f.mem_all, hf⟩
    · exact .inr hp

def Sane (h : Heap (Cell σ)) (l : Nat) : Prop :=
  Typed h l ∨ TypedPlugin h l ∨ ∃ d, h.cell l = some (.data d)

theorem Sane.cell_ne (hl : Sane h l) : h.cell l ≠ none := by
  rcases hl with ⟨c, hc, -⟩ | ⟨p, hp, -⟩ | ⟨d, hd⟩
  · rw [hc]
    simp
  · rw [hp]
    simp
  · rw [hd]
    simp

theorem Sane.step {r : Nat} {x : Cell σ} (hl : Sane h l) (hx : h.cell l = some x)
    (hr : r ∈ x.refs) : Sane h r := by
  rcases hl with ⟨c, hc, hrefs, hplugin⟩ | ⟨p, hp, hrefs⟩ | ⟨d, hd⟩
  · obtain rfl := Option.some.inj (hx.symm.trans hc)
    rcases mem_refs_config.1 hr with ⟨f, hf⟩ | hp
    · exact .inr (.inr (hrefs f r hf).2)
    · exact .inr (.inl (hplugin r hp))
  · obtain rfl := Option.some.inj (hx.symm.trans hp)
    obtain ⟨f, hf⟩ := mem_refs_plugin.1 hr
    exact .inr (.inr (hrefs f r hf).2)
  · obtain rfl := Option.some.inj (hx.symm.trans hd)
    cases hr

theorem sane_of_reach {roots : List Nat} (hroots : ∀ l ∈ roots, Typed h l)
    (hl : Heap.Reach Cell.refs h roots l) : Sane h l := by
  induction hl with
  | root hl => exact .inl (hroots _ hl)
  | step _ hc hr ih => exact ih.step hc hr

section Agree

variable {h' : Heap (Cell σ)} {refs : RefField → Option Nat}

theorem readRefs_agree (hagree : ∀ f l, refs f = some l → h'.cell l = h.cell l) :
    readRefs h' refs = readRefs h refs := by
  funext f
  rw [readRefs, readRefs]
  cases hf : refs f with
  | none => rfl
  | some l =>
    change dataAt h' l = dataAt h l
    rw [dataAt, dataAt, hagree f l hf]

variable {fields : List RefField}

theorem TypedRefs.agree (ht : TypedRefs h fields refs)
    (hagree : ∀ f l, refs f = some l → h'.cell l = h.cell l) : TypedRefs h' fields refs := by
  intro f l hf
  rw [hagree f l hf]
  exact ht f l hf

theorem value_agree {roots : List Nat}
    (hagree : ∀ l, Heap.Reach Cell.refs h roots l → h'.cell l = h.cell l)
    (hl : l ∈ roots) (ht : Typed h l) : Typed h' l ∧ value h' l = value h l := by
  obtain ⟨c, hc, hrefs, hplugin⟩ := ht
  have hroot : Heap.Reach Cell.refs h roots l := .root hl
  have hc' : h'.cell l = some (.config c) := (hagree l hroot).trans hc
  have hdata : ∀ f r, c.refs f = some r → h'.cell r = h.cell r := fun f r hf =>
    hagree r (.step hroot hc (mem_refs_config.2 (.inl ⟨f, hf⟩)))
  have hsub : ∀ p, c.plugin = some p → Heap.Reach Cell.refs h roots p := fun p hp =>
    .step hroot hc (mem_refs_config.2 (.inr hp))
  refine ⟨⟨c, hc', hrefs.agree hdata, ?_⟩, ?_⟩
  · intro p hp
    obtain ⟨s, hs, hsrefs⟩ := hplugin p hp
    refine ⟨s, (hagree p (hsub p hp)).trans hs, hsrefs.agree ?_⟩
    intro f r hf
    exact hagree r (.step (hsub p hp) hs (mem_refs_plugin.2 ⟨f, hf⟩))
  · have hread : readRefs h' c.refs = readRefs h c.refs := readRefs_agree hdata
    have hpluginAt : c.plugin.bind (pluginAt h') = c.plugin.bind (pluginAt h) := by
      cases hp : c.plugin with
      | none => rfl
      | some p =>
        obtain ⟨s, hs, -⟩ := hplugin p hp
        have hs' : h'.cell p = some (.plugin s) := (hagree p (hsub p hp)).trans hs
        have hsread : readRefs h' s.refs = readRefs h s.refs := readRefs_agree fun f r hf =>
          hagree r (.step (hsub p hp) hs (mem_refs_plugin.2 ⟨f, hf⟩))
        simp only [Option.bind_some, pluginAt, hs, hs', hsread]
    simp only [value, hc, hc', hread, hpluginAt]

theorem value_grows (hg : Heap.Grows Cell.refs h h') (ht : Typed h l) :
    Typed h' l ∧ value h' l = value h l := by
  have hagree : ∀ r, Heap.Reach Cell.refs h [l] r → h'.cell r = h.cell r := by
    intro r hr
    obtain ⟨c, hc⟩ := Option.ne_none_iff_exists'.1
      (sane_of_reach (by simpa using ht) hr).cell_ne
    exact (hg.cell hc).trans hc.symm
  exact value_agree hagree (by simp) ht

theorem TypedRefs.extend (ht : TypedRefs h fields refs)
    (hext : ∀ l x, h.cell l = some x → h'.cell l = some x) :
    TypedRefs h' fields refs ∧ readRefs h' refs = readRefs h refs := by
  have hagree : ∀ f l, refs f = some l → h'.cell l = h.cell l := by
    intro f l hf
    obtain ⟨-, d, hd⟩ := ht f l hf
    exact (hext l _ hd).trans hd.symm
  exact ⟨ht.agree hagree, readRefs_agree hagree⟩

theorem TypedPlugin.extend (ht : TypedPlugin h l)
    (hext : ∀ l x, h.cell l = some x → h'.cell l = some x) :
    TypedPlugin h' l ∧ pluginAt h' l = pluginAt h l := by
  obtain ⟨p, hp, hrefs⟩ := ht
  obtain ⟨hrefs', hread⟩ := hrefs.extend hext
  have hp' := hext l _ hp
  exact ⟨⟨p, hp', hrefs'⟩, by simp only [pluginAt, hp, hp', hread]⟩

theorem bind_pluginAt_extend {r : Option Nat} (ht : ∀ l, r = some l → TypedPlugin h l)
    (hext : ∀ l x, h.cell l = some x → h'.cell l = some x) :
    r.bind (pluginAt h') = r.bind (pluginAt h) := by
  cases r with
  | none => rfl
  | some l => exact ((ht l rfl).extend hext).2

end Agree

/-! ## Clones -/

variable {r : Option Nat}

theorem cloneRef_spec (hr : ∀ l, r = some l → ∃ d, h.cell l = some (.data d)) :
    Heap.Grows Cell.refs h (cloneRef h r).1 ∧
      (cloneRef h r).2.bind (dataAt (cloneRef h r).1) = r.bind (dataAt h) ∧
      ∀ l, (cloneRef h r).2 = some l →
        h.next ≤ l ∧ r ≠ none ∧ ∃ d, (cloneRef h r).1.cell l = some (.data d) := by
  cases r with
  | none =>
    refine ⟨Heap.Grows.refl _ _, rfl, ?_⟩
    intro l hl
    cases hl
  | some l =>
    obtain ⟨d, hd⟩ := hr l rfl
    have hclone : cloneRef h (some l) = ((h.alloc (.data d)).1, some h.next) := by
      simp only [cloneRef, hd]
      rfl
    have hcell : (h.alloc (Cell.data d)).1.cell h.next = some (.data d) :=
      Heap.alloc_cell_self h (.data d)
    rw [hclone]
    refine ⟨(Heap.Grows.refl Cell.refs h).alloc (by simp [Cell.refs]), ?_, ?_⟩
    · exact (dataAt_of_cell hcell).trans (dataAt_of_cell hd).symm
    · intro l' hl'
      obtain rfl := Option.some.inj hl'
      exact ⟨le_refl _, by simp, d, hcell⟩

theorem cloneRefs_spec {fields allowed : List RefField} {refs : RefField → Option Nat}
    (ht : TypedRefs h allowed refs) : Heap.Grows Cell.refs h (cloneRefs fields h refs).1 ∧
      TypedRefs (cloneRefs fields h refs).1 allowed (cloneRefs fields h refs).2 ∧
      readRefs (cloneRefs fields h refs).1 (cloneRefs fields h refs).2 = readRefs h refs ∧
      (∀ f, f ∉ fields → (cloneRefs fields h refs).2 f = refs f) ∧
      ∀ f l, f ∈ fields → (cloneRefs fields h refs).2 f = some l → h.next ≤ l := by
  induction fields generalizing h refs with
  | nil => exact ⟨Heap.Grows.refl _ _, ht, rfl, fun _ _ => rfl, by simp⟩
  | cons f fields ih =>
    -- one field is replaced; the other references stay, since the heap only grows
    obtain ⟨hg, hread, hnew⟩ := cloneRef_spec fun l hl => (ht f l hl).2
    rw [cloneRefs]
    generalize hr : cloneRef h (refs f) = r at hg hread hnew ⊢
    have hupdate : update refs f r.2 f = r.2 := update_self ..
    have hother : ∀ g, g ≠ f → update refs f r.2 g = refs g := fun g hgf =>
      update_of_ne hgf ..
    obtain ⟨htold, hreadold⟩ := ht.extend fun l x => hg.cell
    have ht1 : TypedRefs r.1 allowed (update refs f r.2) := by
      intro g l hl
      by_cases hgf : g = f
      · rw [hgf, hupdate] at hl
        obtain ⟨-, hsome, hdata⟩ := hnew l hl
        obtain ⟨l₀, hl₀⟩ := Option.ne_none_iff_exists'.1 hsome
        exact ⟨hgf ▸ (ht f l₀ hl₀).1, hdata⟩
      · rw [hother g hgf] at hl
        exact htold g l hl
    have hread1 : readRefs r.1 (update refs f r.2) = readRefs h refs := by
      funext g
      by_cases hgf : g = f
      · rw [readRefs, hgf, hupdate, hread]
        rfl
      · rw [readRefs, hother g hgf]
        exact congrFun hreadold g
    obtain ⟨hg', ht', hread', hkept', hnew'⟩ := ih ht1
    refine ⟨hg.trans hg', ht', hread'.trans hread1, ?_, ?_⟩
    · intro g hgnot
      rw [List.mem_cons, not_or] at hgnot
      rw [hkept' g hgnot.2, hother g hgnot.1]
    · intro g l hgmem hgl
      by_cases hgf : g ∈ fields
      · exact hg.next_le.trans (hnew' g l hgf hgl)
      · -- the field that was just replaced and is not replaced again
        rcases List.mem_cons.1 hgmem with rfl | hmem
        · rw [hkept' g hgf, hupdate] at hgl
          exact (hnew l hgl).1
        · exact absurd hmem hgf

theorem cloneRefs_new {fields allowed : List RefField} (hall : ∀ f ∈ allowed, f ∈ fields)
    {refs : RefField → Option Nat} (ht : TypedRefs h allowed refs) (f : RefField) (l : Nat)
    (hl : (cloneRefs fields h refs).2 f = some l) : h.next ≤ l := by
  obtain ⟨-, ht', -, -, hnew⟩ := cloneRefs_spec ht
  exact hnew f l (hall f (ht' f l hl).1) hl

theorem clonePlugin_spec (hr : ∀ l, r = some l → TypedPlugin h l) :
    Heap.Grows Cell.refs h (clonePlugin h r).1 ∧
      (clonePlugin h r).2.bind (pluginAt (clonePlugin h r).1) = r.bind (pluginAt h) ∧
      ∀ l, (clonePlugin h r).2 = some l → h.next ≤ l ∧ TypedPlugin (clonePlugin h r).1 l := by
  cases r with
  | none =>
    refine ⟨Heap.Grows.refl _ _, rfl, ?_⟩
    intro l hl
    cases hl
  | some l =>
    obtain ⟨p, hp, ht⟩ := hr l rfl
    obtain ⟨hg, ht', hread, -, -⟩ := cloneRefs_spec ht
    have hnew := cloneRefs_new (fun f hf => mem_clonedPluginFields hf) ht
    have hclone : clonePlugin h (some l) =
        (((cloneRefs (clonedPluginFields p.kind) h p.refs).1.alloc
            (.plugin { p with refs := (cloneRefs (clonedPluginFields p.kind) h p.refs).2 })).1,
          some (cloneRefs (clonedPluginFields p.kind) h p.refs).1.next) := by
      simp only [clonePlugin, hp]
      rfl
    rw [hclone]
    -- only what `cloneRefs` guarantees is needed of its result
    generalize cloneRefs (clonedPluginFields p.kind) h p.refs = r at hg ht' hread hnew ⊢
    have hcell := Heap.alloc_cell_self r.1 (.plugin { p with refs := r.2 })
    obtain ⟨ht'', hread'⟩ := ht'.extend fun l x =>
      Heap.alloc_cell_of_some r.1 (.plugin { p with refs := r.2 })
    refine ⟨hg.alloc ?_, ?_, ?_⟩
    · intro x hx
      obtain ⟨f, hf⟩ := mem_refs_plugin.1 hx
      exact hnew f x hf
    · simp only [Option.bind_some, pluginAt, hcell, hp, hread', hread]
    · intro l' hl'
      obtain rfl := Option.some.inj hl'
      exact ⟨hg.next_le, _, hcell, ht''⟩

/-- A clone says what the original says, is new, and reaches nothing older. -/
theorem clone_spec (ht : Typed h l) :
    Heap.Grows Cell.refs h (clone h l).1 ∧ h.next ≤ (clone h l).2 ∧
      Typed (clone h l).1 (clone h l).2 ∧ value (clone h l).1 (clone h l).2 = value h l := by
  obtain ⟨c, hc, hrefs, hplugin⟩ := ht
  obtain ⟨hg, ht', hread, -, -⟩ := cloneRefs_spec hrefs
  have hnew := cloneRefs_new (fun f hf => mem_clonedFields hf) hrefs
  have hclone : clone h l =
      (let r := cloneRefs (clonedFields c.kind) h c.refs
       let p := clonePlugin r.1 c.plugin
       p.1.alloc (.config { c with refs := r.2, plugin := p.2 })) := by
    simp only [clone, hc]
  rw [hclone]
  generalize cloneRefs (clonedFields c.kind) h c.refs = r at hg ht' hread hnew ⊢
  have hplugin' : ∀ p, c.plugin = some p → TypedPlugin r.1 p := fun p hp =>
    ((hplugin p hp).extend fun l x => hg.cell).1
  obtain ⟨hgp, hvalue, hpnew⟩ := clonePlugin_spec hplugin'
  rw [bind_pluginAt_extend hplugin fun l x => hg.cell] at hvalue
  dsimp only
  -- the fields are cloned before the plugin, and the struct comes last
  generalize clonePlugin r.1 c.plugin = p at hgp hvalue hpnew ⊢
  generalize hx : Cell.config { c with refs := r.2, plugin := p.2 } = x
  have hext : ∀ l y, p.1.cell l = some y → (p.1.alloc x).1.cell l = some y := fun l y =>
    Heap.alloc_cell_of_some p.1 x
  have hcell : (p.1.alloc x).1.cell p.1.next = some x := Heap.alloc_cell_self p.1 x
  obtain ⟨ht1, hread1⟩ := ht'.extend fun l y => hgp.cell
  obtain ⟨ht2, hread2⟩ := ht1.extend hext
  refine ⟨(hg.trans hgp).alloc ?_, (hg.trans hgp).next_le, ?_, ?_⟩
  · -- the references of the new struct are copies, so they are new
    intro y hy
    rw [← hx] at hy
    rcases mem_refs_config.1 hy with ⟨f, hf⟩ | hy
    · exact hnew f y hf
    · exact hg.next_le.trans (hpnew y hy).1
  · refine ⟨_, hcell.trans (congrArg some hx.symm), ht2, ?_⟩
    intro q hq
    exact ((hpnew q hq).2.extend hext).1
  · have hplug : p.2.bind (pluginAt (p.1.alloc x).1) = c.plugin.bind (pluginAt h) :=
      (bind_pluginAt_extend (fun q hq => (hpnew q hq).2) hext).trans hvalue
    have hvalue' : value (p.1.alloc x).1 p.1.next =
        some ⟨c.kind, c.name, c.scalars, readRefs (p.1.alloc x).1 r.2,
          p.2.bind (pluginAt (p.1.alloc x).1)⟩ := by
      rw [value, hcell, ← hx]
    rw [hread2, hread1, hread, hplug] at hvalue'
    refine hvalue'.trans ?_
    rw [value, hc]

end Heap

end FrpMeo.Config.Clone
