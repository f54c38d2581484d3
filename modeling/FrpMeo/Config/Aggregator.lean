import FrpMeo.Config.Clone
import FrpMeo.Config.Store

/-!
# The merged configuration of a client

`Aggregator.Load` of `pkg/config/source/aggregator.go` puts the configurations of the file and then
of the store into one map by name; a source leaves out what is disabled before. The model has one
heap: a source is a pair of maps to locations and gives away clones, and a caller of `Load` may
write to whatever it can reach.
-/

namespace FrpMeo.Config.Sources

open Lib Config.Clone

section Load

variable {σ : Type}

/-! ## Sources -/

/-- `baseSource`, with the locations of its configurations. No call stores a nil. -/
abbrev Source := Store.Source Nat Nat

abbrev Ranges := Store.Ranges Nat Nat

def nameAt (h : Heap (Cell σ)) (l : Nat) : String := ((value h l).map ConfigValue.name).getD ""

def ConfigValue.isEnabled (v : ConfigValue σ) : Bool := v.refs .enabled != some (.flag false)

def enabledAt (h : Heap (Cell σ)) (l : Nat) : Bool :=
  ((value h l).map ConfigValue.isEnabled).getD true

/-- One of the loops of `cloneConfigurers`; `none` is nil. -/
def cloneAll (kind : String) : Heap (Cell σ) → List (Option Nat) →
    Except String (Heap (Cell σ) × List Nat)
  | h, [] => .ok (h, [])
  | _, none :: _ => .error (kind ++ " cannot be nil")
  | h, some l :: rest =>
      -- `append(cloned, cfg.Clone())`
      match cloneAll kind (clone h l).1 rest with
      | .error err => .error err
      | .ok (h', cloned) => .ok (h', (clone h l).2 :: cloned)

def cloneConfigurers (h : Heap (Cell σ)) (proxies visitors : List (Option Nat)) :
    Except String (Heap (Cell σ) × List Nat × List Nat) :=
  match cloneAll "proxy" h proxies with
  | .error err => .error err
  | .ok (h₁, clonedProxies) =>
      match cloneAll "visitor" h₁ visitors with
      | .error err => .error err
      | .ok (h₂, clonedVisitors) => .ok (h₂, clonedProxies, clonedVisitors)

def sourceLoad (h : Heap (Cell σ)) (s : Source) (range : Ranges) :
    Except String (Heap (Cell σ) × List Nat × List Nat) :=
  cloneConfigurers h
    (((s.proxies.values (range.proxies s)).filter (enabledAt h)).map some)
    (((s.visitors.values (range.visitors s)).filter (enabledAt h)).map some)

def replaceEntries (kind : String) (h : Heap (Cell σ)) :
    GoMap String Nat → List (Option Nat) → Except String (GoMap String Nat)
  | next, [] => .ok next
  | _, none :: _ => .error (kind ++ " cannot be nil")
  | next, some l :: rest =>
      if nameAt h l = "" then .error (kind ++ " name cannot be empty")
      else replaceEntries kind h (next.insert (nameAt h l) l) rest

/-- `ConfigSource.ReplaceAll`; after an error the source stays as it was. -/
def replaceAll (h : Heap (Cell σ)) (proxies visitors : List (Option Nat)) :
    Except String Source :=
  match replaceEntries "proxy" h .empty proxies with
  | .error err => .error err
  | .ok nextProxies =>
      match replaceEntries "visitor" h .empty visitors with
      | .error err => .error err
      | .ok nextVisitors => .ok ⟨nextProxies, nextVisitors⟩

/-! ## The aggregator -/

structure Aggregator where
  configSource : Option Source
  storeSource : Option Source

def newAggregator (configSource : Option Source) : Aggregator :=
  ⟨some (configSource.getD Store.newBaseSource), none⟩

def Aggregator.setStoreSource (a : Aggregator) (storeSource : Option Source) : Aggregator :=
  { a with storeSource := storeSource }

def Aggregator.getSourcesLocked (a : Aggregator) : List Source :=
  a.configSource.toList ++ a.storeSource.toList

/-- The loop of `Load` over the sources; those at place `i` are ranged over as `range i` says. -/
def loadSources (range : Nat → Ranges) :
    Nat → Heap (Cell σ) → Source → List Source → Except String (Heap (Cell σ) × Source)
  | _, h, merged, [] => .ok (h, merged)
  | i, h, merged, src :: rest =>
      match sourceLoad h src (range i) with
      | .error err => .error ("load source: " ++ err)
      | .ok (h', proxies, visitors) =>
          -- a later source writes over an earlier one
          loadSources range (i + 1) h'
            ⟨GoMap.insertAll (nameAt h') merged.proxies proxies,
              GoMap.insertAll (nameAt h') merged.visitors visitors⟩ rest

def sortedByName (h : Heap (Cell σ)) (ls : List Nat) : List Nat :=
  ls.mergeSort fun x y => decide (nameAt h x ≤ nameAt h y)

def mapsToSortedSlices (h : Heap (Cell σ)) (merged : Source) (range : Ranges) :
    List Nat × List Nat :=
  (sortedByName h (merged.proxies.values (range.proxies merged)),
    sortedByName h (merged.visitors.values (range.visitors merged)))

def load (h : Heap (Cell σ)) (a : Aggregator) (range : Nat → Ranges) :
    Except String (Heap (Cell σ) × List Nat × List Nat) :=
  if a.getSourcesLocked.length = 0 then .error "no sources configured"
  else
    match loadSources range 0 h Store.newBaseSource a.getSourcesLocked with
    | .error err => .error err
    | .ok (h', merged) => .ok (h', mapsToSortedSlices h' merged (range a.getSourcesLocked.length))

/-! ## What the sources say -/

def SoundMap (h : Heap (Cell σ)) (m : GoMap String Nat) : Prop :=
  ∀ k l, m.get k = some l → Typed h l ∧ nameAt h l = k

structure Sound (h : Heap (Cell σ)) (s : Source) : Prop where
  proxies : SoundMap h s.proxies
  visitors : SoundMap h s.visitors

def entry (h : Heap (Cell σ)) (m : GoMap String Nat) (k : String) : Option (ConfigValue σ) :=
  ((m.get k).bind (value h)).filter ConfigValue.isEnabled

/-- The entry of the store for a name if that is enabled, and otherwise the entry of the file. -/
def override (h : Heap (Cell σ)) (maps : Source → GoMap String Nat) (file : Source)
    (store : Option Source) (k : String) : Option (ConfigValue σ) :=
  (store.bind fun s => entry h (maps s) k).or (entry h (maps file) k)

variable {h h' h₀ : Heap (Cell σ)} {l : Nat} {ls : List Nat} {v : ConfigValue σ}
  {m : GoMap String Nat} {s : Source} {order : List String} {pick : String → Option (ConfigValue σ)}

theorem typed_value (ht : Typed h l) : ∃ v, value h l = some v := by
  obtain ⟨c, hc, -⟩ := ht
  exact ⟨⟨c.kind, c.name, c.scalars, readRefs h c.refs, c.plugin.bind (pluginAt h)⟩, by
    simp only [value, hc]⟩

theorem exists_values (ht : ∀ l ∈ ls, Typed h l) :
    ∃ vs : List (ConfigValue σ), ls.map (value h) = vs.map some := by
  induction ls with
  | nil => exact ⟨[], rfl⟩
  | cons l ls ih =>
    obtain ⟨v, hv⟩ := typed_value (ht l (by simp))
    obtain ⟨vs, hvs⟩ := ih fun l hl => ht l (List.mem_cons_of_mem _ hl)
    exact ⟨v :: vs, by rw [List.map_cons, List.map_cons, hv, hvs]⟩

theorem nameAt_of_value (hv : value h l = some v) : nameAt h l = v.name := by
  rw [nameAt, hv]
  rfl

theorem enabledAt_of_value (hv : value h l = some v) : enabledAt h l = ConfigValue.isEnabled v := by
  rw [enabledAt, hv]
  rfl

theorem nameAt_congr {l' : Nat} (hv : value h l = value h' l') : nameAt h l = nameAt h' l' := by
  rw [nameAt, nameAt, hv]

theorem SoundMap.keyedBy (hm : SoundMap h m) : m.KeyedBy (nameAt h) := fun k l hl => (hm k l hl).2

theorem entry_eq_some_iff {k : String} : entry h m k = some v ↔
      ∃ l, m.get k = some l ∧ value h l = some v ∧ ConfigValue.isEnabled v = true := by
  rw [entry, Option.filter_eq_some_iff, Option.bind_eq_some_iff]
  constructor
  · intro hv
    obtain ⟨⟨l, hl, hv⟩, hen⟩ := hv
    exact ⟨l, hl, hv, hen⟩
  · intro hv
    obtain ⟨l, hl, hv, hen⟩ := hv
    exact ⟨⟨l, hl, hv⟩, hen⟩

theorem soundMap_replaceEntries {kind : String} {m' : GoMap String Nat} {ls : List (Option Nat)}
    (hm : SoundMap h m) (hls : ∀ l, some l ∈ ls → Typed h l)
    (heq : replaceEntries kind h m ls = .ok m') : SoundMap h m' := by
  induction ls generalizing m with
  | nil =>
    obtain rfl := Except.ok.inj heq
    exact hm
  | cons r ls ih =>
    cases r with
    | none => cases heq
    | some l =>
      rw [replaceEntries] at heq
      split_ifs at heq
      refine ih ?_ (fun l hl => hls l (List.mem_cons_of_mem _ hl)) heq
      intro k l' hl'
      rw [GoMap.get_insert] at hl'
      split_ifs at hl' with hk
      · obtain rfl := Option.some.inj hl'
        exact ⟨hls l (by simp), hk.symm⟩
      · exact hm k l' hl'

structure Copies (h h' : Heap (Cell σ)) (ls ls' : List Nat) : Prop where
  new : ∀ l ∈ ls', h.next ≤ l
  typed : ∀ l ∈ ls', Typed h' l
  values : ls'.map (value h') = ls.map (value h)

theorem map_value_grows (hg : Heap.Grows Cell.refs h h') (ht : ∀ l ∈ ls, Typed h l) :
    ls.map (value h') = ls.map (value h) :=
  List.map_congr_left fun l hl => (value_grows hg (ht l hl)).2

theorem Copies.grows {h'' : Heap (Cell σ)} {ls' : List Nat} (hc : Copies h h' ls ls')
    (hg : Heap.Grows Cell.refs h' h'') : Copies h h'' ls ls' where
  new := hc.new
  typed := fun l hl => (value_grows hg (hc.typed l hl)).1
  values := (map_value_grows hg hc.typed).trans hc.values

theorem Copies.of_grows {ls' : List Nat} (hc : Copies h h' ls ls') (hg : Heap.Grows Cell.refs h₀ h)
    (ht : ∀ l ∈ ls, Typed h₀ l) : Copies h₀ h' ls ls' where
  new := fun l hl => hg.next_le.trans (hc.new l hl)
  typed := hc.typed
  values := hc.values.trans (map_value_grows hg ht)

theorem cloneAll_spec (kind : String) (ht : ∀ l ∈ ls, Typed h l) :
    ∃ h' ls', cloneAll kind h (ls.map some) = .ok (h', ls') ∧ Heap.Grows Cell.refs h h' ∧
      Copies h h' ls ls' := by
  induction ls generalizing h with
  | nil => exact ⟨h, [], rfl, .refl _ _, by simp, by simp, rfl⟩
  | cons l ls ih =>
    obtain ⟨hg, hnew, htyped, hvalue⟩ := clone_spec (ht l (by simp))
    have hrest : ∀ l' ∈ ls, Typed h l' := fun l' hl' => ht l' (List.mem_cons_of_mem _ hl')
    obtain ⟨h', ls', heq, hg', hc⟩ := ih fun l' hl' => (value_grows hg (hrest l' hl')).1
    refine ⟨h', (clone h l).2 :: ls', ?_, hg.trans hg', ?_⟩
    · simp only [List.map_cons, cloneAll, heq]
    -- the first clone stays as it is while the others are made
    · obtain ⟨hkept, hsame⟩ := value_grows hg' htyped
      have hcopies := hc.of_grows hg hrest
      refine ⟨?_, ?_, ?_⟩
      · intro l' hl'
        rcases List.mem_cons.1 hl' with rfl | hl'
        · exact hnew
        · exact hcopies.new l' hl'
      · intro l' hl'
        rcases List.mem_cons.1 hl' with rfl | hl'
        · exact hkept
        · exact hcopies.typed l' hl'
      · rw [List.map_cons, List.map_cons, hcopies.values, hsame, hvalue]

def enabledOf (h : Heap (Cell σ)) (m : GoMap String Nat) (order : List String) : List Nat :=
  (m.values order).filter (enabledAt h)

theorem typed_enabledOf (hm : SoundMap h m) (ho : m.Order order) :
    ∀ l ∈ enabledOf h m order, Typed h l := by
  intro l hl
  obtain ⟨k, hk⟩ := (GoMap.mem_values_iff ho).1 (List.mem_filter.1 hl).1
  exact (hm k l hk).1

theorem sourceLoad_spec (hs : Sound h s) (range : Ranges) :
    ∃ h' proxies visitors, sourceLoad h s range = .ok (h', proxies, visitors) ∧
      Heap.Grows Cell.refs h h' ∧
      Copies h h' (enabledOf h s.proxies (range.proxies s)) proxies ∧
      Copies h h' (enabledOf h s.visitors (range.visitors s)) visitors := by
  have htp := typed_enabledOf hs.proxies (range.orderProxies s)
  have htv := typed_enabledOf hs.visitors (range.orderVisitors s)
  obtain ⟨h₁, proxies, hp, hg₁, hcp⟩ := cloneAll_spec "proxy" htp
  obtain ⟨h₂, visitors, hv, hg₂, hcv⟩ := cloneAll_spec "visitor" fun l hl =>
    (value_grows hg₁ (htv l hl)).1
  refine ⟨h₂, proxies, visitors, ?_, hg₁.trans hg₂, hcp.grows hg₂, hcv.of_grows hg₁ htv⟩
  change cloneConfigurers h ((enabledOf h s.proxies (range.proxies s)).map some)
    ((enabledOf h s.visitors (range.visitors s)).map some) = _
  simp only [cloneConfigurers, hp, hv]

/-! ## Merging -/

structure Merges (h₀ h : Heap (Cell σ)) (m : GoMap String Nat)
    (pick : String → Option (ConfigValue σ)) : Prop where
  sound : SoundMap h m
  new : ∀ k l, m.get k = some l → h₀.next ≤ l
  view : ∀ k, (m.get k).bind (value h) = pick k

theorem merges_empty (h : Heap (Cell σ)) : Merges h h .empty fun _ => none where
  sound := by
    intro k l hl
    cases hl
  new := by
    intro k l hl
    cases hl
  view := fun _ => rfl

theorem SoundMap.grows (hm : SoundMap h m) (hg : Heap.Grows Cell.refs h h') : SoundMap h' m := by
  intro k l hl
  obtain ⟨ht, hname⟩ := hm k l hl
  obtain ⟨ht', hvalue⟩ := value_grows hg ht
  exact ⟨ht', (nameAt_congr hvalue).trans hname⟩

theorem Sound.grows (hs : Sound h s) (hg : Heap.Grows Cell.refs h h') : Sound h' s :=
  ⟨hs.proxies.grows hg, hs.visitors.grows hg⟩

theorem bind_value_congr (hv : ∀ k l, m.get k = some l → value h' l = value h l) (k : String) :
    (m.get k).bind (value h') = (m.get k).bind (value h) := by
  cases hk : m.get k with
  | none => rfl
  | some l => exact hv k l hk

theorem entry_congr (hv : ∀ k l, m.get k = some l → value h' l = value h l) (k : String) :
    entry h' m k = entry h m k := by
  rw [entry, entry, bind_value_congr hv k]

theorem SoundMap.entry_grows (hm : SoundMap h m) (hg : Heap.Grows Cell.refs h h') (k : String) :
    entry h' m k = entry h m k :=
  entry_congr (fun k l hl => (value_grows hg (hm k l hl).1).2) k

section Step

theorem mem_copies_iff (hm : SoundMap h m) (ho : m.Order order)
    (hc : Copies h h' (enabledOf h m order) ls) :
    (∃ l ∈ ls, value h' l = some v) ↔ entry h m v.name = some v := by
  have hmap : (∃ l ∈ ls, value h' l = some v) ↔
      ∃ l ∈ enabledOf h m order, value h l = some v := by
    rw [← List.mem_map, ← List.mem_map, hc.values]
  rw [hmap, entry_eq_some_iff]
  constructor
  · intro hl
    obtain ⟨l, hl, hv⟩ := hl
    obtain ⟨hmem, hen⟩ := List.mem_filter.1 hl
    rw [GoMap.mem_values_iff_of_keyedBy ho hm.keyedBy, nameAt_of_value hv] at hmem
    exact ⟨l, hmem, hv, (enabledAt_of_value hv).symm.trans hen⟩
  · intro hl
    obtain ⟨l, hl, hv, hen⟩ := hl
    exact ⟨l, List.mem_filter.2 ⟨(GoMap.mem_values_iff ho).2 ⟨_, hl⟩,
      (enabledAt_of_value hv).trans hen⟩, hv⟩

theorem nodup_copies (hm : SoundMap h m) (ho : m.Order order)
    (hc : Copies h h' (enabledOf h m order) ls) : (ls.map (nameAt h')).Nodup := by
  have hnames : ls.map (nameAt h') = (enabledOf h m order).map (nameAt h) := by
    have hmap := congrArg (List.map fun v => (Option.map ConfigValue.name v).getD "") hc.values
    rw [List.map_map, List.map_map] at hmap
    exact hmap
  rw [hnames]
  exact (List.filter_sublist.map (nameAt h)).nodup (GoMap.nodup_values ho hm.keyedBy)

theorem Merges.insertAll {merged : GoMap String Nat}
    (hmerges : Merges h₀ h merged pick)
    (hg₀ : Heap.Grows Cell.refs h₀ h) (hg : Heap.Grows Cell.refs h h') (hm : SoundMap h m)
    (ho : m.Order order) (hc : Copies h h' (enabledOf h m order) ls) :
    Merges h₀ h' (GoMap.insertAll (nameAt h') merged ls) fun k => (entry h m k).or (pick k) := by
  have hnodup := nodup_copies hm ho hc
  have hold := hmerges.sound.grows hg
  -- under a name there is a clone of that name, or what was there
  have hget : ∀ k, (∃ l ∈ ls, nameAt h' l = k ∧
        (GoMap.insertAll (nameAt h') merged ls).get k = some l) ∨
      (∀ l ∈ ls, nameAt h' l ≠ k) ∧
        (GoMap.insertAll (nameAt h') merged ls).get k = merged.get k := by
    intro k
    by_cases hk : ∃ l ∈ ls, nameAt h' l = k
    · obtain ⟨l, hl, rfl⟩ := hk
      exact .inl ⟨l, hl, rfl, GoMap.get_insertAll_of_mem merged hnodup hl⟩
    · have hne : ∀ l ∈ ls, nameAt h' l ≠ k := fun l hl heq => hk ⟨l, hl, heq⟩
      exact .inr ⟨hne, GoMap.get_insertAll_of_notMem merged hne⟩
  refine ⟨?_, ?_, ?_⟩
  · intro k l hl
    rcases hget k with ⟨l', hl', hname, heq⟩ | ⟨-, heq⟩
    · obtain rfl := Option.some.inj (heq.symm.trans hl)
      exact ⟨hc.typed l' hl', hname⟩
    · exact hold k l (heq.symm.trans hl)
  · intro k l hl
    rcases hget k with ⟨l', hl', -, heq⟩ | ⟨-, heq⟩
    · obtain rfl := Option.some.inj (heq.symm.trans hl)
      exact hg₀.next_le.trans (hc.new l' hl')
    · exact hmerges.new k l (heq.symm.trans hl)
  · intro k
    rcases hget k with ⟨l, hl, hname, heq⟩ | ⟨hne, heq⟩
    -- a clone of that name is the enabled entry of the source
    · obtain ⟨v, hv⟩ := typed_value (hc.typed l hl)
      have hentry := (mem_copies_iff hm ho hc).1 ⟨l, hl, hv⟩
      rw [← nameAt_of_value hv, hname] at hentry
      rw [heq, hentry]
      exact hv
    · have hentry : entry h m k = none := by
        cases hv : entry h m k with
        | none => rfl
        | some v =>
          obtain ⟨l, hl, hvl, -⟩ := entry_eq_some_iff.1 hv
          have hname : v.name = k := (nameAt_of_value hvl).symm.trans (hm k l hl).2
          rw [← hname] at hv
          obtain ⟨l', hl', hv'⟩ := (mem_copies_iff hm ho hc).2 hv
          exact absurd ((nameAt_of_value hv').trans hname) (hne l' hl')
      rw [heq, hentry, Option.none_or, ← hmerges.view k]
      exact bind_value_congr
        (fun k l hl => (value_grows hg (hmerges.sound k l hl).1).2) k

end Step

/-- What a list of sources says for a name, over what was there. -/
def pickFrom (h : Heap (Cell σ)) (maps : Source → GoMap String Nat)
    (pick : String → Option (ConfigValue σ)) (sources : List Source) :
    String → Option (ConfigValue σ) :=
  sources.foldl (fun pick s k => (entry h (maps s) k).or (pick k)) pick

theorem loadSources_spec (range : Nat → Ranges) {sources : List Source}
    (hs : ∀ s ∈ sources, Sound h₀ s) (i : Nat) (hg₀ : Heap.Grows Cell.refs h₀ h) (merged : Source)
    {pickP pickV : String → Option (ConfigValue σ)} (hp : Merges h₀ h merged.proxies pickP)
    (hv : Merges h₀ h merged.visitors pickV) :
    ∃ h' merged', loadSources range i h merged sources = .ok (h', merged') ∧
      Heap.Grows Cell.refs h₀ h' ∧
      Merges h₀ h' merged'.proxies (pickFrom h₀ Store.Source.proxies pickP sources) ∧
      Merges h₀ h' merged'.visitors (pickFrom h₀ Store.Source.visitors pickV sources) := by
  induction sources generalizing i h merged pickP pickV with
  | nil => exact ⟨h, merged, rfl, hg₀, hp, hv⟩
  | cons s sources ih =>
    have hsound₀ := hs s (by simp)
    have hsound := hsound₀.grows hg₀
    obtain ⟨h', proxies, visitors, heq, hg, hcp, hcv⟩ := sourceLoad_spec hsound (range i)
    have hp' := hp.insertAll hg₀ hg hsound.proxies ((range i).orderProxies s) hcp
    have hv' := hv.insertAll hg₀ hg hsound.visitors ((range i).orderVisitors s) hcv
    -- what the source says is what it said at the start
    simp only [hsound₀.proxies.entry_grows hg₀] at hp'
    simp only [hsound₀.visitors.entry_grows hg₀] at hv'
    have hrest : ∀ s' ∈ sources, Sound h₀ s' := fun s' hs' => hs s' (List.mem_cons_of_mem _ hs')
    let next : Source := ⟨GoMap.insertAll (nameAt h') merged.proxies proxies,
      GoMap.insertAll (nameAt h') merged.visitors visitors⟩
    obtain ⟨h'', merged', heq', hall⟩ := ih hrest (i + 1) (hg₀.trans hg) next hp' hv'
    refine ⟨h'', merged', ?_, hall⟩
    simp only [loadSources, heq]
    exact heq'

/-! ## Sorting -/

structure Slice (pick : String → Option (ConfigValue σ)) (vs : List (ConfigValue σ)) : Prop where
  ascending : vs.Pairwise fun v w => v.name < w.name
  mem_iff : ∀ k v, v ∈ vs ∧ v.name = k ↔ pick k = some v

theorem Slice.unique {vs ws : List (ConfigValue σ)} (hv : Slice pick vs) (hw : Slice pick ws) :
    vs = ws := by
  have hasymm : Std.Antisymm fun v w : ConfigValue σ => v.name < w.name :=
    ⟨fun v w h h' => absurd h' (lt_asymm h)⟩
  have hirrefl : Std.Irrefl fun v w : ConfigValue σ => v.name < w.name := ⟨fun v => lt_irrefl _⟩
  apply hv.ascending.eq_of_mem_iff hw.ascending
  intro v
  constructor
  · intro hmem
    exact ((hw.mem_iff v.name v).2 ((hv.mem_iff v.name v).1 ⟨hmem, rfl⟩)).1
  · intro hmem
    exact ((hv.mem_iff v.name v).2 ((hw.mem_iff v.name v).1 ⟨hmem, rfl⟩)).1

theorem pairwise_sortedByName (hnodup : (ls.map (nameAt h)).Nodup) :
    (sortedByName h ls).Pairwise fun x y => nameAt h x < nameAt h y := by
  -- sorting gives `≤`, and distinct names make it `<`
  have hle : (sortedByName h ls).Pairwise fun x y => decide (nameAt h x ≤ nameAt h y) = true := by
    apply List.pairwise_mergeSort
    · intro x y z hxy hyz
      exact decide_eq_true ((of_decide_eq_true hxy).trans (of_decide_eq_true hyz))
    · intro x y
      simpa using le_total (nameAt h x) (nameAt h y)
  have hne : (sortedByName h ls).Pairwise fun x y => nameAt h x ≠ nameAt h y := by
    rw [← List.pairwise_map]
    exact ((List.mergeSort_perm ls _).map (nameAt h)).nodup_iff.2 hnodup
  exact (hle.and hne).imp fun hxy => lt_of_le_of_ne (of_decide_eq_true hxy.1) hxy.2

theorem Merges.slice (hm : Merges h₀ h m pick) (ho : m.Order order) :
    ∃ vs, (sortedByName h (m.values order)).map (value h) = vs.map some ∧ Slice pick vs := by
  have hmem : ∀ l, l ∈ sortedByName h (m.values order) ↔ m.get (nameAt h l) = some l := by
    intro l
    rw [sortedByName, List.mem_mergeSort]
    exact GoMap.mem_values_iff_of_keyedBy ho hm.sound.keyedBy
  have hsorted := pairwise_sortedByName (GoMap.nodup_values ho hm.sound.keyedBy)
  generalize sortedByName h (m.values order) = ls at hmem hsorted
  obtain ⟨vs, hvs⟩ := exists_values fun l hl => (hm.sound _ l ((hmem l).1 hl)).1
  refine ⟨vs, hvs, ?_, ?_⟩
  · have hnames : (vs.map some).Pairwise fun v w : Option (ConfigValue σ) =>
        (v.map ConfigValue.name).getD "" < (w.map ConfigValue.name).getD "" := by
      rw [← hvs, List.pairwise_map]
      exact hsorted
    rw [List.pairwise_map] at hnames
    exact hnames
  · intro k v
    have hin : v ∈ vs ↔ ∃ l ∈ ls, value h l = some v := by
      rw [← List.mem_map, hvs, List.mem_map]
      simp
    rw [hin, ← hm.view k, Option.bind_eq_some_iff]
    constructor
    · intro hv
      obtain ⟨⟨l, hl, hv⟩, hk⟩ := hv
      have hget := (hmem l).1 hl
      rw [nameAt_of_value hv, hk] at hget
      exact ⟨l, hget, hv⟩
    · intro hv
      obtain ⟨l, hl, hv⟩ := hv
      have hname := (hm.sound k l hl).2
      refine ⟨⟨l, (hmem l).2 ?_, hv⟩, (nameAt_of_value hv).symm.trans hname⟩
      rw [hname]
      exact hl

theorem Merges.new_of_mem (hm : Merges h₀ h m pick) (ho : m.Order order) :
    ∀ l ∈ sortedByName h (m.values order), h₀.next ≤ l := by
  intro l hl
  rw [sortedByName, List.mem_mergeSort, GoMap.mem_values_iff ho] at hl
  obtain ⟨k, hk⟩ := hl
  exact hm.new k l hk

/-- One call: it succeeds, and gives new configurations that say what the sources say. -/
theorem load_spec {a : Aggregator} (hne : a.getSourcesLocked ≠ [])
    (hs : ∀ s ∈ a.getSourcesLocked, Sound h s) {range : Nat → Ranges} :
    ∃ h' ps vs proxies visitors, load h a range = .ok (h', ps, vs) ∧
      Heap.Grows Cell.refs h h' ∧ (∀ l ∈ ps ++ vs, h.next ≤ l) ∧
      ps.map (value h') = proxies.map some ∧ vs.map (value h') = visitors.map some ∧
      Slice (pickFrom h Store.Source.proxies (fun _ => none) a.getSourcesLocked) proxies ∧
      Slice (pickFrom h Store.Source.visitors (fun _ => none) a.getSourcesLocked) visitors := by
  obtain ⟨h', merged, heq, hg, hp, hv⟩ := loadSources_spec range hs 0 (.refl _ _)
    Store.newBaseSource (merges_empty h) (merges_empty h)
  let last := range a.getSourcesLocked.length
  have hop := last.orderProxies merged
  have hov := last.orderVisitors merged
  obtain ⟨proxies, hps, hslicep⟩ := hp.slice hop
  obtain ⟨visitors, hvs, hslicev⟩ := hv.slice hov
  refine ⟨h', _, _, proxies, visitors, ?_, hg, ?_, hps, hvs, hslicep, hslicev⟩
  · have hlen : ¬ a.getSourcesLocked.length = 0 := fun hlen => hne (List.length_eq_zero_iff.1 hlen)
    simp only [load, hlen, if_false, heq]
    rfl
  · intro l hl
    rcases List.mem_append.1 hl with hl | hl
    · exact hp.new_of_mem hop l hl
    · exact hv.new_of_mem hov l hl

/-! ## Calls and changes to what they returned -/

inductive Run (a : Aggregator) (h₀ : Heap (Cell σ)) : List Nat → Heap (Cell σ) → Prop where
  | start : Run a h₀ [] h₀
  | load {held : List Nat} {h h' : Heap (Cell σ)} {proxies visitors : List Nat}
      (hrun : Run a h₀ held h) (range : Nat → Ranges)
      (heq : load h a range = .ok (h', proxies, visitors)) :
      Run a h₀ ((proxies ++ visitors) ++ held) h'
  | change {held held' : List Nat} {h h' : Heap (Cell σ)} (hrun : Run a h₀ held h)
      (hc : Heap.Changes Cell.refs held h held' h') : Run a h₀ held' h'

def Holds (s : Source) (l : Nat) : Prop :=
  (∃ k, s.proxies.get k = some l) ∨ ∃ k, s.visitors.get k = some l

def Kept (a : Aggregator) (h₀ : Heap (Cell σ)) (l : Nat) : Prop :=
  ∃ s ∈ a.getSourcesLocked, ∃ root, Holds s root ∧ Heap.Reach Cell.refs h₀ [root] l

structure Apart (a : Aggregator) (h₀ h : Heap (Cell σ)) (held : List Nat) : Prop where
  same : ∀ l, Kept a h₀ l → h.cell l = h₀.cell l
  apart : ∀ l, Heap.Reach Cell.refs h held l → ¬ Kept a h₀ l

section Runs

variable {a : Aggregator} {held : List Nat}

theorem Sound.typed (hs : Sound h s) (hl : Holds s l) : Typed h l := by
  rcases hl with ⟨k, hk⟩ | ⟨k, hk⟩
  · exact (hs.proxies k l hk).1
  · exact (hs.visitors k l hk).1

theorem cell_of_kept (hs : ∀ s ∈ a.getSourcesLocked, Sound h₀ s) (hl : Kept a h₀ l) :
    h₀.cell l ≠ none := by
  obtain ⟨s, hmem, root, hroot, hreach⟩ := hl
  refine (sane_of_reach ?_ hreach).cell_ne
  intro l' hl'
  rw [List.mem_singleton.1 hl']
  exact (hs s hmem).typed hroot

theorem Apart.value (hap : Apart a h₀ h held) (hmem : s ∈ a.getSourcesLocked) (hs : Sound h₀ s)
    (hl : Holds s l) : Typed h l ∧ Clone.value h l = Clone.value h₀ l := by
  have hagree : ∀ r, Heap.Reach Cell.refs h₀ [l] r → h.cell r = h₀.cell r := fun r hr =>
    hap.same r ⟨s, hmem, l, hl, hr⟩
  exact value_agree hagree (by simp) (hs.typed hl)

theorem SoundMap.of_value (hm : SoundMap h₀ m)
    (hv : ∀ k l, m.get k = some l → Typed h l ∧ value h l = value h₀ l) : SoundMap h m := by
  intro k l hl
  obtain ⟨ht, hvalue⟩ := hv k l hl
  exact ⟨ht, (nameAt_congr hvalue).trans (hm k l hl).2⟩

theorem Apart.sound (hap : Apart a h₀ h held) (hmem : s ∈ a.getSourcesLocked) (hs : Sound h₀ s) :
    Sound h s where
  proxies := hs.proxies.of_value fun k _ hl => hap.value hmem hs (.inl ⟨k, hl⟩)
  visitors := hs.visitors.of_value fun k _ hl => hap.value hmem hs (.inr ⟨k, hl⟩)

theorem apart_of_run (hne : a.getSourcesLocked ≠ []) (hs : ∀ s ∈ a.getSourcesLocked, Sound h₀ s)
    (hrun : Run a h₀ held h) : Apart a h₀ h held := by
  have hcell : ∀ {h : Heap (Cell σ)} {held : List Nat}, Apart a h₀ h held →
      ∀ l, Kept a h₀ l → h.cell l ≠ none := by
    intro h held hap l hl
    rw [hap.same l hl]
    exact cell_of_kept hs hl
  induction hrun with
  | start => exact ⟨fun _ _ => rfl, fun l hl => absurd hl Heap.not_reach_nil⟩
  | @load held h h' proxies visitors _ range heq ih =>
    obtain ⟨h'', ps, vs, -, -, hload, hg, hnew, -⟩ :=
      load_spec hne (fun s hmem => ih.sound hmem (hs s hmem))
    obtain ⟨rfl, rfl, rfl⟩ : h'' = h' ∧ ps = proxies ∧ vs = visitors := by
      have hsame := Except.ok.inj (hload.symm.trans heq)
      simpa only [Prod.mk.injEq] using hsame
    refine ⟨?_, ?_⟩
    · intro l hl
      obtain ⟨c, hc⟩ := Option.ne_none_iff_exists'.1 (hcell ih l hl)
      rw [hg.cell hc, ← hc]
      exact ih.same l hl
    · intro l hl hkept
      -- what is returned is new, and the sources are not
      rcases hg.reach_cases hnew hl with hl | hl
      · exact hcell ih l hkept (h.unused l hl)
      · exact ih.apart l hl hkept
  | @change held held' h h' _ hc ih =>
    obtain ⟨hsame, hapart⟩ := hc.frame (hcell ih) ih.apart
    exact ⟨fun l hl => (hsame l hl).trans (ih.same l hl), hapart⟩

theorem pickFrom_congr {maps : Source → GoMap String Nat} {sources : List Source}
    (hentry : ∀ s ∈ sources, ∀ k, entry h (maps s) k = entry h₀ (maps s) k)
    (pick : String → Option (ConfigValue σ)) :
    pickFrom h maps pick sources = pickFrom h₀ maps pick sources := by
  induction sources generalizing pick with
  | nil => rfl
  | cons s sources ih =>
    have hfirst : (fun k => (entry h (maps s) k).or (pick k)) =
        fun k => (entry h₀ (maps s) k).or (pick k) := by
      funext k
      rw [hentry s (by simp) k]
    rw [pickFrom, pickFrom, List.foldl_cons, List.foldl_cons, hfirst]
    exact ih (fun s' hs' => hentry s' (List.mem_cons_of_mem _ hs')) _

/-- What a call returns after a run is what the sources said at the start. -/
theorem load_of_run (hne : a.getSourcesLocked ≠ []) (hs : ∀ s ∈ a.getSourcesLocked, Sound h₀ s)
    (hrun : Run a h₀ held h) (range : Nat → Ranges) :
    ∃ h' ps vs proxies visitors, load h a range = .ok (h', ps, vs) ∧
      ps.map (value h') = proxies.map some ∧ vs.map (value h') = visitors.map some ∧
      Slice (pickFrom h₀ Store.Source.proxies (fun _ => none) a.getSourcesLocked) proxies ∧
      Slice (pickFrom h₀ Store.Source.visitors (fun _ => none) a.getSourcesLocked) visitors := by
  have hap := apart_of_run hne hs hrun
  obtain ⟨h', ps, vs, proxies, visitors, heq, -, -, hps, hvs, hp, hv⟩ :=
    load_spec hne (fun s hmem => hap.sound hmem (hs s hmem))
  refine ⟨h', ps, vs, proxies, visitors, heq, hps, hvs, ?_, ?_⟩
  · rwa [pickFrom_congr fun s hmem => entry_congr fun k l hl =>
      (hap.value hmem (hs s hmem) (.inl ⟨k, hl⟩)).2] at hp
  · rwa [pickFrom_congr fun s hmem => entry_congr fun k l hl =>
      (hap.value hmem (hs s hmem) (.inr ⟨k, hl⟩)).2] at hv

end Runs

def clientAggregator (file : Source) (store : Option Source) : Aggregator :=
  (newAggregator (some file)).setStoreSource store

theorem getSourcesLocked_client (file : Source) (store : Option Source) :
    (clientAggregator file store).getSourcesLocked = file :: store.toList := rfl

theorem pickFrom_client (maps : Source → GoMap String Nat) (file : Source)
    (store : Option Source) :
    pickFrom h maps (fun _ => none) (file :: store.toList) = override h maps file store := by
  funext k
  cases store with
  | none => exact Option.or_none
  | some s => exact congrArg (Option.or (entry h (maps s) k)) Option.or_none

/-- `Load` gives each name the enabled entry of the store, else that of the file; for every order of
the loops and after any change to what earlier calls returned. -/
theorem load_merges_sources (h₀ : Heap (Cell σ)) (file : Source) (store : Option Source)
    (hfile : Sound h₀ file) (hstore : ∀ s ∈ store, Sound h₀ s) :
    ∃ proxies visitors : List (ConfigValue σ),
      Slice (override h₀ Store.Source.proxies file store) proxies ∧
      Slice (override h₀ Store.Source.visitors file store) visitors ∧
      ∀ held h, Run (clientAggregator file store) h₀ held h → ∀ range, ∃ h' ps vs,
        load h (clientAggregator file store) range = .ok (h', ps, vs) ∧
        ps.map (value h') = proxies.map some ∧ vs.map (value h') = visitors.map some := by
  have hne : (clientAggregator file store).getSourcesLocked ≠ [] := by
    rw [getSourcesLocked_client]
    exact List.cons_ne_nil _ _
  have hs : ∀ s ∈ (clientAggregator file store).getSourcesLocked, Sound h₀ s := by
    intro s hmem
    rw [getSourcesLocked_client, List.mem_cons, Option.mem_toList] at hmem
    rcases hmem with rfl | hmem
    · exact hfile
    · exact hstore s hmem
  have hload := fun held h (hrun : Run (clientAggregator file store) h₀ held h) range =>
    load_of_run hne hs hrun range
  simp only [getSourcesLocked_client, pickFrom_client] at hload
  -- the lists are those of one call at the start; any other call has the same, by uniqueness
  obtain ⟨-, -, -, proxies, visitors, -, -, -, hp, hv⟩ :=
    hload [] h₀ .start fun _ => Store.sortedRanges
  refine ⟨proxies, visitors, hp, hv, ?_⟩
  intro held h hrun range
  obtain ⟨h', ps, vs, proxies', visitors', heq, hps, hvs, hp', hv'⟩ := hload held h hrun range
  rw [hp'.unique hp] at hps
  rw [hv'.unique hv] at hvs
  exact ⟨h', ps, vs, heq, hps, hvs⟩

end Load

section Disabled

def tcpConfig (name : String) (enabled : Option Nat) : ConfigStruct Unit :=
  ⟨.proxy .tcp, name, (), fun f => if f = .enabled then enabled else none, none⟩

def webHeap : Heap (Cell Unit) where
  cell
    | 0 => some (.config (tcpConfig "web" none))
    | 1 => some (.data (.flag false))
    | 2 => some (.config (tcpConfig "web" (some 1)))
    | _ => none
  next := 3
  unused
    | 0, h => by omega
    | 1, h => by omega
    | 2, h => by omega
    | _ + 3, _ => rfl

def webSource (l : Nat) : Source := ⟨GoMap.empty.insert "web" l, .empty⟩

theorem sound_webSource {l : Nat} (ht : Typed webHeap l) (hname : nameAt webHeap l = "web") :
    Sound webHeap (webSource l) where
  proxies := by
    intro k l' hl'
    rw [webSource, GoMap.get_insert] at hl'
    split_ifs at hl' with hk
    · obtain rfl := Option.some.inj hl'
      exact ⟨ht, hname.trans hk.symm⟩
    · cases hl'
  visitors := by
    intro k l' hl'
    cases hl'

theorem typed_web_file : Typed webHeap 0 := by
  refine ⟨_, rfl, ?_, fun p hp => by cases hp⟩
  intro f l hl
  simp [tcpConfig] at hl

theorem typed_web_store : Typed webHeap 2 := by
  refine ⟨_, rfl, ?_, fun p hp => by cases hp⟩
  intro f l hl
  simp only [tcpConfig] at hl
  split_ifs at hl with hf
  obtain rfl := Option.some.inj hl
  exact ⟨by simp [tcpConfig, refFields, hf], _, rfl⟩

/-- A disabled entry of the store does not hide the entry of the file. -/
theorem load_merges_sources_disabled : ∃ proxies visitors : List (ConfigValue Unit),
      (∃ v ∈ proxies, value webHeap 0 = some v) ∧
      ∀ held h, Run (clientAggregator (webSource 0) (some (webSource 2))) webHeap held h →
        ∀ range, ∃ h' ps vs,
          load h (clientAggregator (webSource 0) (some (webSource 2))) range = .ok (h', ps, vs) ∧
          ps.map (value h') = proxies.map some ∧ vs.map (value h') = visitors.map some := by
  obtain ⟨proxies, visitors, hp, -, hload⟩ :=
    load_merges_sources webHeap (webSource 0) (some (webSource 2))
      (sound_webSource typed_web_file rfl) (by
        intro s hs
        obtain rfl := Option.some.inj hs
        exact sound_webSource typed_web_store rfl)
  refine ⟨proxies, visitors, ?_, hload⟩
  obtain ⟨v, hv⟩ := typed_value typed_web_file
  refine ⟨v, ((hp.mem_iff "web" v).2 ?_).1, hv⟩
  rw [← hv]
  rfl

end Disabled

end FrpMeo.Config.Sources
