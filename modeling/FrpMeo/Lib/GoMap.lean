import Mathlib.Data.Finset.Sort

/-!
# Maps that are ranged over in any order

A finite map: a lookup function and the set of its keys, determined by its lookups
(`GoMap.ext_get`). A loop takes the keys in any `Order` and sees `values`. `ofList` collects values
under their own keys, and gives a map back from its values in any order (`ofList_values`).
-/

namespace FrpMeo.Lib

open Function

universe u v

@[ext]
structure GoMap (κ : Type u) (α : Type v) where
  get : κ → Option α
  keys : Finset κ
  mem_keys : ∀ k, k ∈ keys ↔ get k ≠ none

namespace GoMap

variable {κ : Type u} {α : Type v} {m : GoMap κ α} {l : List κ}

theorem ext_get {m' : GoMap κ α} (h : ∀ k, m.get k = m'.get k) : m = m' := by
  have hget : m.get = m'.get := funext h
  apply GoMap.ext hget
  ext k
  rw [m.mem_keys, m'.mem_keys, h k]

def empty : GoMap κ α := ⟨fun _ => none, ∅, fun k => by simp⟩

@[simp]
theorem get_empty (k : κ) : (empty : GoMap κ α).get k = none := rfl

theorem eq_empty_of_keys (h : m.keys = ∅) : m = empty := by
  apply ext_get
  intro k
  by_contra hk
  have hmem := (m.mem_keys k).2 hk
  rw [h] at hmem
  exact Finset.notMem_empty k hmem

def Order (m : GoMap κ α) (l : List κ) : Prop := l.Nodup ∧ ∀ k, k ∈ l ↔ k ∈ m.keys

def values (m : GoMap κ α) (l : List κ) : List α := l.filterMap m.get

def KeyedBy (key : α → κ) (m : GoMap κ α) : Prop := ∀ k a, m.get k = some a → key a = k

theorem keyedBy_empty (key : α → κ) : (empty : GoMap κ α).KeyedBy key := by
  intro k a h
  cases h

theorem mem_values_iff (h : m.Order l) {a : α} : a ∈ m.values l ↔ ∃ k, m.get k = some a := by
  rw [values, List.mem_filterMap]
  constructor
  · intro ha
    obtain ⟨k, -, hk⟩ := ha
    exact ⟨k, hk⟩
  · intro ha
    obtain ⟨k, hk⟩ := ha
    refine ⟨k, (h.2 k).2 ((m.mem_keys k).2 ?_), hk⟩
    rw [hk]
    simp

theorem mem_values_iff_of_keyedBy (h : m.Order l) {key : α → κ} (hkey : m.KeyedBy key) {a : α} :
    a ∈ m.values l ↔ m.get (key a) = some a := by
  rw [mem_values_iff h]
  constructor
  · intro ha
    obtain ⟨k, hk⟩ := ha
    rw [hkey k a hk]
    exact hk
  · intro ha
    exact ⟨key a, ha⟩

theorem nodup_values (h : m.Order l) {key : α → κ} (hkey : m.KeyedBy key) :
    ((m.values l).map key).Nodup := by
  have hsub : ((m.values l).map key).Sublist l := by
    have hmap : (m.values l).map key = l.filterMap fun k => (m.get k).map key := by
      rw [values, List.map_filterMap]
    rw [hmap]
    have hsame : ∀ k, (m.get k).map key = if (m.get k).isSome then some k else none := by
      intro k
      cases hk : m.get k with
      | none => rfl
      | some a => simp [hkey k a hk]
    rw [funext hsame]
    clear hmap h
    induction l with
    | nil => simp
    | cons k l ih =>
      by_cases hk : (m.get k).isSome = true
      · simpa [hk] using ih
      · simpa [hk] using ih.cons k
  exact hsub.nodup h.1

section Operations

variable [DecidableEq κ]

instance decidableOrder (m : GoMap κ α) (l : List κ) : Decidable (m.Order l) :=
  decidable_of_iff (l.Nodup ∧ l.toFinset = m.keys) (by simp [Order, Finset.ext_iff])

def insert (m : GoMap κ α) (k : κ) (a : α) : GoMap κ α where
  get := update m.get k (some a)
  keys := Insert.insert k m.keys
  mem_keys := by
    intro k'
    rw [Finset.mem_insert, m.mem_keys]
    by_cases h : k' = k <;> simp [h]

def erase (m : GoMap κ α) (k : κ) : GoMap κ α where
  get := update m.get k none
  keys := m.keys.erase k
  mem_keys := by
    intro k'
    rw [Finset.mem_erase, m.mem_keys]
    by_cases h : k' = k <;> simp [h]

theorem get_insert (m : GoMap κ α) (k k' : κ) (a : α) :
    (m.insert k a).get k' = if k' = k then some a else m.get k' :=
  update_apply ..

theorem get_erase (k k' : κ) :
    (m.erase k).get k' = if k' = k then none else m.get k' :=
  update_apply ..

def filter (m : GoMap κ α) (p : α → Bool) : GoMap κ α where
  get := fun k => (m.get k).filter p
  keys := m.keys.filter fun k => ((m.get k).filter p).isSome
  mem_keys := by
    intro k
    rw [Finset.mem_filter, m.mem_keys, Option.isSome_iff_ne_none]
    constructor
    · exact fun h => h.2
    · intro h
      refine ⟨?_, h⟩
      intro hnone
      rw [hnone] at h
      exact h rfl

variable {k : κ} {key : α → κ} {l : List α}

/-- Deleting an entry that was not there before undoes its insertion. -/
theorem erase_insert (h : m.get k = none) (a : α) : (m.insert k a).erase k = m := by
  apply ext_get
  intro k'
  rw [get_erase, get_insert]
  split_ifs with hk
  · rw [hk, h]
  · rfl

/-- Writing the old value back undoes an overwrite. -/
theorem insert_insert {old : α} (h : m.get k = some old) (a : α) :
    (m.insert k a).insert k old = m := by
  apply ext_get
  intro k'
  rw [get_insert, get_insert]
  split_ifs with hk
  · rw [hk, h]
  · rfl

/-- Writing the old value back undoes a deletion. -/
theorem insert_erase {old : α} (h : m.get k = some old) : (m.erase k).insert k old = m := by
  apply ext_get
  intro k'
  rw [get_insert, get_erase]
  split_ifs with hk
  · rw [hk, h]
  · rfl

theorem KeyedBy.insert (h : m.KeyedBy key) {a : α} (ha : key a = k) :
    (m.insert k a).KeyedBy key := by
  intro k' b hb
  rw [get_insert] at hb
  split_ifs at hb with hk
  · obtain rfl := Option.some.inj hb
    rw [ha, hk]
  · exact h k' b hb

theorem KeyedBy.erase (h : m.KeyedBy key) (k : κ) : (m.erase k).KeyedBy key := by
  intro k' b hb
  rw [get_erase] at hb
  split_ifs at hb with hk
  exact h k' b hb

def insertAll (key : α → κ) (m : GoMap κ α) (l : List α) : GoMap κ α :=
  l.foldl (fun m a => m.insert (key a) a) m

def ofList (key : α → κ) (l : List α) : GoMap κ α := insertAll key empty l

theorem get_insertAll_of_notMem (m : GoMap κ α) (h : ∀ a ∈ l, key a ≠ k) :
    (insertAll key m l).get k = m.get k := by
  induction l generalizing m with
  | nil => rfl
  | cons a l ih =>
    have hne : ¬ k = key a := fun hk => h a (by simp) hk.symm
    have hrest := ih (m.insert (key a) a) fun b hb => h b (List.mem_cons_of_mem _ hb)
    rw [get_insert, if_neg hne] at hrest
    exact hrest

theorem get_insertAll_of_mem (m : GoMap κ α) (hl : (l.map key).Nodup) {a : α} (ha : a ∈ l) :
    (insertAll key m l).get (key a) = some a := by
  induction l generalizing m with
  | nil => cases ha
  | cons b l ih =>
    rw [List.map_cons, List.nodup_cons] at hl
    rcases List.mem_cons.1 ha with rfl | ha
    · have hrest : ∀ c ∈ l, key c ≠ key a := by
        intro c hc heq
        exact hl.1 (List.mem_map.2 ⟨c, hc, heq⟩)
      have hget := get_insertAll_of_notMem (m.insert (key a) a) hrest
      rw [get_insert, if_pos rfl] at hget
      exact hget
    · exact ih (m.insert (key b) b) hl.2 ha

/-- Values with distinct keys are found under their keys, and nothing else is. -/
theorem get_ofList_iff (hl : (l.map key).Nodup) {a : α} :
    (ofList key l).get k = some a ↔ a ∈ l ∧ key a = k := by
  constructor
  · intro hk
    by_cases hmem : ∃ b ∈ l, key b = k
    · obtain ⟨b, hb, rfl⟩ := hmem
      obtain rfl := Option.some.inj ((get_insertAll_of_mem empty hl hb).symm.trans hk)
      exact ⟨hb, rfl⟩
    · have hne : ∀ b ∈ l, key b ≠ k := fun b hb heq => hmem ⟨b, hb, heq⟩
      rw [ofList, get_insertAll_of_notMem empty hne] at hk
      cases hk
  · intro hk
    obtain ⟨ha, rfl⟩ := hk
    exact get_insertAll_of_mem empty hl ha

/-- Collecting the values of a map gives the map, in any order. -/
theorem ofList_values (hkey : m.KeyedBy key) {l : List κ} (h : m.Order l) :
    ofList key (m.values l) = m := by
  apply ext_get
  intro k
  apply Option.ext
  intro a
  rw [get_ofList_iff (nodup_values h hkey), mem_values_iff_of_keyedBy h hkey]
  constructor
  · intro ha
    obtain ⟨hget, rfl⟩ := ha
    exact hget
  · intro hget
    obtain rfl := hkey k a hget
    exact ⟨hget, rfl⟩

end Operations

end GoMap

end FrpMeo.Lib
