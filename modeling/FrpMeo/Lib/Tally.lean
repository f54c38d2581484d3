import FrpMeo.Lib.GoMap
import Mathlib.Algebra.Order.BigOperators.Group.Finset
import Mathlib.Tactic.Abel

/-!
# Tallies

A counter is compared with a sum over the places it counts. A step changes one place, and the sum by
what that place gains (`sum_change`). `GoMap.total` adds up a weight over the values of a map.
-/

namespace FrpMeo.Lib

universe u v w

section Sum

variable {ι : Type u} {M : Type w} [AddCommGroup M]

/-- Two weights that differ at one place. -/
theorem sum_change [DecidableEq ι] {s : Finset ι} {f g : ι → M} {i : ι} (hi : i ∈ s)
    (h : ∀ j ∈ s, j ≠ i → g j = f j) : ∑ j ∈ s, g j = ∑ j ∈ s, f j + (g i - f i) := by
  have hrest : ∑ j ∈ s.erase i, g j = ∑ j ∈ s.erase i, f j := by
    apply Finset.sum_congr rfl
    intro j hj
    exact h j (Finset.mem_of_mem_erase hj) (Finset.ne_of_mem_erase hj)
  rw [← Finset.add_sum_erase s g hi, ← Finset.add_sum_erase s f hi, hrest]
  abel

end Sum

namespace GoMap

variable {κ : Type u} {α : Type v} {M : Type w} [AddCommGroup M]

def weight (m : GoMap κ α) (w : α → M) (k : κ) : M := (m.get k).elim 0 w

def total (m : GoMap κ α) (w : α → M) : M := ∑ k ∈ m.keys, m.weight w k

variable {m : GoMap κ α} {k : κ}

theorem weight_of_notMem (w : α → M) (h : k ∉ m.keys) : m.weight w k = 0 := by
  have hnone : m.get k = none := by
    by_contra hk
    exact h ((m.mem_keys k).2 hk)
  rw [weight, hnone]
  rfl

theorem weight_of_get (w : α → M) {a : α} (h : m.get k = some a) : m.weight w k = w a := by
  rw [weight, h]
  rfl

/-- Keys that the map does not have add nothing. -/
theorem total_eq_sum (w : α → M) {s : Finset κ} (h : m.keys ⊆ s) :
    m.total w = ∑ k ∈ s, m.weight w k :=
  Finset.sum_subset h fun _ _ hk => weight_of_notMem w hk

theorem total_empty (w : α → M) : (empty : GoMap κ α).total w = 0 := Finset.sum_empty

/-- Dropping entries that weigh nothing leaves the total. -/
theorem total_filter {w : α → M} {p : α → Bool}
    (h : ∀ k a, m.get k = some a → p a = false → w a = 0) : (m.filter p).total w = m.total w := by
  rw [total_eq_sum w (Finset.filter_subset _ m.keys : (m.filter p).keys ⊆ m.keys), total]
  apply Finset.sum_congr rfl
  intro k _
  cases hk : m.get k with
  | none => simp [weight, filter, hk]
  | some a =>
    cases hp : p a with
    | true => simp [weight, filter, hk, hp, Option.filter_some]
    | false => simp [weight, filter, hk, hp, Option.filter_some, h k a hk hp]

variable [DecidableEq κ]

theorem total_insert (m : GoMap κ α) (w : α → M) (k : κ) (a : α) :
    (m.insert k a).total w = m.total w + (w a - m.weight w k) := by
  have hkeys : m.keys ⊆ Insert.insert k m.keys := Finset.subset_insert k m.keys
  have hself : (m.insert k a).weight w k = w a := weight_of_get w (by rw [get_insert, if_pos rfl])
  rw [total_eq_sum w hkeys, total, ← hself]
  apply sum_change (Finset.mem_insert_self k m.keys)
  intro j _ hj
  rw [weight, get_insert, if_neg hj, weight]

theorem total_insert_of_none (h : m.get k = none) (w : α → M) (a : α) :
    (m.insert k a).total w = m.total w + w a := by
  have hzero : m.weight w k = 0 := by
    rw [weight, h]
    rfl
  rw [total_insert, hzero, sub_zero]

theorem total_insert_of_get {old : α} (h : m.get k = some old) (w : α → M) (a : α) :
    (m.insert k a).total w = m.total w + (w a - w old) := by
  rw [total_insert, weight_of_get w h]

theorem total_erase (m : GoMap κ α) (w : α → M) (k : κ) :
    (m.erase k).total w = m.total w - m.weight w k := by
  by_cases hk : k ∈ m.keys
  · have hself : (m.erase k).weight w k = 0 := by
      rw [weight, get_erase, if_pos rfl]
      rfl
    have hkeys : (m.erase k).keys ⊆ m.keys := Finset.erase_subset k m.keys
    rw [total_eq_sum w hkeys, total, sub_eq_add_neg, ← zero_sub, ← hself]
    apply sum_change hk
    intro j _ hj
    rw [weight, get_erase, if_neg hj, weight]
  · have hsame : m.erase k = m := by
      apply ext_get
      intro j
      rw [get_erase]
      split_ifs with hj
      · subst hj
        by_contra hne
        exact hk ((m.mem_keys j).2 (Ne.symm hne))
      · rfl
    rw [hsame, weight_of_notMem w hk, sub_zero]

end GoMap

namespace GoMap

variable {κ : Type u} {α : Type v} {m : GoMap κ α} {w : α → Int}

theorem weight_nonneg (h : ∀ k a, m.get k = some a → 0 ≤ w a) (k : κ) : 0 ≤ m.weight w k := by
  cases hk : m.get k with
  | none => simp [weight, hk]
  | some a => simpa [weight, hk] using h k a hk

theorem total_nonneg (h : ∀ k a, m.get k = some a → 0 ≤ w a) : 0 ≤ m.total w :=
  Finset.sum_nonneg fun k _ => weight_nonneg h k

theorem weight_le_total (h : ∀ k a, m.get k = some a → 0 ≤ w a) (k : κ) :
    m.weight w k ≤ m.total w := by
  by_cases hk : k ∈ m.keys
  · exact Finset.single_le_sum (fun j _ => weight_nonneg h j) hk
  · rw [weight_of_notMem w hk]
    exact total_nonneg h

end GoMap

end FrpMeo.Lib
