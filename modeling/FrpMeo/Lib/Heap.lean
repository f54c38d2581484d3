import Mathlib.Data.Nat.Basic
import Mathlib.Order.Basic

/-!
# Heaps of cells that refer to each other

A heap gives cells to locations, and `refs` the locations a cell refers to. `Grows h h'`: a call has
allocated cells that refer to nothing older (`Grows.reach_cases`). `Changes roots h roots' h'`: what
a program that holds `roots` can do; it never touches what it does not reach at the start
(`Changes.frame`).
-/

namespace FrpMeo.Lib

open Function

universe u

structure Heap (C : Type u) where
  cell : Nat → Option C
  next : Nat
  unused : ∀ l, next ≤ l → cell l = none

namespace Heap

variable {C : Type u}

def alloc (h : Heap C) (c : C) : Heap C × Nat :=
  (⟨update h.cell h.next (some c), h.next + 1, fun l hl => by
      rw [update_of_ne (by omega)]
      exact h.unused l (by omega)⟩, h.next)

def write (h : Heap C) (l : Nat) (c : C) : Heap C :=
  if hl : l < h.next then
    ⟨update h.cell l (some c), h.next, fun l' hl' => by
      rw [update_of_ne (by omega)]
      exact h.unused l' hl'⟩
  else h

variable {h : Heap C} {l : Nat}

theorem lt_next {c : C} (hl : h.cell l = some c) : l < h.next := by
  by_contra hle
  rw [h.unused l (by omega)] at hl
  cases hl

theorem alloc_cell_self (h : Heap C) (c : C) : (h.alloc c).1.cell h.next = some c :=
  update_self ..

theorem alloc_cell_of_ne (h : Heap C) (c : C) (hl : l ≠ h.next) : (h.alloc c).1.cell l = h.cell l :=
  update_of_ne hl ..

theorem alloc_cell_of_some (h : Heap C) (c : C) {c' : C} (hl : h.cell l = some c') :
    (h.alloc c).1.cell l = some c' :=
  (alloc_cell_of_ne h c (lt_next hl).ne).trans hl

theorem write_cell_self {c : C} (hl : h.cell l = some c) (c' : C) :
    (h.write l c').cell l = some c' := by
  rw [write, dif_pos (lt_next hl)]
  exact update_self ..

@[simp]
theorem write_next (h : Heap C) (l : Nat) (c : C) : (h.write l c).next = h.next := by
  unfold write
  split_ifs <;> rfl

theorem write_cell_of_ne (h : Heap C) (c : C) {l' : Nat} (hne : l' ≠ l) :
    (h.write l c).cell l' = h.cell l' := by
  unfold write
  split_ifs
  · exact update_of_ne hne ..
  · rfl

theorem write_cell_cases {l' : Nat} {c c' : C} (hc : (h.write l c).cell l' = some c') :
    l' = l ∧ c' = c ∨ h.cell l' = some c' := by
  unfold write at hc
  split_ifs at hc with hlt
  · by_cases hl : l' = l
    · rw [hl] at hc
      dsimp only at hc
      rw [update_self] at hc
      exact .inl ⟨hl, (Option.some.inj hc).symm⟩
    · dsimp only at hc
      rw [update_of_ne hl] at hc
      exact .inr hc
  · exact .inr hc

section Reach

variable (refs : C → List Nat)

inductive Reach (h : Heap C) (roots : List Nat) : Nat → Prop where
  | root {l : Nat} (hl : l ∈ roots) : Reach h roots l
  | step {l r : Nat} {c : C} (hl : Reach h roots l) (hc : h.cell l = some c) (hr : r ∈ refs c) :
      Reach h roots r

variable {refs} in
theorem not_reach_nil : ¬ Reach refs h [] l := by
  intro hl
  induction hl with
  | root hl => cases hl
  | step _ _ _ ih => exact ih

/-- A call has allocated cells that refer to nothing older. -/
structure Grows (h h' : Heap C) : Prop where
  next_le : h.next ≤ h'.next
  old : ∀ l, l < h.next → h'.cell l = h.cell l
  new : ∀ l c, h.next ≤ l → h'.cell l = some c → ∀ r ∈ refs c, h.next ≤ r

theorem Grows.refl (h : Heap C) : Grows refs h h where
  next_le := le_refl _
  old := fun _ _ => rfl
  new := by
    intro l c hl hc
    rw [h.unused l hl] at hc
    cases hc

variable {refs}

theorem Grows.trans {h₁ h₂ h₃ : Heap C} (h : Grows refs h₁ h₂) (h' : Grows refs h₂ h₃) :
    Grows refs h₁ h₃ where
  next_le := h.next_le.trans h'.next_le
  old := fun l hl => (h'.old l (hl.trans_le h.next_le)).trans (h.old l hl)
  new := by
    intro l c hl hc r hr
    by_cases hlt : l < h₂.next
    · rw [h'.old l hlt] at hc
      exact h.new l c hl hc r hr
    · exact h.next_le.trans (h'.new l c (by omega) hc r hr)

/-- An allocation grows the heap if the new cell refers to nothing older than the start. -/
theorem Grows.alloc {h₁ h₂ : Heap C} (h : Grows refs h₁ h₂) {c : C}
    (hc : ∀ r ∈ refs c, h₁.next ≤ r) : Grows refs h₁ (h₂.alloc c).1 where
  next_le := h.next_le.trans (Nat.le_succ _)
  old := by
    intro l hl
    have hne : l ≠ h₂.next := by
      have := h.next_le
      omega
    exact (alloc_cell_of_ne h₂ c hne).trans (h.old l hl)
  new := by
    intro l c' hl hc'
    by_cases hnew : l = h₂.next
    · rw [hnew, alloc_cell_self] at hc'
      obtain rfl := Option.some.inj hc'
      exact hc
    · rw [alloc_cell_of_ne h₂ c hnew] at hc'
      exact h.new l c' hl hc'

theorem Grows.cell {h' : Heap C} (hg : Grows refs h h') {c : C}
    (hc : h.cell l = some c) : h'.cell l = some c :=
  (hg.old l (lt_next hc)).trans hc

/-- New roots reach new cells only, and old ones what they did. -/
theorem Grows.reach_cases {h' : Heap C} (hg : Grows refs h h') {roots roots' : List Nat}
    (hroots : ∀ l ∈ roots', h.next ≤ l) (hl : Reach refs h' (roots' ++ roots) l) :
    h.next ≤ l ∨ Reach refs h roots l := by
  induction hl with
  | root hl =>
    rcases List.mem_append.1 hl with hl | hl
    · exact .inl (hroots _ hl)
    · exact .inr (.root hl)
  | @step l _ _ _ hc hr ih =>
    by_cases hlt : l < h.next
    · rw [hg.old l hlt] at hc
      rcases ih with ih | ih
      · exact absurd hlt (Nat.not_lt.2 ih)
      · exact .inr (.step ih hc hr)
    · exact .inl (hg.new l _ (Nat.not_lt.1 hlt) hc _ hr)

end Reach

section Changes

variable (refs : C → List Nat)

/-- What a program that holds `roots` can make of a heap; new cells are added to what it holds. -/
inductive Changes (roots : List Nat) (h : Heap C) : List Nat → Heap C → Prop where
  | refl : Changes roots h roots h
  | alloc {roots' : List Nat} {h' : Heap C} (hc : Changes roots h roots' h') (c : C)
      (hrefs : ∀ r ∈ refs c, Reach refs h' roots' r) :
      Changes roots h (h'.next :: roots') (h'.alloc c).1
  | write {roots' : List Nat} {h' : Heap C} (hc : Changes roots h roots' h') (l : Nat) (c : C)
      (hl : Reach refs h' roots' l) (hrefs : ∀ r ∈ refs c, Reach refs h' roots' r) :
      Changes roots h roots' (h'.write l c)

variable {refs} {roots : List Nat}

/-- An allocation adds itself to what can be reached. -/
theorem reach_alloc {c : C} (hrefs : ∀ r ∈ refs c, Reach refs h roots r)
    (hl : Reach refs (h.alloc c).1 (h.next :: roots) l) : l = h.next ∨ Reach refs h roots l := by
  induction hl with
  | root hl =>
    rcases List.mem_cons.1 hl with hl | hl
    · exact .inl hl
    · exact .inr (.root hl)
  | @step l r c' _ hc' hr ih =>
    right
    by_cases hnew : l = h.next
    · rw [hnew, alloc_cell_self] at hc'
      obtain rfl := Option.some.inj hc'
      exact hrefs r hr
    · rw [alloc_cell_of_ne h c hnew] at hc'
      rcases ih with ih | ih
      · exact absurd ih hnew
      · exact .step ih hc' hr

/-- An overwrite with references that are held reaches nothing more. -/
theorem reach_write {l₀ : Nat} {c : C} (hrefs : ∀ r ∈ refs c, Reach refs h roots r)
    (hl : Reach refs (h.write l₀ c) roots l) : Reach refs h roots l := by
  induction hl with
  | root hl => exact .root hl
  | step _ hc' hr ih =>
    rcases write_cell_cases hc' with ⟨-, rfl⟩ | hc'
    · exact hrefs _ hr
    · exact .step ih hc' hr

/-- What is apart from the roots at the start stays apart from them, and stays as it was. -/
theorem Changes.frame {roots' : List Nat} {h' : Heap C} (hc : Changes refs roots h roots' h')
    {kept : Nat → Prop} (hcells : ∀ l, kept l → h.cell l ≠ none)
    (hapart : ∀ l, Reach refs h roots l → ¬ kept l) :
    (∀ l, kept l → h'.cell l = h.cell l) ∧ ∀ l, Reach refs h' roots' l → ¬ kept l := by
  induction hc with
  | refl => exact ⟨fun _ _ => rfl, hapart⟩
  | @alloc roots' h' _ c hrefs ih =>
    obtain ⟨hsame, hapart'⟩ := ih
    -- what is kept has a cell, so it is not where the new one goes
    have hne : ∀ l, kept l → l ≠ h'.next := by
      intro l hl heq
      apply hcells l hl
      rw [← hsame l hl, heq]
      exact h'.unused _ (le_refl _)
    refine ⟨fun l hl => (alloc_cell_of_ne h' c (hne l hl)).trans (hsame l hl), ?_⟩
    intro l hl hkept
    rcases reach_alloc hrefs hl with hl | hl
    · exact hne l hkept hl
    · exact hapart' l hl hkept
  | @write roots' h' _ l₀ c hl₀ hrefs ih =>
    obtain ⟨hsame, hapart'⟩ := ih
    refine ⟨?_, fun l hl => hapart' l (reach_write hrefs hl)⟩
    intro l hl
    have hne : l ≠ l₀ := by
      intro heq
      rw [heq] at hl
      exact hapart' l₀ hl₀ hl
    exact (write_cell_of_ne h' c hne).trans (hsame l hl)

end Changes

end Heap

end FrpMeo.Lib
