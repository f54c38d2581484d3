import FrpMeo.Lib.GoMap
import Mathlib.Algebra.Ring.Int.Defs

/-!
# Reference counts by key

A map from keys to the number of their uses. A key enters with its first use and leaves with its
last, and the caller is told. Against the real uses (`Counts`), the edges tell exactly when the set
of used keys changes.
-/

namespace FrpMeo.Lib.RefCount

universe u

variable {κ : Type u}

/-- The map holds the uses that there are, and no key without uses. -/
def Counts (refs : GoMap κ Int) (uses : κ → Int) : Prop :=
  ∀ k, 0 ≤ uses k ∧ refs.get k = if uses k = 0 then none else some (uses k)

theorem counts_empty {uses : κ → Int} (h : ∀ k, uses k = 0) : Counts .empty uses := by
  intro k
  rw [h k]
  exact ⟨le_refl 0, rfl⟩

section Counts

variable {refs : GoMap κ Int} {uses uses' : κ → Int} {k : κ}

theorem Counts.mem_keys (h : Counts refs uses) (k : κ) : k ∈ refs.keys ↔ 0 < uses k := by
  obtain ⟨hnonneg, hget⟩ := h k
  rw [refs.mem_keys, hget]
  split_ifs with hzero
  · simp [hzero]
  · simp only [ne_eq, reduceCtorEq, not_false_eq_true, true_iff]
    omega

theorem Counts.getD (h : Counts refs uses) (k : κ) : (refs.get k).getD 0 = uses k := by
  rw [(h k).2]
  split_ifs with hzero
  · exact hzero.symm
  · rfl

variable [DecidableEq κ]

/-- One use more; tells whether it is the first. -/
def acquire (refs : GoMap κ Int) (k : κ) : GoMap κ Int × Bool :=
  let n := (refs.get k).getD 0 + 1
  (refs.insert k n, n = 1)

/-- One use less; tells whether it was the last. A key without uses is left alone. -/
def release (refs : GoMap κ Int) (k : κ) : GoMap κ Int × Bool :=
  match refs.get k with
  | none => (refs, false)
  | some n => if n - 1 ≤ 0 then (refs.erase k, true) else (refs.insert k (n - 1), false)

variable (h : Counts refs uses)

include h

theorem Counts.acquired (k : κ) (huses : ∀ j, uses' j = uses j + if k = j then 1 else 0) :
    Counts (acquire refs k).1 uses' := by
  intro j
  have hnonneg := (h j).1
  have hj := huses j
  rw [acquire, GoMap.get_insert, h.getD]
  by_cases hjk : j = k
  · subst hjk
    rw [if_pos rfl] at hj
    rw [if_pos rfl, if_neg (by omega), hj]
    exact ⟨by omega, rfl⟩
  · rw [if_neg (Ne.symm hjk), add_zero] at hj
    rw [if_neg hjk, hj]
    exact h j

theorem Counts.card_acquire (k : κ) :
    ((acquire refs k).1.keys.card : Int) = refs.keys.card + (acquire refs k).2.toInt := by
  have hnonneg := (h k).1
  have hmem := h.mem_keys k
  have hkeys : (acquire refs k).1.keys = insert k refs.keys := rfl
  rw [hkeys]
  by_cases hk : k ∈ refs.keys
  · have hfirst : (acquire refs k).2 = false := by
      rw [acquire, h.getD, decide_eq_false_iff_not]
      have hpos := hmem.1 hk
      omega
    rw [Finset.insert_eq_of_mem hk, hfirst]
    exact (add_zero _).symm
  · have hfirst : (acquire refs k).2 = true := by
      rw [acquire, h.getD, decide_eq_true_iff]
      have hpos := mt hmem.2 hk
      omega
    rw [Finset.card_insert_of_notMem hk, hfirst]
    rfl

omit h in
theorem release_of_one (hget : refs.get k = some 1) : release refs k = (refs.erase k, true) := by
  simp [release, hget]

omit h in
theorem release_of_more {n : Int} (hget : refs.get k = some n) (hn : 1 < n) :
    release refs k = (refs.insert k (n - 1), false) := by
  have hmore : ¬ n - 1 ≤ 0 := by omega
  simp only [release, hget, if_neg hmore]

theorem Counts.release_cases (hk : 0 < uses k) :
    (uses k = 1 ∧ release refs k = (refs.erase k, true)) ∨
      (1 < uses k ∧ release refs k = (refs.insert k (uses k - 1), false)) := by
  have hget : refs.get k = some (uses k) := by
    rw [(h k).2, if_neg hk.ne']
  by_cases hone : uses k = 1
  · left
    rw [hone] at hget
    exact ⟨hone, release_of_one hget⟩
  · right
    have hmore : 1 < uses k := by omega
    exact ⟨hmore, release_of_more hget hmore⟩

theorem Counts.released (hk : 0 < uses k) (huses : ∀ j, uses' j = uses j - if k = j then 1 else 0) :
    Counts (release refs k).1 uses' := by
  intro j
  have hj := huses j
  rcases h.release_cases hk with ⟨hone, hrel⟩ | ⟨hmore, hrel⟩
  · rw [hrel]
    rw [GoMap.get_erase]
    by_cases hjk : j = k
    · subst hjk
      rw [if_pos rfl, hone] at hj
      rw [if_pos rfl, hj]
      exact ⟨le_refl 0, rfl⟩
    · rw [if_neg (Ne.symm hjk), sub_zero] at hj
      rw [if_neg hjk, hj]
      exact h j
  · rw [hrel]
    rw [GoMap.get_insert]
    by_cases hjk : j = k
    · subst hjk
      rw [if_pos rfl] at hj
      rw [if_pos rfl, hj, if_neg (by omega)]
      exact ⟨by omega, rfl⟩
    · rw [if_neg (Ne.symm hjk), sub_zero] at hj
      rw [if_neg hjk, hj]
      exact h j

theorem Counts.card_release (hk : 0 < uses k) :
    ((release refs k).1.keys.card : Int) = refs.keys.card - (release refs k).2.toInt := by
  have hmem : k ∈ refs.keys := (h.mem_keys k).2 hk
  rcases h.release_cases hk with ⟨-, hrel⟩ | ⟨-, hrel⟩
  · have hkeys : (refs.erase k).keys = refs.keys.erase k := rfl
    have hpos := Finset.card_pos.2 ⟨k, hmem⟩
    rw [hrel, hkeys, Finset.card_erase_of_mem hmem]
    simp only [Bool.toInt_true]
    omega
  · have hkeys : (refs.insert k (uses k - 1)).keys = insert k refs.keys := rfl
    rw [hrel, hkeys, Finset.insert_eq_of_mem hmem]
    exact (sub_zero _).symm

end Counts

end FrpMeo.Lib.RefCount
