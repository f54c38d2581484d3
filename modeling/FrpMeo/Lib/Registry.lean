import Mathlib.Data.List.Basic

/-!
# A registry of named objects

A map from keys to objects under its own lock. An object is made on the first access and removed by
whoever finds it unneeded, so a caller may come to it too late and has to ask whether it is still
the one of its key.
-/

namespace FrpMeo.Lib

open Function

variable {K : Type}

structure Registry (K : Type) where
  groups : K → Option Nat
  /-- The key that an object was made for. -/
  keys : List K

namespace Registry

def empty : Registry K := ⟨fun _ => none, []⟩

def getOrCreate [DecidableEq K] (r : Registry K) (key : K) : Registry K × Nat :=
  match r.groups key with
  | some g => (r, g)
  | none => (⟨update r.groups key (some r.keys.length), r.keys ++ [key]⟩, r.keys.length)

def isCurrent (r : Registry K) (key : K) (g : Nat) : Bool := r.groups key == some g

def removeIf [DecidableEq K] (r : Registry K) (key : K) (g : Nat) : Registry K :=
  if r.groups key = some g then { r with groups := update r.groups key none } else r

def Sound (r : Registry K) : Prop := ∀ key g, r.groups key = some g → r.keys[g]? = some key

def Current (r : Registry K) (g : Nat) : Prop :=
  ∃ key, r.keys[g]? = some key ∧ r.groups key = some g

theorem sound_empty : (empty : Registry K).Sound := nofun

variable {r : Registry K} {g : Nat} {key : K}

theorem Current.groups (h : r.Current g) (hkey : r.keys[g]? = some key) :
    r.groups key = some g := by
  obtain ⟨key', hkey', hg⟩ := h
  rw [hkey] at hkey'
  cases hkey'
  exact hg

theorem Sound.current (h : r.Sound) (hg : r.groups key = some g) : r.Current g :=
  ⟨key, h key g hg, hg⟩

theorem Current.eq {g' : Nat} (h : r.Current g) (h' : r.Current g') (hkey : r.keys[g]? = some key)
    (hkey' : r.keys[g']? = some key) : g = g' :=
  Option.some.inj ((h.groups hkey).symm.trans (h'.groups hkey'))

theorem getElem?_append_of_some {xs : List K} (h : xs[g]? = some key) (ys : List K) :
    (xs ++ ys)[g]? = some key :=
  (List.getElem?_append_left (List.getElem?_eq_some_iff.1 h).1).trans h

section Operations

variable [DecidableEq K]

theorem getOrCreate_cases (r : Registry K) (key : K) :
    (∃ g, r.groups key = some g ∧ r.getOrCreate key = (r, g)) ∨
      r.groups key = none ∧ r.getOrCreate key =
        (⟨update r.groups key (some r.keys.length), r.keys ++ [key]⟩, r.keys.length) := by
  unfold getOrCreate
  cases hg : r.groups key with
  | some g => exact .inl ⟨g, rfl, rfl⟩
  | none => exact .inr ⟨rfl, rfl⟩

theorem Sound.getOrCreate (h : r.Sound) (key : K) : (r.getOrCreate key).1.Sound ∧
      (r.getOrCreate key).1.keys[(r.getOrCreate key).2]? = some key := by
  rcases getOrCreate_cases r key with ⟨g, hg, heq⟩ | ⟨-, heq⟩
  · rw [heq]
    exact ⟨h, h key g hg⟩
  · rw [heq]
    refine ⟨?_, List.getElem?_concat_length⟩
    intro key' g' hg'
    change update r.groups key (some r.keys.length) key' = some g' at hg'
    by_cases hne : key' = key
    · rw [hne, update_self] at hg'
      cases hg'
      rw [hne]
      exact List.getElem?_concat_length
    · rw [update_of_ne hne] at hg'
      exact getElem?_append_of_some (h key' g' hg') _

/-- Objects keep the key they were made for. -/
theorem keys_getOrCreate (h : r.keys[g]? = some key) (key' : K) :
    (r.getOrCreate key').1.keys[g]? = some key := by
  rcases getOrCreate_cases r key' with ⟨_, -, heq⟩ | ⟨-, heq⟩
  · rw [heq]
    exact h
  · rw [heq]
    exact getElem?_append_of_some h _

theorem Current.getOrCreate (h : r.Current g) (key : K) :
    (r.getOrCreate key).1.Current g := by
  obtain ⟨key', hkey', hg⟩ := h
  refine ⟨key', keys_getOrCreate hkey' key, ?_⟩
  rcases getOrCreate_cases r key with ⟨_, -, heq⟩ | ⟨hnone, heq⟩
  · rw [heq]
    exact hg
  · have hne : key' ≠ key := by
      rintro rfl
      rw [hg] at hnone
      cases hnone
    rw [heq]
    exact (update_of_ne hne _ _).trans hg

theorem keys_removeIf (r : Registry K) (key : K) (g : Nat) : (r.removeIf key g).keys = r.keys := by
  unfold removeIf
  split_ifs <;> rfl

theorem Sound.removeIf (h : r.Sound) (key : K) (g : Nat) : (r.removeIf key g).Sound := by
  unfold Registry.removeIf
  split_ifs with hcur
  · intro key' g' hg'
    by_cases hne : key' = key
    · rw [hne] at hg'
      change update r.groups key none key = some g' at hg'
      rw [update_self] at hg'
      cases hg'
    · exact h key' g' ((update_of_ne hne _ _).symm.trans hg')
  · exact h

theorem Current.removeIf {g' : Nat} (h : r.Current g) (hne : g ≠ g') (key : K) :
    (r.removeIf key g').Current g := by
  obtain ⟨key', hkey', hg⟩ := h
  refine ⟨key', by rw [keys_removeIf]; exact hkey', ?_⟩
  unfold Registry.removeIf
  split_ifs with hcur
  · have hkey : key' ≠ key := by
      rintro rfl
      rw [hg] at hcur
      exact hne (Option.some.inj hcur)
    exact (update_of_ne hkey _ _).trans hg
  · exact hg

end Operations

end Registry

end FrpMeo.Lib
