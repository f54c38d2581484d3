import FrpMeo.Lib.GoMap

/-!
# The visitor manager of a client

The manager (`client/visitor/visitor_manager.go`) keeps the configurations and, under the same
names, the visitors it could start; `keepVisitorsRunning` tries the others again. `Close` closes the
visitors and leaves them in the map.
-/

namespace FrpMeo.Client.Visitors

open Lib Function

structure Configs (V : Type) where
  name : V → String
  deepEqual : V → V → Bool

structure State (V : Type) where
  cfgs : GoMap String V
  visitors : GoMap String Nat
  /-- Visitor objects are numbered in the order of their creation. -/
  next : Nat
  /-- `Run` has succeeded, and `Close` was not called. -/
  running : Nat → Bool

def init {V : Type} : State V := ⟨.empty, .empty, 0, fun _ => false⟩

section Manager

variable {V : Type} (cf : Configs V)

def State.closeVisitor (s : State V) (i : Nat) : State V :=
  { s with running := update s.running i false }

def startVisitor (s : State V) (cfg : V) (ok : Bool) : State V :=
  if ok then
    { s with
      visitors := s.visitors.insert (cf.name cfg) s.next
      next := s.next + 1
      running := update s.running s.next true }
  else s

def State.closeName (s : State V) (name : String) : State V :=
  match s.visitors.get name with
  | none => s
  | some i => s.closeVisitor i

def visit (cfgsMap : GoMap String V) (s : State V) (name : String) : State V :=
  match s.cfgs.get name with
  | none => s
  | some oldCfg =>
      if (cfgsMap.get name).any (cf.deepEqual oldCfg) then s
      else
        { s.closeName name with
          cfgs := s.cfgs.erase name
          visitors := s.visitors.erase name }

def add (ok : V → Bool) (s : State V) (cfg : V) : State V :=
  match s.cfgs.get (cf.name cfg) with
  | some _ => s
  | none => startVisitor cf { s with cfgs := s.cfgs.insert (cf.name cfg) cfg } cfg (ok cfg)

def updateAll (s : State V) (cfgs : List V) (order : List String) (ok : V → Bool) : State V :=
  cfgs.foldl (add cf ok) (order.foldl (visit cf (GoMap.ofList cf.name cfgs)) s)

def keepOne (ok : V → Bool) (s : State V) (name : String) : State V :=
  match s.cfgs.get name with
  | none => s
  | some cfg =>
      match s.visitors.get (cf.name cfg) with
      | some _ => s
      | none => startVisitor cf s cfg (ok cfg)

def keepRound (s : State V) (order : List String) (ok : V → Bool) : State V :=
  order.foldl (keepOne cf ok) s

def close (s : State V) (order : List String) : State V := order.foldl State.closeName s

/-! ## The invariant -/

structure Good (s : State V) : Prop where
  running : ∀ i, s.running i = true → ∃ name, s.visitors.get name = some i
  configured : ∀ name, s.cfgs.get name = none → s.visitors.get name = none
  keyed : s.cfgs.KeyedBy cf.name

variable {cf}
variable {s : State V}

theorem good_init : Good cf (init : State V) where
  running := by
    intro i h
    cases h
  configured := fun _ _ => rfl
  keyed := GoMap.keyedBy_empty _

theorem running_closeName {name : String} {i : Nat} (hi : (s.closeName name).running i = true) :
    s.running i = true ∧ s.visitors.get name ≠ some i := by
  unfold State.closeName at hi
  cases hk : s.visitors.get name with
  | none =>
    rw [hk] at hi
    exact ⟨hi, by simp⟩
  | some j =>
    simp only [hk, State.closeVisitor] at hi
    by_cases hij : i = j
    · rw [hij, update_self] at hi
      cases hi
    · rw [update_of_ne hij] at hi
      exact ⟨hi, fun heq => hij (Option.some.inj heq).symm⟩

theorem maps_closeName {name : String} :
    (s.closeName name).visitors = s.visitors ∧ (s.closeName name).cfgs = s.cfgs := by
  unfold State.closeName
  cases s.visitors.get name with
  | none | some => exact ⟨rfl, rfl⟩

variable (h : Good cf s)

include h

theorem Good.closeName (name : String) : Good cf (s.closeName name) := by
  obtain ⟨hvisitors, hcfgs⟩ := maps_closeName
  refine ⟨?_, ?_, ?_⟩
  · intro i hi
    rw [hvisitors]
    exact h.running i (running_closeName hi).1
  · rw [hvisitors, hcfgs]
    exact h.configured
  · rw [hcfgs]
    exact h.keyed

theorem Good.visit (cfgsMap : GoMap String V) (name : String) :
    Good cf (visit cf cfgsMap s name) := by
  unfold Visitors.visit
  cases s.cfgs.get name with
  | none => exact h
  | some oldCfg =>
    dsimp only
    split_ifs
    · exact h
    · refine ⟨?_, ?_, h.keyed.erase name⟩
      · intro i hi
        obtain ⟨hrun, hne⟩ := running_closeName hi
        obtain ⟨k, hk⟩ := h.running i hrun
        -- it is not the one that was closed, so it is under another name
        have hkn : k ≠ name := by
          intro heq
          rw [heq] at hk
          exact hne hk
        exact ⟨k, by rw [GoMap.get_erase, if_neg hkn, hk]⟩
      · intro k hk
        rw [GoMap.get_erase] at hk ⊢
        split_ifs at hk ⊢
        · rfl
        · exact h.configured k hk

theorem Good.startVisitor {cfg : V} (hcfg : s.cfgs.get (cf.name cfg) ≠ none)
    (hnone : s.visitors.get (cf.name cfg) = none) (ok : Bool) :
    Good cf (startVisitor cf s cfg ok) := by
  unfold Visitors.startVisitor
  split_ifs
  · refine ⟨?_, ?_, h.keyed⟩
    · intro i hi
      dsimp only at hi ⊢
      by_cases hnew : i = s.next
      · exact ⟨cf.name cfg, by rw [GoMap.get_insert, if_pos rfl, hnew]⟩
      · rw [update_of_ne hnew] at hi
        obtain ⟨k, hk⟩ := h.running i hi
        have hkn : k ≠ cf.name cfg := by
          intro heq
          rw [heq, hnone] at hk
          cases hk
        exact ⟨k, by rw [GoMap.get_insert, if_neg hkn, hk]⟩
    · intro k hk
      have hkn : k ≠ cf.name cfg := by
        intro heq
        rw [heq] at hk
        exact hcfg hk
      rw [GoMap.get_insert, if_neg hkn]
      exact h.configured k hk
  · exact h

theorem Good.add (ok : V → Bool) (cfg : V) : Good cf (add cf ok s cfg) := by
  unfold Visitors.add
  cases hcfg : s.cfgs.get (cf.name cfg) with
  | some _ => exact h
  | none =>
    have hinsert : Good cf { s with cfgs := s.cfgs.insert (cf.name cfg) cfg } := by
      refine ⟨h.running, ?_, h.keyed.insert rfl⟩
      intro k hk
      rw [GoMap.get_insert] at hk
      split_ifs at hk
      exact h.configured k hk
    refine hinsert.startVisitor ?_ (h.configured _ hcfg) (ok cfg)
    rw [GoMap.get_insert, if_pos rfl]
    simp

theorem Good.keepOne (ok : V → Bool) (name : String) : Good cf (keepOne cf ok s name) := by
  unfold Visitors.keepOne
  cases hcfg : s.cfgs.get name with
  | none => exact h
  | some cfg =>
    dsimp only
    cases hv : s.visitors.get (cf.name cfg) with
    | some _ => exact h
    | none =>
      refine h.startVisitor ?_ hv (ok cfg)
      rw [h.keyed name cfg hcfg, hcfg]
      simp

omit h in
theorem Good.foldl {α : Type} {f : State V → α → State V}
    (hf : ∀ s a, Good cf s → Good cf (f s a)) (h : Good cf s) (l : List α) :
    Good cf (l.foldl f s) := by
  induction l generalizing s with
  | nil => exact h
  | cons a l ih => exact ih (hf s a h)

theorem Good.updateAll (cfgs : List V) (order : List String) (ok : V → Bool) :
    Good cf (updateAll cf s cfgs order ok) :=
  Good.foldl (fun _ cfg hs => hs.add ok cfg)
    (Good.foldl (fun _ name hs => hs.visit _ name) h order) cfgs

theorem Good.keepRound (order : List String) (ok : V → Bool) : Good cf (keepRound cf s order ok) :=
  Good.foldl (fun _ name hs => hs.keepOne ok name) h order

theorem Good.close (order : List String) : Good cf (close s order) :=
  Good.foldl (fun _ name hs => hs.closeName name) h order

omit h in
theorem running_foldl_closeName {names : List String} {i : Nat}
    (hi : (names.foldl State.closeName s).running i = true) :
    s.running i = true ∧ ∀ name ∈ names, s.visitors.get name ≠ some i := by
  induction names generalizing s with
  | nil => exact ⟨hi, by simp⟩
  | cons name names ih =>
    obtain ⟨hrun, hne⟩ := ih hi
    obtain ⟨hrun', hfirst⟩ := running_closeName hrun
    refine ⟨hrun', ?_⟩
    intro k hk
    rcases List.mem_cons.1 hk with rfl | hk
    · exact hfirst
    · rw [← (maps_closeName).1]
      exact hne k hk

theorem running_close {order : List String} (ho : s.visitors.Order order)
    (i : Nat) : (close s order).running i = false := by
  rw [← Bool.not_eq_true]
  intro hi
  obtain ⟨hrun, hne⟩ := running_foldl_closeName hi
  obtain ⟨k, hk⟩ := h.running i hrun
  refine hne k ((ho.2 k).2 ((s.visitors.mem_keys k).2 ?_)) hk
  rw [hk]
  simp

end Manager

end FrpMeo.Client.Visitors
