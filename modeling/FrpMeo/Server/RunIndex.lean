import FrpMeo.Lib.Transition
import FrpMeo.Server.Registry

/-!
# The two maps of the client registry

The registry (`server/registry/registry.go`) has entries by client key and an index from run ids to
keys. They are in step (`InStep`) when an entry is online with a run id iff the index leads from it
to the entry. `Register` does not look at whom the index has for the new run id.
-/

namespace FrpMeo.Server.Registry

open Lib.Transition

inductive Call where
  | register (now : Nat) (a : RegisterArgs)
  | markOfflineByRunID (now : Nat) (runID : String)
  deriving DecidableEq

def ClientRegistry.call (cr : ClientRegistry) : Call → ClientRegistry
  | .register now a => (cr.register now a).1
  | .markOfflineByRunID now runID => cr.markOfflineByRunID now runID

def after (calls : List Call) : ClientRegistry := calls.foldl ClientRegistry.call newClientRegistry

structure InStep (cr : ClientRegistry) : Prop where
  /-- An entry is online with a run id if and only if the index leads to it. -/
  online_iff : ∀ key r, OnlineAs cr key r ↔ cr.runIndex r = some key
  /-- A run id does not lead to two clients. -/
  one : ∀ key key' r, OnlineAs cr key r → cr.runIndex r = some key' → key' = key
  /-- No entry is online with a run id that is marked offline. -/
  offline : ∀ now key r, ¬ OnlineAs (cr.markOfflineByRunID now r) key r

variable {cr : ClientRegistry}

theorem inStep_iff : InStep cr ↔ ∀ key r, OnlineAs cr key r ↔ cr.runIndex r = some key := by
  constructor
  · exact fun h => h.online_iff
  · intro h
    refine ⟨h, ?_, ?_⟩
    · intro key key' r hon hidx
      exact Option.some.inj (hidx.symm.trans ((h key r).1 hon))
    · intro now key r hon
      obtain ⟨hold, hnot⟩ := (onlineAs_markOfflineByRunID now r key r).1 hon
      exact hnot ⟨(h key r).1 hold, rfl⟩

def Registers (cr : ClientRegistry) (now : Nat) (a : RegisterArgs) : Prop :=
  a.runID ≠ "" ∧ (cr.register now a).2.2 = false

/-- A registration that goes through finds nobody under another key online with its run id. -/
def KeepsRunID (cr : ClientRegistry) : Call → Prop
  | .register now a => Registers cr now a → ∀ key, OnlineAs cr key a.runID → key = a.clientKey
  | .markOfflineByRunID _ _ => True

theorem register_of_not_registers {now : Nat} {a : RegisterArgs} (h : ¬ Registers cr now a) :
    (cr.register now a).1 = cr := by
  by_cases hr : a.runID = ""
  · simp [ClientRegistry.register, hr]
  · apply register_fst_of_conflict
    simpa [Registers, hr] using h

theorem wellFormed_call (h : WellFormed cr) (c : Call) : WellFormed (cr.call c) := by
  cases c with
  | register now a =>
    by_cases hr : a.runID = ""
    · rw [ClientRegistry.call, register_of_not_registers fun hreg => hreg.1 hr]
      exact h
    · exact register_wellFormed now h hr
  | markOfflineByRunID now runID => exact markOfflineByRunID_wellFormed now runID h

section Step

theorem InStep.markOfflineByRunID (h : InStep cr) (now : Nat) (runID : String) :
    InStep (cr.markOfflineByRunID now runID) := by
  apply inStep_iff.2
  intro key r
  rw [onlineAs_markOfflineByRunID, runIndex_markOfflineByRunID, h.online_iff]
  by_cases hr : r = runID
  · subst hr
    simp
  · simp [hr]

theorem dropRunID_eq (hwf : WellFormed cr) (key r : String) :
    dropRunID cr.runIndex (cr.clients key) r =
      if OnlineAs cr key r then none else cr.runIndex r := by
  cases hold : cr.clients key with
  | none =>
    have hoff : ¬ OnlineAs cr key r := by
      rintro ⟨info, hinfo, -⟩
      rw [hold] at hinfo
      cases hinfo
    rw [if_neg hoff]
    rfl
  | some info =>
    have honline : OnlineAs cr key r ↔ info.runID = r ∧ r ≠ "" := by
      have hon := hwf.online_iff key info hold
      constructor
      · rintro ⟨info', hinfo', hon', hrun⟩
        obtain rfl := Option.some.inj (hold.symm.trans hinfo')
        exact ⟨hrun, hrun ▸ hon.1 hon'⟩
      · rintro ⟨hrun, hne⟩
        exact ⟨info, hold, hon.2 (hrun ▸ hne), hrun⟩
    by_cases hempty : info.runID = ""
    · have hoff : ¬ OnlineAs cr key r := fun h => (honline.1 h).2 ((honline.1 h).1 ▸ hempty)
      simp [dropRunID, hempty, hoff]
    · by_cases hrun : info.runID = r
      · subst hrun
        simp [dropRunID, hempty, honline.2 ⟨rfl, hempty⟩]
      · have hoff : ¬ OnlineAs cr key r := fun h => hrun (honline.1 h).1
        simp [dropRunID, hempty, hoff, Ne.symm hrun]

variable {a : RegisterArgs} {now : Nat}

theorem InStep.runIndex_register (h : InStep cr) (hwf : WellFormed cr)
    (hreg : Registers cr now a) {r : String} (hr : r ≠ a.runID) (key : String) :
    (cr.register now a).1.runIndex r = some key ↔ key ≠ a.clientKey ∧ cr.runIndex r = some key := by
  rw [register_fst_of_not_conflict now hreg.1 hreg.2]
  simp only [Function.update_of_ne hr, dropRunID_eq hwf]
  by_cases hon : OnlineAs cr a.clientKey r
  · rw [if_pos hon, (h.online_iff a.clientKey r).1 hon]
    simp [eq_comm]
  · rw [if_neg hon]
    constructor
    · intro hidx
      refine ⟨?_, hidx⟩
      intro hkey
      exact hon ((h.online_iff a.clientKey r).2 (hkey ▸ hidx))
    · exact fun hidx => hidx.2

/-- A registration keeps the maps in step exactly when it finds its run id free, or where it was. -/
theorem InStep.register_iff (h : InStep cr) (hwf : WellFormed cr) (hreg : Registers cr now a) :
    InStep (cr.register now a).1 ↔ ∀ key, OnlineAs cr key a.runID → key = a.clientKey := by
  have hself : (cr.register now a).1.runIndex a.runID = some a.clientKey := by
    rw [register_fst_of_not_conflict now hreg.1 hreg.2]
    exact Function.update_self ..
  rw [inStep_iff]
  constructor
  · intro hstep key hon
    by_contra hkey
    have hstill : OnlineAs (cr.register now a).1 key a.runID :=
      (onlineAs_register now hreg.1 hreg.2 key a.runID).2 (.inr ⟨hkey, hon⟩)
    have hidx := (hstep key a.runID).1 hstill
    rw [hself] at hidx
    exact hkey (Option.some.inj hidx).symm
  · intro hfree key r
    rw [onlineAs_register now hreg.1 hreg.2]
    by_cases hr : r = a.runID
    · subst hr
      rw [hself]
      constructor
      · rintro (⟨rfl, -⟩ | ⟨hkey, hon⟩)
        · rfl
        · exact absurd (hfree key hon) hkey
      · intro hkey
        exact .inl ⟨(Option.some.inj hkey).symm, rfl⟩
    · rw [h.runIndex_register hwf hreg hr, h.online_iff]
      simp [hr]

theorem InStep.call_iff (h : InStep cr) (hwf : WellFormed cr) (c : Call) :
    InStep (cr.call c) ↔ KeepsRunID cr c := by
  cases c with
  | register now a =>
    by_cases hreg : Registers cr now a
    · simpa [ClientRegistry.call, KeepsRunID, hreg] using h.register_iff hwf hreg
    · simpa [ClientRegistry.call, KeepsRunID, hreg, register_of_not_registers hreg] using h
  | markOfflineByRunID now runID =>
    simpa [ClientRegistry.call, KeepsRunID] using h.markOfflineByRunID now runID

end Step

theorem inStep_newClientRegistry : InStep newClientRegistry := by
  apply inStep_iff.2
  intro key r
  constructor
  · exact fun h => absurd h (not_onlineAs_newClientRegistry key r)
  · intro h
    cases h

/-- Entries and index are in step after every call iff no registration that goes through brings a
run id under which another client is online. -/
theorem runIndex_in_step_iff (calls : List Call) : (∀ pre, pre <+: calls → InStep (after pre)) ↔
      ∀ pre c, pre ++ [c] <+: calls → KeepsRunID (after pre) c :=
  forall_prefix_foldl_iff newClientRegistry_wellFormed inStep_newClientRegistry
    (fun _ c h => wellFormed_call h c) (fun _ c hwf h => h.call_iff hwf c) calls

def movedRun : List Call :=
  [.register 0 ⟨"", "c1", "r", "", "", "", ""⟩, .register 1 ⟨"", "c2", "r", "", "", "", ""⟩]

/-- The first entry stays online for good, and the index leads to the second. -/
theorem entry_stranded :
    OnlineAs (after movedRun) "c1" "r" ∧ (after movedRun).runIndex "r" = some "c2" ∧
      OnlineAs ((after movedRun).markOfflineByRunID 2 "r") "c1" "r" ∧
      ((after movedRun).markOfflineByRunID 2 "r").runIndex "r" = none := by
  refine ⟨?_, ?_, ?_, ?_⟩ <;> decide +kernel

end FrpMeo.Server.Registry
