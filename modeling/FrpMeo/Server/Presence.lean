import FrpMeo.Server.Ledger

/-!
# Presence in the client registry

With no login in flight the registry and the control manager should agree on who is online, and a
control that serves should have its client online in every state. But a login whose response cannot
be written marks its run id offline although a newer login may have it.
-/

namespace FrpMeo.Server.Session

open Lib.Transition Function
open Server.Registry

/-! ## Roles -/

def WorkerPc.marked : WorkerPc → Bool
  | .closingDone | .finished => true
  | _ => false

/-- Started and not torn down: teardown ends for the registry when the client is marked offline. -/
def Control.live (k : Control) : Bool := k.started && !k.worker.marked

/-- `RegisterControl` has returned a control and its login has not failed or started it yet. -/
def LoginPc.granted : LoginPc → Bool
  | .returned | .starting => true
  | _ => false

/-- The login may have an online entry to answer for: it has taken over a control, or registered. -/
def LoginPc.mayHold : LoginPc → Bool
  | .closingConn _ _ | .closingDone _ _ | .storing (some _) | .waiting _ | .registering
  | .returned | .starting | .undoDel | .undoMark => true
  | _ => false

def Serving (s : State) (c : Nat) : Prop := (s.ctl c).live = true ∧ (s.ctl c).replaced = false

def Present (s : State) (c : Nat) : Prop := Serving s c ∨ (s.pc c).granted = true

def Answers (s : State) (c : Nat) (runID : String) : Prop :=
  Serving s c ∨ (s.ctl c).worker = .marking runID ∨ (s.pc c).mayHold = true

variable {s : State}

theorem Present.of_eq {t : State} {c : Nat} (h : Present s c) (hctl : t.ctl c = s.ctl c)
    (hpc : t.pc c = s.pc c) : Present t c := by
  rwa [Present, Serving, hctl, hpc]

theorem Answers.of_eq {t : State} {c : Nat} {r : String} (h : Answers s c r)
    (hctl : t.ctl c = s.ctl c) (hpc : t.pc c = s.pc c) : Answers t c r := by
  rwa [Answers, Serving, hctl, hpc]

structure PresenceInv (s : State) : Prop where
  wf : WellFormed s.registry
  index : ∀ k r, OnlineAs s.registry k r → s.registry.runIndex r = some k
  answers : ∀ k r, OnlineAs s.registry k r →
    ∃ c, (s.login c).clientKey = k ∧ s.runID c = r ∧ Answers s c r
  online : ∀ c, Present s c → OnlineAs s.registry (s.login c).clientKey (s.runID c)
  undone : ∀ i c, s.pc i = .undoMark → c ≠ i → s.runID c = s.runID i → ¬ Present s c

theorem presenceInv_init : PresenceInv init where
  wf := newClientRegistry_wellFormed
  index := fun k r h => absurd h (not_onlineAs_newClientRegistry k r)
  answers := fun k r h => absurd h (not_onlineAs_newClientRegistry k r)
  online := by
    rintro c (⟨hl, -⟩ | hg)
    · cases hl
    · cases hg
  undone := nofun

theorem onlineAs_unique {cr : ClientRegistry} {k r r' : String} (h : OnlineAs cr k r)
    (h' : OnlineAs cr k r') : r = r' := by
  obtain ⟨info, hi, -, rfl⟩ := h
  obtain ⟨info', hi', -, rfl⟩ := h'
  rw [hi] at hi'
  cases hi'
  rfl

section Entries

variable {c : Nat} {p : LoginPc} (hh : HandoverInv s) (ht : TeardownInv s) (hl : LedgerInv s)

include ht hl in
theorem not_replaced (hp : (s.pc c).afterStart = false) : (s.ctl c).replaced = false := by
  cases hr : (s.ctl c).replaced with
  | false => rfl
  | true =>
    have hs := hl.started c hr
    rw [ht.starting c hp] at hs
    cases hs

theorem Control.live_iff {k : Control} :
    k.live = true ↔ k.started = true ∧ k.worker.marked = false := by
  simp [Control.live]

theorem WorkerPc.ne_finished_of_not_marked {w : WorkerPc} (h : w.marked = false) :
    w ≠ .finished := by
  rintro rfl
  cases h

theorem LoginPc.of_granted (h : p.granted = true) :
    p.afterStart = false ∧ p.holds false = true ∧ ∀ c, p ≠ .waiting c := by
  cases p <;> first | (cases h; done) | exact ⟨rfl, rfl, nofun⟩

theorem LoginPc.of_afterStart (h : p.afterStart = true) :
    p.mayHold = false ∧ p.granted = false ∧ ∀ c, p ≠ .waiting c := by
  cases p <;> first | (cases h; done) | exact ⟨rfl, rfl, nofun⟩

theorem LoginPc.of_mayHold (h : p.mayHold = true) :
    p.afterStart = false ∧ (p = .undoMark ∨ p.holds false = true ∨
      ∃ o b, p.retired = some (o, b) ∧ p.inAdd = some (some o)) := by
  cases p with
  | undoMark => exact ⟨rfl, .inl rfl⟩
  | closingConn o b | closingDone o b => exact ⟨rfl, .inr (.inr ⟨o, b, rfl, rfl⟩)⟩
  | storing old =>
    cases old with
    | none => cases h
    | some o => exact ⟨rfl, .inr (.inr ⟨o, true, rfl, rfl⟩)⟩
  | waiting | registering | returned | starting | undoDel => exact ⟨rfl, .inr (.inl rfl)⟩
  | _ => cases h

include hh ht hl

theorem entry_of_present (h : Present s c) : s.ctlsByRunID (s.runID c) = some c := by
  rcases h with ⟨hlive, hnr⟩ | hg
  · obtain ⟨hst, hm⟩ := Control.live_iff.1 hlive
    rcases hh.live c hst (WorkerPc.ne_finished_of_not_marked hm) with he | ⟨j, -, hj⟩
    · exact he
    · rw [hl.waited j c hj] at hnr
      cases hnr
  · obtain ⟨hp, hholds, -⟩ := LoginPc.of_granted hg
    exact hh.holds c (by rw [not_replaced ht hl hp]; exact hholds)

variable {r : String}

omit hl in
theorem entry_of_marking (h : (s.ctl c).worker = .marking r) : s.ctlsByRunID (s.runID c) = some c ∨
      ∃ j, s.ctlsByRunID (s.runID c) = some j ∧ s.pc j = .waiting c :=
  hh.live c ((ht.ctl c).started_of_worker (by rw [h]; rintro ⟨⟩)) (by rw [h]; rintro ⟨⟩)

theorem undoMark_of_answers {i : Nat} (hi : s.pc i = .registering) (hci : c ≠ i)
    (hrun : s.runID c = s.runID i) (ha : Answers s c r) : s.pc c = .undoMark := by
  have hmap : s.ctlsByRunID (s.runID c) = some i := by
    rw [hrun]
    exact hh.holds i (by rw [hi]; rfl)
  have hne : s.ctlsByRunID (s.runID c) ≠ some c := by
    rw [hmap]
    exact fun he => hci (Option.some.inj he).symm
  rcases ha with hs | hm | hp
  · exact absurd (entry_of_present hh ht hl (.inl hs)) hne
  · rcases entry_of_marking hh ht hm with he | ⟨j, hj, hw⟩
    · exact absurd he hne
    · rw [hmap] at hj
      cases hj
      rw [hi] at hw
      cases hw
  · obtain ⟨hns, hu | hholds | ⟨o, b, hret, hadd⟩⟩ := LoginPc.of_mayHold hp
    · exact hu
    · exact absurd (hh.holds c (by rw [not_replaced ht hl hns]; exact hholds)) hne
    · -- it is inside `Add`, where the entry it found has returned from `RegisterControl`
      have he := (hh.add c (some o) hadd).2
      rw [hmap] at he
      cases he
      have hret' := (hh.retired c i b hret).1
      rw [hi] at hret'
      cases hret'

end Entries

/-! ## Steps that leave the registry alone -/

section Roles

variable {t : State}

variable (h : PresenceInv s)

include h

theorem PresenceInv.roles (hreg : t.registry = s.registry) (hlogin : t.login = s.login)
    (hans : ∀ c, OnlineAs s.registry (s.login c).clientKey (s.runID c) →
      Answers s c (s.runID c) → ∃ d, (s.login d).clientKey = (s.login c).clientKey ∧
        s.runID d = s.runID c ∧ Answers t d (s.runID c))
    (hpres : ∀ c, Present t c → Present s c) (hundo : ∀ i, t.pc i = .undoMark →
      s.pc i = .undoMark ∨ ∀ c, c ≠ i → s.runID c = s.runID i → ¬ Present s c) :
    PresenceInv t := by
  have hrun : ∀ c, t.runID c = s.runID c := fun c => congrArg (fun l => (l c).runID) hlogin
  refine ⟨by rw [hreg]; exact h.wf, by rw [hreg]; exact h.index, ?_, ?_, ?_⟩
  · intro k r hon
    rw [hreg] at hon
    obtain ⟨c, hk, hr, ha⟩ := h.answers k r hon
    subst hk hr
    obtain ⟨d, hdk, hdr, hda⟩ := hans c hon ha
    exact ⟨d, by rw [hlogin, hdk], (hrun d).trans hdr, hda⟩
  · intro c hc
    rw [hreg, hlogin, hrun]
    exact h.online c (hpres c hc)
  · intro i c hi hci hr hc
    rw [hrun, hrun] at hr
    rcases hundo i hi with hu | hnone
    · exact h.undone i c hu hci hr (hpres c hc)
    · exact hnone c hci hr (hpres c hc)

theorem PresenceInv.frame (ctlsByRunID : String → Option Nat)
    (mgrLock : Option Nat) (pxys : String → Option Nat) (clientCounts : Int) : PresenceInv { s with
      ctlsByRunID := ctlsByRunID, mgrLock := mgrLock, pxys := pxys,
      clientCounts := clientCounts } :=
  { h with }

variable {i : Nat}

theorem PresenceInv.setPc {p q : LoginPc} (hpc : s.pc i = q)
    (hmay : q.mayHold = true → p.mayHold = true) (hgr : p.granted = true → q.granted = true)
    (hun : p = .undoMark → ∀ c, c ≠ i → s.runID c = s.runID i → ¬ Present s c) :
    PresenceInv (s.setPc i p) := by
  subst hpc
  have hmay' : ∀ c, (s.pc c).mayHold = true → ((s.setPc i p).pc c).mayHold = true :=
    (forall_setPc_iff (p := fun c q => (s.pc c).mayHold = true → q.mayHold = true)).2
      ⟨hmay, fun _ _ => id⟩
  have hgr' : ∀ c, ((s.setPc i p).pc c).granted = true → (s.pc c).granted = true :=
    (forall_setPc_iff (p := fun c q => q.granted = true → (s.pc c).granted = true)).2
      ⟨hgr, fun _ _ => id⟩
  refine h.roles rfl rfl ?_ ?_ ?_
  · intro c _ ha
    exact ⟨c, rfl, rfl, Or.imp_right (Or.imp_right (hmay' c)) ha⟩
  · exact fun c => Or.imp_right (hgr' c)
  · exact (forall_setPc_iff (p := fun j q => q = .undoMark → s.pc j = .undoMark ∨
      ∀ c, c ≠ j → s.runID c = s.runID j → ¬ Present s c)).2
      ⟨fun hp => .inr (hun hp), fun _ _ => .inl⟩

variable {k : Control}

theorem PresenceInv.setCtl (c : Nat)
    (hlive : k.live = (s.ctl c).live) (hrep : k.replaced = (s.ctl c).replaced)
    (hmark : ∀ r, (s.ctl c).worker = .marking r → k.worker = .marking r) :
    PresenceInv (s.setCtl c k) := by
  have hserv : ∀ d, Serving (s.setCtl c k) d ↔ Serving s d :=
    (forall_setCtl_iff (p := fun d k => k.live = true ∧ k.replaced = false ↔ Serving s d)).2
      ⟨by rw [hlive, hrep, Serving], fun _ _ => Iff.rfl⟩
  have hmark' : ∀ d r, (s.ctl d).worker = .marking r → ((s.setCtl c k).ctl d).worker = .marking r :=
    (forall_setCtl_iff (p := fun d k => ∀ r, (s.ctl d).worker = .marking r →
      k.worker = .marking r)).2 ⟨hmark, fun _ _ _ => id⟩
  refine h.roles rfl rfl ?_ ?_ (fun _ hi => .inl hi)
  · intro d _ ha
    exact ⟨d, rfl, rfl, Or.imp (hserv d).2 (Or.imp_left (hmark' d _)) ha⟩
  · exact fun d => Or.imp_left (hserv d).1

theorem PresenceInv.workerMove {c : Nat} {w : WorkerPc}
    (hw : (s.ctl c).worker = w) (hst : k.started = (s.ctl c).started := by rfl)
    (hrep : k.replaced = (s.ctl c).replaced := by rfl) (hm : k.worker.marked = w.marked := by rfl)
    (hmark : ∀ r, w ≠ .marking r := by rintro _ ⟨⟩) : PresenceInv (s.setCtl c k) := by
  subst hw
  refine h.setCtl c ?_ hrep fun r hr => absurd hr (hmark r)
  rw [Control.live, Control.live, hst, hm]

theorem PresenceInv.retire {old : Nat} {p : LoginPc}
    (hpc : s.pc i = .replacing old) (hkey : (s.login i).clientKey = (s.login old).clientKey)
    (hrun : s.runID old = s.runID i) (hmay : p.mayHold = true) (hgr : p.granted = false)
    (hun : p ≠ .undoMark) : PresenceInv ((s.setCtl old (s.ctl old).retire).setPc i p) := by
  have hmove : PresenceInv (s.setPc i p) := by
    refine h.setPc hpc nofun ?_ (fun hp => absurd hp hun)
    rw [hgr]
    nofun
  refine hmove.roles rfl rfl ?_ ?_ (fun _ hj => .inl hj)
  · intro c _ ha
    by_cases hc : c = old
    · subst hc
      rcases ha with hs | hm | hp
      · refine ⟨i, hkey, hrun.symm, .inr (.inr ?_)⟩
        rw [setPc_pc_self]
        exact hmay
      · refine ⟨c, rfl, rfl, .inr (.inl ?_)⟩
        change ((s.setCtl c (s.ctl c).retire).ctl c).worker = _
        rw [setCtl_ctl_self]
        exact hm
      · exact ⟨c, rfl, rfl, .inr (.inr hp)⟩
    · exact ⟨c, rfl, rfl, ha.of_eq (setCtl_ctl_of_ne s _ hc) rfl⟩
  · rintro c (⟨hlive, hrep⟩ | hg)
    · have hc : c ≠ old := by
        rintro rfl
        change ((s.setCtl c (s.ctl c).retire).ctl c).replaced = false at hrep
        rw [setCtl_ctl_self] at hrep
        cases hrep
      rw [show ((s.setCtl old (s.ctl old).retire).setPc i p).ctl c = s.ctl c from
        setCtl_ctl_of_ne s _ hc] at hlive hrep
      exact .inl ⟨hlive, hrep⟩
    · exact .inr hg

theorem PresenceInv.start (hpc : s.pc i = .starting)
    (hrep : (s.ctl i).replaced = false) : PresenceInv (next s (.start i)) := by
  have hctl : (next s (.start i)).ctl i =
      { s.ctl i with started := true, reader := .idle, worker := .serving } := by
    change (s.setCtl i (s.ctl i).start).ctl i = _
    rw [setCtl_ctl_self, Control.start, if_neg (by rw [hrep]; rintro ⟨⟩)]
  have hctlOther : ∀ c, c ≠ i → (next s (.start i)).ctl c = s.ctl c :=
    fun c hc => setCtl_ctl_of_ne s _ hc
  have hpcOther : ∀ c, c ≠ i → (next s (.start i)).pc c = s.pc c :=
    fun c hc => setPc_pc_of_ne _ _ hc
  have hserv : Serving (next s (.start i)) i := by
    rw [Serving, hctl]
    exact ⟨rfl, hrep⟩
  refine h.roles rfl rfl ?_ ?_ ?_
  · intro c _ ha
    refine ⟨c, rfl, rfl, ?_⟩
    by_cases hci : c = i
    · rw [hci]
      exact .inl hserv
    · exact ha.of_eq (hctlOther c hci) (hpcOther c hci)
  · intro c hc
    by_cases hci : c = i
    · subst hci
      exact .inr (by rw [hpc]; rfl)
    · exact hc.of_eq (hctlOther c hci).symm (hpcOther c hci).symm
  · intro j hj
    by_cases hji : j = i
    · rw [hji, show (next s (.start i)).pc i = .counting from setPc_pc_self ..] at hj
      cases hj
    · rw [hpcOther j hji] at hj
      exact .inl hj

end Roles

/-! ## Steps that change the registry -/

section RegistrySteps

variable (h : PresenceInv s)

include h

theorem PresenceInv.newLogin (ht : TeardownInv s) (a : RegisterArgs) :
    PresenceInv (next s (.login a)) := by
  have habs : s.pc s.next = .absent := ht.absent s.next (Nat.le_refl _)
  have hns : (s.ctl s.next).started = false := ht.starting s.next (by rw [habs]; rfl)
  have hnone : ∀ r, ¬ Answers s s.next r := by
    rintro r (⟨hl, -⟩ | hm | hp)
    · rw [(Control.live_iff.1 hl).1] at hns
      cases hns
    · rw [((ht.ctl s.next).unstarted hns).2.1] at hm
      cases hm
    · rw [habs] at hp
      cases hp
  have hlogin : ∀ j, j ≠ s.next → (next s (.login a)).login j = s.login j :=
    fun j hj => update_of_ne hj ..
  have hrun : ∀ j, j ≠ s.next → (next s (.login a)).runID j = s.runID j :=
    fun j hj => congrArg RegisterArgs.runID (hlogin j hj)
  have hpc : ∀ j, j ≠ s.next → (next s (.login a)).pc j = s.pc j :=
    fun j hj => update_of_ne hj ..
  have hctl : ∀ j, j ≠ s.next → (next s (.login a)).ctl j = s.ctl j :=
    fun j hj => update_of_ne hj ..
  have hfresh : ¬ Present (next s (.login a)) s.next := by
    rintro (⟨hl, -⟩ | hg)
    · rw [show (next s (.login a)).ctl s.next = newControl a.runID from
        update_self ..] at hl
      cases hl
    · rw [show (next s (.login a)).pc s.next = .created from update_self ..] at hg
      cases hg
  have hpres : ∀ c, Present (next s (.login a)) c → c ≠ s.next ∧ Present s c := by
    intro c hc
    have hcn : c ≠ s.next := by
      rintro rfl
      exact hfresh hc
    exact ⟨hcn, hc.of_eq (hctl c hcn).symm (hpc c hcn).symm⟩
  refine ⟨h.wf, h.index, ?_, ?_, ?_⟩
  · intro k r hon
    obtain ⟨c, hk, hr, ha⟩ := h.answers k r hon
    have hcn : c ≠ s.next := by
      rintro rfl
      exact hnone r ha
    exact ⟨c, by rw [hlogin c hcn, hk], by rw [hrun c hcn, hr],
      ha.of_eq (hctl c hcn) (hpc c hcn)⟩
  · intro c hc
    obtain ⟨hcn, hc'⟩ := hpres c hc
    rw [hlogin c hcn, hrun c hcn]
    exact h.online c hc'
  · intro i c hi hci hr hc
    obtain ⟨hcn, hc'⟩ := hpres c hc
    have hin : i ≠ s.next := by
      rintro rfl
      rw [show (next s (.login a)).pc s.next = .created from update_self ..] at hi
      cases hi
    rw [hpc i hin] at hi
    rw [hrun c hcn, hrun i hin] at hr
    exact h.undone i c hi hci hr hc'

variable {i now : Nat}

theorem PresenceInv.registerConflict (hl : LedgerInv s)
    (hpc : s.pc i = .registering) (hc : (s.registry.register now (s.login i)).2.2 = true) :
    PresenceInv (s.setPc i .conflict) := by
  have hrun : (s.login i).runID ≠ "" := hl.run_ne i (by rw [hpc]; rintro ⟨⟩)
  obtain ⟨-, r', hne, hon'⟩ := (register_conflict_iff now h.wf hrun).1 hc
  refine h.roles rfl rfl ?_ ?_ ?_
  · intro c hon ha
    have hci : c ≠ i := by
      rintro rfl
      exact hne (onlineAs_unique hon' hon)
    exact ⟨c, rfl, rfl, ha.of_eq rfl (setPc_pc_of_ne s _ hci)⟩
  · exact fun c => Or.imp_right ((forall_setPc_iff (p := fun c q =>
      q.granted = true → (s.pc c).granted = true)).2 ⟨by rintro ⟨⟩, fun _ _ => id⟩ c)
  · exact (forall_setPc_iff (p := fun j q => q = .undoMark → s.pc j = .undoMark ∨
      ∀ c, c ≠ j → s.runID c = s.runID j → ¬ Present s c)).2 ⟨nofun, fun _ _ => .inl⟩

theorem PresenceInv.registerOk (hl : LedgerInv s)
    (hpc : s.pc i = .registering) (hc : (s.registry.register now (s.login i)).2.2 = false)
    (hfree : (s.login i).rawClientID = "" → keyTaken s.registry (s.login i) = false)
    (halone : ∀ c, c ≠ i → s.runID c = s.runID i → ∀ r, ¬ Answers s c r)
    (hundo : ∀ j, s.pc j = .undoMark → s.runID j ≠ s.runID i) : PresenceInv
      ({ s with registry := (s.registry.register now (s.login i)).1 }.setPc i .returned) := by
  have hrun : (s.login i).runID ≠ "" := hl.run_ne i (by rw [hpc]; rintro ⟨⟩)
  have hon := onlineAs_register now hrun hc
  have hsame : ∀ r, OnlineAs s.registry (s.login i).clientKey r → r = s.runID i := by
    intro r hr
    by_cases hid : (s.login i).rawClientID = ""
    · exact keyTaken_eq_false_iff.1 (hfree hid) r hr
    · by_contra hne
      rw [(register_conflict_iff now h.wf hrun).2 ⟨hid, r, hne, hr⟩] at hc
      cases hc
  have hpcOther : ∀ c, c ≠ i → (s.setPc i .returned).pc c = s.pc c := fun c => setPc_pc_of_ne s _
  have hpresOther : ∀ c, c ≠ i → Present (s.setPc i .returned) c → Present s c :=
    fun c hci hp => hp.of_eq rfl (hpcOther c hci).symm
  refine ⟨register_wellFormed now h.wf hrun, ?_, ?_, ?_, ?_⟩
  · intro k r hk
    rcases (hon k r).1 hk with ⟨rfl, rfl⟩ | ⟨hkne, hold⟩
    · rcases runIndex_register now hrun hc (s.login i).runID with ⟨hr, -⟩ | ⟨hne, -⟩
      · exact hr
      · exact absurd rfl hne
    · rcases runIndex_register now hrun hc r with ⟨-, rfl⟩ | ⟨-, hr | ⟨info, hi, rfl, hne⟩⟩
      · -- another key online under the same run id: somebody else answers for it
        obtain ⟨c, hck, hcr, ha⟩ := h.answers k _ hold
        have hci : c ≠ i := by
          rintro rfl
          exact hkne hck.symm
        exact absurd ha (halone c hci hcr _)
      · exact hr.trans (h.index k r hold)
      · -- two keys online under one run id
        have hon' : OnlineAs s.registry (s.login i).clientKey info.runID :=
          ⟨info, hi, (h.wf.online_iff _ info hi).2 hne, rfl⟩
        have hidx := (h.index _ _ hon').symm.trans (h.index _ _ hold)
        exact absurd (Option.some.inj hidx).symm hkne
  · intro k r hk
    rcases (hon k r).1 hk with ⟨rfl, rfl⟩ | ⟨hkne, hold⟩
    · refine ⟨i, rfl, rfl, .inr (.inr ?_)⟩
      rw [setPc_pc_self]
      rfl
    · obtain ⟨c, hck, hcr, ha⟩ := h.answers k r hold
      have hci : c ≠ i := by
        rintro rfl
        exact hkne hck.symm
      exact ⟨c, hck, hcr, ha.of_eq rfl (hpcOther c hci)⟩
  · intro c hp
    by_cases hci : c = i
    · subst hci
      exact (hon _ _).2 (.inl ⟨rfl, rfl⟩)
    · have hold := h.online c (hpresOther c hci hp)
      refine (hon _ _).2 ?_
      by_cases hkey : (s.login c).clientKey = (s.login i).clientKey
      · rw [hkey] at hold
        exact .inl ⟨hkey, hsame _ hold⟩
      · exact .inr ⟨hkey, hold⟩
  · intro j c hj hcj hr hp
    have hji : j ≠ i := by
      rintro rfl
      rw [setPc_pc_self] at hj
      cases hj
    have hj' : s.pc j = .undoMark := by
      rw [← hpcOther j hji]
      exact hj
    by_cases hci : c = i
    · subst hci
      exact hundo j hj' hr.symm
    · exact h.undone j c hj' hcj hr (hpresOther c hci hp)

variable {r0 : String}

theorem PresenceInv.markOffline {t : State}
    (hreg : t.registry = s.registry.markOfflineByRunID now r0) (hlogin : t.login = s.login)
    (hans : ∀ c, s.runID c ≠ r0 → Answers s c (s.runID c) → Answers t c (s.runID c))
    (hpres : ∀ c, Present t c → Present s c ∧ s.runID c ≠ r0)
    (hundo : ∀ i, t.pc i = .undoMark → s.pc i = .undoMark) : PresenceInv t := by
  have hrun : ∀ c, t.runID c = s.runID c := fun c => congrArg (fun l => (l c).runID) hlogin
  have hon : ∀ k r, OnlineAs t.registry k r ↔ OnlineAs s.registry k r ∧ r ≠ r0 := by
    intro k r
    rw [hreg, onlineAs_markOfflineByRunID]
    refine and_congr_right fun hk => ?_
    constructor
    · rintro hn rfl
      exact hn ⟨h.index k r hk, rfl⟩
    · exact fun hn hc => hn hc.2
  refine ⟨by rw [hreg]; exact markOfflineByRunID_wellFormed now r0 h.wf, ?_, ?_, ?_, ?_⟩
  · intro k r hk
    obtain ⟨hk', hne⟩ := (hon k r).1 hk
    rw [hreg, runIndex_markOfflineByRunID, if_neg hne]
    exact h.index k r hk'
  · intro k r hk
    obtain ⟨hk', hne⟩ := (hon k r).1 hk
    obtain ⟨c, hck, hcr, ha⟩ := h.answers k r hk'
    subst hcr
    exact ⟨c, by rw [hlogin]; exact hck, hrun c, hans c hne ha⟩
  · intro c hc
    obtain ⟨hc', hne⟩ := hpres c hc
    rw [hrun, hlogin]
    exact (hon _ _).2 ⟨h.online c hc', hne⟩
  · intro i c hi hci hr hc
    rw [hrun, hrun] at hr
    exact h.undone i c (hundo i hi) hci hr (hpres c hc).1

omit h in
theorem Present.not_waiting (ht : TeardownInv s) {c : Nat} (h : Present s c) (o : Nat) :
    s.pc c ≠ .waiting o := by
  rcases h with ⟨hlive, -⟩ | hg
  · exact (LoginPc.of_afterStart (ht.afterStart (Control.live_iff.1 hlive).1)).2.2 o
  · exact (LoginPc.of_granted hg).2.2 o

theorem PresenceInv.undoMark (ht : TeardownInv s) (now : Nat)
    (hpc : s.pc i = .undoMark) : PresenceInv (next s (.undoMark i now)) := by
  have hctl : ∀ c, c ≠ i → (next s (.undoMark i now)).ctl c = s.ctl c :=
    fun c hc => setCtl_ctl_of_ne (s.markOffline now (s.runID i)) _ hc
  have hpcOther : ∀ c, c ≠ i → (next s (.undoMark i now)).pc c = s.pc c :=
    fun c hc => update_of_ne hc ..
  have hpcSelf : (next s (.undoMark i now)).pc i = .failed := update_self ..
  refine h.markOffline rfl rfl ?_ ?_ ?_
  · intro c hne ha
    have hci : c ≠ i := by
      rintro rfl
      exact hne rfl
    exact ha.of_eq (hctl c hci) (hpcOther c hci)
  · intro c hp
    have hci : c ≠ i := by
      rintro rfl
      rcases hp with ⟨hlive, -⟩ | hg
      · have hself : (next s (.undoMark c now)).ctl c = { s.ctl c with connClosed := true } :=
          setCtl_ctl_self (s.markOffline now (s.runID c)) c _
        rw [hself] at hlive
        have hst : (s.ctl c).started = true := (Control.live_iff.1 hlive).1
        rw [ht.starting c (by rw [hpc]; rfl)] at hst
        cases hst
      · rw [hpcSelf] at hg
        cases hg
    have hp' : Present s c := hp.of_eq (hctl c hci).symm (hpcOther c hci).symm
    exact ⟨hp', fun hr => h.undone i c hpc hci hr hp'⟩
  · intro j hj
    by_cases hji : j = i
    · rw [hji, hpcSelf] at hj
      cases hj
    · rwa [hpcOther j hji] at hj

theorem PresenceInv.workerMark (hh : HandoverInv s) (ht : TeardownInv s)
    (hl : LedgerInv s) {d : Nat} (now : Nat)
    (hw : (s.ctl d).worker = .marking r0) : PresenceInv (next s (.markOffline d r0 now)) := by
  have hctl : ∀ c, c ≠ d → (next s (.markOffline d r0 now)).ctl c = s.ctl c :=
    fun c hc => setCtl_ctl_of_ne (s.markOffline now r0) _ hc
  have hstarted : (s.ctl d).started = true := (ht.ctl d).started_of_worker (by rw [hw]; rintro ⟨⟩)
  refine h.markOffline rfl rfl ?_ ?_ (fun _ hi => hi)
  · intro c hne ha
    by_cases hcd : c = d
    · subst hcd
      rcases ha with ⟨-, hnr⟩ | hm | hp
      · rcases hl.marking c r0 hw with rfl | ⟨-, hr⟩
        · exact absurd rfl hne
        · rw [hr] at hnr
          cases hnr
      · rw [hw] at hm
        cases hm
        exact absurd rfl hne
      · exact .inr (.inr hp)
    · exact ha.of_eq (hctl c hcd) rfl
  · intro c hp
    have hcd : c ≠ d := by
      rintro rfl
      rcases hp with ⟨hlive, -⟩ | hg
      · rw [show (next s (.markOffline c r0 now)).ctl c = { s.ctl c with worker := .closingDone }
          from setCtl_ctl_self (s.markOffline now r0) c _] at hlive
        exact absurd (Control.live_iff.1 hlive).2 nofun
      · change (s.pc c).granted = true at hg
        rw [(LoginPc.of_afterStart (ht.afterStart hstarted)).2.1] at hg
        cases hg
    replace hp : Present s c := hp.of_eq (hctl c hcd).symm rfl
    refine ⟨hp, ?_⟩
    rintro rfl
    have hidx := h.index _ _ (h.online c hp)
    -- a run id that is indexed is not empty, so the worker marks its own
    have hrun : s.runID c = s.runID d := by
      rcases hl.marking d _ hw with hr | ⟨hr, -⟩
      · exact hr
      · rw [hr, h.wf.index_empty] at hidx
        cases hidx
    have hmap := entry_of_present hh ht hl hp
    rw [hrun] at hmap
    rcases entry_of_marking hh ht hw with he | ⟨j, hj, hwait⟩
    · rw [hmap] at he
      exact hcd (Option.some.inj he)
    · rw [hmap] at hj
      cases hj
      exact hp.not_waiting ht d hwait

end RegistrySteps

variable {a : Action}

theorem presenceInv_next (h : PresenceInv s) (hh : HandoverInv s) (ht : TeardownInv s)
    (hl : LedgerInv s) (hen : Enabled s a) (hok : KeepsPresence s a) : PresenceInv (next s a) := by
  cases a with
  | login a => exact h.newLogin ht a
  | lockManager i old =>
    have hlock := h.frame s.ctlsByRunID (some i) s.pxys s.clientCounts
    refine hlock.setPc hen.1 (by rintro ⟨⟩) ?_ ?_ <;> cases old <;> rintro ⟨⟩
  | replaced i old =>
    have hpc : s.pc i = .replacing old := hen
    have hentry := (hh.add i (some old) (by rw [hpc]; rfl)).2
    exact h.retire hpc hok.2 (hl.map_run _ old hentry).2 rfl rfl (by rintro ⟨⟩)
  | closeOldConn i old started =>
    have hconn : PresenceInv (s.setCtl old { s.ctl old with connClosed := true }) :=
      h.setCtl old rfl rfl fun _ => id
    exact hconn.setPc hen (fun _ => rfl) (by rintro ⟨⟩) (by rintro ⟨⟩)
  | closeOldDone i old started =>
    have hdone : PresenceInv
        (s.setCtl old { s.ctl old with done := (s.ctl old).done || !started }) :=
      h.setCtl old rfl rfl fun _ => id
    exact hdone.setPc hen (fun _ => rfl) (by rintro ⟨⟩) (by rintro ⟨⟩)
  | store i old =>
    have hmap := h.frame (update s.ctlsByRunID (s.runID i) (some i)) none s.pxys
      s.clientCounts
    refine hmap.setPc hen ?_ ?_ ?_ <;> cases old <;>
      first | exact fun _ => rfl | rintro ⟨⟩
  | wake i old => exact h.setPc hen.1 (fun _ => rfl) (by rintro ⟨⟩) (by rintro ⟨⟩)
  | register i now =>
    have hpc : s.pc i = .registering := hen
    cases hc : (s.registry.register now (s.login i)).2.2 with
    | true =>
      have hstay := h.registerConflict hl hpc hc
      have hnext : next s (.register i now) = s.setPc i .conflict := by
        rw [next, hc, register_fst_of_conflict now hc]
        rfl
      rw [hnext]
      exact hstay
    | false =>
      obtain ⟨hfree, hundo⟩ := hok
      have hundo' : ∀ j, s.pc j = .undoMark → s.runID j ≠ s.runID i := by
        intro j hj
        refine hundo j ?_ hj
        by_contra hlt
        rw [ht.absent j (by omega)] at hj
        cases hj
      have hnext := h.registerOk hl hpc hc hfree ?_ hundo'
      · rw [next, hc]
        exact hnext
      · intro c hci hrun r ha
        exact hundo' c (undoMark_of_answers hh ht hl hpc hci hrun ha) hrun
  | conflictDel i =>
    have hdel : PresenceInv (s.del i) := h.frame _ s.mgrLock s.pxys s.clientCounts
    have hconn : PresenceInv ((s.del i).setCtl i { s.ctl i with connClosed := true }) :=
      hdel.setCtl i rfl rfl fun _ => id
    exact hconn.setPc hen.1 (by rintro ⟨⟩) (by rintro ⟨⟩) (by rintro ⟨⟩)
  | writeResp i ok =>
    cases ok with
    | true => exact h.setPc hen.1 (fun _ => rfl) (fun _ => rfl) (by rintro ⟨⟩)
    | false => exact h.setPc hen.1 (fun _ => rfl) (by rintro ⟨⟩) (by rintro ⟨⟩)
  | undoDel i =>
    obtain ⟨hpc, -⟩ := hen
    have hnr := not_replaced ht hl (by rw [hpc]; rfl)
    have hmap := hh.holds i (by rw [hpc, hnr]; rfl)
    have hmove : PresenceInv (s.setPc i .undoMark) := by
      refine h.setPc hpc (fun _ => rfl) (by rintro ⟨⟩) fun _ c hci hrun hp => ?_
      have hc := entry_of_present hh ht hl hp
      rw [hrun, hmap] at hc
      exact hci (Option.some.inj hc).symm
    exact hmove.frame _ s.mgrLock s.pxys s.clientCounts
  | undoMark i now => exact h.undoMark ht now hen
  | start i =>
    have hpc : s.pc i = .starting := hen
    exact h.start hpc (not_replaced ht hl (by rw [hpc]; rfl))
  | newClient i =>
    have hcount := h.frame s.ctlsByRunID s.mgrLock s.pxys (s.clientCounts + 1)
    exact hcount.setPc hen (by rintro ⟨⟩) (by rintro ⟨⟩) (by rintro ⟨⟩)
  | reap i =>
    have hdel : PresenceInv (s.del i) := h.frame _ s.mgrLock s.pxys s.clientCounts
    exact hdel.setPc hen.1 (by rintro ⟨⟩) (by rintro ⟨⟩) (by rintro ⟨⟩)
  | connLost c | runProxy c | storeProxy c | closeProxy c | readError c =>
    exact h.setCtl c rfl rfl fun _ => id
  | addProxy c name =>
    by_cases hfree : s.pxys name = none
    · rw [next, if_pos hfree]
      have hpxy := h.frame s.ctlsByRunID s.mgrLock (update s.pxys name (some c))
        s.clientCounts
      exact hpxy.setCtl c rfl rfl fun _ => id
    · rw [next, if_neg hfree]
      exact h.setCtl c rfl rfl fun _ => id
  | finishClose c name =>
    have hpxy := h.frame s.ctlsByRunID s.mgrLock (update s.pxys name none) s.clientCounts
    exact hpxy.setCtl c rfl rfl fun _ => id
  | workerWake c => exact h.workerMove hen.1
  | workerClose c rest name =>
    have hpxy := h.frame s.ctlsByRunID s.mgrLock (update s.pxys name none) s.clientCounts
    exact hpxy.workerMove hen.1
  | closeClient c =>
    have hcount := h.frame s.ctlsByRunID s.mgrLock s.pxys (s.clientCounts - 1)
    exact hcount.workerMove hen
  | markOffline c runID now => exact h.workerMark hh ht hl now hen
  | takeProxies | readRunID | closeDone => exact h.workerMove hen

theorem presenceInv_of_reach (h : Reach step KeepsPresence init s) :
    PresenceInv s ∧ LedgerInv s ∧ HandoverInv s ∧ TeardownInv s := by
  refine invariant_of_next
    (P := fun s => PresenceInv s ∧ LedgerInv s ∧ HandoverInv s ∧ TeardownInv s)
    ⟨presenceInv_init, ledgerInv_init, handoverInv_init, teardownInv_init⟩ ?_ h
  rintro u a ⟨hp, hl, hh, ht⟩ hok hen
  exact ⟨presenceInv_next hp hh ht hl hen hok, ledgerInv_next hl hh ht hen hok,
    handoverInv_next hh ht hen (hok.retiresReturned ht), teardownInv_next ht hen⟩

/-! ## The registry and the control manager -/

/-- The login has reached the control manager and has neither failed nor returned from `Start`. -/
def LoginPc.inFlight : LoginPc → Bool
  | .absent | .counting | .watching | .ended | .failed => false
  | _ => true

def Quiet (s : State) : Prop := ∀ i, (s.pc i).inFlight = false

/-- An entry of a quiet state is online exactly when the manager holds a live control for it. -/
def PresenceAgrees (s : State) : Prop :=
  Quiet s → ∀ r,
    (∃ k, OnlineAs s.registry k r) ↔ ∃ c, s.ctlsByRunID r = some c ∧ (s.ctl c).live = true

/-- The client of a live control that has not been replaced is online. -/
def ServingOnline (s : State) : Prop :=
  ∀ c, (s.ctl c).live = true → (s.ctl c).replaced = false →
    OnlineAs s.registry (s.login c).clientKey (s.runID c)

theorem LoginPc.inFlight_of_mayHold {p : LoginPc} (h : p.mayHold = true) : p.inFlight = true := by
  cases p <;> first | rfl | cases h

theorem LoginPc.inFlight_of_retired {p : LoginPc} {o : Nat × Bool} (h : p.retired = some o) :
    p.inFlight = true := by
  cases p <;> first | rfl | cases h

/-- Under the guard the registry and the control manager agree. -/
theorem presence_agrees (s : State) (hreach : Reach step KeepsPresence init s) :
    PresenceAgrees s ∧ ServingOnline s := by
  constructor
  · intro hq r
    obtain ⟨hp, hl, hh, ht⟩ := presenceInv_of_reach hreach
    constructor
    · rintro ⟨k, hon⟩
      obtain ⟨c, -, rfl, ha⟩ := hp.answers k r hon
      rcases ha with hs | hm | hmay
      · exact ⟨c, entry_of_present hh ht hl (.inl hs), hs.1⟩
      · rcases entry_of_marking hh ht hm with he | ⟨j, -, hw⟩
        · refine ⟨c, he, Control.live_iff.2 ⟨?_, by rw [hm]; rfl⟩⟩
          exact (ht.ctl c).started_of_worker (by rw [hm]; rintro ⟨⟩)
        · have hj := hq j
          rw [hw] at hj
          cases hj
      · have hc := hq c
        rw [LoginPc.inFlight_of_mayHold hmay] at hc
        cases hc
    · rintro ⟨c, hmap, hlive⟩
      obtain ⟨-, hrun⟩ := hl.map_run r c hmap
      subst hrun
      refine ⟨_, hp.online c (.inl ⟨hlive, ?_⟩)⟩
      cases hrep : (s.ctl c).replaced with
      | false => rfl
      | true =>
        -- a replaced control is the entry only while its successor is still in `Add`
        obtain ⟨i, b, hi⟩ := hl.entry c hrep hmap
        have hfl := hq i
        rw [LoginPc.inFlight_of_retired hi] at hfl
        cases hfl
  · intro c hlive hrep
    obtain ⟨hp, -⟩ := presenceInv_of_reach hreach
    exact hp.online c (.inl ⟨hlive, hrep⟩)

theorem quiet_of_lt (ht : TeardownInv s) (h : ∀ i < s.next, (s.pc i).inFlight = false) :
    Quiet s := by
  intro i
  by_cases hi : i < s.next
  · exact h i hi
  · rw [ht.absent i (by omega)]
    rfl

def takeoverRun : List Action :=
  handoverRun ++ [.register 1 2, .writeResp 1 true, .start 1, .newClient 1, .reap 0]

theorem presence_agrees_takeoverRun :
    let s := (run step KeepsPresence init takeoverRun).getD init
    Quiet s ∧ (∃ k, OnlineAs s.registry k "r") ∧ OnlineAs s.registry "c1" "r" := by
  intro s
  have hreach : Reach step KeepsPresence init s := reach_getD_of_isSome (by decide +kernel)
  have hq : Quiet s := quiet_of_lt (teardownInv_of_reach hreach) (by decide +kernel)
  refine ⟨hq, ((presence_agrees s hreach).1 hq "r").2 ⟨1, ?_, ?_⟩,
    (presence_agrees s hreach).2 1 ?_ ?_⟩ <;> decide +kernel

def KnownKeys (s : State) : Prop :=
  ∀ k, s.registry.clients k ≠ none → ∃ i < s.next, (s.login i).clientKey = k

theorem knownKeys_next (h : KnownKeys s) (ht : TeardownInv s) (hen : Enabled s a) :
    KnownKeys (next s a) := by
  cases a with
  | login a =>
    intro k hk
    obtain ⟨i, hi, rfl⟩ := h k hk
    refine ⟨i, Nat.lt_succ_of_lt hi, ?_⟩
    exact congrArg RegisterArgs.clientKey (update_of_ne (Nat.ne_of_lt hi) ..)
  | register i now =>
    intro k hk
    by_cases hki : k = (s.login i).clientKey
    · refine ⟨i, ?_, hki.symm⟩
      change i < s.next
      by_contra hlt
      have hpc : s.pc i = .registering := hen
      rw [ht.absent i (by omega)] at hpc
      cases hpc
    · exact h k (by rw [← register_clients_of_ne now hki]; exact hk)
  | undoMark _ now | markOffline _ _ now =>
    exact fun k hk => h k fun hn => hk (markOfflineByRunID_clients_eq_none now _ hn)
  | addProxy c name =>
    rw [next]
    split_ifs <;> exact h
  | _ => exact h

theorem knownKeys_of_reach {ok : State → Action → Prop} (h : Reach step ok init s) :
    KnownKeys s := by
  refine (invariant_of_next (P := fun s => KnownKeys s ∧ TeardownInv s)
    ⟨fun k hk => absurd rfl hk, teardownInv_init⟩ ?_ h).1
  rintro u a ⟨hk, ht⟩ _ hen
  exact ⟨knownKeys_next hk ht hen, teardownInv_next ht hen⟩

def lateFailureRun : List Action :=
  [.login loginArgs, .lockManager 0 none, .store 0 none, .register 0 0] ++ replaceRun 1 0 false ++
    [.wake 1 0, .register 1 1, .writeResp 1 true, .start 1, .newClient 1, .writeResp 0 false,
      .undoDel 0, .undoMark 0 2]

def lateFailureState : State := (run step anyAction init lateFailureRun).getD init

/-- Without the guard the newer client is offline while its control runs. -/
theorem late_failure_marks_newer_offline :
    Reach step anyAction init lateFailureState ∧ ¬ PresenceAgrees lateFailureState ∧
      ¬ ServingOnline lateFailureState := by
  have hreach : Reach step anyAction init lateFailureState :=
    reach_getD_of_isSome (by decide +kernel)
  have hoff : ¬ OnlineAs lateFailureState.registry "c1" "r" := by decide +kernel
  refine ⟨hreach, fun h => ?_, fun h => ?_⟩
  · have hq := quiet_of_lt (teardownInv_of_reach hreach) (by decide +kernel)
    obtain ⟨k, hon⟩ := (h hq "r").2 ⟨1, by decide +kernel, by decide +kernel⟩
    obtain ⟨info, hi, -⟩ := id hon
    obtain ⟨i, hlt, rfl⟩ := knownKeys_of_reach hreach k (by rw [hi]; rintro ⟨⟩)
    -- both logins are of client `c1`
    have hkey : ∀ j < lateFailureState.next, (lateFailureState.login j).clientKey = "c1" := by
      decide +kernel
    rw [hkey i hlt] at hon
    exact hoff hon
  · exact hoff (h 1 (by decide +kernel) (by decide +kernel))

end FrpMeo.Server.Session
