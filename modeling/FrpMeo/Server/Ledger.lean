import FrpMeo.Server.Handover

/-!
# The ledger of run ids

How the manager's map, the `replaced` marks and the run ids read by the workers fit together, in the
runs that meet `KeepsPresence`: a control is replaced once it has been started, by a login of the
same client key; and a login registers while no failed login of its run id is between
`ctlManager.Del` and `MarkOfflineByRunID`, and without a client id not on a key that is online.
-/

namespace FrpMeo.Server.Session

open Lib.Transition Function
open Server.Registry

def keyTaken (cr : ClientRegistry) (a : RegisterArgs) : Bool :=
  (cr.clients a.clientKey).any fun info => info.online && info.runID ≠ a.runID

def KeepsPresence (s : State) : Action → Prop
  | .replaced i old => (s.ctl old).started = true ∧ (s.login i).clientKey = (s.login old).clientKey
  | .register i _ =>
      ((s.login i).rawClientID = "" → keyTaken s.registry (s.login i) = false) ∧
        ∀ j < s.next, s.pc j = .undoMark → s.runID j ≠ s.runID i
  | _ => True

instance (s : State) (a : Action) : Decidable (KeepsPresence s a) := by
  induction a using Action.casesOn <;> dsimp only [KeepsPresence] <;> infer_instance

theorem keyTaken_eq_false_iff {cr : ClientRegistry} {a : RegisterArgs} :
    keyTaken cr a = false ↔ ∀ r, OnlineAs cr a.clientKey r → r = a.runID := by
  cases hc : cr.clients a.clientKey with
  | none =>
    simp only [keyTaken, hc, Option.any_none, true_iff]
    rintro r ⟨info, hi, -⟩
    rw [hc] at hi
    cases hi
  | some info =>
    simp only [keyTaken, hc, Option.any_some, OnlineAs, Option.some.injEq, Bool.and_eq_false_imp,
      decide_eq_false_iff_not, not_not]
    constructor
    · rintro h r ⟨info', rfl, ho, rfl⟩
      exact h ho
    · intro h ho
      exact h info.runID ⟨info, rfl, ho, rfl⟩

variable {a : Action}

theorem KeepsPresence.retiresReturned {s : State} (ht : TeardownInv s)
    (h : KeepsPresence s a) : RetiresReturned s a := by
  cases a with
  | replaced i old =>
    have hafter := ht.afterStart h.1
    change (s.pc old).hasReturned = true
    cases hp : s.pc old <;> rw [hp] at hafter <;> first | rfl | cases hafter
  | _ => trivial

/-! ## The map and the run ids -/

/-- Facts about the map, the `replaced` marks and the run ids the workers read. -/
structure LedgerInv (s : State) : Prop where
  run_ne : ∀ i, s.pc i ≠ .absent → s.runID i ≠ ""
  map_run : ∀ r c, s.ctlsByRunID r = some c → s.pc c ≠ .absent ∧ s.runID c = r
  started : ∀ c, (s.ctl c).replaced = true → (s.ctl c).started = true
  waited : ∀ i c, s.pc i = .waiting c → (s.ctl c).replaced = true
  entry : ∀ c, (s.ctl c).replaced = true → s.ctlsByRunID (s.runID c) = some c →
    ∃ i b, (s.pc i).retired = some (c, b)
  own : ∀ c, (s.ctl c).replaced = false → (s.ctl c).runID = s.runID c
  gone : ∀ c, (s.ctl c).replaced = true → (s.ctl c).runID = ""
  marking : ∀ c r, (s.ctl c).worker = .marking r →
    r = s.runID c ∨ r = "" ∧ (s.ctl c).replaced = true

theorem ledgerInv_init : LedgerInv init where
  run_ne := fun _ h => absurd rfl h
  map_run := nofun
  started := nofun
  waited := nofun
  entry := nofun
  own := fun _ _ => rfl
  gone := nofun
  marking := nofun

namespace LedgerInv

variable {s : State}

variable (h : LedgerInv s)

include h

variable {k : Control}

theorem setCtl (c : Nat) (hrep : k.replaced = (s.ctl c).replaced) (hrun : k.runID = (s.ctl c).runID)
    (hst : (s.ctl c).started = true → k.started = true) (hmark : ∀ r, k.worker = .marking r →
      (s.ctl c).worker = .marking r ∨ r = (s.ctl c).runID) :
    LedgerInv (s.setCtl c k) := by
  have hrep' : ∀ d, ((s.setCtl c k).ctl d).replaced = (s.ctl d).replaced :=
    (forall_setCtl_iff (p := fun d k => k.replaced = (s.ctl d).replaced)).2 ⟨hrep, fun _ _ => rfl⟩
  have hrun' : ∀ d, ((s.setCtl c k).ctl d).runID = (s.ctl d).runID :=
    (forall_setCtl_iff (p := fun d k => k.runID = (s.ctl d).runID)).2 ⟨hrun, fun _ _ => rfl⟩
  have hst' : ∀ d, (s.ctl d).started = true → ((s.setCtl c k).ctl d).started = true :=
    (forall_setCtl_iff (p := fun d k => (s.ctl d).started = true → k.started = true)).2
      ⟨hst, fun _ _ => id⟩
  refine ⟨h.run_ne, h.map_run, ?_, ?_, ?_, ?_, ?_, ?_⟩
  · intro d hd
    rw [hrep'] at hd
    exact hst' d (h.started d hd)
  · intro i d hi
    rw [hrep']
    exact h.waited i d hi
  · intro d hd
    rw [hrep'] at hd
    exact h.entry d hd
  · intro d hd
    rw [hrep'] at hd
    rw [hrun']
    exact h.own d hd
  · intro d hd
    rw [hrep'] at hd
    rw [hrun']
    exact h.gone d hd
  · refine (forall_setCtl_iff (p := fun d k => ∀ r, k.worker = .marking r →
      r = s.runID d ∨ r = "" ∧ k.replaced = true)).2 ⟨fun r hr => ?_, fun d _ => h.marking d⟩
    rw [hrep]
    rcases hmark r hr with hw | hread
    · exact h.marking c r hw
    · -- the worker has read the run id of the control just now
      cases hc : (s.ctl c).replaced with
      | false => exact .inl (hread.trans (h.own c hc))
      | true => exact .inr ⟨hread.trans (h.gone c hc), rfl⟩

variable {i : Nat}

theorem setPc {p : LoginPc} (hi : s.pc i ≠ .absent)
    (hp : p ≠ .absent) (hwait : ∀ c, p = .waiting c → (s.ctl c).replaced = true)
    (hret : ∀ c b, (s.pc i).retired = some (c, b) →
      (∃ b', p.retired = some (c, b')) ∨ s.ctlsByRunID (s.runID c) ≠ some c) :
    LedgerInv (s.setPc i p) := by
  have hpres : ∀ j, (s.setPc i p).pc j ≠ .absent ↔ s.pc j ≠ .absent :=
    (forall_setPc_iff (p := fun j q => q ≠ .absent ↔ s.pc j ≠ .absent)).2
      ⟨iff_of_true hp hi, fun _ _ => Iff.rfl⟩
  refine ⟨fun j hj => h.run_ne j ((hpres j).1 hj), ?_, h.started, ?_, ?_, h.own, h.gone, h.marking⟩
  · intro r c hc
    obtain ⟨h1, h2⟩ := h.map_run r c hc
    exact ⟨(hpres c).2 h1, h2⟩
  · exact (forall_setPc_iff (p := fun _ q => ∀ c, q = .waiting c → (s.ctl c).replaced = true)).2
      ⟨hwait, fun j _ => h.waited j⟩
  · intro c hc hmap
    obtain ⟨j, b, hj⟩ := h.entry c hc hmap
    by_cases hji : j = i
    · subst hji
      rcases hret c b hj with ⟨b', hb⟩ | hne
      · exact ⟨j, b', by rw [setPc_pc_self]; exact hb⟩
      · exact absurd hmap hne
    · exact ⟨j, b, by rw [setPc_pc_of_ne s p hji]; exact hj⟩

theorem frame (registry : ClientRegistry)
    (pxys : String → Option Nat) (clientCounts : Int) (mgrLock : Option Nat) : LedgerInv { s with
      registry := registry, pxys := pxys, clientCounts := clientCounts, mgrLock := mgrLock } :=
  { h with }

theorem del (i : Nat) : LedgerInv (s.del i) := by
  have hsub : ∀ r c, (s.del i).ctlsByRunID r = some c → s.ctlsByRunID r = some c := by
    intro r c hc
    unfold State.del at hc
    split_ifs at hc
    · exact (update_none_eq_some.1 hc).2
    · exact hc
  exact { h with
    map_run := fun r c hc => h.map_run r c (hsub r c hc)
    entry := fun c hc hmap => h.entry c hc (hsub _ c hmap) }

theorem store (hh : HandoverInv s) (ht : TeardownInv s)
    {old : Option Nat} (hp : s.pc i = .storing old) : LedgerInv (next s (.store i old)) := by
  have hmapSelf : update s.ctlsByRunID (s.runID i) (some i) (s.runID i) = some i :=
    update_self ..
  have hmap : LedgerInv { s with
      ctlsByRunID := update s.ctlsByRunID (s.runID i) (some i), mgrLock := none } := by
    refine { h with map_run := ?_, entry := ?_ }
    · intro r c hc
      dsimp only at hc
      by_cases hr : r = s.runID i
      · subst hr
        rw [hmapSelf] at hc
        cases hc
        exact ⟨by rw [hp]; rintro ⟨⟩, rfl⟩
      · rw [update_of_ne hr] at hc
        exact h.map_run r c hc
    · intro c hc hentry
      change update s.ctlsByRunID (s.runID i) (some i) (s.runID c) = some c at hentry
      by_cases hr : s.runID c = s.runID i
      · rw [hr, hmapSelf] at hentry
        cases hentry
        have hst := h.started i hc
        rw [ht.starting i (by rw [hp]; rfl)] at hst
        cases hst
      · rw [update_of_ne hr] at hentry
        exact h.entry c hc hentry
  refine hmap.setPc ?_ ?_ ?_ ?_
  · rw [hp]
    nofun
  · cases old <;> rintro ⟨⟩
  · intro c hc
    cases old with
    | none => cases hc
    | some o =>
      cases hc
      exact (hh.retired i c true (by rw [hp]; rfl)).2.1
  · intro c b hc
    rw [hp] at hc
    cases old with
    | none => cases hc
    | some o =>
      cases hc
      refine .inr ?_
      have hentry := (hh.add i (some c) (by rw [hp]; rfl)).2
      change update s.ctlsByRunID (s.runID i) (some i) (s.runID c) ≠ some c
      rw [(h.map_run _ c hentry).2, hmapSelf]
      intro hci
      cases hci
      have hret := (hh.retired i i true (by rw [hp]; rfl)).1
      rw [hp] at hret
      cases hret

theorem retire {c : Nat} {b : Bool}
    (hst : (s.ctl c).started = true) (hi : (s.pc i).retired = some (c, b)) :
    LedgerInv (s.setCtl c (s.ctl c).retire) := by
  refine ⟨h.run_ne, h.map_run, ?_, ?_, ?_, ?_, ?_, ?_⟩
  · exact (forall_setCtl_iff (p := fun _ k => k.replaced = true → k.started = true)).2
      ⟨fun _ => hst, fun d _ => h.started d⟩
  · intro j
    exact (forall_setCtl_iff (p := fun d k => s.pc j = .waiting d → k.replaced = true)).2
      ⟨fun _ => rfl, fun d _ => h.waited j d⟩
  · exact (forall_setCtl_iff (p := fun d k => k.replaced = true →
      s.ctlsByRunID (s.runID d) = some d → ∃ i b, (s.pc i).retired = some (d, b))).2
      ⟨fun _ _ => ⟨i, b, hi⟩, fun d _ => h.entry d⟩
  · exact (forall_setCtl_iff (p := fun d k => k.replaced = false → k.runID = s.runID d)).2
      ⟨nofun, fun d _ => h.own d⟩
  · exact (forall_setCtl_iff (p := fun _ k => k.replaced = true → k.runID = "")).2
      ⟨fun _ => rfl, fun d _ => h.gone d⟩
  · exact (forall_setCtl_iff (p := fun d k => ∀ r, k.worker = .marking r →
      r = s.runID d ∨ r = "" ∧ k.replaced = true)).2
      ⟨fun r hr => (h.marking c r hr).imp_right fun hmark => ⟨hmark.1, rfl⟩,
        fun d _ => h.marking d⟩

theorem newLogin (ht : TeardownInv s) {a : RegisterArgs}
    (ha : a.runID ≠ "") : LedgerInv (next s (.login a)) := by
  have habs : s.pc s.next = .absent := ht.absent s.next (Nat.le_refl _)
  have hns : (s.ctl s.next).started = false := ht.starting s.next (by rw [habs]; rfl)
  have hnr : (s.ctl s.next).replaced = false := by
    cases hr : (s.ctl s.next).replaced with
    | false => rfl
    | true => rw [h.started _ hr] at hns; cases hns
  refine ⟨?_, ?_, ?_, ?_, ?_, ?_, ?_, ?_⟩
  · exact (forall_login_iff (p := fun _ q _ b => q ≠ .absent → b.runID ≠ "")).2
      ⟨fun _ => ha, fun j _ => h.run_ne j⟩
  · intro r
    exact (forall_login_iff (p := fun c q _ b => s.ctlsByRunID r = some c →
      q ≠ .absent ∧ b.runID = r)).2
      ⟨fun hc => absurd habs (h.map_run r _ hc).1, fun c _ => h.map_run r c⟩
  · exact (forall_login_iff (p := fun _ _ k _ => k.replaced = true → k.started = true)).2
      ⟨nofun, fun c _ => h.started c⟩
  · refine (forall_login_iff (p := fun _ q _ _ => ∀ c, q = .waiting c →
      ((next s (.login a)).ctl c).replaced = true)).2 ⟨nofun, fun i _ c hi => ?_⟩
    -- a control that is waited for has been replaced, so it is not the new one
    have hrep := h.waited i c hi
    have hcn : c ≠ s.next := by
      rintro rfl
      rw [hnr] at hrep
      cases hrep
    rwa [show (next s (.login a)).ctl c = s.ctl c from update_of_ne hcn ..]
  · refine (forall_login_iff (p := fun c _ k b => k.replaced = true →
      s.ctlsByRunID b.runID = some c →
        ∃ i b', ((next s (.login a)).pc i).retired = some (c, b'))).2
      ⟨nofun, fun c _ hc hmap => ?_⟩
    obtain ⟨i, b, hi⟩ := h.entry c hc hmap
    have hin : i ≠ s.next := by
      rintro rfl
      rw [habs] at hi
      cases hi
    exact ⟨i, b, (congrArg LoginPc.retired (update_of_ne hin ..)).trans hi⟩
  · exact (forall_login_iff (p := fun _ _ k b => k.replaced = false → k.runID = b.runID)).2
      ⟨fun _ => rfl, fun c _ => h.own c⟩
  · exact (forall_login_iff (p := fun _ _ k _ => k.replaced = true → k.runID = "")).2
      ⟨nofun, fun c _ => h.gone c⟩
  · exact (forall_login_iff (p := fun _ _ k b => ∀ r, k.worker = .marking r →
      r = b.runID ∨ r = "" ∧ k.replaced = true)).2 ⟨nofun, fun c _ => h.marking c⟩

variable {p q : LoginPc}

theorem move (hpc : s.pc i = q)
    (hq : q ≠ .absent := by rintro ⟨⟩) (hret : q.retired = none := by rfl)
    (hp : p ≠ .absent := by rintro ⟨⟩) (hwait : ∀ c, p ≠ .waiting c := by rintro _ ⟨⟩) :
    LedgerInv (s.setPc i p) := by
  subst hpc
  refine h.setPc hq hp (fun c hc => absurd hc (hwait c)) ?_
  intro c b hc
  rw [hret] at hc
  cases hc

theorem closing {old : Nat} {b b' : Bool}
    (hpc : s.pc i = q) (hq : q.retired = some (old, b)) (hp : p.retired = some (old, b'))
    (hwait : ∀ c, p ≠ .waiting c := by rintro _ ⟨⟩) : LedgerInv (s.setPc i p) := by
  subst hpc
  refine h.setPc ?_ ?_ (fun c hc => absurd hc (hwait c)) ?_
  · intro habs
    rw [habs] at hq
    cases hq
  · rintro rfl
    cases hp
  · intro c d hc
    cases hq.symm.trans hc
    exact .inl ⟨b', hp⟩

theorem serve (c : Nat) (hk : (k.replaced, k.runID, k.started) =
      ((s.ctl c).replaced, (s.ctl c).runID, (s.ctl c).started))
    (hmark : ∀ r, k.worker = .marking r → (s.ctl c).worker = .marking r := by rintro _ ⟨⟩) :
    LedgerInv (s.setCtl c k) := by
  obtain ⟨hrep, hrun, hst⟩ : k.replaced = (s.ctl c).replaced ∧ k.runID = (s.ctl c).runID ∧
      k.started = (s.ctl c).started := by
    simpa using hk
  exact h.setCtl c hrep hrun (fun hs => hst.trans hs) fun r hr => .inl (hmark r hr)

end LedgerInv

theorem ledgerInv_next {s : State} (h : LedgerInv s) (hh : HandoverInv s) (ht : TeardownInv s)
    (hen : Enabled s a) (hok : KeepsPresence s a) : LedgerInv (next s a) := by
  cases a with
  | login a => exact h.newLogin ht hen
  | lockManager i old =>
    have hlock := h.frame s.registry s.pxys s.clientCounts (some i)
    cases old with
    | none | some => exact hlock.move hen.1
  | replaced i old =>
    have hpc : s.pc i = .replacing old := hen
    have hmove : LedgerInv (s.setPc i (.closingConn old (s.ctl old).started)) := h.move hpc
    refine hmove.retire (i := i) (b := (s.ctl old).started) hok.1 ?_
    rw [setPc_pc_self]
    rfl
  | closeOldConn i old started =>
    have hpc : s.pc i = .closingConn old started := hen
    have hconn : LedgerInv (s.setCtl old { s.ctl old with connClosed := true }) :=
      h.serve old rfl fun _ => id
    exact hconn.closing hpc rfl rfl
  | closeOldDone i old started =>
    have hpc : s.pc i = .closingDone old started := hen
    have hdone : LedgerInv
        (s.setCtl old { s.ctl old with done := (s.ctl old).done || !started }) :=
      h.serve old rfl fun _ => id
    exact hdone.closing hpc rfl rfl
  | store i old => exact h.store hh ht hen
  | wake i old => exact h.move hen.1
  | register i now =>
    have hreg := h.frame (s.registry.register now (s.login i)).1 s.pxys s.clientCounts s.mgrLock
    refine hreg.move hen nofun rfl ?_ ?_
    · cases (s.registry.register now (s.login i)).2.2 <;> rintro ⟨⟩
    · cases (s.registry.register now (s.login i)).2.2 <;> rintro _ ⟨⟩
  | conflictDel i =>
    have hconn : LedgerInv ((s.del i).setCtl i { s.ctl i with connClosed := true }) :=
      (h.del i).serve i rfl fun _ => id
    exact hconn.move hen.1
  | writeResp i ok =>
    cases ok with
    | true | false => exact h.move hen.1
  | undoDel i | reap i => exact (h.del i).move hen.1
  | undoMark i now =>
    have hmark := h.frame (s.registry.markOfflineByRunID now (s.runID i)) s.pxys s.clientCounts
      s.mgrLock
    have hconn := hmark.serve (k := { s.ctl i with connClosed := true }) i rfl fun _ => id
    exact hconn.move hen
  | start i =>
    have hstart : LedgerInv (s.setCtl i (s.ctl i).start) := by
      refine h.setCtl i ?_ ?_ ?_ ?_ <;> unfold Control.start <;> split_ifs
      · rfl
      · rfl
      · rfl
      · rfl
      · exact id
      · exact fun _ => rfl
      · exact fun _ => .inl
      · nofun
    exact hstart.move hen
  | newClient i =>
    have hcount := h.frame s.registry s.pxys (s.clientCounts + 1) s.mgrLock
    exact hcount.move hen
  | connLost c | runProxy c | storeProxy c | closeProxy c | readError c =>
    exact h.serve c rfl fun _ => id
  | addProxy c name =>
    by_cases hfree : s.pxys name = none
    · rw [next, if_pos hfree]
      have hpxy := h.frame s.registry (update s.pxys name (some c)) s.clientCounts
        s.mgrLock
      exact hpxy.serve c rfl fun _ => id
    · rw [next, if_neg hfree]
      exact h.serve c rfl fun _ => id
  | finishClose c name =>
    have hpxy := h.frame s.registry (update s.pxys name none) s.clientCounts s.mgrLock
    exact hpxy.serve c rfl fun _ => id
  | workerWake c | takeProxies c | closeDone c => exact h.serve c rfl
  | workerClose c rest name =>
    have hpxy := h.frame s.registry (update s.pxys name none) s.clientCounts s.mgrLock
    exact hpxy.serve c rfl
  | closeClient c => exact (h.frame s.registry s.pxys (s.clientCounts - 1) s.mgrLock).serve c rfl
  | readRunID c =>
    refine h.setCtl c rfl rfl id ?_
    intro r hr
    cases hr
    exact .inr rfl
  | markOffline c runID now =>
    have hmark := h.frame (s.registry.markOfflineByRunID now runID) s.pxys s.clientCounts s.mgrLock
    exact hmark.serve c rfl

end FrpMeo.Server.Session
