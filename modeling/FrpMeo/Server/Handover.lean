import FrpMeo.Server.Teardown

/-!
# Handover of a run id

When `RegisterControl` returns a control for a run id, has every other started control of it
finished its teardown? A login waits only for the control it replaced, and one that was replaced
before it was started releases its waiter at once.
-/

namespace FrpMeo.Server.Session

open Lib.Transition Function

/-! ## Classes of program counters -/

def LoginPc.hasReturned : LoginPc → Bool
  | .returned | .undoDel | .undoMark | .starting | .counting | .watching | .ended | .failed => true
  | _ => false

/-- Inside `ControlManager.Add`, with the map entry it has read. -/
def LoginPc.inAdd : LoginPc → Option (Option Nat)
  | .replacing o | .closingConn o _ | .closingDone o _ => some (some o)
  | .storing old => some old
  | _ => none

/-- Inside `Add`, past the mark; the flag is what `Replaced` has read of `started`. -/
def LoginPc.retired : LoginPc → Option (Nat × Bool)
  | .closingConn o b | .closingDone o b => some (o, b)
  | .storing (some o) => some (o, true)
  | _ => none

/-- The login's control has been stored and not deleted by it, nor replaced by a newer login. -/
def LoginPc.holds (replaced : Bool) : LoginPc → Bool
  | .waiting _ | .registering | .conflict => true
  | .returned | .starting | .undoDel => !replaced
  | _ => false

def LoginPc.deleted : LoginPc → Bool
  | .undoMark | .ended | .failed => true
  | _ => false

variable {p : LoginPc}

theorem LoginPc.holds_of_deleted (replaced : Bool) (h : p.deleted = true) :
    p.holds replaced = false := by
  cases p <;> first | rfl | cases h

theorem LoginPc.not_hasReturned_of_holds (h : p.holds true = true) : p.hasReturned = false := by
  cases p <;> first | rfl | cases h

theorem LoginPc.of_inAdd {old : Option Nat} (h : p.inAdd = some old) :
    p.hasReturned = false ∧ ∀ c, p ≠ .waiting c := by
  cases p <;> first | (cases h; done) | exact ⟨rfl, nofun⟩

/-! ## The invariant -/

/-- A control is replaced only after the `RegisterControl` that created it has returned. -/
def RetiresReturned (s : State) : Action → Prop
  | .replaced _ old => (s.pc old).hasReturned = true
  | _ => True

instance (s : State) (a : Action) : Decidable (RetiresReturned s a) := by
  induction a using Action.casesOn <;> dsimp only [RetiresReturned] <;> infer_instance

structure HandoverInv (s : State) : Prop where
  add : ∀ i old, (s.pc i).inAdd = some old →
    s.mgrLock = some i ∧ s.ctlsByRunID (s.runID i) = old
  retired : ∀ i o b, (s.pc i).retired = some (o, b) →
    (s.pc o).hasReturned = true ∧ (s.ctl o).replaced = true ∧
      (b = false → (s.ctl o).started = false)
  holds : ∀ i, (s.pc i).holds (s.ctl i).replaced = true → s.ctlsByRunID (s.runID i) = some i
  live : ∀ c, (s.ctl c).started = true → (s.ctl c).worker ≠ .finished →
    s.ctlsByRunID (s.runID c) = some c ∨
      ∃ i, s.ctlsByRunID (s.runID c) = some i ∧ s.pc i = .waiting c
  done : ∀ c, (s.ctl c).done = true →
    (s.ctl c).worker = .finished ∨ (s.ctl c).started = false ∧ (s.ctl c).replaced = true

theorem handoverInv_init : HandoverInv init where
  add := fun _ _ h => by cases h
  retired := fun _ _ _ h => by cases h
  holds := fun _ h => by cases h
  live := fun _ h => by cases h
  done := fun _ h => by cases h

section Updates

variable {s : State}

theorem HandoverInv.setCtl (h : HandoverInv s) (c : Nat) {k : Control}
    (hstarted : k.started = (s.ctl c).started)
    (hreplaced : (s.ctl c).replaced = true → k.replaced = true)
    (hfinished : (s.ctl c).worker = .finished → k.worker = .finished)
    (hdone : k.done = true → k.worker = .finished ∨ k.started = false ∧ k.replaced = true) :
    HandoverInv (s.setCtl c k) := by
  have hst : ∀ d, ((s.setCtl c k).ctl d).started = (s.ctl d).started :=
    (forall_setCtl_iff (p := fun d k => k.started = (s.ctl d).started)).2
      ⟨hstarted, fun _ _ => rfl⟩
  have hrep : ∀ d, (s.ctl d).replaced = true → ((s.setCtl c k).ctl d).replaced = true :=
    (forall_setCtl_iff (p := fun d k => (s.ctl d).replaced = true → k.replaced = true)).2
      ⟨hreplaced, fun _ _ => id⟩
  have hfin : ∀ d, (s.ctl d).worker = .finished → ((s.setCtl c k).ctl d).worker = .finished :=
    (forall_setCtl_iff (p := fun d k => (s.ctl d).worker = .finished → k.worker = .finished)).2
      ⟨hfinished, fun _ _ => id⟩
  refine ⟨h.add, ?_, ?_, ?_, ?_⟩
  · intro i o b hi
    obtain ⟨h1, h2, h3⟩ := h.retired i o b hi
    exact ⟨h1, hrep o h2, fun hb => by rw [hst]; exact h3 hb⟩
  · intro i hi
    refine h.holds i ?_
    change (s.pc i).holds ((s.setCtl c k).ctl i).replaced = true at hi
    cases hr : (s.ctl i).replaced with
    | false => cases hp : s.pc i <;> rw [hp] at hi <;> first | rfl | cases hi
    | true => rwa [hrep i hr] at hi
  · intro d hd hw
    rw [hst] at hd
    exact h.live d hd fun hf => hw (hfin d hf)
  · exact (forall_setCtl_iff (p := fun _ k => k.done = true →
      k.worker = .finished ∨ k.started = false ∧ k.replaced = true)).2 ⟨hdone, fun d _ => h.done d⟩

/-- What a login needs to move to the program counter `p`. -/
structure MoveOk (s : State) (i : Nat) (p : LoginPc) : Prop where
  add : ∀ old, p.inAdd = some old → s.mgrLock = some i ∧ s.ctlsByRunID (s.runID i) = old
  retired : ∀ o b, p.retired = some (o, b) → o ≠ i ∧
    (s.pc o).hasReturned = true ∧ (s.ctl o).replaced = true ∧
      (b = false → (s.ctl o).started = false)
  returned : (s.pc i).hasReturned = true → p.hasReturned = true
  holds : p.holds (s.ctl i).replaced = true → s.ctlsByRunID (s.runID i) = some i
  waited : ∀ c, s.pc i = .waiting c → p ≠ .waiting c → (s.ctl c).done = true

variable {i : Nat}

variable (h : HandoverInv s)

include h

namespace HandoverInv

theorem setPc (hm : MoveOk s i p) : HandoverInv (s.setPc i p) := by
  have hsame : ∀ j, j ≠ i → (s.setPc i p).pc j = s.pc j := fun j => setPc_pc_of_ne s p
  have hself : (s.setPc i p).pc i = p := setPc_pc_self s i p
  have hret : ∀ o, (s.pc o).hasReturned = true → ((s.setPc i p).pc o).hasReturned = true :=
    (forall_setPc_iff (p := fun o q => (s.pc o).hasReturned = true → q.hasReturned = true)).2
      ⟨hm.returned, fun _ _ => id⟩
  refine ⟨?_, ?_, ?_, ?_, h.done⟩
  · exact (forall_setPc_iff (p := fun j q => ∀ old, q.inAdd = some old →
      s.mgrLock = some j ∧ s.ctlsByRunID (s.runID j) = old)).2 ⟨hm.add, fun j _ => h.add j⟩
  · have hretired : ∀ j o b, ((s.setPc i p).pc j).retired = some (o, b) →
        (s.pc o).hasReturned = true ∧ (s.ctl o).replaced = true ∧
          (b = false → (s.ctl o).started = false) :=
      (forall_setPc_iff (p := fun _ q => ∀ o b, q.retired = some (o, b) →
        (s.pc o).hasReturned = true ∧ (s.ctl o).replaced = true ∧
          (b = false → (s.ctl o).started = false))).2
        ⟨fun o b hob => (hm.retired o b hob).2, fun j _ => h.retired j⟩
    intro j o b hj
    obtain ⟨hr, hmark⟩ := hretired j o b hj
    exact ⟨hret o hr, hmark⟩
  · exact (forall_setPc_iff (p := fun j q => q.holds (s.ctl j).replaced = true →
      s.ctlsByRunID (s.runID j) = some j)).2 ⟨hm.holds, fun j _ => h.holds j⟩
  · intro c hc hw
    rcases h.live c hc hw with hl | ⟨j, hj, hjw⟩
    · exact .inl hl
    · by_cases hji : j = i
      · subst hji
        refine .inr ⟨j, hj, ?_⟩
        rw [hself]
        by_contra hne
        -- the waiter left, so the control it waited for is done, and a started one is finished
        rcases h.done c (hm.waited c hjw hne) with hf | ⟨hns, -⟩
        · exact hw hf
        · rw [show (s.ctl c).started = true from hc] at hns
          cases hns
      · exact .inr ⟨j, hj, by rw [hsame j hji]; exact hjw⟩

theorem frame (registry : Registry.ClientRegistry)
    (pxys : String → Option Nat) (clientCounts : Int) :
    HandoverInv { s with registry := registry, pxys := pxys, clientCounts := clientCounts } :=
  { h with }

theorem inAdd_eq_none (hl : s.mgrLock = none) (i : Nat) : (s.pc i).inAdd = none := by
  cases hi : (s.pc i).inAdd with
  | none => rfl
  | some old =>
    have hlock := (h.add i old hi).1
    rw [hl] at hlock
    cases hlock

theorem del (hl : s.mgrLock = none) (hp : (s.pc i).deleted = true)
    (hf : (s.ctl i).started = true → (s.ctl i).worker = .finished) : HandoverInv (s.del i) := by
  by_cases hcur : s.ctlsByRunID (s.runID i) = some i
  · have hmap : ∀ (r : String) (j : Nat), j ≠ i → s.ctlsByRunID r = some j →
        (s.del i).ctlsByRunID r = some j := by
      intro r j hji hr
      have hne : r ≠ s.runID i := by
        rintro rfl
        rw [hcur] at hr
        cases hr
        exact hji rfl
      simpa [State.del, hcur, update_of_ne hne] using hr
    refine ⟨?_, h.retired, ?_, ?_, h.done⟩
    · intro j old hj
      rw [show ((s.del i).pc j).inAdd = (s.pc j).inAdd from rfl, h.inAdd_eq_none hl j] at hj
      cases hj
    · intro j hj
      have hji : j ≠ i := by
        rintro rfl
        change (s.pc j).holds (s.ctl j).replaced = true at hj
        rw [LoginPc.holds_of_deleted _ hp] at hj
        cases hj
      exact hmap _ j hji (h.holds j hj)
    · intro c hc hw
      rcases h.live c hc hw with hl' | ⟨j, hj, hjw⟩
      · have hci : c ≠ i := by
          rintro rfl
          exact hw (hf hc)
        exact .inl (hmap _ c hci hl')
      · have hji : j ≠ i := by
          rintro rfl
          rw [hjw] at hp
          cases hp
        exact .inr ⟨j, hmap _ j hji hj, hjw⟩
  · have hsame : s.del i = s := by simp [State.del, hcur]
    rw [hsame]
    exact h

theorem store {old : Option Nat} (hp : s.pc i = .storing old) :
    HandoverInv (next s (.store i old)) := by
  obtain ⟨hlock, hentry⟩ := h.add i old (by rw [hp]; rfl)
  have hself : (next s (.store i old)).pc i = .afterStore old := update_self ..
  have hsame : ∀ j, j ≠ i → (next s (.store i old)).pc j = s.pc j :=
    fun j hj => update_of_ne hj ..
  have hmapSelf : (next s (.store i old)).ctlsByRunID (s.runID i) = some i :=
    update_self ..
  have hmapOther : ∀ r, r ≠ s.runID i → (next s (.store i old)).ctlsByRunID r = s.ctlsByRunID r :=
    fun r hr => update_of_ne hr ..
  have hretired : ∀ o, old = some o →
      (s.pc o).hasReturned = true ∧ (s.ctl o).replaced = true := by
    rintro o rfl
    obtain ⟨h1, h2, -⟩ := h.retired i o true (by rw [hp]; rfl)
    exact ⟨h1, h2⟩
  refine ⟨?_, ?_, ?_, ?_, h.done⟩
  · intro j o hj
    by_cases hji : j = i
    · subst hji
      rw [hself] at hj
      cases old <;> cases hj
    · rw [hsame j hji] at hj
      have hlock' := (h.add j o hj).1
      rw [hlock] at hlock'
      cases hlock'
      exact absurd rfl hji
  · intro j o b hj
    by_cases hji : j = i
    · subst hji
      rw [hself] at hj
      cases old <;> cases hj
    · rw [hsame j hji] at hj
      obtain ⟨h1, h2, h3⟩ := h.retired j o b hj
      have hoi : o ≠ i := by
        rintro rfl
        rw [hp] at h1
        cases h1
      rw [hsame o hoi]
      exact ⟨h1, h2, h3⟩
  · intro j hj
    by_cases hji : j = i
    · subst hji
      exact hmapSelf
    · rw [hsame j hji] at hj
      have hold := h.holds j hj
      by_cases hr : s.runID j = s.runID i
      · -- the entry that is overwritten is `j`, which has been replaced after it returned
        rw [hr, hentry] at hold
        obtain ⟨h1, h2⟩ := hretired j hold
        change (s.pc j).holds (s.ctl j).replaced = true at hj
        rw [h2] at hj
        rw [LoginPc.not_hasReturned_of_holds hj] at h1
        cases h1
      · exact (hmapOther _ hr).trans hold
  · intro c hc hw
    by_cases hr : s.runID c = s.runID i
    · rcases h.live c hc hw with hl | ⟨j, hj, hjw⟩
      · rw [hr, hentry] at hl
        subst hl
        refine .inr ⟨i, ?_, hself⟩
        exact (congrArg _ hr).trans hmapSelf
      · rw [hr, hentry] at hj
        have hjr := (hretired j hj).1
        rw [hjw] at hjr
        cases hjr
    · rcases h.live c hc hw with hl | ⟨j, hj, hjw⟩
      · exact .inl ((hmapOther _ hr).trans hl)
      · have hji : j ≠ i := by
          rintro rfl
          rw [hp] at hjw
          cases hjw
        exact .inr ⟨j, (hmapOther _ hr).trans hj, by rw [hsame j hji]; exact hjw⟩

theorem newLogin (ht : TeardownInv s) (a : Registry.RegisterArgs) :
    HandoverInv (next s (.login a)) := by
  have habs : s.pc s.next = .absent := ht.absent s.next (Nat.le_refl _)
  -- whoever has got further than `absent` is an older login, and unchanged
  have hold : ∀ j, s.pc j ≠ .absent → j ≠ s.next := by
    rintro j hj rfl
    exact hj habs
  have hpc : ∀ j, s.pc j ≠ .absent → (next s (.login a)).pc j = s.pc j :=
    fun j hj => update_of_ne (hold j hj) ..
  have hctl : ∀ j, s.pc j ≠ .absent → (next s (.login a)).ctl j = s.ctl j :=
    fun j hj => update_of_ne (hold j hj) ..
  refine ⟨?_, ?_, ?_, ?_, ?_⟩
  · exact (forall_login_iff (p := fun j q _ b => ∀ old, q.inAdd = some old →
      s.mgrLock = some j ∧ s.ctlsByRunID b.runID = old)).2 ⟨nofun, fun j _ => h.add j⟩
  · refine (forall_login_iff (p := fun _ q _ _ => ∀ o b, q.retired = some (o, b) →
      ((next s (.login a)).pc o).hasReturned = true ∧ ((next s (.login a)).ctl o).replaced = true ∧
        (b = false → ((next s (.login a)).ctl o).started = false))).2
      ⟨by rintro _ _ ⟨⟩, fun j _ o b hj => ?_⟩
    have hret := h.retired j o b hj
    have hon : s.pc o ≠ .absent := by
      intro ho
      rw [ho] at hret
      cases hret.1
    rw [hpc o hon, hctl o hon]
    exact hret
  · exact (forall_login_iff (p := fun j q k b => q.holds k.replaced = true →
      s.ctlsByRunID b.runID = some j)).2 ⟨nofun, fun j _ => h.holds j⟩
  · refine (forall_login_iff (p := fun c _ k b => k.started = true → k.worker ≠ .finished →
      s.ctlsByRunID b.runID = some c ∨
        ∃ i, s.ctlsByRunID b.runID = some i ∧ (next s (.login a)).pc i = .waiting c)).2
      ⟨nofun, fun c _ hc hw => ?_⟩
    rcases h.live c hc hw with hl | ⟨j, hj, hjw⟩
    · exact .inl hl
    · exact .inr ⟨j, hj, (hpc j (by rw [hjw]; rintro ⟨⟩)).trans hjw⟩
  · exact (forall_login_iff (p := fun _ _ k _ => k.done = true →
      k.worker = .finished ∨ k.started = false ∧ k.replaced = true)).2
      ⟨nofun, fun c _ => h.done c⟩

theorem start (hw : (s.ctl i).worker = .absent)
    (hnr : (s.ctl i).replaced = false) (hentry : s.ctlsByRunID (s.runID i) = some i) :
    HandoverInv (s.setCtl i (s.ctl i).start) := by
  have hstart : (s.ctl i).start =
      { s.ctl i with started := true, reader := .idle, worker := .serving } := by
    rw [Control.start, if_neg (by rw [hnr]; rintro ⟨⟩)]
  rw [hstart]
  refine ⟨h.add, ?_, ?_, ?_, ?_⟩
  · intro j o b hj
    obtain ⟨h1, h2, h3⟩ := h.retired j o b hj
    have hoi : o ≠ i := by
      rintro rfl
      rw [hnr] at h2
      cases h2
    rw [setCtl_ctl_of_ne s _ hoi]
    exact ⟨h1, h2, h3⟩
  · exact (forall_setCtl_iff (p := fun j k => (s.pc j).holds k.replaced = true →
      s.ctlsByRunID (s.runID j) = some j)).2 ⟨h.holds i, fun j _ => h.holds j⟩
  · exact (forall_setCtl_iff (p := fun c k => k.started = true → k.worker ≠ .finished →
      s.ctlsByRunID (s.runID c) = some c ∨
        ∃ i, s.ctlsByRunID (s.runID c) = some i ∧ s.pc i = .waiting c)).2
      ⟨fun _ _ => .inl hentry, fun c _ => h.live c⟩
  · refine (forall_setCtl_iff (p := fun _ k => k.done = true →
      k.worker = .finished ∨ k.started = false ∧ k.replaced = true)).2
      ⟨fun hd => ?_, fun c _ => h.done c⟩
    -- neither finished nor replaced, so `doneCh` was open
    rcases h.done i hd with hf | ⟨-, hr⟩
    · rw [hw] at hf
      cases hf
    · rw [hnr] at hr
      cases hr

end HandoverInv

end Updates

/-! ## Every step keeps the invariant -/

section Steps

variable {s : State} {i : Nat}

variable (h : HandoverInv s)

include h

namespace HandoverInv

theorem move {q : LoginPc} (hp : s.pc i = q)
    (hq : ∀ c, q ≠ .waiting c := by rintro _ ⟨⟩) (hadd : p.inAdd = none := by rfl)
    (hret : p.retired = none := by rfl)
    (hreturned : q.hasReturned = true → p.hasReturned = true := by exact fun _ => rfl)
    (hholds : p.holds (s.ctl i).replaced = true → q.holds (s.ctl i).replaced = true := by
      first | exact id | rintro ⟨⟩) : HandoverInv (s.setPc i p) := by
  subst hp
  refine h.setPc ⟨?_, ?_, hreturned, ?_, ?_⟩
  · intro old hold
    rw [hadd] at hold
    cases hold
  · intro o b hob
    rw [hret] at hob
    cases hob
  · exact fun hh => h.holds i (hholds hh)
  · exact fun c hc _ => absurd hc (hq c)

theorem serve (c : Nat) {k : Control} (hk : (k.started, k.replaced, k.done, k.worker) =
      ((s.ctl c).started, (s.ctl c).replaced, (s.ctl c).done, (s.ctl c).worker)) :
    HandoverInv (s.setCtl c k) := by
  obtain ⟨hs, hr, hd, hw⟩ : k.started = (s.ctl c).started ∧ k.replaced = (s.ctl c).replaced ∧
      k.done = (s.ctl c).done ∧ k.worker = (s.ctl c).worker := by
    simpa using hk
  refine h.setCtl c hs (fun h' => hr.trans h') (fun h' => hw.trans h') ?_
  rw [hs, hr, hd, hw]
  exact h.done c

theorem work {c : Nat} {k : Control} {w : WorkerPc} (hw : (s.ctl c).worker = w)
    (hd : k.done = true → k.worker = .finished ∨ (s.ctl c).done = true)
    (hw' : w ≠ .finished := by rintro ⟨⟩) (hs : k.started = (s.ctl c).started := by rfl)
    (hr : k.replaced = (s.ctl c).replaced := by rfl) : HandoverInv (s.setCtl c k) := by
  subst hw
  refine h.setCtl c hs (fun h' => hr.trans h') (fun h' => absurd h' hw') ?_
  intro hk
  rcases hd hk with hf | hdone
  · exact .inl hf
  · rcases h.done c hdone with hf | hns
    · exact absurd hf hw'
    · rw [hs, hr]
      exact .inr hns

theorem lockManager {old : Option Nat} (hp : s.pc i = .created)
    (hl : s.mgrLock = none) (hold : s.ctlsByRunID (s.runID i) = old) :
    HandoverInv ({ s with mgrLock := some i }.setPc i (.afterLock old)) := by
  have hlock : HandoverInv { s with mgrLock := some i } := by
    refine { h with add := ?_ }
    intro j o hj
    rw [show (s.pc j).inAdd = none from h.inAdd_eq_none hl j] at hj
    cases hj
  refine hlock.setPc ⟨?_, ?_, ?_, ?_, ?_⟩
  · intro o ho
    refine ⟨rfl, hold.trans ?_⟩
    cases old <;> cases ho <;> rfl
  · intro o b hob
    cases old <;> cases hob
  · exact fun hr => by rw [show s.pc i = .created from hp] at hr; cases hr
  · intro hh
    cases old <;> cases hh
  · exact fun c hc _ => by rw [show s.pc i = .waiting c from hc] at hp; cases hp

theorem inReplaced {o : Nat} {b b' : Bool}
    (hp : (s.pc i).retired = some (o, b)) (hlock : (s.pc i).inAdd = some (some o))
    (hp' : p.retired = some (o, b')) (hb : b' = false → b = false)
    (hlock' : p.inAdd = some (some o)) (hnot : p.holds (s.ctl i).replaced = false) :
    HandoverInv (s.setPc i p) := by
  obtain ⟨h1, h2, h3⟩ := h.retired i o b hp
  obtain ⟨hnret, hnwait⟩ := LoginPc.of_inAdd hlock
  refine h.setPc ⟨?_, ?_, ?_, ?_, ?_⟩
  · intro old hold
    rw [hlock'] at hold
    cases hold
    exact h.add i _ hlock
  · intro o' b'' hob
    rw [hp'] at hob
    cases hob
    refine ⟨?_, h1, h2, fun hf => h3 (hb hf)⟩
    rintro rfl
    rw [hnret] at h1
    cases h1
  · intro hr
    rw [hnret] at hr
    cases hr
  · intro hh
    rw [hnot] at hh
    cases hh
  · exact fun c hc _ => absurd hc (hnwait c)

theorem replaced {old : Nat} (hen : Enabled s (.replaced i old))
    (hok : RetiresReturned s (.replaced i old)) : HandoverInv (next s (.replaced i old)) := by
  have hpc : s.pc i = .replacing old := hen
  have hret : (s.pc old).hasReturned = true := hok
  have hne : old ≠ i := by
    rintro rfl
    rw [hpc] at hret
    cases hret
  obtain ⟨hlock, hentry⟩ := h.add i (some old) (by rw [hpc]; rfl)
  have hctl : HandoverInv (s.setCtl old (s.ctl old).retire) := by
    refine h.setCtl old rfl (fun _ => rfl) id fun hd => ?_
    rcases h.done old hd with hf | ⟨hs, -⟩
    · exact .inl hf
    · exact .inr ⟨hs, rfl⟩
  refine hctl.setPc ⟨?_, ?_, ?_, nofun, ?_⟩
  · rintro o ⟨⟩
    exact ⟨hlock, hentry⟩
  · rintro o b ⟨⟩
    rw [setCtl_ctl_self]
    exact ⟨hne, hret, rfl, id⟩
  · intro hr
    change (s.pc i).hasReturned = true at hr
    rw [hpc] at hr
    cases hr
  · exact fun c hc _ => by rw [show s.pc i = .waiting c from hc] at hpc; cases hpc

theorem closeOldDone {old : Nat} {started : Bool} (hen : Enabled s (.closeOldDone i old started)) :
    HandoverInv (next s (.closeOldDone i old started)) := by
  have hpc : s.pc i = .closingDone old started := hen
  obtain ⟨-, hrep, hns⟩ := h.retired i old started (by rw [hpc]; rfl)
  have hctl : HandoverInv
      (s.setCtl old { s.ctl old with done := (s.ctl old).done || !started }) := by
    refine h.setCtl old rfl id id fun hd => ?_
    simp only [Bool.or_eq_true, Bool.not_eq_true'] at hd
    rcases hd with hd | hd
    · exact h.done old hd
    · exact .inr ⟨hns hd, hrep⟩
  have hpc' : (s.setCtl old { s.ctl old with done := (s.ctl old).done || !started }).pc i =
      s.pc i := rfl
  exact hctl.inReplaced (by rw [hpc', hpc]; rfl) (by rw [hpc', hpc]; rfl) rfl nofun
    rfl rfl

theorem startControl (ht : TeardownInv s)
    (hen : Enabled s (.start i)) : HandoverInv (next s (.start i)) := by
  have hpc : s.pc i = .starting := hen
  have hmove : HandoverInv (s.setPc i .counting) := h.move hpc
  cases hr : (s.ctl i).replaced with
  | true =>
    have hsame : (s.ctl i).start = s.ctl i := by rw [Control.start, if_pos hr]
    refine hmove.serve i ?_
    rw [hsame]
    rfl
  | false =>
    obtain ⟨-, hw, -⟩ := (ht.ctl i).unstarted (ht.starting i (by rw [hpc]; rfl))
    refine hmove.start hw hr ?_
    exact h.holds i (by rw [hpc, hr]; rfl)

end HandoverInv

theorem handoverInv_next (ht : TeardownInv s) {a : Action}
    (hen : Enabled s a) (hok : RetiresReturned s a) : HandoverInv (next s a) := by
  cases a with
  | login a => exact h.newLogin ht a
  | lockManager i old => exact h.lockManager hen.1 hen.2.1 hen.2.2
  | replaced i old => exact h.replaced hen hok
  | closeOldConn i old started =>
    have hpc : s.pc i = .closingConn old started := hen
    have hctl : HandoverInv (s.setCtl old { s.ctl old with connClosed := true }) := h.serve old rfl
    have hpc' : (s.setCtl old { s.ctl old with connClosed := true }).pc i = s.pc i := rfl
    exact hctl.inReplaced (by rw [hpc', hpc]; rfl) (by rw [hpc', hpc]; rfl) rfl id rfl rfl
  | closeOldDone i old started => exact h.closeOldDone hen
  | store i old => exact h.store hen
  | wake i old =>
    obtain ⟨hpc, hdone⟩ := hen
    refine h.setPc ⟨nofun, by rintro _ _ ⟨⟩, by rw [hpc]; rintro ⟨⟩, ?_, ?_⟩
    · exact fun _ => h.holds i (by rw [hpc]; rfl)
    · intro c hc _
      rw [hpc] at hc
      cases hc
      exact hdone
  | register i now =>
    have hpc : s.pc i = .registering := hen
    have hreg := h.frame (s.registry.register now (s.login i)).1 s.pxys s.clientCounts
    refine hreg.move hpc nofun ?_ ?_ nofun (fun _ => rfl)
    · cases (s.registry.register now (s.login i)).2.2 <;> rfl
    · cases (s.registry.register now (s.login i)).2.2 <;> rfl
  | conflictDel i =>
    obtain ⟨hpc, hl⟩ := hen
    have hmove : HandoverInv (s.setPc i .failed) := h.move hpc
    refine (hmove.serve (k := { s.ctl i with connClosed := true }) i rfl).del hl ?_ ?_
    · rw [show ((s.setPc i .failed).setCtl i _).pc i = .failed from setPc_pc_self s i _]
      rfl
    · intro hs
      rw [setCtl_ctl_self, ht.starting i (by rw [hpc]; rfl)] at hs
      cases hs
  | writeResp i ok =>
    cases ok with
    | true | false => exact h.move hen.1
  | undoDel i =>
    obtain ⟨hpc, hl⟩ := hen
    have hmove : HandoverInv (s.setPc i .undoMark) := h.move hpc
    refine hmove.del hl (by rw [setPc_pc_self]; rfl) ?_
    intro hs
    rw [show ((s.setPc i .undoMark).ctl i).started = false from
      ht.starting i (by rw [hpc]; rfl)] at hs
    cases hs
  | undoMark i now =>
    have hmark := h.frame (s.registry.markOfflineByRunID now (s.runID i)) s.pxys s.clientCounts
    have hmove := hmark.move (p := .failed) hen
    exact hmove.serve i rfl
  | start i => exact h.startControl ht hen
  | newClient i =>
    have hcount := h.frame s.registry s.pxys (s.clientCounts + 1)
    exact hcount.move hen
  | reap i =>
    obtain ⟨hpc, hdone, hl⟩ := hen
    have hmove : HandoverInv (s.setPc i .ended) := h.move hpc
    refine hmove.del hl (by rw [setPc_pc_self]; rfl) fun hs => ?_
    rcases h.done i hdone with hf | ⟨hns, -⟩
    · exact hf
    · rw [show (s.ctl i).started = true from hs] at hns
      cases hns
  | connLost c | runProxy c | storeProxy c | closeProxy c | readError c => exact h.serve c rfl
  | addProxy c name =>
    by_cases hfree : s.pxys name = none
    · rw [next, if_pos hfree]
      exact (h.frame s.registry (update s.pxys name (some c)) s.clientCounts).serve c rfl
    · rw [next, if_neg hfree]
      exact h.serve c rfl
  | finishClose c name =>
    exact (h.frame s.registry (update s.pxys name none) s.clientCounts).serve c rfl
  | workerWake c => exact h.work hen.1 .inr
  | workerClose c rest name =>
    have hpxy := h.frame s.registry (update s.pxys name none) s.clientCounts
    exact hpxy.work hen.1 .inr
  | closeClient c =>
    have hcount := h.frame s.registry s.pxys (s.clientCounts - 1)
    exact hcount.work hen .inr
  | takeProxies | readRunID => exact h.work hen .inr
  | markOffline c runID now =>
    have hmark := h.frame (s.registry.markOfflineByRunID now runID) s.pxys s.clientCounts
    exact hmark.work hen .inr
  | closeDone c => exact h.work hen fun _ => .inl rfl

end Steps

theorem handoverInv_of_reach {s : State} (h : Reach step RetiresReturned init s) :
    HandoverInv s ∧ TeardownInv s := by
  refine invariant_of_next (P := fun s => HandoverInv s ∧ TeardownInv s)
    ⟨handoverInv_init, teardownInv_init⟩ ?_ h
  rintro u a ⟨hinv, ht⟩ hok hen
  exact ⟨handoverInv_next hinv ht hen hok, teardownInv_next ht hen⟩

/-! ## RegisterControl and teardown -/

/-- If `RegisterControl` returns now, every other control started under the run id is torn down. -/
def ReturnsAfterTeardown (s : State) : Prop :=
  ∀ (t : State) (i now : Nat), step s (.register i now) = some t → t.pc i = .returned →
    ∀ c, c ≠ i → t.runID c = t.runID i → (t.ctl c).started = true → TornDown t c

/-- If a control is replaced only after its `RegisterControl` has returned, a handover waits for
everything that was started before. -/
theorem registerControl_returns_after_teardown (s : State)
    (hreach : Reach step RetiresReturned init s) : ReturnsAfterTeardown s := by
  intro t i now hstep _ c hci hrun hstarted
  obtain ⟨hinv, ht⟩ := handoverInv_of_reach hreach
  obtain ⟨hen, rfl⟩ := stepOf_eq_some_iff.1 hstep
  have hpc : s.pc i = .registering := hen
  have hentry : s.ctlsByRunID (s.runID c) = some i := by
    rw [show s.runID c = s.runID i from hrun]
    exact hinv.holds i (by rw [hpc]; rfl)
  have hfinished : (s.ctl c).worker = .finished := by
    by_contra hw
    -- unfinished, `c` is the entry or the entry waits for it; the entry is `i`, which is past that
    rcases hinv.live c hstarted hw with hc | ⟨j, hj, hwait⟩
    · rw [hentry] at hc
      cases hc
      exact hci rfl
    · rw [hentry] at hj
      cases hj
      rw [hpc] at hwait
      cases hwait
  exact (teardownInv_next ht hen).tornDown hfinished

def loginArgs : Registry.RegisterArgs where
  user := ""
  rawClientID := "c1"
  runID := "r"
  hostname := "host"
  version := "0.66.0"
  remoteAddr := "192.0.2.1"
  wireProtocol := "v1"

def startRun (i : Nat) : List Action :=
  [.login loginArgs, .lockManager i none, .store i none, .register i 0, .writeResp i true, .start i,
    .newClient i]

def replaceRun (i old : Nat) (started : Bool) : List Action :=
  [.login loginArgs, .lockManager i (some old), .replaced i old, .closeOldConn i old started,
    .closeOldDone i old started, .store i (some old)]

def handoverRun : List Action :=
  startRun 0 ++ [.runProxy 0 "p", .addProxy 0 "p", .storeProxy 0 "p"] ++ replaceRun 1 0 true ++
    [.readError 0, .workerWake 0, .takeProxies 0, .workerClose 0 ["p"] "p", .closeClient 0,
      .readRunID 0, .markOffline 0 "" 1, .closeDone 0, .wake 1 0]

theorem registerControl_returns_after_teardown_handoverRun :
    let s := (run step RetiresReturned init handoverRun).getD init
    (s.ctl 0).started = true ∧ (next s (.register 1 2)).pc 1 = .returned ∧
      TornDown (next s (.register 1 2)) 0 := by
  intro s
  have hpc : (next s (.register 1 2)).pc 1 = .returned := by decide +kernel
  have hstarted : (s.ctl 0).started = true := by decide +kernel
  refine ⟨hstarted, hpc, ?_⟩
  exact registerControl_returns_after_teardown s (reach_getD_of_isSome (by decide +kernel)) _ 1 2
    (stepOf_eq_some_iff.2 ⟨by decide +kernel, rfl⟩) hpc 0 (by decide) (by decide +kernel) hstarted

def chainRun : List Action :=
  startRun 0 ++ replaceRun 1 0 true ++ replaceRun 2 1 false ++ [.wake 2 1]

def chainState : State := (run step anyAction init chainRun).getD init

/-- Without the guard `RegisterControl` returns to login 2 while control 0 still serves. -/
theorem chain_returns_early :
    Reach step anyAction init chainState ∧ ¬ ReturnsAfterTeardown chainState := by
  refine ⟨reach_getD_of_isSome (by decide +kernel), fun h => ?_⟩
  have htorn := h _ 2 0 (stepOf_eq_some_iff.2 ⟨by decide +kernel, rfl⟩) (by decide +kernel) 0
    (by decide) (by decide +kernel) (by decide +kernel)
  exact absurd htorn.worker (by decide +kernel)

end FrpMeo.Server.Session
