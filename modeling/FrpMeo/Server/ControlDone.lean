import FrpMeo.Lib.Transition
import Mathlib.Tactic

/-!
# The done channel of a control

Who closes `doneCh` of a control (`server/control.go`): `worker` when it ends, or `Replaced` for a
control that was replaced before `Start`. Any number of calls of both may be under way; the `i`-th
`Start` brings up the worker `i`.
-/

namespace FrpMeo.Server.ControlDone

open Lib.Transition Function

/-! ## The calls on one control -/

inductive StartPc where
  | absent
  /-- `started` is set and the lock released; `go ctl.worker()` is next. -/
  | launching
  | returned
  deriving DecidableEq

/-- Where a call of `Replaced` stands; `started` is what it read under the lock. -/
inductive ReplacedPc where
  | absent
  /-- The control is marked; its connection is closed next. -/
  | marked (started : Bool)
  /-- The connection is closed; `closeDone` is next, if it is due. -/
  | connClosed (started : Bool)
  | returned
  deriving DecidableEq

inductive WorkerPc where
  | absent
  /-- Waiting for the dispatcher to be done. -/
  | serving
  /-- Closing work connections and proxies. -/
  | unwinding
  /-- `closeDone` is next. -/
  | closingDone
  | finished
  deriving DecidableEq

/-- The control, and the calls on it. `closes` counts how often `close(ctl.doneCh)` has run. -/
structure State where
  runID : String
  started : Bool
  replaced : Bool
  connClosed : Bool
  doneOnce : Bool
  closes : Nat
  starter : Nat → StartPc
  replacer : Nat → ReplacedPc
  worker : Nat → WorkerPc

def newControl (runID : String) : State where
  runID := runID
  started := false
  replaced := false
  connClosed := false
  doneOnce := false
  closes := 0
  starter := fun _ => .absent
  replacer := fun _ => .absent
  worker := fun _ => .absent

def State.closeDone (s : State) : State :=
  if s.doneOnce then s else { s with doneOnce := true, closes := s.closes + 1 }

def State.setStarter (s : State) (i : Nat) (p : StartPc) : State :=
  { s with starter := update s.starter i p }

def State.setReplacer (s : State) (j : Nat) (p : ReplacedPc) : State :=
  { s with replacer := update s.replacer j p }

def State.setWorker (s : State) (i : Nat) (p : WorkerPc) : State :=
  { s with worker := update s.worker i p }

inductive Action where
  /-- The critical section of the `i`-th `Start`. -/
  | start (i : Nat)
  | launch (i : Nat)
  /-- The critical section of the `j`-th `Replaced`. -/
  | replace (j : Nat)
  | closeConn (j : Nat) (started : Bool)
  /-- The `j`-th `Replaced` closes the channel, if that is due, and returns. -/
  | finishReplaced (j : Nat) (started : Bool)
  | dispatcherDone (i : Nat)
  | unwind (i : Nat)
  | exit (i : Nat)
  deriving DecidableEq

def Enabled (s : State) : Action → Prop
  | .start i => s.starter i = .absent
  | .launch i => s.starter i = .launching
  | .replace j => s.replacer j = .absent
  | .closeConn j started => s.replacer j = .marked started
  | .finishReplaced j started => s.replacer j = .connClosed started
  | .dispatcherDone i => s.worker i = .serving
  | .unwind i => s.worker i = .unwinding
  | .exit i => s.worker i = .closingDone

instance (s : State) (a : Action) : Decidable (Enabled s a) := by
  cases a <;> unfold Enabled <;> infer_instance

def next (s : State) : Action → State
  | .start i =>
      -- a control that was handed over stays down
      if s.replaced then s.setStarter i .returned
      else { s with started := true }.setStarter i .launching
  | .launch i => (s.setStarter i .returned).setWorker i .serving
  | .replace j => { s with runID := "", replaced := true }.setReplacer j (.marked s.started)
  | .closeConn j started => { s with connClosed := true }.setReplacer j (.connClosed started)
  | .finishReplaced j started =>
      if started then s.setReplacer j .returned else s.closeDone.setReplacer j .returned
  | .dispatcherDone i => { s with connClosed := true }.setWorker i .unwinding
  | .unwind i => s.setWorker i .closingDone
  | .exit i => s.closeDone.setWorker i .finished

def step : State → Action → Option State := stepOf Enabled next

/-! ## Who has the duty -/

def WorkerPc.Running (p : WorkerPc) : Prop := p = .serving ∨ p = .unwinding ∨ p = .closingDone

def ReplacedPc.Owes (p : ReplacedPc) : Prop := p = .marked false ∨ p = .connClosed false

def State.WorkerDue (s : State) : Prop :=
  (∃ i, s.starter i = .launching) ∨ ∃ i, (s.worker i).Running

/-- What a call read of `started` stays true: no `Start` gets past the mark. -/
def ReplacedPc.Fits (replaced started doneOnce : Bool) : ReplacedPc → Prop
  | .absent => True
  | .marked read => replaced = true ∧ started = read
  | .connClosed read => replaced = true ∧ started = read
  | .returned => replaced = true ∧ (started = true ∨ doneOnce = true)

/-- Whoever has the duty to close the channel, of the worker and the calls of `Replaced`. -/
structure Inv (s : State) : Prop where
  once : s.closes = if s.doneOnce then 1 else 0
  down : s.started = false → ∀ i, s.starter i ≠ .launching ∧ s.worker i = .absent
  due : s.started = true → s.doneOnce = true ∨ s.WorkerDue
  calls : ∀ j, (s.replacer j).Fits s.replaced s.started s.doneOnce
  marked : s.replaced = true →
    s.started = true ∨ s.doneOnce = true ∨ ∃ j, (s.replacer j).Owes

theorem inv_newControl {runID : String} : Inv (newControl runID) where
  once := rfl
  down := fun _ _ => ⟨by simp [newControl], rfl⟩
  due := by simp [newControl]
  calls := fun _ => trivial
  marked := by simp [newControl]

section Updates

variable (s : State)

theorem setStarter_starter_self (i : Nat) (p : StartPc) : (s.setStarter i p).starter i = p :=
  update_self ..

theorem setStarter_starter_of_ne {i k : Nat} {p : StartPc} (h : k ≠ i) :
    (s.setStarter i p).starter k = s.starter k :=
  update_of_ne h ..

theorem setReplacer_replacer_self {j : Nat} {p : ReplacedPc} : (s.setReplacer j p).replacer j = p :=
  update_self ..

theorem setReplacer_replacer_of_ne {j k : Nat} {p : ReplacedPc} (h : k ≠ j) :
    (s.setReplacer j p).replacer k = s.replacer k :=
  update_of_ne h ..

theorem forall_setReplacer_iff {j : Nat} {q : ReplacedPc} {p : ReplacedPc → Prop} :
    (∀ k, p ((s.setReplacer j q).replacer k)) ↔ p q ∧ ∀ k, k ≠ j → p (s.replacer k) :=
  forall_update_iff _ fun _ q => p q

theorem workerDue_setWorker (i : Nat) {p : WorkerPc} (hp : p.Running) :
    (s.setWorker i p).WorkerDue := by
  have hi : (s.setWorker i p).worker i = p := update_self ..
  exact .inr ⟨i, by rw [hi]; exact hp⟩

theorem closeDone_doneOnce : s.closeDone.doneOnce = true := by
  cases h : s.doneOnce <;> simp [State.closeDone, h]

theorem closeDone_started : s.closeDone.started = s.started := by
  cases h : s.doneOnce <;> simp [State.closeDone, h]

theorem closeDone_replaced : s.closeDone.replaced = s.replaced := by
  cases h : s.doneOnce <;> simp [State.closeDone, h]

theorem closeDone_calls : s.closeDone.starter = s.starter ∧ s.closeDone.replacer = s.replacer ∧
    s.closeDone.worker = s.worker := by
  cases h : s.doneOnce <;> simp [State.closeDone, h]

theorem closeDone_once {s : State} (h : s.closes = if s.doneOnce then 1 else 0) :
    s.closeDone.closes = 1 := by
  cases hd : s.doneOnce <;> simp [State.closeDone, hd, h]

end Updates

variable {p : ReplacedPc} {replaced started doneOnce : Bool}

theorem ReplacedPc.Fits.mono (h : p.Fits replaced started doneOnce) {doneOnce' : Bool}
    (hd : doneOnce = true → doneOnce' = true) : p.Fits replaced started doneOnce' := by
  cases p with
  | absent => trivial
  | marked | connClosed => exact h
  | returned => exact ⟨h.1, h.2.imp_right hd⟩

theorem ReplacedPc.Fits.of_not_replaced
    (h : p.Fits replaced started doneOnce) (hr : ¬ replaced = true) {started' : Bool} :
    p.Fits replaced started' doneOnce := by
  cases p with
  | absent => trivial
  | marked | connClosed | returned => exact absurd h.1 hr

/-! ## The steps keep the invariant -/

section Steps

variable {s : State} (h : Inv s)

include h

variable {i : Nat}

theorem inv_start (hi : s.starter i = .absent) : Inv (next s (.start i)) := by
  rw [next]
  by_cases hr : s.replaced = true
  · rw [if_pos hr]
    refine ⟨h.once, ?_, ?_, h.calls, h.marked⟩
    · intro hdown k
      refine ⟨?_, (h.down hdown k).2⟩
      by_cases hk : k = i
      · rw [hk, setStarter_starter_self]
        simp
      · rw [setStarter_starter_of_ne _ hk]
        exact (h.down hdown k).1
    · intro hup
      rcases h.due hup with hd | ⟨k, hk⟩ | hw
      · exact .inl hd
      · -- another call of `Start` is bringing up its worker
        have hne : k ≠ i := by
          intro hki
          rw [hki, hi] at hk
          cases hk
        exact .inr (.inl ⟨k, (setStarter_starter_of_ne _ hne).trans hk⟩)
      · exact .inr (.inr hw)
  · rw [if_neg hr]
    refine ⟨h.once, ?_, ?_, ?_, fun _ => .inl rfl⟩
    · intro hdown
      cases hdown
    · intro _
      exact .inr (.inl ⟨i, setStarter_starter_self ..⟩)
    · intro j
      exact (h.calls j).of_not_replaced hr

theorem inv_launch (hi : s.starter i = .launching) : Inv (next s (.launch i)) := by
  have hup : s.started = true := by
    by_contra hdown
    exact (h.down (by simpa using hdown) i).1 hi
  refine ⟨h.once, ?_, ?_, h.calls, h.marked⟩
  · intro hdown
    exact absurd (hup.symm.trans hdown) (by simp)
  · intro _
    exact .inr (workerDue_setWorker (s.setStarter i .returned) i (.inl rfl))

theorem inv_replace (j : Nat) : Inv (next s (.replace j)) := by
  refine ⟨h.once, h.down, h.due, ?_, ?_⟩
  · refine (forall_setReplacer_iff _).2 ⟨⟨rfl, rfl⟩, ?_⟩
    -- the other calls are where they were, and the mark is there now
    intro k _
    have hk := h.calls k
    cases hp : s.replacer k with
    | absent => trivial
    | marked | connClosed | returned => exact ⟨rfl, (hp ▸ hk).2⟩
  · intro _
    cases hup : s.started with
    | true => exact .inl hup
    | false =>
      refine .inr (.inr ⟨j, .inl ?_⟩)
      exact (setReplacer_replacer_self _).trans (by rw [hup])

variable {j : Nat}

theorem inv_closeConn (hj : s.replacer j = .marked started) :
    Inv (next s (.closeConn j started)) := by
  have hfits := h.calls j
  rw [hj] at hfits
  refine ⟨h.once, h.down, h.due, (forall_setReplacer_iff _).2 ⟨hfits, fun k _ => h.calls k⟩, ?_⟩
  intro hr
  rcases h.marked hr with hup | hd | ⟨k, hk⟩
  · exact .inl hup
  · exact .inr (.inl hd)
  · refine .inr (.inr ⟨k, ?_⟩)
    by_cases hkj : k = j
    · -- the call that moves keeps the duty it has
      rw [hkj, hj] at hk
      have hread : started = false := by simpa [ReplacedPc.Owes] using hk
      right
      rw [hkj, hread]
      exact setReplacer_replacer_self _
    · rw [next, setReplacer_replacer_of_ne _ hkj]
      exact hk

theorem inv_closeDone : Inv s.closeDone := by
  obtain ⟨hstarter, hreplacer, hworker⟩ := closeDone_calls s
  have hdone := closeDone_doneOnce s
  refine ⟨?_, ?_, fun _ => .inl hdone, ?_, fun _ => .inr (.inl hdone)⟩
  · rw [closeDone_once h.once, hdone]
    rfl
  · rw [closeDone_started, hstarter, hworker]
    exact h.down
  · intro k
    rw [closeDone_replaced, closeDone_started, hreplacer]
    exact (h.calls k).mono fun _ => hdone

theorem inv_finishReplaced (hj : s.replacer j = .connClosed started) :
    Inv (next s (.finishReplaced j started)) := by
  have hfits := h.calls j
  rw [hj] at hfits
  cases started with
  | true =>
    exact ⟨h.once, h.down, h.due,
      (forall_setReplacer_iff _).2 ⟨⟨hfits.1, .inl hfits.2⟩, fun k _ => h.calls k⟩,
      fun _ => .inl hfits.2⟩
  | false =>
    have hc := inv_closeDone h
    have hdone := closeDone_doneOnce s
    exact ⟨hc.once, hc.down, hc.due,
      (forall_setReplacer_iff _).2
        ⟨⟨(closeDone_replaced s).trans hfits.1, .inr hdone⟩, fun k _ => hc.calls k⟩,
      fun _ => .inr (.inl hdone)⟩

theorem inv_setWorker (hi : s.worker i ≠ .absent) {p : WorkerPc} (hp : p.Running) :
    Inv (s.setWorker i p) := by
  refine ⟨h.once, ?_, fun _ => .inr (workerDue_setWorker s i hp), h.calls, h.marked⟩
  intro hdown
  exact absurd (h.down hdown i).2 hi

theorem inv_exit (hi : s.worker i = .closingDone) : Inv (next s (.exit i)) := by
  have hc := inv_closeDone h
  refine ⟨hc.once, ?_, fun _ => .inl (closeDone_doneOnce s), hc.calls, hc.marked⟩
  intro hdown
  have hdown' : s.started = false := (closeDone_started s).symm.trans hdown
  exact absurd ((h.down hdown' i).2.symm.trans hi) (by simp)

theorem inv_step {a : Action} {t : State} (hstep : step s a = some t) : Inv t := by
  obtain ⟨henabled, rfl⟩ := stepOf_eq_some_iff.1 hstep
  cases a with
  | start i => exact inv_start h henabled
  | launch i => exact inv_launch h henabled
  | replace j => exact inv_replace h j
  | closeConn j started => exact inv_closeConn h henabled
  | finishReplaced j started => exact inv_finishReplaced h henabled
  | dispatcherDone i =>
    have hi : s.worker i = .serving := henabled
    have hmoved := inv_setWorker h (by rw [hi]; simp) (.inr (.inl rfl))
    exact { hmoved with }
  | unwind i =>
    have hi : s.worker i = .unwinding := henabled
    exact inv_setWorker h (by rw [hi]; simp) (.inr (.inr rfl))
  | exit i => exact inv_exit h henabled

end Steps

variable {s : State}

theorem inv_of_reach {runID : String} (h : Reach step anyAction (newControl runID) s) : Inv s :=
  invariant_of_reach (inv_newControl) (fun _ _ _ hi _ hstep => inv_step hi hstep) h

/-! ## Replaced before it started -/

variable {t : State}

theorem down_step {a : Action} (hr : s.replaced = true) (hdown : s.started = false)
    (hstep : step s a = some t) : t.replaced = true ∧ t.started = false := by
  obtain ⟨-, rfl⟩ := stepOf_eq_some_iff.1 hstep
  cases a with
  | start i =>
    rw [next, if_pos hr]
    exact ⟨hr, hdown⟩
  | replace j => exact ⟨rfl, hdown⟩
  | finishReplaced j started =>
    cases started with
    | true => exact ⟨hr, hdown⟩
    | false => exact ⟨(closeDone_replaced s).trans hr, (closeDone_started s).trans hdown⟩
  | launch | closeConn | dispatcherDone | unwind => exact ⟨hr, hdown⟩
  | exit i => exact ⟨(closeDone_replaced s).trans hr, (closeDone_started s).trans hdown⟩

theorem down_of_reach (hr : s.replaced = true) (hdown : s.started = false)
    (h : Reach step anyAction s t) : t.replaced = true ∧ t.started = false :=
  invariant_of_reach (P := fun u => u.replaced = true ∧ u.started = false) ⟨hr, hdown⟩
    (fun _ _ _ hu _ hstep => down_step hu.1 hu.2 hstep) h

theorem Inv.closes_eq_one (h : Inv s) (hd : s.doneOnce = true) : s.closes = 1 := by
  rw [h.once, hd]
  rfl

/-- The channel is closed at most once; a control replaced before it started has no worker and its
channel is closed when `Replaced` returns; else a worker runs or is about to; some party always has
the duty. -/
theorem done_never_left {runID : String} {s : State}
    (h : Reach step anyAction (newControl runID) s) : s.closes ≤ 1 ∧
      (s.replaced = true → s.started = false → ∀ t, Reach step anyAction s t →
        (∀ i, t.worker i = .absent) ∧ (∀ j, t.replacer j = .returned → t.closes = 1)) ∧
      (∀ j, s.replacer j = .returned → (∀ i, s.starter i ≠ .launching) →
        (∀ i, ¬ (s.worker i).Running) → s.closes = 1) ∧
      (s.replaced = true → s.closes = 1 ∨ s.WorkerDue ∨ ∃ j, (s.replacer j).Owes) := by
  have hinv := inv_of_reach h
  refine ⟨?_, ?_, ?_, ?_⟩
  · rw [hinv.once]
    split_ifs <;> omega
  · intro hr hdown t ht
    have hinv' : Inv t := inv_of_reach (h.trans ht)
    have hdown' := (down_of_reach hr hdown ht).2
    refine ⟨fun i => (hinv'.down hdown' i).2, ?_⟩
    intro j hj
    have hfits := hinv'.calls j
    rw [hj] at hfits
    rcases hfits.2 with hup | hd
    · exact absurd (hup.symm.trans hdown') (by simp)
    · exact hinv'.closes_eq_one hd
  · intro j hj hlaunch hworker
    have hfits := hinv.calls j
    rw [hj] at hfits
    rcases hfits.2 with hup | hd
    · rcases hinv.due hup with hd | ⟨i, hi⟩ | ⟨i, hi⟩
      · exact hinv.closes_eq_one hd
      · exact absurd hi (hlaunch i)
      · exact absurd hi (hworker i)
    · exact hinv.closes_eq_one hd
  · intro hr
    rcases hinv.marked hr with hup | hd | howes
    · rcases hinv.due hup with hd | hdue
      · exact .inl (hinv.closes_eq_one hd)
      · exact .inr (.inl hdue)
    · exact .inl (hinv.closes_eq_one hd)
    · exact .inr (.inr howes)

def replacedWhileStarting : List Action :=
  [.start 0, .replace 0, .closeConn 0 true, .finishReplaced 0 true, .launch 0, .dispatcherDone 0,
    .replace 1, .closeConn 1 true, .unwind 0, .exit 0, .finishReplaced 1 true]

def afterReplacedWhileStarting : State :=
  (run step anyAction (newControl "run-1") replacedWhileStarting).getD (newControl "run-1")

/-- The worker closes the channel then, and it is closed once. -/
theorem done_never_left_starting :
    afterReplacedWhileStarting.replacer 1 = .returned ∧ afterReplacedWhileStarting.closes = 1 ∧
      afterReplacedWhileStarting.closes ≤ 1 := by
  have hreach : Reach step anyAction (newControl "run-1") afterReplacedWhileStarting :=
    reach_getD_of_isSome (by decide)
  have hclaims := done_never_left hreach
  exact ⟨by decide, by decide, hclaims.1⟩

end FrpMeo.Server.ControlDone
