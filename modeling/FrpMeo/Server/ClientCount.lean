import FrpMeo.Lib.Tally
import FrpMeo.Server.Handover

/-!
# The counter of clients

The login calls `NewClient` after `Start`, and the worker `CloseClient` when it ends
(`server/service.go`, `server/control.go`, `pkg/metrics/mem/server.go`). The runs are those of
`Session`. The login also counts a control that has been replaced before `Start`, and no worker
takes that back.
-/

namespace FrpMeo.Server.Session

open Lib Lib.Transition Function

def LoginPc.counted : LoginPc → Bool
  | .watching | .ended => true
  | _ => false

def WorkerPc.discounted : WorkerPc → Bool
  | .readingRunID | .marking _ | .closingDone | .finished => true
  | _ => false

def State.share (s : State) (i : Nat) : Int :=
  (s.pc i).counted.toInt - (s.ctl i).worker.discounted.toInt

/-- No login, replacement or teardown is under way. -/
structure AtRest (s : State) : Prop where
  login : ∀ i, s.pc i = .absent ∨ s.pc i = .watching ∨ s.pc i = .ended ∨ s.pc i = .failed
  worker : ∀ c, (s.ctl c).worker = .absent ∨ (s.ctl c).worker = .serving ∨
    (s.ctl c).worker = .finished

def State.live (s : State) : Finset Nat :=
  (Finset.range s.next).filter fun c => (s.ctl c).worker ≠ .absent ∧ (s.ctl c).worker ≠ .finished

def State.idle (s : State) : Finset Nat :=
  (Finset.range s.next).filter fun c => (s.pc c).counted ∧ (s.ctl c).worker = .absent

/-! ## Shares -/

section Share

variable {s : State} {i : Nat}

theorem share_setPc {p : LoginPc} (h : p.counted = (s.pc i).counted) :
    (s.setPc i p).share = s.share := by
  funext j
  by_cases hj : j = i
  · subst hj
    simp only [State.share, setPc_pc_self, h]
    rfl
  · simp only [State.share, setPc_pc_of_ne s p hj]
    rfl

variable {k : Control} {c : Nat}

theorem share_setCtl (h : k.worker.discounted = (s.ctl c).worker.discounted) :
    (s.setCtl c k).share = s.share := by
  funext d
  by_cases hd : d = c
  · subst hd
    simp only [State.share, setCtl_ctl_self, h]
    rfl
  · simp only [State.share, setCtl_ctl_of_ne s k hd]
    rfl

def Counted (s : State) : Prop := s.clientCounts = ∑ i ∈ Finset.range s.next, s.share i

theorem Counted.move (h : Counted s) {p q : LoginPc} (hpc : s.pc i = q)
    (hp : p.counted = q.counted := by rfl) : Counted (s.setPc i p) := by
  unfold Counted
  rw [share_setPc (by rw [hp, hpc])]
  exact h

theorem Counted.serve (h : Counted s) (c : Nat)
    (hk : k.worker.discounted = (s.ctl c).worker.discounted := by rfl) :
    Counted (s.setCtl c k) := by
  unfold Counted
  rw [share_setCtl hk]
  exact h

theorem Counted.work (h : Counted s) {w : WorkerPc} (hw : (s.ctl c).worker = w)
    (hk : k.worker.discounted = w.discounted := by rfl) : Counted (s.setCtl c k) :=
  h.serve c (by rw [hk, hw])

theorem Counted.of_change {t : State} (h : Counted s) (hi : i < s.next)
    (hnext : t.next = s.next) (hshare : ∀ j, j ≠ i → t.share j = s.share j)
    (hcounts : t.clientCounts = s.clientCounts + (t.share i - s.share i)) : Counted t := by
  unfold Counted
  rw [hcounts, hnext, h, sum_change (Finset.mem_range.2 hi) fun j _ hj => hshare j hj]

end Share

/-! ## Steps -/

section Steps

variable {s : State} {i : Nat}

theorem TeardownInv.lt_next (h : TeardownInv s) (hi : s.pc i ≠ .absent) : i < s.next := by
  by_contra hge
  exact hi (h.absent i (Nat.le_of_not_lt hge))

variable {c : Nat}

theorem TeardownInv.lt_next_of_started (h : TeardownInv s)
    (hc : (s.ctl c).started = true) : c < s.next := by
  apply h.lt_next
  intro habs
  have hafter := h.afterStart hc
  rw [habs] at hafter
  cases hafter

theorem Counted.newLogin (h : Counted s) (a : Registry.RegisterArgs) :
    Counted (next s (.login a)) := by
  have hold : ∀ j ∈ Finset.range s.next, (next s (.login a)).share j = s.share j := by
    intro j hj
    have hne : j ≠ s.next := (Finset.mem_range.1 hj).ne
    simp only [State.share, next, update_of_ne hne]
  have hnew : (next s (.login a)).share s.next = 0 := by
    simp only [State.share, next, update_self]
    rfl
  have hsum : ∑ i ∈ Finset.range (s.next + 1), (next s (.login a)).share i =
      ∑ i ∈ Finset.range s.next, s.share i := by
    rw [Finset.sum_range_succ, hnew, add_zero, Finset.sum_congr rfl hold]
  exact h.trans hsum.symm

theorem Counted.newClient (h : Counted s) (ht : TeardownInv s)
    (hpc : s.pc i = .counting) : Counted (next s (.newClient i)) := by
  refine h.of_change (ht.lt_next (by rw [hpc]; rintro ⟨⟩)) rfl ?_ ?_
  · intro j hj
    simp only [State.share, next, State.setPc, update_of_ne hj]
  · simp [State.share, next, State.setPc, hpc, LoginPc.counted]

theorem Counted.closeClient (h : Counted s) (ht : TeardownInv s)
    (hw : (s.ctl c).worker = .closingProxies []) : Counted (next s (.closeClient c)) := by
  have hstarted := (ht.ctl c).started_of_worker (by rw [hw]; rintro ⟨⟩)
  refine h.of_change (ht.lt_next_of_started hstarted) rfl ?_ ?_
  · intro d hd
    simp only [State.share, next, State.setCtl, update_of_ne hd]
  · simp only [State.share, next, State.setCtl, update_self, hw, WorkerPc.discounted,
      Bool.toInt_true, Bool.toInt_false]
    omega

theorem counted_next (h : Counted s) (ht : TeardownInv s) {a : Action} (hen : Enabled s a) :
    Counted (next s a) := by
  cases a with
  | login a => exact h.newLogin a
  | newClient i => exact h.newClient ht hen
  | closeClient c => exact h.closeClient ht hen
  | lockManager i old =>
    have hlock : Counted { s with mgrLock := some i } := h
    cases old with
    | none | some => exact hlock.move hen.1
  | replaced i old => exact (h.serve old).move hen
  | closeOldConn i old started => exact (h.serve old).move hen
  | closeOldDone i old started => exact (h.serve old).move hen
  | store i old =>
    have hmap : Counted { s with
      ctlsByRunID := update s.ctlsByRunID (s.runID i) (some i), mgrLock := none } := h
    cases old with
    | none | some => exact hmap.move hen
  | wake i old => exact h.move hen.1
  | register i now =>
    have hreg : Counted { s with registry := (s.registry.register now (s.login i)).1 } := h
    refine hreg.move hen ?_
    cases (s.registry.register now (s.login i)).2.2 with
    | true | false => rfl
  | conflictDel i =>
    have hdel : Counted (s.del i) := h
    exact (hdel.serve i).move hen.1
  | writeResp i ok =>
    cases ok with
    | true | false => exact h.move hen.1
  | undoDel i | reap i =>
    have hdel : Counted (s.del i) := h
    exact hdel.move hen.1
  | undoMark i now =>
    have hmark : Counted (s.markOffline now (s.runID i)) := h
    exact (hmark.serve i).move hen
  | start i =>
    have hpc : s.pc i = .starting := hen
    have hstart : Counted (s.setCtl i (s.ctl i).start) := by
      refine h.serve i ?_
      have hworker := ((ht.ctl i).unstarted (ht.starting i (by rw [hpc]; rfl))).2.1
      rw [hworker]
      unfold Control.start
      split_ifs
      · rw [hworker]
      · rfl
    exact hstart.move hpc
  | connLost c | runProxy c | storeProxy c | closeProxy c | readError c => exact h.serve c
  | addProxy c name =>
    by_cases hfree : s.pxys name = none
    · rw [next, if_pos hfree]
      have hpxy : Counted { s with pxys := update s.pxys name (some c) } := h
      exact hpxy.serve c
    · rw [next, if_neg hfree]
      exact h.serve c
  | finishClose c name =>
    have hpxy : Counted { s with pxys := update s.pxys name none } := h
    exact hpxy.serve c
  | workerWake c => exact h.work hen.1
  | workerClose c rest name =>
    have hpxy : Counted { s with pxys := update s.pxys name none } := h
    exact hpxy.work hen.1
  | markOffline c runID now =>
    have hmark : Counted (s.markOffline now runID) := h
    exact hmark.work hen
  | takeProxies | readRunID | closeDone => exact h.work hen

end Steps

variable {s : State}

theorem counted_of_reach (h : Reach step anyAction init s) : Counted s := by
  have hboth : Counted s ∧ TeardownInv s := by
    refine invariant_of_next (P := fun s => Counted s ∧ TeardownInv s) ⟨?_, teardownInv_init⟩ ?_ h
    · rfl
    · intro u a hinv _ hen
      exact ⟨counted_next hinv.1 hinv.2 hen, teardownInv_next hinv.2 hen⟩
  exact hboth.1

/-! ## The counter when nothing is under way -/

theorem counted_of_worker (ht : TeardownInv s) (hs : AtRest s) {c : Nat}
    (hw : (s.ctl c).worker ≠ .absent) : (s.pc c).counted = true := by
  have hafter := ht.afterStart ((ht.ctl c).started_of_worker hw)
  rcases hs.login c with hpc | hpc | hpc | hpc
  · rw [hpc] at hafter
    cases hafter
  · rw [hpc]
    rfl
  · rw [hpc]
    rfl
  · rw [hpc] at hafter
    cases hafter

theorem share_of_atRest (ht : TeardownInv s) (hs : AtRest s) (c : Nat) :
    s.share c = (if (s.ctl c).worker ≠ .absent ∧ (s.ctl c).worker ≠ .finished then 1 else 0) +
      (if (s.pc c).counted ∧ (s.ctl c).worker = .absent then 1 else 0) := by
  have hcounted := counted_of_worker ht hs (c := c)
  rcases hs.worker c with hw | hw | hw
  · cases hc : (s.pc c).counted with
    | true | false => simp [State.share, hw, hc, WorkerPc.discounted]
  · have hc : (s.pc c).counted = true := hcounted (by rw [hw]; rintro ⟨⟩)
    simp [State.share, hw, hc, WorkerPc.discounted]
  · have hc : (s.pc c).counted = true := hcounted (by rw [hw]; rintro ⟨⟩)
    simp [State.share, hw, hc, WorkerPc.discounted]

theorem clientCounts_of_atRest (h : Reach step anyAction init s) (hs : AtRest s) :
    s.clientCounts = s.live.card + s.idle.card := by
  have ht := teardownInv_of_reach h
  rw [counted_of_reach h, State.live, State.idle, Finset.card_filter, Finset.card_filter]
  push_cast
  rw [← Finset.sum_add_distrib]
  apply Finset.sum_congr rfl
  intro c _
  exact share_of_atRest ht hs c

/-- With nothing under way the counter is the number of workers iff every login that reached
`NewClient` had its worker started. -/
theorem clientCounts_exact_iff (s : State) (h : Reach step anyAction init s) (hs : AtRest s) :
    s.clientCounts = s.live.card ↔ ∀ i, (s.pc i).counted = true → (s.ctl i).worker ≠ .absent := by
  have hcounts := clientCounts_of_atRest h hs
  have hidle : s.clientCounts = s.live.card ↔ s.idle = ∅ := by
    rw [hcounts, ← Finset.card_eq_zero]
    omega
  rw [hidle, Finset.eq_empty_iff_forall_notMem]
  constructor
  · intro hnone i hi habs
    have hlt : i < s.next := by
      apply (teardownInv_of_reach h).lt_next
      intro hpc
      rw [hpc] at hi
      cases hi
    exact hnone i (Finset.mem_filter.2 ⟨Finset.mem_range.2 hlt, hi, habs⟩)
  · intro hall i hi
    obtain ⟨-, hcounted, habs⟩ := Finset.mem_filter.1 hi
    exact hall i hcounted habs

theorem atRest_of_lt (ht : TeardownInv s)
    (hlogin : ∀ i < s.next, s.pc i = .watching ∨ s.pc i = .ended ∨ s.pc i = .failed)
    (hworker : ∀ c < s.next, (s.ctl c).worker = .absent ∨ (s.ctl c).worker = .serving ∨
      (s.ctl c).worker = .finished) : AtRest s where
  login := by
    intro i
    by_cases hi : i < s.next
    · exact .inr (hlogin i hi)
    · exact .inl (ht.absent i (Nat.le_of_not_lt hi))
  worker := by
    intro c
    by_cases hc : c < s.next
    · exact hworker c hc
    · left
      by_contra hw
      exact hc (ht.lt_next_of_started ((ht.ctl c).started_of_worker hw))

def replacedRun : List Action :=
  startRun 0 ++ replaceRun 1 0 true ++
    [.readError 0, .workerWake 0, .takeProxies 0, .closeClient 0, .readRunID 0,
      .markOffline 0 "" 1, .closeDone 0, .reap 0, .wake 1 0, .register 1 2, .writeResp 1 true,
      .start 1, .newClient 1]

theorem clientCounts_exact_iff_replacedRun :
    let s := (run step anyAction init replacedRun).getD init
    AtRest s ∧ s.clientCounts = 1 ∧ s.clientCounts = s.live.card := by
  intro s
  have hreach : Reach step anyAction init s := reach_getD_of_isSome (by decide +kernel)
  have ht := teardownInv_of_reach hreach
  have hs : AtRest s := atRest_of_lt ht (by decide +kernel) (by decide +kernel)
  refine ⟨hs, by decide +kernel, (clientCounts_exact_iff s hreach hs).2 ?_⟩
  have hbelow : ∀ i < s.next, (s.ctl i).worker ≠ .absent := by decide +kernel
  intro i hi
  apply hbelow i
  apply ht.lt_next
  intro hpc
  rw [hpc] at hi
  cases hi

def lateRun : List Action :=
  [.login loginArgs, .lockManager 0 none, .store 0 none, .register 0 0, .writeResp 0 true] ++
    replaceRun 1 0 false ++
    [.wake 1 0, .register 1 1, .writeResp 1 true, .start 0, .newClient 0, .reap 0, .start 1,
      .newClient 1]

/-- Nothing is under way, one worker serves, and the counter is two. -/
theorem late_start_counted :
    let s := (run step anyAction init lateRun).getD init
    Reach step anyAction init s ∧ AtRest s ∧ s.live.card = 1 ∧ s.clientCounts = 2 := by
  intro s
  have hreach : Reach step anyAction init s := reach_getD_of_isSome (by decide +kernel)
  exact ⟨hreach, atRest_of_lt (teardownInv_of_reach hreach) (by decide +kernel)
    (by decide +kernel), by decide +kernel, by decide +kernel⟩

end FrpMeo.Server.Session
