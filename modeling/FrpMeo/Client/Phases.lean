import FrpMeo.Client.Wrapper
import FrpMeo.Lib.History

/-!
# The life of one proxy wrapper

One wrapper (`client/proxy/proxy_wrapper.go`) under the rounds of `checkWorker`, the server's
responses, the health callbacks and `Stop`. The history has its messages, its phases and its calls
of `Run` and `Close`. A failed check takes the proxy back from the server without closing it here,
so the next `Run` orphans what the first one opened.
-/

namespace FrpMeo.Client.Phases

open Lib.Transition Lib.History Client.Proxy

/-! ## The wrapped proxy -/

inductive Event where
  | sent (kind : Kind)
  /-- `pxy.Run()` returned. -/
  | run (err : Option String)
  /-- `pxy.Close()` returned. -/
  | closePxy
  | enter (p : Phase)
  deriving DecidableEq

/-- The plugin or router made by the last `Run`, which `Close` closes, and those that are open. -/
structure Backend where
  made : Nat
  current : Option Nat
  opened : List Nat
  deriving DecidableEq

def Backend.empty : Backend := ⟨0, none, []⟩

def Backend.after (b : Backend) : Event → Backend
  | .run none => ⟨b.made + 1, some b.made, b.opened ++ [b.made]⟩
  | .closePxy =>
      match b.current with
      | none => b
      | some i => { b with opened := b.opened.filter (· ≠ i) }
  | _ => b

/-! ## The wrapper and its history -/

def checkEvents (pw : Wrapper) (now : Nat) (failed : Bool) : List Event :=
  if failed = false then
    if pw.starts now then [.enter .waitStart, .sent .newProxy] else []
  else if pw.phase = .running ∨ pw.phase = .waitStart then
    [.sent .closeProxy, .enter .checkFailed]
  else []

/-- What `SetRunningStatus` does, in order; `runErr` is what `Run` returns, if it is called. -/
def responseEvents (pw : Wrapper) (respErr : String) (runErr : Option String) : List Event :=
  if pw.phase ≠ .waitStart then []
  else if respErr ≠ "" then [.enter .startErr]
  else
    match runErr with
    | some err => [.run (some err), .sent .closeProxy, .enter .startErr]
    | none => [.run none, .enter .running]

def stopEvents : List Event := [.closePxy, .enter .closed, .sent .closeProxy]

structure State where
  now : Nat
  pw : Wrapper
  backend : Backend
  /-- `closeCh` is closed. -/
  stopped : Bool
  log : List Event
  deriving DecidableEq

def init (name : String) (monitored : Bool) : State :=
  ⟨0, newWrapper name monitored, .empty, false, []⟩

def State.record (s : State) (events : List Event) : State :=
  { s with backend := events.foldl Backend.after s.backend, log := s.log ++ events }

inductive Action where
  | advance (d : Nat)
  | setHealth (failed : Bool)
  /-- A round of `checkWorker` reads the clock and the health. -/
  | look
  /-- The same round goes on under the lock. -/
  | check (now : Nat) (failed : Bool)
  /-- A response of the server reaches `SetRunningStatus`. -/
  | setRunningStatus (remoteAddr respErr : String) (runErr : Option String)
  | stop
  deriving DecidableEq

def Enabled (s : State) : Action → Prop
  | .advance _ => True
  | .setHealth _ => s.pw.monitored = true
  | .look => True
  | .check now failed => s.pw.seen = some (now, failed)
  | .setRunningStatus _ _ _ => True
  -- a second `Stop` would panic on the closed channel
  | .stop => s.stopped = false

instance (s : State) (a : Action) : Decidable (Enabled s a) := by
  cases a <;> dsimp only [Enabled] <;> infer_instance

def next (s : State) : Action → State
  | .advance d => { s with now := s.now + d }
  | .setHealth failed => { s with pw := { s.pw with failed } }
  | .look => { s with pw := { s.pw with seen := some (s.now, s.pw.failed) } }
  | .check now failed =>
      { s with pw := ({ s.pw with seen := none }.checkWorker now failed).1 }.record
        (checkEvents s.pw now failed)
  | .setRunningStatus remoteAddr respErr runErr =>
      { s with pw := (s.pw.setRunningStatus s.now remoteAddr respErr runErr).1 }.record
        (responseEvents s.pw respErr runErr)
  | .stop => { s with pw := s.pw.stop.1, stopped := true }.record stopEvents

def step : State → Action → Option State := stepOf Enabled next

/-! ## The automaton of the phases -/

inductive Moves : Phase → List Event → Phase → Prop where
  | silent (p : Phase) : Moves p [] p
  | request (p : Phase) (hrunning : p ≠ .running) (hclosed : p ≠ .closed) :
      Moves p [.enter .waitStart, .sent .newProxy] .waitStart
  | withdraw (p : Phase) (h : p = .running ∨ p = .waitStart) :
      Moves p [.sent .closeProxy, .enter .checkFailed] .checkFailed
  | refuse : Moves .waitStart [.enter .startErr] .startErr
  | runFail (err : String) :
      Moves .waitStart [.run (some err), .sent .closeProxy, .enter .startErr] .startErr
  | runOk : Moves .waitStart [.run none, .enter .running] .running

theorem moves_check {pw : Wrapper} {now : Nat} {failed : Bool} :
    Moves pw.phase (checkEvents pw now failed)
      ({ pw with seen := none }.checkWorker now failed).1.phase := by
  unfold checkEvents Wrapper.checkWorker
  by_cases hhealthy : failed = false
  · rw [if_pos hhealthy, if_pos hhealthy]
    by_cases hstarts : pw.starts now = true
    · have hne := State.ne_running_of_starts hstarts
      have hsame : Wrapper.starts { pw with seen := none } now = true := hstarts
      rw [if_pos hstarts, if_pos hsame]
      exact .request pw.phase hne.1 hne.2
    · have hsame : ¬ Wrapper.starts { pw with seen := none } now = true := hstarts
      rw [if_neg hstarts, if_neg hsame]
      exact .silent pw.phase
  · rw [if_neg hhealthy, if_neg hhealthy]
    by_cases hactive : pw.phase = .running ∨ pw.phase = .waitStart
    · rw [if_pos hactive, if_pos hactive]
      exact .withdraw pw.phase hactive
    · rw [if_neg hactive, if_neg hactive]
      exact .silent pw.phase

theorem moves_setRunningStatus {pw : Wrapper} {now : Nat} {remoteAddr respErr : String}
    {runErr : Option String} : Moves pw.phase (responseEvents pw respErr runErr)
      (pw.setRunningStatus now remoteAddr respErr runErr).1.phase := by
  unfold responseEvents Wrapper.setRunningStatus
  by_cases hphase : pw.phase ≠ .waitStart
  · rw [if_pos hphase, if_pos hphase]
    exact .silent pw.phase
  · rw [if_neg hphase, if_neg hphase, not_not.1 hphase]
    by_cases herr : respErr ≠ ""
    · rw [if_pos herr, if_pos herr]
      exact .refuse
    · rw [if_neg herr, if_neg herr]
      cases runErr with
      | some err => exact .runFail err
      | none => exact .runOk

variable {s t : State} {a : Action} {events : List Event}

theorem step_moves (h : step s a = some t) : (a = .stop ∧ s.stopped = false ∧ t = next s .stop) ∨
      ∃ events, Moves s.pw.phase events t.pw.phase ∧ t.log = s.log ++ events ∧
        t.backend = events.foldl Backend.after s.backend ∧ t.stopped = s.stopped ∧ a ≠ .stop := by
  obtain ⟨henabled, rfl⟩ := stepOf_eq_some_iff.1 h
  cases a with
  | advance | setHealth | look =>
    exact .inr ⟨[], .silent _, (List.append_nil _).symm, rfl, rfl, by simp⟩
  | check now failed => exact .inr ⟨_, moves_check, rfl, rfl, rfl, by simp⟩
  | setRunningStatus remoteAddr respErr runErr =>
    exact .inr ⟨_, moves_setRunningStatus, rfl, rfl, rfl,
      by simp⟩
  | stop => exact .inl ⟨rfl, henabled, rfl⟩

/-! ## Phases and messages -/

def Event.isRunning (e : Event) : Bool := e = .enter .running

def Event.isCloseProxy (e : Event) : Bool := e = .sent .closeProxy

def Event.isNewProxy (e : Event) : Bool := e = .sent .newProxy

/-- A `CloseProxy` follows every `Running` before the next `NewProxy`. -/
structure Inv (s : State) : Prop where
  between : Between Event.isRunning Event.isCloseProxy Event.isNewProxy s.log
  due : pending Event.isRunning Event.isCloseProxy s.log = true → s.pw.phase = .running
  stopped : s.stopped = true → s.pw.phase = .closed

variable {p q : Phase} {waiting : Bool}

theorem Moves.ordered (h : Moves p events q) (hdue : waiting = true → p = .running) :
    safe Event.isRunning Event.isCloseProxy Event.isNewProxy waiting events = true ∧
      (pendingFrom Event.isRunning Event.isCloseProxy waiting events = true → q = .running) := by
  cases h with
  | silent => exact ⟨rfl, hdue⟩
  | request _ hrunning =>
    -- nothing is due, since the phase is another one
    cases waiting with
    | true => exact absurd (hdue rfl) hrunning
    | false => exact ⟨rfl, fun h => by cases h⟩
  | refuse =>
    cases waiting with
    | true => cases hdue rfl
    | false => exact ⟨rfl, fun h => by cases h⟩
  | withdraw | runFail => exact ⟨by cases waiting <;> rfl, fun h => by cases h⟩
  | runOk => exact ⟨by cases waiting <;> rfl, fun _ => rfl⟩

theorem Moves.of_closed (h : Moves .closed events q) : q = .closed ∧ events = [] := by
  cases h with
  | silent => exact ⟨rfl, rfl⟩
  | request _ _ hclosed => exact absurd rfl hclosed
  | withdraw _ h => rcases h with h | h <;> cases h

theorem inv_init (name : String) (monitored : Bool) : Inv (init name monitored) where
  between := between_nil _ _ _
  due := by simp [init, pending_nil]
  stopped := by simp [init]

theorem inv_step (h : Inv s) (hstep : step s a = some t) : Inv t := by
  rcases step_moves hstep with ⟨-, -, rfl⟩ | ⟨events, hmoves, hlog, -, hstopped, -⟩
  · refine ⟨h.between.append ?_, ?_, fun _ => rfl⟩
    · cases pending Event.isRunning Event.isCloseProxy s.log <;> rfl
    · -- the last thing that `Stop` does is to send a `CloseProxy`
      intro hdue
      change pending Event.isRunning Event.isCloseProxy (s.log ++ stopEvents) = true at hdue
      rw [pending_append] at hdue
      cases hdue
  · obtain ⟨hsafe, hdue⟩ := hmoves.ordered h.due
    refine ⟨?_, ?_, ?_⟩
    · rw [hlog]
      exact h.between.append hsafe
    · rw [hlog, pending_append]
      exact hdue
    · intro ht
      rw [h.stopped (hstopped.symm.trans ht)] at hmoves
      exact hmoves.of_closed.1

theorem stopped_step (h : Inv s) (hs : s.stopped = true) (hstep : step s a = some t) :
    t.stopped = true ∧ t.log = s.log := by
  rcases step_moves hstep with ⟨-, hno, -⟩ | ⟨events, hmoves, hlog, -, hstopped, -⟩
  · exact absurd (hs.symm.trans hno) (by simp)
  · rw [h.stopped hs] at hmoves
    refine ⟨hstopped.trans hs, ?_⟩
    rw [hlog, hmoves.of_closed.2, List.append_nil]

theorem inv_of_reach (h : Inv s) (hreach : Reach step anyAction s t) : Inv t :=
  invariant_of_reach h (fun _ _ _ hi _ hstep => inv_step hi hstep) hreach

theorem stopped_of_reach (h : Inv s) (hs : s.stopped = true) (hreach : Reach step anyAction s t) :
    t.pw.phase = .closed ∧ t.log = s.log := by
  have hall : Inv t ∧ t.stopped = true ∧ t.log = s.log :=
    invariant_of_reach (P := fun u => Inv u ∧ u.stopped = true ∧ u.log = s.log) ⟨h, hs, rfl⟩
      (fun u a v hu _ hstep =>
        have hsame := stopped_step hu.1 hu.2.1 hstep
        ⟨inv_step hu.1 hstep, hsame.1, hsame.2.trans hu.2.2⟩) hreach
  exact ⟨hall.1.stopped hall.2.1, hall.2.2⟩

variable {now : Nat} {pw : Wrapper}

theorem checkWorker_running {failed : Bool}
    (h : (pw.checkWorker now failed).1.phase = .running) : pw.phase = .running := by
  unfold Wrapper.checkWorker at h
  split_ifs at h <;> exact h

theorem setRunningStatus_running {remoteAddr respErr : String} {runErr : Option String}
    (h : (pw.setRunningStatus now remoteAddr respErr runErr).1.phase = .running)
    (hne : pw.phase ≠ .running) : pw.phase = .waitStart ∧ respErr = "" ∧ runErr = none := by
  unfold Wrapper.setRunningStatus at h
  split_ifs at h with hphase herr
  · exact absurd h hne
  · cases runErr with
    | some err => cases h
    | none => exact ⟨not_not.1 hphase, not_not.1 herr, rfl⟩

theorem running_entered (hstep : step s a = some t) (ht : t.pw.phase = .running)
    (hs : s.pw.phase ≠ .running) :
    s.pw.phase = .waitStart ∧ ∃ remoteAddr, a = .setRunningStatus remoteAddr "" none := by
  obtain ⟨-, rfl⟩ := stepOf_eq_some_iff.1 hstep
  cases a with
  | advance | setHealth | look => exact absurd ht hs
  | check now failed =>
    have hrunning : ({ s.pw with seen := none }.checkWorker now failed).1.phase = .running := ht
    exact absurd (checkWorker_running hrunning) hs
  | setRunningStatus remoteAddr respErr runErr =>
    obtain ⟨hphase, rfl, rfl⟩ := setRunningStatus_running ht hs
    exact ⟨hphase, remoteAddr, rfl⟩
  | stop => cases ht

/-- `Running` is entered from `WaitStart` by a success response, a stopped wrapper is closed and
silent, and a `CloseProxy` stands between two runs. -/
theorem phases_of_reach {name : String} {monitored : Bool} {s : State}
    (h : Reach step anyAction (init name monitored) s) :
    (∀ a t, step s a = some t → t.pw.phase = .running → s.pw.phase ≠ .running →
        s.pw.phase = .waitStart ∧ ∃ remoteAddr, a = .setRunningStatus remoteAddr "" none) ∧
      (s.stopped = true → ∀ t, Reach step anyAction s t → t.pw.phase = .closed ∧ t.log = s.log) ∧
      (∀ pre mid post, s.log = pre ++ .sent .newProxy :: (mid ++ .sent .newProxy :: post) →
        .enter .running ∈ mid → .sent .closeProxy ∈ mid) := by
  have hinv := inv_of_reach (inv_init name monitored) h
  refine ⟨fun a t hstep => running_entered hstep, fun hs t => stopped_of_reach hinv hs, ?_⟩
  intro pre mid post hlog hmem
  have hsplit : s.log = (pre ++ [.sent .newProxy]) ++ mid ++ .sent .newProxy :: post := by
    rw [hlog]
    simp
  obtain ⟨m, hm, hz⟩ := hinv.between.mem_of_mem hsplit hmem rfl rfl
  have hclose : m = .sent .closeProxy := by simpa [Event.isCloseProxy] using hz
  exact hclose ▸ hm

def failAndRecover : List Action :=
  [.setHealth false, .look, .check 0 false, .setRunningStatus ":6000" "" none,
    .setHealth true, .look, .check 0 true, .setHealth false, .look, .check 0 false,
    .setRunningStatus ":6000" "" none]

def recovered : State :=
  (run step anyAction (init "web" true) failAndRecover).getD (init "web" true)

theorem phases_of_reach_recovered : recovered.pw.phase = .running ∧ recovered.stopped = false ∧
      .sent .closeProxy ∈ [Event.run none, .enter .running, .sent .closeProxy, .enter .checkFailed,
        .enter .waitStart] := by
  have hreach : Reach step anyAction (init "web" true) recovered := reach_getD_of_isSome (by decide)
  exact ⟨by decide, by decide, (phases_of_reach hreach).2.2 [.enter .waitStart] _
    [.run none, .enter .running] (by decide) (by decide)⟩

/-! ## Runs of the wrapped proxy -/

def Event.isRunOk (e : Event) : Bool := e = .run none

def Event.isClosePxy (e : Event) : Bool := e = .closePxy

def Event.isRun : Event → Bool
  | .run _ => true
  | _ => false

def HealthyWhileRunning (s : State) : Action → Prop
  | .check _ failed => failed = true → s.pw.phase ≠ .running
  | _ => True

instance (s : State) (a : Action) : Decidable (HealthyWhileRunning s a) := by
  cases a <;> dsimp only [HealthyWhileRunning] <;> infer_instance

def Holds (p : Phase) (b : Backend) : Prop :=
  if p = .running then ∃ i, b.current = some i ∧ b.opened = [i] else b.opened = []

/-- Every successful `Run` was closed before the next; only the last is open, while it runs. -/
structure Paired (s : State) : Prop where
  between : Between Event.isRunOk Event.isClosePxy Event.isRun s.log
  due : pending Event.isRunOk Event.isClosePxy s.log = true → s.pw.phase = .running
  holds : Holds s.pw.phase s.backend

theorem paired_init (name : String) (monitored : Bool) : Paired (init name monitored) where
  between := between_nil _ _ _
  due := by simp [init, pending_nil]
  holds := rfl

variable {b : Backend}

theorem Moves.paired (h : Moves p events q) (hstays : p = .running → q = .running)
    (hdue : waiting = true → p = .running) (hholds : Holds p b) :
    safe Event.isRunOk Event.isClosePxy Event.isRun waiting events = true ∧
      (pendingFrom Event.isRunOk Event.isClosePxy waiting events = true → q = .running) ∧
      Holds q (events.foldl Backend.after b) := by
  -- outside of `Running` nothing is due, and the moves that call nothing change nothing
  have hnone : p ≠ .running → waiting = false := by
    intro hp
    simpa using fun hw => hp (hdue hw)
  cases h with
  | silent => exact ⟨rfl, hdue, hholds⟩
  | request _ hrunning =>
    rw [hnone hrunning]
    refine ⟨rfl, (fun h => by cases h), ?_⟩
    rw [Holds, if_neg hrunning] at hholds
    exact hholds
  | withdraw _ h =>
    rcases h with rfl | rfl
    · cases hstays rfl
    · rw [hnone (by simp)]
      exact ⟨rfl, (fun h => by cases h), hholds⟩
  | refuse | runFail =>
    rw [hnone (by simp)]
    exact ⟨rfl, (fun h => by cases h), hholds⟩
  | runOk =>
    rw [hnone (by simp)]
    refine ⟨rfl, fun _ => rfl, b.made, rfl, ?_⟩
    have hempty : b.opened = [] := hholds
    change b.opened ++ [b.made] = [b.made]
    rw [hempty]
    rfl

theorem holds_stop (h : Holds p b) :
    Holds .closed (stopEvents.foldl Backend.after b) := by
  change (b.after .closePxy).opened = []
  by_cases hp : p = .running
  · rw [Holds, if_pos hp] at h
    obtain ⟨i, hcurrent, hopened⟩ := h
    simp [Backend.after, hcurrent, hopened]
  · rw [Holds, if_neg hp] at h
    cases hcurrent : b.current <;> simp [Backend.after, hcurrent, h]

theorem running_stays (hok : HealthyWhileRunning s a) (hstep : step s a = some t) (hne : a ≠ .stop)
    (hs : s.pw.phase = .running) : t.pw.phase = .running := by
  obtain ⟨-, rfl⟩ := stepOf_eq_some_iff.1 hstep
  cases a with
  | advance | setHealth | look => exact hs
  | check now failed =>
    cases failed with
    | true => exact absurd hs (hok rfl)
    | false => simp [next, State.record, Wrapper.checkWorker, Wrapper.starts, hs]
  | setRunningStatus remoteAddr respErr runErr =>
    simp [next, State.record, Wrapper.setRunningStatus, hs]
  | stop => exact absurd rfl hne

theorem paired_step (h : Paired s) (hok : HealthyWhileRunning s a) (hstep : step s a = some t) :
    Paired t := by
  rcases step_moves hstep with ⟨-, -, rfl⟩ | ⟨events, hmoves, hlog, hbackend, -, hne⟩
  · refine ⟨h.between.append ?_, ?_, holds_stop h.holds⟩
    · cases pending Event.isRunOk Event.isClosePxy s.log <;> rfl
    · intro hdue
      change pending Event.isRunOk Event.isClosePxy (s.log ++ stopEvents) = true at hdue
      rw [pending_append] at hdue
      cases hdue
  · obtain ⟨hsafe, hdue, hholds⟩ := hmoves.paired (running_stays hok hstep hne) h.due h.holds
    refine ⟨?_, ?_, ?_⟩
    · rw [hlog]
      exact h.between.append hsafe
    · rw [hlog, pending_append]
      exact hdue
    · rw [hbackend]
      exact hholds

/-- If no health check fails while the proxy runs, no `Run` follows a successful one without a
`Close`, and nothing is open after `Stop`. -/
theorem runs_closed_of_reach {name : String} {monitored : Bool} {s : State}
    (h : Reach step HealthyWhileRunning (init name monitored) s) :
    (∀ pre mid post err, s.log = pre ++ .run none :: (mid ++ .run err :: post) → .closePxy ∈ mid) ∧
      s.backend.opened.length ≤ 1 ∧ (s.stopped = true → s.backend.opened = []) := by
  have hpaired : Paired s :=
    invariant_of_reach (paired_init name monitored)
      (fun _ _ _ hi hok hstep => paired_step hi hok hstep) h
  have hinv : Inv s := inv_of_reach (inv_init name monitored) (reach_mono (fun _ _ _ => trivial) h)
  have hholds := hpaired.holds
  refine ⟨?_, ?_, ?_⟩
  · intro pre mid post err hlog
    obtain ⟨m, hm, hz⟩ := hpaired.between pre mid post (.run none) (.run err) hlog rfl rfl
    have hclose : m = .closePxy := by simpa [Event.isClosePxy] using hz
    exact hclose ▸ hm
  · by_cases hp : s.pw.phase = .running
    · rw [Holds, if_pos hp] at hholds
      obtain ⟨i, -, hopened⟩ := hholds
      simp [hopened]
    · rw [Holds, if_neg hp] at hholds
      simp [hholds]
  · intro hs
    rw [hinv.stopped hs] at hholds
    exact hholds

def runUntilStop : List Action := [.look, .check 0 false, .setRunningStatus ":6000" "" none, .stop]

def stoppedState : State :=
  (run step HealthyWhileRunning (init "web" false) runUntilStop).getD (init "web" false)

theorem runs_closed_of_reach_stopped :
    stoppedState.backend.made = 1 ∧ stoppedState.backend.opened = [] := by
  have hreach : Reach step HealthyWhileRunning (init "web" false) stoppedState :=
    reach_getD_of_isSome (by decide)
  exact ⟨by decide, (runs_closed_of_reach hreach).2.2 (by decide)⟩

def recoveredThenStopped : State :=
  (run step anyAction (init "web" true) (failAndRecover ++ [.stop])).getD (init "web" true)

/-- A failed check and a recovery call `Run` twice, and `Stop` closes the second only. -/
theorem run_twice_open : Reach step anyAction (init "web" true) recoveredThenStopped ∧
      recoveredThenStopped.stopped = true ∧ recoveredThenStopped.backend.made = 2 ∧
      recoveredThenStopped.backend.opened = [0] ∧
      ∃ pre mid post, recoveredThenStopped.log = pre ++ .run none :: (mid ++ .run none :: post) ∧
        .closePxy ∉ mid := by
  have hreach : Reach step anyAction (init "web" true) recoveredThenStopped :=
    reach_getD_of_isSome (by decide)
  exact ⟨hreach, by decide, by decide, by decide, [.enter .waitStart, .sent .newProxy],
    [.enter .running, .sent .closeProxy, .enter .checkFailed, .enter .waitStart, .sent .newProxy],
    [.enter .running, .closePxy, .enter .closed, .sent .closeProxy], by decide, by decide⟩

end FrpMeo.Client.Phases
