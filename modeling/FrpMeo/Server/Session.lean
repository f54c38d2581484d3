import FrpMeo.Lib.Transition
import FrpMeo.Server.Registry

/-!
# Control sessions

Login, handover and teardown of control sessions (`server/control.go`, `server/service.go`). A login
and the control it creates share one number; the state has where logins (`LoginPc`), read loops
(`ReaderPc`) and workers (`WorkerPc`) stand. An action is one critical section or one access to
shared state; `ControlManager.Add` holds its lock over several, because `Replaced` runs inside it.
-/

namespace FrpMeo.Server.Session

open Server.Registry Function

inductive LoginPc where
  | absent
  /-- `NewControl` has returned; `ctlManager.Add` is next. -/
  | created
  /-- In `Add` with the lock held: `old.Replaced` is next. -/
  | replacing (old : Nat)
  /-- In `Replaced`: `old` is marked; `started` is what was read with the mark. -/
  | closingConn (old : Nat) (started : Bool)
  /-- In `Replaced`: the connection of `old` is closed. -/
  | closingDone (old : Nat) (started : Bool)
  /-- In `Add` with the lock held: the map entry is written next. -/
  | storing (old : Option Nat)
  /-- In `old.WaitClosed`. -/
  | waiting (old : Nat)
  /-- `clientRegistry.Register` is next. -/
  | registering
  /-- `Register` reported a conflict; `ctlManager.Del` is next. -/
  | conflict
  /-- `RegisterControl` has returned a control; the login response is next. -/
  | returned
  /-- The login response failed; `ctlManager.Del` is next. -/
  | undoDel
  /-- The login response failed; `MarkOfflineByRunID` is next. -/
  | undoMark
  /-- The login response is written; `Start` is next. -/
  | starting
  /-- `Start` has returned; `metrics.Server.NewClient` is next. -/
  | counting
  /-- In the goroutine that waits for the control and then calls `ctlManager.Del`. -/
  | watching
  /-- That goroutine has returned. -/
  | ended
  | failed
  deriving DecidableEq

/-- In `Add`, after the map has been read: an entry found there is replaced first. -/
def LoginPc.afterLock : Option Nat → LoginPc
  | none => .storing none
  | some old => .replacing old

/-- After `Add`: a login that replaced a control waits for it. -/
def LoginPc.afterStore : Option Nat → LoginPc
  | none => .registering
  | some old => .waiting old

inductive ReaderPc where
  | absent
  | idle
  /-- In `RegisterProxy`: the proxy runs; `PxyManager.Add` is next. -/
  | running (name : String)
  /-- In `RegisterProxy`: the proxy is in the proxy manager; `ctl.proxies` is next. -/
  | adding (name : String)
  /-- In `CloseProxy`: out of `ctl.proxies`; `closeProxy` is next. -/
  | closing (name : String)
  /-- The read failed and the dispatcher's done channel is closed. -/
  | stopped
  deriving DecidableEq

inductive WorkerPc where
  | absent
  | serving
  /-- The connection is closed; the proxies are taken next. -/
  | closing
  /-- Closing the proxies taken, those in `rest` still to do. -/
  | closingProxies (rest : List String)
  /-- `MarkOfflineByRunID(ctl.runID)` is next; the run id is not read yet. -/
  | readingRunID
  /-- The run id has been read; the registry call is next. -/
  | marking (runID : String)
  /-- `closeDone` is next. -/
  | closingDone
  | finished
  deriving DecidableEq

/-- `done` says that `doneCh` is closed and `connClosed` that the connection is; `proxies` are the
keys of `ctl.proxies`, and `opened` the proxies whose `Run` succeeded and whose `Close` was not
called. -/
structure Control where
  runID : String
  started : Bool
  replaced : Bool
  done : Bool
  connClosed : Bool
  proxies : List String
  opened : List String
  reader : ReaderPc
  worker : WorkerPc
  deriving DecidableEq

def newControl (runID : String) : Control where
  runID := runID
  started := false
  replaced := false
  done := false
  connClosed := false
  proxies := []
  opened := []
  reader := .absent
  worker := .absent

/-- `login i` is what login `i` passes to `Register`, `mgrLock` the holder of the control manager's
lock, and `pxys` the proxy manager with the owner of each proxy. -/
structure State where
  next : Nat
  login : Nat → RegisterArgs
  pc : Nat → LoginPc
  ctl : Nat → Control
  ctlsByRunID : String → Option Nat
  mgrLock : Option Nat
  registry : ClientRegistry
  pxys : String → Option Nat
  clientCounts : Int

def init : State where
  next := 0
  login := fun _ => ⟨"", "", "", "", "", "", ""⟩
  pc := fun _ => .absent
  ctl := fun _ => newControl ""
  ctlsByRunID := fun _ => none
  mgrLock := none
  registry := newClientRegistry
  pxys := fun _ => none
  clientCounts := 0

def State.runID (s : State) (i : Nat) : String := (s.login i).runID

def State.setPc (s : State) (i : Nat) (p : LoginPc) : State :=
  { s with pc := update s.pc i p }

def State.setCtl (s : State) (c : Nat) (k : Control) : State :=
  { s with ctl := update s.ctl c k }

theorem setPc_pc_self (s : State) (i : Nat) (p : LoginPc) : (s.setPc i p).pc i = p :=
  update_self ..

theorem setPc_pc_of_ne (s : State) {i j : Nat} (p : LoginPc) (h : j ≠ i) :
    (s.setPc i p).pc j = s.pc j :=
  update_of_ne h ..

theorem setCtl_ctl_self (s : State) (c : Nat) (k : Control) : (s.setCtl c k).ctl c = k :=
  update_self ..

theorem setCtl_ctl_of_ne (s : State) {c d : Nat} (k : Control) (h : d ≠ c) :
    (s.setCtl c k).ctl d = s.ctl d :=
  update_of_ne h ..

theorem forall_setPc_iff {s : State} {i : Nat} {q : LoginPc} {p : Nat → LoginPc → Prop} :
    (∀ j, p j ((s.setPc i q).pc j)) ↔ p i q ∧ ∀ j, j ≠ i → p j (s.pc j) :=
  forall_update_iff ..

theorem forall_setCtl_iff {s : State} {c : Nat} {k : Control} {p : Nat → Control → Prop} :
    (∀ d, p d ((s.setCtl c k).ctl d)) ↔ p c k ∧ ∀ d, d ≠ c → p d (s.ctl d) :=
  forall_update_iff ..

theorem update_none_eq_some {α β : Type*} [DecidableEq α] {m : α → Option β} {k a : α} {b : β} :
    update m k none a = some b ↔ a ≠ k ∧ m a = some b := by
  by_cases h : a = k <;> simp [h]

/-- `ControlManager.Del` on the run id and the control of login `i`: a newer control stays. -/
def State.del (s : State) (i : Nat) : State :=
  { s with
    ctlsByRunID :=
      if s.ctlsByRunID (s.runID i) = some i then update s.ctlsByRunID (s.runID i) none
      else s.ctlsByRunID }

def State.markOffline (s : State) (now : Nat) (runID : String) : State :=
  { s with registry := s.registry.markOfflineByRunID now runID }

def Control.retire (k : Control) : Control := { k with runID := "", replaced := true }

def Control.start (k : Control) : Control :=
  if k.replaced then k else { k with started := true, reader := .idle, worker := .serving }

def Control.closePxy (k : Control) (name : String) : Control :=
  { k with opened := k.opened.filter (· ≠ name) }

inductive Action where
  | login (a : RegisterArgs)
  | lockManager (i : Nat) (old : Option Nat)
  | replaced (i old : Nat)
  | closeOldConn (i old : Nat) (started : Bool)
  | closeOldDone (i old : Nat) (started : Bool)
  | store (i : Nat) (old : Option Nat)
  | wake (i old : Nat)
  | register (i now : Nat)
  | conflictDel (i : Nat)
  | writeResp (i : Nat) (ok : Bool)
  | undoDel (i : Nat)
  | undoMark (i now : Nat)
  | start (i : Nat)
  | newClient (i : Nat)
  | reap (i : Nat)
  | connLost (c : Nat)
  | runProxy (c : Nat) (name : String)
  | addProxy (c : Nat) (name : String)
  | storeProxy (c : Nat) (name : String)
  | closeProxy (c : Nat) (name : String)
  | finishClose (c : Nat) (name : String)
  | readError (c : Nat)
  | workerWake (c : Nat)
  | takeProxies (c : Nat)
  | workerClose (c : Nat) (rest : List String) (name : String)
  | closeClient (c : Nat)
  | readRunID (c : Nat)
  | markOffline (c : Nat) (runID : String) (now : Nat)
  | closeDone (c : Nat)
  deriving DecidableEq

def Enabled (s : State) : Action → Prop
  -- `RegisterControl` draws a run id for a client that sends none
  | .login a => a.runID ≠ ""
  | .lockManager i old => s.pc i = .created ∧ s.mgrLock = none ∧ s.ctlsByRunID (s.runID i) = old
  | .replaced i old => s.pc i = .replacing old
  | .closeOldConn i old started => s.pc i = .closingConn old started
  | .closeOldDone i old started => s.pc i = .closingDone old started
  | .store i old => s.pc i = .storing old
  | .wake i old => s.pc i = .waiting old ∧ (s.ctl old).done = true
  | .register i _ => s.pc i = .registering
  | .conflictDel i => s.pc i = .conflict ∧ s.mgrLock = none
  -- a write on a closed connection fails
  | .writeResp i ok => s.pc i = .returned ∧ (ok = true → (s.ctl i).connClosed = false)
  | .undoDel i => s.pc i = .undoDel ∧ s.mgrLock = none
  | .undoMark i _ => s.pc i = .undoMark
  | .start i => s.pc i = .starting
  | .newClient i => s.pc i = .counting
  | .reap i => s.pc i = .watching ∧ (s.ctl i).done = true ∧ s.mgrLock = none
  | .connLost c => c < s.next
  | .runProxy c name => (s.ctl c).reader = .idle ∧ s.pxys name = none
  | .addProxy c name => (s.ctl c).reader = .running name
  | .storeProxy c name => (s.ctl c).reader = .adding name
  | .closeProxy c name => (s.ctl c).reader = .idle ∧ name ∈ (s.ctl c).proxies
  | .finishClose c name => (s.ctl c).reader = .closing name
  | .readError c => (s.ctl c).reader = .idle
  | .workerWake c => (s.ctl c).worker = .serving ∧ (s.ctl c).reader = .stopped
  | .takeProxies c => (s.ctl c).worker = .closing
  | .workerClose c rest name => (s.ctl c).worker = .closingProxies rest ∧ name ∈ rest
  | .closeClient c => (s.ctl c).worker = .closingProxies []
  | .readRunID c => (s.ctl c).worker = .readingRunID
  | .markOffline c runID _ => (s.ctl c).worker = .marking runID
  | .closeDone c => (s.ctl c).worker = .closingDone

instance (s : State) (a : Action) : Decidable (Enabled s a) := by
  cases a <;> dsimp only [Enabled] <;> infer_instance

def next (s : State) : Action → State
  | .login a =>
      { s with
        next := s.next + 1
        login := update s.login s.next a
        pc := update s.pc s.next .created
        ctl := update s.ctl s.next (newControl a.runID) }
  | .lockManager i old => { s with mgrLock := some i }.setPc i (.afterLock old)
  | .replaced i old =>
      (s.setCtl old (s.ctl old).retire).setPc i (.closingConn old (s.ctl old).started)
  | .closeOldConn i old started =>
      (s.setCtl old { s.ctl old with connClosed := true }).setPc i (.closingDone old started)
  -- a control that was started leaves `doneCh` to its worker
  | .closeOldDone i old started =>
      (s.setCtl old { s.ctl old with done := (s.ctl old).done || !started }).setPc i
        (.storing (some old))
  -- the lock is released here, before `WaitClosed`
  | .store i old =>
      { s with
        ctlsByRunID := update s.ctlsByRunID (s.runID i) (some i)
        mgrLock := none }.setPc i (.afterStore old)
  | .wake i _ => s.setPc i .registering
  | .register i now =>
      let r := s.registry.register now (s.login i)
      { s with registry := r.1 }.setPc i (if r.2.2 then .conflict else .returned)
  -- the error response is not followed by `MarkOfflineByRunID`
  | .conflictDel i => ((s.del i).setCtl i { s.ctl i with connClosed := true }).setPc i .failed
  | .writeResp i ok => s.setPc i (if ok then .starting else .undoDel)
  | .undoDel i => (s.del i).setPc i .undoMark
  | .undoMark i now =>
      ((s.markOffline now (s.runID i)).setCtl i { s.ctl i with connClosed := true }).setPc i .failed
  | .start i => (s.setCtl i (s.ctl i).start).setPc i .counting
  -- also after a `Start` that found the control replaced and did nothing
  | .newClient i => { s with clientCounts := s.clientCounts + 1 }.setPc i .watching
  | .reap i => (s.del i).setPc i .ended
  | .connLost c => s.setCtl c { s.ctl c with connClosed := true }
  | .runProxy c name =>
      s.setCtl c { s.ctl c with opened := name :: (s.ctl c).opened, reader := .running name }
  -- a lost race for the name closes the proxy again
  | .addProxy c name =>
      if s.pxys name = none then
        { s with pxys := update s.pxys name (some c) }.setCtl c
          { s.ctl c with reader := .adding name }
      else s.setCtl c { (s.ctl c).closePxy name with reader := .idle }
  | .storeProxy c name =>
      s.setCtl c { s.ctl c with proxies := name :: (s.ctl c).proxies, reader := .idle }
  | .closeProxy c name =>
      s.setCtl c { s.ctl c with
        proxies := (s.ctl c).proxies.filter (· ≠ name), reader := .closing name }
  | .finishClose c name =>
      { s with pxys := update s.pxys name none }.setCtl c
        { (s.ctl c).closePxy name with reader := .idle }
  | .readError c => s.setCtl c { s.ctl c with reader := .stopped }
  | .workerWake c => s.setCtl c { s.ctl c with connClosed := true, worker := .closing }
  | .takeProxies c =>
      s.setCtl c { s.ctl c with proxies := [], worker := .closingProxies (s.ctl c).proxies }
  -- the loop over the map taken by `takeProxies`, in any order
  | .workerClose c rest name =>
      { s with pxys := update s.pxys name none }.setCtl c
        { (s.ctl c).closePxy name with worker := .closingProxies (rest.filter (· ≠ name)) }
  | .closeClient c =>
      { s with clientCounts := s.clientCounts - 1 }.setCtl c
        { s.ctl c with worker := .readingRunID }
  -- `ctl.runID` is read without the control's lock, and is empty once `Replaced` has run
  | .readRunID c => s.setCtl c { s.ctl c with worker := .marking (s.ctl c).runID }
  | .markOffline c runID now =>
      (s.markOffline now runID).setCtl c { s.ctl c with worker := .closingDone }
  | .closeDone c => s.setCtl c { s.ctl c with done := true, worker := .finished }

theorem forall_login_iff {s : State} {a : RegisterArgs}
    {p : Nat → LoginPc → Control → RegisterArgs → Prop} :
    (∀ j, p j ((next s (.login a)).pc j) ((next s (.login a)).ctl j)
        ((next s (.login a)).login j)) ↔
      p s.next .created (newControl a.runID) a ∧
        ∀ j, j ≠ s.next → p j (s.pc j) (s.ctl j) (s.login j) := by
  constructor
  · intro h
    exact ⟨by simpa [next] using h s.next, fun j hj => by simpa [next, hj] using h j⟩
  · rintro ⟨hnew, hold⟩ j
    by_cases hj : j = s.next
    · simpa [next, hj] using hnew
    · simpa [next, hj] using hold j hj

def step : State → Action → Option State := Lib.Transition.stepOf Enabled next

end FrpMeo.Server.Session
