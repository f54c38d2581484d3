import FrpMeo.Client.UpdateAll
import FrpMeo.Client.Visitors

/-!
# The shutdown of a client

`Service.stop` of `client/service.go` against logins and reloads under way. `stop` waits for a
reload, takes the configuration sources away, and closes the published control and the visitor
manager. A login holds no lock and publishes its control at the end, stopped or not.
-/

namespace FrpMeo.Client.Shutdown

open Lib Lib.Transition

/-! ## The service -/

structure Snapshot (C V : Type) where
  proxyCfgs : List C
  visitorCfgs : List V
  deriving DecidableEq

structure Control (C : Type) where
  pm : Manager.State C
  connected : Bool
  /-- The worker has returned and closed `doneCh`. -/
  done : Bool

/-- `vm` is false if `svr.vm` was nil when `NewControl` read it; `Run` then panics. -/
inductive LoginPc (C V : Type) where
  | idle
  | dialing
  /-- The configurations are read; `NewControl` is next. -/
  | read (snap : Snapshot C V)
  /-- In `Run`, the worker is started; the proxy manager is updated next. -/
  | created (c : Nat) (snap : Snapshot C V) (vm : Bool)
  /-- In `Run`: the visitor manager is updated next. -/
  | ranProxies (c : Nat) (snap : Snapshot C V) (vm : Bool)
  /-- `Run` has returned; the control is published next. -/
  | ran (c : Nat)
  deriving DecidableEq

/-- Where a reload stands in `UpdateAllConfigurer`; it holds `reloadMu` until it is idle again. -/
inductive ReloadPc (C V : Type) where
  | idle
  /-- The configurations are written; `svr.ctl` is read next. -/
  | wrote (snap : Snapshot C V)
  /-- There is a control; `svr.ctl` is read again and its visitor manager is updated next. -/
  | calling (snap : Snapshot C V)
  /-- The proxy manager of `c` is updated next. -/
  | updating (c : Nat) (snap : Snapshot C V)
  deriving DecidableEq

inductive MainPc where
  | firstLogin
  | serving
  /-- The first login has failed; `stop` is next. -/
  | stopping
  /-- In `stop`: the sources are gone; `ctlMu` is taken next. -/
  | sourcesGone
  /-- In `stop`, with `ctlMu`. -/
  | locked
  /-- In `stop`: the proxy manager of `c` is closed; its session is closed next. -/
  | closing (c : Nat)
  /-- In `stop`: the visitor manager is closed next. -/
  | closingVm
  | stopped
  deriving DecidableEq

inductive KeepPc where
  | off
  | waiting
  /-- The ticker was chosen; `vm.mu` is taken next. -/
  | ticked
  | exited
  deriving DecidableEq

namespace MainPc

def sources : MainPc → Bool
  | firstLogin | serving | stopping => true
  | sourcesGone | locked | closing _ | closingVm | stopped => false

def ctlMu : MainPc → Bool
  | locked | closing _ | closingVm => true
  | firstLogin | serving | stopping | sourcesGone | stopped => false

def tearing : MainPc → Bool
  | locked | closing _ | closingVm | stopped => true
  | firstLogin | serving | stopping | sourcesGone => false

end MainPc

def LoginPc.ctl {C V : Type} : LoginPc C V → Option Nat
  | created c _ _ | ranProxies c _ _ | ran c => some c
  | idle | dialing | read _ => none

structure State (C V : Type) where
  current : Snapshot C V
  /-- `svr.ctx` is done. -/
  cancelled : Bool
  ctl : Option Nat
  nextCtl : Nat
  ctls : Nat → Control C
  vm : Visitors.State V
  keep : KeepPc
  main : MainPc
  login : LoginPc C V
  reload : ReloadPc C V

def newControl {C : Type} : Control C := ⟨Manager.init, true, false⟩

def init {C V : Type} (current : Snapshot C V) : State C V where
  current := current
  cancelled := false
  ctl := none
  nextCtl := 0
  ctls := fun _ => ⟨Manager.init, false, true⟩
  vm := Visitors.init
  keep := .off
  main := .firstLogin
  login := .idle
  reload := .idle

structure Loop where
  order : List String
  env : Nat → List Manager.Env

inductive Action (C V : Type) where
  /-- `Service.Close`. -/
  | cancel
  | beginLogin
  | dialFails
  | readCfgs
  | create (snap : Snapshot C V)
  | runProxies (c : Nat) (snap : Snapshot C V) (vm : Bool) (loop : Loop)
  | runVisitors (c : Nat) (snap : Snapshot C V) (order : List String) (ok : V → Bool)
  | publish (c : Nat) (loop : Loop)
  | loginReturns
  | connLost (c : Nat)
  /-- The dispatcher has exited; `worker` closes the proxy manager and returns. -/
  | workerEnds (c : Nat) (loop : Loop)
  /-- A round of a worker of a proxy, or of the reader. -/
  | pmRound (c : Nat) (a : Manager.Env)
  | write (snap : Snapshot C V)
  | readCtl (snap : Snapshot C V)
  | reloadVisitors (c : Nat) (snap : Snapshot C V) (order : List String) (ok : V → Bool)
  | reloadProxies (c : Nat) (snap : Snapshot C V) (loop : Loop)
  | stopSources
  | stopLock
  | stopPm (c : Nat) (loop : Loop)
  | stopNoCtl
  | stopSession (c : Nat)
  | stopVm (order : List String)
  | tick
  | keepRound (order : List String) (ok : V → Bool)
  | keepExit

section Service

variable {C V : Type}

def Enabled (s : State C V) : Action C V → Prop
  | .cancel => True
  -- `BackoffUntil` looks at the context before each attempt; later logins wait for the control
  | .beginLogin =>
      s.login = .idle ∧ s.cancelled = false ∧
        (s.main = .firstLogin ∧ s.ctl = none ∨
          s.main = .serving ∧ ∀ c ∈ s.ctl, (s.ctls c).done = true)
  | .dialFails => s.login = .dialing
  | .readCfgs => s.login = .dialing
  | .create snap => s.login = .read snap
  | .runProxies c snap vm loop =>
      s.login = .created c snap vm ∧ (s.ctls c).pm.proxies.Order loop.order
  | .runVisitors c snap order _ => s.login = .ranProxies c snap true ∧ s.vm.cfgs.Order order
  | .publish c loop =>
      s.login = .ran c ∧ s.main.ctlMu = false ∧
        ∀ old ∈ s.ctl, (s.ctls old).pm.proxies.Order loop.order
  | .loginReturns => s.main = .firstLogin ∧ s.login = .idle ∧ (s.ctl ≠ none ∨ s.cancelled = true)
  | .connLost _ => True
  | .workerEnds c loop =>
      (s.ctls c).connected = false ∧ (s.ctls c).done = false ∧
        (s.ctls c).pm.proxies.Order loop.order
  | .pmRound _ _ => True
  -- without sources a reload ends with an error
  | .write _ => s.reload = .idle ∧ s.main.sources = true
  | .readCtl snap => s.reload = .wrote snap ∧ s.main.ctlMu = false
  | .reloadVisitors c snap order _ =>
      s.reload = .calling snap ∧ s.ctl = some c ∧ s.vm.cfgs.Order order
  | .reloadProxies c snap loop =>
      s.reload = .updating c snap ∧ (s.ctls c).pm.proxies.Order loop.order
  | .stopSources => (s.main = .stopping ∨ s.main = .serving ∧ s.cancelled = true) ∧ s.reload = .idle
  | .stopLock => s.main = .sourcesGone
  | .stopPm c loop => s.main = .locked ∧ s.ctl = some c ∧ (s.ctls c).pm.proxies.Order loop.order
  | .stopNoCtl => s.main = .locked ∧ s.ctl = none
  | .stopSession c => s.main = .closing c
  | .stopVm order => s.main = .closingVm ∧ s.vm.visitors.Order order
  -- `select` may take the ticker also when `stopCh` is closed
  | .tick => s.keep = .waiting
  | .keepRound order _ => s.keep = .ticked ∧ s.vm.cfgs.Order order
  | .keepExit => s.keep = .waiting ∧ s.main = .stopped

variable (cf : Manager.Configs C) (user : String) (vcf : Visitors.Configs V)

namespace Control

def updateAll (ct : Control C) (proxyCfgs : List C) (loop : Loop) : Control C :=
  { ct with pm := Manager.updateAll cf user ct.pm proxyCfgs loop.order loop.env }

def closePm (ct : Control C) (loop : Loop) : Control C :=
  { ct with pm := Manager.close ct.pm loop.order loop.env }

def closeSession (ct : Control C) : Control C := { ct with connected := false }

end Control

namespace State

def setCtl (s : State C V) (c : Nat) (ct : Control C) : State C V :=
  { s with ctls := Function.update s.ctls c ct }

/-- `vm.UpdateAll`, which also starts `keepVisitorsRunning` when there is something to keep. -/
def updateVisitors (s : State C V) (snap : Snapshot C V) (order : List String) (ok : V → Bool) :
    State C V :=
  { s with
    vm := Visitors.updateAll vcf s.vm snap.visitorCfgs order ok
    keep := if snap.visitorCfgs ≠ [] ∧ s.keep = .off then .waiting else s.keep }

def closeCtl (s : State C V) (loop : Loop) : State C V :=
  match s.ctl with
  | none => s
  | some old => s.setCtl old ((s.ctls old).closePm loop).closeSession

end State

def next [DecidableEq V] (s : State C V) : Action C V → State C V
  | .cancel => { s with cancelled := true }
  | .beginLogin => { s with login := .dialing }
  | .dialFails => { s with login := .idle }
  | .readCfgs => { s with login := .read s.current }
  | .create snap =>
      { s.setCtl s.nextCtl newControl with
        nextCtl := s.nextCtl + 1
        login := .created s.nextCtl snap (decide (s.main ≠ .stopped)) }
  | .runProxies c snap vm loop =>
      { s.setCtl c ((s.ctls c).updateAll cf user snap.proxyCfgs loop) with
        login := .ranProxies c snap vm }
  | .runVisitors c snap order ok => { s.updateVisitors vcf snap order ok with login := .ran c }
  -- neither the context nor `stop` is asked about here
  | .publish c loop => { s.closeCtl loop with ctl := some c, login := .idle }
  | .loginReturns => { s with main := if s.ctl = none then .stopping else .serving }
  | .connLost c => s.setCtl c (s.ctls c).closeSession
  | .workerEnds c loop => s.setCtl c { (s.ctls c).closePm loop with done := true }
  | .pmRound c a => s.setCtl c { s.ctls c with pm := (s.ctls c).pm.env a }
  | .write snap => { s with current := snap, reload := .wrote snap }
  -- without a control there is nothing to update
  | .readCtl snap => { s with reload := if s.ctl = none then .idle else .calling snap }
  | .reloadVisitors c snap order ok =>
      { s.updateVisitors vcf snap order ok with reload := .updating c snap }
  | .reloadProxies c snap loop =>
      { s.setCtl c ((s.ctls c).updateAll cf user snap.proxyCfgs loop) with reload := .idle }
  | .stopSources => { s with main := .sourcesGone }
  | .stopLock => { s with main := .locked }
  | .stopPm c loop => { s.setCtl c ((s.ctls c).closePm loop) with main := .closing c }
  | .stopNoCtl => { s with main := .closingVm }
  | .stopSession c => { s.setCtl c (s.ctls c).closeSession with ctl := none, main := .closingVm }
  | .stopVm order => { s with vm := Visitors.close s.vm order, main := .stopped }
  | .tick => { s with keep := .ticked }
  | .keepRound order ok => { s with vm := Visitors.keepRound vcf s.vm order ok, keep := .waiting }
  | .keepExit => { s with keep := .exited }

instance [DecidableEq C] [DecidableEq V] (s : State C V) (a : Action C V) :
    Decidable (Enabled s a) := by
  cases a <;> dsimp only [Enabled] <;> infer_instance

def step [DecidableEq C] [DecidableEq V] : State C V → Action C V → Option (State C V) :=
  stepOf Enabled (next cf user vcf)

/-! ## What should hold -/

structure Finished (s : State C V) : Prop where
  main : s.main = .stopped
  login : s.login = .idle
  reload : s.reload = .idle
  keep : s.keep = .off ∨ s.keep = .exited
  workers : ∀ c < s.nextCtl, (s.ctls c).connected = false → (s.ctls c).done = true

structure NothingRuns (s : State C V) : Prop where
  controls : ∀ c < s.nextCtl, (s.ctls c).connected = false ∧ (s.ctls c).done = true
  wrappers : ∀ c < s.nextCtl, ∀ i x, (s.ctls c).pm.ident i = some x →
    Manager.Event.stop i ∈ (s.ctls c).pm.log
  visitors : ∀ i, s.vm.running i = false

/-- From `ctlMu` of `stop` on no login has a control in hand, reloads update the published control,
and a closed visitor manager is left alone. -/
def Orderly (s : State C V) : Action C V → Prop
  | .create _ => s.main.tearing = false
  | .stopLock => s.login.ctl = none
  | .reloadProxies c _ _ => s.ctl = some c
  | .keepRound _ _ => s.main ≠ .stopped
  | _ => True

instance (s : State C V) (a : Action C V) : Decidable (Orderly s a) := by
  cases a <;> dsimp only [Orderly] <;> infer_instance

/-! ## The invariant -/

def Control.Idle (ct : Control C) : Prop := ct.pm.proxies = .empty ∧ ct.connected = false

/-- What runs belongs to the control that is published or to the one that a login has in hand. -/
structure Inv (s : State C V) : Prop where
  good : ∀ c, Manager.Good cf user (s.ctls c).pm
  owned : ∀ c, s.ctl ≠ some c → s.login.ctl ≠ some c → (s.ctls c).Idle
  reload : s.main.sources = false → s.reload = .idle
  login : s.main.tearing = true → s.login.ctl = none
  closing : ∀ c, s.main = .closing c → s.ctl = some c ∧ (s.ctls c).pm.proxies = .empty
  gone : s.main = .closingVm ∨ s.main = .stopped → s.ctl = none
  vm : Visitors.Good vcf s.vm
  stopped : s.main = .stopped → ∀ i, s.vm.running i = false

variable {cf user vcf}
variable {s : State C V}

theorem inv_init (current : Snapshot C V) : Inv cf user vcf (init current) where
  good := fun _ => Manager.good_init
  owned := fun _ _ _ => ⟨rfl, rfl⟩
  reload := fun _ => rfl
  login := fun _ => rfl
  closing := by
    intro c h
    cases h
  gone := fun _ => rfl
  vm := Visitors.good_init
  stopped := fun _ _ => rfl

variable {loop : Loop} {c : Nat} {m : MainPc}

theorem good_close {pm : Manager.State C} (h : Manager.Good cf user pm)
    (ho : pm.proxies.Order loop.order) :
    Manager.Good cf user (Manager.close pm loop.order loop.env) := by
  rw [Manager.close_eq_updateAll_nil h ho loop.env]
  exact h.updateAll [] loop.order loop.env

theorem setCtl_self (ct : Control C) : (s.setCtl c ct).ctls c = ct :=
  Function.update_self ..

theorem setCtl_of_ne (s : State C V) {d : Nat} (hd : d ≠ c) (ct : Control C) :
    (s.setCtl c ct).ctls d = s.ctls d :=
  Function.update_of_ne hd ..

section

variable (h : Inv cf user vcf s)

include h

theorem Inv.setCtl {ct : Control C} (hgood : Manager.Good cf user ct.pm)
    (howned : s.ctl ≠ some c → s.login.ctl ≠ some c → ct.Idle)
    (hclosing : s.main = .closing c → ct.pm.proxies = .empty) :
    Inv cf user vcf (s.setCtl c ct) := by
  refine { h with good := ?_, owned := ?_, closing := ?_ }
  · intro d
    by_cases hd : d = c
    · rw [hd, setCtl_self]
      exact hgood
    · rw [setCtl_of_ne s hd]
      exact h.good d
  · intro d hctl hlogin
    by_cases hd : d = c
    · rw [hd] at hctl hlogin ⊢
      rw [setCtl_self]
      exact howned hctl hlogin
    · rw [setCtl_of_ne s hd]
      exact h.owned d hctl hlogin
  · intro d hmain
    obtain ⟨hctl, hempty⟩ := h.closing d hmain
    refine ⟨hctl, ?_⟩
    by_cases hd : d = c
    · rw [hd] at hmain ⊢
      rw [setCtl_self]
      exact hclosing hmain
    · rw [setCtl_of_ne s hd]
      exact hempty

theorem Inv.shrink {ct : Control C} (hgood : Manager.Good cf user ct.pm)
    (hempty : (s.ctls c).pm.proxies = .empty → ct.pm.proxies = .empty)
    (hconn : (s.ctls c).connected = false → ct.connected = false) :
    Inv cf user vcf (s.setCtl c ct) := by
  refine h.setCtl hgood ?_ fun hmain => hempty (h.closing c hmain).2
  intro hctl hlogin
  obtain ⟨hpm, hclosed⟩ := h.owned c hctl hlogin
  exact ⟨hempty hpm, hconn hclosed⟩

theorem Inv.closePm (ho : (s.ctls c).pm.proxies.Order loop.order) :
    Inv cf user vcf (s.setCtl c ((s.ctls c).closePm loop)) :=
  h.shrink (good_close (h.good c) ho) (fun _ => rfl) fun hc => hc

theorem Inv.closeSession (c : Nat) : Inv cf user vcf (s.setCtl c (s.ctls c).closeSession) :=
  h.shrink (h.good c) (fun hpm => hpm) fun _ => rfl

theorem Inv.updateProxies (proxyCfgs : List C) (loop : Loop)
    (howned : s.ctl = some c ∨ s.login.ctl = some c) (hmain : ∀ d, s.main ≠ .closing d) :
    Inv cf user vcf (s.setCtl c ((s.ctls c).updateAll cf user proxyCfgs loop)) := by
  refine h.setCtl ((h.good c).updateAll proxyCfgs loop.order loop.env) ?_ fun hc =>
    absurd hc (hmain c)
  intro hctl hlogin
  rcases howned with hown | hown
  · exact absurd hown hctl
  · exact absurd hown hlogin

theorem Inv.setVm {vm : Visitors.State V} (hvm : Visitors.Good vcf vm)
    (hmain : s.main ≠ .stopped) (keep : KeepPc) :
    Inv cf user vcf { s with vm := vm, keep := keep } :=
  { h with vm := hvm, stopped := fun hm => absurd hm hmain }

theorem Inv.setLogin {p : LoginPc C V} (hp : p.ctl = s.login.ctl) :
    Inv cf user vcf { s with login := p } := by
  refine { h with owned := ?_, login := ?_ }
  · intro c hctl hlogin
    exact h.owned c hctl (hp ▸ hlogin)
  · intro hmain
    exact hp.trans (h.login hmain)

theorem Inv.setReload {p : ReloadPc C V}
    (hp : s.main.sources = false → p = .idle) : Inv cf user vcf { s with reload := p } :=
  { h with reload := hp }

theorem Inv.not_tearing (hlogin : s.login.ctl = some c) : s.main.tearing = false := by
  rw [← Bool.not_eq_true]
  intro hmain
  rw [h.login hmain] at hlogin
  cases hlogin

theorem Inv.sources (hreload : s.reload ≠ .idle) : s.main.sources = true := by
  rw [← Bool.not_eq_false]
  intro hmain
  exact hreload (h.reload hmain)

omit h in
theorem MainPc.tearing_of_sources (h : m.sources = true) : m.tearing = false := by
  cases m with
  | firstLogin | serving | stopping => rfl
  | sourcesGone | locked | closing | closingVm | stopped => cases h

omit h in
theorem MainPc.ne_closing (h : m.tearing = false) (c : Nat) : m ≠ closing c := by
  intro hm
  rw [hm] at h
  cases h

omit h in
theorem MainPc.ne_stopped (h : m.tearing = false) : m ≠ stopped := by
  intro hm
  rw [hm] at h
  cases h

theorem Inv.setMain (hm : m.tearing = false)
    (hsources : m.sources = false → s.reload = .idle) : Inv cf user vcf { s with main := m } := by
  refine ⟨h.good, h.owned, hsources, ?_, ?_, ?_, h.vm, ?_⟩
  · intro htearing
    rw [hm] at htearing
    cases htearing
  · intro c hc
    exact absurd hc (MainPc.ne_closing hm c)
  · intro hgone
    rcases hgone with rfl | rfl <;> cases hm
  · intro hstopped
    exact absurd hstopped (MainPc.ne_stopped hm)

theorem Inv.create {snap : Snapshot C V} (hlogin : s.login = .read snap)
    (hmain : s.main.tearing = false) (vm : Bool) :
    Inv cf user vcf { s.setCtl s.nextCtl newControl with
      nextCtl := s.nextCtl + 1
      login := .created s.nextCtl snap vm } := by
  -- the login takes the new number, and then the control is made
  have howner : Inv cf user vcf { s with login := .created s.nextCtl snap vm } := by
    refine { h with owned := ?_, login := ?_ }
    · intro c hctl _
      apply h.owned c hctl
      rw [hlogin]
      exact Option.some_ne_none c ∘ Eq.symm
    · intro htearing
      cases htearing.symm.trans hmain
  have hnew : Inv cf user vcf
      (State.setCtl { s with login := .created s.nextCtl snap vm } s.nextCtl newControl) :=
    howner.setCtl Manager.good_init (fun _ hne => absurd rfl hne) fun hc =>
      absurd hc (MainPc.ne_closing hmain _)
  exact { hnew with }

theorem Inv.closeCtl (ho : ∀ old ∈ s.ctl, (s.ctls old).pm.proxies.Order loop.order) :
    Inv cf user vcf (s.closeCtl loop) ∧
      (∀ old, s.ctl = some old → ((s.closeCtl loop).ctls old).Idle) ∧
      (s.closeCtl loop).ctl = s.ctl ∧ (s.closeCtl loop).login = s.login ∧
      (s.closeCtl loop).main = s.main := by
  unfold State.closeCtl
  cases hctl : s.ctl with
  | none =>
    refine ⟨h, ?_, hctl, rfl, rfl⟩
    intro old hold
    cases hold
  | some old =>
    have hgood := good_close (h.good old) (ho old hctl)
    refine ⟨h.shrink hgood (fun _ => rfl) fun _ => rfl, ?_, hctl, rfl, rfl⟩
    intro old' hold
    obtain rfl := Option.some.inj hold
    rw [setCtl_self]
    exact ⟨rfl, rfl⟩

theorem Inv.publish (hlogin : s.login = .ran c)
    (ho : ∀ old ∈ s.ctl, (s.ctls old).pm.proxies.Order loop.order) :
    Inv cf user vcf { s.closeCtl loop with ctl := some c, login := .idle } := by
  have hctl : s.login.ctl = some c := by
    rw [hlogin]
    rfl
  have hmain := h.not_tearing hctl
  obtain ⟨hclosed, hidle, hctl', hlogin', hmain'⟩ := h.closeCtl ho
  generalize s.closeCtl loop = t at hclosed hidle hctl' hlogin' hmain'
  rw [← hmain'] at hmain
  refine { hclosed with owned := ?_, login := fun _ => rfl, closing := ?_, gone := ?_ }
  -- the old control loses its owner, and it is closed
  · intro d hd _
    by_cases hold : s.ctl = some d
    · exact hidle d hold
    · apply hclosed.owned d
      · rwa [hctl']
      · rw [hlogin', hctl]
        exact hd
  · intro d hd
    exact absurd hd (MainPc.ne_closing hmain d)
  · intro hgone
    rcases hgone with hgone | hgone
    · rw [show t.main = .closingVm from hgone] at hmain
      cases hmain
    · exact absurd hgone (MainPc.ne_stopped hmain)

end

/-! ## The second half of `stop` -/

section

variable (h : Inv cf user vcf s)

include h

theorem Inv.stopLock (hmain : s.main = .sourcesGone)
    (hlogin : s.login.ctl = none) : Inv cf user vcf { s with main := .locked } :=
  { h with
    reload := fun _ => h.reload (by rw [hmain]; rfl)
    login := fun _ => hlogin
    closing := by
      intro c hc
      cases hc
    gone := by
      intro hgone
      rcases hgone with hgone | hgone <;> cases hgone
    stopped := by
      intro hstopped
      cases hstopped }

theorem Inv.stopPm (hmain : s.main = .locked) (hctl : s.ctl = some c)
    (ho : (s.ctls c).pm.proxies.Order loop.order) :
    Inv cf user vcf { s.setCtl c ((s.ctls c).closePm loop) with main := .closing c } where
  good := (h.closePm ho).good
  owned := (h.closePm ho).owned
  reload := fun _ => h.reload (by rw [hmain]; rfl)
  login := fun _ => h.login (by rw [hmain]; rfl)
  closing := by
    intro d hd
    obtain rfl := MainPc.closing.inj hd
    refine ⟨hctl, ?_⟩
    rw [setCtl_self]
    rfl
  gone := by
    intro hgone
    rcases hgone with hgone | hgone <;> cases hgone
  vm := h.vm
  stopped := by
    intro hstopped
    cases hstopped

theorem Inv.stopNoCtl (hmain : s.main = .locked) (hctl : s.ctl = none) :
    Inv cf user vcf { s with main := .closingVm } :=
  { h with
    reload := fun _ => h.reload (by rw [hmain]; rfl)
    login := fun _ => h.login (by rw [hmain]; rfl)
    closing := by
      intro c hc
      cases hc
    gone := fun _ => hctl
    stopped := by
      intro hstopped
      cases hstopped }

theorem Inv.stopSession (hmain : s.main = .closing c) : Inv cf user vcf
      { s.setCtl c (s.ctls c).closeSession with ctl := none, main := .closingVm } where
  good := (h.closeSession c).good
  -- `svr.ctl` is nil from now on; its control has been closed in two steps
  owned := by
    intro d _ hlogin
    obtain ⟨hctl, hempty⟩ := h.closing c hmain
    by_cases hd : d = c
    · rw [hd, setCtl_self]
      exact ⟨hempty, rfl⟩
    · rw [setCtl_of_ne s hd]
      refine h.owned d ?_ hlogin
      rw [hctl]
      exact fun heq => hd (Option.some.inj heq).symm
  reload := fun _ => h.reload (by rw [hmain]; rfl)
  login := fun _ => h.login (by rw [hmain]; rfl)
  closing := by
    intro d hd
    cases hd
  gone := fun _ => rfl
  vm := h.vm
  stopped := by
    intro hstopped
    cases hstopped

theorem Inv.stopVm (hmain : s.main = .closingVm) {order : List String}
    (ho : s.vm.visitors.Order order) :
    Inv cf user vcf { s with vm := Visitors.close s.vm order, main := .stopped } :=
  { h with
    reload := fun _ => h.reload (by rw [hmain]; rfl)
    login := fun _ => h.login (by rw [hmain]; rfl)
    closing := by
      intro c hc
      cases hc
    gone := fun _ => h.gone (.inl hmain)
    vm := h.vm.close order
    stopped := fun _ => Visitors.running_close h.vm ho }

theorem inv_next [DecidableEq V] {a : Action C V} (hen : Enabled s a)
    (hok : Orderly s a) : Inv cf user vcf (next cf user vcf s a) := by
  cases a with
  | beginLogin =>
    obtain ⟨hlogin, -, -⟩ := hen
    exact h.setLogin (by rw [hlogin]; rfl)
  | dialFails | readCfgs => exact h.setLogin (by rw [show s.login = .dialing from hen]; rfl)
  | create snap => exact h.create hen hok _
  | runProxies c snap vm loop =>
    obtain ⟨hlogin, -⟩ := hen
    have hctl : s.login.ctl = some c := by
      rw [hlogin]
      rfl
    have hmain := h.not_tearing hctl
    refine Inv.setLogin (h.updateProxies snap.proxyCfgs loop (.inr hctl)
      (MainPc.ne_closing hmain)) ?_
    exact hctl.symm
  | runVisitors c snap order ok =>
    obtain ⟨hlogin, -⟩ := hen
    have hctl : s.login.ctl = some c := by
      rw [hlogin]
      rfl
    have hmain := h.not_tearing hctl
    refine Inv.setLogin (h.setVm (h.vm.updateAll snap.visitorCfgs order ok)
      (MainPc.ne_stopped hmain) _) ?_
    exact hctl.symm
  | publish c loop => exact h.publish hen.1 hen.2.2
  | loginReturns =>
    obtain ⟨hmain, -, -⟩ := hen
    by_cases hctl : s.ctl = none
    · rw [next, if_pos hctl]
      exact h.setMain rfl fun hs => by cases hs
    · rw [next, if_neg hctl]
      exact h.setMain rfl fun hs => by cases hs
  | connLost c => exact h.closeSession c
  | workerEnds c loop =>
    obtain ⟨-, -, ho⟩ := hen
    exact h.shrink (good_close (h.good c) ho) (fun _ => rfl) fun hc => hc
  | pmRound c a =>
    have hq := Manager.quiet_env (s.ctls c).pm a
    exact h.shrink ((h.good c).quiet hq) (fun hpm => hq.proxies.trans hpm) fun hc => hc
  | write snap =>
    obtain ⟨-, hsources⟩ := hen
    have hw : Inv cf user vcf { s with reload := .wrote snap } := h.setReload fun hs => by
      rw [hsources] at hs
      cases hs
    exact { hw with }
  | readCtl snap =>
    obtain ⟨hreload, -⟩ := hen
    have hsources := h.sources (by rw [hreload]; simp)
    exact h.setReload fun hs => by
      rw [hsources] at hs
      cases hs
  | reloadVisitors c snap order ok =>
    obtain ⟨hreload, -, -⟩ := hen
    have hsources := h.sources (by rw [hreload]; simp)
    have hmain := MainPc.tearing_of_sources hsources
    refine Inv.setReload (h.setVm (h.vm.updateAll snap.visitorCfgs order ok)
      (MainPc.ne_stopped hmain) _) ?_
    intro hs
    rw [show s.main.sources = true from hsources] at hs
    cases hs
  | reloadProxies c snap loop =>
    obtain ⟨hreload, -⟩ := hen
    have hsources := h.sources (by rw [hreload]; simp)
    have hmain := MainPc.tearing_of_sources hsources
    exact Inv.setReload (h.updateProxies snap.proxyCfgs loop (.inl hok)
      (MainPc.ne_closing hmain)) fun _ => rfl
  | stopSources => exact h.setMain rfl fun _ => hen.2
  | stopLock => exact h.stopLock hen hok
  | stopPm c loop => exact h.stopPm hen.1 hen.2.1 hen.2.2
  | stopNoCtl => exact h.stopNoCtl hen.1 hen.2
  | stopSession c => exact h.stopSession hen
  | stopVm order => exact h.stopVm hen.1 hen.2
  | keepRound order ok => exact h.setVm (h.vm.keepRound order ok) hok .waiting
  | cancel | tick | keepExit =>
    exact { h with }

end

/-- If a run was orderly, then nothing is left when everything has finished. -/
theorem shutdown_leaves_nothing [DecidableEq C] [DecidableEq V] (cf : Manager.Configs C)
    (user : String) (vcf : Visitors.Configs V) (current : Snapshot C V) (s : State C V)
    (hreach : Reach (step cf user vcf) Orderly (init current) s) (hfin : Finished s) :
    NothingRuns s := by
  have hinv : Inv cf user vcf s := by
    refine invariant_of_next (inv_init current) ?_ hreach
    intro u a hinv hok hen
    exact inv_next hinv hen hok
  have hctl : s.ctl = none := hinv.gone (.inr hfin.main)
  have hidle : ∀ c, (s.ctls c).Idle := by
    intro c
    apply hinv.owned c
    · rw [hctl]
      exact Option.some_ne_none c ∘ Eq.symm
    · rw [hfin.login]
      exact Option.some_ne_none c ∘ Eq.symm
  refine ⟨?_, ?_, hinv.stopped hfin.main⟩
  · intro c hc
    exact ⟨(hidle c).2, hfin.workers c hc (hidle c).2⟩
  · intro c _ i x hx
    -- a wrapper that is not in the map was stopped
    have hcalls := (hinv.good c).stopped i x hx (by rw [(hidle c).1]; simp)
    have hmem : Manager.Event.stop i ∈ Manager.calls i (s.ctls c).pm.log := by
      rw [hcalls]
      simp
    exact (List.mem_filter.1 hmem).1

end Service

/-! ## Runs -/

def webSnapshot : Snapshot (String × Nat) (String × Nat) := ⟨[("web", 80)], [("peer", 9000)]⟩

def pairVisitors : Visitors.Configs (String × Nat) := ⟨Prod.fst, fun c d => c == d⟩

def plainLoop (order : List String) : Loop := ⟨order, fun _ => []⟩

def loginRun : List (Action (String × Nat) (String × Nat)) :=
  [.beginLogin, .readCfgs, .create webSnapshot, .runProxies 0 webSnapshot true (plainLoop []),
    .runVisitors 0 webSnapshot [] fun _ => true, .publish 0 (plainLoop []), .loginReturns]

def orderlyRun : List (Action (String × Nat) (String × Nat)) :=
  loginRun.append [.cancel, .stopSources, .stopLock, .stopPm 0 (plainLoop ["web"]),
    .stopSession 0, .workerEnds 0 (plainLoop []), .stopVm ["peer"], .keepExit]

def orderlyEnd : State (String × Nat) (String × Nat) :=
  (run (step Manager.pairConfigs "" pairVisitors) Orderly (init webSnapshot) orderlyRun).getD
    (init webSnapshot)

theorem shutdown_leaves_nothing_orderly : NothingRuns orderlyEnd := by
  apply shutdown_leaves_nothing Manager.pairConfigs "" pairVisitors webSnapshot orderlyEnd
  · exact reach_getD_of_isSome (by decide +kernel)
  · exact ⟨by decide +kernel, by decide +kernel, by decide +kernel, by decide +kernel,
      by decide +kernel⟩

def lateRun : List (Action (String × Nat) (String × Nat)) :=
  loginRun.append [.connLost 0, .workerEnds 0 (plainLoop ["web"]), .beginLogin, .readCfgs,
    .create webSnapshot, .cancel, .stopSources, .stopLock, .stopPm 0 (plainLoop []),
    .stopSession 0, .stopVm ["peer"], .keepExit,
    .runProxies 1 webSnapshot true (plainLoop []),
    .runVisitors 1 webSnapshot ["peer"] fun _ => true, .publish 1 (plainLoop [])]

def lateEnd : State (String × Nat) (String × Nat) :=
  (run (step Manager.pairConfigs "" pairVisitors) anyAction (init webSnapshot) lateRun).getD
    (init webSnapshot)

/-- The control of that login and its proxy stay. -/
theorem login_outlives_stop :
    Reach (step Manager.pairConfigs "" pairVisitors) anyAction (init webSnapshot) lateEnd ∧
      Finished lateEnd ∧ (lateEnd.ctls 1).connected = true ∧
      (lateEnd.ctls 1).pm.proxies.get "web" = some 0 ∧
      Manager.Event.stop 0 ∉ (lateEnd.ctls 1).pm.log ∧ ¬ NothingRuns lateEnd := by
  have hconn : (lateEnd.ctls 1).connected = true := by decide +kernel
  refine ⟨reach_getD_of_isSome (by decide +kernel), ?_, hconn, by decide +kernel,
    by decide +kernel, ?_⟩
  · exact ⟨by decide +kernel, by decide +kernel, by decide +kernel, by decide +kernel,
      by decide +kernel⟩
  · intro hnothing
    have hclosed := (hnothing.controls 1 (by decide +kernel)).1
    rw [hconn] at hclosed
    cases hclosed

end FrpMeo.Client.Shutdown
