import FrpMeo.Lib.Transition
import Mathlib.Tactic

/-!
# Reloads and logins of a client

A reload writes the configurations and then brings the managers of the active control in line
(`UpdateAllConfigurer`); a login reads them, brings the managers in line and then publishes its
control (`loopLoginUntilSuccess`, `client/service.go`), with no lock in between. The visitor manager
outlives the controls; reloads do not overlap.
-/

namespace FrpMeo.Client.Reload

open Lib.Transition Function

/-! ## Configurations -/

section UpdateAll

variable {α : Type}

/-- Configurations by name; the aggregator has collected them, so the names are distinct. -/
structure Cfgs (α : Type) where
  entries : List (String × α)
  distinct : (entries.map Prod.fst).Nodup
  deriving DecidableEq

/-- `lo.KeyBy`: of several entries with one name the last one counts. -/
def keyBy (entries : List (String × α)) : String → Option α :=
  entries.foldl (fun m e => update m e.1 (some e.2)) fun _ => none

/-- The first loop of `UpdateAll`: what is not in the new configurations as it was is removed. -/
def retain [DecidableEq α] (cfgsMap m : String → Option α) (name : String) : Option α :=
  if m name = cfgsMap name then m name else none

def addMissing (entries : List (String × α)) (m : String → Option α) : String → Option α :=
  entries.foldl (fun m e => if m e.1 = none then update m e.1 (some e.2) else m) m

def updateAll [DecidableEq α] (cfgs : Cfgs α) (m : String → Option α) : String → Option α :=
  addMissing cfgs.entries (retain (keyBy cfgs.entries) m)

variable {entries : List (String × α)} {f : (String → Option α) → String × α → String → Option α}
  {name : String}

theorem foldl_of_notMem (hf : ∀ m e name, name ≠ e.1 → f m e name = m name)
    (h : name ∉ entries.map Prod.fst) {m : String → Option α} :
    entries.foldl f m name = m name := by
  induction entries generalizing m with
  | nil => rfl
  | cons e entries ih =>
    rw [List.map_cons, List.mem_cons, not_or] at h
    rw [List.foldl_cons, ih h.2, hf m e name h.1]

theorem foldl_of_mem (hf : ∀ m e name, name ≠ e.1 → f m e name = m name)
    (hd : (entries.map Prod.fst).Nodup) {cfg : α} (h : (name, cfg) ∈ entries)
    (m : String → Option α) :
    ∃ m', m' name = m name ∧ entries.foldl f m name = f m' (name, cfg) name := by
  induction entries generalizing m with
  | nil => cases h
  | cons e entries ih =>
    rw [List.map_cons, List.nodup_cons] at hd
    rw [List.foldl_cons]
    rcases List.mem_cons.1 h with rfl | h
    · exact ⟨m, rfl, foldl_of_notMem hf hd.1⟩
    · have hne : name ≠ e.1 := by
        rintro rfl
        exact hd.1 (List.mem_map.2 ⟨_, h, rfl⟩)
      obtain ⟨m', hm', hfold⟩ := ih hd.2 h (f m e)
      exact ⟨m', hm'.trans (hf m e name hne), hfold⟩

/-- Whatever was applied before, `UpdateAll` leaves exactly the new configurations. -/
theorem updateAll_eq [DecidableEq α] {cfgs : Cfgs α} {m : String → Option α} :
    updateAll cfgs m = keyBy cfgs.entries := by
  have hkey : ∀ (m : String → Option α) (e : String × α) (name : String), name ≠ e.1 →
      update m e.1 (some e.2) name = m name :=
    fun m e name hne => update_of_ne hne _ _
  have hadd : ∀ (m : String → Option α) (e : String × α) (name : String), name ≠ e.1 →
      (if m e.1 = none then update m e.1 (some e.2) else m) name = m name := by
    intro m e name hne
    split_ifs
    · exact update_of_ne hne _ _
    · rfl
  funext name
  unfold updateAll addMissing
  by_cases hname : name ∈ cfgs.entries.map Prod.fst
  · obtain ⟨⟨_, cfg⟩, hmem, rfl⟩ := List.mem_map.1 hname
    obtain ⟨_, -, hcfg⟩ := foldl_of_mem hkey cfgs.distinct hmem fun _ => none
    obtain ⟨m', hm', hfold⟩ := foldl_of_mem hadd cfgs.distinct hmem (retain (keyBy cfgs.entries) m)
    rw [update_self] at hcfg
    have hcfg' : keyBy cfgs.entries _ = some cfg := hcfg
    rw [hfold, hcfg']
    -- what was kept under this name is the new configuration
    unfold retain at hm'
    rw [hcfg'] at hm'
    split_ifs at hm' with hkept
    · rw [hkept] at hm'
      simp [hm']
    · simp [hm']
  · have hnone : keyBy cfgs.entries name = none := foldl_of_notMem hkey hname
    rw [foldl_of_notMem hadd hname, hnone]
    unfold retain
    rw [hnone]
    split_ifs with hkept
    · exact hkept
    · rfl

end UpdateAll

/-! ## The client -/

structure Snapshot (P V : Type) where
  proxyCfgs : Cfgs P
  visitorCfgs : Cfgs V
  version : Nat
  deriving DecidableEq

/-- `version` is that of the last configurations; a control that is not `alive` is closed. -/
structure Control (P : Type) where
  proxies : String → Option P
  version : Nat
  alive : Bool

inductive ReloadPc (P V : Type)
  | idle
  /-- The configurations are written; `svr.ctl` is read next. -/
  | wrote (snap : Snapshot P V)
  /-- There is a control; `svr.ctl` is read again and its visitor manager is updated next. -/
  | calling (snap : Snapshot P V)
  /-- The proxy manager of `c` is updated next. -/
  | updating (c : Nat) (snap : Snapshot P V)
  deriving DecidableEq

inductive LoginPc (P V : Type)
  | idle
  /-- The configurations are read; `NewControl` is next. -/
  | read (snap : Snapshot P V)
  /-- In `Run`: the proxy manager is updated next. -/
  | created (c : Nat) (snap : Snapshot P V)
  /-- In `Run`: the visitor manager is updated next. -/
  | ranProxies (c : Nat) (snap : Snapshot P V)
  /-- `Run` has returned; the control is published next. -/
  | ran (c : Nat)
  deriving DecidableEq

structure State (P V : Type) where
  current : Snapshot P V
  ctl : Option Nat
  nextCtl : Nat
  ctls : Nat → Control P
  vm : String → Option V
  vmVersion : Nat
  reload : ReloadPc P V
  login : LoginPc P V
  /-- An older configuration has been applied over a newer one. -/
  stale : Bool

def newControl {P : Type} : Control P := ⟨fun _ => none, 0, true⟩

def init {P V : Type} (proxyCfgs : Cfgs P) (visitorCfgs : Cfgs V) : State P V where
  current := ⟨proxyCfgs, visitorCfgs, 0⟩
  ctl := none
  nextCtl := 0
  ctls := fun _ => newControl
  vm := fun _ => none
  vmVersion := 0
  reload := .idle
  login := .idle
  stale := false

section Client

variable {P V : Type}

inductive Action (P V : Type)
  | write (proxyCfgs : Cfgs P) (visitorCfgs : Cfgs V)
  | readCtl (snap : Snapshot P V)
  | reloadVisitors (c : Nat) (snap : Snapshot P V)
  | reloadProxies (c : Nat) (snap : Snapshot P V)
  | connLost (c : Nat)
  | readCfgs
  | loginFails (snap : Snapshot P V)
  | create (snap : Snapshot P V)
  | runProxies (c : Nat) (snap : Snapshot P V)
  | runVisitors (c : Nat) (snap : Snapshot P V)
  | publish (c : Nat)

def Enabled (s : State P V) : Action P V → Prop
  | .write _ _ => s.reload = .idle
  | .readCtl snap => s.reload = .wrote snap
  | .reloadVisitors c snap => s.reload = .calling snap ∧ s.ctl = some c
  | .reloadProxies c snap => s.reload = .updating c snap
  | .connLost c => c < s.nextCtl
  -- `keepControllerWorking` waits for the active control to be done
  | .readCfgs => s.login = .idle ∧ ∀ c ∈ s.ctl, (s.ctls c).alive = false
  | .loginFails snap => s.login = .read snap
  | .create snap => s.login = .read snap
  | .runProxies c snap => s.login = .created c snap
  | .runVisitors c snap => s.login = .ranProxies c snap
  | .publish c => s.login = .ran c

section Step

variable [DecidableEq P] [DecidableEq V]

def State.updateVisitors (s : State P V) (snap : Snapshot P V) : State P V :=
  { s with
    vm := updateAll snap.visitorCfgs s.vm
    vmVersion := snap.version
    stale := s.stale || decide (snap.version < s.vmVersion) }

def State.updateProxies (s : State P V) (c : Nat) (snap : Snapshot P V) : State P V :=
  { s with
    ctls := update s.ctls c
      { s.ctls c with
        proxies := updateAll snap.proxyCfgs (s.ctls c).proxies
        version := snap.version }
    stale := s.stale || decide (snap.version < (s.ctls c).version) }

def next (s : State P V) : Action P V → State P V
  | .write proxyCfgs visitorCfgs =>
      let snap : Snapshot P V := ⟨proxyCfgs, visitorCfgs, s.current.version + 1⟩
      { s with current := snap, reload := .wrote snap }
  -- without a control there is nothing to update
  | .readCtl snap => { s with reload := if s.ctl = none then .idle else .calling snap }
  | .reloadVisitors c snap => { s.updateVisitors snap with reload := .updating c snap }
  | .reloadProxies c snap => { s.updateProxies c snap with reload := .idle }
  | .connLost c =>
      { s with
        ctls := update s.ctls c
          { s.ctls c with proxies := fun _ => none, alive := false } }
  | .readCfgs => { s with login := .read s.current }
  | .loginFails _ => { s with login := .idle }
  | .create snap =>
      { s with
        nextCtl := s.nextCtl + 1
        ctls := update s.ctls s.nextCtl newControl
        login := .created s.nextCtl snap }
  | .runProxies c snap => { s.updateProxies c snap with login := .ranProxies c snap }
  | .runVisitors c snap => { s.updateVisitors snap with login := .ran c }
  | .publish c => { s with ctl := some c, login := .idle }

instance (s : State P V) (a : Action P V) : Decidable (Enabled s a) := by
  cases a <;> dsimp only [Enabled] <;> infer_instance

def step : State P V → Action P V → Option (State P V) := stepOf Enabled next

end Step

/-! ## What should hold -/

/-- The managers have the current configurations, and no older one went over a newer. -/
structure Applied (s : State P V) : Prop where
  managers : s.reload = .idle → s.login = .idle → ∀ c, s.ctl = some c → (s.ctls c).alive = true →
    (s.ctls c).proxies = keyBy s.current.proxyCfgs.entries ∧
      s.vm = keyBy s.current.visitorCfgs.entries
  notStale : s.stale = false

/-- A reload writes while no login stands between its reading and its publication. -/
def WritesApart (s : State P V) : Action P V → Prop
  | .write _ _ => s.login = .idle
  | _ => True

instance [DecidableEq P] [DecidableEq V] (s : State P V) (a : Action P V) :
    Decidable (WritesApart s a) := by
  cases a <;> dsimp only [WritesApart] <;> infer_instance

/-! ## The invariant -/

def ReloadPc.snap : ReloadPc P V → Option (Snapshot P V)
  | .idle => none
  | .wrote snap | .calling snap | .updating _ snap => some snap

def LoginPc.snap : LoginPc P V → Option (Snapshot P V)
  | .read snap | .created _ snap | .ranProxies _ snap => some snap
  | .idle | .ran _ => none

def ReloadPc.beforeVisitors : ReloadPc P V → Bool
  | .wrote _ | .calling _ => true
  | .idle | .updating _ _ => false

def ReloadPc.beforeProxies (c : Nat) : ReloadPc P V → Prop
  | .wrote _ | .calling _ => True
  | .updating d _ => d = c
  | .idle => False

def LoginPc.ranOn : LoginPc P V → Option Nat
  | .ranProxies c _ | .ran c => some c
  | .idle | .read _ | .created _ _ => none

def LoginPc.ctl : LoginPc P V → Option Nat
  | .created c _ | .ranProxies c _ | .ran c => some c
  | .idle | .read _ => none

structure Inv (s : State P V) : Prop where
  reload : ∀ snap ∈ s.reload.snap, snap = s.current
  login : ∀ snap ∈ s.login.snap, snap = s.current
  vmVersion : s.vmVersion ≤ s.current.version
  versions : ∀ c, (s.ctls c).version ≤ s.current.version
  active : ∀ c, s.ctl = some c → (s.ctls c).alive = true → s.reload.beforeProxies c ∨
    (s.ctls c).proxies = keyBy s.current.proxyCfgs.entries
  visitors : ∀ c, s.ctl = some c → s.reload.beforeVisitors = true ∨
    s.vm = keyBy s.current.visitorCfgs.entries
  ranProxies : ∀ c ∈ s.login.ranOn, (s.ctls c).alive = true →
    (s.ctls c).proxies = keyBy s.current.proxyCfgs.entries
  ran : ∀ c, s.login = .ran c → s.vm = keyBy s.current.visitorCfgs.entries
  ctl : ∀ c, s.ctl = some c → c < s.nextCtl
  loginCtl : ∀ c ∈ s.login.ctl, c < s.nextCtl
  notStale : s.stale = false

theorem inv_init (proxyCfgs : Cfgs P) (visitorCfgs : Cfgs V) :
    Inv (init proxyCfgs visitorCfgs) where
  reload := nofun
  login := nofun
  vmVersion := Nat.le_refl _
  versions := fun _ => Nat.le_refl _
  active := nofun
  visitors := nofun
  ranProxies := nofun
  ran := nofun
  ctl := nofun
  loginCtl := nofun
  notStale := rfl

theorem Inv.applied {s : State P V} (h : Inv s) : Applied s where
  managers := by
    intro hreload hlogin c hctl halive
    constructor
    · rcases h.active c hctl halive with hpending | happlied
      · rw [hreload] at hpending
        cases hpending
      · exact happlied
    · rcases h.visitors c hctl with hpending | happlied
      · rw [hreload] at hpending
        cases hpending
      · exact happlied
  notStale := h.notStale

section Steps

variable {s : State P V}

theorem Inv.stale_visitors (h : Inv s) :
    (s.stale || decide (s.current.version < s.vmVersion)) = false := by
  rw [h.notStale, Bool.false_or, decide_eq_false_iff_not]
  exact Nat.not_lt.2 h.vmVersion

theorem Inv.stale_proxies (h : Inv s) {c : Nat} :
    (s.stale || decide (s.current.version < (s.ctls c).version)) = false := by
  rw [h.notStale, Bool.false_or, decide_eq_false_iff_not]
  exact Nat.not_lt.2 (h.versions c)

theorem Inv.updateVisitors [DecidableEq V] (h : Inv s) : Inv (s.updateVisitors s.current) := by
  have hvm : (s.updateVisitors s.current).vm = keyBy s.current.visitorCfgs.entries :=
    updateAll_eq
  exact { h with
    vmVersion := Nat.le_refl _
    visitors := fun _ _ => .inr hvm
    ran := fun _ _ => hvm
    notStale := h.stale_visitors }

theorem proxies_updateProxies [DecidableEq P] {c : Nat} {snap : Snapshot P V} :
    ((s.updateProxies c snap).ctls c).proxies = keyBy snap.proxyCfgs.entries := by
  simp only [State.updateProxies, update_self]
  exact updateAll_eq

theorem Inv.setLogin (h : Inv s) {p : LoginPc P V} (hsnap : ∀ snap ∈ p.snap, snap = s.current)
    (hctl : p.ctl = none) (hran : p.ranOn = none := by rfl)
    (hp : ∀ c, p ≠ .ran c := by rintro _ ⟨⟩) : Inv { s with login := p } := by
  refine { h with
    login := hsnap, ranProxies := ?_, ran := fun c hc => absurd hc (hp c), loginCtl := ?_ }
  · rw [hran]
    nofun
  · rw [hctl]
    nofun

theorem Inv.updateProxies [DecidableEq P] (h : Inv s) (c : Nat) :
    Inv (s.updateProxies c s.current) := by
  have hother : ∀ d, d ≠ c → (s.updateProxies c s.current).ctls d = s.ctls d :=
    fun d hd => update_of_ne hd _ _
  refine { h with versions := ?_, active := ?_, ranProxies := ?_, notStale := h.stale_proxies }
  · exact (forall_update_iff s.ctls (p := fun _ k => k.version ≤ s.current.version)).2
      ⟨Nat.le_refl _, fun d _ => h.versions d⟩
  · intro d hd halive
    by_cases hdc : d = c
    · subst hdc
      exact .inr (proxies_updateProxies)
    · rw [hother d hdc] at halive ⊢
      exact h.active d hd halive
  · intro d hd halive
    by_cases hdc : d = c
    · subst hdc
      exact proxies_updateProxies
    · rw [hother d hdc] at halive ⊢
      exact h.ranProxies d hd halive

variable [DecidableEq P] [DecidableEq V]

theorem Inv.write (h : Inv s) (hlogin : s.login = .idle) (proxyCfgs : Cfgs P)
    (visitorCfgs : Cfgs V) : Inv (next s (.write proxyCfgs visitorCfgs)) := by
  have hidle : (next s (.write proxyCfgs visitorCfgs)).login = .idle := hlogin
  refine ⟨?_, ?_, Nat.le_succ_of_le h.vmVersion, fun c => Nat.le_succ_of_le (h.versions c),
    fun _ _ _ => .inl trivial, fun _ _ => .inl rfl, ?_, ?_, h.ctl, h.loginCtl, h.notStale⟩
  · rintro _ ⟨⟩
    rfl
  · rw [hidle]
    nofun
  · rw [hidle]
    nofun
  · rw [hidle]
    nofun

variable {snap : Snapshot P V} {c : Nat}

section

variable (h : Inv s)

include h

theorem Inv.readCtl (hreload : s.reload = .wrote snap) : Inv (next s (.readCtl snap)) := by
  have hsnap : snap = s.current := h.reload snap (by rw [hreload]; rfl)
  cases hctl : s.ctl with
  | none =>
    simp only [next, hctl, if_true]
    refine { h with reload := ?_, active := ?_, visitors := ?_, ctl := ?_ }
    all_goals rintro _ ⟨⟩
  | some d =>
    simp only [next, hctl, reduceCtorEq, if_false]
    refine { h with
      reload := ?_
      active := fun _ _ _ => .inl trivial
      visitors := fun _ _ => .inl rfl
      ctl := ?_ }
    · rintro _ ⟨⟩
      exact hsnap
    · rintro _ ⟨⟩
      exact h.ctl d hctl

theorem Inv.reloadVisitors (hreload : s.reload = .calling snap) (hctl : s.ctl = some c) :
    Inv (next s (.reloadVisitors c snap)) := by
  obtain rfl : snap = s.current := h.reload snap (by rw [hreload]; rfl)
  have hu := h.updateVisitors
  refine { hu with reload := ?_, active := ?_, visitors := fun _ _ => .inr (updateAll_eq) }
  · rintro _ ⟨⟩
    rfl
  · -- the control that the reload goes on with is the active one
    intro d hd _
    have hd' : s.ctl = some d := hd
    rw [hctl] at hd'
    exact .inl (Option.some.inj hd')

theorem Inv.reloadProxies (hreload : s.reload = .updating c snap) :
    Inv (next s (.reloadProxies c snap)) := by
  obtain rfl : snap = s.current := h.reload snap (by rw [hreload]; rfl)
  have hu := h.updateProxies c
  refine { hu with reload := ?_, active := ?_, visitors := ?_ }
  · nofun
  · intro d hd halive
    rcases hu.active d hd halive with hpending | happlied
    · have hpending' : s.reload.beforeProxies d := hpending
      rw [hreload] at hpending'
      obtain rfl : c = d := hpending'
      exact .inr (proxies_updateProxies)
    · exact .inr happlied
  · intro d hd
    rcases hu.visitors d hd with hpending | happlied
    · have hpending' : s.reload.beforeVisitors = true := hpending
      rw [hreload] at hpending'
      cases hpending'
    · exact .inr happlied

theorem Inv.connLost (c : Nat) : Inv (next s (.connLost c)) := by
  have hother : ∀ d, ((next s (.connLost c)).ctls d).alive = true →
      (next s (.connLost c)).ctls d = s.ctls d := by
    intro d halive
    by_cases hd : d = c
    · subst hd
      simp [next] at halive
    · exact update_of_ne hd _ _
  refine { h with versions := ?_, active := ?_, ranProxies := ?_ }
  · exact (forall_update_iff s.ctls (p := fun _ k => k.version ≤ s.current.version)).2
      ⟨h.versions c, fun d _ => h.versions d⟩
  · intro d hd halive
    have hold := hother d halive
    rw [hold] at halive ⊢
    exact h.active d hd halive
  · intro d hd halive
    have hold := hother d halive
    rw [hold] at halive ⊢
    exact h.ranProxies d hd halive

theorem Inv.create (hlogin : s.login = .read snap) : Inv (next s (.create snap)) := by
  refine ⟨h.reload, ?_, h.vmVersion, ?_, ?_, h.visitors, ?_, ?_, ?_, ?_, h.notStale⟩
  · rintro _ ⟨⟩
    exact h.login snap (by rw [hlogin]; rfl)
  · exact (forall_update_iff s.ctls (p := fun _ k => k.version ≤ s.current.version)).2
      ⟨Nat.zero_le _, fun d _ => h.versions d⟩
  · intro c hc halive
    have hold : (next s (.create snap)).ctls c = s.ctls c :=
      update_of_ne (Nat.ne_of_lt (h.ctl c hc)) _ _
    rw [hold] at halive ⊢
    exact h.active c hc halive
  · nofun
  · nofun
  · exact fun c hc => Nat.lt_succ_of_lt (h.ctl c hc)
  · rintro _ ⟨⟩
    exact Nat.lt_succ_self _

theorem Inv.runProxies (hlogin : s.login = .created c snap) :
    Inv (next s (.runProxies c snap)) := by
  obtain rfl : snap = s.current := h.login snap (by rw [hlogin]; rfl)
  have hu := h.updateProxies c
  refine { hu with login := ?_, ranProxies := ?_, ran := ?_, loginCtl := ?_ }
  · rintro _ ⟨⟩
    rfl
  · rintro _ ⟨⟩ _
    exact proxies_updateProxies
  · nofun
  · rintro _ ⟨⟩
    exact h.loginCtl c (by rw [hlogin]; rfl)

theorem Inv.runVisitors (hlogin : s.login = .ranProxies c snap) :
    Inv (next s (.runVisitors c snap)) := by
  obtain rfl : snap = s.current := h.login snap (by rw [hlogin]; rfl)
  have hu := h.updateVisitors
  refine { hu with
    login := ?_, ranProxies := ?_, ran := fun _ _ => updateAll_eq, loginCtl := ?_ }
  · nofun
  · rintro _ ⟨⟩
    exact h.ranProxies c (by rw [hlogin]; rfl)
  · rintro _ ⟨⟩
    exact h.loginCtl c (by rw [hlogin]; rfl)

theorem Inv.publish (hlogin : s.login = .ran c) : Inv (next s (.publish c)) := by
  refine ⟨h.reload, ?_, h.vmVersion, h.versions, ?_, fun _ _ => .inr (h.ran c hlogin), ?_, ?_, ?_,
    ?_, h.notStale⟩
  · nofun
  · rintro _ ⟨⟩ halive
    exact .inr (h.ranProxies c (by rw [hlogin]; rfl) halive)
  · nofun
  · nofun
  · rintro _ ⟨⟩
    exact h.loginCtl c (by rw [hlogin]; rfl)
  · nofun

theorem inv_next {a : Action P V} (hen : Enabled s a) (hok : WritesApart s a) : Inv (next s a) := by
  cases a with
  | write proxyCfgs visitorCfgs => exact h.write hok proxyCfgs visitorCfgs
  | readCtl snap => exact h.readCtl hen
  | reloadVisitors c snap => exact h.reloadVisitors hen.1 hen.2
  | reloadProxies c snap => exact h.reloadProxies hen
  | connLost c => exact h.connLost c
  | readCfgs => exact h.setLogin (by rintro _ ⟨⟩; rfl) rfl
  | loginFails snap => exact h.setLogin nofun rfl
  | create snap => exact h.create hen
  | runProxies c snap => exact h.runProxies hen
  | runVisitors c snap => exact h.runVisitors hen
  | publish c => exact h.publish hen

end

theorem reload_applied (proxyCfgs : Cfgs P) (visitorCfgs : Cfgs V) (s : State P V)
    (hreach : Reach step WritesApart (init proxyCfgs visitorCfgs) s) : Applied s := by
  have hinv : Inv s := by
    refine invariant_of_next (inv_init proxyCfgs visitorCfgs) ?_ hreach
    intro u a hinv hok hen
    exact inv_next hinv hen hok
  exact hinv.applied

end Steps

end Client

/-! ## Runs -/

def single (cfg : Nat) : Cfgs Nat := ⟨[("a", cfg)], List.nodup_singleton "a"⟩

def snapshot (cfg version : Nat) : Snapshot Nat Nat := ⟨single cfg, single cfg, version⟩

def apartRun : List (Action Nat Nat) :=
  [.readCfgs, .create (snapshot 1 0), .runProxies 0 (snapshot 1 0), .runVisitors 0 (snapshot 1 0),
    .publish 0, .write (single 2) (single 2), .readCtl (snapshot 2 1),
    .reloadVisitors 0 (snapshot 2 1), .reloadProxies 0 (snapshot 2 1)]

theorem reload_applied_apartRun :
    let s := (run step WritesApart (init (single 1) (single 1)) apartRun).getD
      (init (single 1) (single 1))
    (s.ctls 0).proxies = keyBy (single 2).entries ∧ s.vm = keyBy (single 2).entries := by
  intro s
  have hreach : Reach step WritesApart (init (single 1) (single 1)) s :=
    reach_getD_of_isSome (by decide +kernel)
  have hcurrent : s.current = snapshot 2 1 := by decide +kernel
  have happlied := (reload_applied (single 1) (single 1) s hreach).managers (by decide +kernel)
    (by decide +kernel) 0 (by decide +kernel) (by decide +kernel)
  rwa [hcurrent] at happlied

def lostRun : List (Action Nat Nat) :=
  [.readCfgs, .write (single 2) (single 2), .readCtl (snapshot 2 1), .create (snapshot 1 0),
    .runProxies 0 (snapshot 1 0), .runVisitors 0 (snapshot 1 0), .publish 0]

def staleRun : List (Action Nat Nat) :=
  [.readCfgs, .create (snapshot 1 0), .runProxies 0 (snapshot 1 0), .runVisitors 0 (snapshot 1 0),
    .publish 0, .connLost 0, .readCfgs, .write (single 2) (single 2), .readCtl (snapshot 2 1),
    .reloadVisitors 0 (snapshot 2 1), .reloadProxies 0 (snapshot 2 1), .create (snapshot 1 0),
    .runProxies 1 (snapshot 1 0), .runVisitors 1 (snapshot 1 0), .publish 1]

theorem reload_lost : (∃ s, Reach step anyAction (init (single 1) (single 1)) s ∧ s.reload = .idle ∧
      s.login = .idle ∧ s.ctl = some 0 ∧ (s.ctls 0).alive = true ∧
      (s.ctls 0).proxies "a" = some 1 ∧ keyBy s.current.proxyCfgs.entries "a" = some 2 ∧
      ¬ Applied s) ∧
    ∃ s, Reach step anyAction (init (single 1) (single 1)) s ∧ s.reload = .idle ∧
      s.login = .idle ∧ s.vm "a" = some 1 ∧ keyBy s.current.visitorCfgs.entries "a" = some 2 ∧
      ¬ Applied s := by
  constructor
  · have hsome : (run step anyAction (init (single 1) (single 1)) lostRun).isSome = true := by
      decide +kernel
    refine ⟨_, reach_getD_of_isSome hsome, by decide +kernel,
      by decide +kernel, by decide +kernel, by decide +kernel, by decide +kernel,
      by decide +kernel, ?_⟩
    intro happlied
    have hproxies := (happlied.managers (by decide +kernel) (by decide +kernel) 0
      (by decide +kernel) (by decide +kernel)).1
    have hname := congrFun hproxies "a"
    revert hname
    decide +kernel
  · have hsome : (run step anyAction (init (single 1) (single 1)) staleRun).isSome = true := by
      decide +kernel
    refine ⟨_, reach_getD_of_isSome hsome, by decide +kernel,
      by decide +kernel, by decide +kernel, by decide +kernel, ?_⟩
    intro happlied
    have hstale := happlied.notStale
    revert hstale
    decide +kernel

end FrpMeo.Client.Reload
