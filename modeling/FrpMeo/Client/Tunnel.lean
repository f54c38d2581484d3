import FrpMeo.Lib.Transition
import Mathlib.Logic.Function.Basic

/-!
# The tunnel of an xtcp visitor

An xtcp visitor (`client/visitor/xtcp.go`) has one tunnel session at a time. A worker punches holes
and installs a session for each (`Init`), which does not close the one it replaces nor look whether
the visitor was closed; where `getTunnelConn` cannot open a connection it closes the installed
session.
-/

namespace FrpMeo.Client.Tunnel

open Lib.Transition

inductive Kind where
  | kcp
  | quic

/-- What the `k`-th hole takes: the session, the punched socket, and the one that KCP dials. -/
inductive Res where
  | session (k : Nat)
  | listenConn (k : Nat)
  | lConn (k : Nat)
  deriving DecidableEq

def Kind.fields : Kind → Nat → List Res
  | .kcp, k => [.session k, .lConn k]
  | .quic, k => [.session k, .listenConn k]

inductive Worker where
  | idle
  | punching (k : Nat)
  /-- In `Init`, before the lock. -/
  | dialled (k : Nat)
  | sleeping
  | stopped
  deriving DecidableEq

def Worker.hands (kind : Kind) : Worker → List Res
  | .punching k => [.listenConn k]
  | .dialled k => kind.fields k
  | _ => []

structure State where
  current : Option Nat
  worker : Worker
  holes : Nat
  isOpen : Res → Bool
  /-- Callers between a failed `OpenConn` and `Close`, each with the session that has failed. -/
  late : List (Option Nat)
  /-- Callers about to send to `startTunnelCh`, which has no buffer. -/
  starting : Nat
  /-- `keepTunnelOpenWorker` is at its first send, which blocks. -/
  first : Bool
  /-- The sessions that callers have closed, each after the session that had failed for it. -/
  closings : List (Option Nat × Nat)
  closed : Bool

def init (keepTunnelOpen : Bool) : State :=
  ⟨none, .idle, 0, fun _ => false, [], 0, keepTunnelOpen, [], false⟩

variable (kind : Kind)

def State.held (s : State) : List Res := s.current.elim [] kind.fields

def State.closeSession (s : State) : State :=
  { s with current := none, isOpen := fun r => s.isOpen r && decide (r ∉ s.held kind) }

inductive Action where
  | fail
  | closeLate (j : Nat)
  | start
  | startFirst
  /-- The worker is not receiving. -/
  | skip
  /-- No hole, or an error of `Init`. -/
  | abort
  | dial
  | install
  | wake
  | close
  | stop

def Enabled (s : State) : Action → Prop
  | .fail | .close => True
  | .closeLate j => j < s.late.length
  | .start => 0 < s.starting ∧ s.worker = .idle
  | .startFirst => s.first = true ∧ s.worker = .idle
  | .skip => 0 < s.starting ∧ s.worker ≠ .idle
  | .abort | .dial => ∃ k < s.holes, s.worker = .punching k
  | .install => ∃ k < s.holes, s.worker = .dialled k
  | .wake => s.worker = .sleeping
  | .stop => s.worker = .idle ∧ s.closed = true

instance (s : State) (a : Action) : Decidable (Enabled s a) := by
  cases a <;> dsimp only [Enabled] <;> infer_instance

def State.punch (s : State) : State :=
  { s with
    worker := .punching s.holes
    holes := s.holes + 1
    isOpen := fun r => s.isOpen r || r = .listenConn s.holes }

def next (s : State) : Action → State
  | .fail => { s with late := s.late ++ [s.current] }
  | .closeLate j =>
      { s.closeSession kind with
        late := s.late.eraseIdx j
        starting := s.starting + 1
        closings := s.current.elim s.closings fun c => s.closings ++ [(s.late.getD j none, c)] }
  | .start => { s.punch with starting := s.starting - 1 }
  | .startFirst => { s.punch with first := false }
  | .skip => { s with starting := s.starting - 1 }
  | .abort =>
      { s with
        worker := .sleeping
        isOpen := fun r => s.isOpen r && decide (r ∉ s.worker.hands kind) }
  | .dial =>
      match s.worker with
      | .punching k =>
          { s with
            worker := .dialled k
            isOpen := fun r =>
              decide (r ∈ kind.fields k) || (s.isOpen r && decide (r ≠ .listenConn k)) }
      | _ => s
  | .install =>
      match s.worker with
      | .dialled k => { s with worker := .sleeping, current := some k }
      | _ => s
  | .wake => { s with worker := .idle }
  | .close => { s.closeSession kind with closed := true }
  | .stop => { s with worker := .stopped }

def step : State → Action → Option State := stepOf Enabled (next kind)

/-! ## Leaks -/

/-- A session is installed when there is none and the visitor is open. -/
def InstallsFree (s : State) : Action → Prop
  | .install => s.current = none ∧ s.closed = false
  | _ => True

instance (s : State) (a : Action) : Decidable (InstallsFree s a) := by
  cases a <;> dsimp only [InstallsFree] <;> infer_instance

/-- What is open is current or in the worker's hands, and nothing is at the end. -/
structure NoLeak (s : State) : Prop where
  owned : ∀ r, s.isOpen r = true → r ∈ s.held kind ∨ r ∈ s.worker.hands kind
  ended : s.closed = true → s.worker = .stopped → ∀ r, s.isOpen r = false

structure Owned (s : State) : Prop where
  owned : ∀ r, s.isOpen r = true → r ∈ s.held kind ∨ r ∈ s.worker.hands kind
  closed : s.closed = true → s.current = none

variable {kind} {s : State} {a : Action}

theorem Owned.closeSession (h : Owned kind s) : Owned kind (s.closeSession kind) := by
  refine ⟨fun r hr => ?_, fun _ => rfl⟩
  simp only [State.closeSession, Bool.and_eq_true, decide_eq_true_eq] at hr
  exact .inr ((h.owned r hr.1).resolve_left hr.2)

theorem Owned.punch (h : Owned kind s) (hw : s.worker = .idle) : Owned kind s.punch := by
  refine ⟨fun r hr => ?_, h.closed⟩
  simp only [State.punch, Bool.or_eq_true, decide_eq_true_eq] at hr
  rcases hr with hr | rfl
  · refine .inl ((h.owned r hr).resolve_right ?_)
    simp [hw, Worker.hands]
  · exact .inr (List.mem_singleton.2 rfl)

theorem owned_next (h : Owned kind s) (hok : InstallsFree s a) (hen : Enabled s a) :
    Owned kind (next kind s a) := by
  cases a with
  | fail | skip => exact ⟨h.owned, h.closed⟩
  | closeLate j => exact ⟨h.closeSession.owned, h.closeSession.closed⟩
  | close => exact ⟨h.closeSession.owned, fun _ => rfl⟩
  | start | startFirst => exact ⟨(h.punch hen.2).owned, (h.punch hen.2).closed⟩
  | abort =>
    refine ⟨fun r hr => ?_, h.closed⟩
    simp only [next, Bool.and_eq_true, decide_eq_true_eq] at hr
    exact .inl ((h.owned r hr.1).resolve_right hr.2)
  | dial =>
    obtain ⟨k, -, hw⟩ := hen
    simp only [next, hw]
    refine ⟨fun r hr => ?_, h.closed⟩
    simp only [Bool.or_eq_true, Bool.and_eq_true, decide_eq_true_eq] at hr
    rcases hr with hr | ⟨hr, hne⟩
    · exact .inr hr
    · refine .inl ((h.owned r hr).resolve_right ?_)
      simpa [hw, Worker.hands] using hne
  | install =>
    obtain ⟨k, -, hw⟩ := hen
    simp only [next, hw]
    refine ⟨fun r hr => .inl ?_, fun hc => ?_⟩
    · have := h.owned r hr
      simpa [State.held, hok.1, hw, Worker.hands] using this
    · have hopen := hok.2
      simp_all
  | wake | stop =>
    refine ⟨fun r hr => ?_, h.closed⟩
    have := h.owned r hr
    simp_all [Enabled, next, Worker.hands, State.held]

theorem Owned.noLeak (h : Owned kind s) : NoLeak kind s := by
  refine ⟨h.owned, fun hc hw r => ?_⟩
  by_contra hr
  have := h.owned r (by simpa using hr)
  simp [State.held, h.closed hc, hw, Worker.hands] at this

/-- If sessions are installed only where there is none and the visitor is open, none leaks. -/
theorem noLeak_of_installs_free (kind : Kind) (keepTunnelOpen : Bool)
    (h : Reach (step kind) InstallsFree (init keepTunnelOpen) s) : NoLeak kind s := by
  have hinit : Owned kind (init keepTunnelOpen) := ⟨nofun, fun _ => rfl⟩
  exact (invariant_of_next hinit (fun _ _ hs hok hen => owned_next hs hok hen) h).noLeak

def upToDialled : List Action := [.fail, .closeLate 0, .start, .dial]

theorem noLeak_of_installs_free_close : NoLeak .kcp ((run (step .kcp) InstallsFree (init false)
      (upToDialled ++ [.install, .close, .wake, .stop])).getD (init false)) :=
  noLeak_of_installs_free .kcp false (reach_getD_of_isSome (by decide +kernel))

/-- A session is installed after `Close`, and one over another. -/
theorem late_and_replaced_sessions_leak :
    (∃ s, Reach (step .quic) anyAction (init false) s ∧ s.closed = true ∧ s.worker = .stopped ∧
      s.late = [] ∧ s.isOpen (.session 0) = true) ∧
    ∃ s, Reach (step .kcp) anyAction (init true) s ∧ s.current = some 1 ∧
      s.isOpen (.session 0) = true :=
  ⟨⟨(run (step .quic) anyAction (init false) (upToDialled ++ [.close, .install, .wake, .stop])).getD
      (init false), reach_getD_of_isSome (by decide +kernel), by decide +kernel, by decide +kernel,
      by decide +kernel, by decide +kernel⟩,
    (run (step .kcp) anyAction (init true)
      (upToDialled ++ [.install, .wake, .startFirst, .dial, .install])).getD (init true),
      reach_getD_of_isSome (by decide +kernel), by decide +kernel, by decide +kernel⟩

/-! ## Late callers -/

/-- A session is installed when no caller is about to close what has failed before. -/
def InstallsSettled (s : State) : Action → Prop
  | .install => s.late = []
  | _ => True

instance (s : State) (a : Action) : Decidable (InstallsSettled s a) := by
  cases a <;> dsimp only [InstallsSettled] <;> infer_instance

structure Aimed (s : State) : Prop where
  late : ∀ f ∈ s.late, s.current = none ∨ s.current = f
  closings : ∀ p ∈ s.closings, p.1 = some p.2

theorem aimed_next (h : Aimed s) (hok : InstallsSettled s a) (hen : Enabled s a) :
    Aimed (next kind s a) := by
  obtain ⟨hlate, hclosings⟩ := h
  cases a with
  | fail =>
    refine ⟨fun f hf => ?_, hclosings⟩
    rcases List.mem_append.1 hf with hf | hf
    · exact hlate f hf
    · exact .inr (List.mem_singleton.1 hf).symm
  | closeLate j =>
    refine ⟨fun _ _ => .inl rfl, fun p hp => ?_⟩
    have hmem : s.late.getD j none ∈ s.late := by
      rw [List.getD_eq_getElem?_getD, List.getElem?_eq_getElem hen]
      exact List.getElem_mem hen
    have hj := hlate _ hmem
    cases hc : s.current with
    | none =>
      simp only [next, hc] at hp
      exact hclosings p hp
    | some c =>
      simp only [next, hc, Option.elim_some, List.mem_append, List.mem_singleton] at hp
      rcases hp with hp | rfl
      · exact hclosings p hp
      · simpa [hc, eq_comm] using hj
  | close => exact ⟨fun _ _ => .inl rfl, hclosings⟩
  | install =>
    obtain ⟨k, -, hw⟩ := hen
    have hnil : s.late = [] := hok
    simp only [next, hw]
    exact ⟨by simp [hnil], hclosings⟩
  | dial =>
    obtain ⟨k, -, hw⟩ := hen
    simp only [next, hw]
    exact ⟨hlate, hclosings⟩
  | start | startFirst | skip | abort | wake | stop => exact ⟨hlate, hclosings⟩

/-- If no session is installed between the failure of a caller and its `Close`, callers close the
sessions that have failed and no others. -/
theorem closes_failed_of_settled (kind : Kind) (keepTunnelOpen : Bool)
    (h : Reach (step kind) InstallsSettled (init keepTunnelOpen) s) :
    ∀ p ∈ s.closings, p.1 = some p.2 := by
  have hinit : Aimed (init keepTunnelOpen) := ⟨by simp [init], by simp [init]⟩
  exact (invariant_of_next hinit (fun _ _ hs hok hen => aimed_next hs hok hen) h).closings

def settledRun : List Action := upToDialled ++ [.install, .fail, .fail, .closeLate 1, .closeLate 0]

theorem closes_failed_of_settled_two :
    ((run (step .kcp) InstallsSettled (init false) settledRun).getD (init false)).closings =
      [(some 0, 0)] ∧ ∀ p ∈ ((run (step .kcp) InstallsSettled (init false) settledRun).getD
        (init false)).closings, p.1 = some p.2 :=
  ⟨by decide +kernel,
    closes_failed_of_settled .kcp false (reach_getD_of_isSome (by decide +kernel))⟩

/-- The second caller closes the session made for the first. -/
theorem late_caller_closes_new_session :
    ∃ s, Reach (step .quic) anyAction (init false) s ∧ s.closings = [(none, 0)] ∧
      s.current = none :=
  ⟨(run (step .quic) anyAction (init false)
      ([.fail] ++ upToDialled ++ [.install, .closeLate 0])).getD (init false),
    reach_getD_of_isSome (by decide +kernel), by decide +kernel, by decide +kernel⟩

end FrpMeo.Client.Tunnel
