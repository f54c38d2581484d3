import FrpMeo.Lib.Transition
import Mathlib.Logic.Function.Basic

/-!
# Work connections of a client's udp and pe proxies

`InWorkConn` (`client/proxy/udp.go`, `pe.go`) closes the installed work connection and installs the
new one in a second critical section. Another call may install its own in between, which is then
overwritten and never closed, or `Close` may come.
-/

namespace FrpMeo.Client.WorkConns

open Lib.Transition Function

inductive Pc where
  | absent
  /-- The installed connection is closed next. -/
  | arrived
  /-- `wrapWorkConn` is next. -/
  | wrapping
  /-- The connection is installed next. -/
  | installing
  | returned
  deriving DecidableEq

/-- Call `k` brings the work connection `k`, and makes the channels `k` when it installs it. -/
structure State where
  workConn : Option Nat
  closed : Bool
  call : Nat → Pc
  isOpen : Nat → Bool
  /-- How often the two channels have been closed. -/
  chCloses : Nat → Nat
  /-- `Close` of the proxy has returned. -/
  stopped : Bool

def init : State := ⟨none, false, fun _ => .absent, fun _ => false, fun _ => 0, false⟩

def State.closeWorkConn (s : State) : State :=
  if s.closed then s
  else
    { s with
      closed := true
      isOpen := fun c => s.isOpen c && s.workConn ≠ some c
      chCloses := fun c => if s.workConn = some c then s.chCloses c + 1 else s.chCloses c }

inductive Action where
  | arrive (k : Nat)
  | closeOld (k : Nat)
  | wrap (k : Nat) (ok : Bool)
  | install (k : Nat)
  /-- `Close` of the proxy. -/
  | close

def Enabled (s : State) : Action → Prop
  | .arrive k => s.call k = .absent
  | .closeOld k => s.call k = .arrived
  | .wrap k _ => s.call k = .wrapping
  | .install k => s.call k = .installing
  | .close => True

instance (s : State) (a : Action) : Decidable (Enabled s a) := by
  cases a <;> dsimp only [Enabled] <;> infer_instance

def next (s : State) : Action → State
  | .arrive k => { s with call := update s.call k .arrived, isOpen := update s.isOpen k true }
  | .closeOld k =>
    { s.closeWorkConn with call := update s.closeWorkConn.call k .wrapping }
  | .wrap k true => { s with call := update s.call k .installing }
  -- `wrapWorkConn` closes the connection it cannot wrap
  | .wrap k false => { s with call := update s.call k .returned, isOpen := update s.isOpen k false }
  | .install k => { s with workConn := some k, closed := false, call := update s.call k .returned }
  | .close => { s.closeWorkConn with stopped := true }

def step : State → Action → Option State := stepOf Enabled next

/-- A call installs its connection when the one before is closed, and the proxy is not. -/
def InstallsApart (s : State) : Action → Prop
  | .install _ => s.stopped = false ∧ ∀ c ∈ s.workConn, s.isOpen c = false
  | _ => True

instance (s : State) (a : Action) : Decidable (InstallsApart s a) := by
  cases a <;> dsimp only [InstallsApart] <;> infer_instance

def Pc.busy : Pc → Bool
  | .arrived | .wrapping | .installing => true
  | .absent | .returned => false

structure Tidy (s : State) : Prop where
  owned : ∀ c, s.isOpen c = true → s.workConn = some c ∨ (s.call c).busy = true
  once : ∀ c, s.chCloses c ≤ 1
  none : s.stopped = true → (∀ k, (s.call k).busy = false) → ∀ c, s.isOpen c = false

variable {s : State} {a : Action} {apart : Prop} {k : Nat}

/-- A channel that can still be closed was not; in a run `apart`, what is open has an owner. -/
structure Inv (apart : Prop) (s : State) : Prop where
  once : ∀ c, s.chCloses c ≤ 1
  installed : s.closed = false → ∀ c, s.workConn = some c → s.chCloses c = 0
  new : ∀ c, s.call c ≠ .returned → s.workConn ≠ some c ∧ s.chCloses c = 0
  owned : apart → ∀ c, s.isOpen c = true →
    s.workConn = some c ∧ s.closed = false ∨ (s.call c).busy = true
  stopped : apart → s.stopped = true → s.closed = true

theorem Inv.closeWorkConn (h : Inv apart s) : Inv apart s.closeWorkConn := by
  obtain ⟨honce, hinst, hnew, howned, hstop⟩ := h
  unfold State.closeWorkConn
  split_ifs with hclosed
  · exact ⟨honce, hinst, hnew, howned, hstop⟩
  · refine ⟨?_, nofun, ?_, ?_, fun _ _ => rfl⟩
    · intro c
      have := honce c
      grind
    · intro c hc
      grind
    · intro hap c hc
      grind

theorem closed_closeWorkConn (s : State) : s.closeWorkConn.closed = true := by
  unfold State.closeWorkConn
  split_ifs with hclosed
  · exact hclosed
  · rfl

theorem call_closeWorkConn : s.closeWorkConn.call = s.call := by
  unfold State.closeWorkConn
  split_ifs <;> rfl

/-- A call that has not installed its connection moves on. -/
theorem Inv.move (h : Inv apart s) (hk : s.call k ≠ .returned) (p : Pc) (isOpen : Bool)
    (hp : isOpen = true → p.busy = true) :
    Inv apart { s with call := update s.call k p, isOpen := update s.isOpen k isOpen } := by
  obtain ⟨honce, hinst, hnew, howned, hstop⟩ := h
  refine ⟨honce, hinst, ?_, ?_, hstop⟩
  · intro c hc
    grind [update_apply]
  · intro hap c hc
    grind [update_apply]

theorem inv_next (h : Inv apart s) (hok : apart → InstallsApart s a) (hen : Enabled s a) :
    Inv apart (next s a) := by
  cases a with
  | arrive k => exact h.move (by simp_all [Enabled]) .arrived true (fun _ => rfl)
  | closeOld k =>
    have hk : s.closeWorkConn.call k ≠ .returned := by
      rw [call_closeWorkConn, show s.call k = .arrived from hen]
      nofun
    simpa [next] using h.closeWorkConn.move hk .wrapping (s.closeWorkConn.isOpen k) (fun _ => rfl)
  | wrap k ok =>
    have hk : s.call k ≠ .returned := by
      rw [show s.call k = .wrapping from hen]
      nofun
    cases ok with
    | false => exact h.move hk .returned false nofun
    | true => simpa [next] using h.move hk .installing (s.isOpen k) (fun _ => rfl)
  | install k =>
    obtain ⟨honce, hinst, hnew, howned, hstop⟩ := h
    have hk : s.call k = .installing := hen
    have hnewk := hnew k (by simp [hk])
    refine ⟨honce, ?_, ?_, ?_, ?_⟩
    · rintro - c ⟨⟩
      exact hnewk.2
    · intro c hc
      simp only [next] at hc ⊢
      grind [update_apply]
    · intro hap c hc
      have hold := (hok hap).2
      simp only [next] at hc ⊢
      grind [update_apply]
    · intro hap hs
      have hrunning := (hok hap).1
      simp_all [next]
  | close => exact { h.closeWorkConn with stopped := fun _ _ => closed_closeWorkConn s }

theorem inv_init : Inv apart init := ⟨fun _ => Nat.zero_le 1, nofun, by simp [init], nofun, nofun⟩

/-- Each channel is closed at most once. If calls install apart, an open connection is the installed
one or being installed, and none is left after `Close`. -/
theorem tidy_of_installs_apart : (Reach step anyAction init s → ∀ c, s.chCloses c ≤ 1) ∧
      (Reach step InstallsApart init s → Tidy s) := by
  refine ⟨fun h => ?_, fun h => ?_⟩
  · have hinv : Inv False s :=
      invariant_of_next inv_init (fun _ _ hs _ hen => inv_next hs nofun hen) h
    exact hinv.once
  · have hinv : Inv True s :=
      invariant_of_next inv_init (fun _ _ hs hok hen => inv_next hs (fun _ => hok) hen) h
    refine ⟨fun c hc => ?_, hinv.once, fun hs hbusy c => ?_⟩
    · exact (hinv.owned trivial c hc).imp And.left id
    · by_contra hc
      have hclosed := hinv.stopped trivial hs
      have hown := hinv.owned trivial c (by simpa using hc)
      simp [hclosed, hbusy] at hown

def upToInstall (k : Nat) : List Action := [.arrive k, .closeOld k, .wrap k true]

theorem tidy_of_installs_apart_two :
    Tidy ((run step InstallsApart init (upToInstall 0 ++ [.install 0] ++ upToInstall 1 ++
      [.install 1, .close])).getD init) :=
  tidy_of_installs_apart.2 (reach_getD_of_isSome (by decide +kernel))

def crossedRun : List Action := upToInstall 0 ++ upToInstall 1 ++ [.install 0, .install 1]

def closedRun : List Action := upToInstall 0 ++ [.close, .install 0]

/-- A call overwrites what another has installed, and a call installs after `Close`. -/
theorem overwritten_and_late_connections_stay_open :
    (∃ s, Reach step anyAction init s ∧ s.workConn = some 1 ∧ s.call 0 = .returned ∧
      s.isOpen 0 = true) ∧
    ∃ s, Reach step anyAction init s ∧ s.stopped = true ∧ (∀ k, (s.call k).busy = false) ∧
      s.isOpen 0 = true := by
  constructor
  · exact ⟨(run step anyAction init crossedRun).getD init, reach_getD_of_isSome (by decide +kernel),
      by decide +kernel, by decide +kernel, by decide +kernel⟩
  · refine ⟨(run step anyAction init closedRun).getD init, reach_getD_of_isSome (by decide +kernel),
      by decide +kernel, fun k => ?_, by decide +kernel⟩
    rcases k with _ | k <;> rfl

end FrpMeo.Client.WorkConns
