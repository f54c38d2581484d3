import FrpMeo.Lib.Transition
import Mathlib.Algebra.Order.Ring.Int

/-!
# The route of a virtual-net visitor

The run loop of a plugin (`pkg/plugin/visitor/virtual_net.go`) registers a connection under the
visitor's name; the read loop removes the route when the connection ends, and `Close` what is under
the name (`pkg/vnet/controller.go`). A loop past its check of the context registers over the next
plugin.
-/

namespace FrpMeo.Client.VirtualNet

open Lib.Transition Function

inductive Phase where
  | absent
  | checking
  /-- The pipe is made; `RegisterClientRoute` is next. -/
  | registering (c : Nat)
  | serving (c : Nat)
  /-- Before it connects again. -/
  | waiting
  | stopped
  deriving DecidableEq

inductive ClosePc where
  | running
  | cancelled
  | unregistered
  deriving DecidableEq

/-- Where `readLoopClient` of a connection stands; in `failed` it has still to remove the route. -/
inductive ReadPc where
  | absent
  | reading
  | failed
  | ended
  deriving DecidableEq

structure State where
  route : Option Nat
  phase : Nat → Phase
  close : Nat → ClosePc
  read : Nat → ReadPc
  conns : Nat
  owner : Nat → Nat

def init : State :=
  ⟨none, fun _ => .absent, fun _ => .running, fun _ => .absent, 0, fun _ => 0⟩

inductive Action where
  | start (p : Nat)
  | check (p : Nat)
  | register (p : Nat)
  /-- The visitor closes its side. -/
  | signal (p : Nat)
  | reconnect (p : Nat)
  /-- The run loop sees the context done. -/
  | stop (p : Nat)
  | cancel (p : Nat)
  | unregister (p : Nat)
  | readFails (c : Nat)
  | removeConn (c : Nat)

def Enabled (s : State) : Action → Prop
  | .start p => s.phase p = .absent
  | .check p => s.phase p = .checking
  | .register p => ∃ c < s.conns, s.phase p = .registering c
  | .signal p => ∃ c < s.conns, s.phase p = .serving c
  | .reconnect p => s.phase p = .waiting
  | .stop p => s.close p ≠ .running ∧ (s.phase p = .waiting ∨ ∃ c < s.conns, s.phase p = .serving c)
  | .cancel p => s.close p = .running
  | .unregister p => s.close p = .cancelled
  | .readFails c => s.read c = .reading
  | .removeConn c => s.read c = .failed

instance (s : State) (a : Action) : Decidable (Enabled s a) := by
  cases a <;> dsimp only [Enabled] <;> infer_instance

def next (s : State) : Action → State
  | .start p => { s with phase := update s.phase p .checking }
  | .check p =>
      if s.close p = .running then
        { s with
          phase := update s.phase p (.registering s.conns)
          conns := s.conns + 1
          owner := update s.owner s.conns p }
      else { s with phase := update s.phase p .stopped }
  | .register p =>
      match s.phase p with
      | .registering c =>
          { s with
            route := some c
            phase := update s.phase p (.serving c)
            read := update s.read c .reading }
      | _ => s
  | .signal p => { s with phase := update s.phase p .waiting }
  | .reconnect p => { s with phase := update s.phase p .checking }
  | .stop p => { s with phase := update s.phase p .stopped }
  | .cancel p => { s with close := update s.close p .cancelled }
  | .unregister p => { s with route := none, close := update s.close p .unregistered }
  | .readFails c => { s with read := update s.read c .failed }
  | .removeConn c =>
      { s with
        route := if s.route = some c then none else s.route
        read := update s.read c .ended }

def step : State → Action → Option State := stepOf Enabled next

/-- A plugin registers before its own `Close`, and registers and closes over no route of another one
that runs. -/
def InTurn (s : State) : Action → Prop
  | .register p => s.close p = .running ∧
      ∀ c ∈ s.route, s.owner c = p ∨ s.close (s.owner c) ≠ .running
  | .unregister p => ∀ c ∈ s.route, s.owner c = p
  | _ => True

instance (s : State) (a : Action) : Decidable (InTurn s a) := by
  cases a <;> dsimp only [InTurn] <;> infer_instance

/-- A plugin that runs keeps the route to its own connection while that is read. -/
def Routed (s : State) : Prop :=
  ∀ p c, s.phase p = .serving c → s.close p = .running → s.read c = .reading → s.route = some c

variable {s : State} {a : Action} {inTurn : Prop}

structure Inv (inTurn : Prop) (s : State) : Prop where
  live : ∀ c, s.route = some c → s.read c = .reading ∨ s.read c = .failed
  fresh : ∀ p c, s.phase p = .registering c → s.read c = .absent ∧ s.owner c = p ∧ c < s.conns
  own : ∀ p c, s.phase p = .serving c → s.owner c = p ∧ c < s.conns
  made : ∀ c, s.conns ≤ c → s.read c = .absent
  routed : inTurn → ∀ p c, s.phase p = .serving c → s.close p = .running → s.read c = .reading →
    s.route = some c

theorem inv_init : Inv inTurn init := ⟨nofun, nofun, nofun, fun _ _ => rfl, nofun⟩

theorem inv_next (h : Inv inTurn s) (hok : inTurn → InTurn s a) (hen : Enabled s a) :
    Inv inTurn (next s a) := by
  obtain ⟨hlive, hfresh, hown, hmade, hrouted⟩ := h
  cases a with
  | start p | reconnect p | stop p | cancel p | signal p =>
    simp only [next]
    constructor <;> grind [update_apply]
  | check p =>
    simp only [next]
    split_ifs with hc <;> constructor <;> grind [update_apply]
  | register p =>
    obtain ⟨c, hlt, hp⟩ := hen
    -- the route that is replaced is not one of another plugin that runs
    have hothers : inTurn → ∀ q c', q ≠ p → s.phase q = .serving c' → s.close q = .running →
        s.read c' ≠ .reading := by
      intro hturn q c' hne hq hrun hread
      have hroute := hrouted hturn q c' hq hrun hread
      rcases (hok hturn).2 c' hroute with howner | hclosed
      · exact hne ((hown q c' hq).1.symm.trans howner)
      · exact hclosed ((hown q c' hq).1.symm ▸ hrun)
    simp only [next, hp]
    constructor <;> grind [update_apply]
  | unregister p =>
    have hp : s.close p = .cancelled := hen
    have hown' : inTurn → ∀ c, s.route = some c → s.owner c = p := hok
    simp only [next]
    constructor <;> grind [update_apply]
  | readFails c | removeConn c =>
    have hc : s.read c = _ := hen
    simp only [next]
    constructor <;> grind [update_apply]

/-- No route leads to a connection whose read loop has ended. A plugin that runs keeps its route, if
plugins register and unregister in turn. -/
theorem routed_of_in_turn :
    (Reach step anyAction init s → ∀ c, s.route = some c → s.read c ≠ .ended) ∧
      (Reach step InTurn init s → Routed s) := by
  refine ⟨fun h c hc => ?_, fun h => ?_⟩
  · have hinv : Inv False s :=
      invariant_of_next inv_init (fun _ _ hs _ hen => inv_next hs nofun hen) h
    rcases hinv.live c hc with hr | hr <;> rw [hr] <;> nofun
  · have hinv : Inv True s :=
      invariant_of_next inv_init (fun _ _ hs hok hen => inv_next hs (fun _ => hok) hen) h
    exact hinv.routed trivial

def upToRegister (p : Nat) : List Action := [.start p, .check p]

def turnRun : List Action :=
  upToRegister 0 ++ [.register 0, .cancel 0, .unregister 0] ++ upToRegister 1 ++ [.register 1]

theorem routed_of_in_turn_two :
    let s := (run step anyAction init turnRun).getD init
    s.route = some 1 ∧ s.read 1 ≠ .ended ∧
      Routed ((run step InTurn init turnRun).getD init) := by
  intro s
  have hroute : s.route = some 1 := by decide +kernel
  exact ⟨hroute, routed_of_in_turn.1 (reach_getD_of_isSome (by decide +kernel)) 1 hroute,
    routed_of_in_turn.2 (reach_getD_of_isSome (by decide +kernel))⟩

def lateRun : List Action :=
  upToRegister 0 ++ [.cancel 0, .unregister 0] ++ upToRegister 1 ++
    [.register 1, .register 0, .readFails 0, .removeConn 0]

/-- The first plugin registers after its `Close`, and the second is left without a route. -/
theorem late_registration_takes_route :
    ∃ s, Reach step anyAction init s ∧ s.phase 1 = .serving 1 ∧ s.close 1 = .running ∧
      s.read 1 = .reading ∧ s.route = none :=
  ⟨(run step anyAction init lateRun).getD init, reach_getD_of_isSome (by decide +kernel),
    by decide +kernel, by decide +kernel, by decide +kernel, by decide +kernel⟩

/-! ## The delay before it connects again -/

def second : Int := 1000000000

def baseDelay : Int := 60 * second

def maxDelay : Int := 300 * second

/-- The shift and the product keep 64 bits. -/
def errorDelay (consecutiveErrors : Nat) : Int :=
  min ((baseDelay * Int.bmod (2 ^ (consecutiveErrors - 1)) (2 ^ 64)).bmod (2 ^ 64)) maxDelay

/-- The errors in a row when a connection has closed, and the delay. -/
def reconnectDelay (closeErr : Bool) (consecutiveErrors : Nat) : Nat × Int :=
  if closeErr then (consecutiveErrors + 1, errorDelay (consecutiveErrors + 1))
  else (0, 10 * second)

def Paced (n : Nat) : Prop :=
  baseDelay ≤ errorDelay n ∧ errorDelay n ≤ maxDelay ∧
    ∀ m, 1 ≤ m → m ≤ n → errorDelay m ≤ errorDelay n

theorem errorDelay_eq {n : Nat} (h : n ≤ 28) :
    errorDelay n = min (baseDelay * 2 ^ (n - 1)) maxDelay := by
  have hpow : (2 : Int) ^ (n - 1) ≤ 2 ^ 27 := pow_le_pow_right₀ (by decide) (by omega)
  have hpos : (1 : Int) ≤ 2 ^ (n - 1) := one_le_pow₀ (by decide)
  have hshift : Int.bmod (2 ^ (n - 1)) (2 ^ 64) = 2 ^ (n - 1) :=
    Int.bmod_eq_of_le (by omega) (by omega)
  simp only [errorDelay, hshift, baseDelay, second]
  rw [Int.bmod_eq_of_le (by omega) (by omega)]

/-- The delays are right for at most 28 errors in a row: then the product does not fit 64 bits. -/
theorem errorDelay_paced_iff (N : Nat) : (∀ n, 1 ≤ n → n ≤ N → Paced n) ↔ N ≤ 28 := by
  constructor
  · intro h
    by_contra hN
    exact absurd (h 29 (by omega) (by omega)).1 (by decide +kernel)
  · intro hN n hn hnN
    have hpos : (1 : Int) ≤ 2 ^ (n - 1) := one_le_pow₀ (by decide)
    refine ⟨?_, min_le_right _ _, fun m _ hm => ?_⟩
    · rw [errorDelay_eq (by omega)]
      simp only [baseDelay, maxDelay, second]
      omega
    · have hpow : (2 : Int) ^ (m - 1) ≤ 2 ^ (n - 1) := pow_le_pow_right₀ (by decide) (by omega)
      rw [errorDelay_eq (by omega), errorDelay_eq (by omega)]
      simp only [baseDelay, second]
      omega

theorem errorDelay_negative : errorDelay 29 < 0 := by decide +kernel

end FrpMeo.Client.VirtualNet
