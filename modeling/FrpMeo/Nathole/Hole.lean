import FrpMeo.Lib.Transition
import Mathlib.Logic.Function.Basic

/-!
# Waiting on several sockets

`MakeHole` of `pkg/nathole/nathole.go` starts a worker for each socket and then waits for a result,
a timeout or a cancellation. A worker that has detected the other side sends its socket on a channel
without a buffer, and closes it if the caller is not receiving.
-/

namespace FrpMeo.Nathole.Hole

open Lib.Transition Function

inductive Caller where
  /-- The next worker to start; all are started when it is the number of sockets. -/
  | spawning (k : Nat)
  | receiving
  /-- Returned, with a socket or with an error. -/
  | returned (conn : Option Nat)
  deriving DecidableEq

inductive Worker where
  | absent
  | detecting
  /-- At the `select` with the send. -/
  | sending
  | delivered
  | discarded
  | failed
  deriving DecidableEq

structure State where
  caller : Caller
  worker : Nat → Worker
  isOpen : Nat → Bool

def init : State := ⟨.spawning 0, fun _ => .absent, fun _ => true⟩

inductive Action where
  | spawn
  | receive
  | detect (i : Nat) (ok : Bool)
  | send (i : Nat)
  /-- The timer or the context ends the wait. -/
  | giveUp

variable (n : Nat)

def Enabled (s : State) : Action → Prop
  | .spawn => ∃ k < n, s.caller = .spawning k
  | .receive => s.caller = .spawning n
  | .detect i _ => s.worker i = .detecting
  | .send i => s.worker i = .sending
  | .giveUp => s.caller = .receiving

instance (s : State) (a : Action) : Decidable (Enabled n s a) := by
  cases a <;> dsimp only [Enabled] <;> infer_instance

def next (s : State) : Action → State
  | .spawn =>
      match s.caller with
      | .spawning k =>
          { s with caller := .spawning (k + 1), worker := update s.worker k .detecting }
      | _ => s
  | .receive => { s with caller := .receiving }
  | .detect i true => { s with worker := update s.worker i .sending }
  | .detect i false =>
      { s with worker := update s.worker i .failed, isOpen := update s.isOpen i false }
  | .send i =>
      if s.caller = .receiving then
        { s with caller := .returned (some i), worker := update s.worker i .delivered }
      else { s with worker := update s.worker i .discarded, isOpen := update s.isOpen i false }
  | .giveUp => { s with caller := .returned none }

def step : State → Action → Option State := stepOf (Enabled n) next

/-- A worker sends only when the caller has started all of them and receives, or has returned. -/
def SendsLate (s : State) : Action → Prop
  | .send _ => ∀ k ≤ n, s.caller ≠ .spawning k
  | _ => True

instance (s : State) (a : Action) : Decidable (SendsLate n s a) := by
  cases a <;> dsimp only [SendsLate] <;> infer_instance

def Worker.finished : Worker → Bool
  | .delivered | .discarded | .failed => true
  | .absent | .detecting | .sending => false

/-- The socket that is returned is open, and the others are closed when their workers are done. -/
structure Sockets (s : State) : Prop where
  returned : ∀ i, s.caller = .returned (some i) → s.isOpen i = true
  others : (∀ i < n, (s.worker i).finished = true) → ∀ i < n, s.caller ≠ .returned (some i) →
    s.isOpen i = false

/-- A detection is discarded only when another was delivered or the wait has ended. -/
def KeepsFirst (s : State) : Prop :=
  ∀ i, s.worker i = .discarded → ∃ r, s.caller = .returned r

variable {n} {s : State} {a : Action} {late : Prop}

structure Inv (n : Nat) (late : Prop) (s : State) : Prop where
  delivered : ∀ i, s.worker i = .delivered ↔ s.caller = .returned (some i)
  closed : ∀ i, s.isOpen i = false ↔ s.worker i = .discarded ∨ s.worker i = .failed
  spawned : ∀ k, s.caller = .spawning k → k ≤ n ∧ ∀ i, k ≤ i → s.worker i = .absent
  kept : late → ∀ i, s.worker i = .discarded → ∃ r, s.caller = .returned r

theorem inv_init : Inv n late init := by
  refine ⟨?_, ?_, ?_, ?_⟩
  · simp [init]
  · simp [init]
  · rintro k ⟨⟩
    exact ⟨Nat.zero_le n, fun _ _ => rfl⟩
  · rintro - i ⟨⟩

theorem inv_next (h : Inv n late s) (hok : late → SendsLate n s a) (hen : Enabled n s a) :
    Inv n late (next s a) := by
  obtain ⟨hdel, hclosed, hspawned, hkept⟩ := h
  cases a with
  | spawn =>
    obtain ⟨k, hk, hc⟩ := hen
    have hnew := (hspawned k hc).2
    simp only [next, hc]
    constructor <;> grind [update_apply]
  | receive =>
    have hc : s.caller = .spawning n := hen
    simp only [next]
    constructor <;> grind
  | detect i ok =>
    have hw : s.worker i = .detecting := hen
    cases ok <;> simp only [next] <;> constructor <;> grind [update_apply]
  | send i =>
    have hw : s.worker i = .sending := hen
    simp only [next]
    split_ifs with hc
    · constructor <;> grind [update_apply]
    · -- the caller has returned if workers send late
      have hret : late → ∃ r, s.caller = .returned r := by
        intro hl
        have hno := hok hl
        cases hcaller : s.caller with
        | spawning k => exact absurd hcaller (hno k (hspawned k hcaller).1)
        | receiving => exact absurd hcaller hc
        | returned r => exact ⟨r, rfl⟩
      constructor <;> grind [update_apply]
  | giveUp =>
    have hc : s.caller = .receiving := hen
    simp only [next]
    constructor <;> grind

theorem Inv.sockets (h : Inv n late s) : Sockets n s := by
  refine ⟨fun i hi => ?_, fun hfin i hi hret => ?_⟩
  · have hdel := (h.delivered i).2 hi
    have := h.closed i
    simp_all
  · have hf := hfin i hi
    have hdel := mt (h.delivered i).1 hret
    rw [h.closed]
    cases hw : s.worker i <;> simp_all [Worker.finished]

/-- A returned socket is open and the others end closed in every run; no detection is lost if the
workers send only when the caller has started them all. -/
theorem sockets_and_first (n : Nat) (s : State) : (Reach (step n) anyAction init s → Sockets n s) ∧
      (Reach (step n) (SendsLate n) init s → KeepsFirst s) := by
  refine ⟨fun h => ?_, fun h => ?_⟩
  · have hinv : Inv n False s :=
      invariant_of_next inv_init (fun _ _ hs _ hen => inv_next hs nofun hen) h
    exact hinv.sockets
  · have hinv : Inv n True s :=
      invariant_of_next inv_init (fun _ _ hs hok hen => inv_next hs (fun _ => hok) hen) h
    exact hinv.kept trivial

def lateRun : List Action :=
  [.spawn, .detect 0 true, .spawn, .receive, .send 0, .detect 1 true, .send 1]

theorem sockets_and_first_late : KeepsFirst ((run (step 2) (SendsLate 2) init lateRun).getD init) ∧
      Sockets 2 ((run (step 2) anyAction init lateRun).getD init) :=
  ⟨(sockets_and_first 2 _).2 (reach_getD_of_isSome (by decide +kernel)),
    (sockets_and_first 2 _).1 (reach_getD_of_isSome (by decide +kernel))⟩

def earlyRun : List Action := [.spawn, .detect 0 true, .send 0, .spawn, .receive, .detect 1 false]

/-- The first worker is done before the second is started: the caller waits for nothing. -/
theorem early_detection_lost :
    ∃ s, Reach (step 2) anyAction init s ∧ s.worker 0 = .discarded ∧ s.caller = .receiving ∧
      ∀ i < 2, (s.worker i).finished = true ∧ s.isOpen i = false :=
  ⟨(run (step 2) anyAction init earlyRun).getD init, reach_getD_of_isSome (by decide +kernel),
    by decide +kernel, by decide +kernel, by decide +kernel⟩

end FrpMeo.Nathole.Hole
