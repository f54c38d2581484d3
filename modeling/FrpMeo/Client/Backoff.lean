import FrpMeo.Lib.Transition
import Mathlib.Tactic

/-!
# Backoff with fast retries

`fastBackoffImpl` of `pkg/util/wait/backoff.go`, which paces the logins of a client
(`client/service.go`). A failure is answered with a fast delay while the counter allows; the counter
starts again at the first call above it after the window, however short ago the last fast delays
were.
-/

namespace FrpMeo.Client.Backoff

open Lib.Transition

/-- Durations and times are in nanoseconds. -/
structure FastBackoffOptions where
  duration : Int
  factor : Float
  jitter : Float
  maxDuration : Int
  initDurationIfFail : Int
  fastRetryCount : Int
  fastRetryDelay : Int
  fastRetryJitter : Float
  fastRetryWindow : Int

structure FastBackoffImpl where
  /-- The zero time is 0. -/
  lastCalledTime : Int := 0
  consecutiveErrCount : Int := 0
  fastRetryCutoffTime : Int := 0
  countsInFastRetryWindow : Int := 1

structure Call where
  previousDuration : Int := 0
  previousConditionError : Bool := true
  now : Int
  random : Float := 0

structure Delay where
  fast : Bool
  duration : Int

def second : Int := 1000000000

def emptyOr (v fallback : Int) : Int := if v = 0 then fallback else v

def jitter (duration : Int) (maxFactor random : Float) : Int :=
  duration + (random * (if maxFactor ≤ 0 then 1 else maxFactor) * .ofInt duration).toInt64.toInt

/-- The delay after an error that is not answered fast. -/
def slowDelay (o : FastBackoffOptions) (consecutiveErrCount : Int) (call : Call) : Delay :=
  let duration := if consecutiveErrCount = 1 then emptyOr o.initDurationIfFail call.previousDuration
    else call.previousDuration
  let duration := emptyOr duration second
  let duration := if o.factor != 0 then (.ofInt duration * o.factor).toInt64.toInt else duration
  let duration := if 0 < o.jitter then jitter duration o.jitter call.random else duration
  ⟨false, if 0 < o.maxDuration ∧ o.maxDuration < duration then o.maxDuration else duration⟩

def backoff (o : FastBackoffOptions) (f : FastBackoffImpl) (call : Call) :
    FastBackoffImpl × Delay :=
  let called := { f with lastCalledTime := call.now }
  if f.lastCalledTime = 0 then (called, ⟨false, o.duration⟩)
  else if !call.previousConditionError then
    ({ called with consecutiveErrCount := 0 }, ⟨false, o.duration⟩)
  else
    let failed := { called with consecutiveErrCount := f.consecutiveErrCount + 1 }
    let slow := slowDelay o failed.consecutiveErrCount call
    if o.fastRetryCount ≤ 0 then (failed, slow)
    else
      let counted := { failed with countsInFastRetryWindow := f.countsInFastRetryWindow + 1 }
      if counted.countsInFastRetryWindow ≤ o.fastRetryCount then
        (counted, ⟨true, jitter o.fastRetryDelay o.fastRetryJitter call.random⟩)
      else if f.fastRetryCutoffTime < call.now then
        ({ counted with
            fastRetryCutoffTime := call.now + o.fastRetryWindow
            countsInFastRetryWindow := 0 }, slow)
      else (counted, slow)

/-! ## Windows -/

/-- The times of the fast delays, the last one first. -/
structure State where
  impl : FastBackoffImpl
  fasts : List Int

def init : State := ⟨{}, []⟩

def Enabled (s : State) (call : Call) : Prop := s.impl.lastCalledTime ≤ call.now

instance (s : State) (call : Call) : Decidable (Enabled s call) :=
  inferInstanceAs (Decidable (_ ≤ _))

def next (o : FastBackoffOptions) (s : State) (call : Call) : State :=
  let (impl, delay) := backoff o s.impl call
  ⟨impl, if delay.fast then call.now :: s.fasts else s.fasts⟩

def step (o : FastBackoffOptions) : State → Call → Option State := stepOf Enabled (next o)

/-- How many of the times are in the interval of length `w` from `t`. -/
def inWindow (w t : Int) (fasts : List Int) : Nat := fasts.countP fun u => t ≤ u ∧ u ≤ t + w

/-- The counter starts again only when the fast delays before are out of reach. -/
def BeginsLate (o : FastBackoffOptions) (s : State) (call : Call) : Prop :=
  (next o s call).impl.countsInFastRetryWindow < s.impl.countsInFastRetryWindow →
    ∀ u ∈ s.fasts, u + o.fastRetryWindow < call.now

instance (o : FastBackoffOptions) (s : State) (call : Call) : Decidable (BeginsLate o s call) := by
  unfold BeginsLate
  infer_instance

variable {o : FastBackoffOptions} {w : Int} {k : Nat} {s : State} {f : FastBackoffImpl}

/-- The fast delays since the counter started again are counted, and those before are out of reach
of the next call. -/
structure Inv (w : Int) (k : Nat) (s : State) : Prop where
  parts : ∃ recent older, s.fasts = recent ++ older ∧
    recent.length ≤ s.impl.countsInFastRetryWindow ∧ ∀ u ∈ older, u + w < s.impl.lastCalledTime
  bounded : ∀ t, inWindow w t s.fasts ≤ k

theorem inv_init (w : Int) (k : Nat) : Inv w k init :=
  ⟨⟨[], [], by simp [init]⟩, by simp [init, inWindow]⟩

theorem Inv.slow (hs : Inv w k s) (htime : s.impl.lastCalledTime ≤ f.lastCalledTime)
    (hcount : s.impl.countsInFastRetryWindow ≤ f.countsInFastRetryWindow) :
    Inv w k ⟨f, s.fasts⟩ := by
  obtain ⟨⟨recent, older, hfasts, hcounted, hold⟩, hb⟩ := hs
  exact ⟨⟨recent, older, hfasts, hcounted.trans hcount, fun u hu => (hold u hu).trans_le htime⟩, hb⟩

theorem Inv.fast (hs : Inv w k s) (htime : s.impl.lastCalledTime ≤ f.lastCalledTime)
    (hcount : f.countsInFastRetryWindow = s.impl.countsInFastRetryWindow + 1)
    (hle : f.countsInFastRetryWindow ≤ k) : Inv w k ⟨f, f.lastCalledTime :: s.fasts⟩ := by
  obtain ⟨⟨recent, older, hfasts, hcounted, hold⟩, hb⟩ := hs
  have hlen : ((f.lastCalledTime :: recent).length : Int) ≤ f.countsInFastRetryWindow := by
    rw [List.length_cons, hcount]
    omega
  have hpast : ∀ u ∈ older, u + w < f.lastCalledTime := fun u hu => (hold u hu).trans_le htime
  have hsplit : f.lastCalledTime :: s.fasts = (f.lastCalledTime :: recent) ++ older := by
    rw [hfasts, List.cons_append]
  refine ⟨⟨_, _, hsplit, hlen, hpast⟩, fun t => ?_⟩
  by_cases ht : t ≤ f.lastCalledTime ∧ f.lastCalledTime ≤ t + w
  · -- an interval with the new delay has none of the older ones
    have hnone : inWindow w t older = 0 := by
      simp only [inWindow, List.countP_eq_zero, decide_eq_true_eq]
      intro u hu
      have := hpast u hu
      omega
    have hrecent : inWindow w t (f.lastCalledTime :: recent) ≤ _ := List.countP_le_length
    calc
      _ = inWindow w t (f.lastCalledTime :: recent) + inWindow w t older := by
        rw [hsplit]
        exact List.countP_append
      _ ≤ k := by omega
  · simpa [inWindow, ht] using hb t

theorem inv_next (hs : Inv o.fastRetryWindow o.fastRetryCount.toNat s) {call : Call}
    (hok : BeginsLate o s call) (hen : Enabled s call) :
    Inv o.fastRetryWindow o.fastRetryCount.toNat (next o s call) := by
  have htime : s.impl.lastCalledTime ≤ call.now := hen
  unfold BeginsLate at hok
  simp only [next] at hok ⊢
  generalize hr : backoff o s.impl call = r at hok ⊢
  simp only [backoff] at hr
  split_ifs at hr with h₁ h₂ h₃ h₄ h₅ <;> subst hr
  · exact hs.slow htime le_rfl
  · exact hs.slow htime le_rfl
  · exact hs.slow htime le_rfl
  · exact hs.fast htime rfl (h₄.trans (Int.self_le_toNat _))
  · exact ⟨⟨[], s.fasts, rfl, le_refl 0, hok (by dsimp only; omega)⟩, hs.bounded⟩
  · exact hs.slow htime (Int.le.intro 1 rfl)

/-- If the counter starts again late enough each time, an interval of the window's length has at
most as many fast delays as the options say. -/
theorem fast_delays_bounded (h : Reach (step o) (BeginsLate o) init s) (t : Int) :
    inWindow o.fastRetryWindow t s.fasts ≤ o.fastRetryCount.toNat :=
  (invariant_of_next (inv_init _ _) (fun _ _ hs hok hen => inv_next hs hok hen) h).bounded t

/-- Of `keepControllerWorking`. -/
def loginOptions : FastBackoffOptions where
  duration := second
  factor := 2
  jitter := 0.1
  maxDuration := 20 * second
  initDurationIfFail := 0
  fastRetryCount := 3
  fastRetryDelay := 200000000
  fastRetryJitter := 0.5
  fastRetryWindow := 60 * second

/-- A call every three seconds. -/
def calls (n : Nat) : List Call := (List.range n).map fun i => { now := (i + 1) * (3 * second) }

theorem fast_delays_bounded_three :
    inWindow (60 * second) 0 ((run (step loginOptions) (BeginsLate loginOptions) init
      (calls 3)).getD init).fasts ≤ 3 :=
  fast_delays_bounded (o := loginOptions) (reach_getD_of_isSome (by decide +kernel)) 0

/-- Five fast delays in the first minute of logins that fail. -/
theorem fast_delays_exceed : ∃ s, Reach (step loginOptions) anyAction init s ∧
    inWindow loginOptions.fastRetryWindow 0 s.fasts = 5 :=
  ⟨(run (step loginOptions) anyAction init (calls 7)).getD init,
    reach_getD_of_isSome (by decide +kernel), by decide +kernel⟩

end FrpMeo.Client.Backoff
