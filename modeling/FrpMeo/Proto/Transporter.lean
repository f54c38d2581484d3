import FrpMeo.Lib.Transition
import Mathlib.Logic.Function.Basic

/-!
# Requests over the control connection

`transporterImpl` of `pkg/transport/message.go`: `Do` registers a channel under a type and a lane,
sends its request and waits; a dispatch looks the channel up under the lock and sends without it.
`Do` closes its channel when it returns; the panic of a send is caught.
-/

namespace FrpMeo.Proto.Transporter

open Lib.Transition Function

abbrev Key := String × String

inductive DoPc where
  | absent
  | sending
  | waiting
  /-- The deferred functions are next: unregister, then close. -/
  | leaving
  | closing
  | returned
  deriving DecidableEq

inductive DispatchPc where
  | absent
  | sending
  | sent
  /-- Returned false: no channel, or a closed one. -/
  | dropped
  deriving DecidableEq

/-- Call `k` has the channel `k`, and dispatch `j` brings the message `j`. -/
structure State where
  registry : Key → Option Nat
  call : Nat → DoPc
  key : Nat → Key
  /-- What a call has received; `none` with an error. -/
  result : Nat → Option Nat
  /-- What a channel holds, one message at most. -/
  buf : Nat → Option Nat
  closed : Nat → Bool
  dispatch : Nat → DispatchPc
  /-- The channel that a dispatch has found. -/
  target : Nat → Nat
  clock : Nat
  registeredAt : Nat → Nat
  dispatchedAt : Nat → Key × Nat
  /-- A closed channel was closed again. -/
  panicked : Bool

def init : State where
  registry := fun _ => none
  call := fun _ => .absent
  key := fun _ => ("", "")
  result := fun _ => none
  buf := fun _ => none
  closed := fun _ => false
  dispatch := fun _ => .absent
  target := fun _ => 0
  clock := 0
  registeredAt := fun _ => 0
  dispatchedAt := fun _ => (("", ""), 0)
  panicked := false

inductive Action where
  /-- `Do`, up to the registration of its channel. -/
  | register (k : Nat) (key : Key)
  | send (k : Nat) (ok : Bool)
  | cancel (k : Nat)
  | receive (k : Nat)
  | unregister (k : Nat)
  | close (k : Nat)
  /-- The lookup of `DispatchWithType`. -/
  | lookup (j : Nat) (key : Key)
  | deliver (j : Nat)

def State.Free (s : State) (c : Nat) : Prop := s.closed c = true ∨ s.buf c = none

def Enabled (s : State) : Action → Prop
  | .register k _ => s.call k = .absent
  | .send k _ => s.call k = .sending
  | .cancel k => s.call k = .waiting
  | .receive k => s.call k = .waiting ∧ s.buf k ≠ none
  | .unregister k => s.call k = .leaving
  | .close k => s.call k = .closing
  | .lookup j _ => s.dispatch j = .absent
  | .deliver j => s.dispatch j = .sending ∧ s.Free (s.target j)

instance (s : State) (a : Action) : Decidable (Enabled s a) := by
  cases a <;> dsimp only [Enabled, State.Free] <;> infer_instance

def next (s : State) : Action → State
  | .register k key =>
      { s with
        registry := update s.registry key (some k)
        call := update s.call k .sending
        key := update s.key k key
        clock := s.clock + 1
        registeredAt := update s.registeredAt k s.clock }
  | .send k ok => { s with call := update s.call k (if ok then .waiting else .leaving) }
  | .cancel k => { s with call := update s.call k .leaving }
  | .receive k =>
      { s with
        call := update s.call k .leaving
        result := update s.result k (s.buf k)
        buf := update s.buf k none }
  | .unregister k =>
      { s with registry := update s.registry (s.key k) none, call := update s.call k .closing }
  | .close k =>
      { s with
        call := update s.call k .returned
        closed := update s.closed k true
        panicked := s.panicked || s.closed k }
  | .lookup j key =>
      { s with
        dispatch := update s.dispatch j (if s.registry key = none then .dropped else .sending)
        target := update s.target j ((s.registry key).getD 0)
        clock := s.clock + 1
        dispatchedAt := update s.dispatchedAt j (key, s.clock) }
  | .deliver j =>
      if s.closed (s.target j) then { s with dispatch := update s.dispatch j .dropped }
      else
        { s with
          dispatch := update s.dispatch j .sent
          buf := update s.buf (s.target j) (some j) }

def step : State → Action → Option State := stepOf Enabled next

/-- A call returns a message that was dispatched to its key after it had registered, no other call
returns it, nothing panics, and no dispatch blocks when the calls have returned. -/
structure Sound (s : State) : Prop where
  own : ∀ k j, s.result k = some j → s.dispatch j = .sent ∧ (s.dispatchedAt j).1 = s.key k ∧
    s.registeredAt k < (s.dispatchedAt j).2
  once : ∀ k k' j, s.result k = some j → s.result k' = some j → k = k'
  calm : s.panicked = false
  free : (∀ k, s.call k = .absent ∨ s.call k = .returned) →
    ∀ j, s.dispatch j = .sending → s.Free (s.target j)

structure Inv (s : State) : Prop where
  entry : ∀ key k, s.registry key = some k →
    s.key k = key ∧ s.call k ≠ .absent ∧ s.registeredAt k < s.clock
  aim : ∀ j, s.dispatch j = .sending ∨ s.dispatch j = .sent → s.call (s.target j) ≠ .absent ∧
    (s.dispatchedAt j).1 = s.key (s.target j) ∧ s.registeredAt (s.target j) < (s.dispatchedAt j).2
  buf : ∀ c j, s.buf c = some j → s.dispatch j = .sent ∧ s.target j = c
  result : ∀ k j, s.result k = some j → s.dispatch j = .sent ∧ s.target j = k
  closed : ∀ c, s.closed c = true ↔ s.call c = .returned
  calm : s.panicked = false

variable {s : State} {a : Action}

theorem inv_init : Inv init :=
  ⟨nofun, by simp [init], nofun, nofun, by simp [init], rfl⟩

theorem inv_next (h : Inv s) (hen : Enabled s a) : Inv (next s a) := by
  obtain ⟨hentry, haim, hbuf, hresult, hclosed, hcalm⟩ := h
  cases a with
  | register k key =>
    have hk : s.call k = .absent := hen
    -- no dispatch has found the channel before
    have hnew : ∀ j, s.dispatch j = .sending ∨ s.dispatch j = .sent → s.target j ≠ k :=
      fun j hj heq => (haim j hj).1 (heq ▸ hk)
    simp only [next]
    refine ⟨?_, ?_, hbuf, hresult, ?_, hcalm⟩ <;> grind [update_apply]
  | send k ok =>
    have hk : s.call k = .sending := hen
    simp only [next]
    refine ⟨?_, ?_, hbuf, hresult, ?_, hcalm⟩ <;> grind [update_apply]
  | cancel k =>
    have hk : s.call k = .waiting := hen
    simp only [next]
    refine ⟨?_, ?_, hbuf, hresult, ?_, hcalm⟩ <;> grind [update_apply]
  | receive k =>
    obtain ⟨hk, -⟩ := hen
    simp only [next]
    refine ⟨?_, ?_, ?_, ?_, ?_, hcalm⟩ <;> grind [update_apply]
  | unregister k =>
    have hk : s.call k = .leaving := hen
    simp only [next]
    refine ⟨?_, ?_, hbuf, hresult, ?_, hcalm⟩ <;> grind [update_apply]
  | close k =>
    have hk : s.call k = .closing := hen
    have hopen : s.closed k = false := by
      have := hclosed k
      grind
    simp only [next, hcalm, hopen]
    refine ⟨?_, ?_, hbuf, hresult, ?_, rfl⟩ <;> grind [update_apply]
  | lookup j key =>
    have hj : s.dispatch j = .absent := hen
    have hfound := hentry key
    simp only [next]
    refine ⟨?_, ?_, ?_, ?_, hclosed, hcalm⟩
    · grind
    · cases hc : s.registry key <;> grind [update_apply]
    · grind [update_apply]
    · grind [update_apply]
  | deliver j =>
    obtain ⟨hj, hfree⟩ := hen
    simp only [next]
    split_ifs with hc
    · refine ⟨hentry, ?_, ?_, ?_, hclosed, hcalm⟩ <;> grind [update_apply]
    · refine ⟨hentry, ?_, ?_, ?_, hclosed, hcalm⟩ <;> grind [update_apply]

theorem Inv.sound (h : Inv s) : Sound s := by
  refine ⟨fun k j hj => ?_, fun k k' j hj hj' => ?_, h.calm, fun hall j hj => ?_⟩
  · obtain ⟨hsent, rfl⟩ := h.result k j hj
    exact ⟨hsent, (h.aim j (.inr hsent)).2⟩
  · rw [← (h.result k j hj).2, ← (h.result k' j hj').2]
  · have hcall := (hall (s.target j)).resolve_left (h.aim j (.inl hj)).1
    exact .inl ((h.closed _).2 hcall)

/-- On every interleaving of calls and dispatches, whatever their keys are. -/
theorem sound_of_reach (h : Reach step anyAction init s) : Sound s :=
  (invariant_of_next inv_init (fun _ _ hs _ hen => inv_next hs hen) h).sound

def crossedRun : List Action :=
  [.register 0 ("NatHoleResp", "a"), .send 0 true, .lookup 0 ("NatHoleResp", "a"),
    .lookup 1 ("NatHoleResp", "a"), .deliver 0, .receive 0, .unregister 0, .close 0, .deliver 1]

theorem sound_of_reach_crossed :
    let s := (run step anyAction init crossedRun).getD init
    s.result 0 = some 0 ∧ s.dispatch 1 = .dropped ∧ Sound s :=
  ⟨by decide +kernel, by decide +kernel, sound_of_reach (reach_getD_of_isSome (by decide +kernel))⟩

end FrpMeo.Proto.Transporter
