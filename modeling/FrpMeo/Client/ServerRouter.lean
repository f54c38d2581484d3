import FrpMeo.Lib.Transition
import Mathlib.Logic.Function.Basic

/-!
# Source addresses of virtual-net servers

The read loop of a connection (`readLoopServer` of `pkg/vnet/controller.go`) registers the source
address of each packet and, at its end, removes the addresses that lead to the connection.
`registerSrcIP` looks under the read lock whether the address leads there, and else writes under the
write lock. Packets without an address change nothing.
-/

namespace FrpMeo.Client.ServerRouter

open Lib.Transition Function

inductive ReadPc where
  | absent
  | reading
  /-- The address leads elsewhere; the write lock of `registerSrcIP` is next. -/
  | registering (key : String)
  /-- The loop has ended; `cleanupConnIPs` is next. -/
  | failed
  | ended
  deriving DecidableEq

/-- `effects` are the registrations that have taken effect, the last one first. -/
structure State where
  srcIPConns : String → Option Nat
  read : Nat → ReadPc
  effects : List (String × Nat)

def init : State := ⟨fun _ => none, fun _ => .absent, []⟩

inductive Action where
  | start (conn : Nat)
  /-- A packet from the address; the look under the read lock. -/
  | packet (conn : Nat) (key : String)
  /-- The look again and the write under the write lock. -/
  | write (conn : Nat) (key : String)
  | fail (conn : Nat)
  | cleanupConnIPs (conn : Nat)

def Enabled (s : State) : Action → Prop
  | .start conn => s.read conn = .absent
  | .packet conn _ | .fail conn => s.read conn = .reading
  | .write conn key => s.read conn = .registering key
  | .cleanupConnIPs conn => s.read conn = .failed

instance (s : State) (a : Action) : Decidable (Enabled s a) := by
  cases a <;> dsimp only [Enabled] <;> infer_instance

def next (s : State) : Action → State
  | .start conn => { s with read := update s.read conn .reading }
  | .packet conn key =>
    if s.srcIPConns key = some conn then { s with effects := (key, conn) :: s.effects }
    else { s with read := update s.read conn (.registering key) }
  | .write conn key =>
    { s with
      srcIPConns := if s.srcIPConns key = some conn then s.srcIPConns
        else update s.srcIPConns key (some conn)
      read := update s.read conn .reading
      effects := (key, conn) :: s.effects }
  | .fail conn => { s with read := update s.read conn .failed }
  | .cleanupConnIPs conn =>
    { s with
      srcIPConns := fun key =>
        if s.srcIPConns key = some conn then none else s.srcIPConns key
      read := update s.read conn .ended }

def step : State → Action → Option State := stepOf Enabled next

def lastEffect (s : State) (key : String) : Option (String × Nat) :=
  s.effects.find? fun e => e.1 = key

variable {s : State}

structure Mapped (s : State) : Prop where
  live : ∀ key conn, s.srcIPConns key = some conn → s.read conn ≠ .ended
  last : ∀ key conn, s.srcIPConns key = some conn → lastEffect s key = some (key, conn)

theorem mapped_next (hs : Mapped s) (a : Action) : Mapped (next s a) := by
  obtain ⟨hlive, hlast⟩ := hs
  unfold lastEffect at hlast
  cases a with
  | start conn | fail conn =>
    simp only [next]
    constructor <;> grind [lastEffect, update_apply]
  | packet conn key =>
    simp only [next]
    split_ifs <;> constructor <;> grind [lastEffect, update_apply]
  | write conn key =>
    -- also where the second look finds the address, the registration takes effect here
    simp only [next]
    split_ifs <;> constructor <;> grind [lastEffect, update_apply]
  | cleanupConnIPs conn =>
    simp only [next]
    constructor <;> grind [lastEffect, update_apply]

/-- No address leads to a connection whose loop has cleaned up; one that is mapped leads to the
connection that registered it last. -/
theorem mapped_of_reach (h : Reach step anyAction init s) : Mapped s :=
  invariant_of_next ⟨by simp [init], by simp [init]⟩ (fun _ a hs _ _ => mapped_next hs a) h

def takeOver : List Action :=
  [.start 0, .start 1, .packet 0 "10.0.0.1", .packet 1 "10.0.0.1", .write 1 "10.0.0.1",
    .write 0 "10.0.0.1", .packet 1 "10.0.0.1", .fail 0, .cleanupConnIPs 0, .write 1 "10.0.0.1"]

theorem mapped_of_reach_two :
    let s := (run step anyAction init takeOver).getD init
    s.srcIPConns "10.0.0.1" = some 1 ∧ Mapped s :=
  ⟨by decide +kernel, mapped_of_reach (reach_getD_of_isSome (by decide +kernel))⟩

end FrpMeo.Client.ServerRouter
