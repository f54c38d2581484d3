import FrpMeo.Lib.Transition
import FrpMeo.Vhost.Tcpmux

/-!
# The handlers of a muxer

`Muxer.handle` of `pkg/util/vhost/vhost.go` beside listeners that come and go. A handler keeps the
listener it has found while it answers and checks, and then sends the connection to its channel.
`Close` of a listener deletes its route and then closes the channel; a send to a closed one is only
logged.
-/

namespace FrpMeo.Vhost.Handlers

open Lib.Transition Function

inductive Pc where
  | absent
  | accepted
  | found (n : Nat)
  | sending (n : Nat)
  | returned
  deriving DecidableEq

inductive Door where
  | absent
  | routed
  | unrouted
  /-- The channel `accept` is closed. -/
  | shut
  deriving DecidableEq

structure State where
  door : Nat → Door
  handler : Nat → Pc
  accepted : Nat
  closed : Nat → Bool
  /-- The connections that listeners have received, each with its listener. -/
  handed : List (Nat × Nat)

def init : State := ⟨fun _ => .absent, fun _ => .absent, 0, fun _ => false, []⟩

def State.leave (s : State) (k : Nat) (closed : Bool) : State :=
  { s with handler := update s.handler k .returned, closed := update s.closed k closed }

inductive Action where
  | listen (n : Nat)
  | unroute (n : Nat)
  | shut (n : Nat)
  | accept
  /-- `handle` up to the lookup. -/
  | look (k : Nat) (io : Io) (found : Option Nat)
  /-- From there to the send. -/
  | serve (k n : Nat) (io : Io)
  | send (k n : Nat)
  | panic (k n : Nat)

def Enabled (s : State) : Action → Prop
  | .listen n => s.door n = .absent
  | .unroute n => s.door n = .routed
  | .shut n => s.door n = .unrouted
  | .accept => True
  | .look k _ found => s.handler k = .accepted ∧ ∀ n ∈ found, s.door n = .routed
  | .serve k n _ => s.handler k = .found n
  | .send k n => s.handler k = .sending n ∧ s.door n ≠ .shut
  | .panic k n => s.handler k = .sending n ∧ s.door n = .shut

instance (s : State) (a : Action) : Decidable (Enabled s a) := by
  cases a <;> dsimp only [Enabled] <;> infer_instance

section

variable {C : Type} (h : Hooks C) (listener : Nat → Listener) (conn : Nat → C)

/-- The success hook, the credentials and the deadline let the connection through. -/
def passes (io : Io) (l : Listener) (c : C) : Bool :=
  (h.vhostFunc c).any fun info =>
    (h.succeed io info).2 && (h.authorize io l info).2 && io.clearDeadline

/-- Handler `k` serves the connection `conn k`. -/
def next (s : State) : Action → State
  | .listen n => { s with door := update s.door n .routed }
  | .unroute n => { s with door := update s.door n .unrouted }
  | .shut n => { s with door := update s.door n .shut }
  | .accept =>
      { s with handler := update s.handler s.accepted .accepted, accepted := s.accepted + 1 }
  | .look k io found =>
      if !io.setDeadline || (h.vhostFunc (conn k)).isNone then s.leave k true
      else
        match found with
        | none => s.leave k ((h.failHook io).contains .closed)
        | some n => { s with handler := update s.handler k (.found n) }
  | .serve k n io =>
      if passes h io (listener n) (conn k) then
        { s with handler := update s.handler k (.sending n) }
      else s.leave k true
  | .send k n =>
      { s with handler := update s.handler k .returned, handed := (k, n) :: s.handed }
  | .panic k _ => s.leave k false

def step : State → Action → Option State := stepOf Enabled (next h listener conn)

end

/-- A listener is shut when no handler has found it and is still to send to it. -/
def ShutsUnused (s : State) : Action → Prop
  | .shut n => ∀ k < s.accepted, s.handler k ≠ .found n ∧ s.handler k ≠ .sending n
  | _ => True

instance (s : State) (a : Action) : Decidable (ShutsUnused s a) := by
  cases a <;> dsimp only [ShutsUnused] <;> infer_instance

/-- A connection whose handler has returned is closed, or has one listener. -/
structure Owned (s : State) : Prop where
  once : (s.handed.map Prod.fst).Nodup
  returned : ∀ k, s.handler k = .returned → (s.closed k = true ↔ k ∉ s.handed.map Prod.fst)

structure Inv (s : State) : Prop extends Owned s where
  handed : ∀ k ∈ s.handed.map Prod.fst, s.handler k = .returned
  opened : ∀ k, s.handler k ≠ .returned → s.closed k = false
  fresh : ∀ k, s.accepted ≤ k → s.handler k = .absent
  usable : ∀ k n, s.handler k = .found n ∨ s.handler k = .sending n → s.door n ≠ .shut

variable {C : Type} {h : Hooks C} {listener : Nat → Listener} {conn : Nat → C} {s : State}
  {a : Action} {k : Nat}

theorem Inv.leave (hs : Inv s) (hk : s.handler k ≠ .absent) (hk' : s.handler k ≠ .returned) :
    Inv (s.leave k true) := by
  obtain ⟨⟨honce, hreturned⟩, hhanded, hopened, hfresh, husable⟩ := hs
  unfold State.leave
  refine ⟨⟨honce, ?_⟩, ?_, ?_, ?_, ?_⟩ <;> grind [update_apply]

theorem Inv.goOn (hs : Inv s) (hk : s.handler k ≠ .absent) (hk' : s.handler k ≠ .returned) {n : Nat}
    (hn : s.door n ≠ .shut) {pc : Pc} (hpc : pc = .found n ∨ pc = .sending n) :
    Inv { s with handler := update s.handler k pc } := by
  obtain ⟨⟨honce, hreturned⟩, hhanded, hopened, hfresh, husable⟩ := hs
  refine ⟨⟨honce, ?_⟩, ?_, ?_, ?_, ?_⟩ <;> grind [update_apply]

theorem inv_next (hfail : ∀ io, (h.failHook io).contains .closed = true) (hs : Inv s)
    (hok : ShutsUnused s a) (hen : Enabled s a) : Inv (next h listener conn s a) := by
  cases a with
  | listen n | unroute n | accept =>
    obtain ⟨⟨honce, hreturned⟩, hhanded, hopened, hfresh, husable⟩ := hs
    refine ⟨⟨honce, ?_⟩, ?_, ?_, ?_, ?_⟩ <;> simp only [next] <;> grind [update_apply, Enabled]
  | shut n =>
    refine { hs with usable := fun k m hk => ?_ }
    simp only [next] at hk ⊢
    have hlt : k < s.accepted := by
      by_contra hle
      simp [hs.fresh k (Nat.not_lt.1 hle)] at hk
    have hunused := hok k hlt
    have hopen := hs.usable k m hk
    grind [update_apply]
  | look k io found =>
    obtain ⟨hk, hfound⟩ := hen
    have hleave := hs.leave (k := k) (by simp [hk]) (by simp [hk])
    simp only [next, hfail]
    split_ifs
    · exact hleave
    · cases found with
      | none => exact hleave
      | some n => exact hs.goOn (by simp [hk]) (by simp [hk]) (by simp [hfound n rfl]) (.inl rfl)
  | serve k n io =>
    have hk : s.handler k = .found n := hen
    simp only [next]
    split_ifs
    · exact hs.goOn (by simp [hk]) (by simp [hk]) (hs.usable k n (.inl hk)) (.inr rfl)
    · exact hs.leave (by simp [hk]) (by simp [hk])
  | send k n =>
    have hk := hen.1
    obtain ⟨⟨honce, hreturned⟩, hhanded, hopened, hfresh, husable⟩ := hs
    have hnew : k ∉ s.handed.map Prod.fst := fun hmem => by simp [hhanded k hmem] at hk
    refine ⟨⟨List.nodup_cons.2 ⟨hnew, honce⟩, ?_⟩, ?_, ?_, ?_, ?_⟩ <;>
      simp only [next, List.map_cons, List.mem_cons] <;> grind [update_apply]
  | panic k n =>
    -- the listener of a handler is open
    exact absurd hen.2 (hs.usable k n (.inr hen.1))

/-- If no listener is shut that a handler is still to send to, a connection whose handler has
returned is closed or has one listener. -/
theorem owned_of_shuts_unused (hfail : ∀ io, (h.failHook io).contains .closed = true)
    (hreach : Reach (step h listener conn) ShutsUnused init s) : Owned s := by
  have hinit : Inv init :=
    ⟨⟨List.nodup_nil, nofun⟩, nofun, fun _ _ => rfl, fun _ _ => rfl, fun _ _ _ => by simp [init]⟩
  exact (invariant_of_next hinit (fun _ _ hs hok hen => inv_next hfail hs hok hen) hreach).toOwned

/-- A port whose hooks send no answer and check no credentials. -/
def plainStep : State → Action → Option State :=
  step (⟨fun _ => some ⟨[], [], [], []⟩, none, none, fun _ => [.closed]⟩ : Hooks Unit)
    (fun _ => ⟨[], [], [], [], []⟩) fun _ => ()

def upToSend : List Action := [.listen 0, .accept, .look 0 .good (some 0), .serve 0 0 .good]

theorem owned_of_shuts_unused_send : Owned ((run plainStep ShutsUnused init
      (upToSend ++ [.unroute 0, .send 0 0, .shut 0])).getD init) :=
  owned_of_shuts_unused (fun _ => rfl) (reach_getD_of_isSome (by decide +kernel))

/-- A listener is closed while a handler is about to send to it. -/
theorem shut_listener_leaves_connection :
    ∃ s, Reach plainStep anyAction init s ∧ s.handler 0 = .returned ∧ s.closed 0 = false ∧
      s.handed = [] :=
  ⟨(run plainStep anyAction init (upToSend ++ [.unroute 0, .shut 0, .panic 0 0])).getD init,
    reach_getD_of_isSome (by decide +kernel), by decide +kernel, by decide +kernel,
    by decide +kernel⟩

end FrpMeo.Vhost.Handlers
