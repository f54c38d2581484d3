import FrpMeo.Lib.Transition
import FrpMeo.Server.Relay

/-!
# The two directions of the message bridge

`joinSUDPMessageBridge` of `server/proxy/proxy.go` runs two loops. A read or a write may fail at any
time, and does once the connections are closed; the first loop that ends closes both of them, and
the function returns when both have ended.
-/

namespace FrpMeo.Server.Relay

open Lib.Transition Wire Function

inductive LanePc where
  | reading
  | writing
  /-- The loop has returned; `once.Do(closeBoth)` is next. -/
  | leaving
  | done
  deriving DecidableEq

variable {J : JSON}

structure Lane (J : JSON) where
  pc : LanePc
  left : List (Message J)
  held : Option (Message J)
  out : List (Message J)
  count : Nat

/-- The lane `true` goes from the proxy to the visitor and takes pings along. -/
structure BridgeState (J : JSON) where
  lane : Bool → Lane J
  proxyCloses : Nat
  visitorCloses : Nat
  once : Bool

def BridgeState.start (streams : Bool → List (Message J)) : BridgeState J :=
  ⟨fun d => ⟨.reading, streams d, none, [], 0⟩, 0, 0, false⟩

inductive BridgeAction where
  | read (d : Bool)
  | readFails (d : Bool)
  | write (d : Bool)
  | writeFails (d : Bool)
  | leave (d : Bool)

def BridgeState.Enabled (s : BridgeState J) : BridgeAction → Prop
  | .read d => (s.lane d).pc = .reading ∧ (s.lane d).left.isEmpty = false ∧ s.once = false
  | .readFails d => (s.lane d).pc = .reading
  | .write d => (s.lane d).pc = .writing ∧ s.once = false
  | .writeFails d => (s.lane d).pc = .writing
  | .leave d => (s.lane d).pc = .leaving

instance (s : BridgeState J) (a : BridgeAction) : Decidable (s.Enabled a) := by
  cases a <;> dsimp only [BridgeState.Enabled] <;> infer_instance

def Lane.take (l : Lane J) (forwardPing : Bool) : Lane J :=
  match l.left with
  | [] => l
  | ⟨.udpPacket, body⟩ :: left => { l with pc := .writing, left, held := some ⟨.udpPacket, body⟩ }
  | ⟨.ping, body⟩ :: left =>
      if forwardPing then { l with pc := .writing, left, held := some ⟨.ping, body⟩ }
      else { l with left }
  | _ :: left => { l with pc := .leaving, left }

variable (contentLen : J.Body .udpPacket → Nat)

def Lane.write (l : Lane J) : Lane J :=
  { l with
    pc := .reading
    out := l.out ++ l.held.toList
    count := l.count + (l.held.toList.map (payloadLen contentLen)).sum }

def BridgeState.set (s : BridgeState J) (d : Bool) (l : Lane J) : BridgeState J :=
  { s with lane := update s.lane d l }

def BridgeState.next (s : BridgeState J) : BridgeAction → BridgeState J
  | .read d => s.set d ((s.lane d).take d)
  | .write d => s.set d ((s.lane d).write contentLen)
  | .readFails d | .writeFails d => s.set d { s.lane d with pc := .leaving }
  | .leave d =>
      let s := s.set d { s.lane d with pc := .done }
      if s.once then s
      else { s with
        once := true, proxyCloses := s.proxyCloses + 1, visitorCloses := s.visitorCloses + 1 }

def bridgeStep : BridgeState J → BridgeAction → Option (BridgeState J) :=
  stepOf BridgeState.Enabled (BridgeState.next contentLen)

def kept (forwardPing : Bool) (ms : List (Message J)) : List (Message J) :=
  ms.filter fun m => m.1 = .udpPacket ∨ m.1 = .ping ∧ forwardPing

structure Bridges (streams : Bool → List (Message J)) (s : BridgeState J) : Prop where
  written : ∀ d, (s.lane d).out <+: kept d (streams d)
  counted : ∀ d, (s.lane d).count = ((s.lane d).out.map (payloadLen contentLen)).sum
  closed : (∀ d, (s.lane d).pc = .done) → s.proxyCloses = 1 ∧ s.visitorCloses = 1

/-- What was taken from the source is written, or about to be, or lost with the end of the loop. -/
structure LaneOk (forwardPing : Bool) (stream : List (Message J)) (l : Lane J) : Prop where
  taken : ∃ ms, ms ++ l.left = stream ∧ l.out <+: kept forwardPing ms ∧
    (l.pc = .reading → l.out = kept forwardPing ms) ∧
      (l.pc = .writing → l.out ++ l.held.toList = kept forwardPing ms)
  counted : l.count = (l.out.map (payloadLen contentLen)).sum

variable {contentLen} {forwardPing : Bool} {stream : List (Message J)} {l : Lane J}

theorem LaneOk.take (h : LaneOk contentLen forwardPing stream l) (hpc : l.pc = .reading) :
    LaneOk contentLen forwardPing stream (l.take forwardPing) := by
  obtain ⟨⟨ms, hms, hpre, hread, -⟩, hcount⟩ := h
  have hout := hread hpc
  unfold Lane.take
  split
  · next hnil => exact ⟨⟨ms, hms, hpre, hread, by simp [hpc]⟩, hcount⟩
  · next body left hleft =>
    refine ⟨⟨ms ++ [⟨.udpPacket, body⟩], by simp [← hms, hleft], ?_, nofun, fun _ => ?_⟩, hcount⟩
    · simp [hout, kept]
    · simp [hout, kept]
  · next body left hleft =>
    split_ifs with hf
    · refine ⟨⟨ms ++ [⟨.ping, body⟩], by simp [← hms, hleft], ?_, nofun, fun _ => ?_⟩, hcount⟩
      · simp [hout, kept]
      · simp [hout, kept, hf]
    · refine ⟨⟨ms ++ [⟨.ping, body⟩], by simp [← hms, hleft], ?_, fun _ => ?_, by simp [hpc]⟩,
        hcount⟩
      · simp [hout, kept]
      · simp [hout, kept, hf]
  · next m left _ _ hleft =>
    refine ⟨⟨ms ++ [m], by simp [← hms, hleft], ?_, nofun, nofun⟩, hcount⟩
    simp [hout, kept]

theorem LaneOk.write (h : LaneOk contentLen forwardPing stream l) (hpc : l.pc = .writing) :
    LaneOk contentLen forwardPing stream (l.write contentLen) := by
  obtain ⟨⟨ms, hms, -, -, hwrite⟩, hcount⟩ := h
  have hout := hwrite hpc
  refine ⟨⟨ms, hms, ?_, fun _ => hout, nofun⟩, ?_⟩
  · simp [Lane.write, hout]
  · simp [Lane.write, hcount]

theorem LaneOk.leave (h : LaneOk contentLen forwardPing stream l) {pc : LanePc}
    (hpc : pc = .leaving ∨ pc = .done) : LaneOk contentLen forwardPing stream { l with pc } := by
  obtain ⟨⟨ms, hms, hpre, -, -⟩, hcount⟩ := h
  refine ⟨⟨ms, hms, hpre, fun hr => ?_, fun hw => ?_⟩, hcount⟩
  · rcases hpc with rfl | rfl <;> cases hr
  · rcases hpc with rfl | rfl <;> cases hw

structure BridgeInv (contentLen : J.Body .udpPacket → Nat) (streams : Bool → List (Message J))
    (s : BridgeState J) : Prop where
  lanes : ∀ d, LaneOk contentLen d (streams d) (s.lane d)
  done : ∀ d, (s.lane d).pc = .done → s.once = true
  once : s.proxyCloses = s.once.toNat ∧ s.visitorCloses = s.once.toNat

variable {streams : Bool → List (Message J)} {s : BridgeState J} {a : BridgeAction}

theorem BridgeInv.set (h : BridgeInv contentLen streams s) {d : Bool}
    (hl : LaneOk contentLen d (streams d) l) (hdone : l.pc = .done → s.once = true) :
    BridgeInv contentLen streams (s.set d l) := by
  refine ⟨?_, ?_, h.once⟩
  · exact (forall_update_iff s.lane (p := fun d l => LaneOk contentLen d (streams d) l)).2
      ⟨hl, fun d' _ => h.lanes d'⟩
  · exact (forall_update_iff s.lane (p := fun _ l => l.pc = .done → s.once = true)).2
      ⟨hdone, fun d' _ => h.done d'⟩

theorem Lane.take_ne_done (hpc : l.pc = .reading) : (l.take forwardPing).pc ≠ .done := by
  unfold Lane.take
  split
  all_goals try split_ifs
  all_goals simp [hpc]

theorem bridgeInv_next (h : BridgeInv contentLen streams s) (hen : s.Enabled a) :
    BridgeInv contentLen streams (s.next contentLen a) := by
  cases a with
  | read d =>
    exact h.set ((h.lanes d).take hen.1) fun hd => absurd hd (Lane.take_ne_done hen.1)
  | write d => exact h.set ((h.lanes d).write hen.1) nofun
  | readFails d | writeFails d => exact h.set ((h.lanes d).leave (.inl rfl)) nofun
  | leave d =>
    have hlane := (h.lanes d).leave (.inr rfl)
    simp only [BridgeState.next]
    split_ifs with honce
    · exact h.set hlane fun _ => honce
    · -- the first loop that ends closes both connections
      have hzero : s.once = false := Bool.eq_false_of_not_eq_true honce
      refine ⟨?_, fun _ _ => rfl, ?_⟩
      · exact (forall_update_iff s.lane (p := fun d l => LaneOk contentLen d (streams d) l)).2
          ⟨hlane, fun d' _ => h.lanes d'⟩
      · simp [BridgeState.set, h.once, hzero]

/-- On every interleaving of the two directions. -/
theorem bridges_of_reach
    (h : Reach (bridgeStep contentLen) anyAction (BridgeState.start streams) s) :
    Bridges contentLen streams s := by
  have hinit : BridgeInv contentLen streams (BridgeState.start streams) := by
    refine ⟨fun d => ⟨⟨[], rfl, List.nil_prefix, fun _ => rfl, nofun⟩, rfl⟩, nofun, rfl, rfl⟩
  have hinv := invariant_of_next hinit (fun _ _ hs _ hen => bridgeInv_next hs hen) h
  refine ⟨fun d => ?_, fun d => (hinv.lanes d).counted, fun hdone => ?_⟩
  · obtain ⟨ms, hms, hpre, -, -⟩ := (hinv.lanes d).taken
    rw [← hms, kept, List.filter_append]
    exact hpre.trans (List.prefix_append _ _)
  · have honce := hinv.done true (hdone true)
    simpa [honce] using hinv.once

def mixedRun : List BridgeAction :=
  [.read true, .read false, .write true, .read true, .read false, .write false, .write true,
    .read false, .readFails true, .leave true, .writeFails false, .leave false]

theorem bridges_of_reach_mixed :
    let streams : Bool → List (Message packetJSON) :=
      fun d => if d then [heartbeat, packet hi] else [heartbeat, packet hi, packet hi]
    let s := (run (bridgeStep fun _ => 2) anyAction (.start streams) mixedRun).getD (.start streams)
    (s.lane true).count = 2 ∧ (s.lane false).count = 2 ∧ s.proxyCloses = 1 ∧
      Bridges (fun _ => 2) streams s :=
  ⟨by decide +kernel, by decide +kernel, by decide +kernel,
    bridges_of_reach (reach_getD_of_isSome (by decide +kernel))⟩

end FrpMeo.Server.Relay
