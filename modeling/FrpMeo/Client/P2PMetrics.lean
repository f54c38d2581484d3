import FrpMeo.Metrics.Reports

/-!
# What a client reports of its direct streams

A proxy of type `xtcp+xudp` serves direct streams and streams that the server relays and measures
(`client/proxy/xtcpxudp.go`). The client counts the former and reports the changes every ten seconds
from four loads (`client/proxy/metrics.go`). Bytes are counted on direct streams only, but
`handleStream` counts a session for every stream.
-/

namespace FrpMeo.Client.P2P

open Lib Lib.Transition
open Metrics (ProxyMetrics)

def udpIdleTimeout : Int := 15 * 1000000000

/-- `p2pMetrics`; that the reporter was started is its state below. -/
structure P2PMetrics where
  tcpConns : Int
  lastUDPNano : Int
  bytesIn : Int
  bytesOut : Int
  lastConns : Int
  lastIn : Int
  lastOut : Int

def udpActive (last now : Int) : Bool := last ≠ 0 ∧ now - last < udpIdleTimeout

/-- `flush` with what was loaded: the counters after it, and the report if something moved. -/
def flush (name : String) (m : P2PMetrics) (conns bytesIn bytesOut : Int) :
    P2PMetrics × List ProxyMetrics :=
  let dConns := conns - m.lastConns
  let dIn := bytesIn - m.lastIn
  let dOut := bytesOut - m.lastOut
  if dConns = 0 ∧ dIn = 0 ∧ dOut = 0 then (m, [])
  else
    ({ m with lastConns := conns, lastIn := bytesIn, lastOut := bytesOut },
      [{ proxyName := name, connsDelta := dConns, trafficInDelta := dIn, trafficOutDelta := dOut }])

structure Flushed (m : P2PMetrics) (conns bytesIn bytesOut : Int)
    (r : P2PMetrics × List ProxyMetrics) : Prop where
  lastConns : r.1.lastConns = conns
  lastIn : r.1.lastIn = bytesIn
  lastOut : r.1.lastOut = bytesOut
  dConns : (r.2.map (·.connsDelta)).sum = conns - m.lastConns
  dIn : (r.2.map (·.trafficInDelta)).sum = bytesIn - m.lastIn
  dOut : (r.2.map (·.trafficOutDelta)).sum = bytesOut - m.lastOut
  rest : r.1 = { m with lastConns := r.1.lastConns, lastIn := r.1.lastIn, lastOut := r.1.lastOut }

theorem flushed_flush (name : String) (m : P2PMetrics) (conns bytesIn bytesOut : Int) :
    Flushed m conns bytesIn bytesOut (flush name m conns bytesIn bytesOut) := by
  unfold flush
  dsimp only
  split_ifs with hsame
  · obtain ⟨hconns, hin, hout⟩ := hsame
    exact ⟨by dsimp only; omega, by dsimp only; omega, by dsimp only; omega, hconns.symm, hin.symm,
      hout.symm, rfl⟩
  · exact ⟨rfl, rfl, rfl, add_zero _, add_zero _, add_zero _, rfl⟩

/-! ## Streams -/

inductive Via where
  | direct
  | relayed
  deriving DecidableEq

inductive Stage where
  /-- `handleStream` waits for the tag. -/
  | untagged
  | tagged (tag : UInt8)
  /-- In `HandleTCPWorkConnection`. -/
  | tcp
  /-- In the loop of `handleUDPWorkConnection`. -/
  | udp
  | ended
  deriving DecidableEq

/-- What the server does with a stream it relays (`handleUserTCPConnection`). -/
inductive ServerSide where
  | waiting
  | joined
  | done
  deriving DecidableEq

structure Stream where
  via : Via
  stage : Stage
  bytesIn : Int
  bytesOut : Int
  server : ServerSide
  deriving DecidableEq

def newStream (via : Via) : Stream := ⟨via, .untagged, 0, 0, .waiting⟩

def Stream.Flows (st : Stream) : Prop := st.via = .direct ∨ st.server = .joined

instance (st : Stream) : Decidable st.Flows := inferInstanceAs (Decidable (_ ∨ _))

namespace Stream

variable (st : Stream)

def session (via : Via) : Int := if st.via = via ∧ st.stage = .tcp then 1 else 0

def directIn : Int := if st.via = .direct then st.bytesIn else 0

def directOut : Int := if st.via = .direct then st.bytesOut else 0

def joined : Int := if st.via = .relayed ∧ st.server = .joined then 1 else 0

def doneIn : Int := if st.via = .relayed ∧ st.server = .done then st.bytesIn else 0

def doneOut : Int := if st.via = .relayed ∧ st.server = .done then st.bytesOut else 0

end Stream

/-- A read; `byteCountConn` is around direct streams only. -/
def P2PMetrics.countIn (m : P2PMetrics) (st : Stream) (n : Int) : P2PMetrics :=
  { m with bytesIn := m.bytesIn + if st.via = .direct then n else 0 }

def P2PMetrics.countOut (m : P2PMetrics) (st : Stream) (n : Int) : P2PMetrics :=
  { m with bytesOut := m.bytesOut + if st.via = .direct then n else 0 }

def tagTCP : UInt8 := 0x01

def tagUDP : UInt8 := 0x02

def stageOf (tag : UInt8) : Stage :=
  if tag = tagTCP then .tcp else if tag = tagUDP then .udp else .ended

def P2PMetrics.tcpOpen (m : P2PMetrics) : P2PMetrics := { m with tcpConns := m.tcpConns + 1 }

def P2PMetrics.tcpClose (m : P2PMetrics) : P2PMetrics := { m with tcpConns := m.tcpConns - 1 }

/-! ## The reporter -/

inductive Reporter where
  | off
  | waiting
  | zeroedTCP
  | zeroedUDP
  | gotTCP (final : Bool) (tcp : Int)
  | gotConns (final : Bool) (conns : Int)
  | gotIn (final : Bool) (conns bytesIn : Int)
  | gotOut (final : Bool) (conns bytesIn bytesOut : Int)
  | ended
  deriving DecidableEq

/-- What there was at the loads of a `flush`; `zeroed` streams when the reporter stored zero. -/
structure Snapshot where
  final : Bool
  directTCP : Int
  relayedTCP : Int
  zeroed : Int
  udp : Bool
  directUDP : Bool
  bytesIn : Int
  bytesOut : Int

namespace Snapshot

def zero : Snapshot := ⟨false, 0, 0, 0, false, false, 0, 0⟩

def tcp (v : Snapshot) : Int := v.directTCP + v.relayedTCP - v.zeroed

def conns (v : Snapshot) : Int := v.tcp + v.udp.toInt

def expected (v : Snapshot) : Int := if v.final then 0 else v.directTCP + v.directUDP.toInt

/-- No relayed stream is counted; at the last report, what was opened since was closed again. -/
def Exact (v : Snapshot) : Prop :=
  if v.final then v.tcp + v.udp.toInt = 0 else v.relayedTCP = 0 ∧ v.udp = v.directUDP

end Snapshot

/-- The counters, the streams, the reporter and its reports; the time, and what there was at the
loads of this `flush` and of the last one. -/
structure State where
  metrics : P2PMetrics
  streams : GoMap Nat Stream
  reporter : Reporter
  reports : List ProxyMetrics
  serverConns : Int
  serverIn : Int
  serverOut : Int
  clock : Int
  lastDirect : Int
  zeroed : Int
  seen : Snapshot
  sent : Snapshot

def init (clock : Int) : State where
  metrics := ⟨0, 0, 0, 0, 0, 0, 0⟩
  streams := .empty
  reporter := .off
  reports := []
  serverConns := 0
  serverIn := 0
  serverOut := 0
  clock := clock
  lastDirect := 0
  zeroed := 0
  seen := .zero
  sent := .zero

namespace State

variable (s : State)

def sessions (via : Via) : Int := s.streams.total (·.session via)

def directIn : Int := s.streams.total Stream.directIn

def directOut : Int := s.streams.total Stream.directOut

def relayedConns : Int := s.streams.total Stream.joined

def relayedIn : Int := s.streams.total Stream.doneIn

def relayedOut : Int := s.streams.total Stream.doneOut

def reportedConns : Int := (s.reports.map (·.connsDelta)).sum

def reportedIn : Int := (s.reports.map (·.trafficInDelta)).sum

def reportedOut : Int := (s.reports.map (·.trafficOutDelta)).sum

end State

inductive Action where
  /-- A work connection comes with the protocol `nathole`. -/
  | natHole
  /-- A stream is accepted from the hole. -/
  | direct (c : Nat)
  /-- A work connection comes with another protocol. -/
  | relay (c : Nat)
  | serverOpen (c : Nat) (st : Stream)
  | serverDone (c : Nat) (st : Stream)
  | readTag (c : Nat) (st : Stream) (tag : UInt8)
  | dispatch (c : Nat) (st : Stream) (tag : UInt8)
  | read (c : Nat) (st : Stream) (n : Nat)
  | write (c : Nat) (st : Stream) (n : Nat)
  | packet (c : Nat) (st : Stream) (now : Int)
  | close (c : Nat) (st : Stream)
  /-- The reporter finds the context done. -/
  | storeTCP
  | storeUDP
  | loadTCP
  | loadUDP (final : Bool) (tcp now : Int)
  | loadIn (final : Bool) (conns : Int)
  | loadOut (final : Bool) (conns bytesIn : Int)
  | send (final : Bool) (conns bytesIn bytesOut : Int)

def Enabled (s : State) : Action → Prop
  | .natHole => True
  -- there is a hole after the reporter was started
  | .direct c => s.streams.get c = none ∧ s.reporter ≠ .off
  | .relay c => s.streams.get c = none
  | .serverOpen c st => s.streams.get c = some st ∧ st.via = .relayed ∧ st.server = .waiting
  | .serverDone c st => s.streams.get c = some st ∧ st.via = .relayed ∧ st.server = .joined
  | .readTag c st _ => s.streams.get c = some st ∧ st.stage = .untagged ∧ st.Flows
  | .dispatch c st tag => s.streams.get c = some st ∧ st.stage = .tagged tag
  | .read c st _ => s.streams.get c = some st ∧ (st.stage = .tcp ∨ st.stage = .udp) ∧ st.Flows
  | .write c st _ => s.streams.get c = some st ∧ (st.stage = .tcp ∨ st.stage = .udp) ∧ st.Flows
  | .packet c st now => s.streams.get c = some st ∧ st.stage = .udp ∧ s.clock ≤ now
  | .close c st => s.streams.get c = some st ∧ st.stage ≠ .ended
  | .storeTCP => s.reporter = .waiting
  | .storeUDP => s.reporter = .zeroedTCP
  | .loadTCP => s.reporter = .waiting ∨ s.reporter = .zeroedUDP
  | .loadUDP final tcp now => s.reporter = .gotTCP final tcp ∧ s.clock ≤ now
  | .loadIn final conns => s.reporter = .gotConns final conns
  | .loadOut final conns bytesIn => s.reporter = .gotIn final conns bytesIn
  | .send final conns bytesIn bytesOut => s.reporter = .gotOut final conns bytesIn bytesOut

instance (s : State) (a : Action) : Decidable (Enabled s a) := by
  cases a <;> dsimp only [Enabled] <;> infer_instance

def next (name : String) (s : State) : Action → State
  | .natHole => { s with reporter := if s.reporter = .off then .waiting else s.reporter }
  | .direct c => { s with streams := s.streams.insert c (newStream .direct) }
  | .relay c => { s with streams := s.streams.insert c (newStream .relayed) }
  | .serverOpen c st =>
      { s with
        serverConns := s.serverConns + 1
        streams := s.streams.insert c { st with server := .joined } }
  | .serverDone c st =>
      { s with
        serverConns := s.serverConns - 1
        serverIn := s.serverIn + st.bytesIn
        serverOut := s.serverOut + st.bytesOut
        streams := s.streams.insert c { st with server := .done } }
  | .readTag c st tag =>
      { s with
        metrics := s.metrics.countIn st 1
        streams := s.streams.insert c { st with stage := .tagged tag, bytesIn := st.bytesIn + 1 } }
  | .dispatch c st tag =>
      { s with
        metrics := if tag = tagTCP then s.metrics.tcpOpen else s.metrics
        streams := s.streams.insert c { st with stage := stageOf tag } }
  | .read c st n =>
      { s with
        metrics := s.metrics.countIn st n
        streams := s.streams.insert c { st with bytesIn := st.bytesIn + n } }
  | .write c st n =>
      { s with
        metrics := s.metrics.countOut st n
        streams := s.streams.insert c { st with bytesOut := st.bytesOut + n } }
  | .packet _ st now =>
      { s with
        metrics := { s.metrics with lastUDPNano := now }
        lastDirect := if st.via = .direct then now else s.lastDirect
        clock := now }
  | .close c st =>
      { s with
        metrics := if st.stage = .tcp then s.metrics.tcpClose else s.metrics
        streams := s.streams.insert c { st with stage := .ended } }
  | .storeTCP =>
      { s with
        metrics := { s.metrics with tcpConns := 0 }
        zeroed := s.sessions .direct + s.sessions .relayed
        reporter := .zeroedTCP }
  | .storeUDP => { s with metrics := { s.metrics with lastUDPNano := 0 }, reporter := .zeroedUDP }
  | .loadTCP =>
      { s with
        reporter := .gotTCP (s.reporter = .zeroedUDP) s.metrics.tcpConns
        seen := { s.seen with
          final := s.reporter = .zeroedUDP
          directTCP := s.sessions .direct
          relayedTCP := s.sessions .relayed
          zeroed := s.zeroed } }
  | .loadUDP final tcp now =>
      let udp := udpActive s.metrics.lastUDPNano now
      { s with
        reporter := .gotConns final (tcp + udp.toInt)
        seen := { s.seen with udp, directUDP := udpActive s.lastDirect now }
        clock := now }
  | .loadIn final conns =>
      { s with
        reporter := .gotIn final conns s.metrics.bytesIn
        seen := { s.seen with bytesIn := s.directIn } }
  | .loadOut final conns bytesIn =>
      { s with
        reporter := .gotOut final conns bytesIn s.metrics.bytesOut
        seen := { s.seen with bytesOut := s.directOut } }
  | .send final conns bytesIn bytesOut =>
      let (metrics, report) := flush name s.metrics conns bytesIn bytesOut
      { s with
        metrics
        reports := s.reports ++ report
        reporter := if final then .ended else .waiting
        sent := s.seen }

def step (name : String) : State → Action → Option State := stepOf Enabled (next name)

/-! ## The counters -/

section Counters

structure Measures (tcpConns bytesIn bytesOut serverConns serverIn serverOut zeroed : Int)
    (streams : GoMap Nat Stream) : Prop where
  tcp : tcpConns =
    streams.total (·.session .direct) + streams.total (·.session .relayed) - zeroed
  bytesIn : bytesIn = streams.total Stream.directIn
  bytesOut : bytesOut = streams.total Stream.directOut
  serverConns : serverConns = streams.total Stream.joined
  serverIn : serverIn = streams.total Stream.doneIn
  serverOut : serverOut = streams.total Stream.doneOut

def Measured (s : State) : Prop :=
  Measures s.metrics.tcpConns s.metrics.bytesIn s.metrics.bytesOut s.serverConns s.serverIn
    s.serverOut s.zeroed s.streams

variable {tcpConns bytesIn bytesOut serverConns serverIn serverOut zeroed : Int}
  {streams : GoMap Nat Stream} {c : Nat} {st : Stream}

theorem same_share (n share : Int) : n = n + (share - share) := by
  omega

theorem same_shares (n share share' : Int) : n = n + (share - share + (share' - share')) := by
  omega

theorem Measures.move
    (h : Measures tcpConns bytesIn bytesOut serverConns serverIn serverOut zeroed streams)
    (hget : streams.get c = some st) {new : Stream}
    {tcpConns' bytesIn' bytesOut' serverConns' serverIn' serverOut' : Int}
    (htcp : tcpConns' = tcpConns + (new.session .direct - st.session .direct +
      (new.session .relayed - st.session .relayed)))
    (hin : bytesIn' = bytesIn + (new.directIn - st.directIn))
    (hout : bytesOut' = bytesOut + (new.directOut - st.directOut))
    (hconns : serverConns' = serverConns + (new.joined - st.joined))
    (hdoneIn : serverIn' = serverIn + (new.doneIn - st.doneIn))
    (hdoneOut : serverOut' = serverOut + (new.doneOut - st.doneOut)) :
    Measures tcpConns' bytesIn' bytesOut' serverConns' serverIn' serverOut' zeroed
      (streams.insert c new) := by
  refine ⟨?_, ?_, ?_, ?_, ?_, ?_⟩
  · rw [GoMap.total_insert_of_get hget, GoMap.total_insert_of_get hget, htcp, h.tcp]
    omega
  · rw [GoMap.total_insert_of_get hget, hin, h.bytesIn]
  · rw [GoMap.total_insert_of_get hget, hout, h.bytesOut]
  · rw [GoMap.total_insert_of_get hget, hconns, h.serverConns]
  · rw [GoMap.total_insert_of_get hget, hdoneIn, h.serverIn]
  · rw [GoMap.total_insert_of_get hget, hdoneOut, h.serverOut]

theorem Measures.new
    (h : Measures tcpConns bytesIn bytesOut serverConns serverIn serverOut zeroed streams)
    (hget : streams.get c = none) (via : Via) :
    Measures tcpConns bytesIn bytesOut serverConns serverIn serverOut zeroed
      (streams.insert c (newStream via)) := by
  have hsame : ∀ w : Stream → Int, w (newStream via) = 0 →
      (streams.insert c (newStream via)).total w = streams.total w := by
    intro w hw
    rw [GoMap.total_insert_of_none hget, hw, add_zero]
  refine ⟨?_, ?_, ?_, ?_, ?_, ?_⟩
  · rw [hsame _ (by simp [Stream.session, newStream]),
      hsame _ (by simp [Stream.session, newStream])]
    exact h.tcp
  · rw [hsame _ (ite_self 0)]
    exact h.bytesIn
  · rw [hsame _ (ite_self 0)]
    exact h.bytesOut
  · rw [hsame _ (by simp [Stream.joined, newStream])]
    exact h.serverConns
  · rw [hsame _ (by simp [Stream.doneIn, newStream])]
    exact h.serverIn
  · rw [hsame _ (by simp [Stream.doneOut, newStream])]
    exact h.serverOut

end Counters

theorem measured_init {clock : Int} : Measured (init clock) := by
  refine ⟨?_, ?_, ?_, ?_, ?_, ?_⟩
  · change (0 : Int) = GoMap.total .empty _ + GoMap.total .empty _ - 0
    rw [GoMap.total_empty, GoMap.total_empty]
    rfl
  all_goals exact (GoMap.total_empty _).symm

section Steps

variable {name : String} {s : State} {st : Stream} {a : Action}

theorem not_done_of_flows (h : st.Flows) : ¬ (st.via = .relayed ∧ st.server = .done) := by
  intro hdone
  rcases h with hvia | hserver
  · rw [hvia] at hdone
    cases hdone.1
  · rw [hserver] at hdone
    cases hdone.2

theorem Measured.addIn (h : Measured s) {c : Nat} (hget : s.streams.get c = some st)
    (hflows : st.Flows) {stage : Stage} (hstage : stage = .tcp ↔ st.stage = .tcp) {n : Int} :
    Measured { s with
      metrics := s.metrics.countIn st n
      streams := s.streams.insert c { st with stage, bytesIn := st.bytesIn + n } } := by
  have hnot := not_done_of_flows hflows
  refine h.move hget ?_ ?_ (same_share ..) (same_share ..) ?_ (same_share ..)
  · have hsession : ∀ via,
        ({ st with stage, bytesIn := st.bytesIn + n } : Stream).session via = st.session via := by
      intro via
      simp only [Stream.session, hstage]
    rw [hsession, hsession]
    exact same_shares ..
  · simp only [P2PMetrics.countIn, Stream.directIn]
    split_ifs <;> omega
  · simp only [Stream.doneIn, if_neg hnot]
    exact same_share ..

theorem Measured.addOut (h : Measured s) {c : Nat} (hget : s.streams.get c = some st)
    (hflows : st.Flows) {n : Int} : Measured { s with
      metrics := s.metrics.countOut st n
      streams := s.streams.insert c { st with bytesOut := st.bytesOut + n } } := by
  have hnot := not_done_of_flows hflows
  refine h.move hget (same_shares ..) (same_share ..) ?_ (same_share ..) (same_share ..) ?_
  · simp only [P2PMetrics.countOut, Stream.directOut]
    split_ifs <;> omega
  · simp only [Stream.doneOut, if_neg hnot]
    exact same_share ..

theorem session_add (st : Stream) :
    st.session .direct + st.session .relayed = if st.stage = .tcp then 1 else 0 := by
  cases hvia : st.via with
  | direct | relayed => simp [Stream.session, hvia]

theorem Measured.setStage (h : Measured s) {c : Nat} (hget : s.streams.get c = some st)
    (stage : Stage) {tcpConns : Int} (htcp : tcpConns = s.metrics.tcpConns +
      ((if stage = .tcp then 1 else 0) - if st.stage = .tcp then 1 else 0)) :
    Measured { s with
      metrics := { s.metrics with tcpConns }
      streams := s.streams.insert c { st with stage } } := by
  refine h.move hget ?_ (same_share ..) (same_share ..) (same_share ..) (same_share ..)
    (same_share ..)
  have hold := session_add st
  have hnew := session_add { st with stage }
  rw [← hold] at htcp
  dsimp only at hnew ⊢
  rw [← hnew] at htcp
  omega

theorem measured_next (h : Measured s) (hen : Enabled s a) : Measured (next name s a) := by
  cases a with
  | direct c => exact h.new hen.1 .direct
  | relay c => exact h.new hen .relayed
  | serverOpen c st =>
    obtain ⟨hget, hvia, hserver⟩ := hen
    refine h.move hget (same_shares ..) (same_share ..) (same_share ..) ?_ ?_ ?_
    · simp [Stream.joined, next, hvia, hserver]
    · simp [Stream.doneIn, next, hserver]
    · simp [Stream.doneOut, next, hserver]
  | serverDone c st =>
    obtain ⟨hget, hvia, hserver⟩ := hen
    refine h.move hget (same_shares ..) (same_share ..) (same_share ..) ?_ ?_ ?_
    · simp [Stream.joined, next, hvia, hserver]
      rfl
    · simp [Stream.doneIn, next, hvia, hserver]
    · simp [Stream.doneOut, next, hvia, hserver]
  | readTag c st tag =>
    obtain ⟨hget, hstage, hflows⟩ := hen
    exact h.addIn hget hflows (by rw [hstage]; simp)
  | dispatch c st tag =>
    obtain ⟨hget, hstage⟩ := hen
    by_cases htag : tag = tagTCP
    · have hstep : Measured { s with
          metrics := s.metrics.tcpOpen
          streams := s.streams.insert c { st with stage := stageOf tag } } :=
        h.setStage hget (stageOf tag) (by simp [stageOf, htag, hstage])
      simpa only [next, if_pos htag] using hstep
    · have hnot : stageOf tag ≠ .tcp := by
        unfold stageOf
        split_ifs <;> simp
      have hstep : Measured { s with
          streams := s.streams.insert c { st with stage := stageOf tag } } :=
        h.setStage hget (stageOf tag) (by simp [hnot, hstage])
      simpa only [next, if_neg htag] using hstep
  | read c st n => exact h.addIn hen.1 hen.2.2 Iff.rfl
  | write c st n => exact h.addOut hen.1 hen.2.2
  | close c st =>
    obtain ⟨hget, hstage⟩ := hen
    by_cases htcp : st.stage = .tcp
    · have hstep : Measured { s with
          metrics := s.metrics.tcpClose
          streams := s.streams.insert c { st with stage := .ended } } :=
        h.setStage hget .ended (by simp [htcp]; rfl)
      simpa only [next, if_pos htcp] using hstep
    · have hstep : Measured { s with
          streams := s.streams.insert c { st with stage := .ended } } :=
        h.setStage hget .ended (by simp [htcp])
      simpa only [next, if_neg htcp] using hstep
  | storeTCP => exact { h with tcp := (sub_self _).symm }
  | natHole | packet | storeUDP | loadTCP | loadUDP | loadIn | loadOut => exact h
  | send final conns bytesIn bytesOut =>
    simp only [next, Measured]
    rw [(flushed_flush name s.metrics conns bytesIn bytesOut).rest]
    exact h

/-! ## The reports -/

namespace Snapshot

def TCPOk (v : Snapshot) : Prop := 0 ≤ v.relayedTCP ∧ (v.final = false → v.zeroed = 0)

def Ok (v : Snapshot) : Prop := v.TCPOk ∧ (v.final = false → v.directUDP = true → v.udp = true)

theorem exact_iff {v : Snapshot} (h : v.Ok) : v.conns = v.expected ↔ v.Exact := by
  obtain ⟨⟨hrelayed, hzeroed⟩, hudp⟩ := h
  cases hfinal : v.final with
  | true =>
    simp only [expected, Exact, hfinal, if_true]
    exact Iff.rfl
  | false =>
    have hz := hzeroed hfinal
    have hd := hudp hfinal
    simp only [conns, tcp, expected, Exact, hfinal, Bool.false_eq_true, if_false, hz]
    -- the two flags differ by at most one, in one direction only
    cases hu : v.udp with
    | true =>
      cases v.directUDP with
      | true => simp
      | false =>
        simp only [Bool.toInt_true, Bool.toInt_false, Bool.true_eq_false, and_false, iff_false]
        omega
    | false =>
      cases hdu : v.directUDP with
      | true => exact absurd (hd hdu) (by rw [hu]; exact Bool.false_ne_true)
      | false => simp

end Snapshot

def Loads (v : Snapshot) : Reporter → Prop
  | .gotTCP final tcp => v.final = final ∧ v.TCPOk ∧ tcp = v.tcp
  | .gotConns final conns => v.final = final ∧ v.Ok ∧ conns = v.conns
  | .gotIn final conns bytesIn => v.final = final ∧ v.Ok ∧ conns = v.conns ∧ bytesIn = v.bytesIn
  | .gotOut final conns bytesIn bytesOut =>
      v.final = final ∧ v.Ok ∧ conns = v.conns ∧ bytesIn = v.bytesIn ∧ bytesOut = v.bytesOut
  | _ => True

def Reporter.stopped : Reporter → Bool
  | .off | .waiting => false
  | .zeroedTCP | .zeroedUDP | .ended => true
  | .gotTCP final _ | .gotConns final _ | .gotIn final _ _ | .gotOut final _ _ _ => final

structure Times (clock lastDirect lastUDPNano zeroed : Int) (reporter : Reporter) : Prop where
  nonneg : 0 ≤ lastDirect
  le : lastDirect ≤ clock
  serving : reporter.stopped = false → zeroed = 0 ∧ lastDirect ≤ lastUDPNano

def Timed (s : State) : Prop := Times s.clock s.lastDirect s.metrics.lastUDPNano s.zeroed s.reporter

structure Tells (lastConns lastIn lastOut : Int) (reports : List ProxyMetrics) (sent : Snapshot) :
    Prop where
  sumConns : (reports.map (·.connsDelta)).sum = lastConns
  sumIn : (reports.map (·.trafficInDelta)).sum = lastIn
  sumOut : (reports.map (·.trafficOutDelta)).sum = lastOut
  conns : lastConns = sent.conns
  bytesIn : lastIn = sent.bytesIn
  bytesOut : lastOut = sent.bytesOut
  ok : sent.Ok

def Told (s : State) : Prop :=
  Tells s.metrics.lastConns s.metrics.lastIn s.metrics.lastOut s.reports s.sent

theorem timed_init {clock : Int} (h : 0 ≤ clock) : Timed (init clock) :=
  ⟨le_refl 0, h, fun _ => ⟨rfl, le_refl 0⟩⟩

theorem timed_next (h : Timed s) (hen : Enabled s a) : Timed (next name s a) := by
  cases a with
  | packet c st now =>
    have hnow : s.clock ≤ now := hen.2.2
    have hle := h.le
    have hnonneg := h.nonneg
    simp only [next, Timed]
    split_ifs
    · exact ⟨by omega, le_refl now, fun hs => ⟨(h.serving hs).1, le_refl now⟩⟩
    · exact ⟨hnonneg, by omega, fun hs => ⟨(h.serving hs).1, by omega⟩⟩
  | natHole =>
    refine ⟨h.nonneg, h.le, fun hs => h.serving ?_⟩
    simp only [next] at hs
    split_ifs at hs with hoff
    · rw [hoff]
      rfl
    · exact hs
  | dispatch | close =>
    simp only [next, Timed]
    split_ifs <;> exact h
  | storeTCP | storeUDP => exact ⟨h.nonneg, h.le, nofun⟩
  | loadTCP =>
    refine ⟨h.nonneg, h.le, fun hs => h.serving ?_⟩
    rcases hen with hwait | hzero
    · rw [hwait]
      rfl
    · simp [next, Reporter.stopped, hzero] at hs
  | loadUDP final tcp now =>
    refine ⟨h.nonneg, h.le.trans hen.2, fun hs => h.serving ?_⟩
    rw [hen.1]
    exact hs
  | loadIn | loadOut =>
    refine ⟨h.nonneg, h.le, fun hs => h.serving ?_⟩
    rw [show s.reporter = _ from hen]
    exact hs
  | send final conns bytesIn bytesOut =>
    have hudp : (flush name s.metrics conns bytesIn bytesOut).1.lastUDPNano =
        s.metrics.lastUDPNano := by
      rw [(flushed_flush name s.metrics conns bytesIn bytesOut).rest]
    refine ⟨h.nonneg, h.le, fun hs => ?_⟩
    have hserving := h.serving (by
      rw [show s.reporter = _ from hen]
      cases final with
      | true => cases hs
      | false => rfl)
    exact ⟨hserving.1, hserving.2.trans_eq hudp.symm⟩
  | direct | relay | serverOpen | serverDone | readTag | read | write => exact h

theorem sessions_nonneg {via : Via} : 0 ≤ s.sessions via := by
  apply GoMap.total_nonneg
  intro c st _
  unfold Stream.session
  split_ifs <;> omega

theorem udpActive_of_direct {lastDirect last now : Int} (hnonneg : 0 ≤ lastDirect)
    (hle : lastDirect ≤ last) (h : udpActive lastDirect now = true) :
    udpActive last now = true := by
  simp only [udpActive, decide_eq_true_eq] at h ⊢
  omega

theorem loads_next (hm : Measured s) (ht : Timed s) (h : Loads s.seen s.reporter)
    (hen : Enabled s a) : Loads (next name s a).seen (next name s a).reporter := by
  cases a with
  | loadTCP =>
    refine ⟨rfl, ⟨sessions_nonneg, ?_⟩, hm.tcp⟩
    intro hfinal
    rcases hen with hwait | hzero
    · exact (ht.serving (by rw [hwait]; rfl)).1
    · simp [next, hzero] at hfinal
  | loadUDP final tcp now =>
    rw [hen.1] at h
    obtain ⟨hfinal, htcp, hsum⟩ := h
    refine ⟨hfinal, ⟨htcp, ?_⟩, congrArg (· + _) hsum⟩
    intro hserving
    apply udpActive_of_direct ht.nonneg
    refine (ht.serving ?_).2
    rw [hen.1]
    exact hfinal.symm.trans hserving
  | loadIn final conns =>
    rw [show s.reporter = _ from hen] at h
    obtain ⟨hfinal, hok, hconns⟩ := h
    exact ⟨hfinal, hok, hconns, hm.bytesIn⟩
  | loadOut final conns bytesIn =>
    rw [show s.reporter = _ from hen] at h
    obtain ⟨hfinal, hok, hconns, hin⟩ := h
    exact ⟨hfinal, hok, hconns, hin, hm.bytesOut⟩
  | send final conns bytesIn bytesOut => cases final <;> exact trivial
  | natHole =>
    simp only [next]
    split_ifs
    · exact trivial
    · exact h
  | storeTCP | storeUDP => exact trivial
  | direct | relay | serverOpen | serverDone | readTag | dispatch | read | write | packet | close =>
    exact h

theorem told_init {clock : Int} : Told (init clock) :=
  ⟨rfl, rfl, rfl, rfl, rfl, rfl, ⟨⟨le_refl 0, fun _ => rfl⟩, by rintro - ⟨⟩⟩⟩

theorem told_next (hl : Loads s.seen s.reporter) (h : Told s) (hen : Enabled s a) :
    Told (next name s a) := by
  cases a with
  | send final conns bytesIn bytesOut =>
    rw [show s.reporter = _ from hen] at hl
    obtain ⟨-, hok, hconns, hin, hout⟩ := hl
    have hf := flushed_flush name s.metrics conns bytesIn bytesOut
    have hsumConns := h.sumConns
    have hsumIn := h.sumIn
    have hsumOut := h.sumOut
    refine ⟨?_, ?_, ?_, hf.lastConns.trans hconns, hf.lastIn.trans hin, hf.lastOut.trans hout, hok⟩
    · simp only [next, List.map_append, List.sum_append, hf.dConns, hf.lastConns]
      omega
    · simp only [next, List.map_append, List.sum_append, hf.dIn, hf.lastIn]
      omega
    · simp only [next, List.map_append, List.sum_append, hf.dOut, hf.lastOut]
      omega
  | dispatch | close =>
    simp only [next, Told]
    split_ifs <;> exact h
  | natHole | direct | relay | serverOpen | serverDone | readTag | read | write | packet
  | storeTCP | storeUDP | loadTCP | loadUDP | loadIn | loadOut => exact h

end Steps

structure Inv (s : State) : Prop where
  measured : Measured s
  timed : Timed s
  loads : Loads s.seen s.reporter
  told : Told s

variable {s : State}

theorem inv_next (name : String) (h : Inv s) {a : Action} (hen : Enabled s a) :
    Inv (next name s a) :=
  ⟨measured_next h.measured hen, timed_next h.timed hen, loads_next h.measured h.timed h.loads hen,
    told_next h.loads h.told hen⟩

theorem inv_of_reach {name : String} {clock : Int} (hclock : 0 ≤ clock)
    (h : Reach (step name) anyAction (init clock) s) : Inv s := by
  refine invariant_of_next ?_ ?_ h
  · exact ⟨measured_init, timed_init hclock, trivial, told_init⟩
  · intro u a hinv _ hen
    exact inv_next name hinv hen

def flushActions (s : State) (now : Int) : List Action :=
  let conns := s.metrics.tcpConns + (udpActive s.metrics.lastUDPNano now).toInt
  [.loadTCP, .loadUDP false s.metrics.tcpConns now, .loadIn false conns,
    .loadOut false conns s.metrics.bytesIn, .send false conns s.metrics.bytesIn s.metrics.bytesOut]

def State.flushed (name : String) (s : State) (now : Int) : State :=
  (flushActions s now).foldl (next name) s

theorem sent_flushed (name : String) (hwait : s.reporter = .waiting) (now : Int) :
    (s.flushed name now).sent =
      { final := false
        directTCP := s.sessions .direct
        relayedTCP := s.sessions .relayed
        zeroed := s.zeroed
        udp := udpActive s.metrics.lastUDPNano now
        directUDP := udpActive s.lastDirect now
        bytesIn := s.directIn
        bytesOut := s.directOut } := by
  have hfinal : decide (s.reporter = .zeroedUDP) = false := by
    rw [hwait]
    rfl
  simp only [State.flushed, flushActions, List.foldl_cons, List.foldl_nil, next, hfinal]
  rfl

theorem inv_flushed (name : String) (h : Inv s) (hwait : s.reporter = .waiting) {now : Int}
    (hnow : s.clock ≤ now) : Inv (s.flushed name now) := by
  have hfinal : decide (s.reporter = .zeroedUDP) = false := by
    rw [hwait]
    rfl
  have htcp : Enabled s .loadTCP := .inl hwait
  have hudp : Enabled (next name s .loadTCP) (.loadUDP false s.metrics.tcpConns now) :=
    ⟨by simp only [next, hfinal], hnow⟩
  have hloaded := inv_next name (inv_next name h htcp) hudp
  simp only [State.flushed, flushActions, List.foldl_cons, List.foldl_nil]
  apply inv_next name
  · apply inv_next name
    · apply inv_next name hloaded
      exact rfl
    · exact rfl
  · exact rfl

def directRun : List Action :=
  [.natHole, .direct 0, .readTag 0 (newStream .direct) tagTCP,
    .dispatch 0 ⟨.direct, .tagged tagTCP, 1, 0, .waiting⟩ tagTCP,
    .read 0 ⟨.direct, .tcp, 1, 0, .waiting⟩ 10]

def relayedRun : List Action :=
  [.natHole, .relay 0, .serverOpen 0 (newStream .relayed),
    .readTag 0 ⟨.relayed, .untagged, 0, 0, .joined⟩ tagTCP,
    .dispatch 0 ⟨.relayed, .tagged tagTCP, 1, 0, .joined⟩ tagTCP,
    .loadTCP, .loadUDP false 1 2, .loadIn false 1, .loadOut false 1 0, .send false 1 0 0]

end FrpMeo.Client.P2P
