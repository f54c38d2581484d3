import FrpMeo.Lib.Transition
import Mathlib.Tactic

/-!
# Forwarding datagrams while the socket is being closed

`ForwardUserConn` (`pkg/proto/udp/udp.go`) reads datagrams and sends them to `sendCh`. Seven kinds
of proxies and visitors run it, each with its own `Close` of the socket and the channels, which does
not wait for the datagram that is held. A send on a closed channel panics, as does closing one
again.
-/

namespace FrpMeo.Proto.Udp

open Lib.Transition

/-! ## Kinds and their Close -/

/-- A `pe` proxy is a `UDPProxy` too; merged visitors open sockets with a bind port only (`bound`).
-/
inductive Kind where
  | udp
  | pe
  | tcpudp
  | sudp
  | xudp
  | stcpsudp (bound : Bool)
  | xtcpxudp (bound : Bool)
  deriving DecidableEq

inductive ChanName where
  | checkCloseCh
  | readCh
  | sendCh
  deriving DecidableEq

inductive Chan where
  | nil
  | opened
  | closed
  deriving DecidableEq

inductive CloseOp where
  /-- `BaseProxy.Close` or `BaseVisitor.Close`. -/
  | baseClose
  | workConnClose
  | cancel
  | sessionClose
  | udpConnClose
  | closeChan (c : ChanName)
  /-- `close` under a nil check. -/
  | closeChanIfSet (c : ChanName)
  deriving DecidableEq

open CloseOp ChanName

/-- `UDPProxy.Close` and `TCPUDPProxy.Close`, under `mu` and `isClosed`. -/
def udpProxyClose : List CloseOp :=
  [baseClose, workConnClose, udpConnClose, closeChan checkCloseCh, closeChan readCh,
    closeChan sendCh]

/-- `SUDPVisitor.Close`, from the `default` branch of its select on. -/
def sudpVisitorClose : List CloseOp :=
  [closeChan checkCloseCh, baseClose, udpConnClose, closeChan readCh, closeChan sendCh]

/-- `XUDPVisitor.Close`, from the `default` branch of its select on. -/
def xudpVisitorClose : List CloseOp :=
  [closeChan checkCloseCh, baseClose, cancel, sessionClose, udpConnClose, closeChan readCh,
    closeChan sendCh]

/-- `STCPSUDPVisitor.Close`, from the `default` branch of its select on. -/
def stcpsudpVisitorClose : List CloseOp :=
  [closeChan checkCloseCh, baseClose, udpConnClose, closeChanIfSet readCh, closeChanIfSet sendCh]

/-- `XTCPXUDPVisitor.Close`, inside `closeOnce.Do`. -/
def xtcpxudpVisitorClose : List CloseOp :=
  [closeChanIfSet checkCloseCh, baseClose, cancel, sessionClose, udpConnClose,
    closeChanIfSet readCh, closeChanIfSet sendCh]

def Kind.closeBody : Kind → List CloseOp
  | .udp | .pe | .tcpudp => udpProxyClose
  | .sudp => sudpVisitorClose
  | .xudp => xudpVisitorClose
  | .stcpsudp _ => stcpsudpVisitorClose
  | .xtcpxudp _ => xtcpxudpVisitorClose

/-- The server's proxies pass an admission filter and a session tracker. -/
def Kind.filters : Kind → Bool
  | .udp | .pe | .tcpudp => true
  | _ => false

def Kind.bound : Kind → Bool
  | .stcpsudp bound | .xtcpxudp bound => bound
  | _ => true

structure Res where
  connClosed : Bool
  checkCloseCh : Chan
  readCh : Chan
  sendCh : Chan
  deriving DecidableEq

def Res.get (r : Res) : ChanName → Chan
  | .checkCloseCh => r.checkCloseCh
  | .readCh => r.readCh
  | .sendCh => r.sendCh

def Res.set (r : Res) (c : Chan) : ChanName → Res
  | .checkCloseCh => { r with checkCloseCh := c }
  | .readCh => { r with readCh := c }
  | .sendCh => { r with sendCh := c }

/-- One statement of `Close`; `none` is a panic. -/
def execOp (r : Res) : CloseOp → Option Res
  | .udpConnClose => some { r with connClosed := true }
  | .closeChan c => if r.get c = .opened then some (r.set .closed c) else none
  | .closeChanIfSet c =>
      match r.get c with
      | .nil => some r
      | .opened => some (r.set .closed c)
      | .closed => none
  | _ => some r

def execOps (r : Res) : List CloseOp → Option Res
  | [] => some r
  | op :: ops => (execOp r op).bind fun r => execOps r ops

def Kind.initRes (k : Kind) : Res where
  connClosed := false
  checkCloseCh := .opened
  readCh := if k.bound then .opened else .nil
  sendCh := if k.bound then .opened else .nil

/-! ## The forwarder and its closers -/

structure Packet where
  content : List UInt8
  remoteAddr : String
  deriving DecidableEq

def sendChCap : Nat := 1024

inductive ForwardPc where
  | absent
  /-- In `ReadFromUDP`. -/
  | reading
  /-- In the admission check of a datagram. -/
  | admitting (p : Packet)
  /-- Before the session tracker. -/
  | tracking (p : Packet)
  /-- Before the select that sends. -/
  | sending (p : Packet)
  | returned
  deriving DecidableEq

def ForwardPc.holding : ForwardPc → Bool
  | .admitting _ | .tracking _ | .sending _ => true
  | _ => false

inductive CloserPc where
  | idle
  | running (ops : List CloseOp)
  | done
  deriving DecidableEq

/-- `closedOnce` is `isClosed`, the closed `checkCloseCh` or the done `closeOnce`, by kind. -/
structure State where
  pc : ForwardPc
  res : Res
  buf : List Packet
  closedOnce : Bool
  mu : Option Nat
  closer : Nat → CloserPc
  panicked : Bool

def init (k : Kind) : State where
  pc := if k.bound then .reading else .absent
  res := k.initRes
  buf := []
  closedOnce := false
  mu := none
  closer := fun _ => .idle
  panicked := false

def State.setCloser (s : State) (j : Nat) (p : CloserPc) : State :=
  { s with closer := Function.update s.closer j p }

theorem setCloser_closer_self (s : State) (j : Nat) (p : CloserPc) :
    (s.setCloser j p).closer j = p :=
  Function.update_self ..

theorem setCloser_closer_of_ne (s : State) {i j : Nat} (p : CloserPc) (h : i ≠ j) :
    (s.setCloser j p).closer i = s.closer i :=
  Function.update_of_ne h ..

inductive Action where
  | recv (p : Packet)
  | recvErr
  | admitStep (p : Packet)
  | verdict (p : Packet) (ok : Bool)
  | track (p : Packet)
  | send (p : Packet)
  /-- A work connection takes a datagram from `sendCh`. -/
  | drain (p : Packet)
  | enterClose (j : Nat)
  | closeStep (j : Nat) (op : CloseOp) (ops : List CloseOp)
  | leaveClose (j : Nat)
  deriving DecidableEq

def Enabled (k : Kind) (s : State) (a : Action) : Prop :=
  s.panicked = false ∧
    match a with
    | .recv _ => s.pc = .reading ∧ s.res.connClosed = false
    -- a read can fail on an open socket too
    | .recvErr => s.pc = .reading
    | .admitStep p => s.pc = .admitting p
    -- without a filter every datagram is admitted
    | .verdict p ok => s.pc = .admitting p ∧ (ok = false → k.filters = true)
    | .track p => s.pc = .tracking p
    | .send p => s.pc = .sending p
    | .drain p => s.buf.head? = some p
    | .enterClose j => s.closer j = .idle ∧ s.mu = none
    | .closeStep j op ops => s.closer j = .running (op :: ops)
    | .leaveClose j => s.closer j = .running []

instance (k : Kind) (s : State) (a : Action) : Decidable (Enabled k s a) := by
  cases a <;> dsimp only [Enabled] <;> infer_instance

def next (k : Kind) (s : State) : Action → State
  | .recv p => { s with pc := .admitting p }
  | .recvErr => { s with pc := .returned }
  | .admitStep _ => s
  -- a datagram that is refused is dropped, and the next one is read
  | .verdict p ok => { s with pc := if ok then .tracking p else .reading }
  | .track p => { s with pc := .sending p }
  | .send p =>
      match s.res.sendCh with
      -- the select has a `default`, but a closed channel is ready and panics
      | .closed => { s with panicked := true }
      | .nil => { s with pc := .reading }
      -- a full channel drops the datagram
      | .opened =>
          { s with
            pc := .reading, buf := if s.buf.length < sendChCap then s.buf ++ [p] else s.buf }
  | .drain _ => { s with buf := s.buf.tail }
  | .enterClose j =>
      -- a second call returns without touching anything
      if s.closedOnce then s.setCloser j .done
      else { s with closedOnce := true, mu := some j }.setCloser j (.running k.closeBody)
  | .closeStep j op ops =>
      match execOp s.res op with
      | none => { s with panicked := true }
      | some r => { s with res := r }.setCloser j (.running ops)
  | .leaveClose j => { s with mu := none }.setCloser j .done

def step (k : Kind) : State → Action → Option State := stepOf (Enabled k) (next k)

/-! ## What Close does to the socket and the channels -/

def CloseOp.closesSendCh : CloseOp → Bool
  | .closeChan .sendCh | .closeChanIfSet .sendCh => true
  | _ => false

def socketFirst : List CloseOp → Bool
  | [] => true
  | op :: ops => op = .udpConnClose || (!op.closesSendCh && socketFirst ops)

theorem closeBody_socketFirst (k : Kind) : socketFirst k.closeBody = true := by
  cases k <;> rfl

theorem execOps_closeBody (k : Kind) : (execOps k.initRes k.closeBody).isSome = true := by
  cases k with
  | stcpsudp bound | xtcpxudp bound => cases bound <;> rfl
  | _ => rfl

variable {op : CloseOp}

theorem udpConnClose_mem_of_socketFirst {done ops : List CloseOp}
    (h : socketFirst (done ++ op :: ops) = true) (hop : op.closesSendCh = true) :
    udpConnClose ∈ done := by
  induction done with
  | nil =>
    have hne : op ≠ .udpConnClose := by
      rintro rfl
      cases hop
    simp [socketFirst, hne, hop] at h
  | cons a done ih =>
    simp only [List.cons_append, socketFirst, Bool.or_eq_true, decide_eq_true_eq,
      Bool.and_eq_true] at h
    rcases h with rfl | ⟨-, h⟩
    · exact List.mem_cons_self
    · exact List.mem_cons_of_mem _ (ih h)

theorem execOps_append (r : Res) (ops ops' : List CloseOp) :
    execOps r (ops ++ ops') = (execOps r ops).bind fun r => execOps r ops' := by
  induction ops generalizing r with
  | nil => rfl
  | cons op ops ih =>
    simp only [List.cons_append, execOps]
    cases execOp r op with
    | none => rfl
    | some r' => exact ih r'

theorem Res.get_set_of_ne (r : Res) (c : Chan) {a b : ChanName} (h : a ≠ b) :
    (r.set c a).get b = r.get b := by
  cases a <;> cases b <;> first | rfl | exact absurd rfl h

theorem Res.connClosed_set (r : Res) (c : Chan) (a : ChanName) :
    (r.set c a).connClosed = r.connClosed := by
  cases a <;> rfl

variable {r r' : Res}

theorem execOp_connClosed (h : execOp r op = some r') :
    r'.connClosed = (r.connClosed || op = .udpConnClose) := by
  cases op with
  | closeChan c =>
    simp only [execOp] at h
    split_ifs at h
    cases h
    simp [Res.connClosed_set]
  | closeChanIfSet c =>
    cases hc : r.get c <;> simp only [execOp, hc, reduceCtorEq] at h
    · cases h
      simp
    · cases h
      simp [Res.connClosed_set]
  | udpConnClose | _ =>
    cases h
    simp

theorem execOp_sendCh (h : execOp r op = some r')
    (hop : op.closesSendCh = false) : r'.sendCh = r.sendCh := by
  cases op with
  | closeChan c =>
    have hc : c ≠ .sendCh := by
      rintro rfl
      cases hop
    simp only [execOp] at h
    split_ifs at h
    cases h
    exact r.get_set_of_ne .closed hc
  | closeChanIfSet c =>
    have hc : c ≠ .sendCh := by
      rintro rfl
      cases hop
    cases hg : r.get c <;> simp only [execOp, hg, reduceCtorEq] at h
    · cases h
      rfl
    · cases h
      exact r.get_set_of_ne .closed hc
  | _ =>
    cases h
    rfl

theorem connClosed_of_execOps {ops : List CloseOp} : ∀ {r r' : Res}, execOps r ops = some r' →
      r.connClosed = true ∨ udpConnClose ∈ ops → r'.connClosed = true := by
  induction ops with
  | nil =>
    intro r r' h hc
    cases h
    exact hc.resolve_right (List.not_mem_nil)
  | cons op ops ih =>
    intro r r' h hc
    obtain ⟨r1, h1, h2⟩ := Option.bind_eq_some_iff.1 h
    refine ih h2 ?_
    rw [execOp_connClosed h1]
    rcases hc with hc | hc
    · exact .inl (by simp [hc])
    · rcases List.mem_cons.1 hc with rfl | hc
      · exact .inl (by simp)
      · exact .inr hc

/-! ## Runs -/

/-- `sendCh` is closed only while the forwarder holds no datagram. -/
def ClosesWhileIdle (s : State) : Action → Prop
  | .closeStep _ op _ => op.closesSendCh = true → s.pc.holding = false
  | _ => True

instance (s : State) (a : Action) : Decidable (ClosesWhileIdle s a) := by
  cases a <;> dsimp only [ClosesWhileIdle] <;> infer_instance

structure ForwardInv (k : Kind) (s : State) : Prop where
  fresh : s.closedOnce = false → s.res = k.initRes
  running : ∀ j ops, s.closer j = .running ops → s.closedOnce = true ∧ s.mu = some j ∧
    ∃ done, k.closeBody = done ++ ops ∧ execOps k.initRes done = some s.res
  sent : s.res.sendCh = .closed → s.res.connClosed = true ∧ s.pc.holding = false
  alive : s.panicked = false

theorem forwardInv_init (k : Kind) : ForwardInv k (init k) where
  fresh := fun _ => rfl
  running := nofun
  sent := by
    change (if k.bound then Chan.opened else Chan.nil) = .closed → _
    split_ifs <;> rintro ⟨⟩
  alive := rfl

section Steps

variable {k : Kind} {s : State}

variable (h : ForwardInv k s)

include h

theorem ForwardInv.move {pc : ForwardPc} (buf : List Packet)
    (hpc : pc.holding = true → s.pc.holding = true ∨ s.res.connClosed = false) :
    ForwardInv k { s with pc := pc, buf := buf } := by
  refine { h with sent := ?_ }
  intro hs
  obtain ⟨hconn, hold⟩ := h.sent hs
  refine ⟨hconn, ?_⟩
  cases hp : pc.holding with
  | false => rfl
  | true =>
    rcases hpc hp with ht | hf
    · rw [hold] at ht
      cases ht
    · rw [show s.res.connClosed = true from hconn] at hf
      cases hf

variable {j : Nat} {ops : List CloseOp}

theorem ForwardInv.exec (hj : s.closer j = .running (op :: ops)) :
    ∃ r, execOp s.res op = some r ∧ (op.closesSendCh = true → s.res.connClosed = true) := by
  obtain ⟨-, -, done, hbody, hexec⟩ := h.running j _ hj
  -- `op` comes after `done` in a body that runs to its end
  have hsome := execOps_closeBody k
  rw [hbody, execOps_append, hexec] at hsome
  change (execOps s.res (op :: ops)).isSome = true at hsome
  obtain ⟨r', hr'⟩ := Option.isSome_iff_exists.1 hsome
  obtain ⟨r, hr, -⟩ := Option.bind_eq_some_iff.1 hr'
  refine ⟨r, hr, fun hop => ?_⟩
  have hfirst := closeBody_socketFirst k
  rw [hbody] at hfirst
  exact connClosed_of_execOps hexec (.inr (udpConnClose_mem_of_socketFirst hfirst hop))

theorem ForwardInv.closeStep (hj : s.closer j = .running (op :: ops))
    (hidle : op.closesSendCh = true → s.pc.holding = false) :
    ForwardInv k (next k s (.closeStep j op ops)) := by
  obtain ⟨r, hr, hconn⟩ := h.exec hj
  obtain ⟨honce, hmu, done, hbody, hexec⟩ := h.running j _ hj
  have hnext : next k s (.closeStep j op ops) =
      { s with res := r }.setCloser j (.running ops) := by
    simp only [next, hr]
  rw [hnext]
  refine ⟨?_, ?_, ?_, h.alive⟩
  · intro hf
    rw [show s.closedOnce = false from hf] at honce
    cases honce
  · intro i ops' hi
    by_cases hij : i = j
    · subst hij
      rw [setCloser_closer_self] at hi
      cases hi
      refine ⟨honce, hmu, done ++ [op], by simp [hbody], ?_⟩
      rw [execOps_append, hexec]
      simp [execOps, hr, State.setCloser]
    · -- only the holder of `mu` runs
      rw [setCloser_closer_of_ne _ _ hij] at hi
      have hmu' := (h.running i ops' hi).2.1
      rw [hmu] at hmu'
      exact absurd (Option.some.inj hmu').symm hij
  · intro hsend
    change r.sendCh = .closed at hsend
    change r.connClosed = true ∧ s.pc.holding = false
    rw [execOp_connClosed hr]
    cases hop : op.closesSendCh with
    | true => exact ⟨by simp [hconn hop], hidle hop⟩
    | false =>
      rw [execOp_sendCh hr hop] at hsend
      obtain ⟨h1, h2⟩ := h.sent hsend
      exact ⟨by simp [h1], h2⟩

theorem ForwardInv.closerDone (j : Nat) (mu : Option Nat)
    (hmu : ∀ i ops, i ≠ j → s.closer i = .running ops → mu = some i) :
    ForwardInv k ({ s with mu := mu }.setCloser j .done) := by
  refine ⟨h.fresh, ?_, h.sent, h.alive⟩
  intro i ops hi
  have hij : i ≠ j := by
    rintro rfl
    rw [setCloser_closer_self] at hi
    cases hi
  rw [setCloser_closer_of_ne _ _ hij] at hi
  obtain ⟨h1, -, h3⟩ := h.running i ops hi
  exact ⟨h1, hmu i ops hij hi, h3⟩

theorem ForwardInv.enterClose (hmu : s.mu = none) : ForwardInv k (next k s (.enterClose j)) := by
  have hnone : ∀ i ops, s.closer i ≠ .running ops := by
    intro i ops hi
    have hmu' := (h.running i ops hi).2.1
    rw [hmu] at hmu'
    cases hmu'
  cases honce : s.closedOnce with
  | true =>
    rw [next, if_pos honce]
    exact h.closerDone j s.mu fun i ops _ hi => absurd hi (hnone i ops)
  | false =>
    rw [next, if_neg (by rw [honce]; rintro ⟨⟩)]
    refine ⟨nofun, ?_, h.sent, h.alive⟩
    intro i ops hi
    by_cases hij : i = j
    · subst hij
      rw [setCloser_closer_self] at hi
      cases hi
      exact ⟨rfl, rfl, [], rfl, by rw [execOps, ← h.fresh honce]; rfl⟩
    · rw [setCloser_closer_of_ne _ _ hij] at hi
      exact absurd hi (hnone i ops)

theorem forwardInv_next {a : Action} (hen : Enabled k s a)
    (hok : ClosesWhileIdle s a) : ForwardInv k (next k s a) := by
  obtain ⟨-, hen⟩ := hen
  cases a with
  | recv p => exact h.move s.buf fun _ => .inr hen.2
  | recvErr => exact h.move s.buf nofun
  | admitStep p => exact h
  | verdict p ok =>
    refine h.move s.buf fun _ => .inl ?_
    rw [hen.1]
    rfl
  | track p =>
    refine h.move s.buf fun _ => .inl ?_
    rw [show s.pc = .tracking p from hen]
    rfl
  | send p =>
    have hpc : s.pc = .sending p := hen
    cases hs : s.res.sendCh with
    | closed =>
      -- a forwarder at its send holds a datagram
      have hold := (h.sent hs).2
      rw [hpc] at hold
      cases hold
    | nil =>
      rw [next, hs]
      exact h.move s.buf nofun
    | opened =>
      rw [next, hs]
      exact h.move _ nofun
  | drain p =>
    have hkeep : s.pc.holding = true → s.pc.holding = true ∨ s.res.connClosed = false := .inl
    exact h.move _ hkeep
  | enterClose j => exact h.enterClose hen.2
  | closeStep j op ops => exact h.closeStep hen hok
  | leaveClose j =>
    refine h.closerDone j none ?_
    intro i ops hij hi
    have h1 := (h.running i ops hi).2.1
    rw [(h.running j [] hen).2.1] at h1
    exact absurd (Option.some.inj h1).symm hij

end Steps

def NeverPanics (k : Kind) (ok : State → Action → Prop) : Prop :=
  ∀ s, Reach (step k) ok (init k) s → s.panicked = false

/-- No kind panics if `sendCh` is closed only while the forwarder holds no datagram. -/
theorem never_panics_of_idle (k : Kind) : NeverPanics k ClosesWhileIdle := by
  intro s h
  refine (invariant_of_next (forwardInv_init k) ?_ h).alive
  intro u a hinv hok hen
  exact forwardInv_next hinv hen hok

def closeSteps (j : Nat) : List CloseOp → List Action
  | [] => [.leaveClose j]
  | op :: ops => .closeStep j op ops :: closeSteps j ops

def packet : Packet := ⟨[1], "198.51.100.7:4000"⟩

def idleRun (k : Kind) : List Action :=
  [.recv packet, .verdict packet true, .track packet, .send packet, .enterClose 0] ++
    closeSteps 0 k.closeBody ++ [.recvErr, .enterClose 1, .drain packet]

theorem never_panics_of_idle_idleRun :
    ((run (step .udp) ClosesWhileIdle (init .udp) (idleRun .udp)).getD (init .udp)).panicked =
      false :=
  never_panics_of_idle .udp _ (reach_getD_of_isSome (by decide +kernel))

def overtakenRun (k : Kind) : List Action :=
  [.recv packet, .enterClose 0] ++ closeSteps 0 k.closeBody ++
    [.admitStep packet, .verdict packet true, .track packet, .send packet]

theorem not_neverPanics_of_overtakenRun {k : Kind}
    (hsome : (run (step k) anyAction (init k) (overtakenRun k)).isSome = true)
    (hpanic : ((run (step k) anyAction (init k) (overtakenRun k)).getD (init k)).panicked = true) :
    ¬ NeverPanics k anyAction := by
  intro h
  rw [h _ (reach_getD_of_isSome hsome)] at hpanic
  cases hpanic

/-- Without the guard every kind whose forwarder runs panics. -/
theorem close_panics_forwarder :
    ¬ NeverPanics .udp anyAction ∧ ¬ NeverPanics .pe anyAction ∧ ¬ NeverPanics .tcpudp anyAction ∧
      ¬ NeverPanics .sudp anyAction ∧ ¬ NeverPanics .xudp anyAction ∧
        ¬ NeverPanics (.stcpsudp true) anyAction ∧ ¬ NeverPanics (.xtcpxudp true) anyAction := by
  refine ⟨?_, ?_, ?_, ?_, ?_, ?_, ?_⟩ <;>
    exact not_neverPanics_of_overtakenRun (by decide +kernel) (by decide +kernel)

end FrpMeo.Proto.Udp
