import FrpMeo.Lib.RefCount
import FrpMeo.Lib.Tally
import FrpMeo.Lib.Transition
import FrpMeo.Server.Spelling
import Mathlib.Data.Set.Card

/-!
# Peers of a proxy for TCP and UDP

A `tcp+udp` proxy counts the addresses of its users (`peerTracker` of `server/proxy/peer.go`): one
use for each TCP connection, and one for each UDP source until it is idle or forwarding ends
(`pkg/proto/udp/udp.go`). A call reports to the metrics after it has released the lock.
-/

namespace FrpMeo.Server.Peers

open Lib Lib.Transition Lib.Text Lib.RefCount
open Server.Firewall (joinHostPort splitHostPort_joinHostPort)

def peerIP (remoteAddr : String) : String :=
  ((splitHostPort ':' '[' ']' remoteAddr.toList).map fun hp => String.ofList hp.1).getD remoteAddr

theorem peerIP_joinHostPort {host port : String} (hleft : '[' ∉ host.toList)
    (hright : ']' ∉ host.toList) (hport : ∀ c ∈ port.toList, c.isDigit = true) :
    peerIP (joinHostPort host port) = host := by
  rw [peerIP, splitHostPort_joinHostPort hleft hright hport]
  exact String.ofList_toList

/-- What a call of the tracker has still to do, after it gave up its lock. -/
inductive Call where
  | done
  | onOpen
  | onClose
  deriving DecidableEq

structure Conn where
  addr : String
  isOpen : Bool
  call : Call
  deriving DecidableEq

inductive Udp where
  | free
  /-- The loop of `ForwardUserConn`, before it stores the time of the packet. -/
  | storing (key : String) (call : Call)
  /-- The janitor, with the sessions it has not seen yet. -/
  | sweeping (now : Int) (todo : Finset String) (call : Call)
  /-- The end of `ForwardUserConn`, with the sessions it has not closed yet. -/
  | leaving (todo : Finset String) (call : Call)
  deriving DecidableEq

namespace Udp

def call : Udp → Call
  | .free => .done
  | .storing _ call | .sweeping _ _ call | .leaving _ call => call

def settle : Udp → Udp
  | .free => .free
  | .storing key _ => .storing key .done
  | .sweeping now todo _ => .sweeping now todo .done
  | .leaving todo _ => .leaving todo .done

def sweeping? : Udp → Option (Int × Finset String)
  | .sweeping now todo .done => some (now, todo)
  | _ => none

def leaving? : Udp → Option (Finset String)
  | .leaving todo .done => some todo
  | _ => none

variable {todo : Finset String} {u : Udp}

theorem sweeping?_eq_some {now : Int}
    (h : u.sweeping? = some (now, todo)) : u = .sweeping now todo .done := by
  unfold sweeping? at h
  split at h
  · cases h
    rfl
  · cases h

theorem leaving?_eq_some (h : u.leaving? = some todo) : u = .leaving todo .done := by
  unfold leaving? at h
  split at h
  · cases h
    rfl
  · cases h

end Udp

/-- The tracker's counts, connections and sessions; the reports; and the opens and closes. -/
structure State where
  refs : GoMap String Int
  tcp : GoMap Nat Conn
  sessions : GoMap String Int
  udp : Udp
  returned : Bool
  opens : Nat
  closes : Nat
  udpOpens : String → Nat
  udpCloses : String → Nat

def init : State where
  refs := .empty
  tcp := .empty
  sessions := .empty
  udp := .free
  returned := false
  opens := 0
  closes := 0
  udpOpens := fun _ => 0
  udpCloses := fun _ => 0

inductive Action where
  /-- A connection is opened (`acquire`), and closed (`release`). -/
  | accept (i : Nat) (addr : String)
  | finish (i : Nat) (c : Conn)
  | tcpCall (i : Nat) (c : Conn)
  /-- A packet that the filter lets through. -/
  | packet (key : String)
  | store (key : String) (now : Int)
  | tick (now : Int)
  | sweep (key : String)
  | swept
  | leave
  | drop (key : String)
  | left
  | udpCall

def Enabled (s : State) : Action → Prop
  | .accept i _ => s.tcp.get i = none
  | .finish i c => s.tcp.get i = some c ∧ c.isOpen = true ∧ c.call = .done
  | .tcpCall i c => s.tcp.get i = some c
  | .packet _ => s.udp = .free ∧ s.returned = false
  | .store key _ => s.udp = .storing key .done
  -- the janitor may tick once more after `ForwardUserConn` has returned
  | .tick _ => s.udp = .free
  | .sweep key => ∃ p ∈ s.udp.sweeping?, key ∈ p.2
  | .swept => ∃ p ∈ s.udp.sweeping?, p.2 = ∅
  | .leave => s.udp = .free ∧ s.returned = false
  | .drop key => ∃ todo ∈ s.udp.leaving?, key ∈ todo
  | .left => ∃ todo ∈ s.udp.leaving?, todo = ∅
  | .udpCall => True

instance (s : State) (a : Action) : Decidable (Enabled s a) := by
  cases a <;> dsimp only [Enabled] <;> infer_instance

def State.report (s : State) (call : Call) : State :=
  { s with
    opens := if call = .onOpen then s.opens + 1 else s.opens
    closes := if call = .onClose then s.closes + 1 else s.closes }

def State.openSource (s : State) (key : String) (udp : Call → Udp) : State :=
  let (refs, first) := acquire s.refs (peerIP key)
  { s with
    refs
    udp := udp (if first then .onOpen else .done)
    udpOpens := Function.update s.udpOpens key (s.udpOpens key + 1) }

def State.closeSource (s : State) (key : String) (udp : Call → Udp) : State :=
  let (refs, last) := release s.refs (peerIP key)
  { s with
    refs
    udp := udp (if last then .onClose else .done)
    udpCloses := Function.update s.udpCloses key (s.udpCloses key + 1) }

def next (idleTimeout : Int) (s : State) : Action → State
  | .accept i addr =>
      let (refs, first) := acquire s.refs (peerIP addr)
      { s with refs, tcp := s.tcp.insert i ⟨addr, true, if first then .onOpen else .done⟩ }
  | .finish i c =>
      let (refs, last) := release s.refs (peerIP c.addr)
      { s with refs, tcp := s.tcp.insert i ⟨c.addr, false, if last then .onClose else .done⟩ }
  | .tcpCall i c => { s.report c.call with tcp := s.tcp.insert i { c with call := .done } }
  | .packet key =>
      match s.sessions.get key with
      | some _ => { s with udp := .storing key .done }
      | none => s.openSource key (.storing key)
  | .store key now => { s with sessions := s.sessions.insert key now, udp := .free }
  | .tick now => { s with udp := .sweeping now s.sessions.keys .done }
  | .sweep key =>
      match s.udp.sweeping?, s.sessions.get key with
      | some (now, todo), some last =>
          if idleTimeout < now - last then
            { s with sessions := s.sessions.erase key }.closeSource key
              (.sweeping now (todo.erase key))
          else { s with udp := .sweeping now (todo.erase key) .done }
      | some (now, todo), none => { s with udp := .sweeping now (todo.erase key) .done }
      | none, _ => s
  | .swept => { s with udp := .free }
  | .leave => { s with udp := .leaving s.sessions.keys .done }
  | .drop key =>
      match s.udp.leaving? with
      | some todo => s.closeSource key (.leaving (todo.erase key))
      | none => s
  | .left => { s with sessions := .empty, udp := .free, returned := true }
  | .udpCall => { s.report s.udp.call with udp := s.udp.settle }

def step (idleTimeout : Int) : State → Action → Option State := stepOf Enabled (next idleTimeout)

/-! ## Uses -/

def State.held (s : State) : Finset String :=
  match s.udp with
  | .storing key _ => insert key s.sessions.keys
  | .leaving todo _ => todo
  | .free | .sweeping .. => s.sessions.keys

def atIP (ip addr : String) : Int := if peerIP addr = ip then 1 else 0

def Conn.use (ip : String) (c : Conn) : Int := if c.isOpen then atIP ip c.addr else 0

def State.uses (s : State) (ip : String) : Int :=
  s.tcp.total (Conn.use ip) + ∑ key ∈ s.held, atIP ip key

def State.Used (s : State) (ip : String) : Prop :=
  (∃ i c, s.tcp.get i = some c ∧ c.isOpen = true ∧ peerIP c.addr = ip) ∨
    ∃ key ∈ s.held, peerIP key = ip

theorem atIP_nonneg {ip addr : String} : 0 ≤ atIP ip addr := by
  unfold atIP
  split_ifs <;> omega

theorem use_nonneg {ip : String} {c : Conn} : 0 ≤ c.use ip := by
  unfold Conn.use
  split_ifs
  · exact atIP_nonneg
  · exact le_refl 0

/-- What a call that is in progress still takes from the balance of the reports. -/
def Call.pending : Call → Int
  | .done => 0
  | .onOpen => 1
  | .onClose => -1

theorem pending_done : Call.done.pending = 0 := rfl

theorem pending_open (first : Bool) :
    (if first then Call.onOpen else .done).pending = first.toInt := by
  cases first <;> rfl

theorem pending_close (last : Bool) :
    (if last then Call.onClose else .done).pending = -last.toInt := by
  cases last <;> rfl

structure Inv (s : State) : Prop where
  counts : Counts s.refs s.uses
  balance : (s.opens : Int) - s.closes + s.tcp.total (·.call.pending) + s.udp.call.pending =
    s.refs.keys.card
  events : ∀ key, (s.udpOpens key : Int) = s.udpCloses key + if key ∈ s.held then 1 else 0
  gone : s.returned = true → s.held = ∅

theorem inv_init : Inv init where
  counts := by
    apply counts_empty
    intro ip
    have htcp : (init.tcp).total (Conn.use ip) = 0 := GoMap.total_empty _
    rw [State.uses, htcp]
    rfl
  balance := by
    have htcp : (init.tcp).total (·.call.pending) = 0 := GoMap.total_empty _
    rw [htcp]
    rfl
  events := fun _ => rfl
  gone := nofun

variable {idleTimeout : Int}

section Tcp

variable {s : State} {i : Nat} {c : Conn}

theorem uses_pos_of_tcp (hget : s.tcp.get i = some c) (hopen : c.isOpen = true) :
    0 < s.uses (peerIP c.addr) := by
  have hle := GoMap.weight_le_total (m := s.tcp) (w := Conn.use (peerIP c.addr))
    (fun _ c _ => use_nonneg) i
  have hone : c.use (peerIP c.addr) = 1 := by
    simp [Conn.use, hopen, atIP]
  have hrest : 0 ≤ ∑ key ∈ s.held, atIP (peerIP c.addr) key :=
    Finset.sum_nonneg fun key _ => atIP_nonneg
  rw [GoMap.weight_of_get _ hget, hone] at hle
  rw [State.uses]
  omega

theorem Inv.accept (h : Inv s) (hnone : s.tcp.get i = none) (addr : String) :
    Inv (next idleTimeout s (.accept i addr)) := by
  refine ⟨?_, ?_, h.events, h.gone⟩
  · apply h.counts.acquired
    intro ip
    have htotal := GoMap.total_insert_of_none hnone (Conn.use ip)
      ⟨addr, true, if (acquire s.refs (peerIP addr)).2 then .onOpen else .done⟩
    have hheld : (next idleTimeout s (.accept i addr)).held = s.held := rfl
    rw [State.uses, hheld, State.uses]
    simp only [next, htotal, Conn.use, if_true, atIP]
    omega
  · have htotal := GoMap.total_insert_of_none hnone (fun c : Conn => c.call.pending)
      ⟨addr, true, if (acquire s.refs (peerIP addr)).2 then .onOpen else .done⟩
    have hcard := h.counts.card_acquire (peerIP addr)
    have hbal := h.balance
    simp only [next, htotal, pending_open, hcard]
    omega

theorem Inv.finish (h : Inv s) (hget : s.tcp.get i = some c) (hopen : c.isOpen = true)
    (hcall : c.call = .done) : Inv (next idleTimeout s (.finish i c)) := by
  have hpos := uses_pos_of_tcp hget hopen
  refine ⟨?_, ?_, h.events, h.gone⟩
  · apply h.counts.released hpos
    intro ip
    have htotal := GoMap.total_insert_of_get hget (Conn.use ip)
      ⟨c.addr, false, if (release s.refs (peerIP c.addr)).2 then .onClose else .done⟩
    have hheld : (next idleTimeout s (.finish i c)).held = s.held := rfl
    rw [State.uses, hheld, State.uses]
    simp only [next, htotal, Conn.use, hopen, if_true, atIP]
    simp only [Bool.false_eq_true, if_false]
    omega
  · have htotal := GoMap.total_insert_of_get hget (fun c : Conn => c.call.pending)
      ⟨c.addr, false, if (release s.refs (peerIP c.addr)).2 then .onClose else .done⟩
    have hold : c.call.pending = 0 := by
      rw [hcall]
      rfl
    have hcard := h.counts.card_release hpos
    have hbal := h.balance
    simp only [next, htotal, hold, pending_close, hcard]
    omega

theorem report_balance (s : State) (call : Call) :
    ((s.report call).opens : Int) - (s.report call).closes =
      (s.opens : Int) - s.closes + call.pending := by
  cases call with
  | done => exact (add_zero _).symm
  | onOpen | onClose =>
    simp only [State.report, Call.pending, if_true, reduceCtorEq, if_false]
    omega

theorem Inv.tcpCall (h : Inv s) (hget : s.tcp.get i = some c) :
    Inv (next idleTimeout s (.tcpCall i c)) := by
  refine ⟨?_, ?_, h.events, h.gone⟩
  · have huses : (next idleTimeout s (.tcpCall i c)).uses = s.uses := by
      funext ip
      have htotal := GoMap.total_insert_of_get hget (Conn.use ip) { c with call := .done }
      have hsame : ({ c with call := .done } : Conn).use ip = c.use ip := rfl
      have hheld : (next idleTimeout s (.tcpCall i c)).held = s.held := rfl
      rw [hsame, sub_self, add_zero] at htotal
      rw [State.uses, hheld, State.uses]
      simp only [next, htotal]
    rw [huses]
    exact h.counts
  · have htotal := GoMap.total_insert_of_get hget (fun c : Conn => c.call.pending)
      { c with call := .done }
    have hreport := report_balance s c.call
    have hbal := h.balance
    have hudp : (s.report c.call).udp = s.udp := rfl
    have hrefs : (s.report c.call).refs = s.refs := rfl
    simp only [next, htotal, hudp, hrefs, pending_done]
    omega

end Tcp

/-! ## Sources -/

section Sources

variable {s : State} {key : String}

theorem uses_pos_of_held (hkey : key ∈ s.held) : 0 < s.uses (peerIP key) := by
  have htcp : 0 ≤ s.tcp.total (Conn.use (peerIP key)) :=
    GoMap.total_nonneg fun _ c _ => use_nonneg
  have hle := Finset.single_le_sum (f := atIP (peerIP key)) (fun k _ => atIP_nonneg) hkey
  have hone : atIP (peerIP key) key = 1 := if_pos rfl
  rw [hone] at hle
  rw [State.uses]
  omega

variable (h : Inv s)

include h

theorem Inv.setUdp {sessions : GoMap String Int} {udp : Udp} {returned : Bool}
    (hcall : udp.call = s.udp.call) (hheld : s.held = State.held { s with sessions, udp, returned })
    (hgone : returned = true → s.held = ∅) : Inv { s with sessions, udp, returned } := by
  refine ⟨?_, ?_, ?_, ?_⟩
  · have huses : State.uses { s with sessions, udp, returned } = s.uses := by
      funext ip
      rw [State.uses, State.uses, ← hheld]
    rw [huses]
    exact h.counts
  · simpa only [hcall] using h.balance
  · rw [← hheld]
    exact h.events
  · rw [← hheld]
    exact hgone

variable {udp : Call → Udp}

theorem Inv.openSource (hkey : key ∉ s.held) (hidle : s.udp.call = .done)
    (hret : s.returned = false) (hcall : ∀ call, (udp call).call = call)
    (hheld : (s.openSource key udp).held = insert key s.held) : Inv (s.openSource key udp) := by
  refine ⟨?_, ?_, ?_, ?_⟩
  · apply h.counts.acquired
    intro ip
    rw [State.uses, State.uses, hheld, Finset.sum_insert hkey]
    simp only [State.openSource, atIP]
    omega
  · have hcard := h.counts.card_acquire (peerIP key)
    have hbal := h.balance
    rw [hidle, pending_done] at hbal
    simp only [State.openSource, hcall, pending_open, hcard]
    omega
  · intro k
    have hk := h.events k
    rw [hheld]
    by_cases hkk : k = key
    · subst hkk
      rw [if_neg hkey] at hk
      simp only [State.openSource, Function.update_self, if_pos (Finset.mem_insert_self k s.held)]
      omega
    · simpa only [State.openSource, Function.update_of_ne hkk, Finset.mem_insert, hkk, false_or]
        using hk
  · intro htrue
    exact absurd (hret.symm.trans htrue) Bool.false_ne_true

theorem Inv.closeSource (hkey : key ∈ s.held) (hidle : s.udp.call = .done)
    (sessions : GoMap String Int) (hcall : ∀ call, (udp call).call = call)
    (hheld : ({ s with sessions }.closeSource key udp).held = s.held.erase key) :
    Inv ({ s with sessions }.closeSource key udp) := by
  have hpos := uses_pos_of_held hkey
  refine ⟨?_, ?_, ?_, ?_⟩
  · apply h.counts.released hpos
    intro ip
    have hsum := Finset.sum_erase_add s.held (atIP ip) hkey
    rw [State.uses, State.uses, hheld]
    simp only [State.closeSource, atIP] at hsum ⊢
    omega
  · have hcard := h.counts.card_release hpos
    have hbal := h.balance
    rw [hidle, pending_done] at hbal
    simp only [State.closeSource, hcall, pending_close, hcard]
    omega
  · intro k
    have hk := h.events k
    rw [hheld]
    by_cases hkk : k = key
    · subst hkk
      rw [if_pos hkey] at hk
      simp only [State.closeSource, Function.update_self, if_neg (Finset.notMem_erase k s.held)]
      omega
    · simpa only [State.closeSource, Function.update_of_ne hkk, Finset.mem_erase, ne_eq, hkk,
        not_false_eq_true, true_and] using hk
  · intro hret
    rw [hheld, h.gone hret]
    rfl

omit h in
theorem held_of_udp {udp : Udp} (h : s.udp = udp) : s.held = State.held { s with udp } := by
  subst h
  rfl

theorem Inv.packet (hfree : s.udp = .free) (hret : s.returned = false) (key : String) :
    Inv (next idleTimeout s (.packet key)) := by
  have hheld : s.held = s.sessions.keys := held_of_udp hfree
  have hcall : s.udp.call = .done := by
    rw [hfree]
    rfl
  cases hget : s.sessions.get key with
  | some last =>
    have hmem : key ∈ s.sessions.keys := by
      rw [s.sessions.mem_keys, hget]
      exact Option.some_ne_none last
    simp only [next, hget]
    exact h.setUdp hcall.symm (hheld.trans (Finset.insert_eq_of_mem hmem).symm) h.gone
  | none =>
    have hmem : key ∉ s.sessions.keys := by
      rw [s.sessions.mem_keys, hget]
      exact fun hne => hne rfl
    simp only [next, hget]
    exact h.openSource (hheld ▸ hmem) hcall hret (fun _ => rfl) (congrArg (insert key) hheld.symm)

variable {todo : Finset String}

theorem Inv.sweep {now : Int} (hudp : s.udp.sweeping? = some (now, todo)) (key : String) :
    Inv (next idleTimeout s (.sweep key)) := by
  have hpc := Udp.sweeping?_eq_some hudp
  have hheld : s.held = s.sessions.keys := held_of_udp hpc
  have hcall : s.udp.call = .done := by
    rw [hpc]
    rfl
  have hskip : Inv { s with udp := .sweeping now (todo.erase key) .done } :=
    h.setUdp hcall.symm hheld h.gone
  cases hget : s.sessions.get key with
  | none =>
    simp only [next, hudp, hget]
    exact hskip
  | some last =>
    have hmem : key ∈ s.sessions.keys := by
      rw [s.sessions.mem_keys, hget]
      exact Option.some_ne_none last
    simp only [next, hudp, hget]
    split_ifs
    · refine h.closeSource (hheld ▸ hmem) hcall _ (fun _ => rfl) ?_
      rw [hheld]
      rfl
    · exact hskip

theorem Inv.drop (hudp : s.udp.leaving? = some todo)
    (hkey : key ∈ todo) : Inv (next idleTimeout s (.drop key)) := by
  have hpc := Udp.leaving?_eq_some hudp
  have hheld : s.held = todo := held_of_udp hpc
  have hcall : s.udp.call = .done := by
    rw [hpc]
    rfl
  simp only [next, hudp]
  refine h.closeSource (hheld ▸ hkey) hcall s.sessions (fun _ => rfl) ?_
  rw [hheld]
  rfl

theorem Inv.udpCall : Inv (next idleTimeout s .udpCall) := by
  have hheld : (next idleTimeout s .udpCall).held = s.held := by
    unfold State.held
    cases hudp : s.udp <;> simp only [next, State.report, hudp, Udp.settle]
  refine ⟨?_, ?_, ?_, ?_⟩
  · have huses : (next idleTimeout s .udpCall).uses = s.uses := by
      funext ip
      rw [State.uses, State.uses, hheld]
      rfl
    rw [huses]
    exact h.counts
  · have hreport := report_balance s s.udp.call
    have hbal := h.balance
    have hsettled : s.udp.settle.call.pending = 0 := by
      cases s.udp <;> rfl
    have htcp : (s.report s.udp.call).tcp = s.tcp := rfl
    have hrefs : (s.report s.udp.call).refs = s.refs := rfl
    simp only [next, hsettled, htcp, hrefs]
    omega
  · rw [hheld]
    exact h.events
  · rw [hheld]
    exact h.gone

end Sources

variable {s : State}

theorem inv_next (h : Inv s) {a : Action} (hen : Enabled s a) : Inv (next idleTimeout s a) := by
  cases a with
  | accept i addr => exact h.accept hen addr
  | finish i c => exact h.finish hen.1 hen.2.1 hen.2.2
  | tcpCall i c => exact h.tcpCall hen
  | packet key => exact h.packet hen.1 hen.2 key
  | store key now =>
    have hudp : s.udp = .storing key .done := hen
    have hheld : s.held = insert key s.sessions.keys := held_of_udp hudp
    exact h.setUdp (by rw [hudp]; rfl) hheld h.gone
  | tick now =>
    have hudp : s.udp = .free := hen
    have hheld : s.held = s.sessions.keys := held_of_udp hudp
    exact h.setUdp (by rw [hudp]; rfl) hheld h.gone
  | sweep key =>
    obtain ⟨⟨now, todo⟩, hudp, -⟩ := hen
    exact h.sweep hudp key
  | swept =>
    obtain ⟨⟨now, todo⟩, hudp, -⟩ := hen
    have hpc := Udp.sweeping?_eq_some hudp
    have hheld : s.held = s.sessions.keys := held_of_udp hpc
    exact h.setUdp (by rw [hpc]; rfl) hheld h.gone
  | leave =>
    have hheld : s.held = s.sessions.keys := held_of_udp hen.1
    exact h.setUdp (by rw [hen.1]; rfl) hheld h.gone
  | drop key =>
    obtain ⟨todo, hudp, hkey⟩ := hen
    exact h.drop hudp hkey
  | left =>
    obtain ⟨todo, hudp, rfl⟩ := hen
    have hpc := Udp.leaving?_eq_some hudp
    have hheld : s.held = ∅ := held_of_udp hpc
    exact h.setUdp (by rw [hpc]; rfl) hheld fun _ => hheld
  | udpCall => exact h.udpCall

theorem inv_of_reach (h : Reach (step idleTimeout) anyAction init s) : Inv s := by
  refine invariant_of_next inv_init ?_ h
  intro u a hinv _ hen
  exact inv_next hinv hen

/-! ## What is reported -/

def Quiet (s : State) : Prop :=
  (∀ i ∈ s.tcp.keys, ∀ c ∈ s.tcp.get i, c.call = .done) ∧ s.udp.call = .done

instance (s : State) : Decidable (Quiet s) := inferInstanceAs (Decidable (_ ∧ _))

theorem pending_of_quiet (h : Quiet s) : s.tcp.total (·.call.pending) = 0 := by
  apply Finset.sum_eq_zero
  intro i hi
  obtain ⟨c, hc⟩ := Option.ne_none_iff_exists'.1 ((s.tcp.mem_keys i).1 hi)
  rw [GoMap.weight_of_get _ hc, h.1 i hi c hc]
  rfl

theorem used_iff (s : State) (ip : String) : s.Used ip ↔ 0 < s.uses ip := by
  constructor
  · rintro (⟨i, c, hget, hopen, rfl⟩ | ⟨key, hkey, rfl⟩)
    · exact uses_pos_of_tcp hget hopen
    · exact uses_pos_of_held hkey
  · intro hpos
    by_contra hnone
    have htcp : s.tcp.total (Conn.use ip) = 0 := by
      apply Finset.sum_eq_zero
      intro i hi
      obtain ⟨c, hc⟩ := Option.ne_none_iff_exists'.1 ((s.tcp.mem_keys i).1 hi)
      rw [GoMap.weight_of_get _ hc, Conn.use]
      split_ifs with hopen
      · exact if_neg fun haddr => hnone (.inl ⟨i, c, hc, hopen, haddr⟩)
      · rfl
    have hudp : ∑ key ∈ s.held, atIP ip key = 0 := by
      apply Finset.sum_eq_zero
      intro key hkey
      exact if_neg fun haddr => hnone (.inr ⟨key, hkey, haddr⟩)
    rw [State.uses, htcp, hudp] at hpos
    cases hpos

/-- A source was closed as often as opened, or once less while `ForwardUserConn` runs; with no call
of the tracker in progress, opens less closes is the number of addresses in use. -/
theorem peers_counted (idleTimeout : Int) (s : State)
    (h : Reach (step idleTimeout) anyAction init s) :
    (∀ host port : String, '[' ∉ host.toList → ']' ∉ host.toList →
        (∀ c ∈ port.toList, c.isDigit = true) → peerIP (joinHostPort host port) = host) ∧
      (∀ key, s.udpCloses key ≤ s.udpOpens key ∧ s.udpOpens key ≤ s.udpCloses key + 1) ∧
      (s.returned = true → ∀ key, s.udpOpens key = s.udpCloses key) ∧
      (Quiet s → (s.opens : Int) - s.closes = {ip | s.Used ip}.ncard) ∧
      (Quiet s → (∀ ip, ¬ s.Used ip) → s.opens = s.closes) := by
  have hinv := inv_of_reach h
  have hcount : Quiet s → (s.opens : Int) - s.closes = {ip | s.Used ip}.ncard := by
    intro hquiet
    have hset : {ip | s.Used ip} = (s.refs.keys : Set String) := by
      ext ip
      exact (used_iff s ip).trans (hinv.counts.mem_keys ip).symm
    have hbal := hinv.balance
    rw [pending_of_quiet hquiet, hquiet.2, pending_done] at hbal
    rw [hset, Set.ncard_coe_finset]
    omega
  refine ⟨fun _ _ => peerIP_joinHostPort, ?_, ?_, hcount, ?_⟩
  · intro key
    have hkey := hinv.events key
    split_ifs at hkey <;> omega
  · intro hret key
    have hkey := hinv.events key
    rw [hinv.gone hret, if_neg (Finset.notMem_empty key)] at hkey
    omega
  · intro hquiet hnone
    have hempty : {ip | s.Used ip} = ∅ := Set.eq_empty_iff_forall_notMem.2 hnone
    have hbal := hcount hquiet
    rw [hempty, Set.ncard_empty] at hbal
    omega

def twoPeers : List Action :=
  let tcp : String := "198.51.100.7:4000"
  let first : String := "198.51.100.7:5000"
  let second : String := "198.51.100.7:5001"
  let other : String := "[2001:db8::1]:53"
  [.accept 0 tcp, .packet first, .tcpCall 0 ⟨tcp, true, .onOpen⟩, .store first 0, .packet second,
    .store second 40, .packet other, .udpCall, .store other 41, .tick 45, .sweep first,
    .sweep second, .sweep other, .swept, .leave, .drop other, .udpCall, .drop second, .left]

theorem peers_counted_twoPeers :
    let s := (run (step 30) anyAction init twoPeers).getD init
    s.returned = true ∧ Quiet s ∧ s.opens = 2 ∧ s.closes = 1 ∧
      (s.opens : Int) - s.closes = {ip | s.Used ip}.ncard ∧
      ∀ key, s.udpOpens key = s.udpCloses key := by
  intro s
  have hreach : Reach (step 30) anyAction init s := reach_getD_of_isSome (by decide +kernel)
  have hret : s.returned = true := by decide +kernel
  have hquiet : Quiet s := by decide +kernel
  obtain ⟨-, -, hclosed, hcount, -⟩ := peers_counted 30 s hreach
  exact ⟨hret, hquiet, by decide +kernel, by decide +kernel, hcount hquiet, hclosed hret⟩

end FrpMeo.Server.Peers
