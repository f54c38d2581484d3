import FrpMeo.Lib.Transition

/-!
# The work connections of a udp proxy

The loop of `UDPProxy.Run` and `runUDPRelay` (`server/proxy/udp.go`, `tcpudp.go`) gets a work
connection, closes the one before, installs the new one, and waits until it has ended or `Close`
closes `checkCloseCh`. `Close` closes the installed connection first, and the loop does not take its
lock.
-/

namespace FrpMeo.Server.UdpRelay

open Lib.Transition Function

/-- Where the loop stands. -/
inductive Loop where
  /-- In `GetWorkConnFromPool`. -/
  | fetching
  /-- After an error; `checkCloseCh` is looked at next. -/
  | sleeping
  | replacing (c : Nat)
  | wrapping (c : Nat)
  /-- At the receive from `checkCloseCh`. -/
  | waiting
  | returned
  deriving DecidableEq

structure State where
  loop : Loop
  workConn : Option Nat
  isOpen : Nat → Bool
  next : Nat
  isClosed : Bool
  /-- `checkCloseCh` is closed. -/
  chClosed : Bool

def init : State := ⟨.fetching, none, fun _ => false, 0, false, false⟩

/-- Closing a stream with a limiter does not reach its connection (`Server.Stream`). -/
def State.closeStream (limited : Bool) (s : State) (c : Nat) : State :=
  { s with isOpen := update s.isOpen c (limited && s.isOpen c) }

inductive Action where
  | get (ok : Bool)
  | look
  | closeOld (c : Nat)
  | wrap (c : Nat) (ok : Bool)
  /-- A reader that has ended sends to `checkCloseCh`. -/
  | notify
  | seeClosed
  /-- The reader or the sender of a connection closes it after an error. -/
  | fail (c : Nat)
  /-- `Close`, up to the connection. -/
  | close
  | closeCh

def Enabled (s : State) : Action → Prop
  | .get _ => s.loop = .fetching
  | .look => s.loop = .sleeping
  | .closeOld c => s.loop = .replacing c
  | .wrap c _ => s.loop = .wrapping c
  | .notify => s.loop = .waiting ∧ s.chClosed = false
  | .seeClosed => s.loop = .waiting ∧ s.chClosed = true
  | .fail c => c < s.next ∧ s.loop ≠ .replacing c ∧ s.loop ≠ .wrapping c
  | .close => s.isClosed = false
  | .closeCh => s.isClosed = true ∧ s.chClosed = false

instance (s : State) (a : Action) : Decidable (Enabled s a) := by
  cases a <;> dsimp only [Enabled] <;> infer_instance

def next (limited : Bool) (s : State) : Action → State
  | .get true =>
      { s with
        loop := .replacing s.next, isOpen := update s.isOpen s.next true, next := s.next + 1 }
  | .get false => { s with loop := .sleeping }
  | .look => { s with loop := if s.chClosed then .returned else .fetching }
  | .closeOld c => { s.workConn.elim s (s.closeStream limited) with loop := .wrapping c }
  | .wrap c true => { s with loop := .waiting, workConn := some c }
  | .wrap c false => { s with loop := .fetching, isOpen := update s.isOpen c false }
  | .notify => { s with loop := .fetching }
  | .seeClosed => { s with loop := .returned }
  | .fail c => s.closeStream limited c
  | .close => { s.workConn.elim s (s.closeStream limited) with isClosed := true }
  | .closeCh => { s with chClosed := true }

def step (limited : Bool) : State → Action → Option State := stepOf Enabled (next limited)

/-- No connection is installed after `Close` has closed the installed one. -/
def InstallsBefore (s : State) : Action → Prop
  | .wrap _ true => s.isClosed = false
  | _ => True

instance (s : State) (a : Action) : Decidable (InstallsBefore s a) := by
  unfold InstallsBefore
  split <;> infer_instance

structure Inv (s : State) : Prop where
  owned : ∀ c, s.isOpen c = true →
    s.workConn = some c ∨ s.loop = .replacing c ∨ s.loop = .wrapping c
  closed : s.isClosed = true → ∀ c, s.workConn = some c → s.isOpen c = false
  replaced : ∀ c c', s.loop = .wrapping c → s.workConn = some c' → s.isOpen c' = false
  fresh : ∀ c, s.workConn = some c ∨ s.loop = .replacing c ∨ s.loop = .wrapping c → c < s.next

variable {s : State} {a : Action}

theorem closeInstalled_eq (s : State) :
    ∃ isOpen, s.workConn.elim s (s.closeStream false) = { s with isOpen := isOpen } ∧
      ∀ c, isOpen c = true → s.isOpen c = true ∧ s.workConn ≠ some c := by
  obtain ⟨_, workConn, isOpen, _, _, _⟩ := s
  cases workConn with
  | none => exact ⟨isOpen, rfl, fun c hc => ⟨hc, nofun⟩⟩
  | some d => exact ⟨update isOpen d false, rfl, by grind [update_apply]⟩

/-- The loop goes on with no connection in hand. -/
theorem Inv.goOn (h : Inv s) {l : Loop} (hs : ∀ c, s.loop ≠ .replacing c ∧ s.loop ≠ .wrapping c)
    (hl : ∀ c, l ≠ .replacing c ∧ l ≠ .wrapping c) : Inv { s with loop := l } := by
  refine ⟨fun c hc => .inl ?_, h.closed, fun c _ hc => absurd hc (hl c).2,
    fun c hc => h.fresh c (.inl ?_)⟩
  · simpa [hs] using h.owned c hc
  · simpa [hl] using hc

theorem inv_next (h : Inv s) (hok : InstallsBefore s a) (hen : Enabled s a) :
    Inv (next false s a) := by
  have ⟨howned, hclosed, hreplaced, hfresh⟩ := h
  cases a with
  | get ok =>
    have hloop : s.loop = .fetching := hen
    cases ok with
    | false => exact h.goOn (by simp [hloop]) (by simp)
    | true =>
      simp only [next]
      constructor <;> grind [update_apply]
  | wrap c ok =>
    have hloop : s.loop = .wrapping c := hen
    cases ok with
    | false =>
      simp only [next]
      constructor <;> grind [update_apply]
    | true =>
      have hopen : s.isClosed = false := hok
      simp only [next]
      constructor <;> grind
  | closeOld c =>
    have hloop : s.loop = .replacing c := hen
    obtain ⟨isOpen, heq, hleft⟩ := closeInstalled_eq s
    simp only [next, heq]
    constructor <;> grind
  | fail c =>
    simp only [next, State.closeStream]
    constructor <;> grind [update_apply]
  | close =>
    obtain ⟨isOpen, heq, hleft⟩ := closeInstalled_eq s
    simp only [next, heq]
    constructor <;> grind
  | look => exact h.goOn (by simp [show s.loop = .sleeping from hen]) (by grind)
  | notify | seeClosed => exact h.goOn (by simp [show s.loop = .waiting from hen.1]) (by simp)
  | closeCh => exact ⟨howned, hclosed, hreplaced, hfresh⟩

/-- Without a limiter, and if nothing is installed after `Close`, no work connection is left. -/
theorem none_open_of_installs_before (h : Reach (step false) InstallsBefore init s)
    (hclosed : s.isClosed = true) (hreturned : s.loop = .returned) (c : Nat) :
    s.isOpen c = false := by
  have hinit : Inv init := ⟨nofun, nofun, nofun, by simp [init]⟩
  have hinv := invariant_of_next hinit (fun _ _ hs hok hen => inv_next hs hok hen) h
  by_contra hc
  rcases hinv.owned c (by simpa using hc) with hw | hw | hw
  · exact hc (hinv.closed hclosed c hw)
  · cases hreturned.symm.trans hw
  · cases hreturned.symm.trans hw

def usedRun : List Action := [.get true, .closeOld 0, .wrap 0 true, .close, .closeCh, .seeClosed]

theorem none_open_of_installs_before_used :
    ((run (step false) InstallsBefore init usedRun).getD init).isOpen 0 = false :=
  none_open_of_installs_before (reach_getD_of_isSome (by decide +kernel)) (by decide +kernel)
    (by decide +kernel) 0

/-- `Close` comes while the first work connection is fetched. -/
theorem late_work_connection_stays_open :
    ∃ s, Reach (step false) anyAction init s ∧ s.isClosed = true ∧ s.loop = .returned ∧
      s.isOpen 0 = true :=
  ⟨(run (step false) anyAction init
      [.close, .closeCh, .get true, .closeOld 0, .wrap 0 true, .seeClosed]).getD init,
    reach_getD_of_isSome (by decide +kernel), by decide +kernel, by decide +kernel,
    by decide +kernel⟩

end FrpMeo.Server.UdpRelay
