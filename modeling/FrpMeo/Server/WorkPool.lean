import FrpMeo.Lib.Transition
import Mathlib.Tactic

/-!
# Where work connections end

A work connection is looked up by its run id, verified and sent to the channel of a control; a proxy
takes it from there, and the worker closes the channel and what is left in it (`server/control.go`).
`RegisterWorkConn` recovers from a send on a closed channel and returns no error, and a control
whose login fails, or that is replaced before `Start`, has no worker.
-/

namespace FrpMeo.Server.WorkPool

open Lib.Transition Function

/-! ## The model -/

inductive WorkerPc where
  /-- `Start` has not run. -/
  | absent
  | serving
  /-- The channel is closed, and what is in it is being closed. -/
  | draining
  | finished
  deriving DecidableEq

/-- `pool` is what `workConnCh` holds; an `abandoned` control has failed or was replaced before
`Start`. -/
structure Control where
  runID : String
  cap : Nat
  pool : List Nat
  chClosed : Bool
  abandoned : Bool
  worker : WorkerPc

def newControl (runID : String) (cap : Nat) : Control where
  runID := runID
  cap := cap
  pool := []
  chClosed := false
  abandoned := false
  worker := .absent

inductive ConnPc where
  | absent
  /-- `NewWorkConn` is read; the control manager is asked next. -/
  | arrived (runID : String)
  /-- The control is found; plugins and authentication are next. -/
  | found (c : Nat)
  /-- `ctl.RegisterWorkConn` is next. -/
  | sending (c : Nat)
  /-- There was an error; the connection is closed next. -/
  | refused
  /-- `RegisterWorkConn` has returned without an error. -/
  | registered
  | discarded
  deriving DecidableEq

def ConnPc.returned : ConnPc → Bool
  | .registered | .discarded => true
  | _ => false

def ConnPc.afterLookup : Option Nat → ConnPc
  | none => .refused
  | some c => .found c

inductive TakerPc where
  | absent
  /-- The pool was empty and `ReqWorkConn` is sent. -/
  | waiting (c : Nat)
  | got (k : Nat)
  | failed
  deriving DecidableEq

/-- The server. The code does not record what has been sent to a pool; `put` does. -/
structure State where
  nextCtl : Nat
  ctl : Nat → Control
  ctlsByRunID : String → Option Nat
  nextConn : Nat
  conn : Nat → ConnPc
  closed : Nat → Bool
  put : Nat → Bool
  nextTaker : Nat
  taker : Nat → TakerPc

def init : State where
  nextCtl := 0
  ctl := fun _ => newControl "" 0
  ctlsByRunID := fun _ => none
  nextConn := 0
  conn := fun _ => .absent
  closed := fun _ => false
  put := fun _ => false
  nextTaker := 0
  taker := fun _ => .absent

def State.setCtl (s : State) (c : Nat) (k : Control) : State :=
  { s with ctl := update s.ctl c k }

def State.setConn (s : State) (k : Nat) (p : ConnPc) : State :=
  { s with conn := update s.conn k p }

def State.setTaker (s : State) (t : Nat) (p : TakerPc) : State :=
  { s with taker := update s.taker t p }

/-- `ControlManager.Del`: a newer control of the run id stays. -/
def State.del (s : State) (c : Nat) : State :=
  { s with
    ctlsByRunID :=
      if s.ctlsByRunID (s.ctl c).runID = some c then
        update s.ctlsByRunID (s.ctl c).runID none
      else s.ctlsByRunID }

def Control.replaced (k : Control) : Control :=
  if k.worker = .absent then { k with abandoned := true } else k

/-- `ControlManager.Add` replaces the control that has the run id. -/
def State.replace (s : State) (runID : String) : State :=
  match s.ctlsByRunID runID with
  | none => s
  | some old => s.setCtl old (s.ctl old).replaced

inductive Action where
  | login (runID : String) (cap : Nat)
  /-- The registration of the client or the login response fails. -/
  | loginFails (c : Nat)
  | start (c : Nat)
  | closeChannel (c : Nat)
  | drain (c : Nat)
  | drained (c : Nat)
  | reap (c : Nat)
  | arrive (runID : String)
  | lookup (k : Nat) (runID : String)
  | verify (k c : Nat) (ok : Bool)
  | register (k c : Nat)
  /-- A send that meets a taker that waits on the empty channel. -/
  | handOff (k c t : Nat)
  | discard (k : Nat)
  | take (c : Nat) (sent : Bool)
  | wake (t c : Nat)
  | timeout (t c : Nat)
  deriving DecidableEq

def Enabled (s : State) : Action → Prop
  | .login _ _ => True
  | .loginFails c => c < s.nextCtl ∧ (s.ctl c).worker = .absent
  | .start c => c < s.nextCtl ∧ (s.ctl c).worker = .absent ∧ (s.ctl c).abandoned = false
  | .closeChannel c => (s.ctl c).worker = .serving
  | .drain c => (s.ctl c).worker = .draining ∧ (s.ctl c).pool ≠ []
  | .drained c => (s.ctl c).worker = .draining ∧ (s.ctl c).pool = []
  | .reap c => (s.ctl c).worker = .finished
  | .arrive _ => True
  | .lookup k runID => s.conn k = .arrived runID
  | .verify k c _ => s.conn k = .found c
  | .register k c => s.conn k = .sending c
  | .handOff k c t =>
      s.conn k = .sending c ∧ s.taker t = .waiting c ∧ (s.ctl c).chClosed = false ∧
        (s.ctl c).pool = []
  | .discard k => s.conn k = .refused
  | .take c _ => c < s.nextCtl
  | .wake t c => s.taker t = .waiting c ∧ ((s.ctl c).pool ≠ [] ∨ (s.ctl c).chClosed = true)
  | .timeout t c => s.taker t = .waiting c

instance (s : State) (a : Action) : Decidable (Enabled s a) := by
  cases a <;> dsimp only [Enabled] <;> infer_instance

def State.registerWorkConn (s : State) (k c : Nat) : State :=
  -- the send panics, and the deferred function recovers: the result is a nil error
  if (s.ctl c).chClosed then s.setConn k .registered
  else if (s.ctl c).pool.length < (s.ctl c).cap then
    ({ s with put := update s.put k true }.setCtl c
      { s.ctl c with pool := (s.ctl c).pool ++ [k] }).setConn k .registered
  else s.setConn k .refused

/-- The receive of taker `t`; `empty` is what it does when there is nothing to receive. -/
def State.receive (s : State) (t c : Nat) (empty : TakerPc) : State :=
  match (s.ctl c).pool with
  | k :: pool => (s.setCtl c { s.ctl c with pool := pool }).setTaker t (.got k)
  | [] => s.setTaker t (if (s.ctl c).chClosed then .failed else empty)

def State.drain (s : State) (c : Nat) : State :=
  match (s.ctl c).pool with
  | k :: pool =>
      { s with closed := update s.closed k true }.setCtl c { s.ctl c with pool := pool }
  | [] => s

def next (s : State) : Action → State
  | .login runID cap =>
      let s := s.replace runID
      { s with
        nextCtl := s.nextCtl + 1
        ctl := update s.ctl s.nextCtl (newControl runID cap)
        ctlsByRunID := update s.ctlsByRunID runID (some s.nextCtl) }
  | .loginFails c => (s.del c).setCtl c { s.ctl c with abandoned := true }
  | .start c => s.setCtl c { s.ctl c with worker := .serving }
  | .closeChannel c => s.setCtl c { s.ctl c with chClosed := true, worker := .draining }
  | .drain c => s.drain c
  | .drained c => s.setCtl c { s.ctl c with worker := .finished }
  | .reap c => s.del c
  | .arrive runID => { s with nextConn := s.nextConn + 1 }.setConn s.nextConn (.arrived runID)
  | .lookup k runID => s.setConn k (ConnPc.afterLookup (s.ctlsByRunID runID))
  | .verify k c ok => s.setConn k (if ok then .sending c else .refused)
  | .register k c => s.registerWorkConn k c
  | .handOff k _ t =>
      ({ s with put := update s.put k true }.setTaker t (.got k)).setConn k .registered
  | .discard k => { s with closed := update s.closed k true }.setConn k .discarded
  -- a request for more connections that cannot be sent ends the call
  | .take c sent =>
      { s with nextTaker := s.nextTaker + 1 }.receive s.nextTaker c
        (if sent then .waiting c else .failed)
  | .wake t c => s.receive t c (.waiting c)
  | .timeout t _ => s.setTaker t .failed

def step : State → Action → Option State := stepOf Enabled next

/-! ## Places -/

inductive Place where
  | pool (c : Nat)
  | taker (t : Nat)
  | closed
  deriving DecidableEq

def State.At (s : State) (k : Nat) : Place → Prop
  | .pool c => k ∈ (s.ctl c).pool
  | .taker t => s.taker t = .got k
  | .closed => s.closed k = true

/-- The worker has finished, or there will never be one. -/
def Control.dead (k : Control) : Bool := k.worker = .finished || (k.worker = .absent && k.abandoned)

/-- The pool of a dead control is no place to be. -/
def State.Proper (s : State) : Place → Prop
  | .pool c => (s.ctl c).dead = false
  | _ => True

/-- Every connection whose goroutine has returned is in exactly one place, once. -/
structure Accounted (s : State) : Prop where
  place : ∀ k, (s.conn k).returned = true →
    ∃ p, s.At k p ∧ s.Proper p ∧ ∀ q, s.At k q → q = p
  once : ∀ c, (s.ctl c).pool.Nodup
  put : ∀ k, s.conn k = .registered → s.put k = true

/-- Connections go to open pools of live controls, and only empty pools are abandoned. -/
def Careful (s : State) : Action → Prop
  | .register _ c => (s.ctl c).chClosed = false ∧ (s.ctl c).abandoned = false
  | .loginFails c => (s.ctl c).pool = []
  | .login runID _ =>
      ∀ old ∈ s.ctlsByRunID runID, (s.ctl old).worker = .absent → (s.ctl old).pool = []
  | _ => True

instance (s : State) (a : Action) : Decidable (Careful s a) := by
  cases a <;> dsimp only [Careful] <;> infer_instance

/-! ## The account -/

/-- `loc` is the place of every connection that is somewhere. -/
def Located (s : State) (loc : Nat → Option Place) : Prop := ∀ k p, s.At k p ↔ loc k = some p

structure Inv (s : State) (loc : Nat → Option Place) : Prop where
  located : Located s loc
  pending : ∀ k, (s.conn k).returned = false → loc k = none
  returned : ∀ k, (s.conn k).returned = true → loc k ≠ none
  put : ∀ k, s.conn k = .registered → s.put k = true
  once : ∀ c, (s.ctl c).pool.Nodup
  dead : ∀ c, (s.ctl c).dead = true → (s.ctl c).pool = []
  closing : ∀ c, (s.ctl c).worker = .draining ∨ (s.ctl c).worker = .finished →
    (s.ctl c).chClosed = true
  freshCtl : ∀ c, s.nextCtl ≤ c → (s.ctl c).pool = [] ∧ (s.ctl c).cap = 0
  freshConn : ∀ k, s.nextConn ≤ k → s.conn k = .absent
  freshTaker : ∀ t, s.nextTaker ≤ t → s.taker t = .absent

theorem inv_init : Inv init fun _ => none where
  located := by
    intro k p
    cases p <;> simp [State.At, init, newControl]
  pending := fun _ _ => rfl
  returned := by rintro k ⟨⟩
  put := by rintro k ⟨⟩
  once := fun _ => List.nodup_nil
  dead := fun _ _ => rfl
  closing := by rintro c (⟨⟨⟩⟩ | ⟨⟨⟩⟩)
  freshCtl := fun _ _ => ⟨rfl, rfl⟩
  freshConn := fun _ _ => rfl
  freshTaker := fun _ _ => rfl

theorem Inv.accounted {s : State} {loc : Nat → Option Place} (h : Inv s loc) : Accounted s where
  place := by
    intro k hk
    obtain ⟨p, hp⟩ := Option.ne_none_iff_exists'.1 (h.returned k hk)
    refine ⟨p, (h.located k p).2 hp, ?_, ?_⟩
    · cases p with
      | pool c =>
        cases hdead : (s.ctl c).dead with
        | false => exact hdead
        | true =>
          have hmem : k ∈ (s.ctl c).pool := (h.located k (.pool c)).2 hp
          rw [h.dead c hdead] at hmem
          cases hmem
      | taker | closed => trivial
    · intro q hq
      rw [(h.located k q).1 hq] at hp
      exact Option.some.inj hp
  once := h.once
  put := h.put

section Steps

variable {s t : State} {loc : Nat → Option Place} {k c : Nat} {p : Place}

section

variable (h : Located s loc)

include h

theorem Located.add (hk : loc k = none) (hat : ∀ k' q, t.At k' q ↔ s.At k' q ∨ k' = k ∧ q = p) :
    Located t (update loc k (some p)) := by
  intro k' q
  rw [hat k' q, h k' q]
  by_cases hkk : k' = k
  · subst hkk
    rw [hk, update_self, Option.some.injEq]
    simp [eq_comm]
  · rw [update_of_ne hkk]
    simp [hkk]

theorem Located.takeOut {pool : List Nat} (hpool : (s.ctl c).pool = k :: pool)
    (hnodup : (s.ctl c).pool.Nodup) :
    Located (s.setCtl c { s.ctl c with pool := pool }) (update loc k none) := by
  have hk : loc k = some (.pool c) := by
    rw [← h k (.pool c), State.At, hpool]
    exact List.mem_cons_self
  rw [hpool, List.nodup_cons] at hnodup
  intro k' q
  by_cases hkk : k' = k
  · subst hkk
    rw [update_self]
    refine iff_of_false ?_ nofun
    -- it was in this pool only, and there only once
    intro hq
    cases q with
    | pool d =>
      by_cases hd : d = c
      · subst hd
        exact hnodup.1 (by simpa [State.At, State.setCtl] using hq)
      · have hat : s.At k' (.pool d) := by simpa [State.At, State.setCtl, hd] using hq
        rw [h k' (.pool d), hk] at hat
        cases hat
        exact hd rfl
    | taker t =>
      have hat : s.At k' (.taker t) := hq
      rw [h k' (.taker t), hk] at hat
      cases hat
    | closed =>
      have hat : s.At k' .closed := hq
      rw [h k' .closed, hk] at hat
      cases hat
  · rw [update_of_ne hkk, ← h k' q]
    cases q with
    | pool d =>
      by_cases hd : d = c
      · subst hd
        simp [State.At, State.setCtl, hpool, hkk]
      · simp [State.At, State.setCtl, hd]
    | taker | closed => exact Iff.rfl

theorem Located.give {t : Nat} (hk : loc k = none) (ht : ∀ k, s.taker t ≠ .got k) :
    Located (s.setTaker t (.got k)) (update loc k (some (.taker t))) := by
  apply h.add hk
  intro k' q
  cases q with
  | pool | closed => simp [State.At, State.setTaker]
  | taker t' =>
    by_cases htt : t' = t
    · subst htt
      simp [State.At, State.setTaker, ht k', eq_comm]
    · simp [State.At, State.setTaker, htt]

theorem Located.close (hk : loc k = none) : Located { s with closed := update s.closed k true }
      (update loc k (some .closed)) := by
  apply h.add hk
  intro k' q
  cases q with
  | pool | taker => simp [State.At]
  | closed =>
    by_cases hkk : k' = k
    · subst hkk
      simp [State.At]
    · simp [State.At, hkk]

theorem Located.push (hk : loc k = none) :
    Located (s.setCtl c { s.ctl c with pool := (s.ctl c).pool ++ [k] })
      (update loc k (some (.pool c))) := by
  apply h.add hk
  intro k' q
  cases q with
  | taker | closed => simp [State.At, State.setCtl]
  | pool d =>
    by_cases hd : d = c
    · subst hd
      simp [State.At, State.setCtl]
    · simp [State.At, State.setCtl, hd]

end

structure ControlOk (nextCtl c : Nat) (k : Control) : Prop where
  once : k.pool.Nodup
  dead : k.dead = true → k.pool = []
  closing : k.worker = .draining ∨ k.worker = .finished → k.chClosed = true
  fresh : nextCtl ≤ c → k.pool = [] ∧ k.cap = 0

variable (h : Inv s loc)

include h

namespace Inv

theorem controlOk_update {n : Nat} {k : Control} (hn : s.nextCtl ≤ n)
    (hk : ControlOk n c k) : ∀ d, ControlOk n d (update s.ctl c k d) := by
  apply (forall_update_iff s.ctl (p := fun d k => ControlOk n d k)).2
  refine ⟨hk, fun d _ => ⟨h.once d, h.dead d, h.closing d, ?_⟩⟩
  intro hle
  exact h.freshCtl d (Nat.le_trans hn hle)

theorem setCtl (c : Nat) {k : Control} {n : Nat} {m : String → Option Nat}
    (hpool : k.pool = (s.ctl c).pool) (hdead : k.dead = true → k.pool = [])
    (hclosing : k.worker = .draining ∨ k.worker = .finished → k.chClosed = true)
    (hn : s.nextCtl ≤ n) (hcap : n ≤ c → k.cap = (s.ctl c).cap) :
    Inv ({ s with nextCtl := n, ctlsByRunID := m }.setCtl c k) loc := by
  have hpools : ∀ d, (update s.ctl c k d).pool = (s.ctl d).pool := by
    intro d
    by_cases hd : d = c
    · rw [hd, update_self, hpool]
    · rw [update_of_ne hd]
  have hk : ControlOk n c k := by
    refine ⟨hpool ▸ h.once c, hdead, hclosing, ?_⟩
    intro hle
    rw [hpool, hcap hle]
    exact h.freshCtl c (Nat.le_trans hn hle)
  have hok := h.controlOk_update hn hk
  refine ⟨?_, h.pending, h.returned, h.put, fun d => (hok d).once, fun d => (hok d).dead,
    fun d => (hok d).closing, fun d => (hok d).fresh, h.freshConn, h.freshTaker⟩
  intro k' p
  rw [← h.located k' p]
  cases p with
  | pool d => exact Iff.of_eq (congrArg (k' ∈ ·) (hpools d))
  | taker | closed => exact Iff.rfl

theorem setFlags (c : Nat) {k : Control} (m : String → Option Nat)
    (hdead : k.dead = true → k.pool = [])
    (hclosing : k.worker = .draining ∨ k.worker = .finished → k.chClosed = true)
    (hk : (k.pool, k.cap) = ((s.ctl c).pool, (s.ctl c).cap) := by rfl) :
    Inv ({ s with ctlsByRunID := m }.setCtl c k) loc :=
  h.setCtl c (Prod.mk.inj hk).1 hdead hclosing (Nat.le_refl _) fun _ => (Prod.mk.inj hk).2

theorem setMap (m : String → Option Nat) : Inv { s with ctlsByRunID := m } loc :=
  { h with }

theorem setConn {p : ConnPc} (hk : (s.conn k).returned = false)
    (hp : p.returned = false) (hlt : k < s.nextConn) : Inv (s.setConn k p) loc := by
  refine { h with pending := ?_, returned := ?_, put := ?_, freshConn := ?_ }
  · exact (forall_update_iff s.conn (p := fun k p => p.returned = false → loc k = none)).2
      ⟨fun _ => h.pending k hk, fun k' _ => h.pending k'⟩
  · refine (forall_update_iff s.conn (p := fun k p => p.returned = true → loc k ≠ none)).2
      ⟨fun hret => ?_, fun k' _ => h.returned k'⟩
    rw [hp] at hret
    cases hret
  · refine (forall_update_iff s.conn (p := fun k p => p = .registered →
      s.put k = true)).2 ⟨?_, fun k' _ => h.put k'⟩
    rintro rfl
    cases hp
  · refine (forall_update_iff s.conn (p := fun k p => s.nextConn ≤ k → p = .absent)).2
      ⟨fun hle => absurd hlt (Nat.not_lt.2 hle), fun k' _ => h.freshConn k'⟩

theorem conn_lt (hk : s.conn k ≠ .absent) : k < s.nextConn := by
  by_contra hlt
  exact hk (h.freshConn k (Nat.not_lt.1 hlt))

theorem taker_lt {t : Nat} (ht : s.taker t ≠ .absent) : t < s.nextTaker := by
  by_contra hlt
  exact ht (h.freshTaker t (Nat.not_lt.1 hlt))

theorem setTaker {t : Nat} {p : TakerPc} (ht : ∀ k, s.taker t ≠ .got k)
    (hp : ∀ k, p ≠ .got k) (hlt : t < s.nextTaker) : Inv (s.setTaker t p) loc := by
  refine { h with located := ?_, freshTaker := ?_ }
  · intro k q
    rw [← h.located k q]
    cases q with
    | pool | closed => exact Iff.rfl
    | taker t' =>
      change update s.taker t p t' = .got k ↔ s.taker t' = .got k
      by_cases htt : t' = t
      · subst htt
        rw [update_self]
        exact iff_of_false (hp k) (ht k)
      · rw [update_of_ne htt]
  · exact (forall_update_iff s.taker (p := fun t p => s.nextTaker ≤ t → p = .absent)).2
      ⟨fun hle => absurd hlt (Nat.not_lt.2 hle), fun t' _ => h.freshTaker t'⟩

theorem returned_of_mem (hk : k ∈ (s.ctl c).pool) : (s.conn k).returned = true := by
  have hloc := (h.located k (.pool c)).1 hk
  cases hret : (s.conn k).returned with
  | true => rfl
  | false =>
    rw [h.pending k hret] at hloc
    cases hloc

theorem takeOut {pool : List Nat} (closed : Nat → Bool) (taker : Nat → TakerPc)
    (hpool : (s.ctl c).pool = k :: pool) (hlocated : Located
      ({ s with closed := closed, taker := taker }.setCtl c { s.ctl c with pool := pool })
      (update loc k (some p))) (hfresh : ∀ t, s.nextTaker ≤ t → taker t = .absent) :
    Inv ({ s with closed := closed, taker := taker }.setCtl c { s.ctl c with pool := pool })
      (update loc k (some p)) := by
  have hret : (s.conn k).returned = true :=
    h.returned_of_mem (by rw [hpool]; exact List.mem_cons_self)
  have hk : ControlOk s.nextCtl c { s.ctl c with pool := pool } := by
    have hnodup := h.once c
    rw [hpool] at hnodup
    refine ⟨(List.nodup_cons.1 hnodup).2, ?_, h.closing c, ?_⟩
    · intro hdead
      have hnil := h.dead c hdead
      rw [hpool] at hnil
      cases hnil
    · intro hle
      have hnil := (h.freshCtl c hle).1
      rw [hpool] at hnil
      cases hnil
  have hok := h.controlOk_update (Nat.le_refl _) hk
  refine ⟨hlocated, ?_, ?_, h.put, fun d => (hok d).once, fun d => (hok d).dead,
    fun d => (hok d).closing, fun d => (hok d).fresh, h.freshConn, hfresh⟩
  · refine (forall_update_iff loc (p := fun k p => (s.conn k).returned = false →
      p = none)).2 ⟨fun hk => ?_, fun k' _ => h.pending k'⟩
    rw [hret] at hk
    cases hk
  · exact (forall_update_iff loc (p := fun k p => (s.conn k).returned = true →
      p ≠ none)).2 ⟨fun _ => nofun, fun k' _ => h.returned k'⟩

theorem finish {q : ConnPc} {u : State} (hk : k < s.nextConn)
    (hq : q.returned = true) (hlocated : Located u (update loc k (some p)))
    (hconn : u.conn = update s.conn k q) (hnext : u.nextConn = s.nextConn)
    (hput : q = .registered → u.put k = true) (hputs : ∀ k', s.put k' = true → u.put k' = true)
    (hctls : (∀ c, (u.ctl c).pool.Nodup) ∧ (∀ c, (u.ctl c).dead = true → (u.ctl c).pool = []) ∧
      (∀ c, (u.ctl c).worker = .draining ∨ (u.ctl c).worker = .finished →
        (u.ctl c).chClosed = true) ∧
      ∀ c, u.nextCtl ≤ c → (u.ctl c).pool = [] ∧ (u.ctl c).cap = 0)
    (hfresh : ∀ t, u.nextTaker ≤ t → u.taker t = .absent) : Inv u (update loc k (some p)) := by
  obtain ⟨honce, hdead, hclosing, hctl⟩ := hctls
  refine ⟨hlocated, ?_, ?_, ?_, honce, hdead, hclosing, hctl, ?_, hfresh⟩
  · intro k' hret
    rw [hconn] at hret
    by_cases hkk : k' = k
    · subst hkk
      rw [update_self, hq] at hret
      cases hret
    · rw [update_of_ne hkk] at hret ⊢
      exact h.pending k' hret
  · intro k' hret
    rw [hconn] at hret
    by_cases hkk : k' = k
    · subst hkk
      rw [update_self]
      nofun
    · rw [update_of_ne hkk] at hret ⊢
      exact h.returned k' hret
  · intro k' hreg
    rw [hconn] at hreg
    by_cases hkk : k' = k
    · subst hkk
      rw [update_self] at hreg
      exact hput hreg
    · rw [update_of_ne hkk] at hreg
      exact hputs k' (h.put k' hreg)
  · intro k' hle
    rw [hnext] at hle
    rw [hconn, update_of_ne (by omega)]
    exact h.freshConn k' hle

theorem ctls : (∀ c, (s.ctl c).pool.Nodup) ∧ (∀ c, (s.ctl c).dead = true → (s.ctl c).pool = []) ∧
      (∀ c, (s.ctl c).worker = .draining ∨ (s.ctl c).worker = .finished →
        (s.ctl c).chClosed = true) ∧
      ∀ c, s.nextCtl ≤ c → (s.ctl c).pool = [] ∧ (s.ctl c).cap = 0 :=
  ⟨h.once, h.dead, h.closing, h.freshCtl⟩

theorem loc_eq_none {p : ConnPc} (hk : s.conn k = p) (hp : p.returned = false) : loc k = none :=
  h.pending k (by rw [hk, hp])

theorem receive {t : Nat} {empty : TakerPc} (ht : ∀ k, s.taker t ≠ .got k)
    (hempty : ∀ k, empty ≠ .got k) (hlt : t < s.nextTaker) :
    ∃ loc', Inv (s.receive t c empty) loc' := by
  unfold State.receive
  cases hpool : (s.ctl c).pool with
  | nil =>
    refine ⟨loc, h.setTaker ht ?_ hlt⟩
    intro k
    split_ifs
    · nofun
    · exact hempty k
  | cons k pool =>
    have hgive := (h.located.takeOut hpool (h.once c)).give
      (update_self ..) ht
    rw [update_idem] at hgive
    refine ⟨_, h.takeOut s.closed (update s.taker t (.got k)) hpool hgive ?_⟩
    exact (forall_update_iff s.taker (p := fun t p => s.nextTaker ≤ t → p = .absent)).2
      ⟨fun hle => absurd hlt (Nat.not_lt.2 hle), fun t' _ => h.freshTaker t'⟩

theorem drain (c : Nat) : ∃ loc', Inv (s.drain c) loc' := by
  unfold State.drain
  cases hpool : (s.ctl c).pool with
  | nil => exact ⟨loc, h⟩
  | cons k pool =>
    have hclose := (h.located.takeOut hpool (h.once c)).close (update_self ..)
    rw [update_idem] at hclose
    exact ⟨_, h.takeOut (update s.closed k true) s.taker hpool hclose h.freshTaker⟩

theorem register (hk : s.conn k = .sending c)
    (hopen : (s.ctl c).chClosed = false) (hkept : (s.ctl c).abandoned = false) :
    ∃ loc', Inv (s.registerWorkConn k c) loc' := by
  have hlt : k < s.nextConn := h.conn_lt (by rw [hk]; rintro ⟨⟩)
  unfold State.registerWorkConn
  rw [if_neg (by rw [hopen]; exact Bool.false_ne_true)]
  split_ifs with hroom
  · have hloc := h.loc_eq_none hk rfl
    have hc : ControlOk s.nextCtl c { s.ctl c with pool := (s.ctl c).pool ++ [k] } := by
      refine ⟨List.nodup_append.2 ⟨h.once c, List.nodup_singleton k, ?_⟩, ?_, h.closing c, ?_⟩
      · -- a connection that is still to be sent is in no pool
        rintro k' hmem _ hk' rfl
        rw [List.mem_singleton.1 hk'] at hmem
        have hat := (h.located k (.pool c)).1 hmem
        rw [hloc] at hat
        cases hat
      · intro hdead
        have hdead' : (s.ctl c).dead = true := hdead
        simp only [Control.dead, hkept, Bool.and_false, Bool.or_false, decide_eq_true_eq]
          at hdead'
        rw [h.closing c (.inr hdead')] at hopen
        cases hopen
      · intro hle
        rw [(h.freshCtl c hle).2] at hroom
        cases hroom
    have hok := h.controlOk_update (Nat.le_refl _) hc
    refine ⟨_, h.finish hlt rfl (h.located.push hloc) rfl rfl
      (fun _ => update_self ..) ?_ ⟨fun d => (hok d).once, fun d => (hok d).dead,
        fun d => (hok d).closing, fun d => (hok d).fresh⟩ h.freshTaker⟩
    intro k' hput
    by_cases hkk : k' = k
    · rw [hkk]
      exact update_self ..
    · exact (update_of_ne hkk ..).trans hput
  · exact ⟨loc, h.setConn (by rw [hk]; rfl) rfl hlt⟩

theorem handOff {t : Nat} (hk : s.conn k = .sending c)
    (ht : s.taker t = .waiting c) : ∃ loc', Inv (next s (.handOff k c t)) loc' := by
  have hlt : k < s.nextConn := h.conn_lt (by rw [hk]; rintro ⟨⟩)
  have htlt : t < s.nextTaker := h.taker_lt (by rw [ht]; rintro ⟨⟩)
  have hgive := h.located.give (h.loc_eq_none hk rfl) (by rw [ht]; rintro _ ⟨⟩)
  refine ⟨_, h.finish hlt rfl hgive rfl rfl (fun _ => update_self ..)
    ?_ h.ctls ?_⟩
  · intro k' hput
    by_cases hkk : k' = k
    · rw [hkk]
      exact update_self ..
    · exact (update_of_ne hkk ..).trans hput
  · exact (forall_update_iff s.taker (p := fun t p => s.nextTaker ≤ t → p = .absent)).2
      ⟨fun hle => absurd htlt (Nat.not_lt.2 hle), fun t' _ => h.freshTaker t'⟩

theorem discard (hk : s.conn k = .refused) : ∃ loc', Inv (next s (.discard k)) loc' :=
  ⟨_, h.finish (h.conn_lt (by rw [hk]; rintro ⟨⟩)) rfl
    (h.located.close (h.loc_eq_none hk rfl)) rfl rfl nofun (fun _ hput => hput) h.ctls
    h.freshTaker⟩

theorem replaced {old : Nat} (hold : (s.ctl old).worker = .absent → (s.ctl old).pool = []) :
    Inv (s.setCtl old (s.ctl old).replaced) loc := by
  unfold Control.replaced
  by_cases habsent : (s.ctl old).worker = .absent
  · rw [if_pos habsent]
    exact h.setFlags old s.ctlsByRunID (fun _ => hold habsent) (h.closing old)
  · rw [if_neg habsent]
    exact h.setFlags old s.ctlsByRunID (h.dead old) (h.closing old)

theorem replace {runID : String}
    (hold : ∀ old ∈ s.ctlsByRunID runID, (s.ctl old).worker = .absent → (s.ctl old).pool = []) :
    Inv (s.replace runID) loc := by
  unfold State.replace
  cases hmap : s.ctlsByRunID runID with
  | none => exact h
  | some old => exact h.replaced (hold old hmap)

end Inv

end Steps

theorem inv_next {s : State} {loc : Nat → Option Place} (h : Inv s loc) {a : Action}
    (hen : Enabled s a) (hok : Careful s a) : ∃ loc', Inv (next s a) loc' := by
  cases a with
  | login runID cap =>
    have hrep := h.replace hok
    refine ⟨loc, hrep.setCtl _ ?_ nofun ?_ (Nat.le_succ _) fun hle => ?_⟩
    · exact (hrep.freshCtl _ (Nat.le_refl _)).1.symm
    · rintro (⟨⟨⟩⟩ | ⟨⟨⟩⟩)
    · exact absurd hle (Nat.not_succ_le_self _)
  | loginFails c => exact ⟨loc, h.setFlags c _ (fun _ => hok) (h.closing c)⟩
  | start c =>
    refine ⟨loc, h.setFlags c s.ctlsByRunID nofun ?_⟩
    rintro (⟨⟨⟩⟩ | ⟨⟨⟩⟩)
  | closeChannel c => exact ⟨loc, h.setFlags c s.ctlsByRunID nofun fun _ => rfl⟩
  | drain c => exact h.drain c
  | drained c =>
    exact ⟨loc, h.setFlags c s.ctlsByRunID (fun _ => hen.2) fun _ => h.closing c (.inl hen.1)⟩
  | reap c => exact ⟨loc, h.setMap _⟩
  | arrive runID =>
    have habsent : s.conn s.nextConn = .absent := h.freshConn _ (Nat.le_refl _)
    have hnext : Inv { s with nextConn := s.nextConn + 1 } loc :=
      { h with freshConn := fun k hk => h.freshConn k (Nat.le_of_succ_le hk) }
    have hret : (s.conn s.nextConn).returned = false := by rw [habsent]; rfl
    exact ⟨loc, hnext.setConn hret rfl (Nat.lt_succ_self _)⟩
  | lookup k runID =>
    have hk : s.conn k = .arrived runID := hen
    have hlt : k < s.nextConn := h.conn_lt (by rw [hk]; rintro ⟨⟩)
    refine ⟨loc, h.setConn (by rw [hk]; rfl) ?_ hlt⟩
    cases s.ctlsByRunID runID <;> rfl
  | verify k c ok =>
    have hk : s.conn k = .found c := hen
    have hlt : k < s.nextConn := h.conn_lt (by rw [hk]; rintro ⟨⟩)
    refine ⟨loc, h.setConn (by rw [hk]; rfl) ?_ hlt⟩
    cases ok <;> rfl
  | register k c => exact h.register hen hok.1 hok.2
  | handOff k c t => exact h.handOff hen.1 hen.2.1
  | discard k => exact h.discard hen
  | take c sent =>
    have hnext : Inv { s with nextTaker := s.nextTaker + 1 } loc :=
      { h with freshTaker := fun t ht => h.freshTaker t (Nat.le_of_succ_le ht) }
    refine hnext.receive ?_ ?_ (Nat.lt_succ_self _)
    · intro k
      rw [h.freshTaker _ (Nat.le_refl _)]
      nofun
    · intro k
      split_ifs <;> rintro ⟨⟩
  | wake t c =>
    have ht : s.taker t = .waiting c := hen.1
    refine h.receive ?_ nofun (h.taker_lt (by rw [ht]; rintro ⟨⟩))
    rw [ht]
    nofun
  | timeout t c =>
    have ht : s.taker t = .waiting c := hen
    refine ⟨loc, h.setTaker ?_ nofun (h.taker_lt (by rw [ht]; rintro ⟨⟩))⟩
    rw [ht]
    nofun

theorem workConn_accounted (s : State) (hreach : Reach step Careful init s) : Accounted s := by
  have hinv : ∃ loc, Inv s loc := by
    refine invariant_of_next (P := fun s => ∃ loc, Inv s loc) ⟨_, inv_init⟩ ?_ hreach
    rintro u a ⟨loc, h⟩ hok hen
    exact inv_next h hen hok
  obtain ⟨loc, h⟩ := hinv
  exact h.accounted

def carefulRun : List Action :=
  [.login "r" 10, .start 0, .arrive "r", .lookup 0 "r", .verify 0 0 true, .register 0 0,
    .arrive "r", .lookup 1 "r", .verify 1 0 true, .register 1 0, .take 0 true, .closeChannel 0,
    .drain 0, .drained 0, .reap 0]

theorem workConn_accounted_carefulRun :
    let s := (run step Careful init carefulRun).getD init
    (∃ p, s.At 0 p ∧ s.Proper p ∧ ∀ q, s.At 0 q → q = p) ∧
      (∃ p, s.At 1 p ∧ s.Proper p ∧ ∀ q, s.At 1 q → q = p) ∧
      s.taker 0 = .got 0 ∧ s.closed 1 = true := by
  intro s
  have hreach : Reach step Careful init s := reach_getD_of_isSome (by decide +kernel)
  have hacc := workConn_accounted s hreach
  exact ⟨hacc.place 0 (by decide +kernel), hacc.place 1 (by decide +kernel), by decide +kernel,
    by decide +kernel⟩

/-! ## The counterexamples -/

def lateRun : List Action :=
  [.login "r" 10, .start 0, .arrive "r", .lookup 0 "r", .verify 0 0 true, .closeChannel 0,
    .register 0 0]

def failedRun : List Action :=
  [.login "r" 10, .arrive "r", .lookup 0 "r", .verify 0 0 true, .register 0 0, .loginFails 0]

theorem workConn_stranded :
    (∃ s, Reach step anyAction init s ∧ s.conn 0 = .registered ∧ s.put 0 = false ∧
      ¬ Accounted s) ∧
    ∃ s, Reach step anyAction init s ∧ s.conn 0 = .registered ∧ s.At 0 (.pool 0) ∧
      ¬ s.Proper (.pool 0) ∧ ¬ Accounted s := by
  constructor
  · refine ⟨(run step anyAction init lateRun).getD init, reach_getD_of_isSome (by decide +kernel),
      by decide +kernel, by decide +kernel, ?_⟩
    intro hacc
    have hput := hacc.put 0 (by decide +kernel)
    revert hput
    decide +kernel
  · have hat : ((run step anyAction init failedRun).getD init).At 0 (.pool 0) := by
      unfold State.At
      decide +kernel
    have hdead : ¬ ((run step anyAction init failedRun).getD init).Proper (.pool 0) := by
      unfold State.Proper
      decide +kernel
    refine ⟨_, reach_getD_of_isSome (by decide +kernel), by decide +kernel, hat, hdead, ?_⟩
    intro hacc
    obtain ⟨p, -, hproper, honly⟩ := hacc.place 0 (by decide +kernel)
    rw [← honly _ hat] at hproper
    exact hdead hproper

end FrpMeo.Server.WorkPool
