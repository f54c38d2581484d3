import FrpMeo.Lib.Transition
import Mathlib.Data.List.Nodup
import Mathlib.Data.List.Pairwise
import Mathlib.Data.List.TakeWhile

/-!
# The accept loops of proxies with and without a group

`startCommonTCPListenersHandler` (`server/proxy/proxy.go`) waits out a temporary error of `Accept`;
any other ends the loop. In a group the `worker` (`server/group/base.go`) accepts and sends each
connection to `acceptCh`, from which the members receive (`listener.go`); it returns at every error
(`group_serves_iff`). The model is of one listen cycle.
-/

namespace FrpMeo.Server.AcceptLoop

open Lib.Transition Function

abbrev Conn := Nat

inductive Result where
  | conn (c : Conn)
  | temporary
  | permanent
  deriving DecidableEq

namespace Result

def conn? : Result → Option Conn
  | .conn c => some c
  | .temporary | .permanent => none

@[simp]
def isConn : Result → Bool
  | .conn _ => true
  | .temporary | .permanent => false

end Result

def conns (rs : List Result) : List Conn := rs.filterMap Result.conn?

section Conns

variable (c : Conn) (rs : List Result)

@[simp] theorem conns_nil : conns [] = [] := rfl

@[simp] theorem conns_conn : conns (.conn c :: rs) = c :: conns rs := rfl

@[simp] theorem conns_temporary : conns (.temporary :: rs) = conns rs := rfl

@[simp] theorem conns_permanent : conns (.permanent :: rs) = conns rs := rfl

theorem conns_append (rs' : List Result) : conns (rs ++ rs') = conns rs ++ conns rs' :=
  List.filterMap_append

end Conns

/-! ## The loop of a proxy -/

structure Loop where
  running : Bool
  /-- In milliseconds. -/
  tempDelay : Nat
  /-- The connections given to `handleUserTCPConnection`. -/
  handled : List Conn
  deriving DecidableEq

def Loop.start : Loop := ⟨true, 0, []⟩

def Loop.accept (l : Loop) : Result → Loop
  | .conn c => { l with handled := l.handled ++ [c] }
  | .temporary => { l with tempDelay := min (if l.tempDelay = 0 then 5 else l.tempDelay * 2) 1000 }
  | .permanent => { l with running := false }

def Loop.serve (l : Loop) : List Result → Loop
  | [] => l
  | r :: rs => if l.running then (l.accept r).serve rs else l

/-! ## The group -/

inductive Worker where
  /-- In `realLn.Accept`. -/
  | accepting
  /-- In `acceptCh <- c`. -/
  | sending (c : Conn)
  | returned
  deriving DecidableEq

def Worker.held : Worker → List Conn
  | .sending c => [c]
  | .accepting | .returned => []

def Worker.after : Result → Worker
  | .conn c => .sending c
  | .temporary | .permanent => .returned

structure State where
  /-- What the real listener has returned to the worker. -/
  taken : List Result
  /-- What it has for the next calls. -/
  results : List Result
  worker : Worker
  /-- `acceptCh` is closed. -/
  acceptCh : Bool
  /-- `realLn` is closed. -/
  realLn : Bool
  lns : List Nat
  /-- Members are numbered as they come. -/
  joined : Nat
  /-- The loop of the proxy of a member, over the member's `Listener`. -/
  loop : Nat → Loop
  /-- The member's `closeCh` is closed. -/
  closeCh : Nat → Bool
  dropped : List Conn

def init (rs : List Result) : State where
  taken := []
  results := rs
  worker := .accepting
  acceptCh := false
  realLn := false
  lns := [0]
  joined := 1
  loop := fun _ => .start
  closeCh := fun _ => false
  dropped := []

inductive Action where
  | newListener
  /-- `realLn.Accept` returns to the worker. -/
  | take
  /-- It returns because the real listener is closed. -/
  | stop
  /-- A member receives what the worker sends. -/
  | deliver (i : Nat) (c : Conn)
  /-- The worker sends to the closed channel, and recovers. -/
  | drop (c : Conn)
  /-- `Accept` of a member returns `ErrListenerClosed`. -/
  | refuse (i : Nat)
  | close (i : Nat)
  /-- `closeListener` takes the member off the list. -/
  | remove (i : Nat)
  /-- The rest of `closeListener` for the last member. -/
  | closeAcceptCh
  | closeRealLn

def Enabled (s : State) : Action → Prop
  | .newListener => s.lns ≠ []
  | .take => s.worker = .accepting ∧ s.realLn = false ∧ s.results ≠ []
  | .stop => s.worker = .accepting ∧ s.realLn = true
  -- where several cases of the `select` of `Accept` are ready, any of them may be taken
  | .deliver i c =>
      i < s.joined ∧ (s.loop i).running = true ∧ s.worker = .sending c ∧ s.acceptCh = false
  | .drop c => s.worker = .sending c ∧ s.acceptCh = true
  | .refuse i => i < s.joined ∧ (s.loop i).running = true ∧ (s.closeCh i = true ∨ s.acceptCh = true)
  | .close i => i < s.joined ∧ s.closeCh i = false
  | .remove i => s.closeCh i = true ∧ i ∈ s.lns
  | .closeAcceptCh => s.lns = [] ∧ s.acceptCh = false
  | .closeRealLn => s.acceptCh = true ∧ s.realLn = false

instance (s : State) (a : Action) : Decidable (Enabled s a) := by
  cases a <;> dsimp only [Enabled] <;> infer_instance

def State.receive (s : State) (i : Nat) (r : Result) : State :=
  { s with loop := update s.loop i ((s.loop i).accept r) }

def next (s : State) : Action → State
  | .newListener => { s with lns := s.lns ++ [s.joined], joined := s.joined + 1 }
  | .take =>
      match s.results with
      | [] => s
      | r :: rs => { s with taken := s.taken ++ [r], results := rs, worker := .after r }
  | .stop => { s with worker := .returned }
  | .deliver i c => { s.receive i (.conn c) with worker := .accepting }
  | .drop c => { s with worker := .returned, dropped := s.dropped ++ [c] }
  | .refuse i => s.receive i .permanent
  | .close i => { s with closeCh := update s.closeCh i true }
  | .remove i => { s with lns := s.lns.erase i }
  | .closeAcceptCh => { s with acceptCh := true }
  | .closeRealLn => { s with realLn := true }

def step : State → Action → Option State := stepOf Enabled next

/-! ## What the worker has taken -/

structure Inv (rs : List Result) (s : State) : Prop where
  log : s.taken ++ s.results = rs
  chOpen : s.lns ≠ [] → s.acceptCh = false
  lnOpen : s.acceptCh = false → s.realLn = false
  members : ∀ i < s.joined, s.closeCh i = false → i ∈ s.lns
  serving : s.worker ≠ .returned → ∀ r ∈ s.taken, r.isConn = true
  /-- As long as the channel is open, only an error ends the worker. -/
  ended : s.worker = .returned → s.acceptCh = false →
    ∃ pre r, s.taken = pre ++ [r] ∧ r.isConn = false ∧ ∀ x ∈ pre, x.isConn = true
  /-- A member that is alone gets all. -/
  alone : s.joined ≤ 1 → s.acceptCh = false →
    (s.loop 0).handled ++ s.worker.held = conns s.taken

variable {rs : List Result} {s : State}

theorem inv_init : Inv rs (init rs) where
  log := rfl
  chOpen := fun _ => rfl
  lnOpen := fun _ => rfl
  members := by simp [init]
  serving := by simp [init]
  ended := by simp [init]
  alone := fun _ _ => rfl

theorem Inv.take (h : Inv rs s) (hworker : s.worker = .accepting) {r : Result} {rest : List Result}
    (hresults : s.results = r :: rest) :
    Inv rs { s with taken := s.taken ++ [r], results := rest, worker := .after r } :=
  { h with
    log := by
      rw [← h.log, hresults]
      simp
    serving := by
      intro hne x hx
      rcases List.mem_append.1 hx with hx | hx
      · exact h.serving (by simp [hworker]) x hx
      · obtain rfl := List.mem_singleton.1 hx
        cases x with
        | conn c => rfl
        | temporary | permanent => exact absurd rfl hne
    ended := by
      intro hret _
      refine ⟨s.taken, r, rfl, ?_, h.serving (by simp [hworker])⟩
      cases r with
      | conn c => cases hret
      | temporary | permanent => rfl
    alone := by
      intro hone hopen
      have hhandled := h.alone hone hopen
      rw [hworker] at hhandled
      rw [conns_append, ← hhandled]
      cases r with
      | conn c | temporary | permanent => simp [Worker.held, Worker.after] }

theorem Inv.deliver (h : Inv rs s) {i : Nat} {c : Conn} (hi : i < s.joined)
    (hworker : s.worker = .sending c) :
    Inv rs { s.receive i (.conn c) with worker := .accepting } :=
  { h with
    serving := fun _ => h.serving (by simp [hworker])
    ended := nofun
    alone := by
      intro hone hopen
      have hhandled := h.alone hone hopen
      obtain rfl : i = 0 := Nat.lt_one_iff.1 (Nat.lt_of_lt_of_le hi hone)
      rw [hworker] at hhandled
      simpa [State.receive, Loop.accept, Worker.held] using hhandled }

theorem Inv.refuse (h : Inv rs s) (i : Nat) : Inv rs (s.receive i .permanent) := by
  refine { h with alone := ?_ }
  intro hone hopen
  have hhandled := h.alone hone hopen
  by_cases hi : 0 = i
  · subst hi
    simpa [State.receive, Loop.accept] using hhandled
  · simpa [State.receive, update_of_ne hi] using hhandled

theorem inv_next (h : Inv rs s) {a : Action} (hen : Enabled s a) : Inv rs (next s a) := by
  cases a with
  | newListener =>
    refine { h with chOpen := fun _ => h.chOpen hen, members := ?_, alone := ?_ }
    · intro i hi hclose
      rcases Nat.lt_succ_iff_lt_or_eq.1 hi with hi | rfl
      · exact List.mem_append_left _ (h.members i hi hclose)
      · exact List.mem_append_right _ (List.mem_singleton_self _)
    · intro hone
      exact h.alone (Nat.le_of_succ_le hone)
  | take =>
    simp only [next]
    split
    · exact h
    · next r rest hresults => exact h.take hen.1 hresults
  | stop =>
    -- the real listener is closed after the channel
    have hclosed : s.acceptCh ≠ false := by
      intro hopen
      exact absurd (hen.2.symm.trans (h.lnOpen hopen)) (by decide)
    refine { h with serving := fun hne => absurd rfl hne, ended := ?_, alone := ?_ }
    · exact fun _ hopen => absurd hopen hclosed
    · exact fun _ hopen => absurd hopen hclosed
  | deliver i c => exact h.deliver hen.1 hen.2.2.1
  | drop c =>
    have hclosed : s.acceptCh ≠ false := by simp [hen.2]
    refine { h with serving := fun hne => absurd rfl hne, ended := ?_, alone := ?_ }
    · exact fun _ hopen => absurd hopen hclosed
    · exact fun _ hopen => absurd hopen hclosed
  | refuse i => exact h.refuse i
  | close i =>
    refine { h with members := ?_ }
    intro j hj hclose
    apply h.members j hj
    by_cases hij : j = i
    · simp [next, hij] at hclose
    · simpa [next, hij] using hclose
  | remove i =>
    refine { h with chOpen := ?_, members := ?_ }
    · intro hne
      exact h.chOpen (List.ne_nil_of_mem hen.2)
    · intro j hj hclose
      have hne : j ≠ i := by
        rintro rfl
        simp [next, hen.1] at hclose
      exact (List.mem_erase_of_ne hne).2 (h.members j hj hclose)
  | closeAcceptCh =>
    refine { h with chOpen := fun hne => absurd hen.1 hne, lnOpen := ?_, ended := ?_, alone := ?_ }
    · nofun
    · nofun
    · nofun
  | closeRealLn =>
    refine { h with lnOpen := ?_ }
    intro hopen
    exact absurd (hen.1.symm.trans hopen) (by decide)

theorem inv_of_reach (h : Reach step anyAction (init rs) s) : Inv rs s :=
  invariant_of_next inv_init (fun _ _ hinv _ => inv_next hinv) h

/-! ## The same results with and without a group -/

def beforeFailure (rs : List Result) : List Result := rs.takeWhile fun r => r ≠ .permanent

def Late (rs : List Result) : Prop := ∃ c, .conn c ∈ (beforeFailure rs).dropWhile Result.isConn

theorem handled_serve (rs : List Result) (l : Loop) (hl : l.running = true) :
    (l.serve rs).handled = l.handled ++ conns (beforeFailure rs) := by
  induction rs generalizing l with
  | nil => simp [Loop.serve, beforeFailure]
  | cons r rs ih =>
    rw [Loop.serve, if_pos hl]
    cases r with
    | conn c =>
      rw [ih (l.accept (.conn c)) hl]
      simp [Loop.accept, beforeFailure]
    | temporary =>
      rw [ih (l.accept .temporary) hl]
      simp [Loop.accept, beforeFailure]
    | permanent =>
      cases rs with
      | nil | cons => simp [Loop.serve, Loop.accept, beforeFailure]

theorem conns_eq_nil_iff : conns rs = [] ↔ ∀ c, .conn c ∉ rs := by
  rw [conns, List.filterMap_eq_nil_iff]
  constructor
  · intro h c hc
    cases h _ hc
  · intro h r hr
    cases r with
    | conn c => exact absurd hr (h c)
    | temporary | permanent => rfl

theorem handled_serve_iff (rs : List Result) :
    conns (rs.takeWhile Result.isConn) = (Loop.start.serve rs).handled ↔ ¬ Late rs := by
  have hfirst : (beforeFailure rs).takeWhile Result.isConn = rs.takeWhile Result.isConn := by
    rw [beforeFailure, List.takeWhile_takeWhile]
    congr 1
    funext r
    cases r with
    | conn | temporary | permanent => simp
  rw [handled_serve rs .start rfl, ← List.takeWhile_append_dropWhile
    (l := beforeFailure rs), hfirst, conns_append]
  simp [Loop.start, Late, conns_eq_nil_iff]

def Alone (s : State) : Prop := s.joined = 1 ∧ s.closeCh 0 = false

/-- The worker does nothing more: it has returned, or waits in `Accept` after all results. -/
def Settled (s : State) : Prop := s.worker = .returned ∨ s.worker = .accepting ∧ s.results = []

instance (s : State) : Decidable (Alone s) := inferInstanceAs (Decidable (_ ∧ _))

instance (s : State) : Decidable (Settled s) := inferInstanceAs (Decidable (_ ∨ _))

theorem Inv.handled_of_settled (h : Inv rs s) (halone : Alone s) (hset : Settled s) :
    (s.loop 0).handled = conns (rs.takeWhile Result.isConn) := by
  have hmem : 0 ∈ s.lns := h.members 0 (by simp [halone.1]) halone.2
  have hopen := h.chOpen (List.ne_nil_of_mem hmem)
  have hhandled := h.alone (Nat.le_of_eq halone.1) hopen
  rcases hset with hret | ⟨hacc, hnil⟩
  · obtain ⟨pre, r, htaken, hr, hpre⟩ := h.ended hret hopen
    rw [← h.log, htaken, List.append_assoc, List.takeWhile_append_of_pos hpre]
    rw [hret, htaken, conns_append] at hhandled
    cases r with
    | conn c => cases hr
    | temporary | permanent => simpa [conns_append, List.takeWhile_cons, Worker.held] using hhandled
  · rw [← h.log, hnil, List.takeWhile_append_of_pos (h.serving (by simp [hacc]))]
    simpa [hacc, Worker.held] using hhandled

/-- While a group has a member and its listener works, its worker serves iff it met no temporary
error; a lone member gets all connections iff none comes after one. -/
theorem group_serves_iff (rs : List Result) (s : State) (h : Reach step anyAction (init rs) s) :
    s.taken ++ s.results = rs ∧
      (s.lns ≠ [] → .permanent ∉ s.taken → (s.worker ≠ .returned ↔ .temporary ∉ s.taken)) ∧
      (Alone s → Settled s → ((s.loop 0).handled = (Loop.start.serve rs).handled ↔ ¬ Late rs)) := by
  have hinv := inv_of_reach h
  refine ⟨hinv.log, ?_, ?_⟩
  · intro hlns hperm
    constructor
    · intro hserving htemp
      cases hinv.serving hserving _ htemp
    · intro htemp hret
      obtain ⟨pre, r, htaken, hr, -⟩ := hinv.ended hret (hinv.chOpen hlns)
      have hmem : r ∈ s.taken := by simp [htaken]
      cases r with
      | conn c => cases hr
      | temporary => exact htemp hmem
      | permanent => exact hperm hmem
  · intro halone hset
    rw [hinv.handled_of_settled halone hset]
    exact handled_serve_iff rs

def quietRun : List Action := [.take, .deliver 0 1, .take, .deliver 0 2]

theorem group_serves_iff_quietRun :
    let s := (run step anyAction (init [.conn 1, .conn 2]) quietRun).getD (init [.conn 1, .conn 2])
    s.lns = [0] ∧ s.worker = .accepting ∧ (s.loop 0).handled = [1, 2] ∧
      ¬ Late [.conn 1, .conn 2] := by
  intro s
  have hreach : Reach step anyAction (init [.conn 1, .conn 2]) s :=
    reach_getD_of_isSome (by decide +kernel)
  have halone : Alone s := by decide +kernel
  have hset : Settled s := by decide +kernel
  have hhandled : (s.loop 0).handled = [1, 2] := by decide +kernel
  refine ⟨by decide +kernel, by decide +kernel, hhandled, ?_⟩
  exact ((group_serves_iff _ s hreach).2.2 halone hset).1 hhandled

/-- A temporary error, then a connection: the worker is gone, and nobody accepts the connection. -/
theorem worker_ends_at_temporary :
    let rs := [Result.temporary, .conn 7]
    let s := (run step anyAction (init rs) [.take]).getD (init rs)
    Reach step anyAction (init rs) s ∧ Alone s ∧ s.lns = [0] ∧ s.realLn = false ∧
      .permanent ∉ rs ∧ s.worker = .returned ∧ (s.loop 0).handled = [] ∧
      (Loop.start.serve rs).handled = [7] := by
  refine ⟨reach_getD_of_isSome (by decide +kernel), ?_⟩
  decide +kernel

/-! ## Every connection goes to one place -/

def returned (joined : Nat) (loop : Nat → Loop) : List Conn :=
  (List.range joined).flatMap fun i => (loop i).handled

theorem returned_update {loop : Nat → Loop} {joined i : Nat} (hi : i < joined) {c : Conn} :
    (returned joined (update loop i ((loop i).accept (.conn c)))).Perm
      (returned joined loop ++ [c]) := by
  induction joined with
  | zero => exact absurd hi (Nat.not_lt_zero i)
  | succ n ih =>
    simp only [returned, List.range_succ, List.flatMap_append, List.flatMap_singleton] at ih ⊢
    rcases Nat.lt_succ_iff_lt_or_eq.1 hi with hlt | rfl
    · rw [update_of_ne (Nat.ne_of_gt hlt)]
      refine ((ih hlt).append_right _).trans ?_
      rw [List.append_assoc, List.append_assoc]
      exact List.perm_append_comm.append_left _
    · -- the members before the last one are as they were
      rw [List.flatMap_def, List.flatMap_def, List.map_congr_left fun j hj => by
        rw [update_of_ne (Nat.ne_of_lt (List.mem_range.1 hj))]]
      simp [Loop.accept]

/-- What the worker has accepted is with the members, closed, or in its hands. -/
structure Parted (s : State) : Prop where
  fresh : ∀ i, s.joined ≤ i → (s.loop i).handled = []
  parts : (conns s.taken).Perm (returned s.joined s.loop ++ (s.dropped ++ s.worker.held))

theorem Parted.deliver (h : Parted s) {i : Nat} {c : Conn} (hi : i < s.joined)
    (hworker : s.worker = .sending c) :
    Parted { s.receive i (.conn c) with worker := .accepting } where
  fresh := by
    intro j hj
    have hne : j ≠ i := Nat.ne_of_gt (Nat.lt_of_lt_of_le hi hj)
    simpa [State.receive, update_of_ne hne] using h.fresh j hj
  parts := by
    have hparts := h.parts
    rw [hworker] at hparts
    refine hparts.trans ((List.perm_append_comm.append_left _).trans ?_)
    simpa [Worker.held, State.receive] using ((returned_update hi).append_right s.dropped).symm

theorem Parted.refuse (h : Parted s) (i : Nat) : Parted (s.receive i .permanent) := by
  have hsame : ∀ j, ((s.receive i .permanent).loop j).handled = (s.loop j).handled := by
    intro j
    by_cases hj : j = i
    · simp [hj, State.receive, Loop.accept]
    · simp [State.receive, update_of_ne hj]
  refine ⟨fun j hj => (hsame j).trans (h.fresh j hj), ?_⟩
  simp only [returned, hsame]
  exact h.parts

theorem parted_next (h : Parted s) {a : Action} (hen : Enabled s a) : Parted (next s a) := by
  cases a with
  | newListener =>
    refine ⟨fun i hi => h.fresh i (Nat.le_of_succ_le hi), ?_⟩
    simpa [next, returned, List.range_succ, h.fresh] using h.parts
  | take =>
    simp only [next]
    split
    · exact h
    · next r rest _ =>
      refine ⟨h.fresh, ?_⟩
      have hparts := h.parts.append_right (conns [r])
      rw [hen.1] at hparts
      cases r with
      | conn | temporary | permanent =>
        simpa [conns_append, Worker.held, Worker.after] using hparts
  | stop | drop =>
    have hparts := h.parts
    rw [hen.1] at hparts
    exact ⟨h.fresh, by simpa [next, Worker.held] using hparts⟩
  | deliver i c => exact h.deliver hen.1 hen.2.2.1
  | refuse i => exact h.refuse i
  | close | remove | closeAcceptCh | closeRealLn => exact ⟨h.fresh, h.parts⟩

/-- Each distinct connection accepted is in the worker's hands, closed by it, or returned by
`Accept` of exactly one member, once. -/
theorem accepted_once (rs : List Result) (hrs : (conns rs).Nodup) (s : State)
    (h : Reach step anyAction (init rs) s) : (∀ c ∈ conns s.taken, s.worker = .sending c ∨
      (c ∈ s.dropped ∧ ∀ i, c ∉ (s.loop i).handled) ∨
      (c ∉ s.dropped ∧ ∃! i, c ∈ (s.loop i).handled)) ∧ ∀ i, (s.loop i).handled.Nodup := by
  have hparted : Parted s := by
    refine invariant_of_next (s := init rs) ?_ (fun _ _ hp _ => parted_next hp) h
    exact ⟨fun _ _ => rfl, by simp [init, returned, Loop.start, Worker.held]⟩
  have htaken : (conns s.taken).Nodup := by
    rw [← (inv_of_reach h).log, conns_append] at hrs
    exact (List.nodup_append.1 hrs).1
  obtain ⟨hret, -, hapart⟩ := List.nodup_append.1 (hparted.parts.nodup_iff.1 htaken)
  obtain ⟨honce, hdisjoint⟩ := List.nodup_flatMap.1 hret
  have hmem : ∀ {i c}, c ∈ (s.loop i).handled →
      i ∈ List.range s.joined ∧ c ∈ returned s.joined s.loop := by
    intro i c hc
    have hi : i ∈ List.range s.joined := by
      by_contra hle
      simp [hparted.fresh i (by simpa using hle)] at hc
    exact ⟨hi, List.mem_flatMap.2 ⟨i, hi, hc⟩⟩
  refine ⟨fun c hc => ?_, fun i => ?_⟩
  · rcases List.mem_append.1 (hparted.parts.mem_iff.1 hc) with hr | hrest
    · refine .inr (.inr ⟨fun hd => hapart c hr c (List.mem_append_left _ hd) rfl, ?_⟩)
      obtain ⟨i, -, hi⟩ := List.mem_flatMap.1 hr
      refine ⟨i, hi, fun j hj => ?_⟩
      by_contra hne
      have hsymm : Std.Symm (onFun List.Disjoint fun i => (s.loop i).handled) :=
        ⟨fun _ _ hij _ hi hj => hij hj hi⟩
      exact hdisjoint.forall (hmem hj).1 (hmem hi).1 hne hj hi
    · rcases List.mem_append.1 hrest with hd | hheld
      · exact .inr (.inl ⟨hd, fun i hi => hapart c (hmem hi).2 c hrest rfl⟩)
      · left
        cases hw : s.worker with
        | sending c' => simp_all [Worker.held]
        | accepting | returned => simp [hw, Worker.held] at hheld
  · by_cases hi : i ∈ List.range s.joined
    · exact honce i hi
    · simp [hparted.fresh i (by simpa using hi)]

def leavingRun : List Action :=
  [.take, .deliver 0 1, .newListener, .take, .deliver 1 2, .take, .close 0, .remove 0, .close 1,
    .remove 1, .closeAcceptCh, .drop 3, .closeRealLn]

theorem accepted_once_leavingRun :
    let rs := [Result.conn 1, .conn 2, .conn 3]
    let s := (run step anyAction (init rs) leavingRun).getD (init rs)
    s.worker = .returned ∧ s.dropped = [3] ∧ ∃! i, 2 ∈ (s.loop i).handled := by
  intro rs s
  have hreach : Reach step anyAction (init rs) s := reach_getD_of_isSome (by decide +kernel)
  refine ⟨by decide +kernel, by decide +kernel, ?_⟩
  rcases (accepted_once rs (by decide) s hreach).1 2 (by decide +kernel) with hw | hd | hr
  · exact absurd hw (by decide +kernel)
  · exact absurd hd.1 (by decide +kernel)
  · exact hr.2

end FrpMeo.Server.AcceptLoop
