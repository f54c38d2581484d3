import FrpMeo.Server.Ports

/-!
# Who takes and gives back ports

How proxies and groups take public ports from the two managers and give them back
(`server/proxy/tcp.go`, `udp.go`, `tcpudp.go`, `server/group/tcp.go`, `minecraft.go`). A release is
by number; a proxy that carries UDP is closed twice, by its control and by its forward loop, and
each `Close` releases the port.
-/

namespace FrpMeo.Server.PortUse

open Lib.Transition Server.Ports Function

/-! ## Users of ports -/

inductive Proto where
  | tcp
  | udp
  deriving DecidableEq

/-- A proxy, or a group that shares a port: a `TCPGroup` or the muxer of a `minecraftPortMux`. -/
inductive Kind where
  | tcp
  | tcpGroup
  | mc
  | udp
  | pe
  | tcpUdp
  deriving DecidableEq

/-- The managers that `Run` acquires from, in order; `Close` releases in the same order. -/
def Kind.protos : Kind → List Proto
  | .tcp | .tcpGroup | .mc => [.tcp]
  | .udp | .pe => [.udp]
  | .tcpUdp => [.tcp, .udp]

/-- The forward loop calls `Close` when it ends, besides the control. -/
def Kind.closesTwice : Kind → Bool
  | .udp | .pe | .tcpUdp => true
  | .tcp | .tcpGroup | .mc => false

/-- Other proxies join a group, and the last one that leaves closes it. -/
def Kind.shared : Kind → Bool
  | .tcpGroup | .mc => true
  | .tcp | .udp | .pe | .tcpUdp => false

inductive Phase where
  /-- In `Run`, with the managers still to acquire from and those acquired from, last first. -/
  | acquiring (todo done : List Proto)
  /-- `Run` has failed; these releases are to come. -/
  | unwinding (todo : List Proto)
  | serving (members : Nat)
  /-- In the first `Close`, or after it; these releases are to come. -/
  | closing (todo : List Proto)
  /-- In the second `Close`, or after it. -/
  | closingAgain (todo : List Proto)
  deriving DecidableEq

structure User where
  kind : Kind
  name : String
  remotePort : Int
  realPort : Int
  phase : Phase
  deriving DecidableEq

/-- The port asked for: the configured one of the first manager, and the same number of the next. -/
def User.request (u : User) (done : List Proto) : Int :=
  if done = [] then u.remotePort else u.realPort

def User.acquiring? (u : User) : Option (Proto × Int) :=
  match u.phase with
  | .acquiring (M :: _) done => some (M, u.request done)
  | _ => none

def User.releasing? (u : User) : Option Proto :=
  match u.phase with
  | .unwinding (M :: _) => some M
  | .closing (M :: _) => some M
  | .closingAgain (M :: _) => some M
  | _ => none

def User.Holds (u : User) (M : Proto) : Prop :=
  match u.phase with
  | .acquiring _ done => M ∈ done
  | .unwinding todo => M ∈ todo
  | .serving _ => M ∈ u.kind.protos
  | .closing todo => M ∈ todo
  | .closingAgain _ => False

/-- The user has released the port and will release it once more. -/
def User.Lingers (u : User) (M : Proto) : Prop :=
  match u.phase with
  | .closing todo => u.kind.closesTwice = true ∧ M ∈ u.kind.protos ∧ M ∉ todo
  | .closingAgain todo => M ∈ todo
  | _ => False

instance (u : User) (M : Proto) : Decidable (u.Lingers M) :=
  match u with
  | { phase := .closing todo, kind, .. } =>
      inferInstanceAs (Decidable (kind.closesTwice = true ∧ M ∈ kind.protos ∧ M ∉ todo))
  | { phase := .closingAgain todo, .. } => inferInstanceAs (Decidable (M ∈ todo))
  | { phase := .acquiring _ _, .. } | { phase := .unwinding _, .. } | { phase := .serving _, .. } =>
      .isFalse id

/-! ## Steps -/

structure State where
  ledgers : Proto → Ledger
  users : List User

def init (allowPorts : List PortsRange) : State := ⟨fun _ => Ledger.new allowPorts, []⟩

inductive Action where
  /-- A proxy is registered, or a group gets its first member. -/
  | start (kind : Kind) (name : String) (remotePort : Int)
  | acquire (i : Nat) (e : Moment)
  | listen (i : Nat) (ok : Bool)
  | join (i : Nat)
  | leave (i : Nat)
  /-- `Close` is called; of a group, by the last member. -/
  | close (i : Nat)
  | release (i : Nat) (now : Int)
  | clean (M : Proto) (now : Int)

def State.setUser (s : State) (i : Nat) (u : User) : State := { s with users := s.users.set i u }

def State.setLedger (s : State) (M : Proto) (l : Ledger) : State :=
  { s with ledgers := update s.ledgers M l }

def State.acquire (s : State) (i : Nat) (u : User) (M : Proto) (todo done : List Proto)
    (e : Moment) : State :=
  let (l, result) := (s.ledgers M).acquire i u.name (u.request done) e
  (s.setLedger M l).setUser i <| match result with
    | .ok p => { u with
        realPort := if done = [] then p else u.realPort
        phase := .acquiring todo (M :: done) }
    | .error _ => { u with phase := .unwinding done }

def State.release (s : State) (i : Nat) (u : User) (M : Proto) (phase : Phase) (now : Int) :
    State :=
  (s.setLedger M ((s.ledgers M).release u.realPort now)).setUser i { u with phase := phase }

/-- A user goes on from its phase. The server side refuses an `mc` proxy without a port. -/
def step (s : State) : Action → Option State
  | .start kind name remotePort =>
      if kind = .mc ∧ remotePort = 0 then none
      else some
        { s with users := s.users ++ [⟨kind, name, remotePort, 0, .acquiring kind.protos []⟩] }
  | .acquire i e => s.users[i]?.bind fun u =>
      match u.phase with
      | .acquiring (M :: todo) done =>
          if (s.ledgers M).manager.Ordered e then some (s.acquire i u M todo done e) else none
      | _ => none
  | .listen i ok => s.users[i]?.bind fun u =>
      match u.phase with
      | .acquiring [] done =>
          some (s.setUser i { u with phase := if ok then .serving 1 else .unwinding done })
      | _ => none
  | .join i => s.users[i]?.bind fun u =>
      match u.phase with
      | .serving members =>
          if u.kind.shared then some (s.setUser i { u with phase := .serving (members + 1) })
          else none
      | _ => none
  | .leave i => s.users[i]?.bind fun u =>
      match u.phase with
      | .serving (members + 2) => some (s.setUser i { u with phase := .serving (members + 1) })
      | _ => none
  | .close i => s.users[i]?.bind fun u =>
      match u.phase with
      | .serving 1 => some (s.setUser i { u with phase := .closing u.kind.protos })
      -- the lock of the proxy keeps the second `Close` out until the first is through
      | .closing [] =>
          if u.kind.closesTwice then
            some (s.setUser i { u with phase := .closingAgain u.kind.protos })
          else none
      | _ => none
  | .release i now => s.users[i]?.bind fun u =>
      match u.phase with
      | .unwinding (M :: todo) => some (s.release i u M (.unwinding todo) now)
      | .closing (M :: todo) => some (s.release i u M (.closing todo) now)
      | .closingAgain (M :: todo) => some (s.release i u M (.closingAgain todo) now)
      | _ => none
  | .clean M now => some (s.setLedger M ((s.ledgers M).cleanReservedPortsOnce now))

inductive Trans (s : State) : Action → State → Prop where
  | start (kind : Kind) (name : String) (remotePort : Int) (hport : kind = .mc → remotePort ≠ 0) :
      Trans s (.start kind name remotePort)
        { s with users := s.users ++ [⟨kind, name, remotePort, 0, .acquiring kind.protos []⟩] }
  | acquire (i : Nat) (e : Moment) (u : User) (M : Proto) (todo done : List Proto)
      (hu : s.users[i]? = some u) (hphase : u.phase = .acquiring (M :: todo) done)
      (horder : (s.ledgers M).manager.Ordered e) :
      Trans s (.acquire i e) (s.acquire i u M todo done e)
  | opened (i : Nat) (u : User) (done : List Proto) (hu : s.users[i]? = some u)
      (hphase : u.phase = .acquiring [] done) :
      Trans s (.listen i true) (s.setUser i { u with phase := .serving 1 })
  | notOpened (i : Nat) (u : User) (done : List Proto) (hu : s.users[i]? = some u)
      (hphase : u.phase = .acquiring [] done) :
      Trans s (.listen i false) (s.setUser i { u with phase := .unwinding done })
  | join (i : Nat) (u : User) (members : Nat) (hu : s.users[i]? = some u)
      (hphase : u.phase = .serving members) (hshared : u.kind.shared = true) :
      Trans s (.join i) (s.setUser i { u with phase := .serving (members + 1) })
  | leave (i : Nat) (u : User) (members : Nat) (hu : s.users[i]? = some u)
      (hphase : u.phase = .serving (members + 2)) :
      Trans s (.leave i) (s.setUser i { u with phase := .serving (members + 1) })
  | close (i : Nat) (u : User) (hu : s.users[i]? = some u) (hphase : u.phase = .serving 1) :
      Trans s (.close i) (s.setUser i { u with phase := .closing u.kind.protos })
  | closeAgain (i : Nat) (u : User) (hu : s.users[i]? = some u) (hphase : u.phase = .closing [])
      (htwice : u.kind.closesTwice = true) :
      Trans s (.close i) (s.setUser i { u with phase := .closingAgain u.kind.protos })
  | unwind (i : Nat) (now : Int) (u : User) (M : Proto) (todo : List Proto)
      (hu : s.users[i]? = some u) (hphase : u.phase = .unwinding (M :: todo)) :
      Trans s (.release i now) (s.release i u M (.unwinding todo) now)
  | release (i : Nat) (now : Int) (u : User) (M : Proto) (todo : List Proto)
      (hu : s.users[i]? = some u) (hphase : u.phase = .closing (M :: todo)) :
      Trans s (.release i now) (s.release i u M (.closing todo) now)
  | releaseAgain (i : Nat) (now : Int) (u : User) (M : Proto) (todo : List Proto)
      (hu : s.users[i]? = some u) (hphase : u.phase = .closingAgain (M :: todo)) :
      Trans s (.release i now) (s.release i u M (.closingAgain todo) now)
  | clean (M : Proto) (now : Int) :
      Trans s (.clean M now)
        (s.setLedger M ((s.ledgers M).cleanReservedPortsOnce now))

variable {s : State} {u : User} {i : Nat} {M : Proto} {e : Moment}

theorem trans_of_step {t : State} {a : Action} (h : step s a = some t) : Trans s a t := by
  cases a with
  | start kind name remotePort =>
    by_cases hmc : kind = .mc ∧ remotePort = 0
    · simp [step, hmc] at h
    · simp only [step, hmc, if_false, Option.some.injEq] at h
      subst h
      exact .start kind name remotePort fun hk h0 => hmc ⟨hk, h0⟩
  | acquire i e =>
    obtain ⟨u, hu, h⟩ := Option.bind_eq_some_iff.1 h
    split at h
    · next M todo done hphase =>
      split_ifs at h with horder
      cases h
      exact .acquire i e u M todo done hu hphase horder
    · cases h
  | listen i ok =>
    obtain ⟨u, hu, h⟩ := Option.bind_eq_some_iff.1 h
    split at h
    · next done hphase =>
      cases h
      cases ok with
      | true => exact .opened i u done hu hphase
      | false => exact .notOpened i u done hu hphase
    · cases h
  | join i =>
    obtain ⟨u, hu, h⟩ := Option.bind_eq_some_iff.1 h
    split at h
    · next members hphase =>
      split_ifs at h with hshared
      cases h
      exact .join i u members hu hphase hshared
    · cases h
  | leave i =>
    obtain ⟨u, hu, h⟩ := Option.bind_eq_some_iff.1 h
    split at h
    · next members hphase =>
      cases h
      exact .leave i u members hu hphase
    · cases h
  | close i =>
    obtain ⟨u, hu, h⟩ := Option.bind_eq_some_iff.1 h
    split at h
    · next hphase =>
      cases h
      exact .close i u hu hphase
    · next hphase =>
      split_ifs at h with htwice
      cases h
      exact .closeAgain i u hu hphase htwice
    · cases h
  | release i now =>
    obtain ⟨u, hu, h⟩ := Option.bind_eq_some_iff.1 h
    split at h
    · next M todo hphase =>
      cases h
      exact .unwind i now u M todo hu hphase
    · next M todo hphase =>
      cases h
      exact .release i now u M todo hu hphase
    · next M todo hphase =>
      cases h
      exact .releaseAgain i now u M todo hu hphase
    · cases h
  | clean M now =>
    cases h
    exact .clean M now

/-! ## Releases -/

/-- The next release of every user is of a port that nobody else holds. -/
def OwnReleases (s : State) : Prop :=
  ∀ i u M, s.users[i]? = some u → u.releasing? = some M →
    ∀ j ∈ (s.ledgers M).holders u.realPort, j = i

/-- The system sees used ports, and no port is granted that a user is still to release. -/
def Careful (s : State) : Action → Prop
  | .acquire i e => ∀ u ∈ s.users[i]?, ∀ call ∈ u.acquiring?,
      SeesUsed (s.ledgers call.1).manager u.name call.2 e ∧
        ∀ p ∈ ((s.ledgers call.1).manager.acquire u.name call.2 e).2.toOption,
          ∀ v ∈ s.users, v.Lingers call.1 → v.realPort ≠ p
  | _ => True

/-- The managers that a user still acquires from or releases to are different ones. -/
def User.WF (u : User) : Prop :=
  match u.phase with
  | .acquiring todo done => (todo ++ done).Nodup ∧ (∀ M, M ∈ u.kind.protos ↔ M ∈ todo ∨ M ∈ done) ∧
      (done ≠ [] → u.realPort ≠ 0)
  | .unwinding todo => todo.Nodup
  | .serving _ => True
  | .closing todo => todo.Nodup
  | .closingAgain todo => todo.Nodup

theorem Kind.nodup_protos (k : Kind) : k.protos.Nodup := by cases k <;> decide

/-- A port that the user holds has it as its only holder; one that it lingers on has none. -/
structure User.Sits (u : User) (i : Nat) (M : Proto) (holders : Int → List Nat) : Prop where
  holds : u.Holds M → holders u.realPort = [i]
  lingers : u.Lingers M → holders u.realPort = []

theorem User.Sits.phase {holders : Int → List Nat} (h : u.Sits i M holders) {phase : Phase}
    (hholds : User.Holds { u with phase := phase } M → u.Holds M)
    (hlingers : User.Lingers { u with phase := phase } M → u.Lingers M) :
    User.Sits { u with phase := phase } i M holders :=
  ⟨fun hh => h.holds (hholds hh), fun hh => h.lingers (hlingers hh)⟩

variable {j : Nat} {p : Int} {v : User}

theorem User.Sits.grant {holders : Int → List Nat}
    (h : v.Sits j M holders) (hnone : holders p = []) (hlingers : v.Lingers M → v.realPort ≠ p)
    (i : Nat) : v.Sits j M (update holders p [i]) := by
  constructor
  · intro hh
    have hdiff : v.realPort ≠ p := by
      intro he
      have hown := h.holds hh
      rw [he, hnone] at hown
      cases hown
    rw [update_of_ne hdiff]
    exact h.holds hh
  · intro hh
    rw [update_of_ne (hlingers hh)]
    exact h.lingers hh

structure Inv (s : State) : Prop where
  ledger : ∀ M, Ports.Inv (s.ledgers M)
  noZero : ∀ M, (s.ledgers M).manager.NoZero
  wf : ∀ u ∈ s.users, u.WF
  sits : ∀ (i : Nat) (u : User) (M : Proto), s.users[i]? = some u →
    u.Sits i M (s.ledgers M).holders

theorem inv_init {allowPorts : List PortsRange} (h0 : (0 : Int) ∉ allowed allowPorts) :
    Inv (init allowPorts) where
  ledger := fun _ => inv_new allowPorts
  noZero := fun _ => noZero_newManager h0
  wf := by
    intro u hu
    cases hu
  sits := by
    intro i u M hu
    cases hu

theorem User.holds_or_lingers (h : u.releasing? = some M) : u.Holds M ∨ u.Lingers M := by
  unfold User.releasing? at h
  split at h
  · next N todo hphase =>
    cases h
    exact .inl (by simp [User.Holds, hphase])
  · next N todo hphase =>
    cases h
    exact .inl (by simp [User.Holds, hphase])
  · next N todo hphase =>
    cases h
    exact .inr (by simp [User.Lingers, hphase])
  · cases h

theorem Inv.ownReleases (hi : Inv s) : OwnReleases s := by
  intro i u M hu hrel j hj
  rcases User.holds_or_lingers hrel with hholds | hlingers
  · rw [(hi.sits i u M hu).holds hholds] at hj
    exact List.mem_singleton.1 hj
  · rw [(hi.sits i u M hu).lingers hlingers] at hj
    cases hj

/-! ### Steps of a user alone -/

theorem getElem?_setUser (h : (s.setUser i u).users[j]? = some v) :
    j = i ∧ v = u ∨ j ≠ i ∧ s.users[j]? = some v := by
  have hset : (s.users.set i u)[j]? = some v := h
  by_cases hj : j = i
  · subst hj
    simp only [List.getElem?_set, if_true] at hset
    split_ifs at hset
    cases hset
    exact .inl ⟨rfl, rfl⟩
  · rw [List.getElem?_set_ne (Ne.symm hj)] at hset
    exact .inr ⟨hj, hset⟩

theorem Inv.setUser (hi : Inv s) (hwf : u.WF) (hself : ∀ M, u.Sits i M (s.ledgers M).holders) :
    Inv (s.setUser i u) :=
  { hi with
    wf := by
      intro v hv
      rcases List.mem_or_eq_of_mem_set hv with hold | rfl
      · exact hi.wf v hold
      · exact hwf
    sits := by
      intro j v M hv
      rcases getElem?_setUser hv with ⟨rfl, rfl⟩ | ⟨-, hv⟩
      · exact hself M
      · exact hi.sits j v M hv }

theorem Inv.start (hi : Inv s) (kind : Kind) (name : String) (remotePort : Int) : Inv { s with
      users := s.users ++ [⟨kind, name, remotePort, 0, .acquiring kind.protos []⟩] } where
  ledger := hi.ledger
  noZero := hi.noZero
  wf := by
    intro v hv
    rcases List.mem_append.1 hv with hold | hnew
    · exact hi.wf v hold
    · rw [List.mem_singleton] at hnew
      subst hnew
      simpa [User.WF] using kind.nodup_protos
  sits := by
    intro j v M hv
    rw [List.getElem?_append] at hv
    split_ifs at hv with hlt
    · exact hi.sits j v M hv
    · have hnew := List.mem_singleton.1 (List.mem_of_getElem? hv)
      subst hnew
      exact ⟨fun h => absurd h List.not_mem_nil, fun h => absurd h id⟩

/-! ### Calls of a manager -/

theorem Inv.call (hi : Inv s) {l : Ledger} (hl : Ports.Inv l) (hzero : l.manager.NoZero)
    (hwf : u.WF) (hothers : ∀ j v, j ≠ i → s.users[j]? = some v → v.Sits j M l.holders)
    (hself : u.Sits i M l.holders) (hrest : ∀ N, N ≠ M → u.Sits i N (s.ledgers N).holders) :
    Inv ((s.setLedger M l).setUser i u) := by
  have hledger : ∀ N, ((s.setLedger M l).setUser i u).ledgers N =
      if N = M then l else s.ledgers N := fun N => update_apply s.ledgers M l N
  refine ⟨?_, ?_, ?_, ?_⟩
  · intro N
    rw [hledger]
    split_ifs
    · exact hl
    · exact hi.ledger N
  · intro N
    rw [hledger]
    split_ifs
    · exact hzero
    · exact hi.noZero N
  · intro v hv
    rcases List.mem_or_eq_of_mem_set hv with hold | rfl
    · exact hi.wf v hold
    · exact hwf
  · intro j v N hv
    rw [hledger]
    rcases getElem?_setUser hv with ⟨rfl, rfl⟩ | ⟨hj, hv⟩
    · split_ifs with hN
      · exact hN ▸ hself
      · exact hrest N hN
    · split_ifs with hN
      · exact hN ▸ hothers j v hj hv
      · exact hi.sits j v N hv

theorem Inv.release (hi : Inv s) {phase : Phase} (now : Int) (hu : s.users[i]? = some u)
    (hrel : u.releasing? = some M) (hwf : User.WF { u with phase := phase })
    (hnot : ¬ User.Holds { u with phase := phase } M)
    (hrest : ∀ N, N ≠ M → User.Sits { u with phase := phase } i N (s.ledgers N).holders) :
    Inv (s.release i u M phase now) := by
  have hholders := (hi.ledger M).holders_release u.realPort now
  have hgone : ((s.ledgers M).release u.realPort now).holders u.realPort = [] := by
    rw [hholders, if_pos rfl]
  apply hi.call ((hi.ledger M).release u.realPort now) ((hi.noZero M).release u.realPort now) hwf
  · intro j v hj hv
    have hsits := hi.sits j v M hv
    constructor
    · intro hh
      have hne : v.realPort ≠ u.realPort := by
        intro he
        have hown := hi.ownReleases i u M hu hrel j (by rw [← he, hsits.holds hh]; simp)
        exact hj hown
      rw [hholders, if_neg hne]
      exact hsits.holds hh
    · intro hl
      rw [hholders]
      split_ifs
      · rfl
      · exact hsits.lingers hl
  · exact ⟨fun h => absurd h hnot, fun _ => hgone⟩
  · exact hrest

theorem State.acquire_of_ok {todo done : List Proto}
    (h : ((s.ledgers M).manager.acquire u.name (u.request done) e).2 = .ok p) :
    s.acquire i u M todo done e =
      (s.setLedger M ((s.ledgers M).acquire i u.name (u.request done) e).1).setUser i { u with
          realPort := if done = [] then p else u.realPort
          phase := .acquiring todo (M :: done) } := by
  unfold State.acquire
  rw [Ledger.acquire_of_ok h]

theorem State.acquire_of_error {todo done : List Proto} {err : AcquireError}
    (h : ((s.ledgers M).manager.acquire u.name (u.request done) e).2 = .error err) :
    s.acquire i u M todo done e =
      (s.setLedger M ((s.ledgers M).acquire i u.name (u.request done) e).1).setUser i
        { u with phase := .unwinding done } := by
  unfold State.acquire
  rw [Ledger.acquire_of_error h]

theorem Inv.acquire (hi : Inv s) {todo done : List Proto} (hu : s.users[i]? = some u)
    (hphase : u.phase = .acquiring (M :: todo) done) (horder : (s.ledgers M).manager.Ordered e)
    (hok : Careful s (.acquire i e)) : Inv (s.acquire i u M todo done e) := by
  have hcall : u.acquiring? = some (M, u.request done) := by simp [User.acquiring?, hphase]
  obtain ⟨hsees, hgrant⟩ := hok u hu (M, u.request done) hcall
  have hl : Ports.Inv ((s.ledgers M).acquire i u.name (u.request done) e).1 :=
    (hi.ledger M).acquire horder hsees
  obtain ⟨hzero, hne⟩ := (hi.noZero M).acquire horder u.name (u.request done)
  have hwf := hi.wf u (List.mem_of_getElem? hu)
  simp only [User.WF, hphase] at hwf
  obtain ⟨hnodup, hprotos, hreal⟩ := hwf
  have hheld : ∀ N, N ∈ done → (s.ledgers N).holders u.realPort = [i] := by
    intro N hN
    exact (hi.sits i u N hu).holds (by simpa [User.Holds, hphase] using hN)
  have hmanager : ((s.ledgers M).acquire i u.name (u.request done) e).1.manager =
      ((s.ledgers M).manager.acquire u.name (u.request done) e).1 := rfl
  rw [← hmanager] at hzero
  cases hresult : ((s.ledgers M).manager.acquire u.name (u.request done) e).2 with
  | error err =>
    have hholders : ((s.ledgers M).acquire i u.name (u.request done) e).1.holders =
        (s.ledgers M).holders := by rw [Ledger.acquire_of_error hresult]
    rw [State.acquire_of_error hresult]
    refine hi.call hl hzero hnodup.of_append_right ?_ ?_ ?_
    · intro j v _ hv
      rw [hholders]
      exact hi.sits j v M hv
    · rw [hholders]
      exact ⟨hheld M, fun h => absurd h id⟩
    · intro N _
      exact ⟨hheld N, fun h => absurd h id⟩
  | ok p =>
    have hnone : (s.ledgers M).holders p = [] :=
      (hi.ledger M).used p (usedPorts_of_granted (hi.ledger M) horder hsees hresult)
    have hholders : ((s.ledgers M).acquire i u.name (u.request done) e).1.holders =
        update (s.ledgers M).holders p [i] := by
      rw [Ledger.acquire_of_ok hresult, hnone]
    -- the second manager is asked for the port that the first has granted
    have hp : (if done = [] then p else u.realPort) = p := by
      split_ifs with hd
      · rfl
      · have hrequest : u.request done = u.realPort := if_neg hd
        rw [hrequest] at hresult
        exact (granted_eq horder (hreal hd) hresult).symm
    rw [State.acquire_of_ok hresult, hp]
    refine hi.call hl hzero ?_ ?_ ?_ ?_
    · refine ⟨?_, ?_, fun _ => hne p hresult⟩
      · have hperm : (todo ++ M :: done).Perm (M :: todo ++ done) := List.perm_middle
        exact hperm.nodup_iff.2 hnodup
      · intro N
        rw [hprotos N]
        simp only [List.mem_cons]
        tauto
    · intro j v _ hv
      rw [hholders]
      apply (hi.sits j v M hv).grant hnone
      exact hgrant p (by rw [hresult]; rfl) v (List.mem_of_getElem? hv)
    · rw [hholders]
      exact ⟨fun _ => update_self .., fun h => absurd h id⟩
    · intro N hN
      refine ⟨fun hh => ?_, fun h => absurd h id⟩
      -- a manager acquired from before this one: the port is the same number
      have hmem : N ∈ done := (List.mem_cons.1 hh).resolve_left hN
      have hreal' : u.realPort = p := by simpa [List.ne_nil_of_mem hmem] using hp
      rw [← hreal']
      exact hheld N hmem

theorem Inv.clean (hi : Inv s) (M : Proto) (now : Int) :
    Inv (s.setLedger M ((s.ledgers M).cleanReservedPortsOnce now)) := by
  have hledger : ∀ N, (s.setLedger M ((s.ledgers M).cleanReservedPortsOnce now)).ledgers N =
      if N = M then (s.ledgers M).cleanReservedPortsOnce now else s.ledgers N :=
    fun N => update_apply s.ledgers M _ N
  refine ⟨?_, ?_, hi.wf, ?_⟩
  · intro N
    rw [hledger]
    split_ifs
    · exact (hi.ledger M).clean now
    · exact hi.ledger N
  · intro N
    rw [hledger]
    split_ifs
    · exact ⟨(hi.noZero M).free, (hi.noZero M).used, (hi.noZero M).ctxs⟩
    · exact hi.noZero N
  · intro j v N hv
    rw [hledger]
    split_ifs with hN
    · exact hN ▸ hi.sits j v N hv
    · exact hi.sits j v N hv

/-! ### Runs -/

theorem Inv.step {t : State} {a : Action} (hi : Inv s) (hok : Careful s a) (h : step s a = some t) :
    Inv t := by
  cases trans_of_step h with
  | start kind name remotePort _ => exact hi.start kind name remotePort
  | acquire i e u M todo done hu hphase horder => exact hi.acquire hu hphase horder hok
  | opened i u done hu hphase =>
    have hwf := hi.wf u (List.mem_of_getElem? hu)
    simp only [User.WF, hphase] at hwf
    refine hi.setUser trivial fun M => (hi.sits i u M hu).phase ?_ (fun h => absurd h id)
    intro hh
    simpa [User.Holds, hphase] using (hwf.2.1 M).1 hh
  | notOpened i u done hu hphase =>
    have hwf := hi.wf u (List.mem_of_getElem? hu)
    simp only [User.WF, hphase] at hwf
    refine hi.setUser (by simpa [User.WF] using hwf.1) fun M => (hi.sits i u M hu).phase ?_
      (fun h => absurd h id)
    intro hh
    simpa [User.Holds, hphase] using hh
  | join i u _ hu hphase | leave i u _ hu hphase =>
    refine hi.setUser trivial fun M => (hi.sits i u M hu).phase ?_ (fun h => absurd h id)
    intro hh
    simpa [User.Holds, hphase] using hh
  | close i u hu hphase =>
    refine hi.setUser u.kind.nodup_protos fun M => (hi.sits i u M hu).phase ?_
      (fun h => absurd h.2.1 h.2.2)
    intro hh
    simpa [User.Holds, hphase] using hh
  | closeAgain i u hu hphase htwice =>
    refine hi.setUser u.kind.nodup_protos fun M => (hi.sits i u M hu).phase
      (fun h => absurd h id) ?_
    intro hh
    simpa [User.Lingers, hphase, htwice] using hh
  | unwind i now u M todo hu hphase =>
    have hwf := hi.wf u (List.mem_of_getElem? hu)
    simp only [User.WF, hphase, List.nodup_cons] at hwf
    refine hi.release now hu (by simp [User.releasing?, hphase]) hwf.2 hwf.1 fun N _ =>
      (hi.sits i u N hu).phase ?_ (fun h => absurd h id)
    intro hh
    simp only [User.Holds, hphase]
    exact List.mem_cons_of_mem M hh
  | release i now u M todo hu hphase =>
    have hwf := hi.wf u (List.mem_of_getElem? hu)
    simp only [User.WF, hphase, List.nodup_cons] at hwf
    refine hi.release now hu (by simp [User.releasing?, hphase]) hwf.2 hwf.1 fun N hN =>
      (hi.sits i u N hu).phase ?_ ?_
    · intro hh
      simp only [User.Holds, hphase]
      exact List.mem_cons_of_mem M hh
    · -- the release of `M` makes the user linger on `M` only
      intro hh
      have hmem : N ∉ M :: todo := by simpa [hN] using hh.2.2
      simpa only [User.Lingers, hphase] using ⟨hh.1, hh.2.1, hmem⟩
  | releaseAgain i now u M todo hu hphase =>
    have hwf := hi.wf u (List.mem_of_getElem? hu)
    simp only [User.WF, hphase, List.nodup_cons] at hwf
    refine hi.release now hu (by simp [User.releasing?, hphase]) hwf.2 id fun N _ =>
      (hi.sits i u N hu).phase (fun h => absurd h id) ?_
    intro hh
    simp only [User.Lingers, hphase]
    exact List.mem_cons_of_mem M hh
  | clean M now => exact hi.clean M now

/-- If `Acquire` grants no port that is used or still to be released, every release is of a port
that nobody else holds. -/
theorem releases_own_port (allowPorts : List PortsRange) (h0 : (0 : Int) ∉ allowed allowPorts)
    (s : State) (h : Reach step Careful (init allowPorts) s) : OwnReleases s := by
  have hinv : Inv s := invariant_of_reach (inv_init h0) (fun _ _ _ hi hok hst => hi.step hok hst) h
  exact hinv.ownReleases

instance (s : State) (a : Action) : Decidable (Careful s a) := by
  cases a <;> dsimp only [Careful] <;> infer_instance

def onlyPort : List PortsRange := [⟨0, 0, 7000⟩]

def serve (i : Nat) (kind : Kind) (name : String) : List Action :=
  [.start kind name 7000, .acquire i (allOpen [7000]), .listen i true]

def oneByOneRun : List Action :=
  serve 0 .udp "a" ++ [.close 0, .release 0 1, .close 0, .release 0 2] ++ serve 1 .udp "b" ++
    [.close 1]

theorem releases_own_port_oneByOneRun : ∃ s, Reach step Careful (init onlyPort) s ∧ OwnReleases s ∧
      s.users.map User.releasing? = [none, some .udp] ∧ (s.ledgers .udp).holders 7000 = [1] := by
  have hreach : Reach step Careful (init onlyPort)
      ((run step Careful (init onlyPort) oneByOneRun).getD (init onlyPort)) :=
    reach_getD_of_isSome (by decide +kernel)
  exact ⟨_, hreach, releases_own_port onlyPort (by decide +kernel) _ hreach, by decide +kernel,
    by decide +kernel⟩

def overtakenRun : List Action :=
  serve 0 .udp "a" ++ [.close 0, .release 0 1] ++ serve 1 .udp "b" ++ [.close 0]

theorem second_close_frees_another : ∃ s, Reach step anyAction (init onlyPort) s ∧ ¬ OwnReleases s ∧
      s.users.map User.releasing? = [some .udp, none] ∧
      s.users.map User.realPort = [7000, 7000] ∧ (s.ledgers .udp).holders 7000 = [1] := by
  have hreach : Reach step anyAction (init onlyPort)
      ((run step anyAction (init onlyPort) overtakenRun).getD (init onlyPort)) :=
    reach_getD_of_isSome (by decide +kernel)
  refine ⟨_, hreach, fun hown => ?_, by decide +kernel, by decide +kernel, by decide +kernel⟩
  have hfirst := hown 0 ⟨.udp, "a", 7000, 7000, .closingAgain [.udp]⟩ .udp (by decide +kernel) rfl 1
    (by decide +kernel)
  cases hfirst

end FrpMeo.Server.PortUse
