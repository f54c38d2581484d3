import FrpMeo.Lib.Transition
import Mathlib.Tactic

/-!
# Hole punching through the server

The owner of a proxy registers a name, a secret key and the users that may visit it (`ListenClient`
of `pkg/nathole/controller.go`). A `NatHoleVisitor` message with `PreCheck` only asks, and only then
the list of users is read; without it `HandleVisitor` opens a session and hands its id to the owner.
-/

namespace FrpMeo.Nathole

open Lib.Transition Function

/-- `util.GetAuthKey`: the sign key for a secret and a timestamp, an MD5 sum. -/
structure Go where
  authKey : String → Int → String

/-! ## Messages and registrations -/

structure NatHoleVisitor where
  transactionID : String
  proxyName : String
  preCheck : Bool
  protocol : String
  signKey : String
  timestamp : Int
  mappedAddrs : List String
  assistedAddrs : List String
  deriving DecidableEq

structure NatHoleClient where
  transactionID : String
  proxyName : String
  sid : String
  mappedAddrs : List String
  assistedAddrs : List String
  deriving DecidableEq

structure NatHoleResp where
  transactionID : String
  sid : String
  error : String
  deriving DecidableEq

def genNatHoleResponse (transactionID : String) (sid : Option String) (errInfo : String) :
    NatHoleResp :=
  ⟨transactionID, sid.getD "", errInfo⟩

structure ClientCfg where
  name : String
  sk : String
  allowUsers : List String
  sidCh : Nat
  deriving DecidableEq

def ClientCfg.Admits (cfg : ClientCfg) (user : String) : Prop :=
  user ∈ cfg.allowUsers ∨ "*" ∈ cfg.allowUsers

instance (cfg : ClientCfg) (user : String) : Decidable (cfg.Admits user) :=
  inferInstanceAs (Decidable (_ ∨ _))

/-- The list a proxy registers: its own user when none is configured. -/
def visitorUsers (allowUsers : List String) (user : String) : List String :=
  if allowUsers = [] then [user] else allowUsers

/-! ## The two paths of `HandleVisitor` -/

abbrev ClientCfgs := String → Option ClientCfg

/-- The path of a message with `PreCheck`. -/
def preCheck (cfgs : ClientCfgs) (m : NatHoleVisitor) (user : String) : Except String ClientCfg :=
  match cfgs m.proxyName with
  | none => .error ("xtcp server for [" ++ m.proxyName ++ "] doesn't exist")
  | some cfg =>
      if cfg.Admits user then .ok cfg
      else .error ("xtcp visitor user [" ++ user ++ "] not allowed for [" ++ m.proxyName ++ "]")

/-- The locked part of the path without `PreCheck`; the user is not looked at. -/
def openSession (go : Go) (cfgs : ClientCfgs) (m : NatHoleVisitor) : Except String ClientCfg :=
  match cfgs m.proxyName with
  | none => .error ("xtcp server for [" ++ m.proxyName ++ "] doesn't exist")
  | some cfg =>
      if m.signKey = go.authKey cfg.sk m.timestamp then .ok cfg
      else .error ("xtcp connection of [" ++ m.proxyName ++ "] auth failed")

variable {m : NatHoleVisitor} {cfg : ClientCfg} {cfgs : ClientCfgs}

theorem preCheck_eq_ok_iff {user : String} :
    preCheck cfgs m user = .ok cfg ↔ cfgs m.proxyName = some cfg ∧ cfg.Admits user := by
  unfold preCheck
  cases hc : cfgs m.proxyName with
  | none => simp
  | some c =>
    by_cases ha : c.Admits user
    · simp only [ha, if_true, Except.ok.injEq, Option.some.injEq]
      constructor
      · rintro rfl
        exact ⟨rfl, ha⟩
      · exact fun h => h.1
    · simp only [ha, if_false, reduceCtorEq, Option.some.injEq, false_iff, not_and]
      rintro rfl
      exact ha

variable {go : Go}

theorem openSession_eq_ok_iff : openSession go cfgs m = .ok cfg ↔
      cfgs m.proxyName = some cfg ∧ m.signKey = go.authKey cfg.sk m.timestamp := by
  unfold openSession
  cases hc : cfgs m.proxyName with
  | none => simp
  | some c =>
    by_cases hk : m.signKey = go.authKey c.sk m.timestamp
    · simp only [hk, if_true, Except.ok.injEq, Option.some.injEq]
      constructor
      · rintro rfl
        exact ⟨rfl, rfl⟩
      · exact fun h => h.1
    · simp only [hk, if_false, reduceCtorEq, Option.some.injEq, false_iff, not_and]
      rintro rfl
      exact hk

/-! ## What the server alone guarantees -/

/-! ## The running server -/

inductive Phase where
  /-- At `clientCfg.sidCh <- sid`. -/
  | offering
  /-- At the `select` on `notifyCh` and the timer. -/
  | waiting
  /-- From `analysis` to the last sleep. -/
  | answering
  /-- Returned; the session is deleted. -/
  | done
  deriving DecidableEq

/-- A running `HandleVisitor`: its locals, and the fields of its `Session` that others set. -/
structure Handler where
  sid : String
  visitorMsg : NatHoleVisitor
  visitorUser : String
  clientCfg : ClientCfg
  clientMsg : Option NatHoleClient
  /-- `notifyCh` holds its one element. -/
  notified : Bool
  phase : Phase
  deriving DecidableEq

inductive OwnerPhase where
  | running
  /-- `Close` has called `CloseClient`. -/
  | unlisted
  /-- `closeCh` is closed; the receiver may still take a session id. -/
  | closed
  /-- The receiver has returned. -/
  | stopped
  deriving DecidableEq

structure Owner where
  name : String
  phase : OwnerPhase
  deriving DecidableEq

structure State where
  clientCfgs : ClientCfgs
  sessions : String → Option Nat
  owners : Nat → Option Owner
  nextCh : Nat
  handlers : Nat → Option Handler
  nextHandler : Nat
  /-- The session ids owners have received: the channel and the handler that sent it. -/
  received : List (Nat × Nat)
  /-- The responses sent to visitors, with the visitor's user. -/
  answers : List (String × NatHoleResp)
  /-- The pre-checks answered without an error. -/
  passed : List (ClientCfg × String)

def init : State where
  clientCfgs := fun _ => none
  sessions := fun _ => none
  owners := fun _ => none
  nextCh := 0
  handlers := fun _ => none
  nextHandler := 0
  received := []
  answers := []
  passed := []

inductive Action where
  | runProxy (name sk : String) (allowUsers : List String) (user : String)
  | closeClient (ch : Nat)
  | closeCh (ch : Nat)
  | stopReceiver (ch : Nat)
  /-- A `NatHoleVisitor` arrives; `sid` is what `GenSid` returns for it. -/
  | visitor (m : NatHoleVisitor) (user sid : String)
  | deliver (h : Nat)
  | client (m : NatHoleClient)
  | wake (h : Nat)
  | timeout (h : Nat)
  | finish (h : Nat)

def State.ownerPhase (s : State) (ch : Nat) : Option OwnerPhase := (s.owners ch).map Owner.phase

def State.phase (s : State) (h : Nat) : Option Phase := (s.handlers h).map Handler.phase

def State.target (s : State) (h : Nat) : Option OwnerPhase :=
  (s.handlers h).bind fun r => s.ownerPhase r.clientCfg.sidCh

def Enabled (s : State) : Action → Prop
  | .runProxy .. => True
  | .closeClient ch => s.ownerPhase ch = some .running
  | .closeCh ch => s.ownerPhase ch = some .unlisted
  | .stopReceiver ch => s.ownerPhase ch = some .closed
  | .visitor .. => True
  | .deliver h => s.phase h = some .offering ∧ s.target h ∈ [some .running, some .unlisted,
      some .closed]
  | .client _ => True
  | .wake h => s.phase h = some .waiting ∧ ((s.handlers h).map Handler.notified) = some true
  | .timeout h => s.phase h = some .waiting
  | .finish h => s.phase h = some .answering

instance (s : State) (a : Action) : Decidable (Enabled s a) := by
  cases a <;> dsimp only [Enabled] <;> infer_instance

def State.setHandler (s : State) (h : Nat) (f : Handler → Handler) : State :=
  { s with handlers := update s.handlers h ((s.handlers h).map f) }

def State.setOwner (s : State) (ch : Nat) (phase : OwnerPhase) : State :=
  { s with
    owners := update s.owners ch ((s.owners ch).map fun o => { o with phase := phase }) }

def State.endSession (s : State) (h : Nat) : State :=
  { s with sessions := match s.handlers h with
      | none => s.sessions
      | some r => update s.sessions r.sid none }.setHandler h
    fun r => { r with phase := .done }

def State.answer (s : State) (m : NatHoleVisitor) (user errInfo : String) : State :=
  { s with answers := (user, genNatHoleResponse m.transactionID none errInfo) :: s.answers }

def handleVisitor (go : Go) (s : State) (m : NatHoleVisitor) (user sid : String) : State :=
  if m.preCheck then
    match preCheck s.clientCfgs m user with
    | .error err => s.answer m user err
    | .ok cfg => { (s.answer m user "") with passed := (cfg, user) :: s.passed }
  else
    match openSession go s.clientCfgs m with
    | .error err => s.answer m user err
    | .ok cfg =>
        { s with
          sessions := update s.sessions sid (some s.nextHandler)
          handlers := update s.handlers s.nextHandler
            (some ⟨sid, m, user, cfg, none, false, .offering⟩)
          nextHandler := s.nextHandler + 1 }

def listenClient (s : State) (name sk : String) (allowUsers : List String) : State :=
  match s.clientCfgs name with
  -- the proxy is repeated
  | some _ => s
  | none =>
      { s with
        clientCfgs := update s.clientCfgs name (some ⟨name, sk, allowUsers, s.nextCh⟩)
        owners := update s.owners s.nextCh (some ⟨name, .running⟩)
        nextCh := s.nextCh + 1 }

/-- `HandleClient`; a full `notifyCh` stays full. -/
def handleClient (s : State) (m : NatHoleClient) : State :=
  match s.sessions m.sid with
  | none => s
  | some h => s.setHandler h fun r => { r with clientMsg := some m, notified := true }

def next (go : Go) (s : State) : Action → State
  | .runProxy name sk allowUsers user => listenClient s name sk (visitorUsers allowUsers user)
  | .closeClient ch =>
      match s.owners ch with
      | none => s
      | some o =>
          { s with clientCfgs := update s.clientCfgs o.name none }.setOwner ch .unlisted
  | .closeCh ch => s.setOwner ch .closed
  | .stopReceiver ch => s.setOwner ch .stopped
  | .visitor m user sid => handleVisitor go s m user sid
  | .deliver h =>
      match s.handlers h with
      | none => s
      | some r =>
          { s with received := (r.clientCfg.sidCh, h) :: s.received }.setHandler h
            fun r => { r with phase := .waiting }
  | .client m => handleClient s m
  | .wake h => s.setHandler h fun r => { r with notified := false, phase := .answering }
  | .timeout h => s.endSession h
  | .finish h => s.endSession h

def step (go : Go) : State → Action → Option State := stepOf Enabled (next go)

/-! ## Sessions of admitted users -/

/-- Every session and every session id received is of a user whom the proxy's list admits. -/
structure Authorised (s : State) : Prop where
  opened : ∀ h r, s.handlers h = some r → r.clientCfg.Admits r.visitorUser
  received : ∀ d ∈ s.received, ∃ r, s.handlers d.2 = some r ∧ r.clientCfg.sidCh = d.1 ∧
    r.clientCfg.Admits r.visitorUser

/-- A visitor without `PreCheck` has been told before that it may go on. -/
def AsksFirst (s : State) : Action → Prop
  | .visitor m user _ =>
      m.preCheck = true ∨ ∀ cfg, s.clientCfgs m.proxyName = some cfg → (cfg, user) ∈ s.passed
  | _ => True

structure Inv (s : State) : Prop where
  opened : ∀ h r, s.handlers h = some r → r.clientCfg.Admits r.visitorUser
  received : ∀ d ∈ s.received, ∃ r, s.handlers d.2 = some r ∧ r.clientCfg.sidCh = d.1
  passed : ∀ p ∈ s.passed, p.1.Admits p.2
  fresh : ∀ h r, s.handlers h = some r → h < s.nextHandler

variable {s : State} {f : Handler → Handler} {r : Handler}

theorem Inv.authorised (hi : Inv s) : Authorised s where
  opened := hi.opened
  received := by
    intro d hd
    obtain ⟨r, hr, hch⟩ := hi.received d hd
    exact ⟨r, hr, hch, hi.opened _ r hr⟩

theorem inv_init : Inv init where
  opened := nofun
  received := nofun
  passed := nofun
  fresh := nofun

variable {t : State}

theorem Inv.of_eq (hi : Inv s) (hh : t.handlers = s.handlers := by rfl)
    (hr : t.received = s.received := by rfl) (hp : t.passed = s.passed := by rfl)
    (hn : t.nextHandler = s.nextHandler := by rfl) : Inv t where
  opened := by rw [hh]; exact hi.opened
  received := by rw [hh, hr]; exact hi.received
  passed := by rw [hp]; exact hi.passed
  fresh := by rw [hh, hn]; exact hi.fresh

@[simp] theorem handlers_setHandler (h : Nat) :
    (s.setHandler h f).handlers = update s.handlers h ((s.handlers h).map f) := rfl

variable {h k : Nat}

theorem of_handlers_setHandler (hr : (s.setHandler h f).handlers k = some r) :
    ∃ r', s.handlers k = some r' ∧ (r = r' ∨ r = f r') := by
  rw [handlers_setHandler] at hr
  by_cases hk : k = h
  · subst hk
    simp only [update_self, Option.map_eq_some_iff] at hr
    obtain ⟨r', hr', rfl⟩ := hr
    exact ⟨r', hr', .inr rfl⟩
  · rw [update_of_ne hk] at hr
    exact ⟨r, hr, .inl rfl⟩

theorem exists_setHandler (hr : s.handlers k = some r) :
    ∃ r', (s.setHandler h f).handlers k = some r' ∧ (r' = r ∨ r' = f r) := by
  by_cases hk : k = h
  · subst hk
    exact ⟨f r, by simp [hr], .inr rfl⟩
  · exact ⟨r, by simp [hk, hr], .inl rfl⟩

theorem Inv.setHandler (hi : Inv s) (h : Nat)
    (hc : ∀ r, (f r).clientCfg = r.clientCfg := by intro r; rfl)
    (hu : ∀ r, (f r).visitorUser = r.visitorUser := by intro r; rfl) : Inv (s.setHandler h f) where
  opened := by
    intro k r hr
    obtain ⟨r', hr', rfl | rfl⟩ := of_handlers_setHandler hr
    · exact hi.opened k r hr'
    · rw [hc, hu]
      exact hi.opened k r' hr'
  received := by
    intro d hd
    obtain ⟨r, hr, hch⟩ := hi.received d hd
    obtain ⟨r', hr', rfl | rfl⟩ := exists_setHandler hr
    · exact ⟨r', hr', hch⟩
    · exact ⟨f r, hr', by rw [hc]; exact hch⟩
  passed := hi.passed
  fresh := by
    intro k r hr
    obtain ⟨r', hr', -⟩ := of_handlers_setHandler hr
    exact hi.fresh k r' hr'

theorem Inv.endSession (hi : Inv s) (h : Nat) : Inv (s.endSession h) := (hi.of_eq).setHandler h

theorem Inv.add (hi : Inv s) (hadm : r.clientCfg.Admits r.visitorUser)
    (hh : t.handlers = update s.handlers s.nextHandler (some r) := by rfl)
    (hr : t.received = s.received := by rfl) (hp : t.passed = s.passed := by rfl)
    (hn : t.nextHandler = s.nextHandler + 1 := by rfl) : Inv t := by
  have hold : ∀ k, k ≠ s.nextHandler → t.handlers k = s.handlers k := fun k hk => by
    rw [hh, update_of_ne hk]
  have hnew : t.handlers s.nextHandler = some r := by rw [hh, update_self]
  constructor
  · intro k r' hr'
    by_cases hk : k = s.nextHandler
    · rw [hk, hnew] at hr'
      cases hr'
      exact hadm
    · rw [hold k hk] at hr'
      exact hi.opened k r' hr'
  · intro d hd
    rw [hr] at hd
    obtain ⟨r', hr', hch⟩ := hi.received d hd
    exact ⟨r', by rw [hold d.2 (hi.fresh _ _ hr').ne]; exact hr', hch⟩
  · rw [hp]
    exact hi.passed
  · intro k r' hr'
    rw [hn]
    by_cases hk : k = s.nextHandler
    · omega
    · rw [hold k hk] at hr'
      have := hi.fresh k r' hr'
      omega

theorem Inv.deliver (hi : Inv s) (hr : s.handlers h = some r) :
    Inv { s with received := (r.clientCfg.sidCh, h) :: s.received } :=
  { hi with
    received := by
      intro d hd
      rcases List.mem_cons.1 hd with rfl | hd
      · exact ⟨r, hr, rfl⟩
      · exact hi.received d hd }

theorem Inv.handleVisitor (hi : Inv s) {user sid : String}
    (hask : AsksFirst s (.visitor m user sid)) : Inv (handleVisitor go s m user sid) := by
  unfold Nathole.handleVisitor
  cases hm : m.preCheck with
  | true =>
    cases hp : preCheck s.clientCfgs m user with
    | error err => exact hi.of_eq
    | ok cfg =>
      refine { hi with passed := ?_ }
      intro p hmem
      rcases List.mem_cons.1 hmem with rfl | hmem
      · exact (preCheck_eq_ok_iff.1 hp).2
      · exact hi.passed p hmem
  | false =>
    cases ho : openSession go s.clientCfgs m with
    | error err => exact hi.of_eq
    | ok cfg =>
      -- the only place a session is opened: here the visitor must have asked before
      have hpassed : (cfg, user) ∈ s.passed := by
        rcases hask with htrue | hall
        · rw [hm] at htrue
          cases htrue
        · exact hall cfg (openSession_eq_ok_iff.1 ho).1
      exact hi.add (hi.passed _ hpassed)

theorem Inv.step {a : Action} (hi : Inv s) (hask : AsksFirst s a)
    (hst : step go s a = some t) : Inv t := by
  obtain ⟨-, rfl⟩ := stepOf_eq_some_iff.1 hst
  cases a with
  | runProxy name sk allowUsers user =>
    dsimp only [next, listenClient]
    split
    · exact hi
    · exact hi.of_eq
  | closeClient ch =>
    dsimp only [next]
    split
    · exact hi
    · exact hi.of_eq
  | closeCh | stopReceiver => exact hi.of_eq
  | visitor m user sid => exact hi.handleVisitor hask
  | deliver h =>
    dsimp only [next]
    split
    · exact hi
    · next r hr => exact (hi.deliver hr).setHandler h
  | client m =>
    dsimp only [next, handleClient]
    split
    · exact hi
    · next h hs => exact hi.setHandler h
  | wake h => exact hi.setHandler h
  | timeout h | finish h => exact hi.endSession h

/-- If every visitor asks first, sessions and session ids are of admitted users only. -/
theorem sessions_admitted (go : Go) (s : State) (h : Reach (step go) AsksFirst init s) :
    Authorised s :=
  (invariant_of_reach inv_init (fun _ _ _ hi hask hst => hi.step hask hst) h).authorised

/-! ## Runs -/

def plainGo : Go := ⟨fun sk timestamp => sk ++ "@" ++ toString timestamp⟩

def visit (preCheck : Bool) (signKey : String) : NatHoleVisitor :=
  ⟨"t1", "web", preCheck, "quic", signKey, 7, [], []⟩

instance (s : State) (a : Action) : Decidable (AsksFirst s a) := by
  cases a <;> dsimp only [AsksFirst] <;> infer_instance

def askingRun : List Action :=
  [.runProxy "web" "key" ["bob"] "alice", .visitor (visit true "") "bob" "s0",
    .visitor (visit false "key@7") "bob" "s1", .deliver 0, .client ⟨"t2", "web", "s1", [], []⟩,
    .wake 0, .finish 0]

theorem sessions_admitted_askingRun :
    Authorised ((run (step plainGo) AsksFirst init askingRun).getD init) :=
  sessions_admitted plainGo _ (reach_getD_of_isSome (by decide +kernel))

def skippingRun : List Action :=
  [.runProxy "web" "key" ["bob"] "alice", .visitor (visit false "key@7") "mallory" "s1",
    .deliver 0]

/-- The session is opened and its id delivered all the same. -/
theorem skipped_precheck_opens_session :
    ¬ ∀ s, Reach (step plainGo) anyAction init s → Authorised s := by
  intro h
  have hreach : Reach (step plainGo) anyAction init
      ((run (step plainGo) anyAction init skippingRun).getD init) :=
    reach_getD_of_isSome (by decide +kernel)
  have hreceived : (0, 0) ∈ ((run (step plainGo) anyAction init skippingRun).getD init).received :=
    by decide +kernel
  obtain ⟨r, hr, -, hadm⟩ := (h _ hreach).received _ hreceived
  have hnot : ∀ r ∈ ((run (step plainGo) anyAction init skippingRun).getD init).handlers 0,
      ¬ r.clientCfg.Admits r.visitorUser := by decide +kernel
  exact hnot r hr hadm

/-! ## Handlers that wait for a proxy that is gone -/

/-- The receiver of a closed proxy returns when no handler is about to send to it. -/
def StopsUnused (s : State) : Action → Prop
  | .stopReceiver ch =>
      ∀ h < s.nextHandler, s.phase h = some .offering →
        ((s.handlers h).map fun r => r.clientCfg.sidCh) ≠ some ch
  | _ => True

instance (s : State) (a : Action) : Decidable (StopsUnused s a) := by
  cases a <;> dsimp only [StopsUnused] <;> infer_instance

/-- No handler sends to a stopped receiver, and each that has not returned can go on. -/
structure Live (s : State) : Prop where
  offers : ∀ h, s.phase h = some .offering → s.target h ≠ some .stopped
  moves : ∀ h p, s.phase h = some p → p ≠ .done →
    ∃ a, a ∈ [Action.deliver h, .timeout h, .finish h] ∧ Enabled s a

/-- A registered channel has its receiver, and so has one that a handler is about to send to. -/
structure Served (s : State) : Prop where
  listed : ∀ name cfg, s.clientCfgs name = some cfg → s.owners cfg.sidCh = some ⟨name, .running⟩
  offers : ∀ h r, s.handlers h = some r → r.phase = .offering →
    ∃ o, s.owners r.clientCfg.sidCh = some o ∧ o.phase ≠ .stopped
  freshCh : ∀ ch, s.nextCh ≤ ch → s.owners ch = none
  fresh : ∀ h r, s.handlers h = some r → h < s.nextHandler

theorem Served.live (hs : Served s) : Live s := by
  have hoff : ∀ h, s.phase h = some .offering → ∃ o : Owner,
      s.target h = some o.phase ∧ o.phase ≠ .stopped := by
    intro h hp
    obtain ⟨r, hr, hphase⟩ := Option.map_eq_some_iff.1 hp
    obtain ⟨o, ho, hstop⟩ := hs.offers h r hr hphase
    exact ⟨o, by simp [State.target, State.ownerPhase, hr, ho], hstop⟩
  refine ⟨fun h hp => ?_, fun h p hp hdone => ?_⟩
  · obtain ⟨o, ho, hstop⟩ := hoff h hp
    simpa [ho] using hstop
  · cases p with
    | offering =>
      obtain ⟨o, ho, hstop⟩ := hoff h hp
      refine ⟨.deliver h, by simp, hp, ?_⟩
      rw [ho]
      cases hphase : o.phase <;> simp_all
    | waiting => exact ⟨.timeout h, by simp, hp⟩
    | answering => exact ⟨.finish h, by simp, hp⟩
    | done => exact absurd rfl hdone

theorem Served.setHandler (hs : Served s) (h : Nat)
    (hf : ∀ r, (f r).phase = .offering → r.phase = .offering ∧ (f r).clientCfg = r.clientCfg) :
    Served (s.setHandler h f) := by
  refine ⟨hs.listed, fun k r hr hp => ?_, hs.freshCh, fun k r hr => ?_⟩
  · obtain ⟨r', hr', rfl | rfl⟩ := of_handlers_setHandler hr
    · exact hs.offers k r hr' hp
    · obtain ⟨hp', hcfg⟩ := hf r' hp
      rw [hcfg]
      exact hs.offers k r' hr' hp'
  · obtain ⟨r', hr', -⟩ := of_handlers_setHandler hr
    exact hs.fresh k r' hr'

theorem Served.with (hs : Served s) (sessions : String → Option Nat) (received : List (Nat × Nat)) :
    Served { s with sessions := sessions, received := received } :=
  { hs with }

theorem Served.endSession (hs : Served s) (h : Nat) : Served (s.endSession h) := by
  refine (hs.with _ s.received).setHandler h ?_
  rintro r ⟨⟩

/-- The owner of a channel that is not registered any more goes on to the next phase. -/
theorem Served.setOwner (hs : Served s) {ch : Nat} {p : OwnerPhase}
    (hch : s.ownerPhase ch ≠ some .running)
    (hp : p = .stopped → ∀ h r, s.handlers h = some r → r.phase = .offering →
      r.clientCfg.sidCh ≠ ch) : Served (s.setOwner ch p) := by
  obtain ⟨hlisted, hoffers, hfreshCh, hfresh⟩ := hs
  refine ⟨fun name cfg hc => ?_, fun h r hr hoff => ?_, fun c hc => ?_, hfresh⟩
  · have hrun := hlisted name cfg hc
    simp only [State.setOwner, State.ownerPhase] at hch ⊢
    grind [update_apply]
  · obtain ⟨o, ho, hstop⟩ := hoffers h r hr hoff
    by_cases hc : r.clientCfg.sidCh = ch
    · exact ⟨⟨o.name, p⟩, by simp [State.setOwner, ← hc, ho], fun hps => hp hps h r hr hoff hc⟩
    · exact ⟨o, by simp [State.setOwner, hc, ho], hstop⟩
  · have := hfreshCh c hc
    simp only [State.setOwner]
    grind [update_apply]

theorem Served.next {a : Action} (hs : Served s) (hok : StopsUnused s a) (hen : Enabled s a) :
    Served (next go s a) := by
  cases a with
  | runProxy name sk allowUsers user =>
    dsimp only [Nathole.next, listenClient]
    split
    · exact hs
    · obtain ⟨hlisted, hoffers, hfreshCh, hfresh⟩ := hs
      refine ⟨fun n cfg hc => ?_, fun h r hr hoff => ?_, fun c hc => ?_, hfresh⟩
      · have := hlisted n cfg
        grind [update_apply]
      · have := hoffers h r hr hoff
        grind [update_apply]
      · have := hfreshCh c (Nat.le_of_succ_le hc)
        grind [update_apply]
  | closeClient ch =>
    obtain ⟨o, ho, hrun⟩ := Option.map_eq_some_iff.1 hen
    obtain ⟨hlisted, hoffers, hfreshCh, hfresh⟩ := hs
    simp only [Nathole.next, ho, State.setOwner]
    refine ⟨fun n cfg hc => ?_, fun h r hr hoff => ?_, fun c hc => ?_, hfresh⟩
    · have := hlisted n cfg
      grind [update_apply]
    · have := hoffers h r hr hoff
      grind [update_apply]
    · have := hfreshCh c hc
      grind [update_apply]
  | closeCh ch =>
    exact hs.setOwner (by rw [show s.ownerPhase ch = _ from hen]; nofun) nofun
  | stopReceiver ch =>
    refine hs.setOwner (by rw [show s.ownerPhase ch = _ from hen]; nofun) ?_
    rintro - h r hr hoff rfl
    exact hok h (hs.fresh h r hr) (by simp [State.phase, hr, hoff]) (by simp [hr])
  | visitor m user sid =>
    dsimp only [Nathole.next, Nathole.handleVisitor]
    split_ifs
    · split <;> exact { hs with }
    · split
      · exact { hs with }
      · -- the new handler has just found the channel registered
        next cfg ho =>
        have hrun := hs.listed _ cfg (openSession_eq_ok_iff.1 ho).1
        refine ⟨hs.listed, fun h r hr hoff => ?_, hs.freshCh, fun h r hr => ?_⟩
        · have := hs.offers h r
          grind [update_apply]
        · have := hs.fresh h
          grind [update_apply]
  | deliver h =>
    dsimp only [Nathole.next]
    split
    · exact hs
    · refine (hs.with s.sessions _).setHandler h ?_
      rintro r ⟨⟩
  | client m =>
    dsimp only [Nathole.next, handleClient]
    split
    · exact hs
    · exact hs.setHandler _ fun r hr => ⟨hr, rfl⟩
  | wake h =>
    refine hs.setHandler h ?_
    rintro r ⟨⟩
  | timeout h | finish h => exact hs.endSession h

/-- If a receiver only returns when no handler is about to send to it, no handler is stuck. -/
theorem live_of_stops_unused (go : Go) (s : State) (h : Reach (step go) StopsUnused init s) :
    Live s := by
  have hinit : Served init := ⟨nofun, nofun, fun _ _ => rfl, nofun⟩
  exact (invariant_of_next hinit (fun _ _ hs hok hen => hs.next hok hen) h).live

def closedAfterDelivery : List Action :=
  [.runProxy "web" "key" ["bob"] "alice", .visitor (visit false "key@7") "bob" "s1", .closeClient 0,
    .deliver 0, .closeCh 0, .stopReceiver 0, .timeout 0]

theorem live_of_stops_unused_closed :
    Live ((run (step plainGo) StopsUnused init closedAfterDelivery).getD init) :=
  live_of_stops_unused plainGo _ (reach_getD_of_isSome (by decide +kernel))

def closedBeforeDelivery : List Action :=
  [.runProxy "web" "key" ["bob"] "alice", .visitor (visit false "key@7") "bob" "s1", .closeClient 0,
    .closeCh 0, .stopReceiver 0]

/-- The proxy is closed while a handler has its channel in hand: the handler waits for ever. -/
theorem closed_proxy_leaves_handler :
    ∃ s, Reach (step plainGo) anyAction init s ∧ s.phase 0 = some .offering ∧
      s.target 0 = some .stopped ∧ ¬ Enabled s (.deliver 0) ∧ s.sessions "s1" = some 0 :=
  ⟨(run (step plainGo) anyAction init closedBeforeDelivery).getD init,
    reach_getD_of_isSome (by decide +kernel), by decide +kernel, by decide +kernel,
    by decide +kernel, by decide +kernel⟩

end FrpMeo.Nathole
