import Mathlib.Data.List.Basic

/-!
# Visitor connections

A visitor of a secret proxy connects to frps, which checks the request and hands the connection to
the proxy's listener (`server/service.go`, `server/visitor/visitor.go`, `pkg/util/net/listener.go`).
When the queue of the listener is full, `PutConn` closes the connection and returns no error.
-/

namespace FrpMeo.Server.Visitor

open Function

/-- The MD5 sum of `util.GetAuthKey`, the error of `libio.WithEncryption`, that of `PanicToError`.
-/
structure Go where
  authKey : String → Int → String
  withEncryption : String → Option String
  panicToError : Bool → Option String

/-- `PanicToError` returns an error exactly when the function panics. -/
def Go.Recovers (go : Go) : Prop := ∀ panics, (go.panicToError panics).isSome = panics

/-! ## Listeners -/

structure WireProtocolConn where
  conn : Nat
  encryption : Option String
  compression : Bool
  wireProtocol : String
  deriving DecidableEq, Repr

/-- `InternalListener`; `acceptCh` has what the channel holds. -/
structure InternalListener where
  acceptCh : List WireProtocolConn
  closed : Bool
  deriving DecidableEq, Repr

namespace InternalListener

def capacity : Nat := 128

/-- What `PutConn` has done: the listener, whether it has closed the connection, and its error. -/
structure Put where
  listener : InternalListener
  closes : Bool
  err : Option String

def putConn (go : Go) (l : InternalListener) (conn : WireProtocolConn) : Put :=
  -- a send to a closed channel panics, whether or not there is room
  let err := (go.panicToError l.closed).map fun _ => "put conn error: listener is closed"
  if l.closed = true then ⟨l, false, err⟩
  else if l.acceptCh.length < capacity then
    ⟨{ l with acceptCh := l.acceptCh ++ [conn] }, false, err⟩
  else ⟨l, true, err⟩

variable {go : Go} {l : InternalListener} {conn : WireProtocolConn}

theorem putConn_closed (hgo : go.Recovers) (h : l.closed = true) :
    l.putConn go conn = ⟨l, false, some "put conn error: listener is closed"⟩ := by
  obtain ⟨err, herr⟩ := Option.isSome_iff_exists.1 (hgo true)
  simp [putConn, h, herr]

theorem putConn_room (hgo : go.Recovers) (h : l.closed = false)
    (hroom : l.acceptCh.length < capacity) :
    l.putConn go conn = ⟨{ l with acceptCh := l.acceptCh ++ [conn] }, false, none⟩ := by
  have herr : go.panicToError false = none := by simpa using hgo false
  simp [putConn, h, herr, hroom]

theorem putConn_full (hgo : go.Recovers) (h : l.closed = false)
    (hfull : capacity ≤ l.acceptCh.length) : l.putConn go conn = ⟨l, true, none⟩ := by
  have herr : go.panicToError false = none := by simpa using hgo false
  simp [putConn, h, herr, Nat.not_lt.2 hfull]

end InternalListener

/-! ## The manager -/

structure ListenerBundle where
  l : InternalListener
  sk : String
  allowUsers : List String
  deriving DecidableEq, Repr

structure NewVisitorConn where
  runID : String
  proxyName : String
  signKey : String
  timestamp : Int
  useEncryption : Bool
  useCompression : Bool
  deriving DecidableEq, Repr

structure NewVisitorConnResp where
  proxyName : String
  error : String
  deriving DecidableEq, Repr

structure State where
  listeners : String → Option ListenerBundle
  controls : String → Option String
  closed : List Nat

namespace State

def close (s : State) (conn : Nat) : State := { s with closed := conn :: s.closed }

def check (go : Go) (bundle : ListenerBundle) (m : NewVisitorConn) (visitorUser : String) :
    Except String Unit :=
  if go.authKey bundle.sk m.timestamp ≠ m.signKey then
    .error ("visitor connection of [" ++ m.proxyName ++ "] auth failed")
  else if visitorUser ∉ bundle.allowUsers ∧ "*" ∉ bundle.allowUsers then
    .error
      ("visitor connection of [" ++ m.proxyName ++ "] user [" ++ visitorUser ++ "] not allowed")
  else if m.useEncryption = true then
    match go.withEncryption bundle.sk with
    | some err => .error ("create encryption connection failed: " ++ err)
    | none => .ok ()
  else .ok ()

def visitorConn (bundle : ListenerBundle) (conn : Nat) (m : NewVisitorConn)
    (wireProtocol : String) : WireProtocolConn where
  conn
  encryption := if m.useEncryption then some bundle.sk else none
  compression := m.useCompression
  wireProtocol

/-- The end of `NewConn`: the connection goes to the listener of the bundle. -/
def deliver (go : Go) (s : State) (bundle : ListenerBundle) (conn : Nat) (m : NewVisitorConn)
    (wireProtocol : String) : State × Option String :=
  let put := bundle.l.putConn go (visitorConn bundle conn m wireProtocol)
  let t := { s with listeners := update s.listeners m.proxyName
                      (some { bundle with l := put.listener }) }
  (if put.closes then t.close conn else t, put.err)

def newConn (go : Go) (s : State) (conn : Nat) (m : NewVisitorConn)
    (visitorUser wireProtocol : String) : State × Option String :=
  match s.listeners m.proxyName with
  | none => (s, some ("custom listener for [" ++ m.proxyName ++ "] doesn't exist"))
  | some bundle =>
    match check go bundle m visitorUser with
    | .error err => (s, some err)
    | .ok () => s.deliver go bundle conn m wireProtocol

/-- The user that `RegisterVisitorConn` finds for a run id; old clients send none. -/
def visitorUser (s : State) (runID : String) : Option String :=
  if runID = "" then some "" else s.controls runID

def registerVisitorConn (go : Go) (s : State) (conn : Nat) (m : NewVisitorConn)
    (wireProtocol : String) : State × Option String :=
  match s.visitorUser m.runID with
  | none => (s, some ("no client control found for run id [" ++ m.runID ++ "]"))
  | some user => s.newConn go conn m user wireProtocol

def generateResponseErrorString (summary err : String) (detailed : Bool) : String :=
  if detailed then err else summary

/-- `handleConnection` for a `NewVisitorConn`: the state and the answer. -/
def handleConnection (go : Go) (detailedErrorsToClient : Bool) (s : State) (conn : Nat)
    (m : NewVisitorConn) (wireProtocol : String) : State × NewVisitorConnResp :=
  match s.registerVisitorConn go conn m wireProtocol with
  | (s, some err) =>
    (s.close conn, ⟨m.proxyName,
      generateResponseErrorString "register visitor conn error" err detailedErrorsToClient⟩)
  | (s, none) => (s, ⟨m.proxyName, ""⟩)

end State

/-! ## Answers -/

def Admitted (go : Go) (s : State) (m : NewVisitorConn) (bundle : ListenerBundle) : Prop :=
  s.listeners m.proxyName = some bundle ∧
    ∃ user, s.visitorUser m.runID = some user ∧
      go.authKey bundle.sk m.timestamp = m.signKey ∧
      (user ∈ bundle.allowUsers ∨ "*" ∈ bundle.allowUsers) ∧
      (m.useEncryption = true → go.withEncryption bundle.sk = none)

/-- Without an error the connection is the last in the listener's queue and open; a closed or full
queue gives an error. -/
structure Reported (s s' : State) (conn : Nat) (m : NewVisitorConn) (wireProtocol : String)
    (resp : NewVisitorConnResp) : Prop where
  queued : resp.error = "" → ∃ bundle l', s.listeners m.proxyName = some bundle ∧
    s'.listeners m.proxyName = some { bundle with l := l' } ∧
    l'.acceptCh = bundle.l.acceptCh ++ [State.visitorConn bundle conn m wireProtocol] ∧
    (conn ∈ s'.closed → conn ∈ s.closed)
  refused : ∀ bundle, s.listeners m.proxyName = some bundle →
    bundle.l.closed = true ∨ InternalListener.capacity ≤ bundle.l.acceptCh.length →
    resp.error ≠ ""

section Cases

variable {go : Go} {s : State} {m : NewVisitorConn} {bundle : ListenerBundle}

theorem check_error_ne {user err : String} (h : State.check go bundle m user = .error err) :
    err ≠ "" := by
  simp only [State.check] at h
  split_ifs at h
  · cases h
    simp
  · cases h
    simp
  · cases henc : go.withEncryption bundle.sk with
    | none => simp [henc] at h
    | some text =>
      simp only [henc, Except.error.injEq] at h
      rw [← h]
      simp

theorem check_ok_iff {user : String} : State.check go bundle m user = .ok () ↔
      go.authKey bundle.sk m.timestamp = m.signKey ∧
        (user ∈ bundle.allowUsers ∨ "*" ∈ bundle.allowUsers) ∧
        (m.useEncryption = true → go.withEncryption bundle.sk = none) := by
  simp only [State.check]
  split_ifs with hauth hallow henc
  · simp [hauth]
  · simp [hallow]
  · cases go.withEncryption bundle.sk <;> simp_all [or_iff_not_imp_left]
  · simp_all [or_iff_not_imp_left]

theorem registerVisitorConn_cases (go : Go) (s : State) (conn : Nat) (m : NewVisitorConn)
    (wireProtocol : String) : (∃ bundle, Admitted go s m bundle ∧
      s.registerVisitorConn go conn m wireProtocol = s.deliver go bundle conn m wireProtocol) ∨
      ((∀ bundle, ¬ Admitted go s m bundle) ∧
        ∃ err, err ≠ "" ∧ s.registerVisitorConn go conn m wireProtocol = (s, some err)) := by
  simp only [State.registerVisitorConn]
  cases huser : s.visitorUser m.runID with
  | none =>
    right
    refine ⟨?_, _, ?_, rfl⟩
    · rintro bundle ⟨-, user, huser', -⟩
      simp [huser] at huser'
    · simp
  | some user =>
    simp only [State.newConn]
    cases hl : s.listeners m.proxyName with
    | none =>
      right
      refine ⟨?_, _, ?_, rfl⟩
      · rintro bundle ⟨hl', -⟩
        simp [hl] at hl'
      · simp
    | some bundle =>
      cases hcheck : State.check go bundle m user with
      | ok =>
        left
        exact ⟨bundle, ⟨hl, user, huser, check_ok_iff.1 hcheck⟩, by simp [hcheck]⟩
      | error err =>
        right
        refine ⟨?_, err, check_error_ne hcheck, by simp [hcheck]⟩
        rintro bundle' ⟨hl', user', huser', hpass⟩
        rw [hl, Option.some.injEq] at hl'
        rw [huser, Option.some.injEq] at huser'
        subst hl' huser'
        rw [check_ok_iff.2 hpass] at hcheck
        cases hcheck

end Cases

theorem generateResponseErrorString_ne {err : String} (detailed : Bool) (herr : err ≠ "") :
    State.generateResponseErrorString "register visitor conn error" err detailed ≠ "" := by
  cases detailed <;> simp [State.generateResponseErrorString, herr]

section Answers

variable {go : Go} {s : State} {conn : Nat} {m : NewVisitorConn} {wireProtocol : String}
  {bundle : ListenerBundle} {detailedErrorsToClient : Bool}

theorem reported_of_error {t : State} {err : String} (herr : err ≠ "")
    (hreg : s.registerVisitorConn go conn m wireProtocol = (t, some err)) :
    Reported s (s.handleConnection go detailedErrorsToClient conn m wireProtocol).1 conn m
      wireProtocol (s.handleConnection go detailedErrorsToClient conn m wireProtocol).2 := by
  have hne := generateResponseErrorString_ne detailedErrorsToClient herr
  simp only [State.handleConnection, hreg]
  exact ⟨fun h => absurd h hne, fun _ _ _ => hne⟩

theorem reported_of_room (hgo : go.Recovers) (hl : s.listeners m.proxyName = some bundle)
    (hclosed : bundle.l.closed = false)
    (hroom : bundle.l.acceptCh.length < InternalListener.capacity)
    (hreg : s.registerVisitorConn go conn m wireProtocol =
      s.deliver go bundle conn m wireProtocol) :
    Reported s (s.handleConnection go detailedErrorsToClient conn m wireProtocol).1 conn m
      wireProtocol (s.handleConnection go detailedErrorsToClient conn m wireProtocol).2 := by
  simp only [State.handleConnection, hreg, State.deliver,
    InternalListener.putConn_room hgo hclosed hroom]
  constructor
  · intro _
    exact ⟨bundle, _, hl, update_self .., rfl, id⟩
  · intro bundle' hl' hbad
    obtain rfl : bundle = bundle' := Option.some.inj (hl.symm.trans hl')
    rw [hclosed] at hbad
    simp only [Bool.false_eq_true, false_or] at hbad
    omega

theorem handleConnection_full (detailedErrorsToClient : Bool) (hgo : go.Recovers)
    (hclosed : bundle.l.closed = false)
    (hfull : InternalListener.capacity ≤ bundle.l.acceptCh.length)
    (hreg : s.registerVisitorConn go conn m wireProtocol =
      s.deliver go bundle conn m wireProtocol) :
    (s.handleConnection go detailedErrorsToClient conn m wireProtocol).2 = ⟨m.proxyName, ""⟩ ∧
      conn ∈ (s.handleConnection go detailedErrorsToClient conn m wireProtocol).1.closed := by
  simp only [State.handleConnection, hreg, State.deliver,
    InternalListener.putConn_full hgo hclosed hfull]
  exact ⟨trivial, List.mem_cons_self⟩

end Answers

/-- The answer tells what has become of the connection, unless the request passes all checks and
meets an open listener with a full queue. -/
theorem reported_iff (go : Go) (hgo : go.Recovers) (detailedErrorsToClient : Bool) (s : State)
    (conn : Nat) (m : NewVisitorConn) (wireProtocol : String) :
    Reported s (s.handleConnection go detailedErrorsToClient conn m wireProtocol).1 conn m
        wireProtocol (s.handleConnection go detailedErrorsToClient conn m wireProtocol).2 ↔
      ¬ ∃ bundle, Admitted go s m bundle ∧ bundle.l.closed = false ∧
        InternalListener.capacity ≤ bundle.l.acceptCh.length := by
  constructor
  · rintro hrep ⟨bundle, hadm, hclosed, hfull⟩
    rcases registerVisitorConn_cases go s conn m wireProtocol with
      ⟨bundle', hadm', hreg⟩ | ⟨hnone, -⟩
    · obtain rfl : bundle = bundle' := Option.some.inj (hadm.1.symm.trans hadm'.1)
      have hanswer := handleConnection_full detailedErrorsToClient hgo hclosed hfull hreg
      have hrefused := hrep.refused bundle hadm.1 (.inr hfull)
      rw [hanswer.1] at hrefused
      exact hrefused rfl
    · exact hnone bundle hadm
  · intro hcond
    rcases registerVisitorConn_cases go s conn m wireProtocol with
      ⟨bundle, hadm, hreg⟩ | ⟨-, err, herr, hreg⟩
    · cases hclosed : bundle.l.closed with
      | true =>
        -- the send panics, and the error is passed on
        have hfails := hreg
        rw [State.deliver, InternalListener.putConn_closed hgo hclosed] at hfails
        have hne : "put conn error: listener is closed" ≠ "" := by decide
        exact reported_of_error hne hfails
      | false =>
        have hroom := Nat.lt_of_not_le fun hfull => hcond ⟨bundle, hadm, hclosed, hfull⟩
        exact reported_of_room hgo hadm.1 hclosed hroom hreg
    · exact reported_of_error herr hreg

def sampleGo : Go where
  authKey := fun token timestamp => token ++ toString timestamp
  withEncryption := fun _ => none
  panicToError := fun panics => if panics then some "send on closed channel" else none

theorem sampleGo_recovers : sampleGo.Recovers := by
  intro panics
  cases panics <;> rfl

def sampleState (acceptCh : List WireProtocolConn) : State where
  listeners := update (fun _ => none) "secret" (some ⟨⟨acceptCh, false⟩, "key", ["*"]⟩)
  controls := fun _ => none
  closed := []

def sampleRequest : NewVisitorConn := ⟨"", "secret", "key7", 7, false, false⟩

theorem sampleState_registerVisitorConn (acceptCh : List WireProtocolConn) (conn : Nat) :
    (sampleState acceptCh).registerVisitorConn sampleGo conn sampleRequest "v1" =
      (sampleState acceptCh).deliver sampleGo ⟨⟨acceptCh, false⟩, "key", ["*"]⟩ conn sampleRequest
        "v1" := rfl

theorem reported_iff_empty : Reported (sampleState [])
      ((sampleState []).handleConnection sampleGo true 0 sampleRequest "v1").1 0 sampleRequest "v1"
      ((sampleState []).handleConnection sampleGo true 0 sampleRequest "v1").2 := by
  apply (reported_iff sampleGo sampleGo_recovers true (sampleState []) 0 sampleRequest "v1").2
  rintro ⟨bundle, ⟨hl, -⟩, -, hfull⟩
  have hbundle : (⟨⟨[], false⟩, "key", ["*"]⟩ : ListenerBundle) = bundle := Option.some.inj hl
  rw [← hbundle] at hfull
  simp [InternalListener.capacity] at hfull

/-- The visitor after 128 waiting ones is told that it is connected, and is closed. -/
theorem visitor_lost :
    ((sampleState (List.replicate 128 ⟨0, none, false, "v1"⟩)).handleConnection sampleGo true 128
        sampleRequest "v1").2 = ⟨"secret", ""⟩ ∧
      128 ∈ ((sampleState (List.replicate 128 ⟨0, none, false, "v1"⟩)).handleConnection sampleGo
        true 128 sampleRequest "v1").1.closed := by
  apply handleConnection_full true sampleGo_recovers rfl _ (sampleState_registerVisitorConn _ 128)
  rw [List.length_replicate]
  exact Nat.le_refl _

end FrpMeo.Server.Visitor
