import FrpMeo.Lib.Transition
import Mathlib.Tactic

/-!
# Tokens after the login

With OIDC a client logs in with a token, and when the scopes ask for it sends one with every ping
and work connection (`pkg/auth/oidc.go`, `server/control.go`, `server/service.go`). The verifier is
one for all sessions, so it checks that some session has logged in with the subject
(`verifyPostLoginToken_eq_ok_iff`).
-/

namespace FrpMeo.Server.Oidc

open Lib.Transition

/-! ## The verifier -/

/-- `TokenVerifier`: the subject of a raw token, if it is valid at this time. -/
structure TokenVerifier where
  verify : Int → String → Except String String

inductive AuthScope where
  | heartBeats
  | newWorkConns
  deriving DecidableEq

structure OidcAuthConsumer where
  additionalAuthScopes : List AuthScope
  subjectsFromLogin : List String

variable {tv : TokenVerifier} {auth : OidcAuthConsumer} {now : Int} {privilegeKey : String}
  {subject : String}

namespace OidcAuthConsumer

def verifyLogin (tv : TokenVerifier) (auth : OidcAuthConsumer) (now : Int)
    (privilegeKey : String) : Except String (OidcAuthConsumer × String) :=
  match tv.verify now privilegeKey with
  | .error err => .error ("invalid OIDC token in login: " ++ err)
  | .ok subject =>
      .ok ({ auth with subjectsFromLogin := auth.subjectsFromLogin.insert subject }, subject)

def verifyPostLoginToken (tv : TokenVerifier) (auth : OidcAuthConsumer)
    (now : Int) (privilegeKey : String) : Except String Unit :=
  match tv.verify now privilegeKey with
  | .error err => .error ("invalid OIDC token in ping: " ++ err)
  | .ok subject =>
      if subject ∈ auth.subjectsFromLogin then .ok ()
      else .error ("received different OIDC subject in login and ping. new subject: " ++ subject)

/-- The shape of `VerifyPing` and `VerifyNewWorkConn`: nothing is checked outside the scope. -/
def verifyInScope (scope : AuthScope) (tv : TokenVerifier)
    (auth : OidcAuthConsumer) (now : Int) (privilegeKey : String) : Except String Unit :=
  if scope ∉ auth.additionalAuthScopes then .ok ()
  else auth.verifyPostLoginToken tv now privilegeKey

def verifyPing : TokenVerifier → OidcAuthConsumer → Int → String →
    Except String Unit :=
  verifyInScope .heartBeats

def verifyNewWorkConn : TokenVerifier → OidcAuthConsumer → Int → String →
    Except String Unit :=
  verifyInScope .newWorkConns

theorem verifyLogin_eq_ok {auth' : OidcAuthConsumer}
    (h : auth.verifyLogin tv now privilegeKey = .ok (auth', subject)) :
    tv.verify now privilegeKey = .ok subject ∧
      auth' = { auth with subjectsFromLogin := auth.subjectsFromLogin.insert subject } := by
  unfold verifyLogin at h
  split at h
  · cases h
  · next hv =>
    cases h
    exact ⟨hv, rfl⟩

/-- A token passes exactly when somebody has logged in with its subject. -/
theorem verifyPostLoginToken_eq_ok_iff : auth.verifyPostLoginToken tv now privilegeKey = .ok () ↔
      ∃ subject ∈ auth.subjectsFromLogin, tv.verify now privilegeKey = .ok subject := by
  unfold verifyPostLoginToken
  cases hv : tv.verify now privilegeKey with
  | error err => simp
  | ok subject =>
    by_cases hs : subject ∈ auth.subjectsFromLogin
    · simp [hs]
    · simp only [hs, if_false, reduceCtorEq, Except.ok.injEq, false_iff, not_exists, not_and]
      rintro _ hmem rfl
      exact hs hmem

end OidcAuthConsumer

/-! ## Sessions -/

/-- The verifier of a session, with the subject of its login. Internal clients always pass. -/
inductive SessionAuth where
  | oidc (subject : String)
  | alwaysPass
  deriving DecidableEq

structure Control where
  runID : String
  auth : SessionAuth
  deriving DecidableEq

inductive Kind where
  | ping
  | workConn
  deriving DecidableEq

def Kind.scope : Kind → AuthScope
  | .ping => .heartBeats
  | .workConn => .newWorkConns

structure Accepted where
  kind : Kind
  ctl : Nat
  now : Int
  privilegeKey : String
  deriving DecidableEq

structure State where
  auth : OidcAuthConsumer
  ctls : Nat → Option Control
  next : Nat
  ctlsByRunID : String → Option Nat
  accepted : List Accepted

def init (scopes : List AuthScope) : State where
  auth := ⟨scopes, []⟩
  ctls := fun _ => none
  next := 0
  ctlsByRunID := fun _ => none
  accepted := []

inductive Action where
  /-- `RegisterControl` for a login. -/
  | login (internal alwaysAuthPass : Bool) (runID privilegeKey : String) (now : Int)
  /-- `handlePing` of a control. -/
  | ping (ctl : Nat) (privilegeKey : String) (now : Int)
  /-- `RegisterWorkConn` of the service. -/
  | workConn (runID privilegeKey : String) (now : Int)
  | del (ctl : Nat)

/-- The control is stored under its run id; one that was there is replaced. -/
def State.addControl (s : State) (auth : OidcAuthConsumer) (ctl : Control) : State :=
  { s with
    auth := auth
    ctls := Function.update s.ctls s.next (some ctl)
    next := s.next + 1
    ctlsByRunID := Function.update s.ctlsByRunID ctl.runID (some s.next) }

def registerControl (tv : TokenVerifier) (s : State) (internal alwaysAuthPass : Bool)
    (runID privilegeKey : String) (now : Int) : State :=
  if internal && alwaysAuthPass then s.addControl s.auth ⟨runID, .alwaysPass⟩
  else
    match s.auth.verifyLogin tv now privilegeKey with
    | .error _ => s
    | .ok (auth, subject) => s.addControl auth ⟨runID, .oidc subject⟩

def SessionAuth.verify (tv : TokenVerifier) (auth : OidcAuthConsumer) (kind : Kind) (now : Int)
    (privilegeKey : String) : SessionAuth → Except String Unit
  | .alwaysPass => .ok ()
  | .oidc _ =>
      match kind with
      | .ping => auth.verifyPing tv now privilegeKey
      | .workConn => auth.verifyNewWorkConn tv now privilegeKey

def State.receive (tv : TokenVerifier) (s : State) (kind : Kind) (c : Nat) (privilegeKey : String)
    (now : Int) : State :=
  match s.ctls c with
  | none => s
  | some ctl =>
      match ctl.auth.verify tv s.auth kind now privilegeKey with
      | .error _ => s
      | .ok () => { s with accepted := ⟨kind, c, now, privilegeKey⟩ :: s.accepted }

def next (tv : TokenVerifier) (s : State) : Action → State
  | .login internal alwaysAuthPass runID privilegeKey now =>
      registerControl tv s internal alwaysAuthPass runID privilegeKey now
  | .ping c privilegeKey now => s.receive tv .ping c privilegeKey now
  | .workConn runID privilegeKey now =>
      match s.ctlsByRunID runID with
      -- no client control found for the run id
      | none => s
      | some c => s.receive tv .workConn c privilegeKey now
  | .del c =>
      match s.ctls c with
      | none => s
      | some ctl =>
          if s.ctlsByRunID ctl.runID = some c then
            { s with ctlsByRunID := Function.update s.ctlsByRunID ctl.runID none }
          else s

def step (tv : TokenVerifier) (s : State) (a : Action) : Option State := some (next tv s a)

/-! ## The subject of a session -/

/-- In the checked scopes, every accepted token has the subject of its session's login. -/
def OwnSubjects (tv : TokenVerifier) (s : State) : Prop :=
  ∀ e ∈ s.accepted, e.kind.scope ∈ s.auth.additionalAuthScopes →
    ∀ ctl subject, s.ctls e.ctl = some ctl → ctl.auth = .oidc subject →
      tv.verify e.now e.privilegeKey = .ok subject

/-- A login is of the subject that all logins before it were of. -/
def OneSubject (tv : TokenVerifier) (s : State) : Action → Prop
  | .login internal alwaysAuthPass _ privilegeKey now =>
      (internal && alwaysAuthPass) = true ∨
        ∀ subject, tv.verify now privilegeKey = .ok subject →
          ∀ other ∈ s.auth.subjectsFromLogin, other = subject
  | _ => True

structure Inv (tv : TokenVerifier) (s : State) : Prop where
  own : OwnSubjects tv s
  loggedIn : ∀ c ctl subject, s.ctls c = some ctl → ctl.auth = .oidc subject →
    subject ∈ s.auth.subjectsFromLogin
  one : ∀ x ∈ s.auth.subjectsFromLogin, ∀ y ∈ s.auth.subjectsFromLogin, x = y
  fresh : ∀ c ctl, s.ctls c = some ctl → c < s.next
  known : ∀ e ∈ s.accepted, e.ctl < s.next

theorem inv_init (tv : TokenVerifier) (scopes : List AuthScope) : Inv tv (init scopes) where
  own := nofun
  loggedIn := nofun
  one := nofun
  fresh := nofun
  known := nofun

theorem ctls_addControl_self (s : State) (ctl : Control) :
    (s.addControl auth ctl).ctls s.next = some ctl := by
  simp [State.addControl]

theorem ctls_addControl_of_ne {s : State} {ctl : Control} {c : Nat}
    (hc : c ≠ s.next) : (s.addControl auth ctl).ctls c = s.ctls c := by
  simp [State.addControl, hc]

variable {s : State}

theorem Inv.addControl (hi : Inv tv s) {ctl : Control}
    (hscopes : auth.additionalAuthScopes = s.auth.additionalAuthScopes)
    (hkept : ∀ x ∈ s.auth.subjectsFromLogin, x ∈ auth.subjectsFromLogin)
    (hone : ∀ x ∈ auth.subjectsFromLogin, ∀ y ∈ auth.subjectsFromLogin, x = y)
    (hnew : ∀ subject, ctl.auth = .oidc subject → subject ∈ auth.subjectsFromLogin) :
    Inv tv (s.addControl auth ctl) where
  own := by
    intro e he hscope ctl' subject hctl' hauth
    -- what was accepted is of an older control
    rw [ctls_addControl_of_ne (hi.known e he).ne] at hctl'
    exact hi.own e he (by rw [← hscopes]; exact hscope) ctl' subject hctl' hauth
  loggedIn := by
    intro c ctl' subject hctl' hauth
    by_cases hc : c = s.next
    · rw [hc, ctls_addControl_self] at hctl'
      cases hctl'
      exact hnew subject hauth
    · rw [ctls_addControl_of_ne hc] at hctl'
      exact hkept subject (hi.loggedIn c ctl' subject hctl' hauth)
  one := hone
  fresh := by
    intro c ctl' hctl'
    by_cases hc : c = s.next
    · rw [hc]
      exact Nat.lt_succ_self _
    · rw [ctls_addControl_of_ne hc] at hctl'
      exact (hi.fresh c ctl' hctl').trans (Nat.lt_succ_self _)
  known := fun e he => (hi.known e he).trans (Nat.lt_succ_self _)

theorem Inv.login (hi : Inv tv s) {internal pass : Bool} {runID : String}
    (hone : OneSubject tv s (.login internal pass runID privilegeKey now)) :
    Inv tv (registerControl tv s internal pass runID privilegeKey now) := by
  unfold registerControl
  split_ifs with hpass
  · exact hi.addControl rfl (fun _ h => h) hi.one nofun
  · split
    · exact hi
    · next auth subject hlogin =>
      obtain ⟨hverify, rfl⟩ := OidcAuthConsumer.verifyLogin_eq_ok hlogin
      have hsame : ∀ x ∈ s.auth.subjectsFromLogin.insert subject, x = subject := by
        intro x hx
        rcases List.mem_insert_iff.1 hx with rfl | hx
        · rfl
        · exact (hone.resolve_left hpass) subject hverify x hx
      refine hi.addControl rfl (fun _ h => List.mem_insert_of_mem h) ?_ ?_
      · intro x hx y hy
        rw [hsame x hx, hsame y hy]
      · rintro _ ⟨⟩
        exact List.mem_insert_self

theorem SessionAuth.verify_eq_ok {kind : Kind} (hscope : kind.scope ∈ auth.additionalAuthScopes)
    (h : (SessionAuth.oidc subject).verify tv auth kind now privilegeKey = .ok ()) :
    ∃ x ∈ auth.subjectsFromLogin, tv.verify now privilegeKey = .ok x := by
  have hpost : auth.verifyPostLoginToken tv now privilegeKey = .ok () := by
    cases kind with
    | ping =>
      have hnot : ¬ AuthScope.heartBeats ∉ auth.additionalAuthScopes := not_not_intro hscope
      simpa [SessionAuth.verify, OidcAuthConsumer.verifyPing, OidcAuthConsumer.verifyInScope,
        hnot] using h
    | workConn =>
      have hnot : ¬ AuthScope.newWorkConns ∉ auth.additionalAuthScopes := not_not_intro hscope
      simpa [SessionAuth.verify, OidcAuthConsumer.verifyNewWorkConn,
        OidcAuthConsumer.verifyInScope, hnot] using h
  exact OidcAuthConsumer.verifyPostLoginToken_eq_ok_iff.1 hpost

theorem Inv.receive (hi : Inv tv s) (kind : Kind) (c : Nat) (privilegeKey : String) (now : Int) :
    Inv tv (s.receive tv kind c privilegeKey now) := by
  unfold State.receive
  split
  · exact hi
  · next ctl hctl =>
    split
    · exact hi
    · next hok =>
      refine ⟨?_, hi.loggedIn, hi.one, hi.fresh, ?_⟩
      · intro e he hscope ctl' subject hctl' hauth
        rcases List.mem_cons.1 he with rfl | he
        · rw [hctl] at hctl'
          cases hctl'
          rw [hauth] at hok
          obtain ⟨x, hx, hverify⟩ := SessionAuth.verify_eq_ok hscope hok
          rw [hverify, hi.one x hx subject (hi.loggedIn c ctl subject hctl hauth)]
        · exact hi.own e he hscope ctl' subject hctl' hauth
      · intro e he
        rcases List.mem_cons.1 he with rfl | he
        · exact hi.fresh c ctl hctl
        · exact hi.known e he

theorem Inv.step {t : State} {a : Action} (hi : Inv tv s) (hone : OneSubject tv s a)
    (hst : step tv s a = some t) : Inv tv t := by
  cases hst
  cases a with
  | login internal pass runID privilegeKey now => exact hi.login hone
  | ping c privilegeKey now => exact hi.receive .ping c privilegeKey now
  | workConn runID privilegeKey now =>
    dsimp only [next]
    split
    · exact hi
    · next c hc => exact hi.receive .workConn c privilegeKey now
  | del c =>
    dsimp only [next]
    split
    · exact hi
    · split
      · exact { hi with }
      · exact hi

/-- If all logins are of one subject, every token accepted for a session has the session's own. -/
theorem accepted_own_subject (tv : TokenVerifier) (scopes : List AuthScope) (s : State)
    (h : Reach (step tv) (OneSubject tv) (init scopes) s) : OwnSubjects tv s :=
  (invariant_of_reach (inv_init tv scopes) (fun _ _ _ hi hone hst => hi.step hone hst) h).own

/-! ## Runs -/

def mockTokenVerifier : TokenVerifier := ⟨fun _ raw => .ok raw⟩

instance (s : State) : (a : Action) → Decidable (OneSubject mockTokenVerifier s a)
  | .login internal pass _ privilegeKey _ => decidable_of_iff
      ((internal && pass) = true ∨ ∀ other ∈ s.auth.subjectsFromLogin, other = privilegeKey) (by
        simp [OneSubject, mockTokenVerifier])
  | .ping .. | .workConn .. | .del _ => .isTrue trivial

def bothScopes : State := init [.heartBeats, .newWorkConns]

def sharedAccountRun : List Action :=
  [.login false false "r1" "svc" 0, .login false false "r2" "svc" 1, .login true true "r3" "" 2,
    .ping 0 "svc" 3, .workConn "r2" "svc" 4, .ping 2 "" 5, .del 0, .ping 1 "bob" 6]

theorem accepted_own_subject_sharedAccountRun :
    OwnSubjects mockTokenVerifier ((run (step mockTokenVerifier) (OneSubject mockTokenVerifier)
      bothScopes sharedAccountRun).getD bothScopes) :=
  accepted_own_subject mockTokenVerifier _ _ (reach_getD_of_isSome (by decide +kernel))

def borrowedTokenRun : List Action :=
  [.login false false "r1" "alice" 0, .login false false "r2" "bob" 1, .ping 1 "alice" 2]

/-- The ping is accepted: without the other login it would not be. -/
theorem token_of_another_session : ¬ ∀ s, Reach (step mockTokenVerifier) anyAction bothScopes s →
      OwnSubjects mockTokenVerifier s := by
  intro h
  have hreach : Reach (step mockTokenVerifier) anyAction bothScopes
      ((run (step mockTokenVerifier) anyAction bothScopes borrowedTokenRun).getD bothScopes) :=
    reach_getD_of_isSome (by decide +kernel)
  have hown := h _ hreach ⟨.ping, 1, 2, "alice"⟩ (by decide +kernel) (by decide +kernel)
    ⟨"r2", .oidc "bob"⟩ "bob" (by decide +kernel) rfl
  exact absurd hown (by decide)

end FrpMeo.Server.Oidc
