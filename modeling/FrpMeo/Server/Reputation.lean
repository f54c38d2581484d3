import FrpMeo.Lib.Transition
import FrpMeo.Server.Decision

/-!
# Verdicts of the provider

How `checkExternal` (`server/firewall/firewall.go`) comes to a verdict while `SetConfig` replaces
the configuration. A check reads the settings and then the cache; on a miss it asks about the
address, and others wait for it. `SetConfig` empties the cache, but checks under way write their
answers into it.
-/

set_option linter.dupNamespace false

namespace FrpMeo.Server.Firewall.Reputation

open Lib.Transition Lib.Netip Function

/-! ## One check -/

/-- A verdict, with the number of the configuration whose provider gave it. -/
structure Verdict where
  blocked : Bool
  reason : String
  config : Nat
  deriving DecidableEq

structure RepEntry where
  verdict : Verdict
  exp : Int

def askedAbout (go : Go) (f : Firewall) (now : Int) (remoteAddr : String) (port : Int) :
    Option String :=
  let ip := parseAddr go remoteAddr
  if f.enabled = true ∧ (f.firstMatch now ip port).isNone = true then
    match ip with
    | none => none
    | some ip => if f.asksProvider go ip port then some (go.netip.addrString ip) else none
  else none

def conclude (f : Firewall) (blocked : Bool) (why : String) : Bool × String :=
  if blocked then (false, if why ≠ "" then "reputation (" ++ why ++ ")" else "reputation")
  else if f.defaultPolicy = "allow" then (true, "default allow") else (false, "default deny")

/-- What a query leaves: the verdict and the seconds it is kept. `none` is an error. -/
def outcome (p : ProviderConfig) : Option (Bool × String) → Bool × String × Int
  | some (blocked, reason) => (blocked, reason, if p.cacheTTLSec ≤ 0 then 300 else p.cacheTTLSec)
  | none => (!p.failOpen, "provider unavailable", 10)

inductive Phase where
  | asking
  /-- Waits for the channel of another check. -/
  | waiting (owner : Nat)
  /-- Has its channel in `repInFlight` and asks the provider. -/
  | querying (now : Int)
  /-- Has stored the answer and still has to close its channel. -/
  | answered (v : Verdict)
  | done (decision : Bool × String) (used : Option Verdict)

def Phase.Pending : Phase → Prop
  | .asking => True
  | .waiting _ => True
  | .querying _ => True
  | .answered _ => False
  | .done _ _ => False

instance (p : Phase) : Decidable p.Pending :=
  match p with
  | .asking | .waiting _ | .querying _ => .isTrue trivial
  | .answered _ | .done _ _ => .isFalse id

structure Check where
  remoteAddr : String
  port : Int
  now : Int
  firewall : Firewall
  config : Nat
  ip : String
  phase : Phase

/-! ## The firewall with its checks -/

structure State where
  firewall : Firewall
  /-- How often the configuration has been set. -/
  config : Nat
  repCache : String → Option RepEntry
  /-- The check whose channel is waited for. -/
  repInFlight : String → Option Nat
  /-- All calls so far, in the order they took the lock. -/
  checks : List Check

def init (f : Firewall) : State where
  firewall := f
  config := 0
  repCache := fun _ => none
  repInFlight := fun _ => none
  checks := []

inductive Action where
  /-- `Allow` up to the point where it gives up the lock. -/
  | allow (remoteAddr : String) (port : Int) (now : Int)
  /-- One round of the loop of `checkExternal` under `repMu`. -/
  | look (c : Nat) (now : Int)
  | wake (c : Nat)
  /-- The query returns and its answer is stored. -/
  | store (c : Nat) (answer : Option (Bool × String))
  | close (c : Nat)
  | setConfig (cfg : Config) (host : Host) (saveErr : Option String)
  | sweep (now : Int)

def State.setPhase (s : State) (c : Nat) (k : Check) (phase : Phase) : State :=
  { s with checks := s.checks.set c { k with phase := phase } }

/-- A check closes its channel as the last thing it does. -/
def State.closed (s : State) (c : Nat) : Bool :=
  match s.checks[c]? with
  | some { phase := .done _ _, .. } => true
  | _ => false

def State.allow (go : Go) (s : State) (remoteAddr : String) (port now : Int) : State :=
  let f := s.firewall
  let phase := match askedAbout go f now remoteAddr port with
    | none => Phase.done (f.allow go ⟨now, fun _ _ => (false, "")⟩ remoteAddr port) none
    | some _ => .asking
  let ip := (askedAbout go f now remoteAddr port).getD ""
  { s with checks := s.checks ++ [⟨remoteAddr, port, now, f, s.config, ip, phase⟩] }

def State.look (s : State) (c : Nat) (k : Check) (now : Int) : State :=
  match (s.repCache k.ip).filter fun e => now < e.exp with
  | some e => s.setPhase c k (.done (conclude k.firewall e.verdict.blocked e.verdict.reason)
      (some e.verdict))
  | none =>
      match s.repInFlight k.ip with
      | some owner => s.setPhase c k (.waiting owner)
      | none => { s.setPhase c k (.querying now) with
          repInFlight := update s.repInFlight k.ip (some c) }

/-- The answer goes into the cache that is in place now, whoever put it there. -/
def State.store (s : State) (c : Nat) (k : Check) (now : Int) (answer : Option (Bool × String)) :
    State :=
  let (blocked, reason, ttl) := outcome k.firewall.provider.effective answer
  let v : Verdict := ⟨blocked, reason, k.config⟩
  { s.setPhase c k (.answered v) with
    repCache := update s.repCache k.ip (some ⟨v, now + ttl⟩)
    repInFlight := update s.repInFlight k.ip none }

/-- An action of a check continues from the phase that it is in. -/
def step (go : Go) (s : State) : Action → Option State
  | .allow remoteAddr port now => some (s.allow go remoteAddr port now)
  | .look c now => s.checks[c]?.bind fun k =>
      match k.phase with
      | .asking => some (s.look c k now)
      | _ => none
  | .wake c => s.checks[c]?.bind fun k =>
      match k.phase with
      | .waiting owner => if s.closed owner then some (s.setPhase c k .asking) else none
      | _ => none
  | .store c answer => s.checks[c]?.bind fun k =>
      match k.phase with
      | .querying now => some (s.store c k now answer)
      | _ => none
  | .close c => s.checks[c]?.bind fun k =>
      match k.phase with
      | .answered v =>
          some (s.setPhase c k (.done (conclude k.firewall v.blocked v.reason) (some v)))
      | _ => none
  | .setConfig cfg host saveErr => some
      { s with
        firewall := (s.firewall.setConfig go cfg host saveErr).1
        config := s.config + 1
        repCache := fun _ => none }
  | .sweep now => some { s with firewall := s.firewall.prune now }

inductive Trans (go : Go) (s : State) : Action → State → Prop where
  | allow (remoteAddr : String) (port now : Int) :
      Trans go s (.allow remoteAddr port now) (s.allow go remoteAddr port now)
  | look (c : Nat) (k : Check) (now : Int) (hk : s.checks[c]? = some k)
      (hphase : k.phase = .asking) : Trans go s (.look c now) (s.look c k now)
  | wake (c : Nat) (k : Check) (owner : Nat) (hk : s.checks[c]? = some k)
      (hphase : k.phase = .waiting owner) (hclosed : s.closed owner = true) :
      Trans go s (.wake c) (s.setPhase c k .asking)
  | store (c : Nat) (k : Check) (now : Int) (answer : Option (Bool × String))
      (hk : s.checks[c]? = some k) (hphase : k.phase = .querying now) :
      Trans go s (.store c answer) (s.store c k now answer)
  | close (c : Nat) (k : Check) (v : Verdict) (hk : s.checks[c]? = some k)
      (hphase : k.phase = .answered v) :
      Trans go s (.close c)
        (s.setPhase c k (.done (conclude k.firewall v.blocked v.reason) (some v)))
  | setConfig (cfg : Config) (host : Host) (saveErr : Option String) :
      Trans go s (.setConfig cfg host saveErr)
        { s with
          firewall := (s.firewall.setConfig go cfg host saveErr).1
          config := s.config + 1
          repCache := fun _ => none }
  | sweep (now : Int) : Trans go s (.sweep now) { s with firewall := s.firewall.prune now }

variable {go : Go} {s : State} {a : Action} {k : Check} {remoteAddr : String} {f : Firewall}

theorem trans_of_step {t : State} (h : step go s a = some t) : Trans go s a t := by
  cases a with
  | allow remoteAddr port now =>
    cases h
    exact .allow remoteAddr port now
  | look c now =>
    obtain ⟨k, hk, h⟩ := Option.bind_eq_some_iff.1 h
    cases hphase : k.phase <;> simp only [hphase, reduceCtorEq, Option.some.injEq] at h
    subst h
    exact .look c k now hk hphase
  | wake c =>
    obtain ⟨k, hk, h⟩ := Option.bind_eq_some_iff.1 h
    cases hphase : k.phase <;> simp only [hphase, reduceCtorEq] at h
    next owner =>
      by_cases hclosed : s.closed owner = true
      · simp only [hclosed, if_true, Option.some.injEq] at h
        subst h
        exact .wake c k owner hk hphase hclosed
      · simp [hclosed] at h
  | store c answer =>
    obtain ⟨k, hk, h⟩ := Option.bind_eq_some_iff.1 h
    cases hphase : k.phase <;> simp only [hphase, reduceCtorEq, Option.some.injEq] at h
    subst h
    exact .store c k _ answer hk hphase
  | close c =>
    obtain ⟨k, hk, h⟩ := Option.bind_eq_some_iff.1 h
    cases hphase : k.phase <;> simp only [hphase, reduceCtorEq, Option.some.injEq] at h
    subst h
    exact .close c k _ hk hphase
  | setConfig cfg host saveErr =>
    cases h
    exact .setConfig cfg host saveErr
  | sweep now =>
    cases h
    exact .sweep now

/-! ## What a check can be after a step -/

theorem checks_setPhase {c : Nat} {phase : Phase} {P : Check → Prop} (hs : ∀ k ∈ s.checks, P k)
    (hnew : P { k with phase := phase }) : ∀ k' ∈ (s.setPhase c k phase).checks, P k' := by
  intro k' hk'
  rcases List.mem_or_eq_of_mem_set hk' with hold | heq
  · exact hs k' hold
  · rw [heq]
    exact hnew

theorem checks_allow {port now : Int} {P : Check → Prop} (hs : ∀ k ∈ s.checks, P k)
    (hdone : askedAbout go s.firewall now remoteAddr port = none →
      P ⟨remoteAddr, port, now, s.firewall, s.config, "",
        .done (s.firewall.allow go ⟨now, fun _ _ => (false, "")⟩ remoteAddr port) none⟩)
    (hask : ∀ ip, askedAbout go s.firewall now remoteAddr port = some ip →
      P ⟨remoteAddr, port, now, s.firewall, s.config, ip, .asking⟩) :
    ∀ k ∈ (s.allow go remoteAddr port now).checks, P k := by
  intro k hk
  rcases List.mem_append.1 hk with hold | hnew
  · exact hs k hold
  · rw [List.mem_singleton] at hnew
    subst hnew
    cases h : askedAbout go s.firewall now remoteAddr port with
    | none => exact hdone h
    | some ip => exact hask ip h

/-! ## The decision of a finished check -/

variable {now port : Int}

theorem allow_of_askedAbout_eq_some {ip : String}
    (h : askedAbout go f now remoteAddr port = some ip) (blocked : Bool) (why : String) :
    f.allow go ⟨now, fun _ _ => (blocked, why)⟩ remoteAddr port = conclude f blocked why := by
  cases he : f.enabled with
  | false => simp [askedAbout, he] at h
  | true =>
    cases hr : f.firstMatch now (parseAddr go remoteAddr) port with
    | some r => simp [askedAbout, he, hr] at h
    | none =>
      cases hip : parseAddr go remoteAddr with
      | none => simp [askedAbout, he, hip] at h
      | some addr =>
        rw [hip] at hr
        by_cases hasks : f.asksProvider go addr port = true
        · cases blocked <;> simp [Firewall.allow, he, hip, hr, Firewall.reputation, hasks, conclude]
        · simp [askedAbout, he, hip, hasks] at h

/-- What the provider is taken to say when a check has used a verdict, or none. -/
def answerOf (used : Option Verdict) : Bool × String :=
  (used.map fun v => (v.blocked, v.reason)).getD (false, "")

/-- A check in progress is one that asks the provider; a finished one has decided as `Allow`. -/
def Check.Decided (go : Go) (k : Check) : Prop :=
  match k.phase with
  | .done decision used =>
      decision = k.firewall.allow go ⟨k.now, fun _ _ => answerOf used⟩ k.remoteAddr k.port
  | _ => askedAbout go k.firewall k.now k.remoteAddr k.port = some k.ip

theorem Check.Decided.asked (h : k.Decided go)
    (hphase : ∀ decision used, k.phase ≠ .done decision used) :
    askedAbout go k.firewall k.now k.remoteAddr k.port = some k.ip := by
  unfold Check.Decided at h
  split at h
  · next decision used hdone => exact absurd hdone (hphase decision used)
  · exact h

theorem decided_step {t : State} (hs : ∀ k ∈ s.checks, k.Decided go) (h : step go s a = some t) :
    ∀ k ∈ t.checks, k.Decided go := by
  have hmem : ∀ {c : Nat} {k : Check}, s.checks[c]? = some k → k.Decided go :=
    fun hk => hs _ (List.mem_of_getElem? hk)
  cases trans_of_step h with
  | allow remoteAddr port now =>
    apply checks_allow hs
    · intro _
      rfl
    · intro ip hask
      exact hask
  | look c k now hk hphase =>
    have hask := (hmem hk).asked (by simp [hphase])
    unfold State.look
    split
    · -- the cache has a verdict, which decides
      apply checks_setPhase hs
      exact (allow_of_askedAbout_eq_some hask _ _).symm
    · split <;> exact checks_setPhase hs hask
  | wake c k owner hk hphase _ =>
    apply checks_setPhase hs
    exact (hmem hk).asked (by simp [hphase])
  | store c k now answer hk hphase => exact checks_setPhase hs ((hmem hk).asked (by simp [hphase]))
  | close c k v hk hphase =>
    have hask := (hmem hk).asked (by simp [hphase])
    apply checks_setPhase hs
    exact (allow_of_askedAbout_eq_some hask _ _).symm
  | setConfig | sweep => exact hs

/-- In every interleaving a finished check has decided as `Allow` does with the verdict used. -/
theorem decided_of_reach (h : Reach (step go) anyAction (init f) s) :
    ∀ k ∈ s.checks, k.Decided go := by
  apply invariant_of_reach _ _ h
  · intro k hk
    cases hk
  · intro u a v hu _ hstep
    exact decided_step hu hstep

/-! ## The age of a verdict -/

/-- The check has not used a verdict of an older configuration than the one it started with. -/
def Check.UsesCurrent (k : Check) : Prop :=
  match k.phase with
  | .done _ (some v) => k.config ≤ v.config
  | _ => True

instance : (k : Check) → Decidable k.UsesCurrent
  | { phase := .done _ (some v), config, .. } => inferInstanceAs (Decidable (config ≤ v.config))
  | { phase := .done _ none, .. } | { phase := .asking, .. } | { phase := .waiting _, .. }
  | { phase := .querying _, .. } | { phase := .answered _, .. } => .isTrue trivial

def Current (s : State) : Prop := ∀ k ∈ s.checks, k.UsesCurrent

instance (s : State) : Decidable (Current s) :=
  inferInstanceAs (Decidable (∀ k ∈ s.checks, k.UsesCurrent))

/-- The configuration is set while every check that has read its settings has its verdict. -/
def Quiet (s : State) : Action → Prop
  | .setConfig _ _ _ => ∀ k ∈ s.checks, ¬ k.phase.Pending
  | _ => True

instance (s : State) (a : Action) : Decidable (Quiet s a) := by
  cases a <;> dsimp only [Quiet] <;> infer_instance

/-- A check without a verdict has the settings in place; a verdict is not older than its check. -/
def Check.Fresh (config : Nat) (k : Check) : Prop :=
  match k.phase with
  | .answered v => k.config ≤ v.config
  | .done _ used => ∀ v, used = some v → k.config ≤ v.config
  | _ => k.config = config

theorem Check.Fresh.of_not_pending {config config' : Nat} (h : k.Fresh config)
    (hp : ¬ k.phase.Pending) : k.Fresh config' := by
  unfold Check.Fresh at h ⊢
  cases hphase : k.phase with
  | answered | done => simpa [hphase] using h
  | asking | waiting | querying => exact absurd (by rw [hphase]; trivial) hp

theorem Check.Fresh.usesCurrent {config : Nat} (h : k.Fresh config) : k.UsesCurrent := by
  unfold Check.UsesCurrent
  split
  · next decision v hphase =>
    simp only [Check.Fresh, hphase] at h
    exact h v rfl
  · trivial

/-- The cache holds verdicts of the configuration in place. -/
structure Inv (s : State) : Prop where
  checks : ∀ k ∈ s.checks, k.Fresh s.config
  cache : ∀ ip e, s.repCache ip = some e → e.verdict.config = s.config

theorem inv_init (f : Firewall) : Inv (init f) where
  checks := by
    intro k h
    cases h
  cache := by
    intro ip e h
    cases h

theorem Inv.allow (hi : Inv s) (remoteAddr : String) (port now : Int) :
    Inv (s.allow go remoteAddr port now) where
  cache := hi.cache
  checks := by
    apply checks_allow hi.checks
    · intro _ v hv
      cases hv
    · intro ip _
      rfl

theorem Inv.look (hi : Inv s) {c : Nat} (now : Int) (hconfig : k.config = s.config) :
    Inv (s.look c k now) := by
  unfold State.look
  split
  · next e hhit =>
    -- a hit is an entry of the cache in place
    have hentry : s.repCache k.ip = some e := (Option.filter_eq_some_iff.1 hhit).1
    refine ⟨?_, hi.cache⟩
    apply checks_setPhase hi.checks
    intro v hv
    cases hv
    rw [hi.cache k.ip e hentry, hconfig]
  · split <;> exact ⟨checks_setPhase hi.checks hconfig, hi.cache⟩

theorem Inv.store (hi : Inv s) {c : Nat} (now : Int) (answer : Option (Bool × String))
    (hconfig : k.config = s.config) : Inv (s.store c k now answer) where
  checks := checks_setPhase hi.checks (le_refl k.config)
  cache := by
    intro ip e he
    by_cases hip : ip = k.ip
    · subst hip
      simp only [State.store, update_self, Option.some.injEq] at he
      subst he
      exact hconfig
    · apply hi.cache ip e
      simpa [State.store, hip] using he

theorem Inv.step {t : State} (hi : Inv s) (hok : Quiet s a) (h : step go s a = some t) : Inv t := by
  have hfresh : ∀ {c : Nat} {k : Check}, s.checks[c]? = some k → k.Fresh s.config :=
    fun hk => hi.checks _ (List.mem_of_getElem? hk)
  cases trans_of_step h with
  | allow remoteAddr port now => exact hi.allow remoteAddr port now
  | look c k now hk hphase => exact hi.look now (by simpa [Check.Fresh, hphase] using hfresh hk)
  | wake c k owner hk hphase _ =>
    have hconfig : k.config = s.config := by simpa [Check.Fresh, hphase] using hfresh hk
    exact ⟨checks_setPhase hi.checks hconfig, hi.cache⟩
  | store c k now answer hk hphase =>
    exact hi.store now answer (by simpa [Check.Fresh, hphase] using hfresh hk)
  | close c k v hk hphase =>
    have hv : k.config ≤ v.config := by simpa [Check.Fresh, hphase] using hfresh hk
    refine ⟨?_, hi.cache⟩
    apply checks_setPhase hi.checks
    intro w hw
    cases hw
    exact hv
  | setConfig cfg host saveErr =>
    refine ⟨?_, ?_⟩
    · intro k hk
      exact (hi.checks k hk).of_not_pending (hok k hk)
    · intro ip e he
      cases he
  | sweep now => exact ⟨hi.checks, hi.cache⟩

/-- If the configuration is set only when no check is on its way to a verdict, none uses a verdict
older than the configuration it started with. -/
theorem verdicts_current (go : Go) (f : Firewall) (s : State)
    (h : Reach (step go) Quiet (init f) s) : Current s := by
  have hinv : Inv s := invariant_of_reach (inv_init f) (fun _ _ _ hi hok hst => hi.step hok hst) h
  intro k hk
  exact (hinv.checks k hk).usesCurrent

/-! ## A configuration set during a query -/

def customProvider (url : String) : ProviderConfig :=
  { ProviderConfig.zero with mode := "custom", url := url, blockedPath := "blocked" }

def providerConfig (url : String) : Config where
  enabled := true
  controlPort := false
  webPort := false
  default := "allow"
  rules := []
  provider := customProvider url

def remoteHost : Host := ⟨[], fun _ _ => 0⟩

def setProvider (url : String) : Action := .setConfig (providerConfig url) remoteHost none

def Check.report (k : Check) : Nat × String × Option Verdict :=
  (k.config, k.firewall.provider.url,
    match k.phase with
    | .done _ used => used
    | _ => none)

def quietRun : List Action :=
  [setProvider "http://old/check", .allow "10.0.0.7:4000" 7000 100, .look 0 100,
    .store 0 (some (true, "listed")), setProvider "http://new/check", .close 0,
    .allow "10.0.0.7:4001" 7000 101, .look 1 101, .store 1 (some (false, "")), .close 1]

theorem verdicts_current_quietRun :
    ∃ s, Reach (step tableGo) Quiet (init openFirewall) s ∧ Current s ∧
      s.checks.map Check.report = [(1, "http://old/check", some ⟨true, "listed", 1⟩),
          (2, "http://new/check", some ⟨false, "", 2⟩)] := by
  have hreach : Reach (step tableGo) Quiet (init openFirewall)
      ((run (step tableGo) Quiet (init openFirewall) quietRun).getD (init openFirewall)) :=
    reach_getD_of_isSome (by decide +kernel)
  exact ⟨_, hreach, verdicts_current tableGo openFirewall _ hreach, by decide +kernel⟩

def staleRun : List Action :=
  [setProvider "http://old/check", .allow "10.0.0.7:4000" 7000 100, .look 0 100,
    setProvider "http://new/check", .allow "10.0.0.7:4001" 7000 101, .look 1 101,
    .store 0 (some (true, "listed")), .close 0, .wake 1, .look 1 102]

theorem old_verdict_used : ∃ s, Reach (step tableGo) anyAction (init openFirewall) s ∧ ¬ Current s ∧
      s.checks.map Check.report = [(1, "http://old/check", some ⟨true, "listed", 1⟩),
          (2, "http://new/check", some ⟨true, "listed", 1⟩)] := by
  have hreach : Reach (step tableGo) anyAction (init openFirewall)
      ((run (step tableGo) anyAction (init openFirewall) staleRun).getD (init openFirewall)) :=
    reach_getD_of_isSome (by decide +kernel)
  exact ⟨_, hreach, by decide +kernel, by decide +kernel⟩

/-- Here the first check is done, and the second waits for it. -/
def waiting : State :=
  (run (step tableGo) anyAction (init openFirewall) (staleRun.take 8)).getD (init openFirewall)

theorem reach_waiting : Reach (step tableGo) anyAction (init openFirewall) waiting :=
  reach_getD_of_isSome (by decide +kernel)

theorem decided_waiting : waiting.checks.length = 2 ∧ ∀ k ∈ waiting.checks, k.Decided tableGo :=
  ⟨by decide +kernel, decided_of_reach reach_waiting⟩

/-! ## One query for an address -/

@[simp]
def Phase.Querying : Phase → Prop
  | .querying _ => True
  | .asking | .waiting _ | .answered _ | .done _ _ => False

def Phased (checks : List Check) (c : Nat) (ip : String) (P : Phase → Prop) : Prop :=
  ∃ k, checks[c]? = some k ∧ k.ip = ip ∧ P k.phase

/-- An address is marked in flight exactly while a check queries it or stores the answer. -/
def Flight (repInFlight : String → Option Nat) (checks : List Check) : Prop :=
  ∀ ip c, repInFlight ip = some c ↔ Phased checks c ip Phase.Querying

def State.Stored (s : State) (c : Nat) (ip : String) : Prop :=
  ∃ e, s.repCache ip = some e ∧ Phased s.checks c ip (· = .answered e.verdict)

def Stores (go : Go) (s : State) (as : List Action) (c : Nat) (ip : String) : Prop :=
  ∃ pre answer post u, as = pre ++ .store c answer :: post ∧
    run (step go) anyAction s (pre ++ [.store c answer]) = some u ∧ u.Stored c ip

section Flight

variable {c c' owner : Nat} {ip : String} {P : Phase → Prop} {phase : Phase} {t : State}
  {checks : List Check} {inFlight : String → Option Nat}

theorem Phased.check (h : Phased checks c ip P) (hk : checks[c]? = some k) :
    k.ip = ip ∧ P k.phase := by
  obtain ⟨k', hk', hrest⟩ := h
  rw [hk] at hk'
  cases hk'
  exact hrest

theorem phased_set (hk : checks[c']? = some k) :
    Phased (checks.set c' { k with phase := phase }) c ip P ↔
      if c = c' then k.ip = ip ∧ P phase else Phased checks c ip P := by
  unfold Phased
  split_ifs with hc
  · subst hc
    simp [List.getElem?_set_self (List.getElem?_eq_some_iff.1 hk).1]
  · simp [List.getElem?_set_ne (Ne.symm hc)]

theorem phased_allow (hask : ¬ P .asking) (hdone : ∀ d u, ¬ P (.done d u)) :
    Phased (s.allow go remoteAddr port now).checks c ip P ↔ Phased s.checks c ip P := by
  by_cases hlt : c < s.checks.length
  · simp [Phased, State.allow, List.getElem?_append_left hlt]
  · constructor
    · rintro ⟨k, hk, -, hP⟩
      rw [State.allow, List.getElem?_append_right (Nat.not_lt.1 hlt)] at hk
      obtain rfl := List.mem_singleton.1 (List.mem_of_getElem? hk)
      dsimp only at hP
      split at hP
      · exact absurd hP (hdone _ _)
      · exact absurd hP hask
    · rintro ⟨k, hk, -⟩
      exact absurd (List.getElem?_eq_some_iff.1 hk).1 hlt

theorem Flight.move (h : Flight inFlight checks) (hk : checks[c']? = some k)
    (hold : ¬ k.phase.Querying) (hnew : ¬ phase.Querying) :
    Flight inFlight (checks.set c' { k with phase := phase }) := by
  intro ip c
  have hnone : inFlight ip ≠ some c' := fun hf => hold (((h ip c').1 hf).check hk).2
  rw [phased_set hk, ← h ip c]
  grind

theorem Flight.start (h : Flight inFlight checks) (hk : checks[c']? = some k)
    (hold : ¬ k.phase.Querying) (hfree : inFlight k.ip = none) (now : Int) :
    Flight (update inFlight k.ip (some c')) (checks.set c' { k with phase := .querying now }) := by
  intro ip c
  have hnone : inFlight ip ≠ some c' := fun hf => hold (((h ip c').1 hf).check hk).2
  rw [phased_set hk, ← h ip c, Phase.Querying]
  grind [update_apply]

theorem Flight.finish (h : Flight inFlight checks) (hk : checks[c']? = some k)
    (hold : k.phase.Querying) (hnew : ¬ phase.Querying) :
    Flight (update inFlight k.ip none) (checks.set c' { k with phase := phase }) := by
  intro ip c
  have hown : inFlight k.ip = some c' := (h _ _).2 ⟨k, hk, rfl, hold⟩
  have honly : inFlight ip = some c' → k.ip = ip := fun hf => (((h ip c').1 hf).check hk).1
  rw [phased_set hk, ← h ip c]
  grind [update_apply]

theorem flight_step (h : Flight s.repInFlight s.checks) (hstep : step go s a = some t) :
    Flight t.repInFlight t.checks := by
  cases trans_of_step hstep with
  | allow => exact fun ip c => (h ip c).trans (phased_allow (by simp) (by simp)).symm
  | look c k now hk hphase =>
    have hold : ¬ k.phase.Querying := by simp [hphase]
    unfold State.look
    split
    · exact h.move hk hold (by simp)
    · split
      · exact h.move hk hold (by simp)
      · next hfree => exact h.start hk hold hfree now
  | wake c k owner hk hphase => exact h.move hk (by simp [hphase]) (by simp)
  | store c k now answer hk hphase => exact h.finish hk (by simp [hphase]) (by simp)
  | close c k v hk hphase => exact h.move hk (by simp [hphase]) (by simp)
  | setConfig | sweep => exact h

theorem Phased.setPhase (h : Phased s.checks c ip P) (hk : s.checks[c']? = some k)
    (hnew : P k.phase → P phase) : Phased (s.setPhase c' k phase).checks c ip P := by
  refine (phased_set hk).2 ?_
  split_ifs with hc
  · subst hc
    exact (h.check hk).imp_right hnew
  · exact h

theorem querying_step (h : Phased s.checks owner ip Phase.Querying) (hstep : step go s a = some t) :
    Phased t.checks owner ip Phase.Querying ∨
      (∃ answer, a = .store owner answer) ∧ t.Stored owner ip := by
  cases trans_of_step hstep with
  | allow => exact .inl ((phased_allow (by simp) (by simp)).2 h)
  | look c' k now hk hphase =>
    unfold State.look
    split
    · exact .inl (h.setPhase hk (by simp [hphase]))
    · split <;> exact .inl (h.setPhase hk (by simp [hphase]))
  | wake c' k _ hk hphase | close c' k _ hk hphase => exact .inl (h.setPhase hk (by simp [hphase]))
  | store c' k now answer hk hphase =>
    by_cases hc : owner = c'
    · subst hc
      obtain ⟨rfl, -⟩ := h.check hk
      refine .inr ⟨⟨answer, rfl⟩, _, update_self .., (phased_set hk).2 ?_⟩
      simp
    · exact .inl ((phased_set hk).2 (by rwa [if_neg hc]))
  | setConfig | sweep => exact .inl h

theorem waiting_step (hf : Flight s.repInFlight s.checks) (hstep : step go s a = some t)
    (h : Phased t.checks c ip (· = .waiting owner)) :
    Phased s.checks c ip (· = .waiting owner) ∨ Phased s.checks owner ip Phase.Querying := by
  have hother : ∀ {c' k phase}, s.checks[c']? = some k → phase ≠ .waiting owner →
      Phased (s.setPhase c' k phase).checks c ip (· = .waiting owner) →
        Phased s.checks c ip (· = .waiting owner) := by
    intro c' k phase hk hnot hset
    have hset := (phased_set hk).1 hset
    split_ifs at hset with hc
    · exact absurd hset.2 hnot
    · exact hset
  cases trans_of_step hstep with
  | allow => exact .inl ((phased_allow (by simp) (by simp)).1 h)
  | look c' k now hk hphase =>
    unfold State.look at h
    split at h
    · exact .inl (hother hk (by simp) h)
    · split at h
      · next o hflight =>
        have hset := (phased_set hk).1 h
        split_ifs at hset with hc
        · obtain ⟨rfl, ⟨⟩⟩ := hset
          exact .inr ((hf _ _).1 hflight)
        · exact .inl hset
      · exact .inl (hother hk (by simp) h)
  | wake c' k _ hk | store c' k _ _ hk | close c' k _ hk => exact .inl (hother hk (by simp) h)
  | setConfig | sweep => exact .inl h

/-- Whom a check waits for has been to the cache and waits for nobody. -/
@[simp]
def Phase.Settled : Phase → Prop
  | .asking | .waiting _ => False
  | .querying _ | .answered _ | .done _ _ => True

theorem settled_step (h : Phased s.checks owner ip Phase.Settled) (hstep : step go s a = some t) :
    Phased t.checks owner ip Phase.Settled := by
  cases trans_of_step hstep with
  | allow =>
    obtain ⟨k, hk, hrest⟩ := h
    have hlt := (List.getElem?_eq_some_iff.1 hk).1
    exact ⟨k, (List.getElem?_append_left hlt).trans hk, hrest⟩
  | look c' k now hk hphase =>
    unfold State.look
    split
    · exact h.setPhase hk (by simp)
    · split <;> exact h.setPhase hk (by simp [hphase])
  | wake c' k _ hk hphase => exact h.setPhase hk (by simp [hphase])
  | store c' k _ _ hk | close c' k _ hk => exact h.setPhase hk (by simp)
  | setConfig | sweep => exact h

/-- A check that is not finished can go on, or the one that it waits for can. -/
theorem unfinished_goes_on (h : Reach (step go) anyAction (init f) s) (hk : s.checks[c]? = some k)
    (hphase : ∀ decision used, k.phase ≠ .done decision used) :
    ∃ c', (c' = c ∨ k.phase = .waiting c') ∧
      ∃ a ∈ [Action.look c' 0, .wake c', .store c' none, .close c'], (step go s a).isSome := by
  have hinv : Flight s.repInFlight s.checks ∧ ∀ c owner ip,
      Phased s.checks c ip (· = .waiting owner) → Phased s.checks owner ip Phase.Settled := by
    apply invariant_of_reach _ _ h
    · simp [Flight, init, Phased]
    · intro u a v hu _ hstep
      refine ⟨flight_step hu.1 hstep, fun c owner ip hw => settled_step ?_ hstep⟩
      rcases waiting_step hu.1 hstep hw with hw | ⟨k, hk, hip, hq⟩
      · exact hu.2 c owner ip hw
      · refine ⟨k, hk, hip, ?_⟩
        cases hp : k.phase <;> simp_all
  cases hp : k.phase with
  | asking | querying | answered => exact ⟨c, .inl rfl, by simp [step, hk, hp]⟩
  | waiting owner =>
    obtain ⟨o, ho, -, hs⟩ := hinv.2 c owner k.ip ⟨k, hk, rfl, hp⟩
    cases hop : o.phase with
    | asking | waiting => simp [hop] at hs
    | querying | answered => exact ⟨owner, .inr rfl, by simp [step, ho, hop]⟩
    | done =>
      obtain ⟨_, _, _, _, _, _, _⟩ := o
      subst hop
      exact ⟨c, .inl rfl, by simp [step, hk, hp, State.closed, ho]⟩
  | done => exact absurd hp (hphase _ _)

variable {as : List Action}

theorem Stores.cons (hstep : step go s a = some t) (h : Stores go t as c ip) :
    Stores go s (a :: as) c ip := by
  obtain ⟨pre, answer, post, u, rfl, hrun, hstored⟩ := h
  refine ⟨a :: pre, answer, post, u, rfl, ?_, hstored⟩
  simpa [run, anyAction, hstep] using hrun

theorem stored_of_run : ∀ {s : State} {S : Nat → String → Prop}, Flight s.repInFlight s.checks →
    (∀ c owner ip, Phased s.checks c ip (· = .waiting owner) →
      Phased s.checks owner ip Phase.Querying ∨ S owner ip) →
    run (step go) anyAction s as = some t →
    Flight t.repInFlight t.checks ∧ ∀ c owner ip, Phased t.checks c ip (· = .waiting owner) →
      Phased t.checks owner ip Phase.Querying ∨ S owner ip ∨ Stores go s as owner ip := by
  induction as with
  | nil =>
    intro s S hf hw hrun
    cases hrun
    exact ⟨hf, fun c owner ip h => (hw c owner ip h).imp_right .inl⟩
  | cons a as ih =>
    intro s S hf hw hrun
    cases hstep : step go s a with
    | none => simp [run, hstep] at hrun
    | some u =>
      simp only [run, anyAction, hstep, if_true] at hrun
      have hnext : ∀ c owner ip, Phased u.checks c ip (· = .waiting owner) →
          Phased u.checks owner ip Phase.Querying ∨ S owner ip ∨
            (∃ answer, a = .store owner answer) ∧ u.Stored owner ip := by
        intro c owner ip h
        rcases (waiting_step hf hstep h).elim (hw c owner ip) .inl with hq | hS
        · exact (querying_step hq hstep).imp_right .inr
        · exact .inr (.inl hS)
      obtain ⟨hflight, hlater⟩ := ih (flight_step hf hstep) hnext hrun
      refine ⟨hflight, fun c owner ip h => ?_⟩
      rcases hlater c owner ip h with hq | (hS | ⟨⟨answer, rfl⟩, hstored⟩) | hs
      · exact .inl hq
      · exact .inr (.inl hS)
      · refine .inr (.inr ⟨[], answer, as, u, rfl, ?_, hstored⟩)
        simp [run, anyAction, hstep]
      · exact .inr (.inr (hs.cons hstep))

/-- An address is marked in flight exactly while one check queries it or stores the answer, and a
check that waits goes on only after that answer is in the cache. -/
theorem single_flight (go : Go) (f : Firewall) (as : List Action) (s : State)
    (h : run (step go) anyAction (init f) as = some s) : Flight s.repInFlight s.checks ∧
      (∀ ip c c', Phased s.checks c ip Phase.Querying → Phased s.checks c' ip Phase.Querying →
        c = c') ∧
      ∀ c owner ip t, Phased s.checks c ip (· = .waiting owner) →
        step go s (.wake c) = some t → Stores go (init f) as owner ip := by
  obtain ⟨hflight, hwaits⟩ := stored_of_run (S := fun _ _ => False)
    (fun ip c => by simp [init, Phased]) (by simp [init, Phased]) h
  refine ⟨hflight, ?_, ?_⟩
  · intro ip c c' hc hc'
    have hmark := (hflight ip c).2 hc
    rw [(hflight ip c').2 hc'] at hmark
    exact (Option.some.inj hmark).symm
  · intro c owner ip t hw hwake
    obtain ⟨k, hk, hip, hphase⟩ := hw
    rcases hwaits c owner ip ⟨k, hk, hip, hphase⟩ with ⟨k', hk', -, hq⟩ | hS | hs
    · -- the channel of a query that is outstanding is open
      have hopen : s.closed owner = false := by
        obtain ⟨_, _, _, _, _, _, p⟩ := k'
        cases p with
        | querying now => simp [State.closed, hk']
        | asking | waiting | answered | done => exact hq.elim
      simp [step, hk, hphase, hopen] at hwake
    · exact hS.elim
    · exact hs

end Flight

deriving instance DecidableEq for Phase

theorem single_flight_staleRun :
    let s := (run (step tableGo) anyAction (init openFirewall) (staleRun.take 8)).getD
      (init openFirewall)
    s.closed 0 = true ∧ Stores tableGo (init openFirewall) (staleRun.take 8) 0 "" := by
  intro s
  have hrun : run (step tableGo) anyAction (init openFirewall) (staleRun.take 8) = some s :=
    (Option.some_get (by decide +kernel)).symm.trans (congrArg some (Option.get_eq_getD _))
  have hwaits : Phased s.checks 1 "" (· = .waiting 0) :=
    ⟨s.checks.get ⟨1, by decide +kernel⟩, List.getElem?_eq_getElem _, by decide +kernel,
      by decide +kernel⟩
  refine ⟨by decide +kernel, ?_⟩
  exact (single_flight tableGo openFirewall _ s hrun).2.2 1 0 _ _ hwaits
    (Option.some_get (by decide +kernel)).symm

theorem unfinished_goes_on_waiting : ∃ c', (c' = 1 ∨ Phase.waiting 0 = .waiting c') ∧
      ∃ a ∈ [Action.look c' 0, .wake c', .store c' none, .close c'],
        (step tableGo waiting a).isSome := by
  have hphase : (waiting.checks.get ⟨1, by decide +kernel⟩).phase = .waiting 0 := by decide +kernel
  rw [← hphase]
  exact unfinished_goes_on reach_waiting (List.getElem?_eq_getElem _)
    fun _ _ h => nomatch hphase.symm.trans h

end FrpMeo.Server.Firewall.Reputation
