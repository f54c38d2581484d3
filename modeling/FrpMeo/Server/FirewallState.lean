import FrpMeo.Server.PortSpec

/-!
# The firewall and its state file

How the firewall's configuration reaches the state file and comes back
(`server/firewall/firewall.go`, `server/api_firewall.go`): `SetConfig` changes the memory and saves,
`sweep` drops expired rules and saves, and `New` loads, drops and saves. A save writes a temporary
file and renames it.
-/

set_option linter.dupNamespace false

namespace FrpMeo.Server.Firewall

open Lib.Text Lib.Netip

/-! ## The file -/

def plainRules (rules : List CompiledRule) : List Rule := rules.map CompiledRule.rule

def Firewall.snapshot (f : Firewall) : Config where
  enabled := f.enabled
  controlPort := f.controlPort
  webPort := f.webPort
  default := f.defaultPolicy
  rules := plainRules f.rules
  provider := f.provider

def Firewall.state (f : Firewall) : State where
  enabled := some f.enabled
  controlPort := f.controlPort
  webPort := f.webPort
  default := f.defaultPolicy
  rules := plainRules f.rules
  provider := f.provider

/-- The step of a save that fails. A failed write leaves something in the temporary file. -/
inductive SaveFault where
  | marshal (err : String)
  | write (err : String) (left : StateFile)
  | rename (err : String)

structure Disk where
  file : StateFile
  tmp : StateFile

def Firewall.saveLocked (path : String) (f : Firewall) (d : Disk) (fault : Option SaveFault) :
    Disk × Option String :=
  if path = "" then (d, none)
  else match fault with
    | some (.marshal err) => (d, some err)
    | some (.write err left) => ({ d with tmp := left }, some err)
    | some (.rename err) => ({ d with tmp := .content f.state }, some err)
    | none => (⟨.content f.state, .notExist⟩, none)

structure Running where
  mem : Firewall
  disk : Disk

def Running.setConfig (go : Go) (path : String) (s : Running) (c : Config) (host : Host)
    (fault : Option SaveFault) : Running × Option String :=
  let saved := (s.mem.setConfig go c host none).1.saveLocked path s.disk fault
  let result := s.mem.setConfig go c host saved.2
  (⟨result.1, saved.1⟩, result.2)

/-- One round of `sweep`. It saves only if a rule was dropped, and no one hears of an error. -/
def Running.sweep (path : String) (s : Running) (now : Int) (fault : Option SaveFault) : Running :=
  let f := s.mem.prune now
  if s.mem.rules.any fun r => r.expired now then ⟨f, (f.saveLocked path s.disk fault).1⟩
  else { s with mem := f }

def Running.sweeps (path : String) (s : Running) (rounds : List (Int × Option SaveFault)) :
    Running :=
  rounds.foldl (fun s r => s.sweep path r.1 r.2) s

def restart (go : Go) (path : String) (d : Disk) (host : Host) (now : Int)
    (fault : Option SaveFault) : Except String Running :=
  (new go d.file host now).map fun f => ⟨f, (f.saveLocked path d fault).1⟩

/-! ## Decisions by rules and default policy -/

/-- The decision of `Allow` when the provider rejects nothing. -/
def Firewall.decision (go : Go) (f : Firewall) (now : Int) (remoteAddr : String) (port : Int) :
    Bool :=
  (f.allow go ⟨now, fun _ _ => (false, "")⟩ remoteAddr port).1

def decideRules (go : Go) (rules : List Rule) (now : Int) (ip : Option Addr) (port : Int) :
    Option Bool :=
  (rules.find? fun r =>
    !(compileRule go r 0).expired now && (compileRule go r 0).matches ip port).map fun r =>
      (compileRule go r 0).allow

def Config.decide (go : Go) (c : Config) (now : Int) (remoteAddr : String) (port : Int) : Bool :=
  !c.enabled ||
    (decideRules go c.rules now (parseAddr go remoteAddr) port).getD (c.default = "allow")

def Firewall.Compiled (go : Go) (f : Firewall) : Prop :=
  ∀ c ∈ f.rules, ∃ i, c = compileRule go c.rule i

variable {go : Go} {f : Firewall} {now later t port : Int} {path remoteAddr : String} {s : Running}
  {ip : Option Addr}

theorem compiled_compileRules {rules : List Rule} :
    ∀ c ∈ compileRules go rules, ∃ i, c = compileRule go c.rule i := by
  intro c hc
  obtain ⟨i, hi, hci⟩ := List.mem_mapIdx.1 hc
  refine ⟨i, ?_⟩
  rw [← hci]
  rfl

theorem plainRules_compileRules {rules : List Rule} :
    plainRules (compileRules go rules) = rules := by
  apply List.ext_getElem?
  intro i
  rw [plainRules, compileRules, List.getElem?_map, List.getElem?_mapIdx]
  cases rules[i]? <;> rfl

theorem find_compiled {rules : List CompiledRule}
    (h : ∀ c ∈ rules, ∃ i, c = compileRule go c.rule i) :
    (rules.find? fun r => !r.expired now && r.matches ip port).map CompiledRule.allow =
      decideRules go (plainRules rules) now ip port := by
  induction rules with
  | nil => rfl
  | cons c rules ih =>
    obtain ⟨i, hi⟩ := h c (by simp)
    have htest : (!c.expired now && c.matches ip port) =
        (!(compileRule go c.rule 0).expired now && (compileRule go c.rule 0).matches ip port) :=
      congrArg (fun c => !c.expired now && c.matches ip port) hi
    have hallow : c.allow = (compileRule go c.rule 0).allow :=
      (congrArg CompiledRule.allow hi).trans rfl
    have hrest := ih fun c' hc' => h c' (List.mem_cons_of_mem _ hc')
    rw [decideRules] at hrest ⊢
    rw [plainRules, List.map_cons, List.find?_cons, List.find?_cons, htest]
    cases (!(compileRule go c.rule 0).expired now && (compileRule go c.rule 0).matches ip port) with
    | true => simp [hallow]
    | false => exact hrest

theorem reputation_of_quiet : f.reputation go ⟨now, fun _ _ => (false, "")⟩ ip port = none := by
  cases ip with
  | none => rfl
  | some ip => by_cases h : f.asksProvider go ip port = true <;> simp [Firewall.reputation, h]

/-- The decision of a firewall is what its configuration says. -/
theorem decision_eq_decide (h : f.Compiled go) :
    f.decision go now remoteAddr port = f.snapshot.decide go now remoteAddr port := by
  rw [Config.decide, Firewall.snapshot, ← find_compiled h]
  unfold Firewall.decision Firewall.allow Firewall.firstMatch
  cases he : f.enabled with
  | false => simp
  | true =>
    cases hr : f.rules.find? fun r =>
      !r.expired now && r.matches (parseAddr go remoteAddr) port with
    | some r => simp [hr]
    | none => by_cases hd : f.defaultPolicy = "allow" <;> simp [hr, hd, reputation_of_quiet]

/-! ## Pruning -/

theorem CompiledRule.expired_mono {c : CompiledRule} (hle : now ≤ later)
    (h : c.expired now = true) : c.expired later = true := by
  simp only [CompiledRule.expired, Bool.and_eq_true, decide_eq_true_eq] at h ⊢
  exact ⟨h.1, h.2.trans hle⟩

theorem firstMatch_prune (hle : now ≤ later) :
    (f.prune now).firstMatch later ip port = f.firstMatch later ip port := by
  rw [Firewall.firstMatch, Firewall.firstMatch, Firewall.prune, List.find?_filter]
  congr 1
  funext r
  -- what was dropped would not match any more
  cases hr : r.expired now with
  | true => simp [CompiledRule.expired_mono hle hr]
  | false => simp

theorem allow_prune {m : Moment} (hle : now ≤ m.now) :
    (f.prune now).allow go m remoteAddr port = f.allow go m remoteAddr port := by
  simp only [Firewall.allow, firstMatch_prune hle]
  rfl

theorem decision_prune (hle : now ≤ later) :
    (f.prune now).decision go later remoteAddr port = f.decision go later remoteAddr port :=
  congrArg Prod.fst (allow_prune hle)

theorem Firewall.Compiled.prune (h : f.Compiled go) (now : Int) : (f.prune now).Compiled go := by
  intro c hc
  exact h c (List.mem_filter.1 hc).1

/-! ## Saving and loading -/

/-- The policy is one of the two texts, as `SetConfig` and the first load leave it. -/
def Firewall.PolicyNormal (f : Firewall) : Prop :=
  f.defaultPolicy = "allow" ∨ f.defaultPolicy = "deny"

theorem toLower_ascii {cm : CaseMap} {s : String} (h : s.toList.all (·.val < 128) = true) :
    toLower cm s = String.ofList (s.toList.map Char.toLower) := by
  rw [toLower]
  congr 1
  apply List.map_congr_left
  intro c hc
  exact cm.ascii c (of_decide_eq_true (List.all_eq_true.1 h c hc))

theorem loaded_policy {d : String} (h : d = "allow" ∨ d = "deny") :
    orDefault (toLower go.letters d) "allow" = d := by
  rcases h with rfl | rfl
  · rw [toLower_ascii (by decide)]
    decide
  · rw [toLower_ascii (by decide)]
    decide

variable {d : Disk} {fault : Option SaveFault}

theorem saveLocked_ok_iff : (f.saveLocked path d fault).2 = none ↔ path = "" ∨ fault = none := by
  unfold Firewall.saveLocked
  by_cases hpath : path = ""
  · simp [hpath]
  · cases fault with
    | none => simp [hpath]
    | some fault => cases fault <;> simp [hpath]

theorem saveLocked_error {err : String} (h : (f.saveLocked path d fault).2 = some err) :
    (f.saveLocked path d fault).1.file = d.file := by
  unfold Firewall.saveLocked at h ⊢
  by_cases hpath : path = ""
  · simp [hpath]
  · cases fault with
    | none => simp [hpath] at h
    | some fault => cases fault <;> simp [hpath]

theorem saveLocked_of_ok (hpath : path ≠ "") (h : (f.saveLocked path d fault).2 = none) :
    (f.saveLocked path d fault).1.file = .content f.state := by
  rcases saveLocked_ok_iff.1 h with h | h
  · exact absurd h hpath
  · simp [Firewall.saveLocked, hpath, h]

theorem saveLocked_file :
    (f.saveLocked path d fault).1.file = d.file ∨
      (f.saveLocked path d fault).1.file = .content f.state := by
  by_cases hpath : path = ""
  · simp [Firewall.saveLocked, hpath]
  · cases h : (f.saveLocked path d fault).2 with
    | none => exact .inr (saveLocked_of_ok hpath h)
    | some err => exact .inl (saveLocked_error h)

/-! ## A restart decides as the running firewall -/

/-- From a time on, the state file says what the memory says. -/
structure Running.InStep (go : Go) (t : Int) (s : Running) : Prop where
  compiled : s.mem.Compiled go
  normal : s.mem.PolicyNormal
  file : ∃ st, s.disk.file = .content st ∧ st.enabled = some s.mem.enabled ∧
    st.default = s.mem.defaultPolicy ∧
    ∀ later, t ≤ later → ∀ ip port,
      decideRules go st.rules later ip port =
        decideRules go (plainRules s.mem.rules) later ip port

theorem inStep_of_saved (hcompiled : f.Compiled go) (hnormal : f.PolicyNormal)
    (hfile : d.file = .content f.state) : Running.InStep go t ⟨f, d⟩ where
  compiled := hcompiled
  normal := hnormal
  file := ⟨f.state, hfile, rfl, rfl, fun _ _ _ _ => rfl⟩

theorem decideRules_prune (h : f.Compiled go) (hle : now ≤ later) :
    decideRules go (plainRules (f.prune now).rules) later ip port =
      decideRules go (plainRules f.rules) later ip port := by
  rw [← find_compiled h, ← find_compiled (h.prune now)]
  exact congrArg (Option.map CompiledRule.allow) (firstMatch_prune hle)

theorem Running.InStep.sweep (h : s.InStep go t) (hle : now ≤ t) (fault : Option SaveFault) :
    (s.sweep path now fault).InStep go t := by
  -- the file of before the round is still in step, since the dropped rules had expired by `t`
  have hold : ∀ d : Disk, d.file = s.disk.file →
      Running.InStep go t ⟨s.mem.prune now, d⟩ := by
    intro d hd
    obtain ⟨st, hfile, henabled, hdefault, hrules⟩ := h.file
    refine ⟨h.compiled.prune now, h.normal, st, hd.trans hfile, henabled, hdefault, ?_⟩
    intro later hlater ip port
    rw [decideRules_prune h.compiled (hle.trans hlater)]
    exact hrules later hlater ip port
  unfold Running.sweep
  by_cases hany : (s.mem.rules.any fun r => r.expired now) = true
  · rw [if_pos hany]
    rcases saveLocked_file with hsame | hnew
    · exact hold _ hsame
    · exact inStep_of_saved (h.compiled.prune now) h.normal hnew
  · rw [if_neg hany]
    exact hold s.disk rfl

variable {rounds : List (Int × Option SaveFault)}

theorem Running.InStep.sweeps (h : s.InStep go t)
    (hle : ∀ r ∈ rounds, r.1 ≤ t) : (s.sweeps path rounds).InStep go t := by
  induction rounds generalizing s with
  | nil => exact h
  | cons r rounds ih =>
    have hstep : (s.sweep path r.1 r.2).InStep go t := h.sweep (hle r (by simp)) r.2
    exact ih hstep fun q hq => hle q (List.mem_cons_of_mem _ hq)

theorem decision_sweeps (hle : ∀ r ∈ rounds, r.1 ≤ later) :
    (s.sweeps path rounds).mem.decision go later remoteAddr port =
      s.mem.decision go later remoteAddr port := by
  induction rounds generalizing s with
  | nil => rfl
  | cons r rounds ih =>
    have hstep : (s.sweep path r.1 r.2).mem = s.mem.prune r.1 := by
      unfold Running.sweep
      split_ifs <;> rfl
    have hrest := ih (s := s.sweep path r.1 r.2) fun q hq => hle q (List.mem_cons_of_mem _ hq)
    rw [Running.sweeps, List.foldl_cons]
    exact hrest.trans (by rw [hstep, decision_prune (hle r (by simp))])

/-- A firewall that is loaded from a file in step with the memory decides as the memory does. -/
theorem Running.InStep.restart (h : s.InStep go t) (path : String) (host : Host)
    (fault : Option SaveFault) : ∃ g, restart go path s.disk host t fault = .ok g ∧
      ∀ later, t ≤ later → ∀ remoteAddr port,
        g.mem.decision go later remoteAddr port = s.mem.decision go later remoteAddr port := by
  obtain ⟨st, hfile, henabled, hdefault, hrules⟩ := h.file
  unfold Firewall.restart new load
  rw [hfile]
  refine ⟨_, rfl, ?_⟩
  intro later hlater remoteAddr port
  -- the loaded firewall is `loaded`, pruned; finding the provider's port touches no decision
  let loaded : Firewall :=
    { enabled := st.enabled.getD true
      controlPort := st.controlPort
      webPort := st.webPort
      defaultPolicy := orDefault (toLower go.letters st.default) "allow"
      rules := compileRules go st.rules
      provider := withMode st.provider
      selfProviderPort := 0
      localIPs := [] }
  have hloaded : loaded.Compiled go := compiled_compileRules
  have hpruned : ((loaded.prune t).resolveSelfProvider host).Compiled go := hloaded.prune t
  have hsame : ((loaded.prune t).resolveSelfProvider host).snapshot = (loaded.prune t).snapshot :=
    rfl
  calc ((loaded.prune t).resolveSelfProvider host).decision go later remoteAddr port
      = (loaded.prune t).snapshot.decide go later remoteAddr port := by
        rw [decision_eq_decide hpruned, hsame]
    _ = loaded.decision go later remoteAddr port := by
        rw [← decision_eq_decide (hloaded.prune t), decision_prune hlater]
    _ = s.mem.decision go later remoteAddr port := by
        rw [decision_eq_decide hloaded, decision_eq_decide h.compiled, Config.decide,
          Config.decide]
        have hpolicy : loaded.defaultPolicy = s.mem.defaultPolicy := by
          change orDefault (toLower go.letters st.default) "allow" = s.mem.defaultPolicy
          rw [hdefault]
          exact loaded_policy h.normal
        have henabled' : loaded.enabled = s.mem.enabled := by
          change st.enabled.getD true = s.mem.enabled
          rw [henabled]
          rfl
        have hplain : plainRules loaded.rules = st.rules := plainRules_compileRules
        rw [Firewall.snapshot, Firewall.snapshot, hplain, hpolicy, henabled', hrules later hlater]

def Config.normalise (go : Go) (c : Config) : Config :=
  let d := toLower go.letters c.default
  { c with
    default := if d ≠ "allow" ∧ d ≠ "deny" then "allow" else d
    provider := withMode c.provider }

variable {c : Config} {host : Host} {saveErr : Option String}

theorem snapshot_setConfig (f : Firewall) (host : Host) (saveErr : Option String) :
    (f.setConfig go c host saveErr).1.snapshot = c.normalise go := by
  simp only [Firewall.setConfig, Firewall.resolveSelfProvider, Firewall.snapshot, Config.normalise,
    plainRules_compileRules]

theorem compiled_setConfig : (f.setConfig go c host saveErr).1.Compiled go :=
  compiled_compileRules

theorem normal_setConfig : (f.setConfig go c host saveErr).1.PolicyNormal := by
  have hpolicy : (f.setConfig go c host saveErr).1.defaultPolicy = (c.normalise go).default :=
    congrArg Config.default (snapshot_setConfig f host saveErr)
  rw [Firewall.PolicyNormal, hpolicy, Config.normalise]
  by_cases hallow : toLower go.letters c.default = "allow"
  · simp [hallow]
  · by_cases hdeny : toLower go.letters c.default = "deny"
    · simp [hdeny]
    · simp [hallow, hdeny]

/-- After a configuration was set without an error, and any rounds of `sweep`, a firewall loaded
from the state file decides as the running one. Pruning alone changes no decision. -/
theorem restart_decides_alike (go : Go) {path : String} (hpath : path ≠ "") (s : Running)
    (c : Config) (host : Host) (fault : Option SaveFault)
    (hset : (s.setConfig go path c host fault).2 = none) (t : Int)
    (rounds : List (Int × Option SaveFault)) (hrounds : ∀ r ∈ rounds, r.1 ≤ t)
    (host' : Host) (fault' : Option SaveFault) :
    (∃ g, restart go path (((s.setConfig go path c host fault).1.sweeps path rounds).disk) host' t
          fault' = .ok g ∧
        ∀ later, t ≤ later → ∀ more more' : List (Int × Option SaveFault),
          (∀ r ∈ more, r.1 ≤ later) → (∀ r ∈ more', r.1 ≤ later) → ∀ remoteAddr port,
            (g.sweeps path more').mem.decision go later remoteAddr port =
              (((s.setConfig go path c host fault).1.sweeps path rounds).sweeps path
                more).mem.decision go later remoteAddr port) ∧
      ∀ (f : Firewall) (now : Int) (m : Moment), now ≤ m.now → ∀ remoteAddr port,
        (f.prune now).allow go m remoteAddr port = f.allow go m remoteAddr port := by
  have hfile := saveLocked_of_ok hpath hset
  have hstep : (s.setConfig go path c host fault).1.InStep go t :=
    inStep_of_saved compiled_setConfig normal_setConfig hfile
  obtain ⟨g, hg, hdecides⟩ := (hstep.sweeps hrounds).restart path host' fault'
  refine ⟨⟨g, hg, ?_⟩, ?_⟩
  · intro later hlater more more' hmore hmore' remoteAddr port
    rw [decision_sweeps hmore', decision_sweeps hmore]
    exact hdecides later hlater remoteAddr port
  · intro f now m hle remoteAddr port
    exact allow_prune hle

def quietHost : Host := ⟨[], fun _ _ => 0⟩

def closedConfig : Config :=
  ⟨true, false, false, "DENY", [⟨"guest", "allow", "10.0.0.0/8", "all", "", 100⟩],
    ProviderConfig.zero⟩

def openRunning : Running := ⟨openFirewall, ⟨.content openFirewall.state, .notExist⟩⟩

theorem restart_decides_alike_expired :
    (openRunning.setConfig tableGo "fw.json" closedConfig quietHost none).2 = none ∧
      ∃ g, restart tableGo "fw.json" (((openRunning.setConfig tableGo "fw.json" closedConfig
          quietHost none).1.sweeps "fw.json" [(150, some (.rename "busy"))]).disk) quietHost 200
          none = .ok g ∧
        g.mem.decision tableGo 250 "10.0.0.7:5555" 6001 = false := by
  have hset : (openRunning.setConfig tableGo "fw.json" closedConfig quietHost none).2 = none := rfl
  have hdenied : ((openRunning.setConfig tableGo "fw.json" closedConfig quietHost none).1.sweeps
      "fw.json" [(150, some (.rename "busy"))]).mem.decision tableGo 250 "10.0.0.7:5555" 6001 =
        false := by decide +kernel
  obtain ⟨⟨g, hg, hdecides⟩, -⟩ := restart_decides_alike tableGo (by decide) openRunning
    closedConfig quietHost none hset 200 [(150, some (.rename "busy"))] (by simp) quietHost none
  refine ⟨hset, g, hg, ?_⟩
  have hsame := hdecides 250 (by decide) [] [] (by simp) (by simp) "10.0.0.7:5555" 6001
  exact hsame.trans hdenied

/-! ## A save that fails -/

def Config.prune (c : Config) (now : Int) : Config :=
  { c with rules := c.rules.filter fun r => !(r.expiresAt != 0 && r.expiresAt ≤ now) }

theorem snapshot_prune :
    (f.prune now).snapshot = f.snapshot.prune now := by
  have hrules : plainRules (f.rules.filter fun r => !r.expired now) =
      (plainRules f.rules).filter fun r => !(r.expiresAt != 0 && r.expiresAt ≤ now) := by
    rw [plainRules, plainRules, List.filter_map]
    rfl
  simp only [Firewall.snapshot, Firewall.prune, Config.prune, hrules]

variable {g : Firewall}

theorem compiled_new {file : StateFile} (h : new go file host now = .ok g) : g.Compiled go := by
  cases file with
  | content st =>
    obtain rfl := Except.ok.inj h
    intro c hc
    exact compiled_compileRules c (List.mem_filter.1 hc).1
  | notExist =>
    obtain rfl := Except.ok.inj h
    intro c hc
    cases hc
  | malformed | unreadable => cases h

def Running.FileLoads (go : Go) (s : Running) : Prop :=
  ∀ now host, ∃ g, new go s.disk.file host now = .ok g ∧ g.snapshot = (s.mem.prune now).snapshot

/-- The configuration in memory and the decisions are those of `s`, and a restart finds the same. -/
structure Running.Keeps (go : Go) (s s' : Running) : Prop where
  snapshot : s'.mem.snapshot = s.mem.snapshot
  decisions : ∀ now remoteAddr port,
    s'.mem.decision go now remoteAddr port = s.mem.decision go now remoteAddr port
  restart : ∀ now host, ∃ g, new go s'.disk.file host now = .ok g ∧
    g.snapshot = (s'.mem.prune now).snapshot ∧
    ∀ later, now ≤ later → ∀ remoteAddr port,
      g.decision go later remoteAddr port = s'.mem.decision go later remoteAddr port

theorem decision_eq_of_snapshot (hf : f.Compiled go) (hg : g.Compiled go)
    (h : g.snapshot = f.snapshot) :
    g.decision go now remoteAddr port = f.decision go now remoteAddr port := by
  rw [decision_eq_decide hf, decision_eq_decide hg, h]

/-- A failing `SetConfig` changes nothing exactly when the new configuration is the one in memory
and in the file. -/
theorem setConfig_error_keeps_iff (go : Go) (path : String) (s : Running)
    (hcompiled : s.mem.Compiled go) (c : Config) (host : Host) (fault : Option SaveFault) :
    (∀ err, (s.setConfig go path c host fault).2 = some err →
        s.Keeps go (s.setConfig go path c host fault).1) ↔
      (path = "" ∨ fault = none) ∨ c.normalise go = s.mem.snapshot ∧ s.FileLoads go := by
  let f' := (s.mem.setConfig go c host none).1
  have hsnapshot : (s.setConfig go path c host fault).1.mem.snapshot = c.normalise go :=
    snapshot_setConfig s.mem host none
  have hcompiled' : (s.setConfig go path c host fault).1.mem.Compiled go :=
    compiled_compileRules
  constructor
  · intro h
    cases herr : (f'.saveLocked path s.disk fault).2 with
    | none => exact .inl (saveLocked_ok_iff.1 herr)
    | some err =>
      right
      obtain ⟨hsame, -, hrestart⟩ := h err herr
      refine ⟨hsnapshot.symm.trans hsame, ?_⟩
      intro now host'
      obtain ⟨g, hg, hloaded, -⟩ := hrestart now host'
      refine ⟨g, ?_, ?_⟩
      · rw [← hg, ← saveLocked_error herr]
        rfl
      · rw [hloaded, snapshot_prune, snapshot_prune, hsame]
  · intro h err herr
    rcases h with hok | ⟨hsame, hloads⟩
    · have hnone : (f'.saveLocked path s.disk fault).2 = none := saveLocked_ok_iff.2 hok
      exact absurd (hnone.symm.trans herr) (by simp)
    · have hback : (s.setConfig go path c host fault).1.mem.snapshot = s.mem.snapshot :=
        hsnapshot.trans hsame
      have hfile : (s.setConfig go path c host fault).1.disk.file = s.disk.file :=
        saveLocked_error herr
      refine ⟨hback, fun _ _ _ => decision_eq_of_snapshot hcompiled hcompiled' hback, ?_⟩
      intro now host'
      obtain ⟨g, hg, hloaded⟩ := hloads now host'
      rw [hfile]
      have hpruned : g.snapshot =
          ((s.setConfig go path c host fault).1.mem.prune now).snapshot := by
        rw [hloaded, snapshot_prune, snapshot_prune, hback]
      refine ⟨g, hg, hpruned, ?_⟩
      intro later hlater remoteAddr port
      rw [decision_eq_of_snapshot (hcompiled'.prune now) (compiled_new hg) hpruned,
        decision_prune hlater]

/-- Setting the configuration that is in place is harmless, whether or not it is saved. -/
theorem setConfig_error_keeps_same :
    ∃ err, (openRunning.setConfig tableGo "fw.json" openFirewall.snapshot quietHost
          (some (.rename "busy"))).2 = some err ∧
        openRunning.Keeps tableGo (openRunning.setConfig tableGo "fw.json" openFirewall.snapshot
          quietHost (some (.rename "busy"))).1 := by
  refine ⟨"busy", rfl, ?_⟩
  have hcompiled : openRunning.mem.Compiled tableGo := by
    intro c hc
    cases hc
  have hloads : openRunning.FileLoads tableGo := fun now host => ⟨_, rfl, rfl⟩
  exact (setConfig_error_keeps_iff tableGo "fw.json" openRunning hcompiled openFirewall.snapshot
    quietHost (some (.rename "busy"))).2 (.inr ⟨rfl, hloads⟩) "busy" rfl

/-- A failed save is reported, but the firewall denies from then on, while a restart would allow. -/
theorem setConfig_error_applies :
    let s := (openRunning.setConfig tableGo "fw.json" closedConfig quietHost
      (some (.rename "busy")))
    s.2 = some "busy" ∧ openFirewall.decision tableGo 250 "10.0.0.7:5555" 6001 = true ∧
      s.1.mem.decision tableGo 250 "10.0.0.7:5555" 6001 = false ∧
      s.1.mem.snapshot.default = "deny" ∧
      ∃ g, new tableGo s.1.disk.file quietHost 250 = .ok g ∧
        g.decision tableGo 250 "10.0.0.7:5555" 6001 = true := by
  refine ⟨rfl, by decide +kernel, by decide +kernel, by decide +kernel, _, rfl, by decide +kernel⟩

end FrpMeo.Server.Firewall
