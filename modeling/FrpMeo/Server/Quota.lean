import FrpMeo.Server.Registration

/-!
# Counting the ports of a client

With `MaxPortsPerClient` set, `RegisterProxy` reserves what a proxy declares and takes it back on
any error; `CloseProxy` gives it back (`server/control.go`). A run is one of a single control;
others change the resources in any way but keep its names. An mc proxy declares no port and takes
one, and a tcp+udp proxy whose UDP socket fails leaves its listener open.
-/

namespace FrpMeo.Server.Register

open Lib.Transition Lib.Unwind
open Vhost (Go)

/-! ## The ports a run takes -/

def newlyOpen (r r' : Resources) : Multiset Int :=
  (r'.tcp.listeners - r.tcp.listeners) + (r'.udp.conns - r.udp.conns)

/-- The proxy takes the ports it declares, and keeps none when it fails. -/
def ProxyConf.Declares (env : Env) (name : String) (r : Resources) : ProxyConf → Prop
  | .mc _ _ => False
  | .tcpudp remotePort =>
      ∀ p, (r.tcp.ports.acquire name remotePort env.tcp).2 = .ok p → p ≠ 0 ∧
        ∀ q, (r.udp.ports.acquire name p env.udp).2 = .ok q →
          env.listenTCP p = .ok () → env.openUDP p = .ok ()
  | _ => True

structure Ran (conf : ProxyConf) (r : Resources) (result : Resources × Except String Running) :
    Prop where
  declared : ∀ running, result.2 = .ok running →
    (running.publicPorts.card : Int) ≤ conf.usedPortsNum
  closed : ∀ err, result.2 = .error err → newlyOpen r result.1 = 0

variable {r r' : Resources} {conf : ProxyConf} {env : Env} {name : String} {ctl : Control}
  {pxy : Proxy}

theorem newlyOpen_self (htcp : r'.tcp.listeners = r.tcp.listeners)
    (hudp : r'.udp.conns = r.udp.conns) : newlyOpen r r' = 0 := by
  simp [newlyOpen, htcp, hudp]

theorem ran_error {err : String} (htcp : r'.tcp.listeners = r.tcp.listeners)
    (hudp : r'.udp.conns = r.udp.conns) : Ran conf r (r', .error err) where
  declared := by
    intro running h
    cases h
  closed := fun _ _ => newlyOpen_self htcp hudp

theorem ran_ok {running : Running} (h : (running.publicPorts.card : Int) ≤ conf.usedPortsNum) :
    Ran conf r (r', .ok running) where
  declared := by
    intro running' hrunning
    cases hrunning
    exact h
  closed := by
    intro err herr
    cases herr

theorem usedPortsNum_nonneg (conf : ProxyConf) : 0 ≤ conf.usedPortsNum := by
  cases conf with
  | tcp | udp | pe | tcpudp => exact zero_le_one
  | http | https | tcpmux | mc | stcp | sudp | stcpsudp | xtcp | xudp | xtcpxudp => exact le_refl 0

theorem ran_of_aside {result : Resources × Except String Running} (h : Aside r result) :
    Ran conf r result where
  declared := by
    intro running hrunning
    rw [h.publicPorts running hrunning]
    exact usedPortsNum_nonneg conf
  closed := by
    intro err _
    apply newlyOpen_self
    · rw [h.tcp]
    · rw [h.udp]

theorem Tcp.listeners_of_groupListen_error {addr err : String} {lb : LoadBalancer} {port : Int}
    {t t' : Tcp} (h : t.groupListen env name lb addr port = (t', .error err)) :
    t'.listeners = t.listeners := by
  unfold Tcp.groupListen at h
  dsimp only [Tcp.setGroup] at h
  split_ifs at h
  · -- the first listener: no port, or no listening on it
    split at h
    · cases h
      rfl
    · split at h
      · cases h
        rfl
      · cases h
  · cases h
    rfl
  · cases h
    rfl
  · cases h
    rfl
  · cases h

theorem ran_tcpRun {s : ServerConfig} {remotePort : Int} {lb : LoadBalancer} :
    Ran (.tcp remotePort lb) r (tcpRun s env name remotePort lb r) := by
  unfold tcpRun
  split_ifs
  · split
    · next t err hop => exact ran_error (Tcp.listeners_of_groupListen_error hop) rfl
    · apply ran_ok
      simp [Running.publicPorts, ProxyConf.usedPortsNum]
  · split
    · exact ran_error rfl rfl
    · split
      · exact ran_error rfl rfl
      · apply ran_ok
        simp [Running.publicPorts, ProxyConf.usedPortsNum]

theorem ran_udpRun {remotePort : Int} (hnum : conf.usedPortsNum = 1) :
    Ran conf r (udpRun env name remotePort r) := by
  unfold udpRun
  split
  · exact ran_error rfl rfl
  · split
    · exact ran_error rfl rfl
    · apply ran_ok
      simp [Running.publicPorts, hnum]

theorem ran_tcpudpRun {remotePort : Int} (h : (ProxyConf.tcpudp remotePort).Declares env name r) :
    Ran (.tcpudp remotePort) r (tcpudpRun env name remotePort r) := by
  unfold tcpudpRun
  split
  · exact ran_error rfl rfl
  · next m p hacq =>
    obtain ⟨hp, hudp⟩ := h p (congrArg Prod.snd hacq)
    split
    · exact ran_error rfl rfl
    · next m' q hacq' =>
      split
      · exact ran_error rfl rfl
      · next hlisten =>
        split
        · next err hopen =>
          -- the listener is open, so the socket opens too
          rw [hudp q (congrArg Prod.snd hacq') hlisten] at hopen
          cases hopen
        · apply ran_ok
          simp [Running.publicPorts, bound, hp, ProxyConf.usedPortsNum]

theorem ran_run {go : Go} {s : ServerConfig} (h : conf.Declares env name r) :
    Ran conf r (conf.run go s env name r) := by
  cases conf with
  | tcp remotePort lb => exact ran_tcpRun
  | udp remotePort | pe remotePort => exact ran_udpRun rfl
  | tcpudp remotePort => exact ran_tcpudpRun h
  | mc remotePort domains => exact h.elim
  | http | https | tcpmux | stcp | sudp | stcpsudp | xtcp | xudp | xtcpxudp =>
    exact ran_of_aside (aside_run rfl (by simp))

theorem pxys_run (go : Go) (s : ServerConfig) (env : Env) (name : String) (r : Resources)
    (conf : ProxyConf) : (conf.run go s env name r).1.pxys = r.pxys := by
  cases conf with
  | tcp =>
    simp only [ProxyConf.run, tcpRun]
    split_ifs
    · split <;> rfl
    · split
      · rfl
      · split <;> rfl
  | udp | pe =>
    simp only [ProxyConf.run, udpRun]
    split
    · rfl
    · split <;> rfl
  | tcpudp =>
    simp only [ProxyConf.run, tcpudpRun]
    split
    · rfl
    · split
      · rfl
      · split
        · rfl
        · split <;> rfl
  | mc =>
    simp only [ProxyConf.run, mcRun]
    split <;> rfl
  | http | https | tcpmux | stcp | sudp | stcpsudp | xtcp | xudp | xtcpxudp =>
    exact (aside_run rfl (by simp)).pxys

theorem pxys_close {go : Go} {now : Int} {running : Running} :
    (running.close go now name r).pxys = r.pxys := by
  cases running with
  | tcp | tcpMember | udp | tcpudp | http | mux | mc | visitor | client | visitorAndClient => rfl

/-! ## What a control has declared -/

def Control.declared (ctl : Control) : Int :=
  (ctl.proxies.map fun entry => entry.2.conf.usedPortsNum).sum

def Control.publicPorts (ctl : Control) : Finset Int :=
  ctl.proxies.foldr (fun entry ports => entry.2.running.publicPorts ∪ ports) ∅

@[simp] theorem Control.proxies_count {s : ServerConfig} {n : Int} :
    (ctl.count s n).proxies = ctl.proxies := by
  unfold Control.count
  split_ifs <;> rfl

theorem Control.portsUsedNum_count {s : ServerConfig} {n : Int} (hs : 0 < s.maxPortsPerClient) :
    (ctl.count s n).portsUsedNum = ctl.portsUsedNum + n := by
  simp [Control.count, hs]

@[simp] theorem Control.declared_count {s : ServerConfig} {n : Int} :
    (ctl.count s n).declared = ctl.declared := by
  simp [Control.declared]

variable {entries : List (String × Proxy)}

theorem filter_ne_eq_self (h : name ∉ entries.map Prod.fst) :
    (entries.filter fun entry => entry.1 ≠ name) = entries := by
  apply List.filter_eq_self.2
  intro entry hentry
  have hne : entry.1 ≠ name := by
    intro hname
    exact h (List.mem_map.2 ⟨entry, hentry, hname⟩)
  simpa using hne

theorem Control.proxies_delete (h : name ∉ ctl.proxies.map Prod.fst) :
    (ctl.delete name).proxies = ctl.proxies :=
  filter_ne_eq_self h

theorem Control.declared_store (h : name ∉ ctl.proxies.map Prod.fst) :
    (ctl.store name pxy).declared = ctl.declared + pxy.conf.usedPortsNum := by
  simp only [Control.declared, Control.store, Control.proxies_delete h, List.map_cons,
    List.sum_cons]
  omega

theorem sum_filter_of_find (hdistinct : (entries.map Prod.fst).Nodup)
    (h : (entries.find? fun entry => entry.1 == name).map Prod.snd = some pxy) :
    ((entries.filter fun entry => entry.1 ≠ name).map
      fun entry => entry.2.conf.usedPortsNum).sum + pxy.conf.usedPortsNum =
      (entries.map fun entry => entry.2.conf.usedPortsNum).sum := by
  induction entries with
  | nil => cases h
  | cons entry entries ih =>
    rw [List.map_cons, List.nodup_cons] at hdistinct
    by_cases hname : entry.1 = name
    · -- no other entry has this name
      have hrest := filter_ne_eq_self (hname ▸ hdistinct.1)
      have hpxy : entry.2 = pxy := by simpa [hname] using h
      simp only [List.filter_cons, hname, ne_eq, not_true_eq_false, decide_false,
        Bool.false_eq_true, if_false, List.map_cons, List.sum_cons]
      rw [hrest, ← hpxy]
      omega
    · have hrest : (entries.find? fun entry => entry.1 == name).map Prod.snd = some pxy := by
        simpa [hname] using h
      have hsum := ih hdistinct.2 hrest
      simp only [List.filter_cons, hname, ne_eq, not_false_eq_true, decide_true, if_true,
        List.map_cons, List.sum_cons] at hsum ⊢
      omega

theorem Control.declared_delete (h : ctl.proxy name = some pxy) :
    (ctl.delete name).declared + pxy.conf.usedPortsNum = ctl.declared :=
  sum_filter_of_find ctl.distinct h

theorem Control.mem_of_proxy (h : ctl.proxy name = some pxy) :
    ∃ entry ∈ ctl.proxies, entry.2 = pxy := by
  obtain ⟨entry, hfind, hpxy⟩ := Option.map_eq_some_iff.1 h
  exact ⟨entry, List.mem_of_find?_eq_some hfind, hpxy⟩

def Proxy.Within (pxy : Proxy) : Prop :=
  (pxy.running.publicPorts.card : Int) ≤ pxy.conf.usedPortsNum

theorem Control.card_publicPorts_le (h : ∀ entry ∈ ctl.proxies, entry.2.Within) :
    (ctl.publicPorts.card : Int) ≤ ctl.declared := by
  unfold Control.publicPorts Control.declared
  revert h
  -- on the list of proxies alone: that the names are distinct plays no part
  induction ctl.proxies with
  | nil =>
    intro _
    exact le_refl 0
  | cons entry entries ih =>
    intro h
    have hrest := ih (fun other hother => h other (List.mem_cons_of_mem entry hother))
    have hentry : _ ≤ _ := h entry List.mem_cons_self
    have hunion := Finset.card_union_le entry.2.running.publicPorts
      (entries.foldr (fun entry ports => entry.2.running.publicPorts ∪ ports) ∅)
    simp only [List.foldr_cons, List.map_cons, List.sum_cons]
    omega

end FrpMeo.Server.Register

namespace FrpMeo.Server.Quota

open Lib.Transition
open Server.Register hiding Call
open Vhost (Go)

/-! ## The control between its steps -/

inductive Phase where
  | idle
  /-- `RegisterProxy` has reserved the ports. -/
  | reserved (msg : NewProxy)
  | ran (msg : NewProxy) (running : Running)
  /-- `CloseProxy` has deleted the proxy from the map. -/
  | closing (name : String) (pxy : Proxy)

structure State where
  resources : Resources
  control : Control
  phase : Phase
  /-- The ports of the listeners and sockets that a `Run` has left open. -/
  left : Multiset Int

def State.new (r : Resources) : State := ⟨r, .new, .idle, 0⟩

inductive Action where
  /-- The first part of `RegisterProxy`. -/
  | reserve (msg : NewProxy)
  /-- `Exist` and `Run`. -/
  | run (env : Env)
  /-- `Add`, and what follows it. -/
  | add (now : Int)
  /-- The part of `CloseProxy` that holds the lock. -/
  | delete (name : String)
  /-- `closeProxy`. -/
  | close (now : Int)
  | others (r : Resources)

/-- The deferred function of `RegisterProxy`. -/
def rollback (s : ServerConfig) (ctl : Control) (conf : ProxyConf) : Control :=
  ctl.count s (-conf.usedPortsNum)

def step (go : Go) (s : ServerConfig) (σ : State) : Action → Option State
  | .reserve msg =>
      match σ.phase with
      | .idle =>
          match msg.validate s with
          | .error _ => some σ
          | .ok () =>
              if σ.control.exceeds s msg.conf then some σ
              else some { σ with
                control := σ.control.count s msg.conf.usedPortsNum
                phase := .reserved msg }
      | _ => none
  | .run env =>
      match σ.phase with
      | .reserved msg =>
          if msg.proxyName ∈ σ.resources.pxys then
            some { σ with control := rollback s σ.control msg.conf, phase := .idle }
          else
            match msg.conf.run go s env msg.proxyName σ.resources with
            | (r, .error _) =>
                some ⟨r, rollback s σ.control msg.conf, .idle, σ.left + newlyOpen σ.resources r⟩
            | (r, .ok running) => some { σ with resources := r, phase := .ran msg running }
      | _ => none
  | .add now =>
      match σ.phase with
      | .ran msg running =>
          match addProxy msg.proxyName false σ.resources with
          | (r, .error _) =>
              some { σ with
                resources := running.close go now msg.proxyName r
                control := rollback s σ.control msg.conf
                phase := .idle }
          | (r, .ok ()) =>
              some { σ with
                resources := r
                control := σ.control.store msg.proxyName ⟨msg.conf, running⟩
                phase := .idle }
      | _ => none
  | .delete name =>
      match σ.phase with
      | .idle =>
          match σ.control.proxy name with
          | none => some σ
          | some pxy =>
              some { σ with
                control := rollback s (σ.control.delete name) pxy.conf
                phase := .closing name pxy }
      | _ => none
  | .close now =>
      match σ.phase with
      | .closing name pxy =>
          some { σ with
            resources := closeProxy go now name pxy.running σ.resources
            phase := .idle }
      | _ => none
  | .others r =>
      -- a control removes only names that it has added itself
      if ∀ entry ∈ σ.control.proxies, entry.1 ∈ r.pxys then some { σ with resources := r } else none

inductive Trans (go : Go) (s : ServerConfig) (σ : State) : Action → State → Prop where
  | refused (msg : NewProxy) : Trans go s σ (.reserve msg) σ
  | reserved (msg : NewProxy) (hphase : σ.phase = .idle)
      (hquota : σ.control.exceeds s msg.conf = false) :
      Trans go s σ (.reserve msg)
        { σ with control := σ.control.count s msg.conf.usedPortsNum, phase := .reserved msg }
  | repeated (env : Env) (msg : NewProxy) (hphase : σ.phase = .reserved msg) :
      Trans go s σ (.run env) { σ with control := rollback s σ.control msg.conf, phase := .idle }
  | failed (env : Env) (msg : NewProxy) (r : Resources) (err : String)
      (hphase : σ.phase = .reserved msg)
      (hrun : msg.conf.run go s env msg.proxyName σ.resources = (r, .error err)) :
      Trans go s σ (.run env)
        ⟨r, rollback s σ.control msg.conf, .idle, σ.left + newlyOpen σ.resources r⟩
  | ran (env : Env) (msg : NewProxy) (r : Resources) (running : Running)
      (hphase : σ.phase = .reserved msg)
      (hrun : msg.conf.run go s env msg.proxyName σ.resources = (r, .ok running)) :
      Trans go s σ (.run env) { σ with resources := r, phase := .ran msg running }
  | taken (now : Int) (msg : NewProxy) (running : Running) (hphase : σ.phase = .ran msg running) :
      Trans go s σ (.add now)
        { σ with
          resources := running.close go now msg.proxyName σ.resources
          control := rollback s σ.control msg.conf
          phase := .idle }
  | added (now : Int) (msg : NewProxy) (running : Running) (hphase : σ.phase = .ran msg running)
      (hname : msg.proxyName ∉ σ.resources.pxys) :
      Trans go s σ (.add now)
        { σ with
          resources := { σ.resources with pxys := insert msg.proxyName σ.resources.pxys }
          control := σ.control.store msg.proxyName ⟨msg.conf, running⟩
          phase := .idle }
  | unknown (name : String) : Trans go s σ (.delete name) σ
  | deleted (name : String) (pxy : Proxy) (hphase : σ.phase = .idle)
      (hpxy : σ.control.proxy name = some pxy) :
      Trans go s σ (.delete name)
        { σ with
          control := rollback s (σ.control.delete name) pxy.conf
          phase := .closing name pxy }
  | closed (now : Int) (name : String) (pxy : Proxy) (hphase : σ.phase = .closing name pxy) :
      Trans go s σ (.close now)
        { σ with resources := closeProxy go now name pxy.running σ.resources, phase := .idle }
  | others (r : Resources) (hnames : ∀ entry ∈ σ.control.proxies, entry.1 ∈ r.pxys) :
      Trans go s σ (.others r) { σ with resources := r }

variable {go : Go} {s : ServerConfig} {σ σ' : State} {a : Action}

theorem trans_of_step (h : step go s σ a = some σ') : Trans go s σ a σ' := by
  cases a with
  | reserve msg =>
    simp only [step] at h
    split at h
    · next hphase =>
      split at h
      · cases h
        exact .refused msg
      · split_ifs at h with hquota
        · cases h
          exact .refused msg
        · cases h
          exact .reserved msg hphase (by simpa using hquota)
    · cases h
  | run env =>
    simp only [step] at h
    split at h
    · next msg hphase =>
      split_ifs at h
      · cases h
        exact .repeated env msg hphase
      · split at h
        · next r err hrun =>
          cases h
          exact .failed env msg r err hphase hrun
        · next r running hrun =>
          cases h
          exact .ran env msg r running hphase hrun
    · cases h
  | add now =>
    simp only [step] at h
    split at h
    · next msg running hphase =>
      by_cases hname : msg.proxyName ∈ σ.resources.pxys
      · simp only [addProxy, hname, or_true, if_true] at h
        cases h
        exact .taken now msg running hphase
      · simp only [addProxy, hname, Bool.false_eq_true, or_self, if_false] at h
        cases h
        exact .added now msg running hphase hname
    · cases h
  | delete name =>
    simp only [step] at h
    split at h
    · next hphase =>
      split at h
      · cases h
        exact .unknown name
      · next pxy hpxy =>
        cases h
        exact .deleted name pxy hphase hpxy
    · cases h
  | close now =>
    simp only [step] at h
    split at h
    · next name pxy hphase =>
      cases h
      exact .closed now name pxy hphase
    · cases h
  | others r =>
    simp only [step] at h
    split_ifs at h with hnames
    cases h
    exact .others r hnames

/-! ## The count -/

def Phase.pending : Phase → Int
  | .reserved msg | .ran msg _ => msg.conf.usedPortsNum
  | .idle | .closing _ _ => 0

structure Accounts (σ : State) : Prop where
  sum : σ.control.portsUsedNum = σ.control.declared + σ.phase.pending
  names : ∀ entry ∈ σ.control.proxies, entry.1 ∈ σ.resources.pxys
  closing : ∀ name pxy, σ.phase = .closing name pxy → name ∉ σ.control.proxies.map Prod.fst

theorem accounts_new (r : Resources) : Accounts (State.new r) where
  sum := rfl
  names := by
    intro entry h
    cases h
  closing := by
    intro name pxy h
    cases h

theorem Accounts.rollback (hs : 0 < s.maxPortsPerClient) (hi : Accounts σ) {conf : ProxyConf}
    (hpending : σ.phase.pending = conf.usedPortsNum) {r : Resources}
    (hpxys : r.pxys = σ.resources.pxys) (left : Multiset Int) :
    Accounts ⟨r, Quota.rollback s σ.control conf, .idle, left⟩ where
  sum := by
    have hsum := hi.sum
    simp only [Quota.rollback, Control.portsUsedNum_count hs, Control.declared_count, Phase.pending]
    omega
  names := by simpa [Quota.rollback, hpxys] using hi.names
  closing := by
    intro name pxy h
    cases h

theorem Accounts.trans (hs : 0 < s.maxPortsPerClient) (hi : Accounts σ) (h : Trans go s σ a σ') :
    Accounts σ' := by
  have hsum := hi.sum
  cases h with
  | reserved msg hphase hquota =>
    refine ⟨?_, by simpa using hi.names, by simp⟩
    simp only [Control.portsUsedNum_count hs, Control.declared_count, Phase.pending]
    rw [hphase] at hsum
    simpa [Phase.pending] using hsum
  | repeated env msg hphase => exact hi.rollback hs (by rw [hphase]; rfl) rfl σ.left
  | failed env msg r err hphase hrun =>
    have hpxys : r.pxys = σ.resources.pxys := by
      simpa [hrun] using pxys_run go s env msg.proxyName σ.resources msg.conf
    exact hi.rollback hs (by rw [hphase]; rfl) hpxys _
  | ran env msg r running hphase hrun =>
    have hpxys : r.pxys = σ.resources.pxys := by
      simpa [hrun] using pxys_run go s env msg.proxyName σ.resources msg.conf
    refine ⟨?_, by simpa [hpxys] using hi.names, by simp⟩
    rw [hphase] at hsum
    exact hsum
  | taken now msg running hphase =>
    exact hi.rollback hs (by rw [hphase]; rfl) (pxys_close) σ.left
  | added now msg running hphase hname =>
    -- the name is new to the control, since those of its proxies are in the proxy manager
    have hnew : msg.proxyName ∉ σ.control.proxies.map Prod.fst := by
      intro hmem
      obtain ⟨entry, hentry, hsame⟩ := List.mem_map.1 hmem
      exact hname (hsame ▸ hi.names entry hentry)
    refine ⟨?_, ?_, by simp⟩
    · rw [hphase] at hsum
      simp only [Control.declared_store hnew, Phase.pending, add_zero]
      exact hsum
    · intro entry hentry
      rcases List.mem_cons.1 hentry with rfl | hold
      · exact Finset.mem_insert_self _ _
      · rw [Control.proxies_delete hnew] at hold
        exact Finset.mem_insert_of_mem (hi.names entry hold)
  | refused | unknown => exact hi
  | deleted name pxy hphase hpxy =>
    refine ⟨?_, ?_, ?_⟩
    · have hdeclared := Control.declared_delete hpxy
      have hnum : (σ.control.delete name).portsUsedNum = σ.control.portsUsedNum := rfl
      rw [hphase] at hsum
      simp only [Quota.rollback, Control.portsUsedNum_count hs, Control.declared_count,
        Phase.pending] at hsum ⊢
      omega
    · intro entry hentry
      simp only [Quota.rollback, Control.proxies_count] at hentry
      exact hi.names entry (List.mem_of_mem_filter hentry)
    · intro name' pxy' hclosing
      cases hclosing
      simpa [Quota.rollback] using σ.control.notMem_delete name
  | closed now name pxy hphase =>
    refine ⟨?_, ?_, by simp⟩
    · rw [hphase] at hsum
      exact hsum
    · intro entry hentry
      have hne : entry.1 ≠ name := by
        intro hsame
        exact hi.closing name pxy hphase (List.mem_map.2 ⟨entry, hentry, hsame⟩)
      simpa [closeProxy, pxys_close, hne] using hi.names entry hentry
  | others r hnames => exact ⟨hi.sum, hnames, hi.closing⟩

/-! ## The limit -/

def Phase.leaving : Phase → Int
  | .closing _ pxy => pxy.conf.usedPortsNum
  | .idle | .reserved _ | .ran _ _ => 0

def Phase.publicPorts : Phase → Finset Int
  | .ran _ running => running.publicPorts
  | .closing _ pxy => pxy.running.publicPorts
  | .idle | .reserved _ => ∅

def State.held (σ : State) : Finset Int :=
  σ.control.publicPorts ∪ σ.phase.publicPorts ∪ σ.left.toFinset

/-- Every `Run` takes the ports that its proxy declares, and keeps none when it fails. -/
def Declared (σ : State) : Action → Prop
  | .run env =>
      match σ.phase with
      | .reserved msg => msg.conf.Declares env msg.proxyName σ.resources
      | _ => True
  | _ => True

structure Bounded (s : ServerConfig) (σ : State) : Prop where
  limit : σ.control.portsUsedNum + σ.phase.leaving ≤ s.maxPortsPerClient
  proxies : ∀ entry ∈ σ.control.proxies, entry.2.Within
  phase : (σ.phase.publicPorts.card : Int) ≤ σ.phase.pending + σ.phase.leaving
  left : σ.left = 0

theorem bounded_new (hs : 0 < s.maxPortsPerClient) (r : Resources) : Bounded s (State.new r) where
  limit := hs.le
  proxies := by
    intro entry h
    cases h
  phase := le_refl 0
  left := rfl

theorem Bounded.rollback (hs : 0 < s.maxPortsPerClient) (hi : Bounded s σ) (conf : ProxyConf)
    (r : Resources) (hleaving : σ.phase.leaving = 0) :
    Bounded s ⟨r, Quota.rollback s σ.control conf, .idle, σ.left⟩ where
  limit := by
    have hlimit := hi.limit
    have hnum := usedPortsNum_nonneg conf
    simp only [Quota.rollback, Control.portsUsedNum_count hs, Phase.leaving]
    omega
  proxies := by simpa [Quota.rollback] using hi.proxies
  phase := le_refl 0
  left := hi.left

theorem Bounded.trans (hs : 0 < s.maxPortsPerClient) (hi : Bounded s σ) (hok : Declared σ a)
    (h : Trans go s σ a σ') : Bounded s σ' := by
  have hlimit := hi.limit
  cases h with
  | reserved msg hphase hquota =>
    refine ⟨?_, by simpa using hi.proxies, ?_, hi.left⟩
    · simp only [Control.exceeds, hs, decide_true, Bool.true_and, decide_eq_false_iff_not,
        not_lt] at hquota
      simpa [Control.portsUsedNum_count hs, Phase.leaving] using hquota
    · simpa [Phase.publicPorts, Phase.pending, Phase.leaving] using usedPortsNum_nonneg msg.conf
  | repeated env msg hphase => exact hi.rollback hs msg.conf σ.resources (by rw [hphase]; rfl)
  | failed env msg r err hphase hrun =>
    have hran : Ran msg.conf σ.resources (r, .error err) := by
      rw [← hrun]
      apply ran_run
      simpa [Declared, hphase] using hok
    have hback := hi.rollback hs msg.conf r (by rw [hphase]; rfl)
    rwa [hran.closed err rfl, add_zero]
  | ran env msg r running hphase hrun =>
    have hran : Ran msg.conf σ.resources (r, .ok running) := by
      rw [← hrun]
      apply ran_run
      simpa [Declared, hphase] using hok
    refine ⟨?_, hi.proxies, ?_, hi.left⟩
    · rw [hphase] at hlimit
      exact hlimit
    · simpa [Phase.publicPorts, Phase.pending, Phase.leaving] using hran.declared running rfl
  | taken now msg running hphase => exact hi.rollback hs msg.conf _ (by rw [hphase]; rfl)
  | added now msg running hphase hname =>
    have hwithin := hi.phase
    rw [hphase] at hlimit hwithin
    refine ⟨hlimit, ?_, le_refl 0, hi.left⟩
    intro entry hentry
    rcases List.mem_cons.1 hentry with rfl | hold
    · simpa [Proxy.Within, Phase.publicPorts, Phase.pending, Phase.leaving] using hwithin
    · exact hi.proxies entry (List.mem_of_mem_filter hold)
  | refused | unknown => exact hi
  | deleted name pxy hphase hpxy =>
    obtain ⟨entry, hentry, hsame⟩ := Control.mem_of_proxy hpxy
    have hwithin : pxy.Within := hsame ▸ hi.proxies entry hentry
    refine ⟨?_, ?_, ?_, hi.left⟩
    · have hnum : (σ.control.delete name).portsUsedNum = σ.control.portsUsedNum := rfl
      rw [hphase] at hlimit
      simp only [Quota.rollback, Control.portsUsedNum_count hs, Phase.leaving] at hlimit ⊢
      omega
    · intro other hother
      simp only [Quota.rollback, Control.proxies_count] at hother
      exact hi.proxies other (List.mem_of_mem_filter hother)
    · simpa [Proxy.Within, Phase.publicPorts, Phase.pending, Phase.leaving] using hwithin
  | closed now name pxy hphase =>
    refine ⟨?_, hi.proxies, le_refl 0, hi.left⟩
    have hnum := usedPortsNum_nonneg pxy.conf
    rw [hphase] at hlimit
    simp only [Phase.leaving] at hlimit ⊢
    omega
  | others r hnames => exact { hi with }

theorem held_le (ha : Accounts σ) (hb : Bounded s σ) :
    (σ.held.card : Int) ≤ s.maxPortsPerClient := by
  have hregistered := Control.card_publicPorts_le hb.proxies
  have hunion := Finset.card_union_le σ.control.publicPorts σ.phase.publicPorts
  have hphase := hb.phase
  have hlimit := hb.limit
  have hsum := ha.sum
  unfold State.held
  rw [hb.left, Multiset.toFinset_zero, Finset.union_empty]
  omega

/-- If the proxies take the ports they declare, those held for the client are at most as many as the
server allows, and the control has counted them. -/
theorem held_within_quota (go : Go) (s : ServerConfig) (m : Int) (hm : s.maxPortsPerClient = m)
    (hpos : 0 < m) (r : Resources) (σ : State) (h : Reach (step go s) Declared (State.new r) σ) :
    (σ.held.card : Int) ≤ m ∧
      σ.control.portsUsedNum = σ.control.declared + σ.phase.pending := by
  subst hm
  have hinv : Accounts σ ∧ Bounded s σ := by
    apply invariant_of_reach ⟨accounts_new r, bounded_new hpos r⟩ _ h
    intro σ a σ' hi hok hst
    have htrans := trans_of_step hst
    exact ⟨hi.1.trans hpos htrans, hi.2.trans hpos hok htrans⟩
  exact ⟨held_le hinv.1 hinv.2, hinv.1.sum⟩

/-! ## The steps and the call -/

/-- With nobody in between, the steps come to what `RegisterProxy` gives, failures included. -/
theorem steps_eq_registerProxy (go : Go) (s : ServerConfig) (msg : NewProxy) (env : Env)
    (r : Resources) (ctl : Control) (left : Multiset Int) :
    let env := { env with nameTaken := false }
    let σ := [.reserve msg, .run env, .add env.now].foldl (fun σ a => (step go s σ a).getD σ)
      ⟨r, ctl, .idle, left⟩
    let reg := registerProxy go s msg env r ctl
    σ.resources = reg.resources ∧ σ.control = reg.control ∧ σ.phase = .idle := by
  intro env
  unfold registerProxy runAndAdd
  cases hvalid : msg.validate s with
  | error err => simp [step, hvalid]
  | ok =>
    by_cases hexceeds : ctl.exceeds s msg.conf = true
    · simp [step, hvalid, hexceeds]
    · by_cases hname : msg.proxyName ∈ r.pxys
      · simp [step, hvalid, hexceeds, hname, rollback]
      · rcases hrun : msg.conf.run go s env msg.proxyName r with ⟨r', err | running⟩
        · simp [step, hvalid, hexceeds, hname, hrun, rollback]
        · have hpxys := pxys_run go s env msg.proxyName r msg.conf
          simp only [hrun] at hpxys
          simp [step, hvalid, hexceeds, hname, hrun, addProxy, hpxys, env]

/-! ## Examples -/

def limited (m : Int) : ServerConfig := { plainServer with maxPortsPerClient := m }

def twoPorts : Resources := Resources.new [⟨0, 0, 6000⟩, ⟨0, 0, 6001⟩]

def allOpen (order : List Int) : Env :=
  { udpRefused with
    tcp := Ports.allOpen order
    udp := Ports.allOpen order
    listenUDP := fun _ => .ok () }

def register (name : String) (conf : ProxyConf) (env : Env) : List Action :=
  [.reserve ⟨name, .ok (), conf⟩, .run env, .add 1]

instance decidableForallOk {ε α : Type} (x : Except ε α) (P : α → Prop) [DecidablePred P] :
    Decidable (∀ a, x = .ok a → P a) :=
  match x with
  | .error _ => .isTrue (fun _ h => by cases h)
  | .ok a => decidable_of_iff (P a) (by simp)

instance (env : Env) (name : String) (r : Resources) (conf : ProxyConf) :
    Decidable (conf.Declares env name r) := by
  cases conf <;> dsimp only [ProxyConf.Declares] <;> infer_instance

instance (σ : State) : (a : Action) → Decidable (Declared σ a)
  | .run env =>
      match σ with
      | { phase := .reserved msg, resources := r, .. } =>
          inferInstanceAs (Decidable (msg.conf.Declares env msg.proxyName r))
      | { phase := .idle, .. } | { phase := .ran _ _, .. } | { phase := .closing _ _, .. } =>
          .isTrue trivial
  | .reserve _ | .add _ | .delete _ | .close _ | .others _ => .isTrue trivial

def threeProxiesRun : List Action :=
  register "a" (.tcp 6000 ⟨"", ""⟩) (allOpen [6000, 6001]) ++
    register "b" (.tcpudp 6001) (allOpen [6001]) ++ [.delete "a", .close 2] ++
      register "c" (.udp 6000) (allOpen [6000])

theorem held_within_quota_threeProxies :
    ∃ σ, Reach (step plainGo (limited 2)) Declared (State.new twoPorts) σ ∧
      σ.held = {6000, 6001} ∧ (σ.held.card : Int) ≤ 2 := by
  have hreach : Reach (step plainGo (limited 2)) Declared (State.new twoPorts)
      ((run (step plainGo (limited 2)) Declared (State.new twoPorts) threeProxiesRun).getD
        (State.new twoPorts)) :=
    reach_getD_of_isSome (by decide +kernel)
  exact ⟨_, hreach, by decide +kernel,
    (held_within_quota _ _ 2 rfl (by decide) _ _ hreach).1⟩

def twoMcRun : List Action :=
  register "a" (.mc 6000 ⟨["a.example"], ""⟩) (allOpen [6000, 6001]) ++
    register "b" (.mc 6001 ⟨["a.example"], ""⟩) (allOpen [6001])

/-- A client that may use one port has two. -/
theorem mc_takes_undeclared_ports :
    ∃ σ, Reach (step plainGo (limited 1)) anyAction (State.new twoPorts) σ ∧
      σ.held = {6000, 6001} ∧ σ.control.portsUsedNum = 0 ∧ ¬ (σ.held.card : Int) ≤ 1 := by
  have hreach : Reach (step plainGo (limited 1)) anyAction (State.new twoPorts)
      ((run (step plainGo (limited 1)) anyAction (State.new twoPorts) twoMcRun).getD
        (State.new twoPorts)) :=
    reach_getD_of_isSome (by decide +kernel)
  exact ⟨_, hreach, by decide +kernel, by decide +kernel, by decide +kernel⟩

end FrpMeo.Server.Quota
