import FrpMeo.Server.Unwinding

/-!
# What a failed registration leaves behind

When `RegisterProxy` fails, the resources should be what they were before (`Restored`). Nobody
closes a proxy whose `Run` has failed, so every `Run` has to undo what it did. Not all do:

* tcp+udp leaves its TCP listener when its UDP socket fails (`udp_failure_leaves_listener`);
* xtcp+xudp leaves its visitor listener when its name is a client of the `NatHoleController`;
* a group leaves its entry in the registry when its first listener fails;
* with a used port that `Acquire` has granted, the port of another proxy is given back.
-/

namespace FrpMeo.Server.Register

open Lib.Unwind Lib.Transition
open Server.Ports (Manager SamePorts PortsRange Moment samePorts_error_iff
  samePorts_giveBack_iff samePorts_release_iff sound_newManager)
open Vhost (Go RouteSpec Listener)

/-! ## Well-formed resources -/

structure Tcp.WellFormed (t : Tcp) : Prop where
  ports : t.ports.Sound
  refs : ∀ port mux, t.muxers port = some mux → 0 < mux.refs

structure Resources.WellFormed (r : Resources) : Prop where
  tcp : r.tcp.WellFormed
  udp : r.udp.ports.Sound

theorem wellFormed_new (allowPorts : List PortsRange) : (Resources.new allowPorts).WellFormed where
  tcp := ⟨sound_newManager allowPorts, fun _ _ h => by cases h⟩
  udp := sound_newManager allowPorts

variable {t : Tcp} {r : Resources} {go : Go} {s : ServerConfig} {env : Env} {name group : String}
  {remotePort now port : Int} {lb : LoadBalancer} {l : Listener}

section

variable (h : t.WellFormed)

include h

variable {m : Manager}

theorem Tcp.WellFormed.setPorts (hm : m.Sound) : Tcp.WellFormed { t with ports := m } :=
  ⟨hm, h.refs⟩

theorem Tcp.WellFormed.groupListen {addr : String} {x : _}
    (hx : t.groupListen env name lb addr port = x) : x.1.WellFormed := by
  subst hx
  unfold Tcp.groupListen
  dsimp only [Tcp.setGroup]
  split_ifs
  · split
    · next hacq => exact ⟨h.ports.acquire hacq, h.refs⟩
    · next p hacq =>
      have hports := h.ports.acquire hacq
      split
      · exact ⟨hports.release p env.now, h.refs⟩
      · exact ⟨hports, h.refs⟩
  all_goals exact ⟨h.ports, h.refs⟩

theorem Tcp.WellFormed.groupClose : (t.groupClose now group).WellFormed := by
  unfold Tcp.groupClose
  split
  · exact h
  · next tg _ =>
    split_ifs
    · exact ⟨h.ports.release tg.realPort now, h.refs⟩
    · exact ⟨h.ports, h.refs⟩

theorem Tcp.WellFormed.setMuxer (hm : m.Sound) {ls : Multiset Int}
    {entry : Option MinecraftPortMux} (hentry : ∀ mux, entry = some mux → 0 < mux.refs) :
    Tcp.WellFormed
      { t with ports := m, listeners := ls, muxers := Function.update t.muxers port entry } := by
  refine ⟨hm, ?_⟩
  intro port' mux hmux
  by_cases hport : port' = port
  · subst hport
    exact hentry mux (by simpa using hmux)
  · exact h.refs port' mux (by simpa [hport] using hmux)

theorem Tcp.WellFormed.minecraftListen : (t.minecraftListen go env port l).1.WellFormed := by
  cases hmux : t.muxers port with
  | some mux =>
    have hrefs := h.refs port mux hmux
    rw [Tcp.minecraftListen_of_mux hmux hrefs.ne']
    split
    · exact h
    · exact h.setMuxer h.ports (fun mux' hmux' => by cases hmux'; exact Nat.succ_pos _)
  | none =>
    unfold Tcp.minecraftListen Tcp.minecraftMux
    rcases hacq : t.ports.acquire (minecraftPortName port) port env.tcp with ⟨m, err | p⟩
    · simpa [hmux] using h.setPorts (h.ports.acquire hacq)
    · have hports := h.ports.acquire hacq
      have hreleased := h.setPorts (hports.release p env.now)
      rcases hlisten : env.listenTCP p with err | done
      · simpa [hmux, hlisten] using hreleased
      · rcases hnew : env.newMuxer with err | done
        · simpa [hmux, hlisten, hnew] using hreleased
        · simp only [hmux, hlisten]
          split
          · simp only [if_true, Tcp.minecraftDrop, Function.update_idem]
            exact h.setMuxer (hports.release port env.now) nofun
          · simp only [Function.update_idem]
            exact h.setMuxer hports (fun mux hmux => by cases hmux; exact Nat.succ_pos _)

theorem Tcp.WellFormed.minecraftClose : (t.minecraftClose go now port l).WellFormed := by
  unfold Tcp.minecraftClose
  split
  · exact h
  · next mux _ =>
    split_ifs with hrefs
    · exact h.setMuxer (h.ports.release port now) nofun
    · refine h.setMuxer h.ports ?_
      intro mux' hmux'
      cases hmux'
      exact Nat.sub_pos_of_lt (Nat.lt_of_not_le hrefs)

end

section

variable (h : r.WellFormed)

include h

theorem Running.wellFormed_close (running : Running) :
    (running.close go now name r).WellFormed := by
  cases running with
  | tcp p lnPort => exact ⟨⟨h.tcp.ports.release p now, h.tcp.refs⟩, h.udp⟩
  | tcpMember group _ => exact ⟨h.tcp.groupClose, h.udp⟩
  | udp p connPort => exact ⟨h.tcp, h.udp.release p now⟩
  | tcpudp p lnPort connPort => exact ⟨⟨h.tcp.ports.release p now, h.tcp.refs⟩, h.udp.release p now⟩
  | mc port ls =>
    refine ⟨?_, h.udp⟩
    exact invariant_closeAll (fun _ _ ht => ht.minecraftClose) ls r.tcp h.tcp
  | http | mux | visitor | client | visitorAndClient => exact ⟨h.tcp, h.udp⟩

theorem Resources.WellFormed.tcpRun : (tcpRun s env name remotePort lb r).1.WellFormed := by
  unfold Register.tcpRun
  split_ifs
  · split
    · next hlisten => exact ⟨h.tcp.groupListen hlisten, h.udp⟩
    · next hlisten => exact ⟨h.tcp.groupListen hlisten, h.udp⟩
  · split
    · next hacq => exact ⟨h.tcp.setPorts (h.tcp.ports.acquire hacq), h.udp⟩
    · next p hacq =>
      have hports := h.tcp.ports.acquire hacq
      split
      · exact ⟨h.tcp.setPorts (hports.release p env.now), h.udp⟩
      · exact ⟨⟨hports, h.tcp.refs⟩, h.udp⟩

theorem Resources.WellFormed.udpRun : (udpRun env name remotePort r).1.WellFormed := by
  unfold Register.udpRun
  split
  · next hacq => exact ⟨h.tcp, h.udp.acquire hacq⟩
  · next p hacq =>
    have hudp := h.udp.acquire hacq
    split
    · exact ⟨h.tcp, hudp.release p env.now⟩
    · exact ⟨h.tcp, hudp⟩

theorem Resources.WellFormed.tcpudpRun : (tcpudpRun env name remotePort r).1.WellFormed := by
  unfold Register.tcpudpRun
  split
  · next hacq => exact ⟨h.tcp.setPorts (h.tcp.ports.acquire hacq), h.udp⟩
  · next p hacq =>
    have htcp := h.tcp.ports.acquire hacq
    split
    · next hacq' => exact ⟨h.tcp.setPorts (htcp.release p env.now), h.udp.acquire hacq'⟩
    · next hacq' =>
      have hudp := h.udp.acquire hacq'
      split
      · exact ⟨h.tcp.setPorts (htcp.release p env.now), hudp.release p env.now⟩
      · split
        · exact ⟨⟨htcp.release p env.now, h.tcp.refs⟩, hudp.release p env.now⟩
        · exact ⟨⟨htcp, h.tcp.refs⟩, hudp⟩

theorem Resources.WellFormed.mcRun {ls : List Listener} :
    (mcRun go env remotePort ls r).1.WellFormed := by
  have hopened : (openOrClose (Tcp.minecraftListen go env remotePort)
      (Tcp.minecraftClose go env.now remotePort) ls r.tcp).1.WellFormed :=
    invariant_openOrClose (fun _ _ ht => ht.minecraftListen) (fun _ _ ht => ht.minecraftClose) ls
      h.tcp
  unfold Register.mcRun
  split <;> next hop =>
    rw [hop] at hopened
    exact ⟨hopened, h.udp⟩

end

def Running.publicPorts : Running → Finset Int
  | .tcp _ lnPort | .tcpMember _ lnPort => {lnPort}
  | .udp _ connPort => {connPort}
  | .tcpudp _ lnPort connPort => {lnPort, connPort}
  | .mc remotePort listeners => if listeners = [] then ∅ else {remotePort}
  | .http _ _ | .mux _ _ _ | .visitor | .client | .visitorAndClient => ∅

structure Aside (r : Resources) (result : Resources × Except String Running) : Prop where
  tcp : result.1.tcp = r.tcp
  udp : result.1.udp = r.udp
  pxys : result.1.pxys = r.pxys
  publicPorts : ∀ running, result.2 = .ok running → running.publicPorts = ∅

variable {r' : Resources}

theorem aside_error (htcp : r'.tcp = r.tcp) (hudp : r'.udp = r.udp)
    (hpxys : r'.pxys = r.pxys) {err : String} : Aside r (r', .error err) where
  tcp := htcp
  udp := hudp
  pxys := hpxys
  publicPorts := by
    intro running h
    cases h

theorem aside_ok (htcp : r'.tcp = r.tcp) (hudp : r'.udp = r.udp)
    (hpxys : r'.pxys = r.pxys) {running : Running} (hports : running.publicPorts = ∅) :
    Aside r (r', .ok running) where
  tcp := htcp
  udp := hudp
  pxys := hpxys
  publicPorts := by
    intro running' h
    cases h
    exact hports

variable {conf : ProxyConf}

theorem aside_run (hnum : conf.usedPortsNum = 0)
    (hmc : ∀ port domains, conf ≠ .mc port domains) : Aside r (conf.run go s env name r) := by
  cases conf with
  | tcp | udp | pe | tcpudp => cases hnum
  | mc port domains => exact absurd rfl (hmc port domains)
  | http =>
    simp only [ProxyConf.run, httpRun]
    split
    · apply aside_error <;> rfl
    · apply aside_ok <;> rfl
  | https =>
    simp only [ProxyConf.run, muxRun]
    split
    · apply aside_error <;> rfl
    · apply aside_ok <;> rfl
  | tcpmux =>
    simp only [ProxyConf.run, muxRun]
    split_ifs
    · split
      · apply aside_error <;> rfl
      · apply aside_ok <;> rfl
    · apply aside_error <;> rfl
  | stcp | sudp | stcpsudp =>
    by_cases hv : name ∈ r.visitors
    · simp only [ProxyConf.run, visitorRun, startVisitorListener, hv, if_true]
      apply aside_error <;> rfl
    · simp only [ProxyConf.run, visitorRun, startVisitorListener, hv, if_false]
      apply aside_ok <;> rfl
  | xtcp | xudp =>
    simp only [ProxyConf.run, clientRun]
    split_ifs
    · by_cases hc : name ∈ r.clients
      · simp only [listenClient, hc, if_true]
        apply aside_error <;> rfl
      · simp only [listenClient, hc, if_false]
        apply aside_ok <;> rfl
    · apply aside_error <;> rfl
  | xtcpxudp =>
    simp only [ProxyConf.run, xtcpxudpRun]
    split_ifs
    · by_cases hv : name ∈ r.visitors
      · simp only [startVisitorListener, hv, if_true]
        apply aside_error <;> rfl
      · by_cases hc : name ∈ r.clients
        · simp only [startVisitorListener, hv, listenClient, hc, if_true, if_false]
          apply aside_error <;> rfl
        · simp only [startVisitorListener, hv, listenClient, hc, if_false]
          apply aside_ok <;> rfl
    · apply aside_error <;> rfl

theorem Resources.WellFormed.run (h : r.WellFormed) {x : _} (hx : conf.run go s env name r = x) :
    x.1.WellFormed := by
  subst hx
  have hother : conf.usedPortsNum = 0 → (∀ port domains, conf ≠ .mc port domains) →
      (conf.run go s env name r).1.WellFormed := by
    intro hnum hmc
    have haside : Aside r (conf.run go s env name r) := aside_run hnum hmc
    exact ⟨haside.tcp ▸ h.tcp, haside.udp ▸ h.udp⟩
  cases conf with
  | tcp => exact h.tcpRun
  | udp | pe => exact h.udpRun
  | tcpudp => exact h.tcpudpRun
  | mc => exact h.mcRun
  | http | https | tcpmux | stcp | sudp | stcpsudp | xtcp | xudp | xtcpxudp =>
    exact hother rfl (by simp)

theorem Resources.WellFormed.registerProxy (h : r.WellFormed) {msg : NewProxy} {ctl : Control} :
    (registerProxy go s msg env r ctl).resources.WellFormed := by
  unfold Register.registerProxy
  split
  · exact h
  · split_ifs
    · exact h
    · exact h
    · unfold runAndAdd
      split
      · next hran => exact h.run hran
      · next running hran =>
        have hrun := h.run hran
        unfold addProxy
        split_ifs
        · exact running.wellFormed_close hrun
        · exact ⟨hrun.tcp, hrun.udp⟩

inductive Call where
  | register (s : ServerConfig) (msg : NewProxy) (env : Env) (ctl : Control)
  | close (name : String) (running : Running) (now : Int)

def Call.apply (go : Go) (r : Resources) : Call → Resources
  | .register s msg env ctl => (registerProxy go s msg env r ctl).resources
  | .close name running now => closeProxy go now name running r

/-- The port managers stay sound, and every Minecraft port has a user, whatever comes in whatever
order, failures included. -/
theorem wellFormed_foldl (allowPorts : List PortsRange) (calls : List Call) :
    (calls.foldl (Call.apply go) (Resources.new allowPorts)).WellFormed := by
  apply foldl_induction (wellFormed_new allowPorts)
  intro r call hr
  cases call with
  | register s msg env ctl => exact hr.registerProxy
  | close name running now =>
    have hclosed : (running.close go now name r).WellFormed := running.wellFormed_close hr
    exact ⟨hclosed.tcp, hclosed.udp⟩

/-! ## What each type leaves behind -/

structure Env.Fits (env : Env) (r : Resources) : Prop where
  tcp : r.tcp.ports.Ordered env.tcp
  udp : r.udp.ports.Ordered env.udp

/-- The resources after a call that fails: in `Run`, or after it, when the proxy is closed. -/
def undone (go : Go) (now : Int) (name : String) : Resources × Except String Running → Resources
  | (r, .error _) => r
  | (r, .ok running) => running.close go now name r

/-- A tcp+udp proxy with TCP port `p` leaves nothing of its UDP side behind, and no listener. -/
def UdpSideUnwinds (env : Env) (name : String) (p : Int) (u : Udp) : Prop :=
  match (u.ports.acquire name p env.udp).2 with
  | .error _ => u.ports.GivesBack name p env.udp
  | .ok q =>
      -- the release is that of `p`; the two ports differ only if `p` is 0
      (u.ports.usedPorts p = none ∧ (q = p ∨ (u.ports.usedPorts q).isSome = true)) ∧
        (env.listenTCP p = .ok () → env.openUDP p = .ok ())

/-- When a `Run` that fails, or that is followed by a `Close`, leaves nothing behind. -/
def ProxyConf.Unwinds (go : Go) (s : ServerConfig) (env : Env) (name : String) (r : Resources) :
    ProxyConf → Prop
  | .tcp remotePort lb =>
      if lb.group ≠ "" then r.tcp.GroupUnwinds env name lb remotePort
      else r.tcp.ports.GivesBack name remotePort env.tcp
  | .udp remotePort | .pe remotePort => r.udp.ports.GivesBack name remotePort env.udp
  | .tcpudp remotePort =>
      r.tcp.ports.GivesBack name remotePort env.tcp ∧
        ∀ p, (r.tcp.ports.acquire name remotePort env.tcp).2 = .ok p →
          UdpSideUnwinds env name p r.udp
  | .http domains locations routeByHTTPUser httpUser httpPassword lb =>
      r.http.Unwinds go lb
        (httpRoutes s env.object domains locations routeByHTTPUser httpUser httpPassword)
  | .https domains lb => (r.muxes .https).Unwinds go lb (muxRoutes s domains "" "" "")
  | .tcpmux multiplexer domains routeByHTTPUser httpUser httpPassword lb =>
      multiplexer = httpConnect → (r.muxes .httpConnect).Unwinds go lb
        (muxRoutes s domains routeByHTTPUser httpUser httpPassword)
  | .xtcpxudp => s.natHoleController = true → name ∈ r.clients → name ∈ r.visitors
  | .mc _ _ | .stcp | .sudp | .stcpsudp | .xtcp | .xudp => True

theorem restored_tcpRun_iff (hr : r.WellFormed) (he : env.Fits r) :
    r.Restored (undone go env.now name (tcpRun s env name remotePort lb r)) ↔
      (if lb.group ≠ "" then r.tcp.GroupUnwinds env name lb remotePort
      else r.tcp.ports.GivesBack name remotePort env.tcp) := by
  unfold tcpRun
  split_ifs
  · rw [← Tcp.restored_groupUndone_iff s.proxyBindAddr hr.tcp.ports he.tcp,
      ← restored_tcp_iff]
    unfold Tcp.groupUndone
    rcases r.tcp.groupListen env name lb s.proxyBindAddr remotePort with ⟨t, err | ports⟩
    all_goals exact Iff.rfl
  · rcases hacq : r.tcp.ports.acquire name remotePort env.tcp with ⟨m, err | p⟩
    · have hsame := samePorts_error_iff hr.tcp.ports he.tcp hacq
      simp only [undone]
      rw [restored_tcp_iff, Tcp.restored_ports_iff, hsame]
    · have hsame := samePorts_giveBack_iff hr.tcp.ports he.tcp hacq env.now
      rcases hlisten : env.listenTCP p with err | done
      · simp only [hlisten, undone]
        rw [restored_tcp_iff, Tcp.restored_ports_iff, hsame]
      · simp only [hlisten, undone, Running.close, Multiset.erase_cons_head]
        rw [restored_tcp_iff, Tcp.restored_ports_iff, hsame]

theorem restored_udpRun_iff (hr : r.WellFormed) (he : env.Fits r) :
    r.Restored (undone go env.now name (udpRun env name remotePort r)) ↔
      r.udp.ports.GivesBack name remotePort env.udp := by
  unfold udpRun
  rcases hacq : r.udp.ports.acquire name remotePort env.udp with ⟨m, err | p⟩
  · have hsame := samePorts_error_iff hr.udp he.udp hacq
    simp only [undone]
    rw [restored_udp_iff, Udp.restored_ports_iff, hsame]
  · have hsame := samePorts_giveBack_iff hr.udp he.udp hacq env.now
    rcases hopen : env.openUDP p with err | done
    · simp only [hopen, undone]
      rw [restored_udp_iff, Udp.restored_ports_iff, hsame]
    · simp only [hopen, undone, Running.close, Multiset.erase_cons_head]
      rw [restored_udp_iff, Udp.restored_ports_iff, hsame]

theorem restored_tcpudpRun_iff (hr : r.WellFormed) (he : env.Fits r) :
    r.Restored (undone go env.now name (tcpudpRun env name remotePort r)) ↔
      r.tcp.ports.GivesBack name remotePort env.tcp ∧
        ∀ p, (r.tcp.ports.acquire name remotePort env.tcp).2 = .ok p →
          UdpSideUnwinds env name p r.udp := by
  unfold tcpudpRun
  rcases hacq : r.tcp.ports.acquire name remotePort env.tcp with ⟨m, err | p⟩
  · have hsame := samePorts_error_iff hr.tcp.ports he.tcp hacq
    simp only [undone]
    rw [restored_tcp_iff, Tcp.restored_ports_iff, hsame]
    simp
  · have hsame := samePorts_giveBack_iff hr.tcp.ports he.tcp hacq env.now
    simp only [Except.ok.injEq, forall_eq', UdpSideUnwinds]
    rcases hacq' : r.udp.ports.acquire name p env.udp with ⟨m', err | q⟩
    · have hsame' := samePorts_error_iff hr.udp he.udp hacq'
      simp only [undone]
      rw [restored_tcp_udp_iff, Tcp.restored_ports_iff, Udp.restored_ports_iff, hsame, hsame']
    · -- from here on the UDP side releases `p`, whichever port it was granted
      have hsame' := samePorts_release_iff hr.udp he.udp (congrArg Prod.snd hacq') p env.now
      rw [hacq'] at hsame'
      rcases env.listenTCP p with err | done
      · simp only [undone]
        rw [restored_tcp_udp_iff, Tcp.restored_ports_iff, Udp.restored_ports_iff, hsame, hsame']
        simp
      · rcases env.openUDP p with err | done
        · -- the listener is still open
          have hopen' : ∀ q : Int, q ::ₘ r.tcp.listeners ≠ r.tcp.listeners := by
            intro q h
            simpa using congrArg Multiset.card h
          simp only [undone]
          rw [restored_tcp_udp_iff, Tcp.restored_ports_listeners_iff]
          simp [hopen']
        · simp only [undone, Running.close, Multiset.erase_cons_head]
          rw [restored_tcp_udp_iff, Tcp.restored_ports_iff, Udp.restored_ports_iff, hsame, hsame']
          simp

theorem undone_httpRun {specs : List RouteSpec} :
    undone go env.now name (httpRun go env name lb specs r) = { r with
        http := undo (HttpVhost.listen go env.object name lb) (HttpVhost.close go name lb.group)
          specs r.http } := by
  unfold httpRun
  split
  · next v err hop =>
    rw [← eq_undo_of_error hop]
    rfl
  · next v opened hop =>
    rw [← closeAll_eq_undo_of_ok hop]
    rfl

theorem undone_muxRun {mux : Mux} {ls : List Listener} :
    undone go now name (muxRun go mux lb ls r) =
      r.setMux mux (undo (VhostMux.listen go lb) (VhostMux.close go lb.group) ls
        (r.muxes mux)) := by
  unfold muxRun
  split
  · next v err hop =>
    rw [← eq_undo_of_error hop]
    rfl
  · next v opened hop =>
    rw [← closeAll_eq_undo_of_ok hop]
    simp [undone, Running.close, Resources.setMux]

theorem undone_mcRun {ls : List Listener} :
    undone go env.now name (mcRun go env remotePort ls r) = { r with
        tcp := undo (Tcp.minecraftListen go env remotePort)
          (Tcp.minecraftClose go env.now remotePort) ls r.tcp } := by
  unfold mcRun
  split
  · next t err hop =>
    rw [← eq_undo_of_error hop]
    rfl
  · next t opened hop =>
    rw [← closeAll_eq_undo_of_ok hop]
    rfl

theorem restored_visitorRun : r.Restored (undone go now name (visitorRun name r)) := by
  by_cases hv : name ∈ r.visitors
  · simpa [visitorRun, startVisitorListener, hv, undone] using Resources.Restored.refl r
  · simpa [visitorRun, startVisitorListener, hv, undone, Running.close] using
      Resources.Restored.refl r

theorem restored_clientRun {kind : String} :
    r.Restored (undone go now name (clientRun s kind name r)) := by
  cases hn : s.natHoleController with
  | false => simpa [clientRun, hn, undone] using Resources.Restored.refl r
  | true =>
    by_cases hc : name ∈ r.clients
    · simpa [clientRun, hn, listenClient, hc, undone] using Resources.Restored.refl r
    · simpa [clientRun, hn, listenClient, hc, undone, Running.close] using
        Resources.Restored.refl r

theorem restored_xtcpxudpRun_iff :
    r.Restored (undone go now name (xtcpxudpRun s name r)) ↔
      (s.natHoleController = true → name ∈ r.clients → name ∈ r.visitors) := by
  cases hn : s.natHoleController with
  | false => simpa [xtcpxudpRun, hn, undone] using Resources.Restored.refl r
  | true =>
    by_cases hv : name ∈ r.visitors
    · simpa [xtcpxudpRun, hn, startVisitorListener, hv, undone] using Resources.Restored.refl r
    · by_cases hc : name ∈ r.clients
      · -- the visitor listener is still there
        have hstays : undone go now name (xtcpxudpRun s name r) =
            { r with visitors := insert name r.visitors } := by
          simp [xtcpxudpRun, hn, startVisitorListener, hv, listenClient, hc, undone]
        rw [hstays]
        constructor
        · intro h
          have hsame : insert name r.visitors = r.visitors := h.visitors
          exact absurd (hsame ▸ Finset.mem_insert_self name r.visitors) hv
        · intro h
          exact absurd (h rfl hc) hv
      · simpa [xtcpxudpRun, hn, startVisitorListener, hv, listenClient, hc, undone, Running.close]
          using Resources.Restored.refl r

/-- What is left of a `Run` that fails, or that is followed by a `Close`. -/
theorem restored_run_iff (hvalid : conf.validateForServer s = .ok ())
    (hr : r.WellFormed) (he : env.Fits r) :
    r.Restored (undone go env.now name (conf.run go s env name r)) ↔
      conf.Unwinds go s env name r := by
  cases conf with
  | tcp remotePort lb => exact restored_tcpRun_iff hr he
  | udp | pe => exact restored_udpRun_iff hr he
  | tcpudp remotePort => exact restored_tcpudpRun_iff hr he
  | http domains locations routeByHTTPUser httpUser httpPassword lb =>
    simp only [ProxyConf.run, ProxyConf.Unwinds]
    rw [undone_httpRun, restored_http_iff, HttpVhost.restored_undo_iff]
  | https domains lb =>
    simp only [ProxyConf.run, ProxyConf.Unwinds]
    rw [undone_muxRun, restored_setMux_iff, VhostMux.restored_undo_iff]
  | tcpmux multiplexer domains routeByHTTPUser httpUser httpPassword lb =>
    simp only [ProxyConf.run, ProxyConf.Unwinds]
    split_ifs with hmultiplexer
    · rw [undone_muxRun, restored_setMux_iff, VhostMux.restored_undo_iff]
      simp [hmultiplexer]
    · simpa [hmultiplexer, undone] using Resources.Restored.refl r
  | mc remotePort domains =>
    -- port 0 does not pass the validation
    have hport : remotePort ≠ 0 := by
      intro hport
      simp [ProxyConf.validateForServer, hport] at hvalid
    simp only [ProxyConf.run, ProxyConf.Unwinds, iff_true]
    rw [undone_mcRun, restored_tcp_iff]
    exact Tcp.restored_undo_minecraft hport hr.tcp.ports he.tcp (hr.tcp.refs remotePort)
  | stcp | sudp | stcpsudp => exact iff_of_true restored_visitorRun trivial
  | xtcp | xudp => exact iff_of_true restored_clientRun trivial
  | xtcpxudp => exact restored_xtcpxudpRun_iff

/-! ## Registrations that fail -/

/-- The registration is refused before `Run`, or `Run` can undo what it does. -/
def LeavesNothing (go : Go) (s : ServerConfig) (msg : NewProxy) (env : Env) (r : Resources)
    (ctl : Control) : Prop :=
  msg.validate s ≠ .ok () ∨ ctl.exceeds s msg.conf = true ∨ msg.proxyName ∈ r.pxys ∨
    msg.conf.Unwinds go s env msg.proxyName r

theorem resources_runAndAdd {msg : NewProxy} {ctl : Control}
    (h : (runAndAdd go s msg env r ctl).err ≠ none) : (runAndAdd go s msg env r ctl).resources =
      undone go env.now msg.proxyName (msg.conf.run go s env msg.proxyName r) := by
  unfold runAndAdd at h ⊢
  rcases hran : msg.conf.run go s env msg.proxyName r with ⟨r', err | running⟩
  · rfl
  · rw [hran] at h
    by_cases htaken : env.nameTaken = true ∨ msg.proxyName ∈ r'.pxys
    · simp [addProxy, htaken, undone]
    · simp [addProxy, htaken] at h

theorem failed_registration_restores_iff (go : Go) (s : ServerConfig) (msg : NewProxy) (env : Env)
    (r : Resources) (ctl : Control) (hr : r.WellFormed) (he : env.Fits r)
    (h : (registerProxy go s msg env r ctl).err ≠ none) :
    r.Restored (registerProxy go s msg env r ctl).resources ↔ LeavesNothing go s msg env r ctl := by
  unfold LeavesNothing
  unfold registerProxy at h ⊢
  cases hvalid : msg.validate s with
  | error err => simpa using Resources.Restored.refl r
  | ok =>
    simp only [hvalid] at h ⊢
    by_cases hexceeds : ctl.exceeds s msg.conf = true
    · simpa [hexceeds] using Resources.Restored.refl r
    · by_cases hname : msg.proxyName ∈ r.pxys
      · simpa [hexceeds, hname] using Resources.Restored.refl r
      · simp only [hexceeds, hname, if_false, Bool.false_eq_true] at h ⊢
        have hconf : msg.conf.validateForServer s = .ok () := by
          unfold NewProxy.validate at hvalid
          split at hvalid
          · cases hvalid
          · exact hvalid
        rw [resources_runAndAdd h, restored_run_iff hconf hr he]
        simp

/-! ## Examples -/

def plainGo : Go := ⟨id, fun _ => none⟩

def plainServer : ServerConfig where
  subDomainHost := ""
  proxyBindAddr := "0.0.0.0"
  maxPortsPerClient := 0
  vhostHTTPPort := 0
  vhostHTTPSPort := 0
  tcpmuxHTTPConnectPort := 0
  natHoleController := true

def fresh : Resources := Resources.new [⟨0, 0, 6000⟩]

def udpRefused : Env where
  tcp := Ports.allOpen [6000]
  udp := Ports.allOpen [6000]
  listenTCP := fun _ => .ok ()
  resolveUDP := fun _ => .ok ()
  listenUDP := fun _ => .error "bind: address already in use"
  newMuxer := .ok ()
  tcpPick := 0
  udpPick := 0
  nameTaken := false
  object := 0
  now := 1

theorem failed_registration_restores_iff_udp :
    (registerProxy plainGo plainServer ⟨"a", .ok (), .udp 6000⟩ udpRefused fresh .new).err ≠ none ∧
      fresh.Restored (registerProxy plainGo plainServer ⟨"a", .ok (), .udp 6000⟩ udpRefused fresh
          .new).resources := by
  have herr : (registerProxy plainGo plainServer ⟨"a", .ok (), .udp 6000⟩ udpRefused fresh
      .new).err ≠ none := by
    decide +kernel
  refine ⟨herr, (failed_registration_restores_iff _ _ _ _ _ _ (wellFormed_new _)
    ⟨by decide +kernel, by decide +kernel⟩ herr).2 ?_⟩
  exact .inr (.inr (.inr (Ports.givesBack_of_ne_zero (by decide) _ _ _)))

theorem udp_failure_leaves_listener : fresh.WellFormed ∧ udpRefused.Fits fresh ∧
      (registerProxy plainGo plainServer ⟨"a", .ok (), .tcpudp 6000⟩ udpRefused fresh .new).err =
        some "bind: address already in use" ∧
      (registerProxy plainGo plainServer ⟨"a", .ok (), .tcpudp 6000⟩ udpRefused fresh
        .new).resources.tcp.listeners = {6000} ∧
      ¬ fresh.Restored
        (registerProxy plainGo plainServer ⟨"a", .ok (), .tcpudp 6000⟩ udpRefused fresh
          .new).resources := by
  refine ⟨wellFormed_new _, ⟨by decide +kernel, by decide +kernel⟩, by decide +kernel,
    by decide +kernel, ?_⟩
  intro h
  have hlisteners := h.tcp.listeners
  revert hlisteners
  decide +kernel

end FrpMeo.Server.Register
