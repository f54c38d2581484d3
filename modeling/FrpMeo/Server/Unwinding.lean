import FrpMeo.Server.Resources

/-!
# Taking back what was opened

The parts of the server's resources one by one: what is left when a proxy has opened its listeners
or routes there and closed them again (`Restored`). The first member of a group is not restored:
only the `Close` of a member removes the entry that `getOrCreate` has made.
-/

namespace FrpMeo.Server.Register

open Lib.Unwind Lib.Transition Function
open Server.Ports
open Vhost (Go Routers RouteConfig RouteSpec Listener Group Place Added SameRoutes utf8)

/-! ## Restored resources -/

/-- The entry of a group is what it was; an entry of a group without members may be gone. -/
def SameEntry {G : Type} (empty : G → Prop) (old new : Option G) : Prop :=
  new = old ∨ new = none ∧ ∃ g, old = some g ∧ empty g

variable {G : Type} {group name : String} {r : Resources} {t t₀ : Tcp} {v v₀ : VhostMux}
  {m : Manager} {tg : TCPGroup} {lb : LoadBalancer} {env : Env} {port : Int} {g : MuxGroup}
  {go : Go} {l l₀ : Listener} {xs ls : List Listener} {object : Nat}

theorem SameEntry.refl (empty : G → Prop) (entry : Option G) : SameEntry empty entry entry :=
  .inl rfl

theorem sameEntry_some_iff (empty : G → Prop) {old : Option G} {g : G} :
    SameEntry empty old (some (old.getD g)) ↔ old ≠ none := by
  cases old with
  | none | some => simp [SameEntry]

variable {empty : G → Prop}

theorem sameEntry_none {old : Option G} {g : G} (h : empty (old.getD g)) :
    SameEntry empty old none := by
  cases old with
  | none => exact .inl rfl
  | some g' => exact .inr ⟨rfl, g', rfl, h⟩

theorem sameEntry_update {groups : String → Option G} {new : Option G} :
    (∀ k, SameEntry empty (groups k) (update groups group new k)) ↔
      SameEntry empty (groups group) new := by
  constructor
  · intro h
    simpa using h group
  · intro h k
    by_cases hk : k = group
    · subst hk
      simpa using h
    · simpa [hk] using SameEntry.refl empty (groups k)

structure SameMuxer (mux mux' : MinecraftPortMux) : Prop where
  routers : SameRoutes mux.routers mux'.routers
  lnPort : mux'.lnPort = mux.lnPort
  refs : mux'.refs = mux.refs

structure Tcp.Restored (t t' : Tcp) : Prop where
  ports : SamePorts t.ports t'.ports
  listeners : t'.listeners = t.listeners
  groups : ∀ group, SameEntry (fun tg : TCPGroup => tg.lns = 0) (t.groups group) (t'.groups group)
  muxers : ∀ port, Option.Rel SameMuxer (t.muxers port) (t'.muxers port)

structure Udp.Restored (u u' : Udp) : Prop where
  ports : SamePorts u.ports u'.ports
  conns : u'.conns = u.conns

structure HttpVhost.Restored (v v' : HttpVhost) : Prop where
  routes : SameRoutes v.routes v'.routes
  groups : ∀ group, SameEntry (fun g : Group => g.members = []) (v.groups group) (v'.groups group)

structure VhostMux.Restored (v v' : VhostMux) : Prop where
  routes : SameRoutes v.routes v'.routes
  groups : ∀ group, SameEntry (fun g : MuxGroup => g.lns = 0) (v.groups group) (v'.groups group)

/-- Nothing was added that is still there, and nothing was taken that was there. -/
structure Resources.Restored (r r' : Resources) : Prop where
  tcp : r.tcp.Restored r'.tcp
  udp : r.udp.Restored r'.udp
  http : r.http.Restored r'.http
  muxes : ∀ mux, (r.muxes mux).Restored (r'.muxes mux)
  visitors : r'.visitors = r.visitors
  clients : r'.clients = r.clients
  pxys : r'.pxys = r.pxys

theorem sameMuxer_refl {mux : Option MinecraftPortMux} : Option.Rel SameMuxer mux mux := by
  cases mux with
  | none => exact .none
  | some mux => exact .some ⟨.refl mux.routers, rfl, rfl⟩

theorem Tcp.Restored.refl (t : Tcp) : t.Restored t :=
  ⟨.refl t.ports, rfl, fun _ => .refl _ _, fun _ => sameMuxer_refl⟩

theorem Udp.Restored.refl (u : Udp) : u.Restored u := ⟨.refl u.ports, rfl⟩

theorem HttpVhost.Restored.refl (v : HttpVhost) : v.Restored v :=
  ⟨.refl v.routes, fun _ => .refl _ _⟩

theorem VhostMux.Restored.refl (v : VhostMux) : v.Restored v := ⟨.refl v.routes, fun _ => .refl _ _⟩

theorem Resources.Restored.refl (r : Resources) : r.Restored r :=
  ⟨.refl r.tcp, .refl r.udp, .refl r.http, fun _ => .refl _, rfl, rfl, rfl⟩

theorem restored_tcp_iff : r.Restored { r with tcp := t } ↔ r.tcp.Restored t :=
  ⟨fun h => h.tcp, fun h => { Resources.Restored.refl r with tcp := h }⟩

variable {u : Udp}

theorem restored_udp_iff : r.Restored { r with udp := u } ↔ r.udp.Restored u :=
  ⟨fun h => h.udp, fun h => { Resources.Restored.refl r with udp := h }⟩

theorem restored_tcp_udp_iff :
    r.Restored { r with tcp := t, udp := u } ↔ r.tcp.Restored t ∧ r.udp.Restored u :=
  ⟨fun h => ⟨h.tcp, h.udp⟩, fun h => { Resources.Restored.refl r with tcp := h.1, udp := h.2 }⟩

theorem restored_http_iff {v : HttpVhost} : r.Restored { r with http := v } ↔ r.http.Restored v :=
  ⟨fun h => h.http, fun h => { Resources.Restored.refl r with http := h }⟩

theorem restored_setMux_iff {mux : Mux} :
    r.Restored (r.setMux mux v) ↔ (r.muxes mux).Restored v := by
  constructor
  · intro h
    simpa [Resources.setMux] using h.muxes mux
  · intro h
    refine { Resources.Restored.refl r with muxes := ?_ }
    intro mux'
    by_cases hmux : mux' = mux
    · subst hmux
      simpa [Resources.setMux] using h
    · simpa [Resources.setMux, hmux] using VhostMux.Restored.refl (r.muxes mux')

theorem Tcp.restored_ports_iff : t.Restored { t with ports := m } ↔ SamePorts t.ports m :=
  ⟨fun h => h.ports, fun h => { Tcp.Restored.refl t with ports := h }⟩

theorem Tcp.restored_ports_listeners_iff {lns : Multiset Int} :
    t.Restored { t with ports := m, listeners := lns } ↔ SamePorts t.ports m ∧ lns = t.listeners :=
  ⟨fun h => ⟨h.ports, h.listeners⟩,
    fun h => { Tcp.Restored.refl t with ports := h.1, listeners := h.2 }⟩

theorem Udp.restored_ports_iff : u.Restored { u with ports := m } ↔ SamePorts u.ports m :=
  ⟨fun h => h.ports, fun h => { Udp.Restored.refl u with ports := h }⟩

/-! ## Groups on TCP ports -/

namespace Tcp

/-- The state when a member has not joined, or has left again. -/
def groupUndone (env : Env) (name : String) (lb : LoadBalancer) (addr : String) (port : Int)
    (t : Tcp) : Tcp :=
  match t.groupListen env name lb addr port with
  | (t, .error _) => t
  | (t, .ok _) => t.groupClose env.now lb.group

/-- The group has members, or the port can be given back and the entry was there or goes. -/
def GroupUnwinds (env : Env) (name : String) (lb : LoadBalancer) (port : Int)
    (t : Tcp) : Prop :=
  match t.groups lb.group with
  | some tg => tg.lns = 0 → t.ports.GivesBack name port env.tcp
  | none =>
      t.ports.GivesBack name port env.tcp ∧
        ∃ p, (t.ports.acquire name port env.tcp).2 = .ok p ∧ env.listenTCP p = .ok ()

theorem setGroup_self (h : t.groups group = some tg) : t.setGroup group (some tg) = t := by
  simp [setGroup, ← h]

theorem groupListen_of_members (env : Env) (name : String) (addr : String) (port : Int)
    (h : t.groups lb.group = some tg) (hlns : tg.lns ≠ 0) :
    (∃ err, t.groupListen env name lb addr port = (t, .error err)) ∨
      ∃ ports, t.groupListen env name lb addr port =
        (t.setGroup lb.group (some { tg with lns := tg.lns + 1 }), .ok ports) := by
  simp only [groupListen, h, Option.getD_some, hlns, if_false, setGroup_self h]
  split_ifs
  · exact .inl ⟨_, rfl⟩
  · exact .inl ⟨_, rfl⟩
  · exact .inl ⟨_, rfl⟩
  · exact .inr ⟨_, rfl⟩

variable {addr : String}

theorem restored_groupUndone_of_members (h : t.groups lb.group = some tg)
    (hlns : tg.lns ≠ 0) : t.Restored (t.groupUndone env name lb addr port) := by
  have hundone : t.groupUndone env name lb addr port = t := by
    unfold groupUndone
    rcases groupListen_of_members env name addr port h hlns with ⟨err, hl⟩ | ⟨ports, hl⟩
    · rw [hl]
    · rw [hl]
      simp [groupClose, setGroup, hlns, ← h]
  rw [hundone]
  exact .refl t

theorem restored_groupUndone_of_empty (hm : t.ports.Sound)
    (ho : t.ports.Ordered env.tcp) (hlns : ((t.groups lb.group).getD .new).lns = 0) :
    t.Restored (t.groupUndone env name lb addr port) ↔
      t.ports.GivesBack name port env.tcp ∧ (t.groups lb.group = none →
        ∃ p, (t.ports.acquire name port env.tcp).2 = .ok p ∧ env.listenTCP p = .ok ()) := by
  -- the entry that `getOrCreate` has made stays, or it has gone with the listener
  have hstays : ∀ m, t.Restored
      { t.setGroup lb.group (some ((t.groups lb.group).getD .new)) with ports := m } ↔
      SamePorts t.ports m ∧ t.groups lb.group ≠ none := by
    intro m
    rw [← sameEntry_some_iff (fun tg : TCPGroup => tg.lns = 0), ← sameEntry_update]
    exact ⟨fun h => ⟨h.ports, h.groups⟩,
      fun h => { Restored.refl t with ports := h.1, groups := h.2 }⟩
  have hgone : ∀ m, t.Restored
      { t with ports := m, groups := update t.groups lb.group none } ↔
      SamePorts t.ports m := by
    intro m
    refine ⟨fun h => h.ports, fun h => { Restored.refl t with ports := h, groups := ?_ }⟩
    exact sameEntry_update.2 (sameEntry_none hlns)
  unfold groupUndone groupListen
  simp only [hlns, if_true, setGroup] at hstays ⊢
  rcases hacq : t.ports.acquire name port env.tcp with ⟨m, err | p⟩
  · have hsame := samePorts_error_iff hm ho hacq
    simp [hstays, hsame]
  · have hsame := samePorts_giveBack_iff hm ho hacq env.now
    rcases hlisten : env.listenTCP p with err | done
    · simp [hlisten, hstays, hsame]
    · simp [hlisten, groupClose, hgone, hsame]

theorem restored_groupUndone_iff (addr : String) (hm : t.ports.Sound)
    (ho : t.ports.Ordered env.tcp) :
    t.Restored (t.groupUndone env name lb addr port) ↔ t.GroupUnwinds env name lb port := by
  unfold GroupUnwinds
  cases hgroup : t.groups lb.group with
  | none =>
    rw [restored_groupUndone_of_empty hm ho (by simp [hgroup, TCPGroup.new])]
    simp [hgroup]
  | some tg =>
    by_cases hlns : tg.lns = 0
    · rw [restored_groupUndone_of_empty hm ho (by simp [hgroup, hlns])]
      simp [hgroup, hlns]
    · simp [hlns, restored_groupUndone_of_members hgroup hlns]

end Tcp

/-! ## Routes and groups of a muxer -/

def placeOf (go : Go) (l : Listener) : Place := go.place l.name l.location l.routeByHTTPUser

namespace VhostMux

/-- Its group has an entry, or the first listener finds its place free. -/
def Unwinds (go : Go) (lb : LoadBalancer) (ls : List Listener) (v : VhostMux) : Prop :=
  lb.group ≠ "" → v.groups lb.group = none → ∀ l ∈ ls.head?, v.routes.exist (placeOf go l) = false

structure Plus (go : Go) (v₀ v : VhostMux) (xs : List Listener) : Prop where
  routes : Added v₀.routes v.routes (xs.map (placeOf go))
  groups : v.groups = v₀.groups

theorem restored_undo_alone (hlb : lb.group = "") :
    v₀.Restored (undo (listen go lb) (close go lb.group) ls v₀) := by
  have hplus : Plus go v₀ (undo (listen go lb) (close go lb.group) ls v₀)
      [] := by
    -- a route that can be added had a free place, so deleting it deletes nothing else
    apply extra_undo
    · intro l xs v h
      simp only [listen, hlb, ne_eq, not_true_eq_false, if_false]
      cases hadd : muxerListen go v.routes l with
      | none => exact h
      | some routes =>
        refine ⟨?_, h.groups⟩
        rw [opened, List.map_append]
        exact h.routes.add hadd
    · intro l xs v h
      simp only [close, hlb, ne_eq, not_true_eq_false, if_false]
      exact ⟨h.routes.del, h.groups⟩
    · exact ⟨.refl v₀.routes, rfl⟩
  refine ⟨hplus.routes.sameRoutes, ?_⟩
  rw [hplus.groups]
  exact fun _ => .refl _ _

@[simp] theorem setGroup_groups (v : VhostMux) (group : String) (g : Option MuxGroup) :
    (v.setGroup group g).groups group = g := by
  simp [setGroup]

theorem setGroup_self (h : v.groups group = some g) : v.setGroup group (some g) = v := by
  simp [setGroup, ← h]

theorem groupListen_of_members (go : Go) (l : Listener) (h : v.groups lb.group = some g)
    (hlns : g.lns ≠ 0) : (∃ err, v.groupListen go lb l = (v, .error err)) ∨ v.groupListen go lb l =
      (v.setGroup lb.group (some { g with lns := g.lns + 1 }), .ok ()) := by
  simp only [groupListen, h, Option.getD_some, hlns, if_false, setGroup_self h]
  split_ifs
  · exact .inl ⟨_, rfl⟩
  · exact .inl ⟨_, rfl⟩
  · exact .inr rfl

theorem groupClose_of_members (h : v.groups group = some g) (hlns : 1 < g.lns) :
    v.groupClose go group = v.setGroup group (some { g with lns := g.lns - 1 }) := by
  simp [groupClose, h, Nat.not_le.2 hlns]

def Joined (group : String) (g : MuxGroup) (v₀ v : VhostMux) (xs : List Listener) : Prop :=
  v = v₀.setGroup group (some { g with lns := g.lns + xs.length })

theorem Joined.entry (h : Joined group g v₀ v xs) :
    v.groups group = some { g with lns := g.lns + xs.length } := by
  rw [h]
  exact v₀.setGroup_groups group _

theorem restored_undo_of_members (hlb : lb.group ≠ "") (hg : v₀.groups lb.group = some g)
    (hlns : g.lns ≠ 0) : v₀.Restored (undo (listen go lb) (close go lb.group) ls v₀) := by
  have hself := setGroup_self hg
  have hback : Joined lb.group g v₀
      (undo (listen go lb) (close go lb.group) ls v₀) [] := by
    apply extra_undo
    · intro l xs v h
      simp only [listen, if_pos hlb]
      rcases groupListen_of_members go l h.entry (by simp [hlns]) with ⟨err, hl⟩ | hl
      · rw [hl]
        exact h
      · rw [hl, h]
        simp [opened, Joined, setGroup, Nat.add_assoc]
    · intro l xs v h
      simp only [close, if_pos hlb]
      rw [groupClose_of_members h.entry (by simp; omega), h]
      simp [Joined, setGroup]
    · simp [Joined, hself]
  rw [hback]
  simpa [hself] using Restored.refl v₀

/-- `xs` are in the group that `l₀` has opened; without members there is no entry. -/
structure Founded (go : Go) (lb : LoadBalancer) (l₀ : Listener) (v₀ v : VhostMux)
    (xs : List Listener) : Prop where
  routes : Added v₀.routes v.routes (if xs = [] then [] else [placeOf go l₀])
  groups : v.groups = update v₀.groups lb.group
    (if xs = [] then none else some ⟨lb.group, lb.groupKey, l₀, xs.length⟩)

theorem Founded.entry (h : Founded go lb l₀ v₀ v xs) (hxs : xs ≠ []) :
    v.groups lb.group = some ⟨lb.group, lb.groupKey, l₀, xs.length⟩ := by
  rw [h.groups]
  simp [hxs]

theorem founded_undo (hlb : lb.group ≠ "")
    (hlns : ((v₀.groups lb.group).getD .new).lns = 0) {routes : Routers Listener}
    (hadd : muxerListen go v₀.routes l₀ = some routes) : Founded go lb l₀ v₀
      (undo (listen go lb) (close go lb.group) (l₀ :: ls) v₀) [] := by
  have hop : listen go lb l₀ v₀ =
      ({ v₀ with routes := routes }.setGroup lb.group (some ⟨lb.group, lb.groupKey, l₀, 1⟩),
        .ok ()) := by
    simp [listen, hlb, groupListen, hlns, setGroup, hadd]
  refine extra_undo_cons ?_ ?_ _ hop ?_
  · intro l xs v hxs h
    simp only [listen, if_pos hlb]
    rcases groupListen_of_members go l (h.entry hxs) (by simpa using hxs) with
      ⟨err, hl⟩ | hl
    · rw [hl]
      exact h
    · rw [hl]
      refine ⟨?_, ?_⟩
      · simpa [opened, hxs, setGroup] using h.routes
      · simp [opened, setGroup, h.groups]
  · intro l xs v h
    have hentry := h.entry (List.cons_ne_nil l xs)
    have hroutes := h.routes
    rw [if_neg (List.cons_ne_nil l xs)] at hroutes
    simp only [close, if_pos hlb]
    by_cases hxs : xs = []
    · -- the last member closes the real listener and removes the entry
      subst hxs
      refine ⟨?_, ?_⟩
      · simpa [groupClose, hentry, setGroup, muxerClose] using hroutes.del
      · simp [groupClose, hentry, setGroup, h.groups]
    · have hlen : 1 < (l :: xs).length := by
        simpa using List.length_pos_iff.2 hxs
      rw [groupClose_of_members hentry hlen]
      refine ⟨?_, ?_⟩
      · simpa [hxs, setGroup] using hroutes
      · simp [hxs, setGroup, h.groups]
  · refine ⟨?_, ?_⟩
    · simpa [setGroup, placeOf] using (Added.refl v₀.routes).add hadd
    · simp [setGroup]

theorem Founded.restored (hlns : ((v₀.groups lb.group).getD .new).lns = 0)
    (h : Founded go lb l₀ v₀ v []) : v₀.Restored v := by
  refine ⟨h.routes.sameRoutes, ?_⟩
  rw [h.groups]
  exact sameEntry_update.2 (sameEntry_none hlns)

theorem restored_undo_of_empty (hlb : lb.group ≠ "")
    (hlns : ((v₀.groups lb.group).getD .new).lns = 0) :
    v₀.Restored (undo (listen go lb) (close go lb.group) (l :: ls) v₀) ↔
      (v₀.groups lb.group = none → v₀.routes.exist (placeOf go l) = false) := by
  cases hadd : muxerListen go v₀.routes l with
  | some routes =>
    have hfree : v₀.routes.exist (placeOf go l) = false := Routers.exist_of_add_eq_some hadd
    simp only [hfree, implies_true, iff_true]
    exact (founded_undo hlb hlns hadd).restored hlns
  | none =>
    have htaken : v₀.routes.exist (placeOf go l) = true := Routers.exist_of_add_eq_none hadd
    have hop : listen go lb l v₀ =
        (v₀.setGroup lb.group (some ((v₀.groups lb.group).getD .new)),
          .error errRouterConfigConflict) := by
      simp [listen, hlb, groupListen, hlns, setGroup, hadd]
    rw [undo_cons_of_error hop, htaken]
    simp only [Bool.true_eq_false, imp_false]
    rw [← ne_eq, ← sameEntry_some_iff (fun g : MuxGroup => g.lns = 0),
      ← sameEntry_update]
    exact ⟨fun h => h.groups, fun h => { Restored.refl v₀ with groups := h }⟩

theorem restored_undo_iff :
    v₀.Restored (undo (listen go lb) (close go lb.group) ls v₀) ↔ v₀.Unwinds go lb ls := by
  unfold Unwinds
  by_cases hlb : lb.group = ""
  · exact iff_of_true (restored_undo_alone hlb) fun h => absurd hlb h
  · by_cases hlns : ((v₀.groups lb.group).getD .new).lns = 0
    · cases ls with
      | nil => simpa using Restored.refl v₀
      | cons l ls =>
        rw [restored_undo_of_empty hlb hlns]
        simp [hlb]
    · cases hg : v₀.groups lb.group with
      | none => simp [hg, MuxGroup.new] at hlns
      | some g =>
        have hmembers : g.lns ≠ 0 := by simpa [hg] using hlns
        simp [restored_undo_of_members hlb hg hmembers]

end VhostMux

/-! ## HTTP routes and groups -/

namespace HttpVhost

variable {v v₀ : HttpVhost} {g : Group} {specs : List RouteSpec}

/-- Its group has an entry, or the first route finds its place free. -/
def Unwinds (go : Go) (lb : LoadBalancer) (specs : List RouteSpec) (v : HttpVhost) :
    Prop :=
  lb.group ≠ "" → v.groups lb.group = none →
    ∀ spec ∈ specs.head?, v.routes.exist (spec.place go) = false

structure Plus (go : Go) (v₀ v : HttpVhost) (xs : List RouteSpec) : Prop where
  routes : Added v₀.routes v.routes (xs.map (RouteSpec.place go))
  groups : v.groups = v₀.groups

theorem restored_undo_alone (hlb : lb.group = "") :
    v₀.Restored (undo (listen go object name lb) (close go name lb.group) specs v₀) := by
  have hplus : Plus go v₀ (undo (listen go object name lb)
      (close go name lb.group) specs v₀) [] := by
    apply extra_undo
    · intro spec xs v h
      simp only [listen, hlb, ne_eq, not_true_eq_false, if_false, register]
      split
      · exact h
      · next routes hadd =>
        refine ⟨?_, h.groups⟩
        rw [opened, List.map_append]
        exact h.routes.add hadd
    · intro spec xs v h
      simp only [close, hlb, ne_eq, not_true_eq_false, if_false, unRegister]
      exact ⟨h.routes.del, h.groups⟩
    · exact ⟨.refl v₀.routes, rfl⟩
  refine ⟨hplus.routes.sameRoutes, ?_⟩
  rw [hplus.groups]
  exact fun _ => .refl _ _

@[simp] theorem setGroup_groups (v : HttpVhost) (group : String) (g : Option Group) :
    (v.setGroup group g).groups group = g := by
  simp [setGroup]

theorem setGroup_self (h : v.groups group = some g) : v.setGroup group (some g) = v := by
  simp [setGroup, ← h]

theorem groupRegister_of_members {spec : RouteSpec}
    (h : v.groups lb.group = some g) (hmembers : g.members ≠ []) :
    (∃ err, v.groupRegister go object name lb spec = (v, .error err)) ∨
      utf8 name ∉ g.members.map Prod.fst ∧
        ∃ g', v.groupRegister go object name lb spec = (v.setGroup lb.group (some g'), .ok ()) ∧
          utf8 name ∈ g'.members.map Prod.fst ∧ g'.remove (utf8 name) = g := by
  simp only [groupRegister, h, Option.getD_some, setGroup_self h]
  split
  · exact .inl ⟨_, rfl⟩
  · next g' routes hjoin =>
    obtain ⟨rfl, hnew, hin, hback⟩ := Group.remove_of_register hmembers hjoin
    exact .inr ⟨hnew, g', rfl, hin, hback⟩

/-- At most one route of the proxy joins a group that had other members. -/
def Joined (group name : String) (g : Group) (v₀ v : HttpVhost) :
    List RouteSpec → Prop
  | [] => v = v₀
  | [_] => ∃ g', v = v₀.setGroup group (some g') ∧ utf8 name ∈ g'.members.map Prod.fst ∧
      g'.remove (utf8 name) = g
  | _ => False

theorem restored_undo_of_members (hlb : lb.group ≠ "") (hg : v₀.groups lb.group = some g)
    (hmembers : g.members ≠ []) :
    v₀.Restored (undo (listen go object name lb) (close go name lb.group) specs v₀) := by
  have hback : Joined lb.group name g v₀ (undo (listen go object name lb)
      (close go name lb.group) specs v₀) [] := by
    apply extra_undo
    · intro spec xs v h
      simp only [listen, if_pos hlb]
      rcases xs with _ | ⟨x, _ | ⟨y, ys⟩⟩
      · rw [show v = v₀ from h]
        rcases groupRegister_of_members hg hmembers with
          ⟨err, hl⟩ | ⟨-, hjoined⟩
        · rw [hl]
          rfl
        · obtain ⟨g', hl, hin, hremove⟩ := hjoined
          rw [hl]
          exact ⟨g', rfl, hin, hremove⟩
      · -- the proxy is a member already
        obtain ⟨g', rfl, hin, hremove⟩ := h
        have hmembers' : g'.members ≠ [] := by
          intro hnil
          simp [hnil] at hin
        rcases groupRegister_of_members
          (v₀.setGroup_groups lb.group (some g')) hmembers' with ⟨err, hl⟩ | ⟨hnew, -⟩
        · rw [hl]
          exact ⟨g', rfl, hin, hremove⟩
        · exact absurd hin hnew
      · exact h.elim
    · intro spec xs v h
      simp only [close, if_pos hlb]
      rcases xs with _ | ⟨y, ys⟩
      · obtain ⟨g', rfl, hin, hremove⟩ := h
        have hself := setGroup_self hg
        simp only [setGroup] at hself
        simp [Joined, groupUnRegister, setGroup, hremove, hmembers,
          hself]
      · exact h.elim
    · rfl
  rw [hback]
  exact .refl v₀

def Founded (go : Go) (lb : LoadBalancer) (name : String) (spec₀ : RouteSpec)
    (v₀ v : HttpVhost) : List RouteSpec → Prop
  | [] => Added v₀.routes v.routes [] ∧ v.groups = update v₀.groups lb.group none
  | [_] => ∃ g, Added v₀.routes v.routes [spec₀.place go] ∧
      v.groups = update v₀.groups lb.group (some g) ∧
      g.members.map Prod.fst = [utf8 name] ∧ g.place go = spec₀.place go
  | _ => False

theorem groupRegister_of_empty (go : Go) (object : Nat) (name : String) (spec : RouteSpec)
    (hmembers : ((v.groups lb.group).getD .new).members = []) :
    match v.routes.add go spec.domain spec.location spec.routeByHTTPUser
      ⟨object, spec, .group object⟩ with
    | none => v.groupRegister go object name lb spec =
        (v.setGroup lb.group (some ((v.groups lb.group).getD .new)), .error errRouterConfigConflict)
    | some routes => ∃ g, v.groupRegister go object name lb spec =
        ({ v with routes := routes }.setGroup lb.group (some g), .ok ()) ∧
          g.members.map Prod.fst = [utf8 name] ∧ g.place go = spec.place go := by
  cases hadd : v.routes.add go spec.domain spec.location spec.routeByHTTPUser
      ⟨object, spec, .group object⟩ with
  | none =>
    simp [groupRegister, Group.register, hmembers, setGroup, hadd,
      groupErrText]
  | some routes =>
    simp only [groupRegister, Group.register, hmembers, setGroup, hadd, if_true,
      update_idem]
    exact ⟨_, rfl, rfl, rfl⟩

theorem founded_undo (hlb : lb.group ≠ "") {v₁ : HttpVhost} {spec₀ : RouteSpec}
    (hop : listen go object name lb spec₀ v₀ = (v₁, .ok ()))
    (hfounded : Founded go lb name spec₀ v₀ v₁ [spec₀]) :
    Founded go lb name spec₀ v₀ (undo (listen go object name lb)
      (close go name lb.group) (spec₀ :: specs) v₀) [] := by
  refine extra_undo_cons ?_ ?_ _ hop hfounded
  · intro spec xs v hxs h
    simp only [listen, if_pos hlb]
    rcases xs with _ | ⟨x, _ | ⟨y, ys⟩⟩
    · exact absurd rfl hxs
    · -- the proxy is a member already
      obtain ⟨g, hroutes, hgroups, hname, hplace⟩ := h
      have hg : v.groups lb.group = some g := by simp [hgroups]
      have hmembers : g.members ≠ [] := by
        intro hnil
        simp [hnil] at hname
      rcases groupRegister_of_members hg hmembers with
        ⟨err, hl⟩ | ⟨hnew, -⟩
      · rw [hl]
        exact ⟨g, hroutes, hgroups, hname, hplace⟩
      · simp [hname] at hnew
    · exact h.elim
  · intro spec xs v h
    simp only [close, if_pos hlb]
    rcases xs with _ | ⟨y, ys⟩
    · -- the only member leaves, and the entry goes with the route
      obtain ⟨g, hroutes, hgroups, hname, hplace⟩ := h
      have hg : v.groups lb.group = some g := by simp [hgroups]
      have hleft : (g.remove (utf8 name)).members = [] := by
        apply List.filter_eq_nil_iff.2
        intro m hm
        have hmem : m.1 ∈ g.members.map Prod.fst := List.mem_map_of_mem hm
        rw [hname, List.mem_singleton] at hmem
        simp [hmem]
      simp only [groupUnRegister, hg, hleft, if_true]
      refine ⟨?_, ?_⟩
      · rw [← hplace] at hroutes
        exact hroutes.del
      · simp [setGroup, hgroups]
    · exact h.elim

theorem restored_undo_of_empty (hlb : lb.group ≠ "") {spec : RouteSpec}
    (hmembers : ((v₀.groups lb.group).getD .new).members = []) :
    v₀.Restored (undo (listen go object name lb) (close go name lb.group) (spec :: specs) v₀) ↔
      (v₀.groups lb.group = none → v₀.routes.exist (spec.place go) = false) := by
  have hfirst := groupRegister_of_empty go object name spec hmembers
  cases hadd : v₀.routes.add go spec.domain spec.location spec.routeByHTTPUser
      ⟨object, spec, .group object⟩ with
  | some routes =>
    rw [hadd] at hfirst
    obtain ⟨g, hop, hname, hplace⟩ := hfirst
    have hfree : v₀.routes.exist (spec.place go) = false := Routers.exist_of_add_eq_some hadd
    simp only [hfree, implies_true, iff_true]
    obtain ⟨hroutes, hgroups⟩ := founded_undo hlb
      (by simpa [listen, hlb] using hop)
      ⟨g, (Added.refl v₀.routes).add hadd, rfl, hname, hplace⟩
    refine ⟨hroutes.sameRoutes, ?_⟩
    rw [hgroups]
    exact sameEntry_update.2 (sameEntry_none hmembers)
  | none =>
    rw [hadd] at hfirst
    have htaken : v₀.routes.exist (spec.place go) = true := Routers.exist_of_add_eq_none hadd
    rw [undo_cons_of_error (by simpa [listen, hlb] using hfirst), htaken]
    simp only [Bool.true_eq_false, imp_false]
    rw [← ne_eq, ← sameEntry_some_iff (fun g : Group => g.members = []),
      ← sameEntry_update]
    exact ⟨fun h => h.groups, fun h => { Restored.refl v₀ with groups := h }⟩

theorem restored_undo_iff :
    v₀.Restored (undo (listen go object name lb) (close go name lb.group) specs v₀) ↔
      v₀.Unwinds go lb specs := by
  unfold Unwinds
  by_cases hlb : lb.group = ""
  · exact iff_of_true (restored_undo_alone hlb) fun h => absurd hlb h
  · by_cases hmembers : ((v₀.groups lb.group).getD .new).members = []
    · cases specs with
      | nil => simpa using Restored.refl v₀
      | cons spec specs =>
        rw [restored_undo_of_empty hlb hmembers]
        simp [hlb]
    · cases hg : v₀.groups lb.group with
      | none => simp [hg, Group.new] at hmembers
      | some g =>
        rw [hg, Option.getD_some] at hmembers
        simp [restored_undo_of_members hlb hg hmembers]

end HttpVhost

/-! ## Shared Minecraft ports -/

namespace Tcp

def setMuxer (t : Tcp) (port : Int) (mux : Option MinecraftPortMux) : Tcp :=
  { t with muxers := update t.muxers port mux }

@[simp] theorem setMuxer_muxers {mux : Option MinecraftPortMux} :
    (t.setMuxer port mux).muxers port = mux := by
  simp [setMuxer]

variable {mux : MinecraftPortMux}

theorem minecraftListen_of_mux (h : t.muxers port = some mux) (hrefs : mux.refs ≠ 0) :
    t.minecraftListen go env port l =
      match muxerListen go mux.routers l with
      | none => (t, .error errRouterConfigConflict)
      | some routers =>
          (t.setMuxer port (some { mux with routers := routers, refs := mux.refs + 1 }),
            .ok ()) := by
  cases hadd : muxerListen go mux.routers l with
  | none => simp [minecraftListen, minecraftMux, h, hadd, hrefs]
  | some routers => simp [minecraftListen, minecraftMux, h, hadd, setMuxer]

theorem minecraftClose_of_many {now : Int} (h : t.muxers port = some mux) (hrefs : 1 < mux.refs) :
    t.minecraftClose go now port l = t.setMuxer port
      (some { mux with routers := muxerClose go mux.routers l, refs := mux.refs - 1 }) := by
  simp [minecraftClose, h, Nat.not_le.2 hrefs, setMuxer]

/-- `xs` listen on the muxer of the port, which others use too. -/
def Shared (go : Go) (port : Int) (mux₀ : MinecraftPortMux) (t₀ t : Tcp) (xs : List Listener) :
    Prop :=
  ∃ routers, Added mux₀.routers routers (xs.map (placeOf go)) ∧
    t = t₀.setMuxer port (some ⟨routers, mux₀.lnPort, mux₀.refs + xs.length⟩)

theorem restored_undo_of_mux {mux₀ : MinecraftPortMux} (hmux : t₀.muxers port = some mux₀)
    (hrefs : 0 < mux₀.refs) :
    t₀.Restored (undo (minecraftListen go env port) (minecraftClose go env.now port) ls t₀) := by
  have hshared : Shared go port mux₀ t₀ (undo (minecraftListen go env port)
      (minecraftClose go env.now port) ls t₀) [] := by
    -- the other users keep the muxer open, so `xs` only add to its routes and its count
    apply extra_undo
    · intro l xs t h
      obtain ⟨routers, hadded, rfl⟩ := h
      rw [minecraftListen_of_mux (setMuxer_muxers) (by simp; omega)]
      split
      · exact ⟨routers, hadded, rfl⟩
      · next routers' hadd =>
        refine ⟨routers', ?_, ?_⟩
        · rw [opened, List.map_append]
          exact hadded.add hadd
        · simp [opened, setMuxer, Nat.add_assoc]
    · intro l xs t h
      obtain ⟨routers, hadded, rfl⟩ := h
      rw [minecraftClose_of_many (setMuxer_muxers) (by simp; omega)]
      refine ⟨muxerClose go routers l, hadded.del, ?_⟩
      simp [setMuxer]
    · refine ⟨mux₀.routers, .refl _, ?_⟩
      simp [setMuxer, ← hmux]
  obtain ⟨routers, hadded, hback⟩ := hshared
  rw [hback]
  refine { Restored.refl t₀ with muxers := ?_ }
  intro port'
  by_cases hport : port' = port
  · subst hport
    simp only [setMuxer, update_self, hmux]
    exact .some ⟨hadded.sameRoutes, rfl, rfl⟩
  · simpa [setMuxer, hport] using sameMuxer_refl

/-- `xs` listen on a muxer the first of them opened; without them there is none. -/
structure Opened (go : Go) (now port lnPort : Int) (m : Manager) (t₀ t : Tcp)
    (xs : List Listener) : Prop where
  ports : t.ports = if xs = [] then m.release port now else m
  listeners : t.listeners = if xs = [] then t₀.listeners else lnPort ::ₘ t₀.listeners
  groups : t.groups = t₀.groups
  muxers : ∃ routers, Added .empty routers (xs.map (placeOf go)) ∧
    t.muxers = update t₀.muxers port
      (if xs = [] then none else some ⟨routers, lnPort, xs.length⟩)

theorem Opened.entry {now lnPort : Int} (h : Opened go now port lnPort m t₀ t xs) (hxs : xs ≠ []) :
    ∃ routers, Added .empty routers (xs.map (placeOf go)) ∧
      t.muxers port = some ⟨routers, lnPort, xs.length⟩ := by
  obtain ⟨routers, hadded, hmuxers⟩ := h.muxers
  exact ⟨routers, hadded, by simp [hmuxers, hxs]⟩

theorem opened_undo {lnPort : Int} {t₁ : Tcp}
    (hop : minecraftListen go env port l₀ t₀ = (t₁, .ok ()))
    (hopened : Opened go env.now port lnPort m t₀ t₁ [l₀]) (ls : List Listener) :
    Opened go env.now port lnPort m t₀ (undo (minecraftListen go env port)
      (minecraftClose go env.now port) (l₀ :: ls) t₀) [] := by
  refine extra_undo_cons ?_ ?_ ls hop hopened
  · intro l xs t hxs h
    obtain ⟨routers, hadded, hmux⟩ := h.entry hxs
    rw [minecraftListen_of_mux hmux (by simpa using hxs)]
    split
    · exact h
    · next routers' hadd =>
      refine ⟨?_, ?_, h.groups, routers', ?_, ?_⟩
      · simpa [opened, hxs, setMuxer] using h.ports
      · simpa [opened, hxs, setMuxer] using h.listeners
      · rw [opened, List.map_append]
        exact hadded.add hadd
      · obtain ⟨_, _, hmuxers⟩ := h.muxers
        simp [opened, setMuxer, hmuxers]
  · intro l xs t h
    obtain ⟨routers, hadded, hmux⟩ := h.entry (List.cons_ne_nil l xs)
    obtain ⟨_, _, hmuxers⟩ := h.muxers
    have hports := h.ports
    have hlisteners := h.listeners
    rw [if_neg (List.cons_ne_nil l xs)] at hports hlisteners
    by_cases hxs : xs = []
    · -- the last listener closes the muxer, with its port
      subst hxs
      have hdrop : t.minecraftClose go env.now port l =
          t.minecraftDrop env.now port ⟨routers, lnPort, 1⟩ := by
        simp [minecraftClose, hmux]
      rw [hdrop]
      refine ⟨?_, ?_, h.groups, .empty, .refl _, ?_⟩
      · simp [minecraftDrop, hports]
      · simp [minecraftDrop, hlisteners]
      · simp [minecraftDrop, hmuxers]
    · have hlen : 1 < (l :: xs).length := by
        simpa using List.length_pos_iff.2 hxs
      rw [minecraftClose_of_many hmux hlen]
      refine ⟨?_, ?_, h.groups, muxerClose go routers l, hadded.del, ?_⟩
      · simpa [hxs, setMuxer] using hports
      · simpa [hxs, setMuxer] using hlisteners
      · simp [hxs, setMuxer, hmuxers]

theorem minecraftListen_of_none (hport : port ≠ 0) (hm : t₀.ports.Sound)
    (ho : t₀.ports.Ordered env.tcp) (hmux : t₀.muxers port = none) :
    (∃ m err, SamePorts t₀.ports m ∧
      t₀.minecraftListen go env port l = ({ t₀ with ports := m }, .error err)) ∨
    ∃ t₁ m lnPort, t₀.minecraftListen go env port l = (t₁, .ok ()) ∧
      Opened go env.now port lnPort m t₀ t₁ [l] ∧
      SamePorts t₀.ports (m.release port env.now) := by
  -- only a call for any port can be granted a port that is used, and this one is for `port`
  have hback := givesBack_of_ne_zero hport t₀.ports (minecraftPortName port) env.tcp
  rcases hacq : t₀.ports.acquire (minecraftPortName port) port env.tcp with ⟨m, err | p⟩
  · have hsame := (samePorts_error_iff hm ho hacq).2 hback
    exact .inl ⟨m, _, hsame, by simp [minecraftListen, minecraftMux, hmux, hacq]; rfl⟩
  · have hsame := (samePorts_giveBack_iff hm ho hacq env.now).2 hback
    have hp : p = port := granted_eq ho hport (congrArg Prod.snd hacq)
    subst hp
    rcases hlisten : env.listenTCP p with err | done
    · exact .inl ⟨_, err, hsame, by
        simp [minecraftListen, minecraftMux, hmux, hacq, hlisten]⟩
    · rcases hnew : env.newMuxer with err | done
      · exact .inl ⟨_, err, hsame, by
          simp [minecraftListen, minecraftMux, hmux, hacq, hlisten, hnew]⟩
      · -- a new muxer has no routes, so there is no conflict
        obtain ⟨routers, hadd⟩ : ∃ routers, muxerListen go .empty l = some routers := by
          simp [muxerListen, Routers.add, Routers.exist, Routers.empty]
        refine .inr ⟨_, m, bound env.tcpPick p, by
          simp [minecraftListen, minecraftMux, hmux, hacq, hlisten, hnew, hadd]; rfl,
          ⟨?_, ?_, ?_, routers, ?_, ?_⟩, hsame⟩
        · simp
        · simp
        · rfl
        · exact (Added.refl .empty).add hadd
        · simp

theorem restored_undo_minecraft (hport : port ≠ 0) (hm : t₀.ports.Sound)
    (ho : t₀.ports.Ordered env.tcp) (hrefs : ∀ mux, t₀.muxers port = some mux → 0 < mux.refs) :
    t₀.Restored (undo (minecraftListen go env port) (minecraftClose go env.now port) ls t₀) := by
  cases hmux : t₀.muxers port with
  | some mux => exact restored_undo_of_mux hmux (hrefs mux hmux)
  | none =>
    cases ls with
    | nil => exact .refl t₀
    | cons l ls =>
      rcases minecraftListen_of_none hport hm ho hmux with
        ⟨m, err, hsame, hop⟩ | ⟨t₁, m, lnPort, hop, hopened, hsame⟩
      · rw [undo_cons_of_error hop]
        exact restored_ports_iff.2 hsame
      · have hback := opened_undo hop hopened ls
        obtain ⟨_, _, hmuxers⟩ := hback.muxers
        refine ⟨?_, hback.listeners, ?_, ?_⟩
        · rw [hback.ports]
          exact hsame
        · rw [hback.groups]
          exact fun _ => .refl _ _
        · rw [hmuxers]
          simpa [← hmux] using fun port => sameMuxer_refl

end Tcp

end FrpMeo.Server.Register
