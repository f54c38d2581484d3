import FrpMeo.Vhost.Apart

/-!
# Credentials in load-balancing groups

The route of a group is a copy of its first member's config, so a request is checked against that
member's credentials and then sent to any member. `HTTPGroup.Register` does not compare the
credentials of a member that joins; `TCPMuxGroup` does.
-/

namespace FrpMeo.Vhost

open Lib Lib.Bytes Lib.Transition

/-! ## The property -/

/-- A request that is sent to a member of a group satisfies the member's credentials. -/
def Pc.OwnCredentials (go : Go) : Pc → Prop
  | .carried f conn => ∀ g, conn.rc.createConn = .group g →
      satisfies go f.req conn.fn.username conn.fn.password = true
  | _ => True

def MembersGuarded (go : Go) (ok : State → Action → Prop) : Prop :=
  ∀ s, Reach (step go) ok .init s → ∀ pc ∈ s.reqs, pc.OwnCredentials go

/-! ## The guard -/

/-- The proxy function has the user name and password of the config. -/
def ConnFn.Agrees (fn : ConnFn) (spec : RouteSpec) : Prop :=
  fn.username = spec.username ∧ fn.password = spec.password

instance (fn : ConnFn) (spec : RouteSpec) : Decidable (fn.Agrees spec) :=
  inferInstanceAs (Decidable (_ ∧ _))

/-- A proxy that its group accepts has the credentials of the members that are there. -/
def JoinsAlike (go : Go) (s : State) : Action → Prop
  | .change (.join group proxyName groupKey spec) =>
      ∀ g ∈ (s.registry group).toList, ∀ gr ∈ s.groups[g]?.toList,
        (gr.register go g s.nextRoute s.routers proxyName group groupKey spec).isOk = true →
          ∀ m ∈ gr.members, m.2.Agrees spec
  | _ => True

/-- The config is registered, or an open connection was made through it. -/
def State.LiveSpec (s : State) (spec : RouteSpec) : Prop :=
  s.routers.Has spec ∨ ∃ conn ∈ s.pooled, conn.rc.spec = spec

/-- The host of an unrouted request is and becomes no pool key while it is in flight. -/
def HostsStayApart (go : Go) (s : State) : Action → Prop
  | .serve req _ => getRouteConfig go s.routers req = none → AwayFrom s.LiveSpec req.host
  | .change c => ∀ pc ∈ s.reqs, ∀ f ∈ pc.flight?.toList, f.rc = none →
      ∀ r ∈ (applyChange go s c).routers.routes, r ∈ s.routers.routes ∨
        ∀ endpoint, poolKey r.payload.spec endpoint ≠ f.req.host
  | _ => True

structure Orderly (go : Go) (s : State) (a : Action) : Prop where
  steady : Steady go s a
  apart : HostsStayApart go s a
  alike : JoinsAlike go s a

/-! ## Requests without a route -/

variable {pc : Pc} {s : State} {go : Go} {a : Action} {r : Router RouteConfig} {g : Nat}

theorem Pc.Apart.mono {live live' : RouteSpec → Prop} (h : pc.Apart live)
    (haway : ∀ f, pc.flight? = some f → f.rc = none → AwayFrom live f.req.host →
      AwayFrom live' f.req.host) (hconn : ∀ conn, pc.pooled? = some conn → conn.Live live') :
    pc.Apart live' := by
  cases pc with
  | checked f | ready f => exact fun hnone => haway f rfl hnone (h hnone)
  | dialing f rc => exact h
  | carried f conn => exact ⟨h.1, fun hconnect => hconn conn (by simp [Pc.pooled?, hconnect])⟩
  | done => trivial

theorem mem_pooled_of_reqs {conn : Conn} (hpc : pc ∈ s.reqs) (hconn : pc.pooled? = some conn) :
    conn ∈ s.pooled :=
  List.mem_append_right _ (List.mem_filterMap.2 ⟨pc, hpc, hconn⟩)

theorem Each.shrink {live : RouteSpec → Prop} (h : Each (Pc.Apart live) (Conn.Live live) s)
    (hsub : ∀ spec, s.LiveSpec spec → live spec) :
    Each (Pc.Apart s.LiveSpec) (Conn.Live s.LiveSpec) s := by
  constructor
  · intro pc hpc
    refine (h.reqs pc hpc).mono ?_ ?_
    · intro f _ _ haway spec hspec
      exact haway spec (hsub spec hspec)
    · intro conn hconn
      exact .inr ⟨conn, mem_pooled_of_reqs hpc hconn, rfl⟩
  · intro conn hconn
    exact .inr ⟨conn, List.mem_append_left _ hconn, rfl⟩

variable {c : Change}

theorem Each.apart_change (h : Each (Pc.Apart s.LiveSpec) (Conn.Live s.LiveSpec) s)
    (hapart : HostsStayApart go s (.change c)) :
    Each (Pc.Apart (applyChange go s c).LiveSpec) (Conn.Live (applyChange go s c).LiveSpec)
      (applyChange go s c) := by
  have hpooled : (applyChange go s c).pooled = s.pooled := by simp [State.pooled]
  constructor
  · rw [applyChange_reqs]
    intro pc hpc
    refine (h.reqs pc hpc).mono ?_ ?_
    · intro f hf hnone haway spec hspec endpoint
      rcases hspec with ⟨r, hr, rfl⟩ | ⟨conn, hconn, rfl⟩
      · rcases hapart pc hpc f (by simp [hf]) hnone r hr with hold | hnew
        · exact haway _ (.inl ⟨r, hold, rfl⟩) endpoint
        · exact hnew endpoint
      · rw [hpooled] at hconn
        exact haway _ (.inr ⟨conn, hconn, rfl⟩) endpoint
    · intro conn hconn
      refine .inr ⟨conn, ?_, rfl⟩
      rw [hpooled]
      exact mem_pooled_of_reqs hpc hconn
  · intro conn hconn
    exact .inr ⟨conn, List.mem_append_left _ hconn, rfl⟩

variable {t : State}

theorem SteadyInv.apart_step (h : SteadyInv go s)
    (heach : Each (Pc.Apart s.LiveSpec) (Conn.Live s.LiveSpec) s) (ha : ∀ c, a ≠ .change c)
    (hapart : HostsStayApart go s a) (hst : step go s a = some t) :
    Each (Pc.Apart t.LiveSpec) (Conn.Live t.LiveSpec) t := by
  have hnext : Each (Pc.Apart s.LiveSpec) (Conn.Live s.LiveSpec) t := by
    refine heach.step ha hst ?_ fun pc hpc pc' idle hm =>
      h.apart_moves (fun _ hspec => .inl hspec) heach hpc hm
    intro req allow hreq
    subst hreq
    exact Pc.Apart.serve allow hapart
  refine hnext.shrink ?_
  rintro spec (hreg | ⟨conn, hconn, rfl⟩)
  · rw [routers_of_step ha hst] at hreg
    exact .inl hreg
  · rcases List.mem_append.1 hconn with hidle | hreq
    · exact hnext.idle conn hidle
    · obtain ⟨pc, hpc, hp⟩ := List.mem_filterMap.1 hreq
      have hap := hnext.reqs pc hpc
      cases pc with
      | carried f conn' =>
        cases hconnect : f.req.connect with
        | true => simp [Pc.pooled?, hconnect] at hp
        | false =>
          simp only [Pc.pooled?, hconnect] at hp
          cases hp
          exact hap.2 hconnect
      | checked | ready | dialing | done => cases hp

/-! ## Routes and their members -/

/-- A route leads to proxies with its credentials: a group has members, all with these. -/
def Router.Backed (go : Go) (groups : List Group) (r : Router RouteConfig) : Prop :=
  match r.payload.createConn with
  | .proxy fn => fn.Agrees r.payload.spec
  | .group g => ∃ gr, groups[g]? = some gr ∧ gr.place go = r.place ∧ gr.members ≠ [] ∧
      ∀ m ∈ gr.members, m.2.Agrees r.payload.spec

theorem Router.Backed.of_groups {groups groups' : List Group} (h : r.Backed go groups)
    (hgroups : ∀ g gr, r.payload.createConn = .group g → groups[g]? = some gr →
      gr.place go = r.place → gr.members ≠ [] → (∀ m ∈ gr.members, m.2.Agrees r.payload.spec) →
      ∃ gr', groups'[g]? = some gr' ∧ gr'.place go = r.place ∧ gr'.members ≠ [] ∧
        ∀ m ∈ gr'.members, m.2.Agrees r.payload.spec) : r.Backed go groups' := by
  unfold Router.Backed at h ⊢
  cases hc : r.payload.createConn with
  | proxy fn => simpa [hc] using h
  | group g =>
    simp only [hc] at h ⊢
    obtain ⟨gr, hgr, hplace, hne, hagree⟩ := h
    exact hgroups g gr hc hgr hplace hne hagree

variable {gr gr' : Group}

theorem Router.Backed.set {groups : List Group} (h : r.Backed go groups)
    (hgr : groups[g]? = some gr)
    (hnew : r.payload.createConn = .group g → gr.place go = r.place → gr.members ≠ [] →
      (∀ m ∈ gr.members, m.2.Agrees r.payload.spec) → gr'.place go = r.place ∧
        gr'.members ≠ [] ∧ ∀ m ∈ gr'.members, m.2.Agrees r.payload.spec) :
    r.Backed go (groups.set g gr') := by
  refine h.of_groups fun g₁ gr₁ hc hgr₁ hplace hne hagree => ?_
  by_cases hg : g₁ = g
  · subst hg
    rw [hgr] at hgr₁
    cases hgr₁
    have hlt := (List.getElem?_eq_some_iff.1 hgr).1
    exact ⟨gr', by simp [hlt], hnew hc hplace hne hagree⟩
  · refine ⟨gr₁, ?_, hplace, hne, hagree⟩
    rw [List.getElem?_set_ne (Ne.symm hg)]
    exact hgr₁

def Backed (go : Go) (s : State) : Prop := ∀ r ∈ s.routers.routes, r.Backed go s.groups

theorem Backed.turned (h : Backed go s) (hrs : t.routers = s.routers)
    (hturn : Turned s.groups t.groups) : Backed go t := by
  intro r hr
  rw [hrs] at hr
  rcases hturn with heq | ⟨g, gr, hgr, heq⟩
  · rw [heq]
    exact h r hr
  · rw [heq]
    exact (h r hr).set hgr fun _ hplace hne hagree => ⟨hplace, hne, hagree⟩

variable {proxyName : Bytes} {rs : Routers RouteConfig} {spec : RouteSpec}

theorem Backed.first (h : Backed go s) {id : Nat} (hgr : s.groups[g]? = some gr)
    (hempty : gr.members = []) (hmembers : gr'.members = [(proxyName, spec.connFn)])
    (hplace : gr'.place go = spec.place go)
    (hadd : s.routers.add go spec.domain spec.location spec.routeByHTTPUser ⟨id, spec, .group g⟩ =
      some rs) : ∀ r ∈ rs.routes, r.Backed go (s.groups.set g gr') := by
  intro r hr
  rcases (Routers.mem_add hadd r).1 hr with rfl | hold
  · have hlt := (List.getElem?_eq_some_iff.1 hgr).1
    refine ⟨gr', by simp [hlt], hplace, by simp [hmembers], ?_⟩
    intro m hm
    rw [hmembers] at hm
    rw [List.mem_singleton.1 hm]
    exact ⟨rfl, rfl⟩
  · -- an earlier route of this object would have had members
    exact (h r hold).set hgr fun _ _ hne _ => absurd hempty hne

theorem Backed.later (h : Backed go s) (hgr : s.groups[g]? = some gr)
    (hmembers : gr'.members = gr.members ++ [(proxyName, spec.connFn)])
    (hplace : gr'.place go = gr.place go) (halike : ∀ m ∈ gr.members, m.2.Agrees spec) :
    ∀ r ∈ s.routers.routes, r.Backed go (s.groups.set g gr') := by
  intro r hr
  refine (h r hr).set hgr fun _ hp hne hagree => ?_
  refine ⟨hplace.trans hp, by simp [hmembers], ?_⟩
  intro m hm
  rw [hmembers] at hm
  rcases List.mem_append.1 hm with hold | hnew
  · exact hagree m hold
  · -- the new member agrees with an old one, and that one with the route
    obtain ⟨m₀, hm₀⟩ := List.exists_mem_of_ne_nil _ hne
    obtain ⟨hu, hp⟩ := halike m₀ hm₀
    obtain ⟨hu', hp'⟩ := hagree m₀ hm₀
    rw [List.mem_singleton.1 hnew]
    exact ⟨hu.symm.trans hu', hp.symm.trans hp'⟩

theorem Backed.leaveLast (h : Backed go s) (hgr : s.groups[g]? = some gr) :
    ∀ r ∈ (s.routers.del go gr.domain gr.location gr.routeByHTTPUser).routes,
      r.Backed go (s.groups.set g gr') := by
  intro r hr
  -- a route of this object stood at the place that is deleted
  obtain ⟨hold, hne⟩ := Routers.mem_del.1 hr
  exact (h r hold).set hgr fun _ hplace _ _ => absurd hplace.symm hne

theorem Backed.changed (h : Backed go s)
    (halike : JoinsAlike go s (.change c)) (hc : Changed go s c t) : Backed go t := by
  cases hc with
  | same => exact h
  | register spec rs hadd =>
    intro r hr
    rcases (Routers.mem_add hadd r).1 hr with rfl | hold
    · exact ⟨rfl, rfl⟩
    · exact h r hold
  | unregister spec => exact fun r hr => h r (Routers.mem_del.1 hr).1
  | create group registry =>
    intro r hr
    refine (h r hr).of_groups fun g gr _ hgr hplace hne hagree => ⟨gr, ?_, hplace, hne, hagree⟩
    have hlt := (List.getElem?_eq_some_iff.1 hgr).1
    rw [List.getElem?_append_left hlt]
    exact hgr
  | join group proxyName groupKey spec g gr gr' rs hg hgr hreg =>
    cases Group.joined_of_register hreg with
    | first hempty hmembers hplace hadd => exact h.first hgr hempty hmembers hplace hadd
    | later hne hmembers hplace hrs =>
      rw [hrs] at hreg ⊢
      have hall := halike g (by simp [hg]) gr (by simp [hgr]) (by rw [hreg]; rfl)
      exact h.later hgr hmembers hplace hall
  | leaveLast g proxyName gr registry hgr hempty => exact h.leaveLast hgr
  | leave g proxyName gr hgr hne =>
    intro r hr
    refine (h r hr).set hgr fun _ hplace _ hagree => ⟨hplace, hne, fun m hm => ?_⟩
    exact hagree m (List.mem_of_mem_filter hm)

theorem Router.Backed.agrees (h : r.Backed go s.groups) {f : Flight} {fn : ConnFn}
    (hfn : (connFnOf s f r.payload).1 = some fn) : fn.Agrees r.payload.spec := by
  unfold Router.Backed at h
  unfold connFnOf at hfn
  cases hc : r.payload.createConn with
  | proxy fn' =>
    simp only [hc, Option.some.injEq] at h hfn
    rw [← hfn]
    exact h
  | group g =>
    simp only [hc] at h hfn
    obtain ⟨gr, hgr, -, -, hagree⟩ := h
    simp only [hgr] at hfn
    have hmem : gr.HasFn fn := by
      split_ifs at hfn
      · exact Group.hasFn_of_createConn hfn
      · exact Group.hasFn_of_createConnByEndpoint hfn
    obtain ⟨name, hname⟩ := hmem
    exact hagree (name, fn) hname

/-! ## Requests and connections -/

/-- The connection leads to a proxy with the credentials of the route that made it. -/
def Conn.Agrees (conn : Conn) : Prop := conn.fn.Agrees conn.rc.spec

/-- The request satisfies the credentials of the route it was checked against. -/
def Flight.Passed (go : Go) (f : Flight) : Prop := checkRouteAuthByRequest go f.req f.rc = true

def Pc.Passed (go : Go) : Pc → Prop
  | .checked f | .ready f | .dialing f _ => f.Passed go
  | .carried f conn => f.Passed go ∧ conn.Agrees
  | .done => True

theorem Pc.Passed.serve (req : Request) (allow : Bool) : (serve go rs req allow).Passed go := by
  rcases serve_cases go rs req allow with hdone | ⟨hchecked, hpass⟩
  · rw [hdone]
    trivial
  · rw [hchecked]
    exact hpass

structure MemberInv (go : Go) (s : State) : Prop where
  steady : SteadyInv go s
  apart : Each (Pc.Apart s.LiveSpec) (Conn.Live s.LiveSpec) s
  backed : Backed go s
  passed : Each (Pc.Passed go) Conn.Agrees s

theorem MemberInv.moves (h : MemberInv go s) {pc' : Pc} {idle : List Conn} (hpc : pc ∈ s.reqs)
    (hm : Moves go s pc pc' idle) : pc'.Passed go ∧ ∀ conn ∈ idle, conn.Agrees := by
  have hsteady := h.steady.each.reqs pc hpc
  have hpassed := h.passed.reqs pc hpc
  have hidle := h.passed.idle
  -- a connection that is dialled now comes from a registered route, which is backed
  have hdial : ∀ (f : Flight) (rc : RouteConfig) (fn : ConnFn), f.Current go s.routers →
      f.rc = some rc → (connFnOf s f rc).1 = some fn → (Conn.mk f.key rc fn).Agrees := by
    intro f rc fn hcur hrc hfn
    obtain ⟨r, hr, hpay⟩ := exists_route_of_getRouteConfig (hcur.trans hrc)
    subst hpay
    exact (h.backed r hr).agrees hfn
  cases hm with
  | take f conn n hn hkey =>
    exact ⟨⟨hpassed, hidle conn (List.mem_of_getElem? hn)⟩, h.passed.idle_eraseIdx n⟩
  | rewrite | lookup | lookupConnect => exact ⟨hpassed, hidle⟩
  | dial f rc fn hconnect hfn =>
    exact ⟨hpassed, h.passed.idle_append (hdial f rc fn hsteady.1 hsteady.2.1 hfn)⟩
  | dialConnect f rc fn hconnect hfn =>
    exact ⟨⟨hpassed, hdial f rc fn hsteady.1 hsteady.2.1 hfn⟩, hidle⟩
  | retry f conn hconnect => exact ⟨hpassed.1, hidle⟩
  | keep f conn hconnect => exact ⟨trivial, h.passed.idle_append hpassed.2⟩
  | stop => exact ⟨trivial, hidle⟩

theorem memberInv_step (h : MemberInv go s) (hok : Orderly go s a)
    (hst : step go s a = some t) : MemberInv go t := by
  have hsteady := steadyInv_step h.steady hok.steady hst
  by_cases ha : ∃ c, a = .change c
  · obtain ⟨c, rfl⟩ := ha
    cases hst
    refine ⟨hsteady, h.apart.apart_change hok.apart,
      h.backed.changed hok.alike (changed_applyChange go s c), ⟨?_, ?_⟩⟩
    · rw [applyChange_reqs]
      exact h.passed.reqs
    · rw [applyChange_idle]
      exact h.passed.idle
  · have hne : ∀ c, a ≠ .change c := fun c hc => ha ⟨c, hc⟩
    refine ⟨hsteady, h.steady.apart_step h.apart hne hok.apart hst,
      h.backed.turned (routers_of_step hne hst) (turned_of_step hne hst), ?_⟩
    exact h.passed.step hne hst (fun req allow _ => Pc.Passed.serve req allow)
      fun pc hpc pc' idle hm => h.moves hpc hm

theorem memberInv_of_reach (h : Reach (step go) (Orderly go) .init s) : MemberInv go s := by
  refine invariant_of_reach ?_ ?_ h
  · exact ⟨steadyInv_init go, each_init _ _, nofun, each_init _ _⟩
  · intro u a v hu hok hst
    exact memberInv_step hu hok hst

/-- If members join with the credentials of those there, changes keep routes in flight and keys, and
unrouted requests stay away from pool keys, every request sent to a member satisfies its own
credentials. -/
theorem own_credentials (go : Go) : MembersGuarded go (Orderly go) := by
  intro s hs pc hpc
  have hinv := memberInv_of_reach hs
  have hsteady := hinv.steady.each.reqs pc hpc
  have hap := hinv.apart.reqs pc hpc
  have hpassed := hinv.passed.reqs pc hpc
  cases pc with
  | checked | ready | dialing | done => trivial
  | carried f conn =>
    intro g _
    obtain ⟨rc, hrc⟩ := Option.isSome_iff_exists.1 hap.1
    have hown : conn.rc = rc := hsteady.2.2 rc hrc
    obtain ⟨hu, hp⟩ := hpassed.2
    have hcheck := hpassed.1
    rw [Flight.Passed, hrc, ← hown] at hcheck
    rw [hu, hp]
    exact hcheck

/-! ## Two members -/

instance (go : Go) (s : State) (a : Action) : Decidable (JoinsAlike go s a) :=
  match a with
  | .change (.join group _ _ _) => inferInstanceAs (Decidable (∀ g ∈ (s.registry group).toList, _))
  | .change (.register _) | .change (.unregister _) | .change (.getOrCreate _)
  | .change (.leave _ _) | .serve _ _ | .move _ _ | .drop _ => inferInstanceAs (Decidable True)

def AllMatch (go : Go) (s : State) : Action → Prop
  | .serve req _ => getRouteConfig go s.routers req ≠ none
  | .change _ => ∀ pc ∈ s.reqs, ∀ f ∈ pc.flight?.toList, f.rc ≠ none
  | _ => True

instance (go : Go) (s : State) (a : Action) : Decidable (AllMatch go s a) := by
  induction a using Action.casesOn <;> dsimp only [AllMatch] <;> infer_instance

theorem hostsStayApart_of_allMatch (h : AllMatch go s a) : HostsStayApart go s a := by
  cases a with
  | serve req allow => exact fun hnone => absurd hnone h
  | change c => exact fun pc hpc f hf hnone => absurd hnone (h pc hpc f hf)
  | move | drop => trivial

def joinWeb (name : String) (spec : RouteSpec) : Action :=
  .change (.join (ascii "web") (ascii name) [] spec)

def alikeRun : List Action :=
  [.change (.getOrCreate (ascii "web")), joinWeb "a" (lockedRoute "example.com" 1),
    joinWeb "b" (lockedRoute "example.com" 2), .serve (lockedRequest "example.com") true,
    .move 0 .rewrite, .move 0 .dialLookup, .move 0 (.dialCall true), .move 0 (.takeIdle 0)]

def alikeState : State :=
  (run (step asciiGo)
    (fun s a => Steady asciiGo s a ∧ AllMatch asciiGo s a ∧ JoinsAlike asciiGo s a)
    .init alikeRun).getD .init

theorem own_credentials_alikeRun : Reach (step asciiGo) (Orderly asciiGo) .init alikeState ∧
      (∃ pc ∈ alikeState.reqs, pc.CarriedTo 2) ∧
      ∀ pc ∈ alikeState.reqs, pc.OwnCredentials asciiGo := by
  have hreach : Reach (step asciiGo) (Orderly asciiGo) .init alikeState :=
    reach_mono (fun _ _ h => ⟨h.1, hostsStayApart_of_allMatch h.2.1, h.2.2⟩)
      (reach_getD_of_isSome (by decide +kernel))
  exact ⟨hreach, by decide +kernel, own_credentials asciiGo alikeState hreach⟩

def unlikeRun : List Action :=
  [.change (.getOrCreate (ascii "web")), joinWeb "a" (domainRoute "example.com" 1),
    joinWeb "b" (lockedRoute "example.com" 2), .serve (plainRequest "example.com") true,
    .move 0 .rewrite, .move 0 .dialLookup, .move 0 (.dialCall true), .move 0 (.takeIdle 0)]

def unlikeState : State := (run (step asciiGo) anyAction .init unlikeRun).getD .init

/-- The request is sent to a member of the group object `g` without the member's credentials. -/
def Pc.SlipsTo (go : Go) (g pxy : Nat) : Pc → Prop
  | .carried f conn => conn.rc.createConn = .group g ∧ conn.fn.pxy = pxy ∧
      satisfies go f.req conn.fn.username conn.fn.password = false
  | _ => False

instance (go : Go) (g pxy : Nat) (pc : Pc) : Decidable (pc.SlipsTo go g pxy) := by
  induction pc using Pc.casesOn <;> dsimp only [Pc.SlipsTo] <;> infer_instance

theorem Pc.not_ownCredentials_of_slipsTo {pxy : Nat} (h : pc.SlipsTo go g pxy) :
    ¬ pc.OwnCredentials go := by
  cases pc with
  | carried f conn =>
    intro hown
    have htrue := hown g h.1
    rw [h.2.2] at htrue
    cases htrue
  | checked | ready | dialing | done => cases h

theorem unlikeState_slips : ∃ pc ∈ unlikeState.reqs, pc.SlipsTo asciiGo 0 2 := by decide +kernel

/-- A request without credentials is sent to proxy 2, which asks for a user and a password. -/
theorem member_without_its_password :
    ¬ MembersGuarded asciiGo anyAction ∧ ∃ pc ∈ unlikeState.reqs, pc.SlipsTo asciiGo 0 2 := by
  refine ⟨fun h => ?_, unlikeState_slips⟩
  obtain ⟨pc, hpc, hslip⟩ := unlikeState_slips
  have hreach : Reach (step asciiGo) anyAction .init unlikeState :=
    reach_getD_of_isSome (by decide +kernel)
  exact Pc.not_ownCredentials_of_slipsTo hslip (h unlikeState hreach pc hpc)

end FrpMeo.Vhost
