import FrpMeo.Lib.Transition
import FrpMeo.Vhost.Group

/-!
# Serving HTTP requests

Requests, registrations and removals run concurrently over one route table
(`pkg/util/vhost/http.go`, `server/group/http.go`). A request looks up its route and asks its
`AllowFn` and credentials (`serve`), gets its endpoint and its key in the transport's pool
(`rewrite`), and takes an idle connection with an equal key (`takeIdle`) or dials:
`CreateConnection` looks the route up again (`dialLookup`) and calls its connection function
(`dialCall`).

A connection goes back to the pool, whatever has become of its route; `CONNECT` requests keep
theirs.
-/

namespace FrpMeo.Vhost

open Lib Lib.Bytes Lib.Transition

/-! ## States -/

structure Conn where
  key : Bytes
  rc : RouteConfig
  fn : ConnFn
  deriving DecidableEq

/-- A request in flight: the route config it was checked against, if any, and what `Rewrite` set. -/
structure Flight where
  req : Request
  rc : Option RouteConfig
  endpoint : Bytes
  key : Bytes
  deriving DecidableEq

inductive Pc where
  | checked (f : Flight)
  | ready (f : Flight)
  /-- `CreateConnection` has found a route for it. -/
  | dialing (f : Flight) (rc : RouteConfig)
  | carried (f : Flight) (conn : Conn)
  | done
  deriving DecidableEq

def Pc.flight? : Pc → Option Flight
  | .checked f | .ready f | .dialing f _ | .carried f _ => some f
  | .done => none

structure State where
  routers : Routers RouteConfig
  /-- The group objects; a removed group is not forgotten, since callers may still hold it. -/
  groups : List Group
  registry : Bytes → Option Nat
  nextRoute : Nat
  reqs : List Pc
  idle : List Conn

def State.init : State := ⟨.empty, [], fun _ => none, 0, [], []⟩

/-! ## Registrations and removals -/

inductive Change where
  /-- `HTTPReverseProxy.Register`. -/
  | register (spec : RouteSpec)
  /-- `HTTPReverseProxy.UnRegister`. -/
  | unregister (spec : RouteSpec)
  /-- `groupRegistry.getOrCreate`. -/
  | getOrCreate (group : Bytes)
  /-- `HTTPGroupController.Register` on the current group object. -/
  | join (group proxyName groupKey : Bytes) (spec : RouteSpec)
  /-- `HTTPGroup.UnRegister` on a group object that was current at some time. -/
  | leave (g : Nat) (proxyName : Bytes)
  deriving DecidableEq

def applyChange (go : Go) (s : State) : Change → State
  | .register spec =>
      match s.routers.add go spec.domain spec.location spec.routeByHTTPUser
        ⟨s.nextRoute, spec, .proxy spec.connFn⟩ with
      | none => s
      | some rs => { s with routers := rs, nextRoute := s.nextRoute + 1 }
  | .unregister spec =>
      { s with routers := s.routers.del go spec.domain spec.location spec.routeByHTTPUser }
  | .getOrCreate group =>
      match s.registry group with
      | some _ => s
      | none =>
          { s with
            groups := s.groups ++ [Group.new]
            registry := Function.update s.registry group (some s.groups.length) }
  -- an object that is no longer current sends its caller back to `getOrCreate`
  | .join group proxyName groupKey spec =>
      match s.registry group with
      | none => s
      | some g =>
          match s.groups[g]? with
          | none => s
          | some gr =>
              match gr.register go g s.nextRoute s.routers proxyName group groupKey spec with
              | .error _ => s
              | .ok (gr, rs) =>
                  { s with
                    routers := rs
                    groups := s.groups.set g gr
                    nextRoute := s.nextRoute + 1 }
  | .leave g proxyName =>
      match s.groups[g]? with
      | none => s
      | some gr =>
          let left := gr.remove proxyName
          -- the route goes with the last member, whoever has registered that place since
          if left.members = [] then
            { s with
              routers := s.routers.del go gr.domain gr.location gr.routeByHTTPUser
              groups := s.groups.set g left
              registry := if s.registry gr.group = some g then
                  Function.update s.registry gr.group none
                else s.registry }
          else { s with groups := s.groups.set g left }

inductive Changed (go : Go) (s : State) : Change → State → Prop where
  /-- The change failed or had nothing to do. -/
  | same (c : Change) : Changed go s c s
  | register (spec : RouteSpec) (rs : Routers RouteConfig) :
      s.routers.add go spec.domain spec.location spec.routeByHTTPUser
        ⟨s.nextRoute, spec, .proxy spec.connFn⟩ = some rs →
      Changed go s (.register spec) { s with routers := rs, nextRoute := s.nextRoute + 1 }
  | unregister (spec : RouteSpec) :
      Changed go s (.unregister spec)
        { s with routers := s.routers.del go spec.domain spec.location spec.routeByHTTPUser }
  | create (group : Bytes) (registry : Bytes → Option Nat) :
      Changed go s (.getOrCreate group)
        { s with groups := s.groups ++ [Group.new], registry := registry }
  | join (group proxyName groupKey : Bytes) (spec : RouteSpec) (g : Nat) (gr gr' : Group)
      (rs : Routers RouteConfig) : s.registry group = some g → s.groups[g]? = some gr →
      gr.register go g s.nextRoute s.routers proxyName group groupKey spec = .ok (gr', rs) →
      Changed go s (.join group proxyName groupKey spec)
        { s with routers := rs, groups := s.groups.set g gr', nextRoute := s.nextRoute + 1 }
  | leaveLast (g : Nat) (proxyName : Bytes) (gr : Group) (registry : Bytes → Option Nat) :
      s.groups[g]? = some gr → (gr.remove proxyName).members = [] →
      Changed go s (.leave g proxyName)
        { s with
          routers := s.routers.del go gr.domain gr.location gr.routeByHTTPUser
          groups := s.groups.set g (gr.remove proxyName)
          registry := registry }
  | leave (g : Nat) (proxyName : Bytes) (gr : Group) :
      s.groups[g]? = some gr → (gr.remove proxyName).members ≠ [] →
      Changed go s (.leave g proxyName) { s with groups := s.groups.set g (gr.remove proxyName) }

theorem changed_applyChange (go : Go) (s : State) (c : Change) :
    Changed go s c (applyChange go s c) := by
  cases c with
  | register spec =>
    unfold applyChange
    dsimp only
    split
    · exact .same _
    · next rs hadd => exact .register spec rs hadd
  | unregister spec => exact .unregister spec
  | getOrCreate group =>
    unfold applyChange
    dsimp only
    split
    · exact .same _
    · exact .create group _
  | join group proxyName groupKey spec =>
    unfold applyChange
    dsimp only
    split
    · exact .same _
    · next g hg =>
      split
      · exact .same _
      · next gr hgr =>
        split
        · exact .same _
        · next gr' rs hreg =>
          exact .join group proxyName groupKey spec g gr gr' rs hg hgr hreg
  | leave g proxyName =>
    unfold applyChange
    dsimp only
    split
    · exact .same _
    · next gr hgr =>
      split_ifs with hempty hreg
      · exact .leaveLast g proxyName gr _ hgr hempty
      · exact .leaveLast g proxyName gr _ hgr hempty
      · exact .leave g proxyName gr hgr hempty

variable {go : Go} {s t : State} {Q : Pc → Prop} {R : Conn → Prop}

theorem Changed.keeps {c : Change} (h : Changed go s c t) : t.reqs = s.reqs ∧ t.idle = s.idle := by
  cases h <;> exact ⟨rfl, rfl⟩

@[simp] theorem applyChange_reqs (c : Change) :
    (applyChange go s c).reqs = s.reqs := (changed_applyChange go s c).keeps.1

@[simp] theorem applyChange_idle (c : Change) :
    (applyChange go s c).idle = s.idle := (changed_applyChange go s c).keeps.2

/-! ## Requests -/

/-- What `Rewrite` sets: the key of the route's connections, or the request's own host. -/
def Flight.rewrite (f : Flight) (endpoint : Bytes) : Flight :=
  { f with
    endpoint := endpoint
    key := match f.rc with
      | none => f.req.host
      | some rc => poolKey rc.spec endpoint }

inductive Move where
  | rewrite
  | takeIdle (n : Nat)
  | dialLookup
  /-- The connection function is called; `ok` says if the proxy gets a work connection. -/
  | dialCall (ok : Bool)
  /-- The transport gives up a connection that turned out dead, and tries another one. -/
  | retry
  /-- The response is complete; the connection may be kept. -/
  | finish (keep : Bool)
  | abort
  deriving DecidableEq

structure Moved where
  pc : Pc
  idle : List Conn
  groups : List Group

def chooseEndpoint (s : State) : Option RouteConfig → Bytes × List Group
  | some ⟨_, _, .group g⟩ =>
      match s.groups[g]? with
      | none => ([], s.groups)
      | some gr => (gr.chooseEndpoint, s.groups.set g gr.advance)
  | _ => ([], s.groups)

/-- `CreateConnection` after the lookup: the proxy function that is called, and the groups. -/
def connFnOf (s : State) (f : Flight) (rc : RouteConfig) : Option ConnFn × List Group :=
  match rc.createConn with
  | .proxy fn => (some fn, s.groups)
  | .group g =>
      match s.groups[g]? with
      | none => (none, s.groups)
      | some gr =>
          if f.req.connect then (gr.createConn, s.groups.set g gr.advance)
          else (gr.createConnByEndpoint f.endpoint, s.groups)

def dialLookup (go : Go) (s : State) (f : Flight) : Pc :=
  match getRouteConfig go s.routers f.req with
  | none => .done
  | some rc => .dialing f rc

def move (go : Go) (s : State) : Pc → Move → Option Moved
  -- `CONNECT` requests are hijacked and never come to `Rewrite`
  | .checked f, .rewrite =>
      if f.req.connect then none
      else
        let (endpoint, groups) := chooseEndpoint s f.rc
        some ⟨.ready (f.rewrite endpoint), s.idle, groups⟩
  | .checked f, .dialLookup =>
      if f.req.connect then some ⟨dialLookup go s f, s.idle, s.groups⟩ else none
  | .ready f, .takeIdle n =>
      match s.idle[n]? with
      | none => none
      | some conn =>
          if conn.key = f.key then some ⟨.carried f conn, s.idle.eraseIdx n, s.groups⟩ else none
  | .ready f, .dialLookup => some ⟨dialLookup go s f, s.idle, s.groups⟩
  | .dialing f rc, .dialCall ok =>
      match ok, connFnOf s f rc with
      | true, (some fn, groups) =>
          -- the transport may give a new connection to another request with the same key
          if f.req.connect then some ⟨.carried f ⟨f.key, rc, fn⟩, s.idle, groups⟩
          else some ⟨.ready f, s.idle ++ [⟨f.key, rc, fn⟩], groups⟩
      | _, (_, groups) => some ⟨.done, s.idle, groups⟩
  | .carried f _, .retry =>
      if f.req.connect then none else some ⟨.ready f, s.idle, s.groups⟩
  | .carried f conn, .finish keep =>
      some ⟨.done, if keep && !f.req.connect then s.idle ++ [conn] else s.idle, s.groups⟩
  | _, .abort => some ⟨.done, s.idle, s.groups⟩
  | _, _ => none

inductive Action where
  | change (c : Change)
  /-- `ServeHTTP` up to the checks; `allow` is what the route's `AllowFn` says. -/
  | serve (req : Request) (allow : Bool)
  | move (i : Nat) (m : Move)
  | drop (n : Nat)
  deriving DecidableEq

def serve (go : Go) (rs : Routers RouteConfig) (req : Request) (allow : Bool) : Pc :=
  match getRouteConfig go rs req with
  -- a request without a route passes: there is nothing to check it against
  | none => .checked ⟨req, none, [], []⟩
  | some rc =>
      if allow ∧ checkRouteAuthByRequest go req (some rc) then .checked ⟨req, some rc, [], []⟩
      else .done

theorem serve_cases (go : Go) (rs : Routers RouteConfig) (req : Request) (allow : Bool) :
    serve go rs req allow = .done ∨
      serve go rs req allow = .checked ⟨req, getRouteConfig go rs req, [], []⟩ ∧
        checkRouteAuthByRequest go req (getRouteConfig go rs req) = true := by
  unfold serve
  cases getRouteConfig go rs req with
  | none => exact .inr ⟨rfl, rfl⟩
  | some rc =>
    dsimp only
    split_ifs with hpass
    · exact .inr ⟨rfl, hpass.2⟩
    · exact .inl rfl

def step (go : Go) (s : State) : Action → Option State
  | .change c => some (applyChange go s c)
  | .serve req allow => some { s with reqs := s.reqs ++ [serve go s.routers req allow] }
  | .move i m =>
      match s.reqs[i]? with
      | none => none
      | some pc => (move go s pc m).map fun r =>
          { s with reqs := s.reqs.set i r.pc, idle := r.idle, groups := r.groups }
  | .drop n => some { s with idle := s.idle.eraseIdx n }

/-! ## What a step can do -/

inductive Moves (go : Go) (s : State) : Pc → Pc → List Conn → Prop where
  | rewrite (f : Flight) (endpoint : Bytes) : f.req.connect = false →
      Moves go s (.checked f) (.ready (f.rewrite endpoint)) s.idle
  | take (f : Flight) (conn : Conn) (n : Nat) : s.idle[n]? = some conn → conn.key = f.key →
      Moves go s (.ready f) (.carried f conn) (s.idle.eraseIdx n)
  | lookup (f : Flight) (rc : RouteConfig) : getRouteConfig go s.routers f.req = some rc →
      Moves go s (.ready f) (.dialing f rc) s.idle
  | lookupConnect (f : Flight) (rc : RouteConfig) : f.req.connect = true →
      getRouteConfig go s.routers f.req = some rc →
      Moves go s (.checked f) (.dialing f rc) s.idle
  | dial (f : Flight) (rc : RouteConfig) (fn : ConnFn) : f.req.connect = false →
      (connFnOf s f rc).1 = some fn →
      Moves go s (.dialing f rc) (.ready f) (s.idle ++ [⟨f.key, rc, fn⟩])
  | dialConnect (f : Flight) (rc : RouteConfig) (fn : ConnFn) : f.req.connect = true →
      (connFnOf s f rc).1 = some fn →
      Moves go s (.dialing f rc) (.carried f ⟨f.key, rc, fn⟩) s.idle
  | retry (f : Flight) (conn : Conn) : f.req.connect = false →
      Moves go s (.carried f conn) (.ready f) s.idle
  | keep (f : Flight) (conn : Conn) : f.req.connect = false →
      Moves go s (.carried f conn) .done (s.idle ++ [conn])
  | stop (pc : Pc) : Moves go s pc .done s.idle

theorem moves_dialLookup {pc : Pc} {f : Flight}
    (h : ∀ rc, getRouteConfig go s.routers f.req = some rc → Moves go s pc (.dialing f rc) s.idle) :
    Moves go s pc (dialLookup go s f) s.idle := by
  unfold dialLookup
  cases hrc : getRouteConfig go s.routers f.req with
  | none => exact .stop pc
  | some rc => exact h rc hrc

/-- At most one group's round robin was advanced. -/
def Turned (groups groups' : List Group) : Prop :=
  groups' = groups ∨ ∃ g gr, groups[g]? = some gr ∧ groups' = groups.set g gr.advance

theorem turned_chooseEndpoint (s : State) (rc : Option RouteConfig) :
    Turned s.groups (chooseEndpoint s rc).2 := by
  fun_cases chooseEndpoint s rc with
  | case1 | case3 => exact .inl rfl
  | case2 id spec g gr hg => exact .inr ⟨g, gr, hg, rfl⟩

theorem turned_connFnOf (s : State) (f : Flight) (rc : RouteConfig) :
    Turned s.groups (connFnOf s f rc).2 := by
  fun_cases connFnOf s f rc with
  | case1 | case2 | case4 => exact .inl rfl
  | case3 g hc gr hgr hconnect => exact .inr ⟨g, gr, hgr, rfl⟩

theorem moves_of_move {pc : Pc} {m : Move} {r : Moved} (h : move go s pc m = some r) :
    Moves go s pc r.pc r.idle ∧ Turned s.groups r.groups := by
  fun_cases move go s pc m with
  | case1 f hconnect => simp [move, hconnect] at h
  | case2 f hconnect endpoint groups hep =>
    simp only [move, hconnect, hep] at h
    cases h
    have hturn := turned_chooseEndpoint s f.rc
    rw [hep] at hturn
    exact ⟨.rewrite f endpoint (by simpa using hconnect), hturn⟩
  | case3 f hconnect =>
    simp only [move, hconnect, if_true, Option.some.injEq] at h
    cases h
    exact ⟨moves_dialLookup fun rc hrc => .lookupConnect f rc hconnect hrc, .inl rfl⟩
  | case4 f hconnect => simp [move, hconnect] at h
  | case5 f n hidle => simp [move, hidle] at h
  | case6 f n conn hidle hkey =>
    simp only [move, hidle, hkey, if_true, Option.some.injEq] at h
    cases h
    exact ⟨.take f conn n hidle hkey, .inl rfl⟩
  | case7 f n conn hidle hkey => simp [move, hidle, hkey] at h
  | case8 f =>
    cases h
    exact ⟨moves_dialLookup fun rc hrc => .lookup f rc hrc, .inl rfl⟩
  | case9 f rc fn groups hfn hconnect =>
    simp only [move, hfn, hconnect, if_true, Option.some.injEq] at h
    cases h
    have hturn := turned_connFnOf s f rc
    rw [hfn] at hturn
    exact ⟨.dialConnect f rc fn hconnect (by rw [hfn]), hturn⟩
  | case10 f rc fn groups hfn hconnect =>
    simp only [move, hfn, hconnect] at h
    cases h
    have hturn := turned_connFnOf s f rc
    rw [hfn] at hturn
    exact ⟨.dial f rc fn (by simpa using hconnect) (by rw [hfn]), hturn⟩
  | case11 f rc ok x groups hfn hfail =>
    simp only [move, hfn] at h
    cases h
    have hturn := turned_connFnOf s f rc
    rw [hfn] at hturn
    exact ⟨.stop _, hturn⟩
  | case12 f conn hconnect => simp [move, hconnect] at h
  | case13 f conn hconnect =>
    simp only [move, hconnect] at h
    cases h
    exact ⟨.retry f conn (by simpa using hconnect), .inl rfl⟩
  | case14 f conn keep =>
    cases h
    refine ⟨?_, .inl rfl⟩
    cases hkeep : keep && !f.req.connect with
    | true =>
      simp only [Bool.and_eq_true, Bool.not_eq_true'] at hkeep
      exact .keep f conn hkeep.2
    | false => exact .stop _
  | case15 pc =>
    simp only [move] at h
    cases h
    exact ⟨.stop pc, .inl rfl⟩
  | case16 pc m => cases pc <;> cases m <;> simp_all [move]

variable {a : Action}

theorem step_cases (h : step go s a = some t) : (∃ c, a = .change c ∧ t = applyChange go s c) ∨
      (∃ req allow, a = .serve req allow ∧
        t = { s with reqs := s.reqs ++ [serve go s.routers req allow] }) ∨
      (∃ i m pc r, a = .move i m ∧ pc ∈ s.reqs ∧ move go s pc m = some r ∧
        t = { s with reqs := s.reqs.set i r.pc, idle := r.idle, groups := r.groups }) ∨
      ∃ n, a = .drop n ∧ t = { s with idle := s.idle.eraseIdx n } := by
  cases a with
  | change c => exact .inl ⟨c, rfl, (Option.some.inj h).symm⟩
  | serve req allow => exact .inr (.inl ⟨req, allow, rfl, (Option.some.inj h).symm⟩)
  | drop n => exact .inr (.inr (.inr ⟨n, rfl, (Option.some.inj h).symm⟩))
  | move i m =>
    cases hpc : s.reqs[i]? with
    | none => simp [step, hpc] at h
    | some pc =>
      simp only [step, hpc, Option.map_eq_some_iff] at h
      obtain ⟨r, hr, ht⟩ := h
      exact .inr (.inr (.inl ⟨i, m, pc, r, rfl, List.mem_of_getElem? hpc, hr, ht.symm⟩))

theorem routers_of_step (ha : ∀ c, a ≠ .change c) (h : step go s a = some t) :
    t.routers = s.routers := by
  rcases step_cases h with ⟨c, rfl, -⟩ | ⟨req, allow, rfl, rfl⟩ | ⟨i, m, pc, r, rfl, -, -, rfl⟩ |
    ⟨n, rfl, rfl⟩
  · exact absurd rfl (ha c)
  · rfl
  · rfl
  · rfl

theorem turned_of_step (ha : ∀ c, a ≠ .change c) (h : step go s a = some t) :
    Turned s.groups t.groups := by
  rcases step_cases h with ⟨c, rfl, -⟩ | ⟨req, allow, rfl, rfl⟩ | ⟨i, m, pc, r, rfl, -, hr, rfl⟩ |
    ⟨n, rfl, rfl⟩
  · exact absurd rfl (ha c)
  · exact .inl rfl
  · exact (moves_of_move hr).2
  · exact .inl rfl

/-! ## Invariants of the requests and the pool -/

structure Each (Q : Pc → Prop) (R : Conn → Prop) (s : State) : Prop where
  reqs : ∀ pc ∈ s.reqs, Q pc
  idle : ∀ conn ∈ s.idle, R conn

theorem Each.idle_append (h : Each Q R s) {conn : Conn} (hconn : R conn) :
    ∀ c ∈ s.idle ++ [conn], R c :=
  List.forall_mem_append.2 ⟨h.idle, List.forall_mem_singleton.2 hconn⟩

theorem Each.idle_eraseIdx (h : Each Q R s) (n : Nat) : ∀ c ∈ s.idle.eraseIdx n, R c :=
  fun c hc => h.idle c (List.mem_of_mem_eraseIdx hc)

theorem each_init (Q : Pc → Prop) (R : Conn → Prop) : Each Q R .init where
  reqs := nofun
  idle := nofun

theorem Each.step (h : Each Q R s) (ha : ∀ c, a ≠ .change c) (hst : step go s a = some t)
    (hserve : ∀ req allow, a = .serve req allow → Q (serve go s.routers req allow))
    (hmove : ∀ pc ∈ s.reqs, ∀ pc' idle, Moves go s pc pc' idle →
      Q pc' ∧ ∀ conn ∈ idle, R conn) : Each Q R t := by
  rcases step_cases hst with ⟨c, rfl, -⟩ | ⟨req, allow, rfl, rfl⟩ |
    ⟨i, m, pc, r, rfl, hpc, hr, rfl⟩ | ⟨n, rfl, rfl⟩
  · exact absurd rfl (ha c)
  · refine ⟨fun pc hpc => ?_, h.idle⟩
    rcases List.mem_append.1 hpc with hold | hnew
    · exact h.reqs pc hold
    · rw [List.mem_singleton.1 hnew]
      exact hserve req allow rfl
  · obtain ⟨hQ, hR⟩ := hmove pc hpc r.pc r.idle (moves_of_move hr).1
    refine ⟨fun pc' hpc' => ?_, hR⟩
    rcases List.mem_or_eq_of_mem_set hpc' with hold | rfl
    · exact h.reqs pc' hold
    · exact hQ
  · exact ⟨h.reqs, h.idle_eraseIdx n⟩

end FrpMeo.Vhost
