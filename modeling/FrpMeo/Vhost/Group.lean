import FrpMeo.Vhost.Http

/-!
# HTTP load-balancing groups

A group shares one route among its members (`server/group/http.go`). The first member registers a
copy of its route config with the group's connection functions; later ones have to agree on name,
key, domain, location and user.
-/

namespace FrpMeo.Vhost

open Lib Lib.Bytes

/-- `HTTPGroup`. `createFuncs` and `pxyNames` are one list, in the order of joining. -/
structure Group where
  group : Bytes
  groupKey : Bytes
  domain : Bytes
  location : Bytes
  routeByHTTPUser : Bytes
  members : List (Bytes × ConnFn)
  distinct : (members.map Prod.fst).Nodup
  index : UInt64

def Group.new : Group := ⟨[], [], [], [], [], [], List.nodup_nil, 0⟩

inductive GroupErr where
  | routerConfigConflict
  | groupParamsInvalid
  | groupAuthFailed
  | proxyRepeated

variable {gr : Group} {fn : ConnFn}

variable {g id : Nat} {go : Go} {gr' : Group} {proxyName group groupKey : Bytes}
  {rs rs' : Routers RouteConfig} {spec : RouteSpec}

namespace Group

theorem nodup_append {name : Bytes} (h : name ∉ gr.members.map Prod.fst) :
    ((gr.members ++ [(name, fn)]).map Prod.fst).Nodup := by
  rw [List.map_append]
  exact gr.distinct.append (List.nodup_singleton _) (List.disjoint_singleton.2 h)

/-- `HTTPGroup.Register` of the current group object `g`; `id` is the new route config, if any. -/
def register (go : Go) (gr : Group) (g id : Nat) (rs : Routers RouteConfig)
    (proxyName group groupKey : Bytes) (spec : RouteSpec) :
    Except GroupErr (Group × Routers RouteConfig) :=
  if gr.members = [] then
    -- the whole config of the first member becomes the route, its credentials included
    match rs.add go spec.domain spec.location spec.routeByHTTPUser ⟨id, spec, .group g⟩ with
    | none => .error .routerConfigConflict
    | some rs => .ok
        ({ gr with
            group := group
            groupKey := groupKey
            domain := spec.domain
            location := spec.location
            routeByHTTPUser := spec.routeByHTTPUser
            members := [(proxyName, spec.connFn)]
            distinct := List.nodup_singleton _ }, rs)
  else if gr.group ≠ group ∨ gr.domain ≠ spec.domain ∨ gr.location ≠ spec.location ∨
      gr.routeByHTTPUser ≠ spec.routeByHTTPUser then .error .groupParamsInvalid
  else if gr.groupKey ≠ groupKey then .error .groupAuthFailed
  -- the credentials of `spec` are not compared with those of the route
  else if h : proxyName ∈ gr.members.map Prod.fst then .error .proxyRepeated
  else .ok
    ({ gr with
        members := gr.members ++ [(proxyName, spec.connFn)]
        distinct := nodup_append h }, rs)

def remove (gr : Group) (proxyName : Bytes) : Group :=
  { gr with
    members := gr.members.filter fun m => m.1 ≠ proxyName
    distinct := (List.filter_sublist.map Prod.fst).nodup gr.distinct }

/-- The round robin's choice: the member at the index after it is advanced. -/
def pick (gr : Group) : Option (Bytes × ConnFn) :=
  gr.members[(gr.index + 1).toNat % gr.members.length]?

def advance (gr : Group) : Group := { gr with index := gr.index + 1 }

/-- `chooseEndpoint`; the caller ignores the error that comes with an empty name. -/
def chooseEndpoint (gr : Group) : Bytes := (gr.pick.map Prod.fst).getD []

/-- `createConn`: the function it calls; `none` is an error. -/
def createConn (gr : Group) : Option ConnFn := gr.pick.map Prod.snd

/-- `createConnByEndpoint`: the function it calls; `none` is an error. -/
def createConnByEndpoint (gr : Group) (endpoint : Bytes) : Option ConnFn :=
  (gr.members.find? fun m => m.1 == endpoint).map Prod.snd

def HasFn (gr : Group) (fn : ConnFn) : Prop := ∃ name, (name, fn) ∈ gr.members

theorem hasFn_of_createConn (h : gr.createConn = some fn) : gr.HasFn fn := by
  obtain ⟨m, hm, rfl⟩ := Option.map_eq_some_iff.1 h
  exact ⟨m.1, List.mem_of_getElem? hm⟩

theorem hasFn_of_createConnByEndpoint {endpoint : Bytes}
    (h : gr.createConnByEndpoint endpoint = some fn) : gr.HasFn fn := by
  obtain ⟨m, hm, rfl⟩ := Option.map_eq_some_iff.1 h
  exact ⟨m.1, List.mem_of_find?_eq_some hm⟩

def place (go : Go) (gr : Group) : Place := go.place gr.domain gr.location gr.routeByHTTPUser

inductive Joined (go : Go) (gr : Group) (g id : Nat) (rs : Routers RouteConfig)
    (proxyName : Bytes) (spec : RouteSpec) (gr' : Group) (rs' : Routers RouteConfig) : Prop where
  | first : gr.members = [] → gr'.members = [(proxyName, spec.connFn)] →
      gr'.place go = spec.place go →
      rs.add go spec.domain spec.location spec.routeByHTTPUser ⟨id, spec, .group g⟩ = some rs' →
      Joined go gr g id rs proxyName spec gr' rs'
  | later : gr.members ≠ [] → gr'.members = gr.members ++ [(proxyName, spec.connFn)] →
      gr'.place go = gr.place go → rs' = rs → Joined go gr g id rs proxyName spec gr' rs'

theorem joined_of_register
    (h : gr.register go g id rs proxyName group groupKey spec = .ok (gr', rs')) :
    gr.Joined go g id rs proxyName spec gr' rs' := by
  unfold register at h
  split_ifs at h with hempty
  · cases hadd : rs.add go spec.domain spec.location spec.routeByHTTPUser
      ⟨id, spec, .group g⟩ with
    | none => simp [hadd] at h
    | some rs₁ =>
      simp only [hadd] at h
      cases h
      exact .first hempty rfl rfl hadd
  · cases h
    exact .later hempty rfl rfl rfl

theorem remove_of_register (hmembers : gr.members ≠ [])
    (h : gr.register go g id rs proxyName group groupKey spec = .ok (gr', rs')) :
    rs' = rs ∧ proxyName ∉ gr.members.map Prod.fst ∧ proxyName ∈ gr'.members.map Prod.fst ∧
      gr'.remove proxyName = gr := by
  unfold register at h
  rw [if_neg hmembers] at h
  split_ifs at h with _ _ hnew
  cases h
  refine ⟨rfl, hnew, by simp, ?_⟩
  have hleft : (gr.members ++ [(proxyName, spec.connFn)]).filter (fun m => m.1 ≠ proxyName) =
      gr.members := by
    rw [List.filter_append, List.filter_eq_self.2 ?_]
    · simp
    · intro m hm
      simpa using fun hname => hnew (List.mem_map.2 ⟨m, hm, hname⟩)
  simp only [remove, hleft]

end Group

end FrpMeo.Vhost
