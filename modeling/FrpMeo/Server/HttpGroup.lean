import FrpMeo.Lib.Registry
import FrpMeo.Lib.Transition
import FrpMeo.Vhost.Group
import Mathlib.Data.List.AList

/-!
# HTTP groups under concurrent calls

`HTTPGroupController` (`server/group/http.go`) keeps the groups in a registry, and every group has a
lock. `Register` gets the group of its name, takes its lock, and starts again if the registry has
another by then. The first member registers the route; the last one deletes it and the group.

The call that has the lock is stored in the group with its place in the code (`Stage`). A call is
one proxy, which registers and may unregister once.
-/

namespace FrpMeo.Server.HttpGroup

open Lib Lib.Transition Function
open Vhost (Go Place Router Routers RouteSpec RouteConfig ConnFn GroupErr)

/-! ## Groups -/

structure Request where
  proxyName : String
  group : String
  groupKey : String
  routeConfig : RouteSpec
  deriving DecidableEq

inductive Stage where
  /-- `Register` has the lock. -/
  | entered (req : Request)
  /-- The group is the current one. -/
  | current (req : Request)
  | added (req : Request)
  /-- `UnRegister` has the lock. -/
  | leaving (proxyName : String)
  | emptied
  | unrouted
  deriving DecidableEq

structure HTTPGroup where
  group : String
  groupKey : String
  domain : List UInt8
  location : List UInt8
  routeByHTTPUser : List UInt8
  createFuncs : AList fun _ : String => ConnFn
  pxyNames : List String
  /-- The call that has the lock. -/
  mu : Option (Nat × Stage)

namespace HTTPGroup

def new : HTTPGroup := ⟨"", "", [], [], [], ∅, [], none⟩

def isEmpty (o : HTTPGroup) : Bool := o.createFuncs.keys.isEmpty

def place (go : Go) (o : HTTPGroup) : Place := go.place o.domain o.location o.routeByHTTPUser

def setUp (o : HTTPGroup) (req : Request) : HTTPGroup :=
  { o with
    group := req.group
    groupKey := req.groupKey
    domain := req.routeConfig.domain
    location := req.routeConfig.location
    routeByHTTPUser := req.routeConfig.routeByHTTPUser }

def mismatch (o : HTTPGroup) (req : Request) : Option GroupErr :=
  if o.group ≠ req.group ∨ o.domain ≠ req.routeConfig.domain ∨
      o.location ≠ req.routeConfig.location ∨
      o.routeByHTTPUser ≠ req.routeConfig.routeByHTTPUser then some .groupParamsInvalid
  else if o.groupKey ≠ req.groupKey then some .groupAuthFailed
  else none

def insert (o : HTTPGroup) (req : Request) : Except GroupErr HTTPGroup :=
  if req.proxyName ∈ o.createFuncs then .error .proxyRepeated
  else .ok { o with
    createFuncs := o.createFuncs.insert req.proxyName req.routeConfig.connFn
    pxyNames := o.pxyNames ++ [req.proxyName] }

def remove (o : HTTPGroup) (proxyName : String) : HTTPGroup :=
  { o with
    createFuncs := o.createFuncs.erase proxyName
    pxyNames := o.pxyNames.erase proxyName }

def unlock (o : HTTPGroup) : HTTPGroup := { o with mu := none }

end HTTPGroup

/-! ## The controller -/

deriving instance DecidableEq for GroupErr

inductive Pc where
  | absent
  | start (req : Request)
  /-- `Register` has got a group and waits for its lock. -/
  | waiting (req : Request) (g : Nat)
  /-- In a group, whose lock says where. -/
  | inside (g : Nat)
  | failed (err : GroupErr)
  | member (proxyName group : String)
  /-- At the start of `UnRegister`. -/
  | leaving (proxyName group : String)
  /-- `UnRegister` has got a group and waits for its lock. -/
  | parting (proxyName group : String) (g : Nat)
  /-- `UnRegister` is in the group and has not removed the member. -/
  | removing (proxyName group : String) (g : Nat)
  | gone
  deriving DecidableEq

structure State where
  vhostRouter : Routers RouteConfig
  registry : Registry String
  obj : Nat → HTTPGroup
  call : Nat → Pc
  /-- A call of `Register` has changed the members of a group or the router. -/
  wrote : Nat → Bool

def init : State where
  vhostRouter := .empty
  registry := .empty
  obj := fun _ => .new
  call := fun _ => .absent
  wrote := fun _ => false

namespace State

def setCall (s : State) (k : Nat) (pc : Pc) : State :=
  { s with call := update s.call k pc }

def setObj (s : State) (g : Nat) (o : HTTPGroup) : State :=
  { s with obj := update s.obj g o }

def setStage (s : State) (k g : Nat) (stage : Stage) : State :=
  s.setObj g { s.obj g with mu := some (k, stage) }

def leave (s : State) (k g : Nat) (o : HTTPGroup) (pc : Pc) : State :=
  (s.setObj g o.unlock).setCall k pc

def insert (s : State) (k g : Nat) (o : HTTPGroup) (req : Request) : State :=
  match o.insert req with
  | .error err => s.leave k g o (.failed err)
  | .ok o' =>
      { s.leave k g o' (.member req.proxyName req.group) with
        wrote := update s.wrote k true }

def addRoute (go : Go) (s : State) (k g : Nat) (req : Request) : State :=
  match s.vhostRouter.add go req.routeConfig.domain req.routeConfig.location
    req.routeConfig.routeByHTTPUser ⟨k, req.routeConfig, .group g⟩ with
  | none => s.leave k g (s.obj g) (.failed .routerConfigConflict)
  | some vhostRouter =>
      { s.setStage k g (.added req) with vhostRouter, wrote := update s.wrote k true }

def join (s : State) (k g : Nat) (req : Request) : State :=
  match (s.obj g).mismatch req with
  | some err => s.leave k g (s.obj g) (.failed err)
  | none => s.insert k g (s.obj g) req

def get (s : State) (k : Nat) (proxyName group : String) : State :=
  match s.registry.groups group with
  | none => s.setCall k .gone
  | some g => s.setCall k (.parting proxyName group g)

/-- `HTTPReverseProxy.Register` of a proxy without a group. -/
def addPlain (go : Go) (s : State) (id : Nat) (spec : RouteSpec) : State :=
  match s.vhostRouter.add go spec.domain spec.location spec.routeByHTTPUser
    ⟨id, spec, .proxy spec.connFn⟩ with
  | none => s
  | some vhostRouter => { s with vhostRouter }

end State

inductive Action where
  | register (k : Nat) (req : Request)
  | getOrCreate (k : Nat) (req : Request)
  | lock (k : Nat) (req : Request) (g : Nat)
  | isCurrent (k g : Nat) (req : Request)
  | addRoute (k g : Nat) (req : Request)
  | first (k g : Nat) (req : Request)
  | join (k g : Nat) (req : Request)
  | unRegister (k : Nat) (proxyName group : String)
  | get (k : Nat) (proxyName group : String)
  | lockLeave (k : Nat) (proxyName group : String) (g : Nat)
  | remove (k : Nat) (proxyName group : String) (g : Nat)
  | delRoute (k g : Nat)
  | removeIf (k g : Nat)
  /-- A proxy without a group registers, or unregisters. -/
  | addPlain (id : Nat) (spec : RouteSpec)
  | delPlain (spec : RouteSpec)

section Controller

variable (go : Go)

def isPlain (r : Router RouteConfig) : Bool :=
  match r.payload.createConn with
  | .proxy _ => true
  | .group _ => false

def Enabled (s : State) : Action → Prop
  | .register k _ => s.call k = .absent
  | .getOrCreate k req => s.call k = .start req
  | .lock k req g => s.call k = .waiting req g ∧ (s.obj g).mu = none
  | .isCurrent k g req => (s.obj g).mu = some (k, .entered req)
  | .addRoute k g req => (s.obj g).mu = some (k, .current req) ∧ (s.obj g).isEmpty = true
  | .first k g req => (s.obj g).mu = some (k, .added req)
  | .join k g req => (s.obj g).mu = some (k, .current req) ∧ (s.obj g).isEmpty = false
  | .unRegister k proxyName group => s.call k = .member proxyName group
  | .get k proxyName group => s.call k = .leaving proxyName group
  | .lockLeave k proxyName group g => s.call k = .parting proxyName group g ∧ (s.obj g).mu = none
  | .remove k proxyName group g =>
      s.call k = .removing proxyName group g ∧ (s.obj g).mu = some (k, .leaving proxyName)
  | .delRoute k g => (s.obj g).mu = some (k, .emptied)
  | .removeIf k g => (s.obj g).mu = some (k, .unrouted)
  | .addPlain _ _ => True
  | .delPlain spec => ∃ r ∈ s.vhostRouter.routes, r.place = spec.place go ∧ isPlain r = true

instance (s : State) (a : Action) : Decidable (Enabled go s a) := by
  cases a <;> dsimp only [Enabled] <;> infer_instance

def next (s : State) : Action → State
  | .register k req => s.setCall k (.start req)
  | .getOrCreate k req =>
      { s with registry := (s.registry.getOrCreate req.group).1 }.setCall k
        (.waiting req (s.registry.getOrCreate req.group).2)
  | .lock k req g => (s.setStage k g (.entered req)).setCall k (.inside g)
  | .isCurrent k g req =>
      if s.registry.isCurrent req.group g then s.setStage k g (.current req)
      -- `errGroupStale`: the loop starts again
      else s.leave k g (s.obj g) (.start req)
  | .addRoute k g req => s.addRoute go k g req
  | .first k g req => s.insert k g ((s.obj g).setUp req) req
  | .join k g req => s.join k g req
  | .unRegister k proxyName group => s.setCall k (.leaving proxyName group)
  | .get k proxyName group => s.get k proxyName group
  | .lockLeave k proxyName group g =>
      (s.setStage k g (.leaving proxyName)).setCall k (.removing proxyName group g)
  | .remove k proxyName _ g =>
      if ((s.obj g).remove proxyName).isEmpty then
        (s.setObj g { (s.obj g).remove proxyName with mu := some (k, .emptied) }).setCall k
          (.inside g)
      else s.leave k g ((s.obj g).remove proxyName) .gone
  | .delRoute k g =>
      { s.setStage k g .unrouted with
        vhostRouter := s.vhostRouter.del go (s.obj g).domain (s.obj g).location
          (s.obj g).routeByHTTPUser }
  | .removeIf k g =>
      { s.leave k g (s.obj g) .gone with
        registry := s.registry.removeIf (s.obj g).group g }
  | .addPlain id spec => s.addPlain go id spec
  | .delPlain spec =>
      { s with
        vhostRouter := s.vhostRouter.del go spec.domain spec.location spec.routeByHTTPUser }

def step : State → Action → Option State := stepOf (Enabled go) (next go)

/-! ## What is claimed -/

def Pc.atRest : Pc → Bool
  | .absent | .failed _ | .member _ _ | .gone => true
  | .start _ | .waiting _ _ | .inside _ | .leaving _ _ | .parting _ _ _ | .removing _ _ _ => false

def Idle (s : State) : Prop := ∀ k, (s.call k).atRest = true

def HasRoute (s : State) (g : Nat) (place : Place) : Prop :=
  ∃ r ∈ s.vhostRouter.routes, r.place = place ∧ r.payload.createConn = .group g

structure Consistent (s : State) : Prop where
  distinct : ∀ g, (s.obj g).pxyNames.Nodup
  names : ∀ g name, name ∈ (s.obj g).pxyNames ↔ name ∈ (s.obj g).createFuncs
  /-- A group with members has one route, the one that it says; a group without has none. -/
  route : ∀ g place, HasRoute s g place ↔
    (s.obj g).isEmpty = false ∧ place = (s.obj g).place go
  unique : ∀ g g', (s.obj g).isEmpty = false → (s.obj g').isEmpty = false →
    (s.obj g).group = (s.obj g').group → g = g'

structure Untouched (s t : State) : Prop where
  createFuncs : ∀ g, (t.obj g).createFuncs = (s.obj g).createFuncs
  pxyNames : ∀ g, (t.obj g).pxyNames = (s.obj g).pxyNames
  vhostRouter : t.vhostRouter = s.vhostRouter

def Action.registers : Action → Option Nat
  | .register k _ | .getOrCreate k _ | .lock k _ _ | .isCurrent k _ _ | .addRoute k _ _
  | .first k _ _ | .join k _ _ => some k
  | .unRegister _ _ _ | .get _ _ _ | .lockLeave _ _ _ _ | .remove _ _ _ _ | .delRoute _ _
  | .removeIf _ _ | .addPlain _ _ | .delPlain _ => none

/-! ## The invariant of a group -/

def Stage.request? : Stage → Option Request
  | .entered req | .current req | .added req => some req
  | .leaving _ | .emptied | .unrouted => none

/-- `Register` has found the group current, or `UnRegister` has emptied it and not removed it. -/
def Stage.holds : Stage → Bool
  | .current _ | .added _ | .emptied | .unrouted => true
  | .entered _ | .leaving _ => false

/-- The group is set up and has no members. -/
def Stage.closes : Stage → Bool
  | .emptied | .unrouted => true
  | .entered _ | .current _ | .added _ | .leaving _ => false

namespace HTTPGroup

def Held (o : HTTPGroup) : Prop :=
  o.isEmpty = false ∨ ∃ k stage, o.mu = some (k, stage) ∧ stage.holds = true

/-- The routes of a group, as its members and its stage say. -/
def Routed (o : HTTPGroup) (place : Place) : Prop :=
  (o.isEmpty = false ∨ ∃ k, o.mu = some (k, .emptied)) ∧ place = o.place go ∨
    ∃ k req, o.mu = some (k, .added req) ∧ place = req.routeConfig.place go

end HTTPGroup

structure ObjOk (registry : Registry String) (vhostRouter : Routers RouteConfig) (g : Nat)
    (o : HTTPGroup) : Prop where
  distinct : o.pxyNames.Nodup
  names : ∀ name, name ∈ o.pxyNames ↔ name ∈ o.createFuncs
  held : o.Held → registry.Current g
  /-- A group that is set up bears the name that it was made for. -/
  named : (o.isEmpty = false ∨ ∃ k stage, o.mu = some (k, stage) ∧ stage.closes = true) →
    registry.keys[g]? = some o.group
  asked : ∀ k stage req, o.mu = some (k, stage) → stage.request? = some req →
    registry.keys[g]? = some req.group
  empty : ∀ k stage, o.mu = some (k, stage) →
    (stage.closes = true ∨ ∃ req, stage = .added req) → o.isEmpty = true
  routes : ∀ place, (∃ r ∈ vhostRouter.routes, r.place = place ∧ r.payload.createConn = .group g) ↔
    o.Routed go place

section Frame

variable {go} {registry registry' : Registry String}
  {vhostRouter vhostRouter' : Routers RouteConfig} {g : Nat} {o : HTTPGroup}

theorem ObjOk.setRegistry (h : ObjOk go registry vhostRouter g o)
    (hkeys : ∀ key, registry.keys[g]? = some key → registry'.keys[g]? = some key)
    (hcur : registry.Current g → registry'.Current g) : ObjOk go registry' vhostRouter g o :=
  { h with
    held := fun hheld => hcur (h.held hheld)
    named := fun hnamed => hkeys _ (h.named hnamed)
    asked := fun k stage req hmu hreq => hkeys _ (h.asked k stage req hmu hreq) }

theorem ObjOk.setRouter (h : ObjOk go registry vhostRouter g o)
    (hroutes : ∀ r, r.payload.createConn = .group g →
      (r ∈ vhostRouter'.routes ↔ r ∈ vhostRouter.routes)) : ObjOk go registry vhostRouter' g o :=
  { h with
    routes := by
      intro place
      rw [← h.routes place]
      constructor
      · rintro ⟨r, hr, hplace, hgroup⟩
        exact ⟨r, (hroutes r hgroup).1 hr, hplace, hgroup⟩
      · rintro ⟨r, hr, hplace, hgroup⟩
        exact ⟨r, (hroutes r hgroup).2 hr, hplace, hgroup⟩ }

theorem objOk_new (hroutes : ∀ r ∈ vhostRouter.routes, r.payload.createConn ≠ .group g) :
    ObjOk go registry vhostRouter g .new where
  distinct := List.nodup_nil
  names := fun name => by
    constructor
    · nofun
    · intro hmem
      exact absurd hmem (AList.notMem_empty name)
  held := by
    rintro (⟨⟨⟩⟩ | ⟨_, _, ⟨⟩, _⟩)
  named := by
    rintro (⟨⟨⟩⟩ | ⟨_, _, ⟨⟩, _⟩)
  asked := nofun
  empty := fun _ _ _ _ => rfl
  routes := by
    intro place
    constructor
    · rintro ⟨r, hr, -, hgroup⟩
      exact absurd hgroup (hroutes r hr)
    · rintro (⟨⟨⟨⟩⟩ | ⟨_, ⟨⟩⟩, _⟩ | ⟨_, _, ⟨⟩, _⟩)

theorem isEmpty_eq_false_iff : o.isEmpty = false ↔ ∃ name, name ∈ o.createFuncs := by
  unfold HTTPGroup.isEmpty
  rw [List.isEmpty_eq_false_iff_exists_mem]
  exact exists_congr fun name => AList.mem_keys.symm

/-- Neither a route that was added for the first member nor one that the last has left behind. -/
def Stage.silent : Stage → Bool
  | .entered _ | .current _ | .leaving _ | .unrouted => true
  | .added _ | .emptied => false

theorem routed_of_silent (h : ∀ k stage, o.mu = some (k, stage) → stage.silent = true)
    (place : Place) : o.Routed go place ↔ o.isEmpty = false ∧ place = o.place go := by
  constructor
  · rintro (⟨hempty | ⟨k, hmu⟩, hplace⟩ | ⟨k, req, hmu, -⟩)
    · exact ⟨hempty, hplace⟩
    · cases h k _ hmu
    · cases h k _ hmu
  · rintro ⟨hempty, hplace⟩
    exact .inl ⟨.inl hempty, hplace⟩

theorem routed_of_none (h : o.mu = none) (place : Place) :
    o.Routed go place ↔ o.isEmpty = false ∧ place = o.place go := by
  apply routed_of_silent
  rw [h]
  nofun

variable {k : Nat} {req : Request} {proxyName : String}

theorem routed_of_stage {stage : Stage} (h : o.mu = some (k, stage)) (hsilent : stage.silent = true)
    {place : Place} : o.Routed go place ↔ o.isEmpty = false ∧ place = o.place go := by
  apply routed_of_silent
  rw [h]
  rintro _ _ ⟨⟩
  exact hsilent

variable (h : ObjOk go registry vhostRouter g o)

include h

theorem ObjOk.setMu (mu : Option (Nat × Stage))
    (hsilent : ∀ k stage, o.mu = some (k, stage) → stage.silent = true)
    (hsilent' : ∀ k stage, mu = some (k, stage) → stage.silent = true ∧ stage.closes = false)
    (hheld : ∀ k stage, mu = some (k, stage) → stage.holds = true → registry.Current g)
    (hasked : ∀ k stage req, mu = some (k, stage) → stage.request? = some req →
      registry.keys[g]? = some req.group) : ObjOk go registry vhostRouter g { o with mu } where
  distinct := h.distinct
  names := h.names
  held := by
    rintro (hempty | ⟨k, stage, hmu, hholds⟩)
    · exact h.held (.inl hempty)
    · exact hheld k stage hmu hholds
  named := by
    rintro (hempty | ⟨k, stage, hmu, hcloses⟩)
    · exact h.named (.inl hempty)
    · rw [(hsilent' k stage hmu).2] at hcloses
      cases hcloses
  asked := hasked
  empty := by
    rintro k stage hmu (hcloses | ⟨req, rfl⟩)
    · rw [(hsilent' k stage hmu).2] at hcloses
      cases hcloses
    · cases (hsilent' k _ hmu).1
  routes := by
    intro place
    rw [h.routes place, routed_of_silent hsilent, routed_of_silent fun k stage hmu =>
      (hsilent' k stage hmu).1]
    rfl

theorem ObjOk.lock (hmu : o.mu = none) (k : Nat) (hkey : registry.keys[g]? = some req.group) :
    ObjOk go registry vhostRouter g { o with mu := some (k, .entered req) } := by
  refine h.setMu _ ?_ ?_ ?_ ?_
  · rw [hmu]
    nofun
  · rintro _ _ ⟨⟩
    exact ⟨rfl, rfl⟩
  · nofun
  · rintro _ _ _ ⟨⟩ ⟨⟩
    exact hkey

theorem ObjOk.current (hmu : o.mu = some (k, .entered req)) (hcur : registry.Current g) :
    ObjOk go registry vhostRouter g { o with mu := some (k, .current req) } := by
  refine h.setMu _ ?_ ?_ ?_ ?_
  · rw [hmu]
    rintro _ _ ⟨⟩
    rfl
  · rintro _ _ ⟨⟩
    exact ⟨rfl, rfl⟩
  · rintro _ _ _ _
    exact hcur
  · rintro _ _ _ ⟨⟩ ⟨⟩
    exact h.asked k _ req hmu rfl

theorem ObjOk.unlock (hsilent : ∀ k stage, o.mu = some (k, stage) → stage.silent = true) :
    ObjOk go registry vhostRouter g o.unlock := by
  refine h.setMu none hsilent ?_ ?_ ?_ <;> nofun

theorem ObjOk.lockLeave (hmu : o.mu = none) (k : Nat) (proxyName : String) :
    ObjOk go registry vhostRouter g { o with mu := some (k, .leaving proxyName) } := by
  refine h.setMu _ ?_ ?_ ?_ ?_
  · rw [hmu]
    nofun
  · rintro _ _ ⟨⟩
    exact ⟨rfl, rfl⟩
  · nofun
  · nofun

theorem ObjOk.addRoute {id : Nat} (hmu : o.mu = some (k, .current req)) (hempty : o.isEmpty = true)
    (hadd : vhostRouter.add go req.routeConfig.domain req.routeConfig.location
      req.routeConfig.routeByHTTPUser ⟨id, req.routeConfig, .group g⟩ = some vhostRouter') :
    ObjOk go registry vhostRouter' g { o with mu := some (k, .added req) } where
  distinct := h.distinct
  names := h.names
  held := fun _ => h.held (.inr ⟨k, _, hmu, rfl⟩)
  named := by
    rintro (hnot | ⟨_, _, ⟨⟩, ⟨⟩⟩)
    change o.isEmpty = false at hnot
    rw [hempty] at hnot
    cases hnot
  asked := by
    rintro _ _ _ ⟨⟩ ⟨⟩
    exact h.asked k _ req hmu rfl
  empty := fun _ _ _ _ => hempty
  routes := by
    -- a group without members has no route, so the new one is the only one
    have hnone : ∀ r ∈ vhostRouter.routes, r.payload.createConn ≠ .group g := by
      intro r hr hgroup
      have hrouted := (h.routes r.place).1 ⟨r, hr, rfl, hgroup⟩
      rw [routed_of_stage hmu rfl, hempty] at hrouted
      cases hrouted.1
    intro place
    constructor
    · rintro ⟨r, hr, hplace, hgroup⟩
      rcases (Routers.mem_add hadd r).1 hr with rfl | hold
      · exact .inr ⟨k, req, rfl, hplace.symm⟩
      · exact absurd hgroup (hnone r hold)
    · rintro (⟨hnot | ⟨_, ⟨⟩⟩, -⟩ | ⟨_, _, ⟨⟩, hplace⟩)
      · change o.isEmpty = false at hnot
        rw [hempty] at hnot
        cases hnot
      · exact ⟨_, (Routers.mem_add hadd _).2 (.inl rfl), hplace.symm, rfl⟩

omit h in
theorem insert_cases (o : HTTPGroup) (req : Request) :
    req.proxyName ∈ o.createFuncs ∧ o.insert req = .error .proxyRepeated ∨
      req.proxyName ∉ o.createFuncs ∧ o.insert req = .ok { o with
        createFuncs := o.createFuncs.insert req.proxyName req.routeConfig.connFn
        pxyNames := o.pxyNames ++ [req.proxyName] } := by
  by_cases hmem : req.proxyName ∈ o.createFuncs
  · exact .inl ⟨hmem, if_pos hmem⟩
  · exact .inr ⟨hmem, if_neg hmem⟩

omit h in
theorem names_insert (hdistinct : o.pxyNames.Nodup)
    (hnames : ∀ name, name ∈ o.pxyNames ↔ name ∈ o.createFuncs) (hnew : proxyName ∉ o.createFuncs)
    {fn : ConnFn} : (o.pxyNames ++ [proxyName]).Nodup ∧
      ∀ name, name ∈ o.pxyNames ++ [proxyName] ↔ name ∈ o.createFuncs.insert proxyName fn := by
  constructor
  · rw [← hnames] at hnew
    exact hdistinct.append (List.nodup_singleton _) (List.disjoint_singleton.2 hnew)
  · intro name
    rw [List.mem_append, List.mem_singleton, hnames, AList.mem_insert, or_comm]

omit h in
theorem isEmpty_insert {fn : ConnFn} :
    (o.createFuncs.insert proxyName fn).keys.isEmpty = false := by
  rw [List.isEmpty_eq_false_iff_exists_mem]
  exact ⟨proxyName, AList.mem_keys.1 ((AList.mem_insert _).2 (.inl rfl))⟩

theorem ObjOk.first (hmu : o.mu = some (k, .added req)) (fn : ConnFn) :
    ObjOk go registry vhostRouter g { o.setUp req with
      createFuncs := o.createFuncs.insert req.proxyName fn
      pxyNames := o.pxyNames ++ [req.proxyName]
      mu := none } := by
  have hempty : o.isEmpty = true := h.empty k _ hmu (.inr ⟨req, rfl⟩)
  have hnew : req.proxyName ∉ o.createFuncs := by
    intro hmem
    rw [isEmpty_eq_false_iff.2 ⟨_, hmem⟩] at hempty
    cases hempty
  obtain ⟨hdistinct, hnames⟩ := names_insert h.distinct h.names hnew
  refine ⟨hdistinct, hnames, ?_, ?_, ?_, ?_, ?_⟩
  · exact fun _ => h.held (.inr ⟨k, _, hmu, rfl⟩)
  · exact fun _ => h.asked k _ req hmu rfl
  · nofun
  · nofun
  · intro place
    -- before, the route is the one of the stage; after, it is the one of the members
    refine (h.routes place).trans (Iff.trans ?_ (routed_of_none rfl place).symm)
    constructor
    · rintro (⟨hnot | ⟨k', hmu'⟩, -⟩ | ⟨k', req', hmu', hplace⟩)
      · rw [hempty] at hnot
        cases hnot
      · rw [hmu] at hmu'
        cases hmu'
      · rw [hmu] at hmu'
        cases hmu'
        exact ⟨isEmpty_insert, hplace⟩
    · rintro ⟨-, hplace⟩
      exact .inr ⟨k, req, hmu, hplace⟩

theorem ObjOk.setMembers {stage : Stage}
    (hmu : o.mu = some (k, stage)) (hsilent : stage.silent = true) (hbefore : o.isEmpty = false)
    {createFuncs : AList fun _ : String => ConnFn} {pxyNames : List String}
    (hnames : pxyNames.Nodup ∧ ∀ name, name ∈ pxyNames ↔ name ∈ createFuncs)
    (hafter : createFuncs.keys.isEmpty = false) :
    ObjOk go registry vhostRouter g { o with createFuncs, pxyNames, mu := none } := by
  refine ⟨hnames.1, hnames.2, ?_, ?_, ?_, ?_, ?_⟩
  · exact fun _ => h.held (.inl hbefore)
  · exact fun _ => h.named (.inl hbefore)
  · nofun
  · nofun
  · intro place
    refine (h.routes place).trans ((routed_of_stage hmu hsilent).trans
      (Iff.trans ?_ (routed_of_none rfl place).symm))
    constructor
    · rintro ⟨-, hplace⟩
      exact ⟨hafter, hplace⟩
    · rintro ⟨-, hplace⟩
      exact ⟨hbefore, hplace⟩

theorem ObjOk.join (hmu : o.mu = some (k, .current req))
    (hmembers : o.isEmpty = false) (hnew : req.proxyName ∉ o.createFuncs) (fn : ConnFn) :
    ObjOk go registry vhostRouter g { o with
      createFuncs := o.createFuncs.insert req.proxyName fn
      pxyNames := o.pxyNames ++ [req.proxyName]
      mu := none } :=
  h.setMembers hmu rfl hmembers (names_insert h.distinct h.names hnew) (isEmpty_insert)

theorem ObjOk.names_remove (proxyName : String) : (o.remove proxyName).pxyNames.Nodup ∧
      ∀ name, name ∈ (o.remove proxyName).pxyNames ↔ name ∈ (o.remove proxyName).createFuncs := by
  refine ⟨h.distinct.erase _, fun name => ?_⟩
  change name ∈ o.pxyNames.erase proxyName ↔ name ∈ o.createFuncs.erase proxyName
  rw [h.distinct.mem_erase_iff, AList.mem_erase, h.names]

theorem ObjOk.remove (hmu : o.mu = some (k, .leaving proxyName)) (hmem : proxyName ∈ o.createFuncs)
    (hmembers : (o.remove proxyName).isEmpty = false) :
    ObjOk go registry vhostRouter g (o.remove proxyName).unlock := by
  have hbefore : o.isEmpty = false := isEmpty_eq_false_iff.2 ⟨_, hmem⟩
  exact h.setMembers hmu rfl hbefore (h.names_remove proxyName) hmembers

theorem ObjOk.emptied (hmu : o.mu = some (k, .leaving proxyName)) (hmem : proxyName ∈ o.createFuncs)
    (hempty : (o.remove proxyName).isEmpty = true) :
    ObjOk go registry vhostRouter g { o.remove proxyName with mu := some (k, .emptied) } := by
  have hbefore : o.isEmpty = false := isEmpty_eq_false_iff.2 ⟨_, hmem⟩
  obtain ⟨hdistinct, hnames⟩ := h.names_remove proxyName
  refine ⟨hdistinct, hnames, ?_, ?_, ?_, ?_, ?_⟩
  · exact fun _ => h.held (.inl hbefore)
  · exact fun _ => h.named (.inl hbefore)
  · nofun
  · exact fun _ _ _ _ => hempty
  · intro place
    refine (h.routes place).trans ((routed_of_stage hmu rfl).trans ?_)
    constructor
    · rintro ⟨-, hplace⟩
      exact .inl ⟨.inr ⟨k, rfl⟩, hplace⟩
    · rintro (⟨-, hplace⟩ | ⟨_, _, ⟨⟩, -⟩)
      exact ⟨hbefore, hplace⟩

theorem ObjOk.delRoute (hmu : o.mu = some (k, .emptied)) :
    ObjOk go registry (vhostRouter.del go o.domain o.location o.routeByHTTPUser) g
      { o with mu := some (k, .unrouted) } := by
  have hempty : o.isEmpty = true := h.empty k _ hmu (.inl rfl)
  refine ⟨h.distinct, h.names, ?_, ?_, ?_, ?_, ?_⟩
  · exact fun _ => h.held (.inr ⟨k, _, hmu, rfl⟩)
  · exact fun _ => h.named (.inr ⟨k, _, hmu, rfl⟩)
  · nofun
  · exact fun _ _ _ _ => hempty
  · intro place
    constructor
    · rintro ⟨r, hr, rfl, hgroup⟩
      obtain ⟨hold, hplace⟩ := Routers.mem_del.1 hr
      rcases (h.routes r.place).1 ⟨r, hold, rfl, hgroup⟩ with ⟨-, heq⟩ | ⟨_, _, hmu', -⟩
      · exact absurd heq hplace
      · rw [hmu] at hmu'
        cases hmu'
    · rw [routed_of_stage rfl rfl]
      rintro ⟨hnot, -⟩
      change o.isEmpty = false at hnot
      rw [hempty] at hnot
      cases hnot

theorem ObjOk.removed (hmu : o.mu = some (k, .unrouted)) :
    ObjOk go registry' vhostRouter g o.unlock := by
  have hempty : o.isEmpty = true := h.empty k _ hmu (.inl rfl)
  have hnot : o.isEmpty ≠ false := by
    rw [hempty]
    nofun
  refine ⟨h.distinct, h.names, ?_, ?_, ?_, ?_, ?_⟩
  · rintro (hmembers | ⟨_, _, ⟨⟩, _⟩)
    exact absurd hmembers hnot
  · rintro (hmembers | ⟨_, _, ⟨⟩, _⟩)
    exact absurd hmembers hnot
  · nofun
  · nofun
  · intro place
    exact (h.routes place).trans ((routed_of_stage hmu rfl).trans
      (routed_of_none (o := o.unlock) rfl place).symm)

end Frame

/-! ## The invariant of a state -/

def Pc.membership? : Pc → Option (String × String)
  | .member proxyName group | .leaving proxyName group | .parting proxyName group _
  | .removing proxyName group _ => some (proxyName, group)
  | .absent | .start _ | .waiting _ _ | .inside _ | .failed _ | .gone => none

def Pc.parts? : Pc → Option Nat
  | .parting _ _ g | .removing _ _ g => some g
  | .absent | .start _ | .waiting _ _ | .inside _ | .failed _ | .member _ _ | .leaving _ _
  | .gone => none

def Pc.registering : Pc → Bool
  | .absent | .start _ | .waiting _ _ | .failed _ => true
  | .inside _ | .member _ _ | .leaving _ _ | .parting _ _ _ | .removing _ _ _ | .gone => false

/-- The call is where the lock of the group says. -/
def Pc.In (pc : Pc) (g : Nat) : Stage → Prop
  | .leaving proxyName => ∃ group, pc = .removing proxyName group g
  | .entered _ | .current _ | .added _ | .emptied | .unrouted => pc = .inside g

def Pc.outside : Pc → Bool
  | .inside _ | .removing _ _ _ => false
  | .absent | .start _ | .waiting _ _ | .failed _ | .member _ _ | .leaving _ _ | .parting _ _ _
  | .gone => true

structure Inv (s : State) : Prop where
  sound : s.registry.Sound
  fresh : ∀ g, s.registry.keys.length ≤ g → s.obj g = .new
  objs : ∀ g, ObjOk go s.registry s.vhostRouter g (s.obj g)
  inside : ∀ g k stage, (s.obj g).mu = some (k, stage) → (s.call k).In g stage
  waiting : ∀ k req g, s.call k = .waiting req g → s.registry.keys[g]? = some req.group
  /-- A member is in the group that its name leads to. -/
  members : ∀ k proxyName group, (s.call k).membership? = some (proxyName, group) →
    ∃ g, s.registry.keys[g]? = some group ∧ proxyName ∈ (s.obj g).createFuncs ∧
      ∀ g', (s.call k).parts? = some g' → g' = g
  unique : ∀ k k' m, (s.call k).membership? = some m → (s.call k').membership? = some m → k = k'
  unwritten : ∀ k, (s.call k).registering = true → s.wrote k = false
  unwrittenIn : ∀ g k req, (s.obj g).mu = some (k, .entered req) ∨
    (s.obj g).mu = some (k, .current req) → s.wrote k = false

variable {go}

theorem inv_init : Inv go init where
  sound := Registry.sound_empty
  fresh := fun _ _ => rfl
  objs := fun _ => objOk_new fun _ hr => absurd hr List.not_mem_nil
  inside := nofun
  waiting := nofun
  members := nofun
  unique := nofun
  unwritten := fun _ _ => rfl
  unwrittenIn := fun _ _ _ _ => rfl

theorem Inv.mu_eq_none {s : State} (h : Inv go s) (hidle : Idle s) (g : Nat) :
    (s.obj g).mu = none := by
  cases hmu : (s.obj g).mu with
  | none => rfl
  | some entry =>
    obtain ⟨k, stage⟩ := entry
    have hin := h.inside g k stage hmu
    have hrest := hidle k
    cases stage with
    | leaving proxyName =>
      obtain ⟨group, hpc⟩ := hin
      rw [hpc] at hrest
      cases hrest
    | entered | current | added | emptied | unrouted =>
      rw [show s.call k = .inside g from hin] at hrest
      cases hrest

theorem Inv.consistent {s : State} (h : Inv go s) (hidle : Idle s) : Consistent go s where
  distinct := fun g => (h.objs g).distinct
  names := fun g => (h.objs g).names
  route := fun g place =>
    ((h.objs g).routes place).trans (routed_of_none (h.mu_eq_none hidle g) place)
  unique := by
    intro g g' hg hg' hgroup
    have hkey := (h.objs g).named (.inl hg)
    rw [hgroup] at hkey
    exact ((h.objs g).held (.inl hg)).eq ((h.objs g').held (.inl hg')) hkey
      ((h.objs g').named (.inl hg'))

/-! ## What a step preserves -/

section Steps

variable {s : State} {k g : Nat} {pc : Pc} {o : HTTPGroup} {proxyName group : String}
  {vhostRouter : Routers RouteConfig} {stage : Stage} {req : Request}

theorem Pc.In.cases (h : pc.In g stage) :
    pc = .inside g ∨ ∃ proxyName group, pc = .removing proxyName group g := by
  cases stage with
  | leaving proxyName =>
    obtain ⟨group, hpc⟩ := h
    exact .inr ⟨proxyName, group, hpc⟩
  | entered | current | added | emptied | unrouted => exact .inl h

theorem Pc.not_in (h : pc.outside = true) : ¬ pc.In g stage := by
  intro hin
  rcases hin.cases with rfl | ⟨_, _, rfl⟩ <;> cases h

theorem Inv.setCall (h : Inv go s) {old : Pc} {registry : Registry String} (hcall : s.call k = old)
    (hsound : registry.Sound) (hlen : s.registry.keys.length ≤ registry.keys.length)
    (hkeys : ∀ (g : Nat) key, s.registry.keys[g]? = some key → registry.keys[g]? = some key)
    (hcur : ∀ g, s.registry.Current g → registry.Current g)
    (hwait : ∀ req g, pc = .waiting req g → registry.keys[g]? = some req.group)
    (hsame : ∀ m, pc.membership? = some m → old.membership? = some m)
    (hparts : ∀ proxyName group (g g' : Nat), pc.membership? = some (proxyName, group) →
      pc.parts? = some g' → s.registry.keys[g]? = some group →
        proxyName ∈ (s.obj g).createFuncs → g' = g)
    (hout : old.outside = true) (hwrote : pc.registering = true → old.registering = true) :
    Inv go ({ s with registry }.setCall k pc) where
  sound := hsound
  fresh := fun g hg => h.fresh g (Nat.le_trans hlen hg)
  objs := fun g => (h.objs g).setRegistry (hkeys g) (hcur g)
  inside := by
    intro g k' stage hmu
    have hin := h.inside g k' stage hmu
    have hne : k' ≠ k := by
      rintro rfl
      exact Pc.not_in (hcall ▸ hout) hin
    change (update s.call k pc k').In g stage
    rwa [update_of_ne hne]
  waiting := (forall_update_iff s.call (p := fun _ x =>
    ∀ req g, x = .waiting req g → registry.keys[g]? = some req.group)).2
      ⟨hwait, fun k' _ req g hk' => hkeys g _ (h.waiting k' req g hk')⟩
  members := by
    refine (forall_update_iff s.call (p := fun _ x => ∀ proxyName group,
      x.membership? = some (proxyName, group) → ∃ g, registry.keys[g]? = some group ∧
        proxyName ∈ (s.obj g).createFuncs ∧ ∀ g', x.parts? = some g' → g' = g)).2 ⟨?_, ?_⟩
    · intro proxyName group hm
      obtain ⟨g, hkey, hmem, -⟩ := h.members k proxyName group (hcall ▸ hsame _ hm)
      exact ⟨g, hkeys g _ hkey, hmem, fun g' hg' => hparts proxyName group g g' hm hg' hkey hmem⟩
    · intro k' _ proxyName group hm
      obtain ⟨g, hkey, hmem, hparts'⟩ := h.members k' proxyName group hm
      exact ⟨g, hkeys g _ hkey, hmem, hparts'⟩
  unique := by
    have hold : ∀ k' m, (update s.call k pc k').membership? = some m →
        (s.call k').membership? = some m :=
      (forall_update_iff s.call (p := fun k' x => ∀ m, x.membership? = some m →
        (s.call k').membership? = some m)).2 ⟨hcall ▸ hsame, fun _ _ _ => id⟩
    intro k₁ k₂ m h₁ h₂
    exact h.unique k₁ k₂ m (hold k₁ m h₁) (hold k₂ m h₂)
  unwritten := (forall_update_iff s.call (p := fun k' x =>
    x.registering = true → s.wrote k' = false)).2
      ⟨fun hreg => h.unwritten k (hcall ▸ hwrote hreg), fun k' _ => h.unwritten k'⟩
  unwrittenIn := h.unwrittenIn

theorem Inv.advance (h : Inv go s) {old : Pc} (hcall : s.call k = old)
    (hsame : ∀ m, pc.membership? = some m → old.membership? = some m)
    (hparts : ∀ proxyName group (g g' : Nat), pc.membership? = some (proxyName, group) →
      pc.parts? = some g' → s.registry.keys[g]? = some group →
        proxyName ∈ (s.obj g).createFuncs → g' = g)
    (hwait : ∀ req g, pc ≠ .waiting req g) (hout : old.outside = true)
    (hwrote : pc.registering = true → old.registering = true) : Inv go (s.setCall k pc) :=
  h.setCall hcall h.sound (Nat.le_refl _) (fun _ _ => id) (fun _ => id)
    (fun req g heq => absurd heq (hwait req g)) hsame hparts hout hwrote

theorem Inv.unique_update (h : Inv go s)
    (hnew : ∀ m, pc.membership? = some m → ∀ k', k' ≠ k → (s.call k').membership? ≠ some m)
    (k₁ k₂ : Nat) (m : String × String) (h₁ : (update s.call k pc k₁).membership? = some m)
    (h₂ : (update s.call k pc k₂).membership? = some m) : k₁ = k₂ := by
  by_cases hk₁ : k₁ = k
  · by_cases hk₂ : k₂ = k
    · rw [hk₁, hk₂]
    · rw [hk₁, update_self] at h₁
      rw [update_of_ne hk₂] at h₂
      exact absurd h₂ (hnew m h₁ k₂ hk₂)
  · rw [update_of_ne hk₁] at h₁
    by_cases hk₂ : k₂ = k
    · rw [hk₂, update_self] at h₂
      exact absurd h₁ (hnew m h₂ k₁ hk₁)
    · rw [update_of_ne hk₂] at h₂
      exact h.unique k₁ k₂ m h₁ h₂

def State.Keeps (s : State) (k g : Nat) (o : HTTPGroup) : Prop :=
  ∀ k' proxyName group, k' ≠ k → (s.call k').membership? = some (proxyName, group) →
    s.registry.keys[g]? = some group → proxyName ∈ (s.obj g).createFuncs →
      proxyName ∈ o.createFuncs

section

variable (h : Inv go s)

include h

theorem Inv.members_update (hkeep : s.Keeps k g o) {k' : Nat} (hne : k' ≠ k)
    (hm : (s.call k').membership? = some (proxyName, group)) :
    ∃ g', s.registry.keys[g']? = some group ∧
      proxyName ∈ (update s.obj g o g').createFuncs ∧
        ∀ g'', (s.call k').parts? = some g'' → g'' = g' := by
  obtain ⟨g', hkey, hmem, hparts⟩ := h.members k' proxyName group hm
  refine ⟨g', hkey, ?_, hparts⟩
  by_cases hg : g' = g
  · subst hg
    rw [update_self]
    exact hkeep k' proxyName group hne hm hkey hmem
  · rwa [update_of_ne hg]

theorem Inv.unwritten_update {wrote : Bool}
    (hwrote : pc.registering = true → wrote = false) (k' : Nat)
    (hreg : (update s.call k pc k').registering = true) : update s.wrote k wrote k' = false := by
  by_cases hk : k' = k
  · rw [hk, update_self] at hreg ⊢
    exact hwrote hreg
  · rw [update_of_ne hk] at hreg ⊢
    exact h.unwritten k' hreg

theorem Inv.move (pc : Pc) (wrote : Bool) {registry : Registry String}
    (hsound : registry.Sound) (hkeys : registry.keys = s.registry.keys)
    (hlt : g < s.registry.keys.length)
    (hobjs : ∀ g', g' ≠ g → ObjOk go registry vhostRouter g' (s.obj g'))
    (hobj : ObjOk go registry vhostRouter g o) (hout : ∀ g' stage, (s.call k).In g' stage → g' = g)
    (hin : ∀ k' stage, o.mu = some (k', stage) → k' = k ∧ pc.In g stage)
    (hmembers : ∀ proxyName group, pc.membership? = some (proxyName, group) →
      s.registry.keys[g]? = some group ∧ proxyName ∈ o.createFuncs ∧
        (∀ g', pc.parts? = some g' → g' = g) ∧
          ∀ k', k' ≠ k → (s.call k').membership? ≠ some (proxyName, group))
    (hkeep : s.Keeps k g o) (hwait : ∀ req g', pc ≠ .waiting req g')
    (hwrote : pc.registering = true → wrote = false)
    (hwroteIn : ∀ req, o.mu = some (k, .entered req) ∨ o.mu = some (k, .current req) →
      wrote = false) :
    Inv go { vhostRouter, registry, obj := update s.obj g o,
             call := update s.call k pc, wrote := update s.wrote k wrote } := by
  -- Nobody but the call is in the group, and the call is in no other.
  have hothers : ∀ g' k' stage, g' ≠ g → (s.obj g').mu = some (k', stage) → k' ≠ k := by
    rintro g' k' stage hne hmu rfl
    exact hne (hout g' stage (h.inside g' k' stage hmu))
  refine ⟨hsound, ?_, ?_, ?_, ?_, ?_, ?_, ?_, ?_⟩
  · intro g' hg'
    have hle : s.registry.keys.length ≤ g' := hkeys ▸ hg'
    exact (update_of_ne (by omega) _ _).trans (h.fresh g' hle)
  · exact (forall_update_iff s.obj (p := ObjOk go registry vhostRouter)).2 ⟨hobj, hobjs⟩
  · refine (forall_update_iff s.obj (p := fun g' x => ∀ k' stage, x.mu = some (k', stage) →
      (update s.call k pc k').In g' stage)).2 ⟨?_, ?_⟩
    · intro k' stage hmu
      obtain ⟨rfl, hpc⟩ := hin k' stage hmu
      rwa [update_self]
    · intro g' hne k' stage hmu
      rw [update_of_ne (hothers g' k' stage hne hmu)]
      exact h.inside g' k' stage hmu
  · change ∀ k' req g', update s.call k pc k' = .waiting req g' →
      registry.keys[g']? = some req.group
    rw [hkeys]
    exact (forall_update_iff s.call (p := fun _ x => ∀ req g', x = .waiting req g' →
      s.registry.keys[g']? = some req.group)).2
        ⟨fun req g' heq => absurd heq (hwait req g'), fun k' _ => h.waiting k'⟩
  · change ∀ k' proxyName group, (update s.call k pc k').membership? =
      some (proxyName, group) → ∃ g', registry.keys[g']? = some group ∧
        proxyName ∈ (update s.obj g o g').createFuncs ∧
          ∀ g'', (update s.call k pc k').parts? = some g'' → g'' = g'
    rw [hkeys]
    refine (forall_update_iff s.call (p := fun _ x => ∀ proxyName group,
      x.membership? = some (proxyName, group) → ∃ g', s.registry.keys[g']? = some group ∧
        proxyName ∈ (update s.obj g o g').createFuncs ∧
          ∀ g'', x.parts? = some g'' → g'' = g')).2 ⟨?_, ?_⟩
    · intro proxyName group hm
      obtain ⟨hkey, hmem, hparts, -⟩ := hmembers proxyName group hm
      exact ⟨g, hkey, by rwa [update_self], hparts⟩
    · exact fun k' hne proxyName group hm => h.members_update hkeep hne hm
  · exact h.unique_update fun m hm => (hmembers m.1 m.2 hm).2.2.2
  · exact h.unwritten_update hwrote
  · refine (forall_update_iff s.obj (p := fun _ x => ∀ k' req,
      x.mu = some (k', .entered req) ∨ x.mu = some (k', .current req) →
        update s.wrote k wrote k' = false)).2 ⟨?_, ?_⟩
    · intro k' req hmu
      obtain rfl : k' = k := by
        rcases hmu with hmu | hmu <;> exact (hin k' _ hmu).1
      rw [update_self]
      exact hwroteIn req hmu
    · intro g' hne k' req hmu
      have hk : k' ≠ k := by
        rcases hmu with hmu | hmu <;> exact hothers g' k' _ hne hmu
      rw [update_of_ne hk]
      exact h.unwrittenIn g' k' req hmu

omit h in
theorem Pc.In.eq {g' : Nat} {stage' : Stage} (h : pc.In g stage) (h' : pc.In g' stage') :
    g' = g := by
  rcases h.cases with rfl | ⟨_, _, rfl⟩
  · rcases h'.cases with heq | ⟨_, _, heq⟩
    · cases heq
      rfl
    · cases heq
  · rcases h'.cases with heq | ⟨_, _, heq⟩
    · cases heq
    · cases heq
      rfl

namespace Inv

theorem lt_of_mu (hmu : (s.obj g).mu = some (k, stage)) : g < s.registry.keys.length := by
  by_contra hle
  rw [h.fresh g (Nat.not_lt.1 hle)] at hmu
  cases hmu

theorem moveOn (pc : Pc) (hlt : g < s.registry.keys.length)
    (hobj : ObjOk go s.registry s.vhostRouter g o)
    (hout : ∀ g' stage, (s.call k).In g' stage → g' = g)
    (hin : ∀ k' stage, o.mu = some (k', stage) → k' = k ∧ pc.In g stage)
    (hmembers : ∀ m, pc.membership? = some m → (s.call k).membership? = some m ∧
      s.registry.keys[g]? = some m.2 ∧ m.1 ∈ o.createFuncs ∧ ∀ g', pc.parts? = some g' → g' = g)
    (hkeep : s.Keeps k g o) (hwait : ∀ req g', pc ≠ .waiting req g')
    (hwrote : pc.registering = true → s.wrote k = false)
    (hwroteIn : ∀ req, o.mu = some (k, .entered req) ∨ o.mu = some (k, .current req) →
      s.wrote k = false) : Inv go ((s.setObj g o).setCall k pc) := by
  have hmove := h.move pc (s.wrote k) h.sound rfl hlt (fun g' _ => h.objs g') hobj hout hin ?_ hkeep
    hwait hwrote hwroteIn
  · rw [update_eq_self] at hmove
    exact hmove
  · intro proxyName group hm
    obtain ⟨hold, hkey, hmem, hparts⟩ := hmembers (proxyName, group) hm
    refine ⟨hkey, hmem, hparts, fun k' hne hk' => ?_⟩
    exact hne (h.unique k' k _ hk' hold)

theorem moveIn (wrote : Bool) (hcall : s.call k = .inside g)
    (hobjs : ∀ g', g' ≠ g → ObjOk go s.registry vhostRouter g' (s.obj g'))
    (hobj : ObjOk go s.registry vhostRouter g { s.obj g with mu := some (k, stage) })
    (hlt : g < s.registry.keys.length) (hin : (Pc.inside g).In g stage)
    (hwrote : ∀ req, stage = .entered req ∨ stage = .current req → wrote = false) :
    Inv go { s.setStage k g stage with
      vhostRouter, wrote := update s.wrote k wrote } := by
  have hmove := h.move (k := k) (s.call k) wrote h.sound rfl hlt hobjs hobj ?_ ?_ ?_
    (fun _ _ _ _ _ _ => id) ?_ ?_ ?_
  · rw [update_eq_self] at hmove
    exact hmove
  · rw [hcall]
    intro g' stage' hin'
    exact hin.eq hin'
  · rw [hcall]
    rintro _ _ ⟨⟩
    exact ⟨rfl, hin⟩
  · rw [hcall]
    nofun
  · rw [hcall]
    nofun
  · rw [hcall]
    nofun
  · rintro req (⟨⟨⟩⟩ | ⟨⟨⟩⟩)
    · exact hwrote req (.inl rfl)
    · exact hwrote req (.inr rfl)

theorem leave (hmu : (s.obj g).mu = some (k, stage))
    (hwrote : s.wrote k = false) (hsilent : stage.silent = true)
    (hwait : ∀ req g', pc ≠ .waiting req g') (hmembers : pc.membership? = none) :
    Inv go (s.leave k g (s.obj g) pc) := by
  have hin := h.inside g k stage hmu
  refine h.moveOn pc (h.lt_of_mu hmu) ((h.objs g).unlock ?_) (fun g' stage' => hin.eq) ?_ ?_ ?_
    hwait (fun _ => hwrote) ?_
  · rw [hmu]
    rintro _ _ ⟨⟩
    exact hsilent
  · nofun
  · rw [hmembers]
    nofun
  · exact fun _ _ _ _ _ _ => id
  · exact fun _ _ => hwrote

theorem lock (hen : Enabled go s (.lock k req g)) : Inv go (next go s (.lock k req g)) := by
  obtain ⟨hcall, hmu⟩ := hen
  have hkey := h.waiting k req g hcall
  have hwrote : s.wrote k = false := h.unwritten k (by rw [hcall]; rfl)
  refine h.moveOn _ (List.getElem?_eq_some_iff.1 hkey).1 ((h.objs g).lock hmu k hkey) ?_ ?_ ?_
    (fun _ _ _ _ _ _ => id) nofun nofun fun _ _ => hwrote
  · intro g' stage hin
    rw [hcall] at hin
    exact absurd hin (Pc.not_in rfl)
  · rintro _ _ ⟨⟩
    exact ⟨rfl, rfl⟩
  · nofun

theorem isCurrent (hmu : (s.obj g).mu = some (k, .entered req)) :
    Inv go (next go s (.isCurrent k g req)) := by
  have hin : s.call k = .inside g := h.inside g k _ hmu
  have hwrote := h.unwrittenIn g k req (.inl hmu)
  simp only [next]
  split_ifs with hcur
  · have hgroups : s.registry.groups req.group = some g := beq_iff_eq.1 hcur
    have hmove := h.moveIn (s.wrote k) hin (fun g' _ => h.objs g')
      ((h.objs g).current hmu (h.sound.current hgroups)) (h.lt_of_mu hmu) rfl fun _ _ => hwrote
    rw [update_eq_self] at hmove
    exact hmove
  · exact h.leave hmu hwrote rfl nofun rfl

theorem addRoute (hen : Enabled go s (.addRoute k g req)) :
    Inv go (next go s (.addRoute k g req)) := by
  obtain ⟨hmu, hempty⟩ := hen
  have hin : s.call k = .inside g := h.inside g k _ hmu
  have hwrote := h.unwrittenIn g k req (.inr hmu)
  simp only [next, State.addRoute]
  cases hadd : s.vhostRouter.add go req.routeConfig.domain req.routeConfig.location
    req.routeConfig.routeByHTTPUser ⟨k, req.routeConfig, .group g⟩ with
  | none => exact h.leave hmu hwrote rfl nofun rfl
  | some vhostRouter =>
    refine h.moveIn true hin ?_ ((h.objs g).addRoute hmu hempty hadd) (h.lt_of_mu hmu) rfl ?_
    · intro g' hne
      refine (h.objs g').setRouter fun r hr => ?_
      rw [Routers.mem_add hadd]
      constructor
      · rintro (rfl | hold)
        · cases hr
          exact absurd rfl hne
        · exact hold
      · exact .inr
    · rintro _ (⟨⟨⟩⟩ | ⟨⟨⟩⟩)

theorem insert (hmu : (s.obj g).mu = some (k, stage))
    (hholds : stage.holds = true) (hreq : stage.request? = some req)
    (hnew : req.proxyName ∉ (s.obj g).createFuncs) (hobj : ObjOk go s.registry s.vhostRouter g o)
    (hunlocked : o.mu = none)
    (hmem : ∀ name, name ∈ o.createFuncs ↔ name = req.proxyName ∨ name ∈ (s.obj g).createFuncs) :
    Inv go { (s.setObj g o).setCall k (.member req.proxyName req.group) with
      wrote := update s.wrote k true } := by
  have hkey := (h.objs g).asked k stage req hmu hreq
  have hcur := (h.objs g).held (.inr ⟨k, stage, hmu, hholds⟩)
  refine h.move _ true h.sound rfl (h.lt_of_mu hmu) (fun g' _ => h.objs g') hobj
    (fun g' stage' => (h.inside g k stage hmu).eq) ?_ ?_ ?_ nofun nofun ?_
  · rw [hunlocked]
    nofun
  · rintro _ _ ⟨⟩
    refine ⟨hkey, (hmem _).2 (.inl rfl), nofun, fun k' hne hk' => ?_⟩
    -- another call with the membership would be in the current group of the name, which is this one
    obtain ⟨g', hkey', hmem', -⟩ := h.members k' _ _ hk'
    have hcur' := (h.objs g').held (.inl (isEmpty_eq_false_iff.2 ⟨_, hmem'⟩))
    rw [hcur'.eq hcur hkey' hkey] at hmem'
    exact hnew hmem'
  · exact fun _ _ _ _ _ _ hold => (hmem _).2 (.inr hold)
  · rw [hunlocked]
    rintro _ (⟨⟨⟩⟩ | ⟨⟨⟩⟩)

theorem first (hmu : (s.obj g).mu = some (k, .added req)) :
    Inv go (next go s (.first k g req)) := by
  have hempty : (s.obj g).isEmpty = true := (h.objs g).empty k _ hmu (.inr ⟨req, rfl⟩)
  have hnew : req.proxyName ∉ (s.obj g).createFuncs := by
    intro hmem
    rw [isEmpty_eq_false_iff.2 ⟨_, hmem⟩] at hempty
    cases hempty
  simp only [next, State.insert]
  rcases insert_cases ((s.obj g).setUp req) req with ⟨hmem, -⟩ | ⟨-, heq⟩
  · exact absurd hmem hnew
  · rw [heq]
    exact h.insert hmu rfl rfl hnew ((h.objs g).first hmu _) rfl fun name => AList.mem_insert _

theorem join (hen : Enabled go s (.join k g req)) : Inv go (next go s (.join k g req)) := by
  obtain ⟨hmu, hmembers⟩ := hen
  have hwrote := h.unwrittenIn g k req (.inr hmu)
  simp only [next, State.join]
  cases (s.obj g).mismatch req with
  | some err => exact h.leave hmu hwrote rfl nofun rfl
  | none =>
    unfold State.insert
    rcases insert_cases (s.obj g) req with ⟨-, heq⟩ | ⟨hnew, heq⟩
    · rw [heq]
      exact h.leave hmu hwrote rfl nofun rfl
    · rw [heq]
      exact h.insert hmu rfl rfl hnew ((h.objs g).join hmu hmembers hnew _) rfl
        fun name => AList.mem_insert _

theorem member_of_parts (hm : (s.call k).membership? = some (proxyName, group))
    (hparts : (s.call k).parts? = some g) :
    s.registry.keys[g]? = some group ∧ proxyName ∈ (s.obj g).createFuncs := by
  obtain ⟨g', hkey, hmem, hsame⟩ := h.members k proxyName group hm
  rw [hsame g hparts]
  exact ⟨hkey, hmem⟩

theorem lockLeave (hen : Enabled go s (.lockLeave k proxyName group g)) :
    Inv go (next go s (.lockLeave k proxyName group g)) := by
  obtain ⟨hcall, hmu⟩ := hen
  have hm : (s.call k).membership? = some (proxyName, group) := by
    rw [hcall]
    rfl
  obtain ⟨hkey, hmem⟩ := h.member_of_parts hm (by rw [hcall]; rfl)
  refine h.moveOn _ (List.getElem?_eq_some_iff.1 hkey).1 ((h.objs g).lockLeave hmu k proxyName)
    ?_ ?_ ?_ (fun _ _ _ _ _ _ => id) nofun nofun ?_
  · intro g' stage hin
    rw [hcall] at hin
    exact absurd hin (Pc.not_in rfl)
  · rintro _ _ ⟨⟩
    exact ⟨rfl, group, rfl⟩
  · rintro _ ⟨⟩
    exact ⟨hm, hkey, hmem, by rintro _ ⟨⟩; rfl⟩
  · rintro _ (⟨⟨⟩⟩ | ⟨⟨⟩⟩)

theorem remove (hen : Enabled go s (.remove k proxyName group g)) :
    Inv go (next go s (.remove k proxyName group g)) := by
  obtain ⟨hcall, hmu⟩ := hen
  have hm : (s.call k).membership? = some (proxyName, group) := by
    rw [hcall]
    rfl
  obtain ⟨hkey, hmem⟩ := h.member_of_parts hm (by rw [hcall]; rfl)
  -- Another member of the group has another name.
  have hkeep : s.Keeps k g ((s.obj g).remove proxyName) := by
    intro k' name group' hne hk' hkey' hname
    rw [hkey] at hkey'
    cases hkey'
    refine AList.mem_erase.2 ⟨?_, hname⟩
    rintro rfl
    exact hne (h.unique k' k _ hk' hm)
  simp only [next]
  split_ifs with hempty
  · refine h.moveOn _ (h.lt_of_mu hmu) ((h.objs g).emptied hmu hmem hempty)
      (fun g' stage' => (h.inside g k _ hmu).eq) ?_ ?_ hkeep nofun nofun ?_
    · rintro _ _ ⟨⟩
      exact ⟨rfl, rfl⟩
    · nofun
    · rintro _ (⟨⟨⟩⟩ | ⟨⟨⟩⟩)
  · refine h.moveOn _ (h.lt_of_mu hmu) ((h.objs g).remove hmu hmem (by simpa using hempty))
      (fun g' stage' => (h.inside g k _ hmu).eq) ?_ ?_ hkeep nofun nofun ?_
    · nofun
    · nofun
    · rintro _ (⟨⟨⟩⟩ | ⟨⟨⟩⟩)

theorem delRoute (hmu : (s.obj g).mu = some (k, .emptied)) :
    Inv go (next go s (.delRoute k g)) := by
  have hin : s.call k = .inside g := h.inside g k _ hmu
  have hmove := h.moveIn (s.wrote k) hin ?_ ((h.objs g).delRoute hmu) (h.lt_of_mu hmu) rfl ?_
  · rw [update_eq_self] at hmove
    exact hmove
  · intro g' hne
    refine (h.objs g').setRouter fun r hr => ?_
    rw [Routers.mem_del]
    refine ⟨And.left, fun hold => ⟨hold, fun hplace => ?_⟩⟩
    -- the route of this group is there, and a place has one route
    obtain ⟨r', hr', hplace', hgroup⟩ :=
      ((h.objs g).routes ((s.obj g).place go)).2 (.inl ⟨.inr ⟨k, hmu⟩, rfl⟩)
    have heq := Routers.eq_of_place_eq hold hr' (hplace.trans hplace'.symm)
    rw [heq, hgroup] at hr
    cases hr
    exact hne rfl
  · rintro _ (⟨⟨⟩⟩ | ⟨⟨⟩⟩)

theorem removeIf (hmu : (s.obj g).mu = some (k, .unrouted)) :
    Inv go (next go s (.removeIf k g)) := by
  have hkeys := Registry.keys_removeIf s.registry (s.obj g).group g
  have hmove := h.move .gone (s.wrote k) (h.sound.removeIf (s.obj g).group g) hkeys (h.lt_of_mu hmu)
    ?_ ((h.objs g).removed hmu) (fun g' stage' => (h.inside g k _ hmu).eq) ?_ ?_
    (fun _ _ _ _ _ _ => id) nofun nofun ?_
  · rw [update_eq_self] at hmove
    exact hmove
  · intro g' hne
    exact (h.objs g').setRegistry (by rw [hkeys]; exact fun _ => id) fun hcur => hcur.removeIf hne _
  · nofun
  · nofun
  · rintro _ (⟨⟨⟩⟩ | ⟨⟨⟩⟩)

theorem register (hcall : s.call k = .absent) : Inv go (next go s (.register k req)) := by
  refine h.advance hcall ?_ ?_ nofun rfl fun _ => rfl <;> nofun

theorem getOrCreate (hcall : s.call k = .start req) : Inv go (next go s (.getOrCreate k req)) := by
  obtain ⟨hsound, hkey⟩ := h.sound.getOrCreate req.group
  refine h.setCall hcall hsound ?_ (fun g key hg => Registry.keys_getOrCreate hg req.group)
    (fun g hg => hg.getOrCreate req.group) ?_ ?_ ?_ rfl fun _ => rfl
  · rcases Registry.getOrCreate_cases s.registry req.group with ⟨_, -, heq⟩ | ⟨-, heq⟩
    · rw [heq]
    · rw [heq, List.length_append]
      exact Nat.le_add_right _ _
  · rintro _ _ ⟨⟩
    exact hkey
  · nofun
  · nofun

theorem unRegister (hcall : s.call k = .member proxyName group) :
    Inv go (next go s (.unRegister k proxyName group)) := by
  refine h.advance hcall (fun _ => id) ?_ nofun rfl nofun
  nofun

theorem get (hcall : s.call k = .leaving proxyName group) :
    Inv go (next go s (.get k proxyName group)) := by
  have hm : (s.call k).membership? = some (proxyName, group) := by
    rw [hcall]
    rfl
  -- a group with members is the current one, so the lookup does not miss it
  have hgroups : ∀ g, s.registry.keys[g]? = some group → proxyName ∈ (s.obj g).createFuncs →
      s.registry.groups group = some g := by
    intro g hkey hmem
    exact ((h.objs g).held (.inl (isEmpty_eq_false_iff.2 ⟨_, hmem⟩))).groups hkey
  obtain ⟨g, hkey, hmem, -⟩ := h.members k proxyName group hm
  simp only [next, State.get]
  rw [hgroups g hkey hmem]
  refine h.advance hcall (fun _ => id) ?_ nofun rfl nofun
  rintro _ _ g₁ _ ⟨⟩ ⟨⟩ hkey₁ hmem₁
  exact Option.some.inj ((hgroups g hkey hmem).symm.trans (hgroups g₁ hkey₁ hmem₁))

theorem setRouter (hroutes : ∀ g r, r.payload.createConn = .group g →
      (r ∈ vhostRouter.routes ↔ r ∈ s.vhostRouter.routes)) : Inv go { s with vhostRouter } :=
  { h with objs := fun g => (h.objs g).setRouter (hroutes g) }

theorem addPlain (id : Nat) (spec : RouteSpec) : Inv go (next go s (.addPlain id spec)) := by
  simp only [next, State.addPlain]
  cases hadd : s.vhostRouter.add go spec.domain spec.location spec.routeByHTTPUser
    ⟨id, spec, .proxy spec.connFn⟩ with
  | none => exact h
  | some vhostRouter =>
    refine h.setRouter fun g r hr => ?_
    rw [Routers.mem_add hadd]
    constructor
    · rintro (rfl | hold)
      · cases hr
      · exact hold
    · exact .inr

theorem delPlain {spec : RouteSpec} (hen : Enabled go s (.delPlain spec)) :
    Inv go (next go s (.delPlain spec)) := by
  obtain ⟨r', hr', hplace, hplain⟩ := hen
  refine h.setRouter fun g r hr => ?_
  rw [Routers.mem_del]
  refine ⟨And.left, fun hold => ⟨hold, fun heq => ?_⟩⟩
  obtain rfl := Routers.eq_of_place_eq hold hr' (heq.trans hplace.symm)
  unfold isPlain at hplain
  rw [hr] at hplain
  cases hplain

end Inv

theorem inv_next {a : Action} (hen : Enabled go s a) : Inv go (next go s a) := by
  cases a with
  | register k req => exact h.register hen
  | getOrCreate k req => exact h.getOrCreate hen
  | lock k req g => exact h.lock hen
  | isCurrent k g req => exact h.isCurrent hen
  | addRoute k g req => exact h.addRoute hen
  | first k g req => exact h.first hen
  | join k g req => exact h.join hen
  | unRegister k proxyName group => exact h.unRegister hen
  | get k proxyName group => exact h.get hen
  | lockLeave k proxyName group g => exact h.lockLeave hen
  | remove k proxyName group g => exact h.remove hen
  | delRoute k g => exact h.delRoute hen
  | removeIf k g => exact h.removeIf hen
  | addPlain id spec => exact h.addPlain id spec
  | delPlain spec => exact h.delPlain hen

end

/-! ## Failing calls -/

theorem untouched_setStage (k g : Nat) (stage : Stage) : Untouched s (s.setStage k g stage) where
  createFuncs := (forall_update_iff s.obj (p := fun g' x =>
    x.createFuncs = (s.obj g').createFuncs)).2 ⟨rfl, fun _ _ => rfl⟩
  pxyNames := (forall_update_iff s.obj (p := fun g' x =>
    x.pxyNames = (s.obj g').pxyNames)).2 ⟨rfl, fun _ _ => rfl⟩
  vhostRouter := rfl

theorem untouched_leave (hfuncs : o.createFuncs = (s.obj g).createFuncs)
    (hnames : o.pxyNames = (s.obj g).pxyNames) : Untouched s (s.leave k g o pc) where
  createFuncs := (forall_update_iff s.obj (p := fun g' x =>
    x.createFuncs = (s.obj g').createFuncs)).2 ⟨hfuncs, fun _ _ => rfl⟩
  pxyNames := (forall_update_iff s.obj (p := fun g' x =>
    x.pxyNames = (s.obj g').pxyNames)).2 ⟨hnames, fun _ _ => rfl⟩
  vhostRouter := rfl

theorem untouched_insert (hfuncs : o.createFuncs = (s.obj g).createFuncs)
    (hnames : o.pxyNames = (s.obj g).pxyNames) (hwrote : (s.insert k g o req).wrote k = false) :
    Untouched s (s.insert k g o req) := by
  unfold State.insert at hwrote ⊢
  rcases insert_cases o req with ⟨-, heq⟩ | ⟨-, heq⟩
  · rw [heq]
    exact untouched_leave hfuncs hnames
  · rw [heq] at hwrote
    have htrue : update s.wrote k true k = true := update_self ..
    cases htrue.symm.trans hwrote

theorem untouched_of_registers {a : Action} (ha : a.registers = some k)
    (hwrote : (next go s a).wrote k = false) : Untouched s (next go s a) := by
  have hrefl : ∀ registry call, Untouched s { s with registry, call } :=
    fun _ _ => ⟨fun _ => rfl, fun _ => rfl, rfl⟩
  cases a with
  | register | getOrCreate => exact hrefl _ _
  | lock k' req g =>
    have hstage := untouched_setStage (s := s) k' g (.entered req)
    exact { hstage with }
  | isCurrent k' g req =>
    simp only [next]
    split_ifs
    · exact untouched_setStage _ _ _
    · exact untouched_leave rfl rfl
  | addRoute k' g req =>
    cases ha
    change (s.addRoute go k g req).wrote k = false at hwrote
    change Untouched s (s.addRoute go k g req)
    unfold State.addRoute at hwrote ⊢
    cases hadd : s.vhostRouter.add go req.routeConfig.domain req.routeConfig.location
      req.routeConfig.routeByHTTPUser ⟨k, req.routeConfig, .group g⟩ with
    | none => exact untouched_leave rfl rfl
    | some vhostRouter =>
      rw [hadd] at hwrote
      have htrue : update s.wrote k true k = true := update_self ..
      cases htrue.symm.trans hwrote
  | first k' g req =>
    cases ha
    exact untouched_insert rfl rfl hwrote
  | join k' g req =>
    cases ha
    change (s.join k g req).wrote k = false at hwrote
    change Untouched s (s.join k g req)
    unfold State.join at hwrote ⊢
    cases hmismatch : (s.obj g).mismatch req with
    | some err => exact untouched_leave rfl rfl
    | none =>
      rw [hmismatch] at hwrote
      exact untouched_insert rfl rfl hwrote
  | unRegister | get | lockLeave | remove | delRoute | removeIf | addPlain | delPlain => cases ha

theorem update_true {wrote : Nat → Bool} (h : wrote k = true) {k' : Nat} :
    update wrote k' true k = true := by
  by_cases hk : k = k'
  · rw [hk]
    exact update_self ..
  · rw [update_of_ne hk]
    exact h

theorem wrote_insert {k' : Nat} (h : s.wrote k = true) : (s.insert k' g o req).wrote k = true := by
  unfold State.insert
  cases o.insert req with
  | error err => exact h
  | ok o' => exact update_true h

theorem wrote_next (h : s.wrote k = true) {a : Action} : (next go s a).wrote k = true := by
  cases a with
  | isCurrent k' g req =>
    simp only [next]
    split_ifs <;> exact h
  | addRoute k' g req =>
    simp only [next, State.addRoute]
    split
    · exact h
    · exact update_true h
  | first k' g req => exact wrote_insert h
  | join k' g req =>
    simp only [next, State.join]
    split
    · exact h
    · exact wrote_insert h
  | get k' proxyName group =>
    simp only [next, State.get]
    split <;> exact h
  | remove k' proxyName group g =>
    simp only [next]
    split_ifs <;> exact h
  | addPlain id spec =>
    simp only [next, State.addPlain]
    split <;> exact h
  | register | getOrCreate | lock | unRegister | lockLeave | delRoute | removeIf | delPlain =>
    exact h

theorem inv_of_reach (h : Inv go s) {t : State} (hreach : Reach (step go) anyAction s t) :
    Inv go t := by
  refine invariant_of_next h ?_ hreach
  intro u a hinv _ hen
  exact inv_next hinv hen

theorem wrote_of_reach (h : s.wrote k = true) {t : State} (hreach : Reach (step go) anyAction s t) :
    t.wrote k = true := by
  refine invariant_of_next (P := fun u => u.wrote k = true) h ?_ hreach
  intro u a hwrote _ _
  exact wrote_next hwrote

end Steps

/-- With no call in progress the books of every group agree with each other and the router; and a
`Register` that fails changes neither members nor router. -/
theorem httpGroup_consistent (go : Go) (s : State) (hreach : Reach (step go) anyAction init s) :
    (Idle s → Consistent go s) ∧
      ∀ k a t u err, a.registers = some k → step go s a = some t →
        Reach (step go) anyAction t u → u.call k = .failed err → Untouched s t := by
  have hinv : Inv go s := inv_of_reach inv_init hreach
  refine ⟨hinv.consistent, ?_⟩
  intro k a t u err ha hstep hlater hfailed
  obtain ⟨hen, rfl⟩ := stepOf_eq_some_iff.1 hstep
  refine untouched_of_registers ha ?_
  -- had the step changed anything, the call would still be on record when it fails
  have hunwritten : u.wrote k = false :=
    (inv_of_reach (inv_next hinv hen) hlater).unwritten k (by rw [hfailed]; rfl)
  by_contra hwrote
  rw [wrote_of_reach (Bool.eq_true_of_not_eq_false hwrote) hlater] at hunwritten
  cases hunwritten

end Controller

def plainGo : Go := ⟨id, fun _ => none⟩

def request (proxyName groupKey : String) : Request :=
  ⟨proxyName, "g", groupKey, ⟨[97], [], [], [], [], 0⟩⟩

def staleRun : List Action :=
  [.register 0 (request "p" "k"), .getOrCreate 0 (request "p" "k"), .lock 0 (request "p" "k") 0,
    .isCurrent 0 0 (request "p" "k"), .addRoute 0 0 (request "p" "k"), .first 0 0 (request "p" "k"),
    .register 1 (request "q" "k"), .getOrCreate 1 (request "q" "k"),
    .unRegister 0 "p" "g", .get 0 "p" "g", .lockLeave 0 "p" "g" 0, .remove 0 "p" "g" 0,
    .delRoute 0 0, .removeIf 0 0,
    .lock 1 (request "q" "k") 0, .isCurrent 1 0 (request "q" "k"), .getOrCreate 1 (request "q" "k"),
    .lock 1 (request "q" "k") 1, .isCurrent 1 1 (request "q" "k"), .addRoute 1 1 (request "q" "k"),
    .first 1 1 (request "q" "k"),
    .register 2 (request "r" "l"), .getOrCreate 2 (request "r" "l"), .lock 2 (request "r" "l") 1,
    .isCurrent 2 1 (request "r" "l"), .join 2 1 (request "r" "l")]

theorem httpGroup_consistent_staleRun :
    let s := (run (step plainGo) anyAction init staleRun).getD init
    Idle s ∧ (s.obj 0).isEmpty = true ∧ (s.obj 1).isEmpty = false ∧
      s.call 2 = .failed .groupAuthFailed ∧ (∀ place, ¬ HasRoute s 0 place) ∧
      HasRoute s 1 ((s.obj 1).place plainGo) := by
  intro s
  have hreach : Reach (step plainGo) anyAction init s := reach_getD_of_isSome (by decide +kernel)
  have hidle : Idle s
    | 0 => by decide +kernel
    | 1 => by decide +kernel
    | 2 => by decide +kernel
    | _ + 3 => rfl
  have hfirst : (s.obj 0).isEmpty = true := by decide +kernel
  have hsecond : (s.obj 1).isEmpty = false := by decide +kernel
  have hcons := (httpGroup_consistent plainGo s hreach).1 hidle
  refine ⟨hidle, hfirst, hsecond, by decide +kernel, ?_, (hcons.route 1 _).2 ⟨hsecond, rfl⟩⟩
  intro place hroute
  rw [hcons.route 0 place, hfirst] at hroute
  cases hroute.1

end FrpMeo.Server.HttpGroup
