import FrpMeo.Lib.Registry
import FrpMeo.Server.Ports

/-!
# TCP groups under concurrent calls

The members of a TCP group (`server/group/tcp.go`, `base.go`, `listener.go`, `registry.go`) share
one public port. The first one acquires it and opens the listener; the last one closes the listener,
releases the port and removes the group. The call that has the lock of a group is stored in it; what
the group holds depends on its members and the stage (`TCPGroup.portAt`, `TCPGroup.listenerAt`).
-/

namespace FrpMeo.Server.TcpGroup

open Lib Lib.Transition Function
open Server.Ports (AcquireError Ledger Moment PortsRange SeesUsed allOpen)

/-! ## Groups -/

structure Request where
  proxyName : String
  group : String
  groupKey : String
  addr : String
  port : Int
  deriving DecidableEq

inductive ListenErr where
  | acquire (err : AcquireError)
  | listen
  | groupParamsInvalid
  | groupDifferentPort
  | groupAuthFailed
  deriving DecidableEq

inductive Stage where
  /-- `Listen` has the lock. -/
  | entered (req : Request)
  | current (req : Request)
  /-- The port has been acquired for the first member. -/
  | acquired (req : Request) (realPort : Int)
  /-- The port cannot be listened on and has to be given back. -/
  | undoing (req : Request) (realPort : Int)
  /-- `closeListener` has removed the last member. -/
  | emptied
  | closed
  | released
  deriving DecidableEq

structure RealLn where
  id : Nat
  addr : String
  port : Int
  deriving DecidableEq

/-- `TCPGroup` with its `baseGroup`; listeners go by the call that returned them. -/
structure TCPGroup where
  group : String
  groupKey : String
  addr : String
  port : Int
  realPort : Int
  realLn : Option RealLn
  lns : List Nat
  /-- The call that has the lock. -/
  mu : Option (Nat × Stage)

namespace TCPGroup

def new : TCPGroup := ⟨"", "", "", 0, 0, none, [], none⟩

/-- The first member makes the group what it is (`initBase`, `newListener`). -/
def setUp (o : TCPGroup) (k : Nat) (req : Request) (realPort : Int) (realLn : RealLn) : TCPGroup :=
  { o with
    group := req.group
    groupKey := req.groupKey
    addr := req.addr
    port := req.port
    realPort
    realLn := some realLn
    lns := o.lns ++ [k] }

def mismatch (o : TCPGroup) (req : Request) : Option ListenErr :=
  if o.group ≠ req.group ∨ o.addr ≠ req.addr then some .groupParamsInvalid
  else if o.port ≠ req.port then some .groupDifferentPort
  else if o.groupKey ≠ req.groupKey then some .groupAuthFailed
  else none

def join (o : TCPGroup) (k : Nat) : TCPGroup := { o with lns := o.lns ++ [k] }

def remove (o : TCPGroup) (k : Nat) : TCPGroup := { o with lns := o.lns.erase k }

def unlock (o : TCPGroup) : TCPGroup := { o with mu := none }

end TCPGroup

/-! ## The controller -/

/-- What `Listen` has returned: a listener of the group object `g` and the public port. -/
structure Joined where
  req : Request
  g : Nat
  realPort : Int
  deriving DecidableEq

inductive Pc where
  | absent
  | start (req : Request)
  /-- `Listen` has got a group and waits for its lock. -/
  | waiting (req : Request) (g : Nat)
  /-- In a group, whose lock says where. -/
  | inside (g : Nat)
  | failed (err : ListenErr)
  | member (j : Joined)
  /-- `Close` has been called and waits for the group's lock. -/
  | closing (j : Joined)
  | gone
  deriving DecidableEq

structure State where
  portManager : Ledger
  /-- The open real listeners, with the groups that opened them. -/
  opened : RealLn → Option Nat
  nextLn : Nat
  registry : Registry String
  obj : Nat → TCPGroup
  call : Nat → Pc

def init (allowPorts : List PortsRange) : State where
  portManager := .new allowPorts
  opened := fun _ => none
  nextLn := 0
  registry := .empty
  obj := fun _ => .new
  call := fun _ => .absent

namespace State

def setCall (s : State) (k : Nat) (pc : Pc) : State :=
  { s with call := update s.call k pc }

def move (s : State) (k : Nat) (pc : Pc) (g : Nat) (o : TCPGroup) : State :=
  { s with obj := update s.obj g o, call := update s.call k pc }

def enter (s : State) (k g : Nat) (o : TCPGroup) (stage : Stage) : State :=
  s.move k (.inside g) g { o with mu := some (k, stage) }

def leave (s : State) (k g : Nat) (o : TCPGroup) (pc : Pc) : State := s.move k pc g o.unlock

def isCurrent (s : State) (k g : Nat) (req : Request) : State :=
  if s.registry.isCurrent req.group g then s.enter k g (s.obj g) (.current req)
  -- `errGroupStale`: the loop starts again
  else s.leave k g (s.obj g) (.start req)

def acquire (s : State) (k g : Nat) (req : Request) (e : Moment) : State :=
  match s.portManager.acquire g req.proxyName req.port e with
  | (portManager, .ok realPort) =>
      { s with portManager }.enter k g (s.obj g) (.acquired req realPort)
  | (portManager, .error err) => { s with portManager }.leave k g (s.obj g) (.failed (.acquire err))

def netListen (s : State) (k g : Nat) (req : Request) (realPort : Int) (ok : Bool) : State :=
  if ok then
    let realLn : RealLn := ⟨s.nextLn, req.addr, realPort⟩
    { s with
      opened := update s.opened realLn (some g)
      nextLn := s.nextLn + 1 }.leave k g ((s.obj g).setUp k req realPort realLn)
        (.member ⟨req, g, realPort⟩)
  else s.enter k g (s.obj g) (.undoing req realPort)

def join (s : State) (k g : Nat) (req : Request) : State :=
  match (s.obj g).mismatch req with
  | some err => s.leave k g (s.obj g) (.failed err)
  | none => s.leave k g ((s.obj g).join k) (.member ⟨req, g, (s.obj g).realPort⟩)

def closeListener (s : State) (k g : Nat) : State :=
  if ((s.obj g).remove k).lns = [] then s.enter k g ((s.obj g).remove k) .emptied
  else s.leave k g ((s.obj g).remove k) .gone

def closeReal (s : State) : Option RealLn → State
  -- a group that gets here has a listener (`TCPGroup.StageOk`)
  | none => s
  | some realLn => { s with opened := update s.opened realLn none }

end State

inductive Action where
  | listen (k : Nat) (req : Request)
  | getOrCreate (k : Nat) (req : Request)
  | lock (k : Nat) (req : Request) (g : Nat)
  | isCurrent (k g : Nat) (req : Request)
  | acquire (k g : Nat) (req : Request) (e : Moment)
  | netListen (k g : Nat) (req : Request) (realPort : Int) (ok : Bool)
  | undo (k g : Nat) (req : Request) (realPort now : Int)
  | join (k g : Nat) (req : Request)
  | close (k : Nat) (j : Joined)
  | closeListener (k : Nat) (j : Joined)
  | closeReal (k g : Nat)
  | release (k g : Nat) (now : Int)
  | removeIf (k g : Nat)
  /-- The worker of the port manager forgets old ports. -/
  | clean (now : Int)

def Enabled (s : State) : Action → Prop
  | .listen k _ => s.call k = .absent
  | .getOrCreate k req => s.call k = .start req
  | .lock k req g => s.call k = .waiting req g ∧ (s.obj g).mu = none
  | .isCurrent k g req => (s.obj g).mu = some (k, .entered req)
  | .acquire k g req e =>
      ((s.obj g).mu = some (k, .current req) ∧ (s.obj g).lns = []) ∧
        s.portManager.manager.Ordered e
  | .netListen k g req realPort _ => (s.obj g).mu = some (k, .acquired req realPort)
  | .undo k g req realPort _ => (s.obj g).mu = some (k, .undoing req realPort)
  | .join k g req => (s.obj g).mu = some (k, .current req) ∧ (s.obj g).lns ≠ []
  | .close k j => s.call k = .member j
  | .closeListener k j => s.call k = .closing j ∧ (s.obj j.g).mu = none
  | .closeReal k g => (s.obj g).mu = some (k, .emptied)
  | .release k g _ => (s.obj g).mu = some (k, .closed)
  | .removeIf k g => (s.obj g).mu = some (k, .released)
  | .clean _ => True

instance (s : State) (a : Action) : Decidable (Enabled s a) := by
  cases a <;> dsimp only [Enabled] <;> infer_instance

def next (s : State) : Action → State
  | .listen k req => s.setCall k (.start req)
  | .getOrCreate k req =>
      { s with registry := (s.registry.getOrCreate req.group).1 }.setCall k
        (.waiting req (s.registry.getOrCreate req.group).2)
  | .lock k req g => s.enter k g (s.obj g) (.entered req)
  | .isCurrent k g req => s.isCurrent k g req
  | .acquire k g req e => s.acquire k g req e
  | .netListen k g req realPort ok => s.netListen k g req realPort ok
  | .undo k g _ realPort now =>
      { s with portManager := s.portManager.release realPort now }.leave k g (s.obj g)
        (.failed .listen)
  | .join k g req => s.join k g req
  | .close k j => s.setCall k (.closing j)
  | .closeListener k j => s.closeListener k j.g
  | .closeReal k g => (s.closeReal (s.obj g).realLn).enter k g (s.obj g) .closed
  | .release k g now =>
      { s with portManager := s.portManager.release (s.obj g).realPort now }.enter k g (s.obj g)
        .released
  | .removeIf k g =>
      { s with registry := s.registry.removeIf (s.obj g).group g }.leave k g (s.obj g) .gone
  | .clean now => { s with portManager := s.portManager.cleanReservedPortsOnce now }

def step : State → Action → Option State := stepOf Enabled next

/-- The system says that the port kept for a name is unavailable when it is used. -/
def ProbeSees (s : State) : Action → Prop
  | .acquire _ _ req e => SeesUsed s.portManager.manager req.proxyName req.port e
  | _ => True

instance (s : State) (a : Action) : Decidable (ProbeSees s a) := by
  cases a <;> dsimp only [ProbeSees] <;> infer_instance

/-! ## What is claimed -/

def Pc.atRest : Pc → Bool
  | .absent | .failed _ | .member _ | .gone => true
  | .start _ | .waiting _ _ | .inside _ | .closing _ => false

def Idle (s : State) : Prop := ∀ k, (s.call k).atRest = true

structure TCPGroup.Fits (o : TCPGroup) (req : Request) : Prop where
  group : o.group = req.group
  addr : o.addr = req.addr
  port : o.port = req.port
  groupKey : o.groupKey = req.groupKey

structure Settled (s : State) : Prop where
  /-- A group with members holds the port that it says, and no other; a group without holds none. -/
  port : ∀ g p, g ∈ s.portManager.holders p ↔ (s.obj g).lns ≠ [] ∧ p = (s.obj g).realPort
  used : ∀ g, (s.obj g).lns ≠ [] →
    (s.portManager.manager.usedPorts (s.obj g).realPort).isSome = true
  /-- So it is with the real listener. -/
  listener : ∀ g realLn, s.opened realLn = some g ↔
    (s.obj g).lns ≠ [] ∧ (s.obj g).realLn = some realLn
  listens : ∀ g, (s.obj g).lns ≠ [] →
    ∃ id, (s.obj g).realLn = some ⟨id, (s.obj g).addr, (s.obj g).realPort⟩
  unique : ∀ g g', (s.obj g).lns ≠ [] → (s.obj g').lns ≠ [] → (s.obj g).group = (s.obj g').group →
    g = g'
  joined : ∀ g k, k ∈ (s.obj g).lns ↔ ∃ j, s.call k = .member j ∧ j.g = g
  same : ∀ k j, s.call k = .member j →
    (s.obj j.g).Fits j.req ∧ (s.obj j.g).realPort = j.realPort

structure Untouched (s t : State) : Prop where
  obj : ∀ g, (t.obj g).unlock = (s.obj g).unlock
  portManager : t.portManager = s.portManager
  opened : t.opened = s.opened
  registry : t.registry = s.registry

def Action.listens : Action → Option (Nat × Request)
  | .listen k req | .getOrCreate k req | .lock k req _ | .isCurrent k _ req | .acquire k _ req _
  | .netListen k _ req _ _ | .undo k _ req _ _ | .join k _ req => some (k, req)
  | .close _ _ | .closeListener _ _ | .closeReal _ _ | .release _ _ _ | .removeIf _ _ | .clean _ =>
      none

/-! ## The invariant of a group -/

namespace TCPGroup

/-- The port that a group holds when the call with its lock is there. -/
def portAt (o : TCPGroup) : Option (Nat × Stage) → Option Int
  | some (_, .acquired _ realPort) | some (_, .undoing _ realPort) => some realPort
  | some (_, .emptied) | some (_, .closed) => some o.realPort
  | some (_, .entered _) | some (_, .current _) | some (_, .released) | none =>
      if o.lns = [] then none else some o.realPort

def listenerAt (o : TCPGroup) : Option (Nat × Stage) → Option RealLn
  | some (_, .emptied) => o.realLn
  | some (_, .entered _) | some (_, .current _) | some (_, .acquired _ _) | some (_, .undoing _ _)
  | some (_, .closed) | some (_, .released) | none => if o.lns = [] then none else o.realLn

/-- A group that is set up bears the name that it was made for, and listens on its port. -/
structure Bound (o : TCPGroup) (registry : Registry String) (g : Nat) : Prop where
  current : registry.Current g
  named : registry.keys[g]? = some o.group
  listens : ∃ id, o.realLn = some ⟨id, o.addr, o.realPort⟩

/-- What the call with the lock knows. -/
def StageOk (o : TCPGroup) (registry : Registry String) (g : Nat) : Stage → Prop
  | .entered req => registry.keys[g]? = some req.group
  | .current req => registry.keys[g]? = some req.group ∧ registry.Current g
  | .acquired req _ | .undoing req _ =>
      (registry.keys[g]? = some req.group ∧ registry.Current g) ∧ o.lns = []
  | .emptied | .closed | .released => o.Bound registry g ∧ o.lns = []

end TCPGroup

structure ObjOk (registry : Registry String) (holders : Int → List Nat)
    (opened : RealLn → Option Nat) (g : Nat) (o : TCPGroup) : Prop where
  members : o.lns ≠ [] → o.Bound registry g
  stage : ∀ k stage, o.mu = some (k, stage) → o.StageOk registry g stage
  holds : ∀ p, g ∈ holders p ↔ o.portAt o.mu = some p
  opens : ∀ realLn, opened realLn = some g ↔ o.listenerAt o.mu = some realLn

section Frame

variable {registry registry' : Registry String} {holders holders' : Int → List Nat}
  {opened opened' : RealLn → Option Nat} {g : Nat} {o : TCPGroup}

theorem TCPGroup.Bound.setRegistry (h : o.Bound registry g)
    (hkeys : ∀ key, registry.keys[g]? = some key → registry'.keys[g]? = some key)
    (hcur : registry.Current g → registry'.Current g) : o.Bound registry' g :=
  ⟨hcur h.current, hkeys _ h.named, h.listens⟩

theorem ObjOk.frame (h : ObjOk registry holders opened g o)
    (hkeys : ∀ key, registry.keys[g]? = some key → registry'.keys[g]? = some key)
    (hcur : registry.Current g → registry'.Current g)
    (hholders : ∀ p, g ∈ holders' p ↔ g ∈ holders p)
    (hopened : ∀ realLn, opened' realLn = some g ↔ opened realLn = some g) :
    ObjOk registry' holders' opened' g o where
  members := fun hne => (h.members hne).setRegistry hkeys hcur
  stage := by
    intro k stage hmu
    have hstage := h.stage k stage hmu
    -- what a call knows of the shared state is about the registry only
    cases stage with
    | entered req => exact hkeys _ hstage
    | current req => exact ⟨hkeys _ hstage.1, hcur hstage.2⟩
    | acquired req _ | undoing req _ => exact ⟨⟨hkeys _ hstage.1.1, hcur hstage.1.2⟩, hstage.2⟩
    | emptied | closed | released => exact ⟨hstage.1.setRegistry hkeys hcur, hstage.2⟩
  holds := fun p => (hholders p).trans (h.holds p)
  opens := fun realLn => (hopened realLn).trans (h.opens realLn)

theorem ObjOk.setMu (h : ObjOk registry holders opened g o) (mu : Option (Nat × Stage))
    (hstage : ∀ k stage, mu = some (k, stage) → o.StageOk registry g stage)
    (hholds : ∀ p, g ∈ holders' p ↔ o.portAt mu = some p)
    (hopens : ∀ realLn, opened' realLn = some g ↔ o.listenerAt mu = some realLn) :
    ObjOk registry holders' opened' g { o with mu } where
  members := fun hne => ⟨(h.members hne).current, (h.members hne).named, (h.members hne).listens⟩
  stage := by
    intro k stage hmu
    have hok := hstage k stage hmu
    cases stage with
    | entered | current | acquired | undoing => exact hok
    | emptied | closed | released => exact ⟨⟨hok.1.current, hok.1.named, hok.1.listens⟩, hok.2⟩
  holds := hholds
  opens := hopens

theorem ObjOk.setLns (hbound : o.Bound registry g)
    (hholds : ∀ p, g ∈ holders p ↔ some o.realPort = some p)
    (hopens : ∀ realLn, opened realLn = some g ↔ o.realLn = some realLn) {lns : List Nat}
    (hlns : lns ≠ []) : ObjOk registry holders opened g { o with lns, mu := none } where
  members := fun _ => { hbound with }
  stage := nofun
  holds := by
    intro p
    rw [hholds p]
    simp [TCPGroup.portAt, hlns]
  opens := by
    intro realLn
    rw [hopens realLn]
    simp [TCPGroup.listenerAt, hlns]

end Frame

/-! ## The invariant of the calls -/

def Pc.joined? : Pc → Option Joined
  | .member j | .closing j => some j
  | .absent | .start _ | .waiting _ _ | .inside _ | .failed _ | .gone => none

structure Calls (keys : List String) (obj : Nat → TCPGroup) (call : Nat → Pc) : Prop where
  inside : ∀ g k stage, (obj g).mu = some (k, stage) → call k = .inside g
  waiting : ∀ k req g, call k = .waiting req g → keys[g]? = some req.group
  distinct : ∀ g, (obj g).lns.Nodup
  members : ∀ g k, k ∈ (obj g).lns ↔ ∃ j, (call k).joined? = some j ∧ j.g = g
  same : ∀ k j, (call k).joined? = some j →
    (obj j.g).Fits j.req ∧ (obj j.g).realPort = j.realPort

namespace Calls

variable {keys keys' : List String} {obj : Nat → TCPGroup} {call : Nat → Pc} {k g : Nat} {pc : Pc}

theorem setCall (h : Calls keys obj call)
    (hkeys : ∀ (g : Nat) key, keys[g]? = some key → keys'[g]? = some key)
    (hout : ∀ g, call k ≠ .inside g)
    (hwait : ∀ req g, pc = .waiting req g → keys'[g]? = some req.group)
    (hjoined : pc.joined? = (call k).joined?) : Calls keys' obj (update call k pc) := by
  have hsame : ∀ k', (update call k pc k').joined? = (call k').joined? :=
    (forall_update_iff call (p := fun k' x => x.joined? = (call k').joined?)).2
      ⟨hjoined, fun _ _ => rfl⟩
  refine ⟨?_, ?_, h.distinct, ?_, ?_⟩
  · intro g k' stage hmu
    have hin := h.inside g k' stage hmu
    have hne : k' ≠ k := by
      rintro rfl
      exact hout g hin
    rwa [update_of_ne hne]
  · exact (forall_update_iff call (p := fun _ x =>
      ∀ req g, x = .waiting req g → keys'[g]? = some req.group)).2
        ⟨hwait, fun k' _ req g hk' => hkeys g _ (h.waiting k' req g hk')⟩
  · intro g k'
    rw [hsame k']
    exact h.members g k'
  · intro k' j hj
    rw [hsame k'] at hj
    exact h.same k' j hj

variable {o : TCPGroup}

variable (h : Calls keys obj call)

include h

theorem move (hout : ∀ g' stage, (obj g').mu = some (k, stage) → g' = g)
    (hin : ∀ k' stage, o.mu = some (k', stage) → k' = k ∧ pc = .inside g)
    (hwait : ∀ req g', pc ≠ .waiting req g') (hdistinct : o.lns.Nodup)
    (hold : ∀ j, (call k).joined? = some j → j.g = g)
    (hself : ∀ j, pc.joined? = some j → j.g = g ∧ o.Fits j.req ∧ o.realPort = j.realPort)
    (hmem : k ∈ o.lns ↔ ∃ j, pc.joined? = some j)
    (hothers : ∀ k', k' ≠ k → (k' ∈ o.lns ↔ k' ∈ (obj g).lns))
    (hsame : ∀ k' j, k' ≠ k → (call k').joined? = some j → j.g = g →
      o.Fits j.req ∧ o.realPort = j.realPort) :
    Calls keys (update obj g o) (update call k pc) := by
  refine ⟨?_, ?_, ?_, ?_, ?_⟩
  · refine (forall_update_iff obj (p := fun g' x => ∀ k' stage, x.mu = some (k', stage) →
      update call k pc k' = .inside g')).2 ⟨?_, ?_⟩
    · intro k' stage hmu
      obtain ⟨rfl, hpc⟩ := hin k' stage hmu
      rwa [update_self]
    · intro g' hne k' stage hmu
      have hk : k' ≠ k := by
        rintro rfl
        exact hne (hout g' stage hmu)
      rw [update_of_ne hk]
      exact h.inside g' k' stage hmu
  · exact (forall_update_iff call (p := fun _ x =>
      ∀ req g', x = .waiting req g' → keys[g']? = some req.group)).2
        ⟨fun req g' heq => absurd heq (hwait req g'), fun k' _ => h.waiting k'⟩
  · exact (forall_update_iff obj (p := fun _ x => x.lns.Nodup)).2
      ⟨hdistinct, fun g' _ => h.distinct g'⟩
  · intro g' k'
    by_cases hk : k' = k
    · subst hk
      rw [update_self]
      by_cases hg : g' = g
      · subst hg
        rw [update_self, hmem]
        constructor
        · rintro ⟨j, hj⟩
          exact ⟨j, hj, (hself j hj).1⟩
        · rintro ⟨j, hj, -⟩
          exact ⟨j, hj⟩
      · -- the call was in no other group, and is in no other now
        rw [update_of_ne hg, h.members]
        constructor
        · rintro ⟨j, hj, hjg⟩
          exact absurd (hjg.symm.trans (hold j hj)) hg
        · rintro ⟨j, hj, hjg⟩
          exact absurd (hjg.symm.trans (hself j hj).1) hg
    · rw [update_of_ne hk]
      by_cases hg : g' = g
      · subst hg
        rw [update_self, hothers k' hk]
        exact h.members g' k'
      · rw [update_of_ne hg]
        exact h.members g' k'
  · intro k' j hj
    by_cases hk : k' = k
    · subst hk
      rw [update_self] at hj
      obtain ⟨hjg, hfits⟩ := hself j hj
      rw [hjg, update_self]
      exact hfits
    · rw [update_of_ne hk] at hj
      by_cases hg : j.g = g
      · rw [hg, update_self]
        exact hsame k' j hk hj hg
      · rw [update_of_ne hg]
        exact h.same k' j hj

theorem keep {mu : Option (Nat × Stage)}
    (hcall : call k = .inside g ∨ ∃ req, call k = .waiting req g)
    (hin : ∀ k' stage, mu = some (k', stage) → k' = k ∧ pc = .inside g)
    (hwait : ∀ req g', pc ≠ .waiting req g') (hpc : pc.joined? = none) :
    Calls keys (update obj g { obj g with mu }) (update call k pc) := by
  have hnone : (call k).joined? = none := by
    rcases hcall with heq | ⟨req, heq⟩
    · rw [heq]
      rfl
    · rw [heq]
      rfl
  refine h.move ?_ hin hwait (h.distinct g) ?_ ?_ ?_ (fun _ _ => Iff.rfl) ?_
  · intro g' stage hmu
    have hinside := h.inside g' k stage hmu
    rcases hcall with heq | ⟨req, heq⟩
    · rw [heq] at hinside
      cases hinside
      rfl
    · rw [heq] at hinside
      cases hinside
  · rw [hnone]
    nofun
  · rw [hpc]
    nofun
  · rw [h.members, hnone, hpc]
    constructor
    · rintro ⟨_, ⟨⟩, -⟩
    · rintro ⟨_, ⟨⟩⟩
  · rintro k' j - hj rfl
    obtain ⟨hfits, hport⟩ := h.same k' j hj
    exact ⟨{ hfits with }, hport⟩

variable {j : Joined}

theorem add (hcall : call k = .inside g) (hmu : o.mu = none)
    (hlns : o.lns = (obj g).lns ++ [k]) (hg : j.g = g)
    (hfits : o.Fits j.req ∧ o.realPort = j.realPort)
    (hsame : ∀ k' j', k' ∈ (obj g).lns → (call k').joined? = some j' → j'.g = g →
      o.Fits j'.req ∧ o.realPort = j'.realPort) :
    Calls keys (update obj g o) (update call k (.member j)) := by
  have hnot : k ∉ (obj g).lns := by
    rw [h.members, hcall]
    rintro ⟨_, ⟨⟩, -⟩
  refine h.move ?_ ?_ ?_ ?_ ?_ ?_ ?_ ?_ ?_
  · intro g' stage hmu'
    have hin := h.inside g' k stage hmu'
    rw [hcall] at hin
    cases hin
    rfl
  · rw [hmu]
    nofun
  · nofun
  · rw [hlns]
    exact (h.distinct g).append (List.nodup_singleton k) (List.disjoint_singleton.2 hnot)
  · rw [hcall]
    nofun
  · rintro _ ⟨⟩
    exact ⟨hg, hfits⟩
  · rw [hlns]
    exact iff_of_true (List.mem_append_right _ (List.mem_singleton.2 rfl)) ⟨j, rfl⟩
  · intro k' hne
    rw [hlns]
    simp [hne]
  · intro k' j' _ hj' hg'
    exact hsame k' j' ((h.members g k').2 ⟨j', hj', hg'⟩) hj' hg'

theorem remove (hcall : call k = .closing j)
    (hin : ∀ k' stage, o.mu = some (k', stage) → k' = k ∧ pc = .inside j.g)
    (hwait : ∀ req g', pc ≠ .waiting req g') (hpc : pc.joined? = none)
    (hlns : o.lns = (obj j.g).lns.erase k)
    (hsame : ∀ j' : Joined, (obj j.g).Fits j'.req ∧ (obj j.g).realPort = j'.realPort →
      o.Fits j'.req ∧ o.realPort = j'.realPort) :
    Calls keys (update obj j.g o) (update call k pc) := by
  refine h.move ?_ hin hwait ?_ ?_ ?_ ?_ ?_ ?_
  · intro g' stage hmu
    have hinside := h.inside g' k stage hmu
    rw [hcall] at hinside
    cases hinside
  · rw [hlns]
    exact (h.distinct j.g).erase k
  · rw [hcall]
    rintro _ ⟨⟩
    rfl
  · rw [hpc]
    nofun
  · rw [hlns, hpc]
    refine iff_of_false (h.distinct j.g).not_mem_erase ?_
    rintro ⟨_, ⟨⟩⟩
  · intro k' hne
    rw [hlns]
    exact List.mem_erase_of_ne hne
  · intro k' j' _ hj' hg
    refine hsame j' ?_
    rw [← hg]
    exact h.same k' j' hj'

end Calls

/-! ## The invariant of a state -/

structure Inv (s : State) : Prop where
  ports : Ports.Inv s.portManager
  sound : s.registry.Sound
  fresh : ∀ realLn g, s.opened realLn = some g → realLn.id < s.nextLn
  objs : ∀ g, ObjOk s.registry s.portManager.holders s.opened g (s.obj g)
  calls : Calls s.registry.keys s.obj s.call

theorem inv_init (allowPorts : List PortsRange) : Inv (init allowPorts) where
  ports := Ports.inv_new allowPorts
  sound := Registry.sound_empty
  fresh := nofun
  objs := by
    intro g
    refine ⟨fun hne => absurd rfl hne, ?_, ?_, ?_⟩
    · nofun
    · intro p
      exact iff_of_false List.not_mem_nil nofun
    · intro realLn
      exact iff_of_false nofun nofun
  calls := by
    refine ⟨?_, ?_, fun _ => List.nodup_nil, ?_, ?_⟩
    · nofun
    · nofun
    · intro g k
      exact iff_of_false List.not_mem_nil (by rintro ⟨_, ⟨⟩, -⟩)
    · nofun

section Steps

variable {s : State}

theorem Inv.mu_eq_none (h : Inv s) (hidle : Idle s) (g : Nat) : (s.obj g).mu = none := by
  cases hmu : (s.obj g).mu with
  | none => rfl
  | some entry =>
    obtain ⟨k, stage⟩ := entry
    have hrest := hidle k
    rw [h.calls.inside g k stage hmu] at hrest
    cases hrest

theorem joined?_eq_some_iff {pc : Pc} (hrest : pc.atRest = true) (j : Joined) :
    pc.joined? = some j ↔ pc = .member j := by
  cases pc with
  | member j' =>
    constructor
    · rintro ⟨⟩
      rfl
    · rintro ⟨⟩
      rfl
  | closing => cases hrest
  | absent | start | waiting | inside | failed | gone => 
    exact iff_of_false nofun nofun

theorem Inv.settled (h : Inv s) (hidle : Idle s) : Settled s := by
  -- nobody is in a group, so what it holds is what its members say
  have hport : ∀ g, (s.obj g).portAt (s.obj g).mu =
      if (s.obj g).lns = [] then none else some (s.obj g).realPort := by
    intro g
    rw [h.mu_eq_none hidle g]
    rfl
  have hlistener : ∀ g, (s.obj g).listenerAt (s.obj g).mu =
      if (s.obj g).lns = [] then none else (s.obj g).realLn := by
    intro g
    rw [h.mu_eq_none hidle g]
    rfl
  have hholds : ∀ g p, g ∈ s.portManager.holders p ↔
      (s.obj g).lns ≠ [] ∧ p = (s.obj g).realPort := by
    intro g p
    rw [(h.objs g).holds p, hport]
    by_cases hlns : (s.obj g).lns = []
    · simp [hlns]
    · simp [hlns, eq_comm]
  refine ⟨hholds, ?_, ?_, fun g hlns => ((h.objs g).members hlns).listens, ?_, ?_, ?_⟩
  · intro g hlns
    have hheld := (hholds g _).2 ⟨hlns, rfl⟩
    rw [Option.isSome_iff_ne_none]
    intro hnone
    rw [h.ports.used _ hnone] at hheld
    cases hheld
  · intro g realLn
    rw [(h.objs g).opens realLn, hlistener]
    by_cases hlns : (s.obj g).lns = [] <;> simp [hlns]
  · intro g g' hlns hlns' hgroup
    have hbound := (h.objs g).members hlns
    have hbound' := (h.objs g').members hlns'
    exact hbound.current.eq hbound'.current (hgroup ▸ hbound.named) hbound'.named
  · intro g k
    rw [h.calls.members g k]
    simp only [joined?_eq_some_iff (hidle k)]
  · intro k j hcall
    exact h.calls.same k j ((joined?_eq_some_iff (hidle k) j).2 hcall)

/-! ## What a step preserves -/

/-- The shared state of `t` is that of `s` for every group but `g`. -/
structure Apart (s t : State) (g : Nat) : Prop where
  ports : Ports.Inv t.portManager
  sound : t.registry.Sound
  fresh : ∀ realLn g', t.opened realLn = some g' → realLn.id < t.nextLn
  keys : t.registry.keys = s.registry.keys
  current : ∀ g', g' ≠ g → s.registry.Current g' → t.registry.Current g'
  holders : ∀ g', g' ≠ g → ∀ p, g' ∈ t.portManager.holders p ↔ g' ∈ s.portManager.holders p
  opened : ∀ g', g' ≠ g → ∀ realLn, t.opened realLn = some g' ↔ s.opened realLn = some g'
  obj : t.obj = s.obj
  call : t.call = s.call

theorem Inv.apart (h : Inv s) (g : Nat) : Apart s s g :=
  ⟨h.ports, h.sound, h.fresh, rfl, fun _ _ => id, fun _ _ _ => Iff.rfl, fun _ _ _ => Iff.rfl, rfl,
    rfl⟩

variable {t : State} {k g : Nat} {o : TCPGroup} {req : Request}

section

variable (h : Inv s)

include h

theorem Inv.move {pc : Pc} (ht : Apart s t g)
    (hobj : ObjOk t.registry t.portManager.holders t.opened g o)
    (hcalls : Calls s.registry.keys (update s.obj g o) (update s.call k pc)) :
    Inv (t.move k pc g o) :=
  { ht with
    objs := by
      change ∀ g', ObjOk t.registry t.portManager.holders t.opened g' (update t.obj g o g')
      rw [ht.obj]
      refine (forall_update_iff s.obj (p := fun g' x =>
        ObjOk t.registry t.portManager.holders t.opened g' x)).2 ⟨hobj, ?_⟩
      intro g' hne
      refine (h.objs g').frame ?_ (ht.current g' hne) (ht.holders g' hne) (ht.opened g' hne)
      rw [ht.keys]
      exact fun _ => id
    calls := by
      change Calls t.registry.keys (update t.obj g o) (update t.call k pc)
      rw [ht.keys, ht.obj, ht.call]
      exact hcalls }

variable {mu : Option (Nat × Stage)}

theorem Inv.holds (hmu : (s.obj g).mu = mu) (p : Int) :
    g ∈ s.portManager.holders p ↔ (s.obj g).portAt mu = some p := by
  rw [← hmu]
  exact (h.objs g).holds p

theorem Inv.opens (hmu : (s.obj g).mu = mu)
    (realLn : RealLn) : s.opened realLn = some g ↔ (s.obj g).listenerAt mu = some realLn := by
  rw [← hmu]
  exact (h.objs g).opens realLn

theorem Inv.enter {stage : Stage} (ht : Apart s t g) (hregistry : t.registry = s.registry)
    (hcall : s.call k = .inside g ∨ ∃ req, s.call k = .waiting req g)
    (hstage : (s.obj g).StageOk s.registry g stage)
    (hholds : ∀ p, g ∈ t.portManager.holders p ↔ (s.obj g).portAt (some (k, stage)) = some p)
    (hopens : ∀ realLn, t.opened realLn = some g ↔
      (s.obj g).listenerAt (some (k, stage)) = some realLn) :
    Inv (t.enter k g (s.obj g) stage) := by
  refine h.move ht ?_ (h.calls.keep hcall ?_ ?_ rfl)
  · rw [hregistry]
    refine (h.objs g).setMu _ ?_ hholds hopens
    rintro _ _ ⟨⟩
    exact hstage
  · rintro _ _ ⟨⟩
    exact ⟨rfl, rfl⟩
  · nofun

theorem Inv.leave {pc : Pc} (ht : Apart s t g) (hregistry : t.registry = s.registry)
    (hcall : s.call k = .inside g) (hwait : ∀ req g', pc ≠ .waiting req g')
    (hpc : pc.joined? = none)
    (hholds : ∀ p, g ∈ t.portManager.holders p ↔ (s.obj g).portAt none = some p)
    (hopens : ∀ realLn, t.opened realLn = some g ↔ (s.obj g).listenerAt none = some realLn) :
    Inv (t.leave k g (s.obj g) pc) := by
  refine h.move ht ?_ (h.calls.keep (.inl hcall) ?_ hwait hpc)
  · rw [hregistry]
    refine (h.objs g).setMu none ?_ hholds hopens
    nofun
  · nofun

theorem Inv.listen (hcall : s.call k = .absent) : Inv (next s (.listen k req)) := by
  refine { h with calls := h.calls.setCall (fun _ _ => id) ?_ ?_ ?_ }
  · rw [hcall]
    nofun
  · nofun
  · rw [hcall]
    rfl

theorem Inv.getOrCreate (hcall : s.call k = .start req) : Inv (next s (.getOrCreate k req)) := by
  obtain ⟨hsound, hkey⟩ := h.sound.getOrCreate req.group
  refine ⟨h.ports, hsound, h.fresh, ?_, ?_⟩
  · intro g
    exact (h.objs g).frame (fun _ hg => Registry.keys_getOrCreate hg req.group)
      (fun hg => hg.getOrCreate req.group) (fun _ => Iff.rfl) (fun _ => Iff.rfl)
  · refine h.calls.setCall (fun _ _ hg => Registry.keys_getOrCreate hg req.group) ?_ ?_ ?_
    · rw [hcall]
      nofun
    · rintro _ _ ⟨⟩
      exact hkey
    · rw [hcall]
      rfl

theorem Inv.lock (hen : Enabled s (.lock k req g)) : Inv (next s (.lock k req g)) := by
  obtain ⟨hcall, hmu⟩ := hen
  have hholds := h.holds hmu
  have hopens := h.opens hmu
  exact h.enter (h.apart g) rfl (.inr ⟨req, hcall⟩) (h.calls.waiting k req g hcall) hholds hopens

theorem Inv.isCurrent (hmu : (s.obj g).mu = some (k, .entered req)) :
    Inv (next s (.isCurrent k g req)) := by
  have hin := h.calls.inside g k _ hmu
  have hkey : s.registry.keys[g]? = some req.group := (h.objs g).stage k _ hmu
  have hholds := h.holds hmu
  have hopens := h.opens hmu
  simp only [next, State.isCurrent]
  split_ifs with hcur
  · have hgroups : s.registry.groups req.group = some g := beq_iff_eq.1 hcur
    exact h.enter (h.apart g) rfl (.inl hin) ⟨hkey, h.sound.current hgroups⟩ hholds
      hopens
  · exact h.leave (h.apart g) rfl hin nofun rfl hholds hopens

omit h in
theorem mem_holders_grant {holders : Int → List Nat} (g' : Nat) (p q : Int) :
    g' ∈ update holders p (g :: holders p) q ↔ g' = g ∧ q = p ∨ g' ∈ holders q := by
  by_cases hq : q = p
  · subst hq
    simp
  · simp [hq]

theorem Inv.acquire {e : Moment} (hen : Enabled s (.acquire k g req e))
    (hok : ProbeSees s (.acquire k g req e)) : Inv (next s (.acquire k g req e)) := by
  obtain ⟨⟨hmu, hlns⟩, hordered⟩ := hen
  have hin := h.calls.inside g k _ hmu
  have hholds := h.holds hmu
  have hopens := h.opens hmu
  have hports : Ports.Inv (s.portManager.acquire g req.proxyName req.port e).1 :=
    h.ports.acquire hordered hok
  -- an empty group holds nothing yet
  have hnone : ∀ p, g ∉ s.portManager.holders p := by
    intro p hp
    rw [hholds p] at hp
    simp [TCPGroup.portAt, hlns] at hp
  simp only [next, State.acquire]
  cases hresult : (s.portManager.manager.acquire req.proxyName req.port e).2 with
  | ok realPort =>
    rw [Ledger.acquire_of_ok hresult] at hports ⊢
    refine h.enter ⟨hports, h.sound, h.fresh, rfl, fun _ _ => id, ?_, fun _ _ _ => Iff.rfl, rfl,
      rfl⟩ rfl (.inl hin) ⟨(h.objs g).stage k _ hmu, hlns⟩ ?_ hopens
    · intro g' hne p
      rw [mem_holders_grant]
      simp [hne]
    · intro p
      rw [mem_holders_grant]
      simp [hnone p, TCPGroup.portAt, eq_comm]
  | error err =>
    rw [Ledger.acquire_of_error hresult] at hports ⊢
    exact h.leave ⟨hports, h.sound, h.fresh, rfl, fun _ _ => id, fun _ _ _ => Iff.rfl,
      fun _ _ _ => Iff.rfl, rfl, rfl⟩ rfl hin nofun rfl hholds hopens

variable {realPort : Int}

theorem Inv.netListen (hmu : (s.obj g).mu = some (k, .acquired req realPort)) (ok : Bool) :
    Inv (next s (.netListen k g req realPort ok)) := by
  have hin := h.calls.inside g k _ hmu
  have hholds := h.holds hmu
  have hopens := h.opens hmu
  obtain ⟨⟨hkey, hcur⟩, hlns⟩ : (s.registry.keys[g]? = some req.group ∧ s.registry.Current g) ∧
    (s.obj g).lns = [] := (h.objs g).stage k _ hmu
  have hnone : ∀ realLn, s.opened realLn ≠ some g := by
    intro realLn hopened
    rw [hopens realLn] at hopened
    simp [TCPGroup.listenerAt, hlns] at hopened
  simp only [next, State.netListen]
  split_ifs
  · have hnew : ∀ g', s.opened ⟨s.nextLn, req.addr, realPort⟩ ≠ some g' := fun g' hopened =>
      absurd (h.fresh _ g' hopened) (Nat.lt_irrefl _)
    have hbound : ((s.obj g).setUp k req realPort ⟨s.nextLn, req.addr, realPort⟩).Bound
        s.registry g := ⟨hcur, hkey, s.nextLn, rfl⟩
    refine h.move ⟨h.ports, h.sound, ?_, rfl, fun _ _ => id, fun _ _ _ => Iff.rfl, ?_, rfl, rfl⟩
      (ObjOk.setLns hbound hholds ?_ ?_)
      (h.calls.add hin rfl rfl rfl ⟨⟨rfl, rfl, rfl, rfl⟩, rfl⟩ ?_)
    · refine (forall_update_iff s.opened (p := fun realLn x => ∀ g', x = some g' →
        realLn.id < s.nextLn + 1)).2 ⟨fun _ _ => Nat.lt_succ_self _, ?_⟩
      intro realLn _ g' hopened
      exact Nat.lt_succ_of_lt (h.fresh realLn g' hopened)
    · intro g' hne
      refine (forall_update_iff s.opened (p := fun realLn x =>
        x = some g' ↔ s.opened realLn = some g')).2 ⟨?_, fun _ _ => Iff.rfl⟩
      exact iff_of_false (fun heq => hne (Option.some.inj heq).symm) (hnew g')
    · refine (forall_update_iff s.opened (p := fun realLn x => x = some g ↔
        some (⟨s.nextLn, req.addr, realPort⟩ : RealLn) = some realLn)).2
          ⟨iff_of_true rfl rfl, ?_⟩
      intro realLn hne
      exact iff_of_false (hnone realLn) fun heq => hne (Option.some.inj heq).symm
    · exact List.append_ne_nil_of_right_ne_nil _ (List.cons_ne_nil k [])
    · -- nobody was in the group
      rw [hlns]
      nofun
  · exact h.enter (h.apart g) rfl (.inl hin) ⟨⟨hkey, hcur⟩, hlns⟩ hholds hopens

variable {p : Int}

theorem Inv.apart_release (hg : g ∈ s.portManager.holders p) (now : Int) :
    Apart s { s with portManager := s.portManager.release p now } g where
  ports := h.ports.release p now
  sound := h.sound
  fresh := h.fresh
  keys := rfl
  current := fun _ _ => id
  holders := by
    intro g' hne q
    rw [h.ports.holders_release]
    split_ifs with hq
    · -- a port has one holder at most
      subst hq
      exact iff_of_false List.not_mem_nil fun hg' => hne (h.ports.holder_eq hg hg')
    · exact Iff.rfl
  opened := fun _ _ _ => Iff.rfl
  obj := rfl
  call := rfl

theorem Inv.not_mem_holders_release
    (honly : ∀ q, g ∈ s.portManager.holders q → q = p) (now q : Int) :
    g ∉ (s.portManager.release p now).holders q := by
  rw [h.ports.holders_release]
  split_ifs with hq
  · exact List.not_mem_nil
  · exact fun hg => hq (honly q hg)

theorem Inv.undo (hmu : (s.obj g).mu = some (k, .undoing req realPort))
    (now : Int) : Inv (next s (.undo k g req realPort now)) := by
  have hlns : (s.obj g).lns = [] := ((h.objs g).stage k _ hmu).2
  have hholds := h.holds hmu
  have hopens := h.opens hmu
  have honly : ∀ q, g ∈ s.portManager.holders q → q = realPort := by
    intro q hq
    exact (Option.some.inj ((hholds q).1 hq)).symm
  refine h.leave (h.apart_release ((hholds realPort).2 rfl) now) rfl (h.calls.inside g k _ hmu)
    nofun rfl ?_ hopens
  intro p
  refine iff_of_false (h.not_mem_holders_release honly now p) ?_
  simp [TCPGroup.portAt, hlns]

theorem Inv.release (hmu : (s.obj g).mu = some (k, .closed)) (now : Int) :
    Inv (next s (.release k g now)) := by
  have hstage := (h.objs g).stage k _ hmu
  have hlns : (s.obj g).lns = [] := hstage.2
  have hholds := h.holds hmu
  have hopens := h.opens hmu
  have honly : ∀ q, g ∈ s.portManager.holders q → q = (s.obj g).realPort := by
    intro q hq
    exact (Option.some.inj ((hholds q).1 hq)).symm
  refine h.enter (h.apart_release ((hholds _).2 rfl) now) rfl (.inl (h.calls.inside g k _ hmu))
    hstage ?_ hopens
  intro p
  refine iff_of_false (h.not_mem_holders_release honly now p) ?_
  simp [TCPGroup.portAt, hlns]

omit h in
theorem mismatch_eq_none_iff : o.mismatch req = none ↔ o.Fits req := by
  unfold TCPGroup.mismatch
  constructor
  · intro hnone
    split_ifs at hnone with hparams hport hkey
    obtain ⟨hgroup, haddr⟩ := not_or.1 hparams
    exact ⟨not_not.1 hgroup, not_not.1 haddr, not_not.1 hport, not_not.1 hkey⟩
  · intro hfits
    simp [hfits.group, hfits.addr, hfits.port, hfits.groupKey]

theorem Inv.join (hen : Enabled s (.join k g req)) : Inv (next s (.join k g req)) := by
  obtain ⟨hmu, hlns⟩ := hen
  have hin := h.calls.inside g k _ hmu
  have hholds := h.holds hmu
  have hopens := h.opens hmu
  simp only [next, State.join]
  cases hmismatch : (s.obj g).mismatch req with
  | some err => exact h.leave (h.apart g) rfl hin nofun rfl hholds hopens
  | none =>
    have hfits := mismatch_eq_none_iff.1 hmismatch
    refine h.move (h.apart g) (ObjOk.setLns ((h.objs g).members hlns) ?_ ?_ ?_)
      (h.calls.add hin rfl rfl rfl
        ⟨{ hfits with }, rfl⟩ ?_)
    · intro p
      rw [hholds p]
      simp [TCPGroup.portAt, hlns]
    · intro realLn
      rw [hopens realLn]
      simp [TCPGroup.listenerAt, hlns]
    · exact List.append_ne_nil_of_left_ne_nil hlns _
    · rintro k' j - hj rfl
      obtain ⟨hfits', hport⟩ := h.calls.same k' j hj
      exact ⟨⟨hfits'.group, hfits'.addr, hfits'.port, hfits'.groupKey⟩, hport⟩

variable {j : Joined}

theorem Inv.close (hcall : s.call k = .member j) : Inv (next s (.close k j)) := by
  refine { h with calls := h.calls.setCall (fun _ _ => id) ?_ ?_ ?_ }
  · rw [hcall]
    nofun
  · nofun
  · rw [hcall]
    rfl

theorem Inv.closeListener (hen : Enabled s (.closeListener k j)) :
    Inv (next s (.closeListener k j)) := by
  obtain ⟨hcall, hmu⟩ := hen
  have hmem : k ∈ (s.obj j.g).lns := (h.calls.members j.g k).2 ⟨j, by rw [hcall]; rfl, rfl⟩
  have hlns : (s.obj j.g).lns ≠ [] := List.ne_nil_of_mem hmem
  have hbound := (h.objs j.g).members hlns
  -- the settings of the group do not change, so the other members agree with it as before
  have hsame : ∀ mu (j' : Joined), (s.obj j.g).Fits j'.req ∧ (s.obj j.g).realPort = j'.realPort →
      TCPGroup.Fits { (s.obj j.g).remove k with mu } j'.req ∧
        (s.obj j.g).realPort = j'.realPort := by
    rintro mu j' ⟨hfits, hport⟩
    exact ⟨{ hfits with }, hport⟩
  have hholds : ∀ p, j.g ∈ s.portManager.holders p ↔ some (s.obj j.g).realPort = some p := by
    intro p
    rw [h.holds hmu p]
    simp [TCPGroup.portAt, hlns]
  have hopens : ∀ realLn, s.opened realLn = some j.g ↔ (s.obj j.g).realLn = some realLn := by
    intro realLn
    rw [h.opens hmu realLn]
    simp [TCPGroup.listenerAt, hlns]
  simp only [next, State.closeListener]
  split_ifs with hempty
  · refine h.move (h.apart j.g) ⟨fun hne => absurd hempty hne, ?_, hholds, hopens⟩
      (h.calls.remove hcall ?_ nofun rfl rfl (hsame _))
    · rintro _ _ ⟨⟩
      exact ⟨{ hbound with }, hempty⟩
    · rintro _ _ ⟨⟩
      exact ⟨rfl, rfl⟩
  · refine h.move (h.apart j.g) (ObjOk.setLns hbound hholds hopens hempty)
      (h.calls.remove hcall ?_ nofun rfl rfl (hsame _))
    nofun

theorem Inv.closeReal (hmu : (s.obj g).mu = some (k, .emptied)) :
    Inv (next s (.closeReal k g)) := by
  have hstage := (h.objs g).stage k _ hmu
  have hlns : (s.obj g).lns = [] := hstage.2
  obtain ⟨realId, hrealLn⟩ := hstage.1.listens
  have hholds := h.holds hmu
  -- the listener that is closed is the only one that the group has
  have hopens : ∀ realLn, s.opened realLn = some g ↔ (s.obj g).realLn = some realLn := h.opens hmu
  change Inv ((s.closeReal (s.obj g).realLn).enter k g (s.obj g) .closed)
  rw [hrealLn]
  rw [hrealLn] at hopens
  refine h.enter ⟨h.ports, h.sound, ?_, rfl, fun _ _ => id, fun _ _ _ => Iff.rfl, ?_, rfl, rfl⟩ rfl
    (.inl (h.calls.inside g k _ hmu)) hstage hholds ?_
  · refine (forall_update_iff s.opened (p := fun realLn x => ∀ g', x = some g' →
      realLn.id < s.nextLn)).2 ⟨nofun, fun realLn _ => h.fresh realLn⟩
  · intro g' hne
    refine (forall_update_iff s.opened (p := fun realLn x => x = some g' ↔
      s.opened realLn = some g')).2 ⟨?_, fun _ _ => Iff.rfl⟩
    refine iff_of_false nofun fun hopened => hne ?_
    rw [(hopens _).2 rfl] at hopened
    exact (Option.some.inj hopened).symm
  · refine (forall_update_iff s.opened (p := fun realLn x => x = some g ↔
      (s.obj g).listenerAt (some (k, .closed)) = some realLn)).2 ⟨?_, ?_⟩
    · simp [TCPGroup.listenerAt, hlns]
    · intro realLn hne
      rw [hopens realLn]
      simp [TCPGroup.listenerAt, hlns, hne.symm]

theorem Inv.removeIf (hmu : (s.obj g).mu = some (k, .released)) : Inv (next s (.removeIf k g)) := by
  have hlns : (s.obj g).lns = [] := ((h.objs g).stage k _ hmu).2
  have hholds := h.holds hmu
  have hopens := h.opens hmu
  refine h.move ⟨h.ports, h.sound.removeIf _ g, h.fresh, Registry.keys_removeIf _ _ _, ?_,
    fun _ _ _ => Iff.rfl, fun _ _ _ => Iff.rfl, rfl, rfl⟩
    ⟨fun hne => absurd hlns hne, by rintro _ _ ⟨⟩, hholds, hopens⟩
    (h.calls.keep (.inl (h.calls.inside g k _ hmu)) ?_ nofun rfl)
  · intro g' hne hcur
    exact hcur.removeIf hne _
  · nofun

theorem inv_next {a : Action} (hen : Enabled s a) (hok : ProbeSees s a) : Inv (next s a) := by
  cases a with
  | listen k req => exact h.listen hen
  | getOrCreate k req => exact h.getOrCreate hen
  | lock k req g => exact h.lock hen
  | isCurrent k g req => exact h.isCurrent hen
  | acquire k g req e => exact h.acquire hen hok
  | netListen k g req realPort ok => exact h.netListen hen ok
  | undo k g req realPort now => exact h.undo hen now
  | join k g req => exact h.join hen
  | close k j => exact h.close hen
  | closeListener k j => exact h.closeListener hen
  | closeReal k g => exact h.closeReal hen
  | release k g now => exact h.release hen now
  | removeIf k g => exact h.removeIf hen
  | clean now => exact { h with ports := h.ports.clean now }

end

/-! ## Joining a group that is another one -/

theorem untouched_move (pc : Pc) (mu : Option (Nat × Stage)) :
    Untouched s (s.move k pc g { s.obj g with mu }) where
  obj := (forall_update_iff s.obj (p := fun g' x =>
    x.unlock = (s.obj g').unlock)).2 ⟨rfl, fun _ _ => rfl⟩
  portManager := rfl
  opened := rfl
  registry := rfl

theorem move_call (pc : Pc) : (s.move k pc g o).call k = pc := update_self ..

theorem Inv.refused (h : Inv s) {a : Action} (hen : Enabled s a) (ha : a.listens = some (k, req))
    (hgroup : s.registry.groups req.group = some g) (hlns : (s.obj g).lns ≠ [])
    (hfits : ¬ (s.obj g).Fits req) : Untouched s (next s a) ∧ (∀ j, (next s a).call k ≠ .member j) ∧
      (a = .join k g req → ∃ err, (next s a).call k = .failed err) := by
  -- a group that the call has found to be current is the group of the name
  have hsame : ∀ g', s.registry.keys[g']? = some req.group → s.registry.Current g' → g' = g := by
    intro g' hkey hcur
    exact Option.some.inj ((hcur.groups hkey).symm.trans hgroup)
  cases a with
  | listen k' req' =>
    cases ha
    have hself : (next s (.listen k req)).call k = .start req := update_self ..
    refine ⟨⟨fun _ => rfl, rfl, rfl, rfl⟩, ?_, nofun⟩
    rw [hself]
    nofun
  | getOrCreate k' req' =>
    cases ha
    have hself : (next s (.getOrCreate k req)).call k =
      .waiting req (s.registry.getOrCreate req.group).2 := update_self ..
    refine ⟨⟨fun _ => rfl, rfl, rfl, ?_⟩, ?_, nofun⟩
    · change (s.registry.getOrCreate req.group).1 = s.registry
      unfold Registry.getOrCreate
      rw [hgroup]
    · rw [hself]
      nofun
  | lock k' req' g' =>
    cases ha
    refine ⟨untouched_move _ _, ?_, nofun⟩
    intro j
    change (s.move k (.inside g') g' { s.obj g' with mu := some (k, .entered req) }).call k ≠ _
    rw [move_call]
    nofun
  | isCurrent k' g' req' =>
    cases ha
    simp only [next, State.isCurrent, State.enter, State.leave]
    split_ifs
    · rw [move_call]
      exact ⟨untouched_move _ _, nofun, nofun⟩
    · rw [move_call]
      exact ⟨untouched_move _ _, nofun, nofun⟩
  | acquire k' g' req' e =>
    cases ha
    obtain ⟨hkey, hcur⟩ := (h.objs g').stage k _ hen.1.1
    obtain rfl := hsame g' hkey hcur
    exact absurd hen.1.2 hlns
  | netListen _ g' | undo _ g' =>
    cases ha
    obtain ⟨⟨hkey, hcur⟩, hempty⟩ := (h.objs g').stage k _ hen
    obtain rfl := hsame g' hkey hcur
    exact absurd hempty hlns
  | join k' g' req' =>
    cases ha
    obtain ⟨hkey, hcur⟩ := (h.objs g').stage k _ hen.1
    obtain rfl := hsame g' hkey hcur
    simp only [next, State.join, State.leave]
    cases hmismatch : (s.obj g').mismatch req with
    | none => exact absurd (mismatch_eq_none_iff.1 hmismatch) hfits
    | some err =>
      refine ⟨untouched_move _ _, ?_, fun _ => ⟨err, move_call _⟩⟩
      intro j
      rw [move_call]
      nofun
  | close | closeListener | closeReal | release | removeIf | clean => cases ha

end Steps

/-- If the system reports used ports as unavailable where a name asks for its kept port: with no
call in progress a group holds port and listener iff it has members, who agree, one group for a
name; and a `Listen` that asks for something else changes nothing. -/
theorem tcpGroup_settled (allowPorts : List PortsRange) (s : State)
    (hreach : Reach step ProbeSees (init allowPorts) s) : (Idle s → Settled s) ∧
      ∀ k req a t g, a.listens = some (k, req) → step s a = some t →
        s.registry.groups req.group = some g → (s.obj g).lns ≠ [] → ¬ (s.obj g).Fits req →
          Untouched s t ∧ (∀ j, t.call k ≠ .member j) ∧
            (a = .join k g req → ∃ err, t.call k = .failed err) := by
  have hinv : Inv s := by
    refine invariant_of_next (inv_init allowPorts) ?_ hreach
    intro u a hinv hok hen
    exact inv_next hinv hen hok
  refine ⟨hinv.settled, ?_⟩
  intro k req a t g ha hstep hgroup hlns hfits
  obtain ⟨hen, rfl⟩ := stepOf_eq_some_iff.1 hstep
  exact hinv.refused hen ha hgroup hlns hfits

/-! ## Runs -/

def onePort : State := init [⟨0, 0, 6000⟩]

def request (proxyName group groupKey : String) (port : Int) : Request :=
  ⟨proxyName, group, groupKey, "0.0.0.0", port⟩

def finds (k g : Nat) (req : Request) : List Action :=
  [.listen k req, .getOrCreate k req, .lock k req g, .isCurrent k g req]

def leaves (k : Nat) (j : Joined) : List Action :=
  [.close k j, .closeListener k j, .closeReal k j.g, .release k j.g 0, .removeIf k j.g]

def staleRun : List Action :=
  let a := request "a" "g" "k" 6000
  let b := request "b" "g" "k" 6000
  let c := request "c" "g" "l" 6000
  List.flatten
    [finds 0 0 a, [.acquire 0 0 a (allOpen [6000]), .netListen 0 0 a 6000 true],
      [.listen 1 b, .getOrCreate 1 b], leaves 0 ⟨a, 0, 6000⟩,
      [.lock 1 b 0, .isCurrent 1 0 b, .getOrCreate 1 b, .lock 1 b 1, .isCurrent 1 1 b],
      [.acquire 1 1 b (allOpen [6000]), .netListen 1 1 b 6000 true], finds 2 1 c]

theorem tcpGroup_settled_staleRun :
    let s := (run step ProbeSees onePort staleRun).getD onePort
    let c := request "c" "g" "l" 6000
    (∃ t err, step s (.join 2 1 c) = some t ∧ t.call 2 = .failed err ∧ Untouched s t) ∧
      let t := (run step ProbeSees onePort (staleRun ++ [.join 2 1 c])).getD onePort
      Idle t ∧ (t.obj 0).lns = [] ∧ (t.obj 1).lns = [1] ∧
        (∀ p, 0 ∉ t.portManager.holders p) ∧ 1 ∈ t.portManager.holders 6000 := by
  intro s c
  have hreach : Reach step ProbeSees onePort s := reach_getD_of_isSome (by decide +kernel)
  refine ⟨?_, ?_⟩
  · have hen : Enabled s (.join 2 1 c) := by decide +kernel
    have hstep : step s (.join 2 1 c) = some (next s (.join 2 1 c)) :=
      stepOf_eq_some_iff.2 ⟨hen, rfl⟩
    have hgroup : s.registry.groups c.group = some 1 := by decide +kernel
    have hkey : (s.obj 1).groupKey ≠ c.groupKey := by decide +kernel
    obtain ⟨hsame, -, hfailed⟩ := (tcpGroup_settled _ s hreach).2 2 c _ _ 1 rfl hstep hgroup hen.2
      fun hfits => hkey hfits.groupKey
    obtain ⟨err, herr⟩ := hfailed rfl
    exact ⟨_, err, hstep, herr, hsame⟩
  · intro t
    have hreach' : Reach step ProbeSees onePort t := reach_getD_of_isSome (by decide +kernel)
    have hidle : Idle t
      | 0 => by decide +kernel
      | 1 => by decide +kernel
      | 2 => by decide +kernel
      | _ + 3 => rfl
    have hfirst : (t.obj 0).lns = [] := by decide +kernel
    have hsecond : (t.obj 1).lns = [1] := by decide +kernel
    have hport : (6000 : Int) = (t.obj 1).realPort := by decide +kernel
    have hsettled := (tcpGroup_settled _ t hreach').1 hidle
    refine ⟨hidle, hfirst, hsecond, ?_, ?_⟩
    · intro p hheld
      exact ((hsettled.port 0 p).1 hheld).1 hfirst
    · refine (hsettled.port 1 6000).2 ⟨?_, hport⟩
      rw [hsecond]
      exact List.cons_ne_nil 1 []

/-! ## The counterexample -/

def keptRun : List Action :=
  let a := request "a" "g" "k" 0
  let b := request "b" "h" "k" 6000
  List.flatten
    [finds 0 0 a, [.acquire 0 0 a (allOpen [6000]), .netListen 0 0 a 6000 true],
      leaves 0 ⟨a, 0, 6000⟩, finds 1 1 b, [.acquire 1 1 b (allOpen [6000])],
      finds 2 2 a, [.acquire 2 2 a (allOpen [])],
      [.netListen 1 1 b 6000 true, .netListen 2 2 a 6000 false, .undo 2 2 a 6000 0]]

/-- A group with a member and an open listener does not hold its port, which is free. -/
theorem member_without_port : ∃ s, Reach step anyAction onePort s ∧ Idle s ∧ (s.obj 1).lns = [1] ∧
      (s.obj 1).realPort = 6000 ∧ s.opened ⟨1, "0.0.0.0", 6000⟩ = some 1 ∧
        1 ∉ s.portManager.holders 6000 ∧ (6000 : Int) ∈ s.portManager.manager.freePorts ∧
          ¬ Settled s := by
  have hsome : (run step anyAction onePort keptRun).isSome = true := by decide +kernel
  refine ⟨_, reach_getD_of_isSome hsome, ?_, by decide +kernel, by decide +kernel,
    by decide +kernel, by decide +kernel, by decide +kernel, ?_⟩
  · intro k
    match k with
    | 0 => decide +kernel
    | 1 => decide +kernel
    | 2 => decide +kernel
    | _ + 3 => rfl
  · intro hsettled
    have hheld := (hsettled.port 1 6000).2 ⟨by decide +kernel, by decide +kernel⟩
    revert hheld
    decide +kernel

end FrpMeo.Server.TcpGroup
