import FrpMeo.Vhost.Serve

/-!
# Which connection carries a request

A request is checked against one route config and carried by a connection that some route config's
function created. `CreateConnection` looks the route up again, and the pool keeps connections beyond
the life of their route, under a key that a later route may share.
-/

namespace FrpMeo.Vhost

open Lib Lib.Bytes Lib.Transition

/-! ## The property -/

/-- No other config than the checked one dials or made the connection that carries it. -/
def Pc.ByChecked : Pc → Prop
  | .dialing f rc' => ∀ rc, f.rc = some rc → rc' = rc
  | .carried f conn => ∀ rc, f.rc = some rc → conn.rc = rc
  | _ => True

/-- Every request that matched a route is dialled and carried through the config it was checked
against. -/
def CarriedByChecked (go : Go) (ok : State → Action → Prop) : Prop :=
  ∀ s, Reach (step go) ok .init s → ∀ pc ∈ s.reqs, pc.ByChecked

/-! ## The guard -/

def Pc.pooled? : Pc → Option Conn
  | .carried f conn => if f.req.connect then none else some conn
  | _ => none

def State.pooled (s : State) : List Conn := s.idle ++ s.reqs.filterMap Pc.pooled?

/-- The change keeps the route of every request in flight. -/
def Change.KeepsFlights (go : Go) (s : State) (c : Change) : Prop :=
  ∀ pc ∈ s.reqs, ∀ f ∈ pc.flight?.toList,
    getRouteConfig go (applyChange go s c).routers f.req = getRouteConfig go s.routers f.req

/-- No added route has the place of a route that an open connection was made through. -/
def Change.KeepsKeys (go : Go) (s : State) (c : Change) : Prop :=
  ∀ r ∈ (applyChange go s c).routers.routes,
    r ∈ s.routers.routes ∨ ∀ conn ∈ s.pooled, ¬ r.payload.spec.SameKey conn.rc.spec

instance (go : Go) (s : State) (c : Change) : Decidable (c.KeepsFlights go s) :=
  inferInstanceAs (Decidable (∀ pc ∈ s.reqs, ∀ f ∈ pc.flight?.toList, _))

instance (go : Go) (s : State) (c : Change) : Decidable (c.KeepsKeys go s) :=
  inferInstanceAs (Decidable (∀ r ∈ (applyChange go s c).routers.routes, _))

/-- Every change keeps the routes of the requests in flight and the keys of open connections. -/
def Steady (go : Go) (s : State) : Action → Prop
  | .change c => c.KeepsFlights go s ∧ c.KeepsKeys go s
  | _ => True

instance (go : Go) (s : State) (a : Action) : Decidable (Steady go s a) := by
  cases a <;> dsimp only [Steady] <;> infer_instance

/-! ## The table -/

/-- Every route is filed under the place its config names. -/
def Filed (go : Go) (rs : Routers RouteConfig) : Prop :=
  ∀ r ∈ rs.routes, r.place = r.payload.spec.place go

variable {go : Go} {rs : Routers RouteConfig} {s : State} {rs' : Routers RouteConfig}

theorem Filed.add (h : Filed go rs) {spec : RouteSpec} {id : Nat} {k : CreateConn}
    (hadd : rs.add go spec.domain spec.location spec.routeByHTTPUser ⟨id, spec, k⟩ = some rs') :
    Filed go rs' := by
  intro r hr
  rcases (Routers.mem_add hadd r).1 hr with rfl | hold
  · rfl
  · exact h r hold

theorem Filed.del (h : Filed go rs) (domain location httpUser : Bytes) :
    Filed go (rs.del go domain location httpUser) :=
  fun r hr => h r (Routers.mem_del.1 hr).1

variable {c : Change} {t : State}

theorem Filed.changed (h : Filed go s.routers) (hc : Changed go s c t) : Filed go t.routers := by
  cases hc with
  | same | create | leave => exact h
  | register spec rs hadd => exact h.add hadd
  | unregister | leaveLast => exact h.del _ _ _
  | join group proxyName groupKey spec g gr gr' rs hg hgr hreg =>
    cases Group.joined_of_register hreg with
    | first _ _ _ hadd => exact h.add hadd
    | later _ _ _ hrs =>
      rw [hrs]
      exact h

/-! ## The invariant -/

def Flight.Keyed (f : Flight) : Prop := f.key = (f.rewrite f.endpoint).key

def Conn.Owned (rs : Routers RouteConfig) (conn : Conn) : Prop :=
  (∃ endpoint, conn.key = poolKey conn.rc.spec endpoint) ∧
    ∀ r ∈ rs.routes, r.payload.spec.SameKey conn.rc.spec → r.payload = conn.rc

/-- The table still gives the request the route it was checked against. -/
def Flight.Current (go : Go) (rs : Routers RouteConfig) (f : Flight) : Prop :=
  getRouteConfig go rs f.req = f.rc

def Pc.Steady (go : Go) (rs : Routers RouteConfig) : Pc → Prop
  | .checked f => f.Current go rs
  | .ready f => f.Current go rs ∧ f.Keyed ∧ f.req.connect = false
  | .dialing f rc => f.Current go rs ∧ f.rc = some rc ∧ (f.req.connect = false → f.Keyed)
  | .carried f conn =>
      f.Current go rs ∧ (f.req.connect = false → f.Keyed ∧ conn.Owned rs) ∧
        ∀ rc, f.rc = some rc → conn.rc = rc
  | .done => True

structure SteadyInv (go : Go) (s : State) : Prop where
  filed : Filed go s.routers
  each : Each (Pc.Steady go s.routers) (Conn.Owned s.routers) s

variable {conn : Conn} {f : Flight} {rc : RouteConfig}

theorem Flight.owner_eq (hcur : f.Current go rs)
    (hkeyed : f.Keyed) (hrc : f.rc = some rc) (hown : conn.Owned rs) (hkey : conn.key = f.key) :
    conn.rc = rc := by
  obtain ⟨⟨endpoint, hconn⟩, huniq⟩ := hown
  have hf : f.key = poolKey rc.spec f.endpoint := by
    rw [hkeyed]
    simp [Flight.rewrite, hrc]
  have hsame := (poolKey_inj (hf.symm.trans (hkey.symm.trans hconn))).1
  obtain ⟨r, hr, hpay⟩ := exists_route_of_getRouteConfig (hcur.trans hrc)
  rw [← hpay]
  exact (huniq r hr (by rw [hpay]; exact hsame)).symm

theorem Flight.owned_dial (hfiled : Filed go rs)
    (hcur : f.Current go rs) (hkeyed : f.Keyed) (hrc : f.rc = some rc) (fn : ConnFn) :
    (Conn.mk f.key rc fn).Owned rs := by
  refine ⟨⟨f.endpoint, ?_⟩, ?_⟩
  · rw [hkeyed]
    simp [Flight.rewrite, hrc]
  · intro r hr hsame
    obtain ⟨r', hr', hpay⟩ := exists_route_of_getRouteConfig (hcur.trans hrc)
    -- the two routes have the same place, which only one of them can have
    have hplace : r.place = r'.place := by
      rw [hfiled r hr, hfiled r' hr', hpay]
      exact hsame.place_eq go
    rw [Routers.eq_of_place_eq hr hr' hplace, hpay]

/-! ## Steps -/

theorem Pc.Steady.serve (req : Request) (allow : Bool) : (serve go rs req allow).Steady go rs := by
  rcases serve_cases go rs req allow with hdone | ⟨hchecked, -⟩
  · rw [hdone]
    trivial
  · rw [hchecked]
    exact rfl

theorem SteadyInv.moves (h : SteadyInv go s) {pc pc' : Pc} {idle : List Conn}
    (hm : Moves go s pc pc' idle) (hpc : pc.Steady go s.routers) :
    pc'.Steady go s.routers ∧ ∀ conn ∈ idle, conn.Owned s.routers := by
  have hidle := h.each.idle
  cases hm with
  | rewrite f endpoint hconnect => exact ⟨⟨hpc, rfl, hconnect⟩, hidle⟩
  | take f conn n hn hkey =>
    -- an owned connection with the request's key was made through the request's route
    obtain ⟨hcur, hkeyed, hconnect⟩ := hpc
    have hown := hidle conn (List.mem_of_getElem? hn)
    refine ⟨⟨hcur, fun _ => ⟨hkeyed, hown⟩, ?_⟩, h.each.idle_eraseIdx n⟩
    intro rc hrc
    exact Flight.owner_eq hcur hkeyed hrc hown hkey
  | lookup f rc hrc =>
    -- the second lookup finds what the first one found
    obtain ⟨hcur, hkeyed, -⟩ := hpc
    exact ⟨⟨hcur, hcur.symm.trans hrc, fun _ => hkeyed⟩, hidle⟩
  | lookupConnect f rc hconnect hrc =>
    refine ⟨⟨hpc, hpc.symm.trans hrc, fun hno => ?_⟩, hidle⟩
    rw [hconnect] at hno
    cases hno
  | dial f rc fn hconnect hfn =>
    obtain ⟨hcur, hrc, hkeyed⟩ := hpc
    refine ⟨⟨hcur, hkeyed hconnect, hconnect⟩, h.each.idle_append ?_⟩
    exact Flight.owned_dial h.filed hcur (hkeyed hconnect) hrc fn
  | dialConnect f rc fn hconnect hfn =>
    obtain ⟨hcur, hrc, -⟩ := hpc
    refine ⟨⟨hcur, fun hno => ?_, ?_⟩, hidle⟩
    · rw [hconnect] at hno
      cases hno
    · intro rc' hrc'
      exact Option.some.inj (hrc.symm.trans hrc')
  | retry f conn hconnect =>
    obtain ⟨hcur, hpool, -⟩ := hpc
    exact ⟨⟨hcur, (hpool hconnect).1, hconnect⟩, hidle⟩
  | keep f conn hconnect => exact ⟨trivial, h.each.idle_append (hpc.2.1 hconnect).2⟩
  | stop => exact ⟨trivial, hidle⟩

theorem Conn.Owned.mono (h : conn.Owned rs)
    (hrs : ∀ r ∈ rs'.routes, r ∈ rs.routes ∨ ¬ r.payload.spec.SameKey conn.rc.spec) :
    conn.Owned rs' := by
  refine ⟨h.1, fun r hr hsame => ?_⟩
  rcases hrs r hr with hold | hnew
  · exact h.2 r hold hsame
  · exact absurd hsame hnew

theorem SteadyInv.change (h : SteadyInv go s) (hflights : c.KeepsFlights go s)
    (hkeys : c.KeepsKeys go s) : SteadyInv go (applyChange go s c) := by
  have hcur : ∀ pc ∈ s.reqs, ∀ f, pc.flight? = some f → f.Current go s.routers →
      f.Current go (applyChange go s c).routers := by
    intro pc hpc f hf hold
    exact (hflights pc hpc f (by simp [hf])).trans hold
  have hown : ∀ conn ∈ s.pooled, conn.Owned s.routers →
      conn.Owned (applyChange go s c).routers := by
    intro conn hconn hold
    refine hold.mono fun r hr => ?_
    rcases hkeys r hr with hr | hnone
    · exact .inl hr
    · exact .inr (hnone conn hconn)
  refine ⟨h.filed.changed (changed_applyChange go s c), ⟨?_, ?_⟩⟩
  · rw [applyChange_reqs]
    intro pc hpc
    have hold := h.each.reqs pc hpc
    cases pc with
    | checked f => exact hcur _ hpc f rfl hold
    | ready f | dialing f => exact ⟨hcur _ hpc f rfl hold.1, hold.2⟩
    | carried f conn =>
      -- a connection in use counts as open: it can go back to the pool
      refine ⟨hcur _ hpc f rfl hold.1, fun hconnect => ?_, hold.2.2⟩
      obtain ⟨hkeyed, hconn⟩ := hold.2.1 hconnect
      refine ⟨hkeyed, hown conn ?_ hconn⟩
      exact List.mem_append_right _ (List.mem_filterMap.2 ⟨_, hpc, by simp [Pc.pooled?, hconnect]⟩)
    | done => trivial
  · rw [applyChange_idle]
    intro conn hconn
    exact hown conn (List.mem_append_left _ hconn) (h.each.idle conn hconn)

theorem steadyInv_step {a : Action} (h : SteadyInv go s) (hok : Steady go s a)
    (hst : step go s a = some t) : SteadyInv go t := by
  by_cases ha : ∃ c, a = .change c
  · obtain ⟨c, rfl⟩ := ha
    cases hst
    exact h.change hok.1 hok.2
  · have hne : ∀ c, a ≠ .change c := fun c hc => ha ⟨c, hc⟩
    have hrs : t.routers = s.routers := routers_of_step hne hst
    refine ⟨by rw [hrs]; exact h.filed, ?_⟩
    rw [hrs]
    exact h.each.step hne hst (fun req allow _ => Pc.Steady.serve req allow)
      fun pc hpc pc' idle hm => h.moves hm (h.each.reqs pc hpc)

theorem steadyInv_init (go : Go) : SteadyInv go .init := ⟨nofun, each_init _ _⟩

theorem steadyInv_of_reach (h : Reach (step go) (Steady go) .init s) : SteadyInv go s :=
  invariant_of_reach (steadyInv_init go)
    (fun _ _ _ hinv hok hst => steadyInv_step hinv hok hst) h

/-- If changes keep the routes of requests in flight and the keys of open connections, a request is
dialled and carried through the config it was checked against. -/
theorem carried_by_checked (go : Go) : CarriedByChecked go (Steady go) := by
  intro s hs pc hpc
  have hsteady := (steadyInv_of_reach hs).each.reqs pc hpc
  cases pc with
  | checked | ready | done => trivial
  | dialing f rc' =>
    intro rc hrc
    exact Option.some.inj (hsteady.2.1.symm.trans hrc)
  | carried f conn => exact hsteady.2.2

/-! ## Two owners of one domain -/

def domainRoute (domain : String) (pxy : Nat) : RouteSpec := ⟨ascii domain, [], [], [], [], pxy⟩

def plainRequest (host : String) : Request := ⟨false, ascii host, ascii "/", [], [], []⟩

def dialAndKeep (i : Nat) : List Action :=
  [.move i .rewrite, .move i .dialLookup, .move i (.dialCall true), .move i (.takeIdle 0),
    .move i (.finish true)]

def orderlyRun : List Action :=
  [.change (.register (domainRoute "example.com" 1)), .serve (plainRequest "example.com") true] ++
    dialAndKeep 0 ++
    [.drop 0, .change (.unregister (domainRoute "example.com" 1)),
      .change (.register (domainRoute "example.com" 2)),
      .serve (plainRequest "example.com") true, .move 1 .rewrite, .move 1 .dialLookup,
      .move 1 (.dialCall true), .move 1 (.takeIdle 0)]

def orderlyState : State := (run (step asciiGo) (Steady asciiGo) .init orderlyRun).getD .init

def Pc.CarriedTo (pxy : Nat) : Pc → Prop
  | .carried _ conn => conn.fn.pxy = pxy
  | _ => False

instance (pxy : Nat) (pc : Pc) : Decidable (pc.CarriedTo pxy) := by
  cases pc <;> dsimp only [Pc.CarriedTo] <;> infer_instance

theorem carried_by_checked_orderlyRun : Reach (step asciiGo) (Steady asciiGo) .init orderlyState ∧
      (∃ pc ∈ orderlyState.reqs, pc.CarriedTo 2) ∧ ∀ pc ∈ orderlyState.reqs, pc.ByChecked := by
  have hreach : Reach (step asciiGo) (Steady asciiGo) .init orderlyState :=
    reach_getD_of_isSome (by decide +kernel)
  exact ⟨hreach, by decide +kernel, carried_by_checked asciiGo orderlyState hreach⟩

def successionRun : List Action :=
  [.change (.register (domainRoute "example.com" 1)), .serve (plainRequest "example.com") true] ++
    dialAndKeep 0 ++
    [.change (.unregister (domainRoute "example.com" 1)),
      .change (.register (domainRoute "example.com" 2)),
      .serve (plainRequest "example.com") true, .move 1 .rewrite, .move 1 (.takeIdle 0)]

/-- The request is sent over a connection that another config made, to another proxy. -/
def Pc.Crosses (checked sent : Nat) : Pc → Prop
  | .carried f conn =>
      f.rc.map (fun rc => rc.spec.pxy) = some checked ∧ conn.fn.pxy = sent ∧ f.rc ≠ some conn.rc
  | _ => False

instance (checked sent : Nat) (pc : Pc) : Decidable (pc.Crosses checked sent) := by
  cases pc <;> dsimp only [Pc.Crosses] <;> infer_instance

theorem Pc.not_byChecked_of_crosses {checked sent : Nat} {pc : Pc} (h : pc.Crosses checked sent) :
    ¬ pc.ByChecked := by
  cases pc with
  | carried f conn =>
    obtain ⟨hrc, -, hne⟩ := h
    obtain ⟨rc, hrc, -⟩ := Option.map_eq_some_iff.1 hrc
    intro hby
    apply hne
    rw [hrc, hby rc hrc]
  | checked | ready | dialing | done => cases h

def successionState : State := (run (step asciiGo) anyAction .init successionRun).getD .init

theorem successionState_crosses : ∃ pc ∈ successionState.reqs, pc.Crosses 2 1 := by
  decide +kernel

/-- The second request was checked for proxy 2 and is sent to proxy 1, over the connection left in
the pool. -/
theorem pool_outlives_route :
    ¬ CarriedByChecked asciiGo anyAction ∧ ∃ pc ∈ successionState.reqs, pc.Crosses 2 1 := by
  refine ⟨fun h => ?_, successionState_crosses⟩
  obtain ⟨pc, hpc, hcross⟩ := successionState_crosses
  have hreach : Reach (step asciiGo) anyAction .init successionState :=
    reach_getD_of_isSome (by decide +kernel)
  exact Pc.not_byChecked_of_crosses hcross (h successionState hreach pc hpc)

end FrpMeo.Vhost
