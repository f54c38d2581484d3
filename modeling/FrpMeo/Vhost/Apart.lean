import FrpMeo.Vhost.Carry

/-!
# Requests without a route

A request that matches no route is not checked, and is passed to the transport with its own host as
key. Dialling fails; but a host that equals the key of some route's connections takes one of them
from the pool.
-/

namespace FrpMeo.Vhost

open Lib Lib.Bytes Lib.Transition

/-! ## The property -/

/-- A request that is sent to a backend has matched a route. -/
def Pc.Matched : Pc → Prop
  | .carried f _ => f.rc.isSome = true
  | _ => True

def Pc.keyed? : Pc → Option Flight
  | .ready f => some f
  | .dialing f _ | .carried f _ => if f.req.connect then none else some f
  | .checked _ | .done => none

/-- No request without a route is sent to a backend, and others have equal keys only if their routes
and endpoints agree. -/
def Isolated (go : Go) (ok : State → Action → Prop) : Prop :=
  (∀ s, Reach (step go) ok .init s → ∀ pc ∈ s.reqs, pc.Matched) ∧
    ∀ s s', Reach (step go) ok .init s → Reach (step go) ok .init s' →
      ∀ pc ∈ s.reqs, ∀ pc' ∈ s'.reqs, ∀ f f' rc rc', pc.keyed? = some f → pc'.keyed? = some f' →
        f.rc = some rc → f'.rc = some rc' → f.key = f'.key →
          rc.spec.SameKey rc'.spec ∧ f.endpoint = f'.endpoint

/-! ## The guards -/

/-- The routes are registered before the first request, and do not change from then on. -/
def RoutesFixed (s : State) : Action → Prop
  | .change _ => s.reqs = []
  | _ => True

instance (s : State) (a : Action) : Decidable (RoutesFixed s a) := by
  induction a using Action.casesOn <;> dsimp only [RoutesFixed] <;> infer_instance

/-- The host is no pool key of any of these routes, for any endpoint. -/
def AwayFrom (live : RouteSpec → Prop) (host : Bytes) : Prop :=
  ∀ spec, live spec → ∀ endpoint, poolKey spec endpoint ≠ host

def Routers.Has (rs : Routers RouteConfig) (spec : RouteSpec) : Prop :=
  ∃ r ∈ rs.routes, r.payload.spec = spec

/-- A request that matches no route has a host that is no pool key of a registered route. -/
def HostsApart (go : Go) (s : State) : Action → Prop
  | .serve req _ => getRouteConfig go s.routers req = none → AwayFrom s.routers.Has req.host
  | _ => True

/-! ## The invariant -/

def Conn.Live (live : RouteSpec → Prop) (conn : Conn) : Prop := live conn.rc.spec

/-- A request without a route has a host away from the keys of live routes, and is not carried. -/
def Pc.Apart (live : RouteSpec → Prop) : Pc → Prop
  | .checked f | .ready f => f.rc = none → AwayFrom live f.req.host
  | .dialing f _ => f.rc.isSome = true
  | .carried f conn => f.rc.isSome = true ∧ (f.req.connect = false → conn.Live live)
  | .done => True

variable {go : Go} {rs : Routers RouteConfig} {live : RouteSpec → Prop} {s : State} {a : Action}

theorem Pc.Apart.serve {req : Request} (allow : Bool)
    (h : getRouteConfig go rs req = none → AwayFrom live req.host) :
    (serve go rs req allow).Apart live := by
  rcases serve_cases go rs req allow with hdone | ⟨hchecked, -⟩
  · rw [hdone]
    trivial
  · rw [hchecked]
    exact h

theorem Flight.isSome_of_take {f : Flight} {conn : Conn} (hkeyed : f.Keyed)
    (haway : f.rc = none → AwayFrom live f.req.host) (hown : conn.Owned rs) (hlive : conn.Live live)
    (hkey : conn.key = f.key) : f.rc.isSome = true := by
  cases hrc : f.rc with
  | some rc => rfl
  | none =>
    obtain ⟨⟨endpoint, hconn⟩, -⟩ := hown
    have hhost : f.key = f.req.host := by
      rw [hkeyed]
      simp [Flight.rewrite, hrc]
    exact absurd (hconn.symm.trans (hkey.trans hhost)) (haway hrc _ hlive endpoint)

theorem SteadyInv.apart_moves (h : SteadyInv go s) (hlive : ∀ spec, s.routers.Has spec → live spec)
    (heach : Each (Pc.Apart live) (Conn.Live live) s) {pc pc' : Pc} {idle : List Conn}
    (hpc : pc ∈ s.reqs) (hm : Moves go s pc pc' idle) :
    pc'.Apart live ∧ ∀ conn ∈ idle, conn.Live live := by
  have hsteady := h.each.reqs pc hpc
  have hap := heach.reqs pc hpc
  have hidle := heach.idle
  -- a connection that is dialled now comes from a registered route
  have hnew : ∀ (f : Flight) (rc : RouteConfig) (fn : ConnFn), f.Current go s.routers →
      f.rc = some rc → (Conn.mk f.key rc fn).Live live := by
    intro f rc fn hcur hrc
    obtain ⟨r, hr, hpay⟩ := exists_route_of_getRouteConfig (hcur.trans hrc)
    exact hlive rc.spec ⟨r, hr, by rw [hpay]⟩
  cases hm with
  | rewrite f endpoint hconnect => exact ⟨hap, hidle⟩
  | take f conn n hn hkey =>
    have hconn := List.mem_of_getElem? hn
    have hsome := Flight.isSome_of_take hsteady.2.1 hap (h.each.idle conn hconn) (hidle conn hconn)
      hkey
    exact ⟨⟨hsome, fun _ => hidle conn hconn⟩, heach.idle_eraseIdx n⟩
  | lookup f rc hrc =>
    -- a request without a route finds none when it dials, and ends there
    refine ⟨?_, hidle⟩
    change f.rc.isSome = true
    rw [← hsteady.1, hrc]
    rfl
  | lookupConnect f rc hconnect hrc =>
    refine ⟨?_, hidle⟩
    change f.rc.isSome = true
    rw [← show getRouteConfig go s.routers f.req = f.rc from hsteady, hrc]
    rfl
  | dial f rc fn hconnect hfn =>
    obtain ⟨hcur, hrc, -⟩ := hsteady
    refine ⟨fun hnone => ?_, heach.idle_append (hnew f rc fn hcur hrc)⟩
    rw [hrc] at hnone
    cases hnone
  | dialConnect f rc fn hconnect hfn =>
    refine ⟨⟨hap, fun hno => ?_⟩, hidle⟩
    rw [hconnect] at hno
    cases hno
  | retry f conn hconnect =>
    refine ⟨fun hnone => ?_, hidle⟩
    have hsome := hap.1
    rw [hnone] at hsome
    cases hsome
  | keep f conn hconnect => exact ⟨trivial, heach.idle_append (hap.2 hconnect)⟩
  | stop => exact ⟨trivial, hidle⟩

/-! ## Runs over fixed routes -/

/-- Before the first request there is no connection. -/
def NoneBefore (s : State) : Prop := s.reqs = [] → s.idle = []

theorem noneBefore_step {t : State} (h : NoneBefore s) (hst : step go s a = some t) :
    NoneBefore t := by
  rcases step_cases hst with ⟨c, rfl, rfl⟩ | ⟨req, allow, rfl, rfl⟩ |
    ⟨i, m, pc, r, rfl, hpc, -, rfl⟩ | ⟨n, rfl, rfl⟩
  · intro hnil
    rw [applyChange_reqs] at hnil
    rw [applyChange_idle]
    exact h hnil
  · intro hnil
    exact absurd hnil (by simp)
  · intro hnil
    rw [List.set_eq_nil_iff] at hnil
    rw [hnil] at hpc
    cases hpc
  · intro hnil
    rw [h hnil]
    rfl

structure ApartInv (go : Go) (s : State) : Prop where
  steady : SteadyInv go s
  before : NoneBefore s
  each : Each (Pc.Apart s.routers.Has) (Conn.Live s.routers.Has) s

theorem steady_of_routesFixed (hbefore : NoneBefore s) (hfix : RoutesFixed s a) :
    Steady go s a := by
  cases a with
  | serve | move | drop => trivial
  | change c =>
    have hreqs : s.reqs = [] := hfix
    have hidle := hbefore hreqs
    constructor
    · intro pc hpc
      rw [hreqs] at hpc
      cases hpc
    · intro r _
      right
      intro conn hconn
      simp [State.pooled, hreqs, hidle] at hconn

theorem apartInv_step {t : State} (h : ApartInv go s) (hfix : RoutesFixed s a)
    (hhost : HostsApart go s a) (hst : step go s a = some t) : ApartInv go t := by
  refine ⟨steadyInv_step h.steady (steady_of_routesFixed h.before hfix) hst,
    noneBefore_step h.before hst, ?_⟩
  by_cases ha : ∃ c, a = .change c
  · obtain ⟨c, rfl⟩ := ha
    cases hst
    have hreqs : s.reqs = [] := hfix
    have hidle := h.before hreqs
    constructor
    · simp [hreqs]
    · simp [hidle]
  · have hne : ∀ c, a ≠ .change c := fun c hc => ha ⟨c, hc⟩
    rw [routers_of_step hne hst]
    refine h.each.step hne hst ?_ fun pc hpc pc' idle hm =>
      h.steady.apart_moves (fun _ hspec => hspec) h.each hpc hm
    intro req allow hreq
    subst hreq
    exact Pc.Apart.serve allow hhost

theorem apartInv_of_reach
    (h : Reach (step go) (fun s a => RoutesFixed s a ∧ HostsApart go s a) .init s) :
    ApartInv go s := by
  refine invariant_of_reach ?_ ?_ h
  · exact ⟨steadyInv_init go, fun _ => rfl, each_init _ _⟩
  · intro u a v hu hok hst
    exact apartInv_step hu hok.1 hok.2 hst

theorem Pc.Steady.keyed {pc : Pc} {f : Flight} (h : pc.Steady go rs) (hf : pc.keyed? = some f) :
    f.Keyed := by
  cases pc with
  | checked | done => cases hf
  | ready f' =>
    cases hf
    exact h.2.1
  | dialing f' rc =>
    cases hconnect : f'.req.connect with
    | true => simp [Pc.keyed?, hconnect] at hf
    | false =>
      simp only [Pc.keyed?, hconnect] at hf
      cases hf
      exact h.2.2 hconnect
  | carried f' conn =>
    cases hconnect : f'.req.connect with
    | true => simp [Pc.keyed?, hconnect] at hf
    | false =>
      simp only [Pc.keyed?, hconnect] at hf
      cases hf
      exact (h.2.1 hconnect).1

/-- With fixed routes, and no host of an unrouted request a pool key, no such request reaches a
backend; other keys are equal only for equal domain, location, user and endpoint. -/
theorem isolated (go : Go) : Isolated go fun s a => RoutesFixed s a ∧ HostsApart go s a := by
  refine ⟨fun s hs pc hpc => ?_, ?_⟩
  · have hap := (apartInv_of_reach hs).each.reqs pc hpc
    cases pc with
    | checked | ready | dialing | done => trivial
    | carried f conn => exact hap.1
  · -- the keys are what `Rewrite` set, and those of two routes tell them apart
    intro s s' hs hs' pc hpc pc' hpc' f f' rc rc' hf hf' hrc hrc' hkey
    have hk := ((apartInv_of_reach hs).steady.each.reqs pc hpc).keyed hf
    have hk' := ((apartInv_of_reach hs').steady.each.reqs pc' hpc').keyed hf'
    rw [hk, hk'] at hkey
    simp only [Flight.rewrite, hrc, hrc'] at hkey
    exact poolKey_inj hkey

/-! ## A run with strangers -/

/-- What every pool key of a route starts with. -/
def poolStem (spec : RouteSpec) : Bytes :=
  spec.domain ++ dot :: encode spec.location ++ dot :: encode spec.routeByHTTPUser ++ [dot]

theorem poolStem_isPrefix (spec : RouteSpec) (endpoint : Bytes) :
    poolStem spec <+: poolKey spec endpoint :=
  ⟨encode endpoint, by simp [poolStem, poolKey]⟩

/-- Hosts of requests without a route do not even start like a pool key; this can be evaluated. -/
def StemsApart (go : Go) (s : State) : Action → Prop
  | .serve req _ => getRouteConfig go s.routers req = none →
      ∀ r ∈ s.routers.routes, ¬ poolStem r.payload.spec <+: req.host
  | _ => True

instance (go : Go) (s : State) (a : Action) : Decidable (StemsApart go s a) := by
  induction a using Action.casesOn <;> dsimp only [StemsApart] <;> infer_instance

theorem hostsApart_of_stemsApart (h : StemsApart go s a) : HostsApart go s a := by
  cases a with
  | change | move | drop => trivial
  | serve req allow =>
    rintro hnone spec ⟨r, hr, rfl⟩ endpoint hkey
    apply h hnone r hr
    rw [← hkey]
    exact poolStem_isPrefix r.payload.spec endpoint

def strangerRun : List Action :=
  [.change (.register (domainRoute "example.com" 1)), .serve (plainRequest "example.com") true] ++
    dialAndKeep 0 ++
    [.serve (plainRequest "example.org") true, .move 1 .rewrite, .move 1 .dialLookup,
      .serve (plainRequest "example.com") true, .move 2 .rewrite, .move 2 (.takeIdle 0)]

def strangerState : State :=
  (run (step asciiGo) (fun s a => RoutesFixed s a ∧ StemsApart asciiGo s a) .init
    strangerRun).getD .init

theorem isolated_strangerRun :
    Reach (step asciiGo) (fun s a => RoutesFixed s a ∧ HostsApart asciiGo s a) .init strangerState ∧
      (∃ pc ∈ strangerState.reqs, pc.CarriedTo 1) ∧ ∀ pc ∈ strangerState.reqs, pc.Matched := by
  have hreach : Reach (step asciiGo) (fun s a => RoutesFixed s a ∧ HostsApart asciiGo s a) .init
      strangerState :=
    reach_mono (fun _ _ h => ⟨h.1, hostsApart_of_stemsApart h.2⟩)
      (reach_getD_of_isSome (by decide +kernel))
  exact ⟨hreach, by decide +kernel, (isolated asciiGo).1 strangerState hreach⟩

/-! ## A host that is a pool key -/

def lockedRoute (domain : String) (pxy : Nat) : RouteSpec :=
  { domainRoute domain pxy with username := ascii "u", password := ascii "p" }

def lockedRequest (host : String) : Request :=
  { plainRequest host with authorization := ascii "Basic dTpw" }

def poolKeyRun : List Action :=
  [.change (.register (lockedRoute "example.com" 1)), .serve (lockedRequest "example.com") true] ++
    dialAndKeep 0 ++
    [.serve (plainRequest "example.com...") false, .move 1 .rewrite, .move 1 (.takeIdle 0)]

def poolKeyState : State := (run (step asciiGo) RoutesFixed .init poolKeyRun).getD .init

/-- The request is sent to a proxy although it matched no route. -/
def Pc.UncheckedTo (pxy : Nat) : Pc → Prop
  | .carried f conn => f.rc = none ∧ conn.fn.pxy = pxy
  | _ => False

instance (pxy : Nat) (pc : Pc) : Decidable (pc.UncheckedTo pxy) := by
  induction pc using Pc.casesOn <;> dsimp only [Pc.UncheckedTo] <;> infer_instance

theorem Pc.not_matched_of_uncheckedTo {pxy : Nat} {pc : Pc} (h : pc.UncheckedTo pxy) :
    ¬ pc.Matched := by
  cases pc with
  | carried f conn =>
    intro hsome
    rw [Pc.Matched, h.1] at hsome
    cases hsome
  | checked | ready | dialing | done => cases h

theorem poolKeyState_unchecked : ∃ pc ∈ poolKeyState.reqs, pc.UncheckedTo 1 := by decide +kernel

/-- A request that matches no route is sent to proxy 1 over an idle connection. -/
theorem host_of_pool_key :
    ¬ Isolated asciiGo RoutesFixed ∧ ∃ pc ∈ poolKeyState.reqs, pc.UncheckedTo 1 := by
  refine ⟨fun h => ?_, poolKeyState_unchecked⟩
  obtain ⟨pc, hpc, hun⟩ := poolKeyState_unchecked
  have hreach : Reach (step asciiGo) RoutesFixed .init poolKeyState :=
    reach_getD_of_isSome (by decide +kernel)
  exact Pc.not_matched_of_uncheckedTo hun (h.1 poolKeyState hreach pc hpc)

end FrpMeo.Vhost
