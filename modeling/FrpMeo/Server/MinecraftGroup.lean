import FrpMeo.Server.Resources

/-!
# Shared Minecraft ports

`MinecraftGroupController` (`server/group/minecraft.go`) opens one muxer for each public port and
counts its listeners. The first `Listen` acquires the port and opens the muxer; the `Close` that
takes the count to zero closes it and gives the port back. A `Close` first removes the route,
without the lock.
-/

namespace FrpMeo.Server.MinecraftGroup

open Lib.Transition Function
open Server.Ports
open Server.Register (minecraftPortName errText errRouterConfigConflict muxerListen
  muxerClose bound)
open Vhost (Go Routers Listener)

/-! ## The controller -/

/-- A `MinecraftMuxer`: the port of its listener, its routes, and whether the listener is open. -/
structure Muxer where
  port : Int
  routers : Routers Listener
  listening : Bool

/-- `minecraftPortMux`; muxers are numbered in the order of their creation. -/
structure PortMux where
  muxer : Nat
  refs : Int
  deriving DecidableEq

inductive Pc where
  | opened
  | unrouted
  | closed
  deriving DecidableEq

/-- `minecraftGroupListener`; `muxer` and `route` are those of the listener that it wraps. -/
structure GroupListener where
  port : Int
  muxer : Nat
  route : Listener
  pc : Pc
  deriving DecidableEq

structure State where
  ports : Manager
  muxers : Int → Option PortMux
  mux : Nat → Muxer
  nextMux : Nat
  listeners : List GroupListener

def init (allowPorts : List PortsRange) : State where
  ports := newManager allowPorts
  muxers := fun _ => none
  mux := fun _ => ⟨0, .empty, false⟩
  nextMux := 0
  listeners := []

structure Outcome where
  /-- For `Acquire`. -/
  moment : Moment
  listen : Int → Except String Unit
  newMuxer : Except String Unit
  /-- A failure of the domain's registration, besides a conflict. -/
  register : Except String Unit
  now : Int

namespace State

def drop (s : State) (port : Int) (entry : PortMux) (now : Int) : State :=
  { s with
    mux := update s.mux entry.muxer { s.mux entry.muxer with listening := false }
    ports := s.ports.release port now
    muxers := update s.muxers port none }

def create (s : State) (port realPort : Int) (m : Manager) : State :=
  { s with
    ports := m
    muxers := update s.muxers port (some ⟨s.nextMux, 0⟩)
    mux := update s.mux s.nextMux ⟨realPort, .empty, true⟩
    nextMux := s.nextMux + 1 }

def portMux (s : State) (port : Int) (out : Outcome) : State × Except String PortMux :=
  match s.muxers port with
  | some entry => (s, .ok entry)
  | none =>
      match s.ports.acquire (minecraftPortName port) port out.moment with
      | (m, .error err) =>
          ({ s with ports := m },
            .error ("acquire minecraft port [" ++ toString port ++ "] error: " ++ errText err))
      | (m, .ok realPort) =>
          match out.listen realPort with
          | .error err => ({ s with ports := m.release realPort out.now }, .error err)
          | .ok () =>
              match out.newMuxer with
              | .error err => ({ s with ports := m.release realPort out.now }, .error err)
              | .ok () => (s.create port realPort m, .ok ⟨s.nextMux, 0⟩)

/-- `Muxer.Listen` on the muxer of an entry: its routes afterwards. -/
def register (go : Go) (s : State) (entry : PortMux) (l : Listener) (out : Outcome) :
    Except String (Routers Listener) :=
  match out.register with
  | .error err => .error err
  | .ok () =>
      match muxerListen go (s.mux entry.muxer).routers l with
      | none => .error errRouterConfigConflict
      | some routers => .ok routers

def attach (s : State) (port : Int) (entry : PortMux) (l : Listener) (routers : Routers Listener) :
    State :=
  { s with
    mux := update s.mux entry.muxer { s.mux entry.muxer with routers }
    muxers := update s.muxers port (some { entry with refs := entry.refs + 1 })
    listeners := s.listeners ++ [⟨port, entry.muxer, l, .opened⟩] }

def listen (go : Go) (s : State) (port : Int) (l : Listener) (out : Outcome) :
    State × Except String Nat :=
  match s.portMux port out with
  | (s, .error err) => (s, .error err)
  | (s, .ok entry) =>
      match s.register go entry l out with
      | .error err => (if entry.refs = 0 then s.drop port entry out.now else s, .error err)
      | .ok routers => (s.attach port entry l routers, .ok s.listeners.length)

def closeRoute (go : Go) (s : State) (k : Nat) (gl : GroupListener) : State :=
  { s with
    mux := update s.mux gl.muxer
      { s.mux gl.muxer with routers := muxerClose go (s.mux gl.muxer).routers gl.route }
    listeners := s.listeners.set k { gl with pc := .unrouted } }

def release (s : State) (port now : Int) : State :=
  match s.muxers port with
  | none => s
  | some entry =>
      if entry.refs - 1 ≤ 0 then s.drop port entry now
      else { s with
        muxers := update s.muxers port (some { entry with refs := entry.refs - 1 }) }

def refs (s : State) (port : Int) : Int := ((s.muxers port).map PortMux.refs).getD 0

def openListeners (s : State) (port : Int) : Nat :=
  s.listeners.countP fun gl => gl.port = port ∧ gl.pc = .opened

def Idle (s : State) : Prop := ∀ gl ∈ s.listeners, gl.pc ≠ .unrouted

instance (s : State) : Decidable s.Idle := inferInstanceAs (Decidable (∀ gl ∈ s.listeners, _))

end State

/-! ## Runs -/

inductive Action where
  | listen (port : Int) (l : Listener) (out : Outcome)
  /-- The first half of a `Close`. -/
  | closeRoute (k : Nat) (gl : GroupListener)
  /-- The second half. -/
  | release (k : Nat) (gl : GroupListener) (now : Int)
  /-- The worker of the port manager. -/
  | clean (now : Int)

/-- A proxy of this type declares a port other than 0, and a listener is closed once. -/
def Enabled (s : State) : Action → Prop
  | .listen port _ out => port ≠ 0 ∧ s.ports.Ordered out.moment
  | .closeRoute k gl => s.listeners[k]? = some gl ∧ gl.pc = .opened
  | .release k gl _ => s.listeners[k]? = some gl ∧ gl.pc = .unrouted
  | .clean _ => True

instance (s : State) (a : Action) : Decidable (Enabled s a) := by
  cases a <;> dsimp only [Enabled] <;> infer_instance

def next (go : Go) (s : State) : Action → State
  | .listen port l out => (s.listen go port l out).1
  | .closeRoute k gl => s.closeRoute go k gl
  | .release k gl now =>
      { s.release gl.port now with listeners := s.listeners.set k { gl with pc := .closed } }
  | .clean now => { s with ports := s.ports.cleanReservedPortsOnce now }

def step (go : Go) : State → Action → Option State := stepOf Enabled (next go)

structure Counted (s : State) (port : Int) : Prop where
  refs : s.refs port = s.openListeners port
  acquired : (s.ports.usedPorts port).isSome = true ↔ 0 < s.openListeners port
  muxer : (∃ entry, s.muxers port = some entry ∧ (s.mux entry.muxer).listening = true) ↔
    0 < s.openListeners port

structure Unchanged (s s' : State) : Prop where
  ports : SamePorts s.ports s'.ports
  muxers : s'.muxers = s.muxers
  listeners : s'.listeners = s.listeners
  listening : ∀ m, (s'.mux m).listening = (s.mux m).listening

/-! ## What `Listen` does -/

variable {port : Int} {s : State}

theorem acquire_cases {m : Manager} (hm : m.Sound) {e : Moment} (ho : m.Ordered e) (name : String)
    (hport : port ≠ 0) : (∃ err, m.acquire name port e = (m, .error err)) ∨
      m.acquire name port e = (m.markPortAcquired name port e.now, .ok port) ∧
        ∀ now, SamePorts m ((m.markPortAcquired name port e.now).release port now) := by
  have hback := givesBack_of_ne_zero hport m name e
  cases hresult : (m.acquire name port e).2 with
  | error err =>
    left
    exact ⟨err, Prod.ext (acquire_fst_of_error hresult hback.2) hresult⟩
  | ok p =>
    right
    obtain rfl := granted_eq ho hport hresult
    obtain ⟨hmark, -⟩ := granted_cases hm ho hresult
    have hunused := usedPorts_of_sees hm.apart ho hback.1 hresult
    refine ⟨Prod.ext hmark hresult, fun now => ?_⟩
    rw [← hmark]
    exact (samePorts_release_iff hm ho hresult p now).2 ⟨hunused, .inl rfl⟩

inductive Listened (s : State) (port : Int) (l : Listener) :
    State × Except String Nat → Prop where
  | failed (s' : State) (err : String) : Unchanged s s' → s'.ports.Sound → s.nextMux ≤ s'.nextMux →
      (∀ m, m < s.nextMux → s'.mux m = s.mux m) → Listened s port l (s', .error err)
  | joined (entry : PortMux) (routers : Routers Listener) : s.muxers port = some entry →
      Listened s port l (s.attach port entry l routers, .ok s.listeners.length)
  | created (name : String) (now : Int) (routers : Routers Listener) : s.muxers port = none →
      Listened s port l
        ((s.create port port (s.ports.markPortAcquired name port now)).attach port ⟨s.nextMux, 0⟩ l
          routers, .ok s.listeners.length)

/-- The books of the controller; a muxer that was just made counts as one without listeners. -/
structure Books (s : State) : Prop where
  sound : s.ports.Sound
  used : ∀ port, (s.ports.usedPorts port).isSome = (s.muxers port).isSome
  refs : ∀ port, s.refs port =
    s.listeners.countP fun gl => gl.port = port ∧ gl.pc ≠ .closed
  /-- A listener that is not released is one of the muxer that the controller has. -/
  own : ∀ gl ∈ s.listeners, gl.pc ≠ .closed →
    ∃ entry, s.muxers gl.port = some entry ∧ entry.muxer = gl.muxer
  placed : ∀ port entry, s.muxers port = some entry → entry.muxer < s.nextMux ∧
    (s.mux entry.muxer).port = port ∧ (s.mux entry.muxer).listening = true
  listening : ∀ m, (s.mux m).listening = true →
    ∃ entry, s.muxers (s.mux m).port = some entry ∧ entry.muxer = m

structure Inv (s : State) : Prop where
  books : Books s
  pos : ∀ port entry, s.muxers port = some entry → 0 < entry.refs

variable {m : Nat}

theorem Books.lt_of_listening (h : Books s) (hm : (s.mux m).listening = true) : m < s.nextMux := by
  obtain ⟨entry, hentry, rfl⟩ := h.listening m hm
  exact (h.placed _ entry hentry).1

variable {manager : Manager} {realPort now : Int}

theorem drop_create_mux (hm : m ≠ s.nextMux) :
    (((s.create port realPort manager).drop port ⟨s.nextMux, 0⟩ now).mux m) = s.mux m :=
  (update_of_ne hm _ _).trans (update_of_ne hm _ _)

theorem Books.unchanged_drop (h : Books s)
    (hmux : s.muxers port = none) (hports : SamePorts s.ports (manager.release port now)) :
    Unchanged s ((s.create port realPort manager).drop port ⟨s.nextMux, 0⟩ now) := by
  refine ⟨hports, ?_, rfl, ?_⟩
  · -- the entry of the port is written and taken out again
    refine (update_idem _ _ _).trans ?_
    rw [← hmux]
    exact update_eq_self port s.muxers
  · intro m
    by_cases hm : m = s.nextMux
    · -- a number that has not been given out is that of no open muxer
      have hnew : (s.mux s.nextMux).listening = false := by
        by_contra hnot
        exact Nat.lt_irrefl _ (h.lt_of_listening (by simpa using hnot))
      have hclosed : ((s.create port realPort manager).drop port ⟨s.nextMux, 0⟩ now).mux s.nextMux =
          { (s.create port realPort manager).mux s.nextMux with listening := false } :=
        update_self ..
      rw [hm, hnew, hclosed]
    · rw [drop_create_mux hm]

theorem Inv.listened (h : Inv s) (go : Go) (l : Listener) {out : Outcome}
    (hen : Enabled s (.listen port l out)) : Listened s port l (s.listen go port l out) := by
  obtain ⟨hport, ho⟩ := hen
  have hsound := h.books.sound
  unfold State.listen State.portMux
  cases hmux : s.muxers port with
  | some entry =>
    dsimp only
    cases s.register go entry l out with
    | error err =>
      -- A muxer that was there has listeners.
      rw [if_neg (h.pos port entry hmux).ne']
      exact .failed s err ⟨.refl _, rfl, rfl, fun _ => rfl⟩ hsound (Nat.le_refl _) fun _ _ => rfl
    | ok routers => exact .joined entry routers hmux
  | none =>
    have hcases := acquire_cases hsound ho (minecraftPortName port) hport
    rcases hcases with ⟨err, hacquire⟩ | ⟨hacquire, hback⟩
    · rw [hacquire]
      exact .failed _ _ ⟨.refl _, rfl, rfl, fun _ => rfl⟩ hsound (Nat.le_refl _) fun _ _ => rfl
    · have hafter := hsound.acquire hacquire
      rw [hacquire]
      have hreleased := hafter.release port out.now
      dsimp only
      cases out.listen port with
      | error err =>
        exact .failed _ _ ⟨hback _, rfl, rfl, fun _ => rfl⟩ hreleased (Nat.le_refl _) fun _ _ => rfl
      | ok u =>
        cases out.newMuxer with
        | error err =>
          exact .failed _ _ ⟨hback _, rfl, rfl, fun _ => rfl⟩ hreleased (Nat.le_refl _)
            fun _ _ => rfl
        | ok v =>
          dsimp only
          cases State.register go _ _ l out with
          | error err =>
            rw [if_pos rfl]
            exact .failed _ _ (h.books.unchanged_drop hmux (hback _)) hreleased (Nat.le_succ _)
              fun m hm => drop_create_mux (Nat.ne_of_lt hm)
          | ok routers => exact .created _ _ routers hmux

/-! ## What a step preserves -/

section Steps

variable {s' : State}

theorem Inv.unchanged (h : Inv s) (hs : Unchanged s s') (hsound : s'.ports.Sound)
    (hnext : s.nextMux ≤ s'.nextMux) (hold : ∀ m, m < s.nextMux → s'.mux m = s.mux m) : Inv s' := by
  have hb := h.books
  refine ⟨⟨hsound, ?_, ?_, ?_, ?_, ?_⟩, ?_⟩
  · intro port
    rw [hs.ports.used, hs.muxers, hb.used]
  · intro port
    unfold State.refs
    rw [hs.muxers, hs.listeners]
    exact hb.refs port
  · rw [hs.muxers, hs.listeners]
    exact hb.own
  · intro port entry hentry
    rw [hs.muxers] at hentry
    obtain ⟨hlt, hplaced⟩ := hb.placed port entry hentry
    rw [hold _ hlt]
    exact ⟨Nat.lt_of_lt_of_le hlt hnext, hplaced⟩
  · intro m hm
    rw [hs.listening] at hm
    rw [hs.muxers, hold m (hb.lt_of_listening hm)]
    exact hb.listening m hm
  · rw [hs.muxers]
    exact h.pos

variable {entry : PortMux} {k : Nat} {gl : GroupListener}

theorem refs_of_some (h : s.muxers port = some entry) : s.refs port = entry.refs := by
  unfold State.refs
  rw [h]
  rfl

theorem refs_congr (h : s'.muxers port = s.muxers port) : s'.refs port = s.refs port := by
  unfold State.refs
  rw [h]

theorem Books.create (h : Books s) (hmux : s.muxers port = none) (name : String) (now : Int) :
    Books (s.create port port (s.ports.markPortAcquired name port now)) := by
  set s' := s.create port port (s.ports.markPortAcquired name port now) with hs'
  have hself : s'.muxers port = some ⟨s.nextMux, 0⟩ := update_self ..
  have hother : ∀ port', port' ≠ port → s'.muxers port' = s.muxers port' :=
    fun port' hne => update_of_ne hne _ _
  have hnew : s'.mux s.nextMux = ⟨port, .empty, true⟩ := update_self ..
  have hold : ∀ m, m ≠ s.nextMux → s'.mux m = s.mux m := fun m hm => update_of_ne hm _ _
  refine ⟨h.sound.markPortAcquired name port now, ?_, ?_, ?_, ?_, ?_⟩
  · intro port'
    by_cases hne : port' = port
    · have hused : s'.ports.usedPorts port = some s.ports.ctxs.length := update_self ..
      rw [hne, hself, hused]
      rfl
    · have hused : s'.ports.usedPorts port' = s.ports.usedPorts port' :=
        update_of_ne hne _ _
      rw [hother port' hne, hused, h.used]
  · intro port'
    by_cases hne : port' = port
    · -- a port without a muxer counts as zero
      have hzero := h.refs port
      unfold State.refs at hzero
      rw [hmux] at hzero
      rw [hne, refs_of_some hself]
      exact hzero
    · rw [refs_congr (hother port' hne)]
      exact h.refs port'
  · intro gl hgl hpc
    obtain ⟨entry, hentry, hmuxer⟩ := h.own gl hgl hpc
    -- the new muxer has no listeners yet
    have hne : gl.port ≠ port := by
      intro heq
      rw [heq, hmux] at hentry
      cases hentry
    exact ⟨entry, (hother _ hne).trans hentry, hmuxer⟩
  · intro port' entry hentry
    by_cases hne : port' = port
    · rw [hne, hself] at hentry
      cases hentry
      rw [hnew]
      exact ⟨Nat.lt_succ_self _, hne.symm, rfl⟩
    · rw [hother port' hne] at hentry
      obtain ⟨hlt, hplaced⟩ := h.placed port' entry hentry
      rw [hold _ (Nat.ne_of_lt hlt)]
      exact ⟨Nat.lt_succ_of_lt hlt, hplaced⟩
  · intro m hm
    by_cases hne : m = s.nextMux
    · rw [hne, hnew]
      exact ⟨_, hself, rfl⟩
    · rw [hold m hne] at hm ⊢
      obtain ⟨entry, hentry, hmuxer⟩ := h.listening m hm
      refine ⟨entry, ?_, hmuxer⟩
      rw [hother, hentry]
      intro heq
      rw [heq, hmux] at hentry
      cases hentry

theorem Books.setRouters (h : Books s) (m : Nat) (routers : Routers Listener) :
    Books { s with mux := update s.mux m { s.mux m with routers } } := by
  have hsame : ∀ m', (update s.mux m { s.mux m with routers } m').port = (s.mux m').port ∧
      (update s.mux m { s.mux m with routers } m').listening = (s.mux m').listening :=
    (forall_update_iff s.mux (p := fun m' x =>
      x.port = (s.mux m').port ∧ x.listening = (s.mux m').listening)).2
        ⟨⟨rfl, rfl⟩, fun _ _ => ⟨rfl, rfl⟩⟩
  refine ⟨h.sound, h.used, h.refs, h.own, ?_, ?_⟩
  · intro port entry hentry
    obtain ⟨hlt, hport, hlistening⟩ := h.placed port entry hentry
    exact ⟨hlt, (hsame _).1.trans hport, (hsame _).2.trans hlistening⟩
  · intro m' hm'
    obtain ⟨entry, hentry, hmuxer⟩ := h.listening m' ((hsame m').2.symm.trans hm')
    exact ⟨entry, (congrArg s.muxers (hsame m').1).trans hentry, hmuxer⟩

theorem Books.setRefs (h : Books s) (refs : Int) (listeners : List GroupListener)
    (hmux : s.muxers port = some entry)
    (hrefs : ∀ port', (if port' = port then refs else s.refs port') =
      listeners.countP fun gl => gl.port = port' ∧ gl.pc ≠ .closed)
    (hown : ∀ gl ∈ listeners, gl.pc ≠ .closed →
      ∃ entry, s.muxers gl.port = some entry ∧ entry.muxer = gl.muxer) :
    Books { s with
      muxers := update s.muxers port (some { entry with refs }), listeners } := by
  set s' : State := { s with
    muxers := update s.muxers port (some { entry with refs }), listeners } with hs'
  have hself : s'.muxers port = some { entry with refs } := update_self ..
  have hother : ∀ port', port' ≠ port → s'.muxers port' = s.muxers port' :=
    fun port' hne => update_of_ne hne _ _
  -- Every entry has the muxer that it had.
  have hmap : ∀ port',
      (s'.muxers port').map PortMux.muxer = (s.muxers port').map PortMux.muxer := by
    intro port'
    by_cases hne : port' = port
    · rw [hne, hself, hmux]
      rfl
    · rw [hother port' hne]
  have hentry : ∀ port' m, (∃ e, s'.muxers port' = some e ∧ e.muxer = m) ↔
      ∃ e, s.muxers port' = some e ∧ e.muxer = m := by
    intro port' m
    rw [← Option.map_eq_some_iff, ← Option.map_eq_some_iff, hmap]
  refine ⟨h.sound, ?_, ?_, ?_, ?_, ?_⟩
  · intro port'
    rw [← Option.isSome_map (f := PortMux.muxer), hmap, Option.isSome_map]
    exact h.used port'
  · intro port'
    rw [← hrefs port']
    split_ifs with hne
    · rw [hne]
      exact refs_of_some hself
    · exact refs_congr (hother port' hne)
  · intro gl hgl hpc
    exact (hentry _ _).2 (hown gl hgl hpc)
  · intro port' e he
    obtain ⟨e', he', hmuxer⟩ := (hentry port' e.muxer).1 ⟨e, he, rfl⟩
    rw [← hmuxer]
    exact h.placed port' e' he'
  · intro m hm
    exact (hentry _ _).2 (h.listening m hm)

theorem Books.attach (h : Books s) (hmux : s.muxers port = some entry) (l : Listener)
    (routers : Routers Listener) : Books (s.attach port entry l routers) := by
  have hbooks := h.setRefs (entry.refs + 1) (s.listeners ++ [⟨port, entry.muxer, l, .opened⟩]) hmux
    ?_ ?_
  · exact hbooks.setRouters entry.muxer routers
  · intro port'
    have hrefs := h.refs port'
    rw [List.countP_append, List.countP_singleton]
    by_cases hne : port' = port
    · rw [hne, refs_of_some hmux] at hrefs
      simp [hne, hrefs]
    · simp [hne, Ne.symm hne, hrefs]
  · intro gl hgl hpc
    rcases List.mem_append.1 hgl with hold | hnew
    · exact h.own gl hold hpc
    · rw [List.mem_singleton.1 hnew]
      exact ⟨entry, hmux, rfl⟩

theorem countP_set_add {α : Type} {xs : List α} {x : α} (hx : xs[k]? = some x) (y : α)
    (p : α → Bool) :
    (xs.set k y).countP p + (if p x then 1 else 0) = xs.countP p + if p y then 1 else 0 := by
  obtain ⟨hlt, rfl⟩ := List.getElem?_eq_some_iff.1 hx
  have hle : (if p xs[k] then 1 else 0) ≤ xs.countP p := by
    split_ifs with hp
    · exact List.countP_pos_iff.2 ⟨xs[k], List.getElem_mem hlt, hp⟩
    · exact Nat.zero_le _
  rw [List.countP_set hlt]
  omega

theorem Books.own_set (h : Books s) (hk : s.listeners[k]? = some gl) (hpc : gl.pc ≠ .closed)
    (pc : Pc) : ∀ gl' ∈ s.listeners.set k { gl with pc }, gl'.pc ≠ .closed →
      ∃ entry, s.muxers gl'.port = some entry ∧ entry.muxer = gl'.muxer := by
  intro gl' hgl' hpc'
  rcases List.mem_or_eq_of_mem_set hgl' with hold | rfl
  · exact h.own gl' hold hpc'
  · exact h.own gl (List.mem_of_getElem? hk) hpc

theorem Inv.closeRoute (h : Inv s) (go : Go) (hen : Enabled s (.closeRoute k gl)) :
    Inv (s.closeRoute go k gl) := by
  obtain ⟨hk, hpc⟩ := hen
  have hopen : gl.pc ≠ .closed := by
    rw [hpc]
    nofun
  have hb := h.books.setRouters gl.muxer (muxerClose go (s.mux gl.muxer).routers gl.route)
  refine ⟨{ hb with refs := ?_, own := h.books.own_set hk hopen _ }, h.pos⟩
  intro port
  have hcount := countP_set_add hk { gl with pc := .unrouted }
    fun gl => gl.port = port ∧ gl.pc ≠ .closed
  have hsame : (s.listeners.set k { gl with pc := .unrouted }).countP
      (fun gl => gl.port = port ∧ gl.pc ≠ .closed) =
        s.listeners.countP fun gl => gl.port = port ∧ gl.pc ≠ .closed := by
    simpa [hpc] using hcount
  refine (h.books.refs port).trans ?_
  exact congrArg Nat.cast hsame.symm

theorem release_usedPorts (m : Manager) (port now q : Int) :
    (m.release port now).usedPorts q = if q = port then none else m.usedPorts q := by
  unfold Manager.release
  split
  · next hnone =>
    split_ifs with hq
    · rw [hq, hnone]
    · rfl
  · exact update_apply ..

theorem Books.drop (h : Books s) (hmux : s.muxers port = some entry) (now : Int)
    (listeners : List GroupListener) (hrefs : ∀ port', (if port' = port then 0 else s.refs port') =
      listeners.countP fun gl => gl.port = port' ∧ gl.pc ≠ .closed)
    (hown : ∀ gl ∈ listeners, gl.pc ≠ .closed →
      ∃ entry, s.muxers gl.port = some entry ∧ entry.muxer = gl.muxer) :
    Books { s.drop port entry now with listeners } := by
  set s' : State := { s.drop port entry now with listeners } with hs'
  have hself : s'.muxers port = none := update_self ..
  have hother : ∀ port', port' ≠ port → s'.muxers port' = s.muxers port' :=
    fun port' hne => update_of_ne hne _ _
  have hclosed : s'.mux entry.muxer = { s.mux entry.muxer with listening := false } :=
    update_self ..
  have hold : ∀ m, m ≠ entry.muxer → s'.mux m = s.mux m := fun m hm => update_of_ne hm _ _
  obtain ⟨-, hport, -⟩ := h.placed port entry hmux
  refine ⟨h.sound.release port now, ?_, ?_, ?_, ?_, ?_⟩
  · intro port'
    have hused := release_usedPorts s.ports port now port'
    by_cases hne : port' = port
    · rw [if_pos hne] at hused
      rw [hne] at hused ⊢
      rw [hself]
      exact congrArg Option.isSome hused
    · rw [if_neg hne] at hused
      rw [hother port' hne, ← h.used port']
      exact congrArg Option.isSome hused
  · intro port'
    rw [← hrefs port']
    split_ifs with hne
    · unfold State.refs
      rw [hne, hself]
      rfl
    · exact refs_congr (hother port' hne)
  · intro gl hgl hpc
    have hne : gl.port ≠ port := by
      intro heq
      have hzero := hrefs port
      rw [if_pos rfl] at hzero
      have hpos : 0 < listeners.countP fun gl => gl.port = port ∧ gl.pc ≠ .closed :=
        List.countP_pos_iff.2 ⟨gl, hgl, by simp [heq, hpc]⟩
      omega
    rw [hother _ hne]
    exact hown gl hgl hpc
  · intro port' e he
    have hne : port' ≠ port := by
      rintro rfl
      rw [hself] at he
      cases he
    rw [hother port' hne] at he
    obtain ⟨hlt, hport', hlistening⟩ := h.placed port' e he
    have hmuxer : e.muxer ≠ entry.muxer := by
      intro heq
      rw [heq, hport] at hport'
      exact hne hport'.symm
    rw [hold _ hmuxer]
    exact ⟨hlt, hport', hlistening⟩
  · intro m hm
    have hne : m ≠ entry.muxer := by
      rintro rfl
      rw [hclosed] at hm
      cases hm
    rw [hold m hne] at hm ⊢
    obtain ⟨e, he, hmuxer⟩ := h.listening m hm
    refine ⟨e, ?_, hmuxer⟩
    rw [hother, he]
    intro heq
    rw [heq, hmux] at he
    cases he
    exact hne hmuxer.symm

theorem Inv.release (h : Inv s) (go : Go) (hen : Enabled s (.release k gl now)) :
    Inv (next go s (.release k gl now)) := by
  obtain ⟨hk, hpc⟩ := hen
  have hopen : gl.pc ≠ .closed := by
    rw [hpc]
    nofun
  obtain ⟨entry, hmux, -⟩ := h.books.own gl (List.mem_of_getElem? hk) hopen
  have hown := h.books.own_set hk hopen .closed
  have hpos := h.pos gl.port entry hmux
  have hcount : ∀ port, s.refs port = (s.listeners.set k { gl with pc := .closed }).countP
      (fun gl => gl.port = port ∧ gl.pc ≠ .closed) + if port = gl.port then 1 else 0 := by
    intro port
    have hset := countP_set_add hk { gl with pc := .closed }
      fun gl => gl.port = port ∧ gl.pc ≠ .closed
    rw [h.books.refs port]
    by_cases hport : port = gl.port
    · simp [hport, hpc] at hset ⊢
      omega
    · simp [hport, Ne.symm hport] at hset ⊢
      exact hset.symm
  have hrefs : ∀ port, (if port = gl.port then entry.refs - 1 else s.refs port) =
      (s.listeners.set k { gl with pc := .closed }).countP
        fun gl => gl.port = port ∧ gl.pc ≠ .closed := by
    intro port
    have hport := hcount port
    split_ifs at hport ⊢ with heq
    · rw [heq, refs_of_some hmux] at hport
      rw [heq]
      omega
    · omega
  simp only [next, State.release]
  rw [hmux]
  dsimp only
  by_cases hlast : entry.refs - 1 ≤ 0
  · rw [if_pos hlast]
    have hone : entry.refs - 1 = 0 := by omega
    rw [hone] at hrefs
    exact ⟨h.books.drop hmux now _ hrefs hown,
      (forall_update_iff s.muxers (p := fun _ m => ∀ e, m = some e → 0 < e.refs)).2
        ⟨nofun, fun port _ => h.pos port⟩⟩
  · rw [if_neg hlast]
    refine ⟨h.books.setRefs _ _ hmux hrefs hown,
      (forall_update_iff s.muxers (p := fun _ m => ∀ e, m = some e → 0 < e.refs)).2
        ⟨?_, fun port _ => h.pos port⟩⟩
    rintro _ ⟨⟩
    exact not_le.1 hlast

theorem Inv.listen (h : Inv s) (go : Go) {l : Listener} {out : Outcome}
    (hen : Enabled s (.listen port l out)) : Inv (s.listen go port l out).1 := by
  have hcases := h.listened go l hen
  revert hcases
  generalize s.listen go port l out = r
  intro hcases
  have hadded : ∀ entry : PortMux, 0 ≤ entry.refs →
      ∀ port' e, update s.muxers port (some { entry with refs := entry.refs + 1 }) port' =
        some e → 0 < e.refs := by
    intro entry hrefs
    refine (forall_update_iff s.muxers (p := fun _ m => ∀ e, m = some e → 0 < e.refs)).2
      ⟨?_, fun port _ => h.pos port⟩
    rintro _ ⟨⟩
    exact Int.lt_add_one_of_le hrefs
  cases hcases with
  | failed s' err hs hsound hnext hold => exact h.unchanged hs hsound hnext hold
  | joined entry routers hmux =>
    exact ⟨h.books.attach hmux l routers, hadded entry (h.pos port entry hmux).le⟩
  | created name now routers hmux =>
    refine ⟨(h.books.create hmux name now).attach (update_self ..) l routers, ?_⟩
    have hmuxers : ((s.create port port (s.ports.markPortAcquired name port now)).attach port
        ⟨s.nextMux, 0⟩ l routers).muxers =
          update s.muxers port (some ⟨s.nextMux, 0 + 1⟩) :=
      update_idem ..
    rw [hmuxers]
    exact hadded ⟨s.nextMux, 0⟩ (Int.le_refl 0)

theorem Inv.clean (h : Inv s) (now : Int) :
    Inv { s with ports := s.ports.cleanReservedPortsOnce now } := by
  have hb := h.books
  exact ⟨{ hb with sound := ⟨hb.sound.apart, hb.sound.known⟩ }, h.pos⟩

theorem inv_next (h : Inv s) (go : Go) {a : Action} (hen : Enabled s a) : Inv (next go s a) := by
  cases a with
  | listen port l out => exact h.listen go hen
  | closeRoute k gl => exact h.closeRoute go hen
  | release k gl now => exact h.release go hen
  | clean now => exact h.clean now

theorem inv_init (allowPorts : List PortsRange) : Inv (init allowPorts) where
  books :=
    { sound := sound_newManager allowPorts
      used := fun _ => rfl
      refs := fun _ => rfl
      own := nofun
      placed := nofun
      listening := by rintro _ ⟨⟩ }
  pos := nofun

theorem Inv.counted (h : Inv s) (hidle : s.Idle) (port : Int) : Counted s port := by
  have hopen : s.openListeners port =
      s.listeners.countP fun gl => gl.port = port ∧ gl.pc ≠ .closed := by
    refine List.countP_congr fun gl hgl => ?_
    have hpc := hidle gl hgl
    cases hgl : gl.pc with
    | unrouted => exact absurd hgl hpc
    | opened | closed => simp
  have hrefs := h.books.refs port
  rw [← hopen] at hrefs
  have hiff : (s.muxers port).isSome = true ↔ 0 < s.openListeners port := by
    cases hmux : s.muxers port with
    | none =>
      unfold State.refs at hrefs
      rw [hmux] at hrefs
      have hzero : (0 : Int) = s.openListeners port := hrefs
      simp
      omega
    | some entry =>
      rw [refs_of_some hmux] at hrefs
      have hpos := h.pos port entry hmux
      simp
      omega
  refine ⟨hrefs, ?_, ?_⟩
  · rw [h.books.used, hiff]
  · rw [← hiff, Option.isSome_iff_exists]
    constructor
    · rintro ⟨entry, hentry, -⟩
      exact ⟨entry, hentry⟩
    · rintro ⟨entry, hentry⟩
      exact ⟨entry, hentry, (h.books.placed port entry hentry).2.2⟩

end Steps

/-- The count of a port is the number of its open listeners, it is held and its muxer open while
there is one, and a `Listen` that fails changes nothing. -/
theorem minecraft_counted (go : Go) (allowPorts : List PortsRange) (s : State)
    (hreach : Reach (step go) anyAction (init allowPorts) s) : (s.Idle → ∀ port, Counted s port) ∧
      ∀ port l out, Enabled s (.listen port l out) →
        ∀ err, (s.listen go port l out).2 = .error err →
          Unchanged s (s.listen go port l out).1 := by
  have hinv : Inv s := by
    refine invariant_of_next (inv_init allowPorts) ?_ hreach
    intro u a hinv _ hen
    exact inv_next hinv go hen
  refine ⟨hinv.counted, ?_⟩
  intro port l out hen err herr
  have hcases := hinv.listened go l hen
  revert herr hcases
  generalize s.listen go port l out = r
  intro herr hcases
  cases hcases with
  | failed s' err hs => exact hs
  | joined | created => cases herr

def plainGo : Go := ⟨id, fun _ => none⟩

def host (name : List UInt8) : Listener := ⟨name, [], [], [], []⟩

def granted (order : List Int) : Outcome := ⟨allOpen order, fun _ => .ok (), .ok (), .ok (), 0⟩

def sharedRun : List Action :=
  [.listen 25565 (host [97]) (granted [25565]), .listen 25565 (host [98]) (granted []),
    .listen 25565 (host [98]) (granted []), .closeRoute 0 ⟨25565, 0, host [97], .opened⟩,
    .release 0 ⟨25565, 0, host [97], .unrouted⟩ 0]

theorem minecraft_counted_sharedRun :
    let s := (run (step plainGo) anyAction (init [⟨0, 0, 25565⟩]) sharedRun).getD
      (init [⟨0, 0, 25565⟩])
    s.Idle ∧ s.refs 25565 = 1 ∧ (s.ports.usedPorts 25565).isSome = true ∧
      (s.listen plainGo 25565 (host [98]) (granted [])).1.muxers = s.muxers := by
  intro s
  have hreach : Reach (step plainGo) anyAction (init [⟨0, 0, 25565⟩]) s :=
    reach_getD_of_isSome (by decide +kernel)
  obtain ⟨hcounted, hfails⟩ := minecraft_counted plainGo _ s hreach
  have hidle : s.Idle := by decide +kernel
  have hone : s.openListeners 25565 = 1 := by decide +kernel
  have hport := hcounted hidle 25565
  refine ⟨hidle, ?_, hport.acquired.2 (by rw [hone]; exact Nat.one_pos), ?_⟩
  · rw [hport.refs, hone]
    rfl
  · have hen : Enabled s (.listen 25565 (host [98]) (granted [])) := by decide +kernel
    exact (hfails _ _ _ hen errRouterConfigConflict (by decide +kernel)).muxers

end FrpMeo.Server.MinecraftGroup
