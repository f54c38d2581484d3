import FrpMeo.Config.Proxy
import FrpMeo.Metrics.Mem

/-!
# The counters of the proxy types

`handleNewProxy` of `server/control.go` counts a proxy under the type in the client's message, and
`closeProxy` takes it back under that of its configuration; they are the same (`received_agree`).
The counter of a type is the sum of what the controls have open (`Control.share`).
-/

namespace FrpMeo.Server.TypeCounts

open Lib Lib.Transition
open Config (Go NewProxy newProxyConfigurerFromMsg emptyOr)
open Metrics (ServerStatistics newServerMetrics)
open Metrics.ServerStatistics
open Server.Register (ServerConfig)

/-- What a control asks a proxy for: `GetName`, and the type of its base configuration. -/
structure Proxy where
  name : String
  type : String
  deriving DecidableEq

/-- What is used of the message after `RegisterProxy` was called with it. -/
structure Announced where
  proxyName : String
  proxyType : String
  deriving DecidableEq

/-- The configuration from the message, and the message as `NewProxyConfigurerFromMsg` leaves it. -/
def received (go : Go) (cfg : ServerConfig) (m : NewProxy) : Option (Proxy × Announced) :=
  match newProxyConfigurerFromMsg go cfg m with
  | .error _ => none
  | .ok c => some (⟨c.base.name, c.base.type⟩,
      ⟨m.proxyName, emptyOr m.proxyType Config.ProxyType.tcp.name⟩)

inductive Reader where
  | idle
  /-- In `RegisterProxy`, before the proxy manager. -/
  | registering (p : Proxy) (m : Announced)
  /-- The proxy manager has accepted the proxy. -/
  | adding (p : Proxy) (m : Announced)
  /-- The proxy is in the control's map and not counted yet. -/
  | stored (p : Proxy) (m : Announced)
  /-- In `CloseProxy`: out of the map, then out of the proxy manager. -/
  | closing (p : Proxy)
  | deleted (p : Proxy)
  | ended
  deriving DecidableEq

inductive Worker where
  | waiting
  | closing
  | ended
  deriving DecidableEq

structure Control where
  reader : Reader
  proxies : GoMap String Proxy
  worker : Worker
  taken : GoMap String Proxy
  current : Option Proxy

def newControl : Control := ⟨.idle, .empty, .waiting, .empty, none⟩

structure State where
  ids : Finset Nat
  ctl : Nat → Control
  manager : String → Option Nat
  metrics : ServerStatistics

def init : State := ⟨∅, fun _ => newControl, fun _ => none, newServerMetrics⟩

inductive Action where
  | login (c : Nat)
  | newProxy (c : Nat) (m : NewProxy)
  /-- `RegisterProxy` fails: no such proxy, too many ports, a taken name, or `Run` fails. -/
  | refuse (c : Nat) (p : Proxy) (m : Announced)
  | add (c : Nat) (p : Proxy) (m : Announced)
  | store (c : Nat) (p : Proxy) (m : Announced)
  | count (c : Nat) (p : Proxy) (m : Announced) (user clientID : String) (now : Int)
  | closeProxy (c : Nat) (name : String)
  | del (c : Nat) (p : Proxy)
  | uncount (c : Nat) (p : Proxy) (now : Int)
  | readError (c : Nat)
  | take (c : Nat)
  | workerDel (c : Nat) (name : String) (p : Proxy)
  | workerUncount (c : Nat) (p : Proxy) (now : Int)
  | workerEnd (c : Nat)

def Enabled (s : State) : Action → Prop
  | .login c => c ∉ s.ids
  | .newProxy c _ => c ∈ s.ids ∧ (s.ctl c).reader = .idle
  | .refuse c p m => c ∈ s.ids ∧ (s.ctl c).reader = .registering p m
  | .add c p m => c ∈ s.ids ∧ (s.ctl c).reader = .registering p m
  | .store c p m => c ∈ s.ids ∧ (s.ctl c).reader = .adding p m
  | .count c p m _ _ _ => c ∈ s.ids ∧ (s.ctl c).reader = .stored p m
  | .closeProxy c _ => c ∈ s.ids ∧ (s.ctl c).reader = .idle
  | .del c p => c ∈ s.ids ∧ (s.ctl c).reader = .closing p
  | .uncount c p _ => c ∈ s.ids ∧ (s.ctl c).reader = .deleted p
  | .readError c => c ∈ s.ids ∧ (s.ctl c).reader = .idle
  -- the worker waits for the end of the read loop
  | .take c => c ∈ s.ids ∧ (s.ctl c).reader = .ended ∧ (s.ctl c).worker = .waiting
  | .workerDel c name p => c ∈ s.ids ∧ (s.ctl c).worker = .closing ∧ (s.ctl c).current = none ∧
      (s.ctl c).taken.get name = some p
  | .workerUncount c p _ => c ∈ s.ids ∧ (s.ctl c).worker = .closing ∧ (s.ctl c).current = some p
  | .workerEnd c => c ∈ s.ids ∧ (s.ctl c).worker = .closing ∧ (s.ctl c).current = none ∧
      (s.ctl c).taken.keys = ∅

instance (s : State) (a : Action) : Decidable (Enabled s a) := by
  cases a <;> dsimp only [Enabled] <;> infer_instance

def State.set (s : State) (c : Nat) (k : Control) : State :=
  { s with ctl := Function.update s.ctl c k }

def next (go : Go) (cfg : ServerConfig) (s : State) : Action → State
  | .login c => { s.set c newControl with ids := insert c s.ids }
  | .newProxy c m =>
      match received go cfg m with
      | none => s
      | some (p, m) => s.set c { s.ctl c with reader := .registering p m }
  | .refuse c _ _ => s.set c { s.ctl c with reader := .idle }
  | .add c p m =>
      if s.manager m.proxyName = none then
        { s.set c { s.ctl c with reader := .adding p m } with
          manager := Function.update s.manager m.proxyName (some c) }
      else s.set c { s.ctl c with reader := .idle }
  | .store c p m =>
      s.set c { s.ctl c with
        reader := .stored p m
        proxies := (s.ctl c).proxies.insert p.name p }
  | .count c _ m user clientID now =>
      { s.set c { s.ctl c with reader := .idle } with
        metrics := s.metrics.newProxy m.proxyName m.proxyType user clientID now }
  | .closeProxy c name =>
      match (s.ctl c).proxies.get name with
      | none => s
      | some p =>
          s.set c { s.ctl c with reader := .closing p, proxies := (s.ctl c).proxies.erase name }
  | .del c p =>
      { s.set c { s.ctl c with reader := .deleted p } with
        manager := Function.update s.manager p.name none }
  | .uncount c p now =>
      { s.set c { s.ctl c with reader := .idle } with
        metrics := s.metrics.closeProxy p.name p.type now }
  | .readError c => s.set c { s.ctl c with reader := .ended }
  | .take c =>
      s.set c { s.ctl c with worker := .closing, taken := (s.ctl c).proxies, proxies := .empty }
  | .workerDel c name p =>
      { s.set c { s.ctl c with taken := (s.ctl c).taken.erase name, current := some p } with
        manager := Function.update s.manager p.name none }
  | .workerUncount c p now =>
      { s.set c { s.ctl c with current := none } with
        metrics := s.metrics.closeProxy p.name p.type now }
  | .workerEnd c => s.set c { s.ctl c with worker := .ended }

def step (go : Go) (cfg : ServerConfig) : State → Action → Option State :=
  stepOf Enabled (next go cfg)

/-! ## The type in the message and in the configuration -/

/-- The name and the type under which a proxy is counted are those under which it is closed. -/
def Agree (p : Proxy) (m : Announced) : Prop := p.name = m.proxyName ∧ p.type = m.proxyType

variable {p : Proxy} {k : Control}

theorem received_agree {go : Go} {cfg : ServerConfig} {msg : NewProxy} {m : Announced}
    (h : received go cfg msg = some (p, m)) : Agree p m := by
  have hbase : ∀ (t : Config.ProxyType) (msg : NewProxy),
      (((Config.ProxyConfigurer.new t).unmarshalFromMsg msg).complete :
        Config.ProxyConfigurer go).base.name = msg.proxyName ∧
      (((Config.ProxyConfigurer.new t).unmarshalFromMsg msg).complete :
        Config.ProxyConfigurer go).base.type = msg.proxyType := by
    intro t msg
    cases t <;> exact ⟨rfl, rfl⟩
  unfold received newProxyConfigurerFromMsg at h
  dsimp only at h
  split at h
  · cases h
  · rename_i c hc
    split at hc
    · cases hc
    · split at hc
      · cases hc
      · cases hc
        cases h
        exact hbase _ _

/-! ## The controls -/

def Reader.lists : Reader → String → Prop
  | .adding p _, name | .stored p _, name | .closing p, name => p.name = name
  | _, _ => False

def Control.Lists (k : Control) (name : String) : Prop :=
  k.proxies.get name ≠ none ∨ k.reader.lists name ∨ k.taken.get name ≠ none

def ReaderOk (proxies : GoMap String Proxy) : Reader → Prop
  | .registering p m => Agree p m
  | .adding p m => Agree p m ∧ proxies.get p.name = none
  | .stored p m => Agree p m ∧ proxies.get p.name = some p
  | .closing p => proxies.get p.name = none
  | _ => True

structure ControlOk (k : Control) : Prop where
  reader : ReaderOk k.proxies k.reader
  keyed : k.proxies.KeyedBy Proxy.name
  takenKeyed : k.taken.KeyedBy Proxy.name
  resting : k.worker ≠ .closing → k.taken = .empty ∧ k.current = none
  busy : k.worker ≠ .waiting → k.reader = .ended ∧ k.proxies = .empty

structure Owned (s : State) : Prop where
  ok : ∀ c, ControlOk (s.ctl c)
  owns : ∀ c name, (s.ctl c).Lists name → s.manager name = some c

theorem controlOk_newControl : ControlOk newControl where
  reader := trivial
  keyed := GoMap.keyedBy_empty _
  takenKeyed := GoMap.keyedBy_empty _
  resting := fun _ => ⟨rfl, rfl⟩
  busy := fun h => absurd rfl h

theorem not_lists_newControl (name : String) : ¬ newControl.Lists name := by
  rintro (h | h | h)
  · exact h rfl
  · exact h
  · exact h rfl

theorem owned_init : Owned init :=
  ⟨fun _ => controlOk_newControl, fun _ name h => absurd h (not_lists_newControl name)⟩

section Owned

variable {s : State} {c : Nat}

theorem ControlOk.worker_waiting (h : ControlOk k) (hreader : k.reader ≠ .ended) :
    k.worker = .waiting := by
  by_contra hworker
  exact hreader (h.busy hworker).1

theorem ControlOk.reader_at (h : ControlOk k) {r : Reader} (hreader : k.reader = r) :
    ReaderOk k.proxies r := by
  rw [← hreader]
  exact h.reader

variable {r reader : Reader}

theorem ControlOk.read (h : ControlOk k) (hreader : k.reader = r) (hr : r ≠ .ended)
    {proxies : GoMap String Proxy} (hok : ReaderOk proxies reader)
    (hkeyed : proxies.KeyedBy Proxy.name) : ControlOk { k with reader, proxies } :=
  { h with
    reader := hok
    keyed := hkeyed
    busy := fun hworker => absurd (h.worker_waiting (hreader ▸ hr)) hworker }

theorem Owned.update (h : Owned s) {t : State} (hctl : t.ctl = Function.update s.ctl c k)
    (hok : ControlOk k) (hself : ∀ name, k.Lists name → t.manager name = some c)
    (hother : ∀ d name, d ≠ c → s.manager name = some d → t.manager name = some d) : Owned t := by
  constructor
  · rw [hctl]
    exact (Function.forall_update_iff s.ctl (p := fun _ k => ControlOk k)).2
      ⟨hok, fun d _ => h.ok d⟩
  · intro d name hlists
    rw [hctl] at hlists
    by_cases hd : d = c
    · subst hd
      rw [Function.update_self] at hlists
      exact hself name hlists
    · rw [Function.update_of_ne hd] at hlists
      exact hother d name hd (h.owns d name hlists)

theorem Owned.set (h : Owned s) (hok : ControlOk k)
    (hlists : ∀ name, k.Lists name → (s.ctl c).Lists name) : Owned (s.set c k) :=
  h.update rfl hok (fun name hname => h.owns c name (hlists name hname)) fun _ _ _ hd => hd

theorem Owned.setReader (h : Owned s) (hreader : (s.ctl c).reader = r) (hr : r ≠ .ended)
    (hok : ReaderOk (s.ctl c).proxies reader) (hlists : ∀ name, ¬ reader.lists name) :
    Owned (s.set c { s.ctl c with reader }) := by
  apply h.set ((h.ok c).read hreader hr hok (h.ok c).keyed)
  rintro name (hname | hname | hname)
  · exact .inl hname
  · exact absurd hname (hlists name)
  · exact .inr (.inr hname)

theorem Owned.manager_delete (h : Owned s) {name : String} (hname : (s.ctl c).Lists name) {d : Nat}
    {name' : String} (hd : d ≠ c) (hown : s.manager name' = some d) :
    Function.update s.manager name none name' = some d := by
  have hne : name' ≠ name := by
    rintro rfl
    rw [h.owns c name' hname] at hown
    exact hd (Option.some.inj hown).symm
  rw [Function.update_of_ne hne]
  exact hown

end Owned

section Steps

variable {go : Go} {cfg : ServerConfig} {s : State} {c : Nat}

variable (h : Owned s)

include h

theorem owned_add {m : Announced} (hreader : (s.ctl c).reader = .registering p m) :
    Owned (next go cfg s (.add c p m)) := by
  have hok := h.ok c
  have hagree : Agree p m := hok.reader_at hreader
  simp only [next]
  split_ifs with hfree
  · -- a name that nobody has is not in the map either
    have hnone : (s.ctl c).proxies.get p.name = none := by
      by_contra hsome
      have hown := h.owns c p.name (.inl hsome)
      rw [hagree.1, hfree] at hown
      cases hown
    have hfreed : ∀ d name, s.manager name = some d →
        Function.update s.manager m.proxyName (some c) name = some d := by
      intro d name hown
      have hname : name ≠ m.proxyName := by
        rintro rfl
        rw [hfree] at hown
        cases hown
      rw [Function.update_of_ne hname]
      exact hown
    refine h.update rfl (hok.read hreader nofun ⟨hagree, hnone⟩ hok.keyed) ?_
      fun d name _ => hfreed d name
    rintro name (hname | hname | hname)
    · exact hfreed c name (h.owns c name (.inl hname))
    · rw [← show p.name = name from hname, hagree.1]
      exact Function.update_self ..
    · exact hfreed c name (h.owns c name (.inr (.inr hname)))
  · exact h.setReader hreader nofun trivial fun _ => id

theorem owned_store {m : Announced} (hreader : (s.ctl c).reader = .adding p m) :
    Owned (next go cfg s (.store c p m)) := by
  have hok := h.ok c
  have hself : (s.ctl c).Lists p.name := by
    right; left
    rw [hreader]
    exact rfl
  have hstored : ReaderOk ((s.ctl c).proxies.insert p.name p) (.stored p m) := by
    refine ⟨(hok.reader_at hreader).1, ?_⟩
    rw [GoMap.get_insert, if_pos rfl]
  apply h.set (hok.read hreader nofun hstored (hok.keyed.insert rfl))
  rintro name (hname | hname | hname)
  · rw [GoMap.get_insert] at hname
    split_ifs at hname with hp
    · rw [hp]
      exact hself
    · exact .inl hname
  · rw [← show p.name = name from hname]
    exact hself
  · exact .inr (.inr hname)

theorem owned_closeProxy (hreader : (s.ctl c).reader = .idle) (name : String) :
    Owned (next go cfg s (.closeProxy c name)) := by
  have hok := h.ok c
  simp only [next]
  split
  · exact h
  · rename_i p hp
    have hname : p.name = name := hok.keyed name p hp
    have hself : (s.ctl c).Lists name := by
      left
      rw [hp]
      exact Option.some_ne_none p
    have hclosing : ReaderOk ((s.ctl c).proxies.erase name) (.closing p) := by
      rw [ReaderOk, GoMap.get_erase, if_pos hname]
    apply h.set (hok.read hreader nofun hclosing (hok.keyed.erase name))
    rintro name' (hname' | hname' | hname')
    · left
      rw [GoMap.get_erase] at hname'
      split_ifs at hname'
      · exact absurd rfl hname'
      · exact hname'
    · rw [← show p.name = name' from hname', hname]
      exact hself
    · exact .inr (.inr hname')

theorem owned_del (hreader : (s.ctl c).reader = .closing p) : Owned (next go cfg s (.del c p)) := by
  have hok := h.ok c
  have hgone : (s.ctl c).proxies.get p.name = none := hok.reader_at hreader
  have hself : (s.ctl c).Lists p.name := by
    right; left
    rw [hreader]
    exact rfl
  have htaken : (s.ctl c).taken = .empty :=
    (hok.resting (by rw [hok.worker_waiting (by rw [hreader]; rintro ⟨⟩)]; rintro ⟨⟩)).1
  refine h.update rfl (hok.read hreader nofun trivial hok.keyed) ?_
    fun d name hd => h.manager_delete hself hd
  rintro name (hname | hname | hname)
  · have hother : name ≠ p.name := by
      rintro rfl
      exact hname hgone
    exact (Function.update_of_ne hother ..).trans (h.owns c name (.inl hname))
  · exact absurd hname id
  · rw [htaken] at hname
    exact absurd rfl hname

theorem owned_workerDel {name : String} (hworker : (s.ctl c).worker = .closing)
    (hget : (s.ctl c).taken.get name = some p) : Owned (next go cfg s (.workerDel c name p)) := by
  have hok := h.ok c
  obtain ⟨hended, hempty⟩ := hok.busy (by rw [hworker]; rintro ⟨⟩)
  have hname : p.name = name := hok.takenKeyed name p hget
  have hself : (s.ctl c).Lists p.name := by
    right; right
    rw [hname, hget]
    exact Option.some_ne_none p
  refine h.update rfl ?_ ?_ fun d name hd => h.manager_delete hself hd
  · exact ⟨hok.reader, hok.keyed, hok.takenKeyed.erase name, fun hrest => absurd hworker hrest,
      hok.busy⟩
  · rintro name' (hname' | hname' | hname')
    · rw [hempty] at hname'
      exact absurd rfl hname'
    · rw [hended] at hname'
      exact absurd hname' id
    · rw [GoMap.get_erase] at hname'
      split_ifs at hname' with heq
      · exact absurd rfl hname'
      · rw [← hname] at heq
        exact (Function.update_of_ne heq ..).trans (h.owns c name' (.inr (.inr hname')))

theorem owned_next {a : Action} (hen : Enabled s a) : Owned (next go cfg s a) := by
  cases a with
  | login c =>
    exact h.update rfl controlOk_newControl
      (fun name hname => absurd hname (not_lists_newControl name)) fun _ _ _ hd => hd
  | newProxy c msg =>
    simp only [next]
    split
    · exact h
    · rename_i p m hrec
      exact h.setReader hen.2 nofun (received_agree hrec) fun _ => id
  | add c p m => exact owned_add h hen.2
  | store c p m => exact owned_store h hen.2
  | count c | uncount c =>
    have hset : Owned (s.set c { s.ctl c with reader := .idle }) :=
      h.setReader hen.2 nofun trivial fun _ => id
    exact ⟨hset.ok, hset.owns⟩
  | closeProxy c name => exact owned_closeProxy h hen.2 name
  | del c p => exact owned_del h hen.2
  | refuse | readError => exact h.setReader hen.2 nofun trivial fun _ => id
  | take c =>
    obtain ⟨-, hended, hwait⟩ := hen
    have hok := h.ok c
    apply h.set
    · refine ⟨?_, GoMap.keyedBy_empty _, hok.keyed, fun hrest => absurd rfl hrest,
        fun _ => ⟨hended, rfl⟩⟩
      rw [hended]
      exact trivial
    · rintro name (hname | hname | hname)
      · exact absurd rfl hname
      · exact .inr (.inl hname)
      · exact .inl hname
  | workerDel c name p => exact owned_workerDel h hen.2.1 hen.2.2.2
  | workerUncount c p now =>
    obtain ⟨-, hworker, -⟩ := hen
    have hok := h.ok c
    have hset : Owned (s.set c { s.ctl c with current := none }) := by
      apply h.set
      · exact { hok with resting := fun hrest => ⟨(hok.resting hrest).1, rfl⟩ }
      · exact fun _ => id
    exact ⟨hset.ok, hset.owns⟩
  | workerEnd c =>
    obtain ⟨-, hworker, hcurrent, hkeys⟩ := hen
    have hok := h.ok c
    apply h.set
    · exact { hok with
        resting := fun _ => ⟨GoMap.eq_empty_of_keys hkeys, hcurrent⟩
        busy := fun _ => hok.busy (by rw [hworker]; rintro ⟨⟩) }
    · exact fun _ => id

end Steps

/-! ## The counters -/

def ofType (t : String) (p : Proxy) : Int := if p.type = t then 1 else 0

theorem ofType_nonneg (t : String) (p : Proxy) : 0 ≤ ofType t p := by
  unfold ofType
  split_ifs <;> omega

/-- A proxy that is not counted yet is taken off, and one that is still counted is added. -/
def Reader.extra (t : String) : Reader → Int
  | .stored p _ => -ofType t p
  | .closing p | .deleted p => ofType t p
  | _ => 0

def Control.share (k : Control) (t : String) : Int :=
  k.proxies.total (ofType t) + k.reader.extra t +
    (k.taken.total (ofType t) + k.current.elim 0 (ofType t))

theorem total_empty (t : String) : GoMap.total (.empty : GoMap String Proxy) (ofType t) = 0 :=
  GoMap.total_empty _

theorem share_newControl (t : String) : newControl.share t = 0 := by
  simp [Control.share, newControl, total_empty, Reader.extra]

theorem total_ofType_nonneg (m : GoMap String Proxy) (t : String) : 0 ≤ m.total (ofType t) :=
  GoMap.total_nonneg fun _ p _ => ofType_nonneg t p

theorem ControlOk.reading_nonneg (h : ControlOk k) (t : String) :
    0 ≤ k.proxies.total (ofType t) + k.reader.extra t := by
  have hmap := total_ofType_nonneg k.proxies t
  cases hr : k.reader with
  | stored p m =>
    -- the one that is taken off is in the map
    have hok := h.reader
    rw [hr] at hok
    have hle := GoMap.weight_le_total (m := k.proxies)
      (fun _ p _ => ofType_nonneg t p) p.name
    rw [GoMap.weight_of_get _ hok.2] at hle
    simp only [Reader.extra]
    omega
  | closing p | deleted p =>
    have hp := ofType_nonneg t p
    simp only [Reader.extra]
    omega
  | idle | registering p m | adding p m | ended =>
    simp only [Reader.extra]
    omega

theorem Control.working_nonneg (k : Control) (t : String) :
    0 ≤ k.taken.total (ofType t) + k.current.elim 0 (ofType t) := by
  have htaken := total_ofType_nonneg k.taken t
  cases k.current with
  | none => exact Int.add_nonneg htaken (le_refl 0)
  | some p => exact Int.add_nonneg htaken (ofType_nonneg t p)

theorem ControlOk.share_nonneg (h : ControlOk k) (t : String) : 0 ≤ k.share t :=
  Int.add_nonneg (h.reading_nonneg t) (k.working_nonneg t)

theorem ofType_self : ofType p.type p = 1 := if_pos rfl

theorem Control.share_pos_of_deleted (hr : k.reader = .deleted p) : 0 < k.share p.type := by
  have hmap := total_ofType_nonneg k.proxies p.type
  have hwork := k.working_nonneg p.type
  simp only [Control.share, hr, Reader.extra, ofType_self]
  omega

theorem ControlOk.share_pos_of_current (h : ControlOk k) (hp : k.current = some p) :
    0 < k.share p.type := by
  have hread := h.reading_nonneg p.type
  have htaken := total_ofType_nonneg k.taken p.type
  simp only [Control.share, hp, Option.elim_some, ofType_self]
  omega

def Counted (s : State) : Prop := ∀ t, s.metrics.typeCount t = ∑ c ∈ s.ids, (s.ctl c).share t

section Count

variable {s : State} {c : Nat}

theorem Counted.update (h : Counted s) (hc : c ∈ s.ids) {u : State}
    (hids : u.ids = s.ids) (hctl : u.ctl = Function.update s.ctl c k)
    (hcount : ∀ t, u.metrics.typeCount t =
      s.metrics.typeCount t + (k.share t - (s.ctl c).share t)) : Counted u := by
  intro t
  rw [hcount, h t, hids, hctl]
  have hself : (Function.update s.ctl c k c).share t = k.share t := by
    rw [Function.update_self]
  rw [← hself]
  symm
  apply sum_change hc
  intro d _ hd
  rw [Function.update_of_ne hd]

theorem Counted.set (h : Counted s) (hc : c ∈ s.ids) {u : State}
    (hids : u.ids = s.ids) (hctl : u.ctl = Function.update s.ctl c k)
    (hmetrics : u.metrics = s.metrics) (hshare : ∀ t, k.share t = (s.ctl c).share t) :
    Counted u := by
  apply h.update hc hids hctl
  intro t
  rw [hmetrics, hshare, sub_self, add_zero]

theorem Counted.pos (h : Counted s) (ho : Owned s) (hc : c ∈ s.ids) {t : String}
    (hshare : 0 < (s.ctl c).share t) : 0 < s.metrics.typeCount t := by
  have hle : (s.ctl c).share t ≤ ∑ d ∈ s.ids, (s.ctl d).share t :=
    Finset.single_le_sum
      (fun d _ => (ho.ok d).share_nonneg t) hc
  rw [h t]
  omega

end Count

section Steps

variable {go : Go} {cfg : ServerConfig} {s : State}

theorem Counted.setReader (h : Counted s) {c : Nat} {r reader : Reader}
    (hen : c ∈ s.ids ∧ (s.ctl c).reader = r) {u : State} (hids : u.ids = s.ids)
    (hctl : u.ctl = Function.update s.ctl c { s.ctl c with reader })
    (hmetrics : u.metrics = s.metrics) (hextra : ∀ t, reader.extra t = r.extra t) : Counted u := by
  apply h.set hen.1 hids hctl hmetrics
  intro t
  simp only [Control.share, hextra, hen.2]

theorem counted_next (h : Counted s) (ho : Owned s) {a : Action} (hen : Enabled s a) :
    Counted (next go cfg s a) := by
  cases a with
  | login c =>
    intro t
    have hrest : ∑ d ∈ s.ids, (Function.update s.ctl c newControl d).share t =
        ∑ d ∈ s.ids, (s.ctl d).share t := by
      apply Finset.sum_congr rfl
      intro d hd
      rw [Function.update_of_ne (by rintro rfl; exact hen hd)]
    simp only [next, State.set]
    rw [Finset.sum_insert hen, hrest, Function.update_self, share_newControl, zero_add]
    exact h t
  | newProxy c msg =>
    simp only [next]
    split
    · exact h
    · exact h.setReader hen rfl rfl rfl fun _ => rfl
  | add c p m =>
    simp only [next]
    split_ifs <;> exact h.setReader hen rfl rfl rfl fun _ => rfl
  | store c p m =>
    obtain ⟨hc, hreader⟩ := hen
    have hr := (ho.ok c).reader_at hreader
    refine h.set hc rfl rfl rfl ?_
    intro t
    -- the map gains what is not counted yet
    have htotal := GoMap.total_insert_of_none hr.2 (ofType t) p
    simp only [Control.share, htotal, hreader, Reader.extra]
    omega
  | count c p m user clientID now =>
    obtain ⟨hc, hreader⟩ := hen
    have hr := (ho.ok c).reader_at hreader
    refine h.update hc rfl rfl ?_
    intro t
    simp only [next, typeCount_newProxy, ← hr.1.2, Control.share, hreader, Reader.extra, ofType]
    omega
  | closeProxy c name =>
    obtain ⟨hc, hreader⟩ := hen
    simp only [next]
    split
    · exact h
    · rename_i p hp
      refine h.set hc rfl rfl rfl ?_
      intro t
      have htotal := GoMap.total_erase (s.ctl c).proxies (ofType t) name
      rw [GoMap.weight_of_get _ hp] at htotal
      simp only [Control.share, htotal, hreader, Reader.extra]
      omega
  | uncount c p now =>
    obtain ⟨hc, hreader⟩ := hen
    have hpos := h.pos ho hc (Control.share_pos_of_deleted hreader)
    refine h.update hc rfl rfl ?_
    intro t
    simp only [next, typeCount_closeProxy hpos, Control.share, hreader, Reader.extra, ofType]
    omega
  | refuse | del | readError => exact h.setReader hen rfl rfl rfl fun _ => rfl
  | take c =>
    obtain ⟨hc, -, hwait⟩ := hen
    obtain ⟨htaken, -⟩ := (ho.ok c).resting (by rw [hwait]; rintro ⟨⟩)
    refine h.set hc rfl rfl rfl ?_
    intro t
    simp only [Control.share, htaken, total_empty]
    omega
  | workerDel c name p =>
    obtain ⟨hc, -, hcurrent, hget⟩ := hen
    refine h.set hc rfl rfl rfl ?_
    intro t
    have htotal := GoMap.total_erase (s.ctl c).taken (ofType t) name
    rw [GoMap.weight_of_get _ hget] at htotal
    simp only [Control.share, htotal, hcurrent, Option.elim_some, Option.elim_none]
    omega
  | workerUncount c p now =>
    obtain ⟨hc, -, hcurrent⟩ := hen
    have hpos := h.pos ho hc ((ho.ok c).share_pos_of_current hcurrent)
    refine h.update hc rfl rfl ?_
    intro t
    simp only [next, typeCount_closeProxy hpos, Control.share, hcurrent, Option.elim_some,
      Option.elim_none, ofType]
    omega
  | workerEnd c => exact h.set hen.1 rfl rfl rfl fun _ => rfl

end Steps

/-! ## What holds in every run -/

theorem inv_of_reach {go : Go} {cfg : ServerConfig} {s : State}
    (h : Reach (step go cfg) anyAction init s) : Counted s ∧ Owned s := by
  refine invariant_of_next (P := fun s => Counted s ∧ Owned s) ⟨fun _ => rfl, owned_init⟩ ?_ h
  intro u a hinv _ hen
  exact ⟨counted_next hinv.1 hinv.2 hen, owned_next hinv.2 hen⟩

def AtRest (s : State) : Prop := ∀ c ∈ s.ids, (s.ctl c).reader = .idle ∨ (s.ctl c).worker = .ended

instance (s : State) : Decidable (AtRest s) := inferInstanceAs (Decidable (∀ c ∈ s.ids, _ ∨ _))

def State.live (s : State) (t : String) : Int := ∑ c ∈ s.ids, (s.ctl c).proxies.total (ofType t)

theorem share_of_rest (h : ControlOk k) (hrest : k.reader = .idle ∨ k.worker = .ended)
    (t : String) : k.share t = k.proxies.total (ofType t) := by
  have hreader : k.reader.extra t = 0 := by
    rcases hrest with hidle | hended
    · rw [hidle]
      rfl
    · rw [(h.busy (by rw [hended]; rintro ⟨⟩)).1]
      rfl
  have hworker : k.worker ≠ .closing := by
    rcases hrest with hidle | hended
    · rw [h.worker_waiting (by rw [hidle]; rintro ⟨⟩)]
      nofun
    · rw [hended]
      nofun
  obtain ⟨htaken, hcurrent⟩ := h.resting hworker
  rw [Control.share, hreader, htaken, hcurrent, total_empty, add_zero]
  exact add_zero _

/-- The counters are not negative, a proxy is counted as it will be closed, and with nothing in
progress the counter of a type is the number of its live proxies. -/
theorem typeCounts_live (go : Go) (cfg : ServerConfig) (s : State)
    (h : Reach (step go cfg) anyAction init s) : (∀ t, 0 ≤ s.metrics.typeCount t) ∧
      (∀ c p m, (s.ctl c).reader = .stored p m → p.name = m.proxyName ∧ p.type = m.proxyType) ∧
      (AtRest s → ∀ t, s.metrics.typeCount t = s.live t) := by
  obtain ⟨hcounted, howned⟩ := inv_of_reach h
  refine ⟨?_, ?_, ?_⟩
  · intro t
    rw [hcounted t]
    exact Finset.sum_nonneg fun c _ => (howned.ok c).share_nonneg t
  · intro c p m hreader
    exact ((howned.ok c).reader_at hreader).1
  · intro hrest t
    rw [hcounted t]
    apply Finset.sum_congr rfl
    intro c hc
    exact share_of_rest (howned.ok c) (hrest c hc) t

def twoControls : List Action :=
  let web : Proxy := ⟨"web", "tcp"⟩
  let announced : Announced := ⟨"web", "tcp"⟩
  let udp : Proxy := ⟨"dns", "udp"⟩
  [.login 0, .newProxy 0 { proxyName := "web", remotePort := 6000 }, .add 0 web announced,
    .store 0 web announced, .count 0 web announced "" "" 0,
    .newProxy 0 { proxyName := "site", proxyType := "http" },
    .login 1, .newProxy 1 { proxyName := "web", proxyType := "tcp", remotePort := 6001 },
    .add 1 web announced,
    .newProxy 1 { proxyName := "dns", proxyType := "udp", remotePort := 53 },
    .add 1 udp ⟨"dns", "udp"⟩, .store 1 udp ⟨"dns", "udp"⟩, .count 1 udp ⟨"dns", "udp"⟩ "" "" 1,
    .readError 1, .take 1, .workerDel 1 "dns" udp, .workerUncount 1 udp 2, .workerEnd 1]

theorem typeCounts_live_twoControls :
    let s := (run (step Config.sampleGo Config.sampleServer) anyAction init twoControls).getD init
    s.metrics.typeCount "tcp" = 1 ∧ AtRest s ∧ s.metrics.typeCount "tcp" = s.live "tcp" ∧
      s.metrics.typeCount "udp" = s.live "udp" := by
  intro s
  have hreach : Reach (step Config.sampleGo Config.sampleServer) anyAction init s :=
    reach_getD_of_isSome (by decide +kernel)
  have hrest : AtRest s := by decide +kernel
  obtain ⟨-, -, hlive⟩ := typeCounts_live Config.sampleGo Config.sampleServer s hreach
  exact ⟨by decide +kernel, hrest, hlive hrest "tcp", hlive hrest "udp"⟩

end FrpMeo.Server.TypeCounts
