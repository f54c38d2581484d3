import FrpMeo.Client.Wrapper
import FrpMeo.Lib.GoMap
import FrpMeo.Lib.Heap
import FrpMeo.Server.Names

/-!
# The proxy manager of a client

`Manager.UpdateAll` and `Manager.Close` of `client/proxy/proxy_manager.go`. An update stops what is
gone or has changed and then starts what is missing, in any order of the names. Workers and the
reader of responses do not wait for the lock: `Env` lists the rounds they take between two steps.
-/

namespace FrpMeo.Client.Manager

open Lib Client.Proxy Server.Names Function

/-! ## Managers -/

/-- `reflect.DeepEqual` is an equivalence, and equal configurations have one name. -/
structure Configs (C : Type) where
  name : C → String
  /-- `HealthCheck.Type` is set and `LocalPort` is positive. -/
  monitored : C → Bool
  deepEqual : C → C → Bool
  equivalence : Equivalence fun c d => deepEqual c d = true
  name_eq : ∀ {c d : C}, deepEqual c d = true → name c = name d

inductive Party where
  | manager
  | worker
  | reader
  deriving DecidableEq, Repr

inductive Event where
  | start (i : Nat)
  | stop (i : Nat)
  | sent (sender : Party) (i : Nat) (m : ToServer)
  deriving DecidableEq, Repr

namespace Event

def wrapper : Event → Nat
  | start i => i
  | stop i => i
  | sent _ i _ => i

def byManager : Event → Bool
  | start _ => true
  | stop _ => true
  | sent sender _ _ => sender == .manager

end Event

def calls (i : Nat) (log : List Event) : List Event :=
  log.filter fun e => e.byManager && e.wrapper == i

structure Obj (C : Type) where
  cfg : C
  pw : Wrapper

structure State (C : Type) where
  proxies : GoMap String Nat
  objs : Heap (Obj C)
  log : List Event

section Manager

variable {C : Type}

/-- A round of a worker or of the reader on some wrapper, perhaps a stopped one. -/
inductive Env where
  | check (i now : Nat) (failed : Bool)
  | setRunningStatus (i now : Nat) (remoteAddr respErr : String) (runErr : Option String)
  deriving DecidableEq, Repr

namespace Env

def wrapper : Env → Nat
  | check i _ _ => i
  | setRunningStatus i _ _ _ _ => i

def party : Env → Party
  | check _ _ _ => .worker
  | setRunningStatus _ _ _ _ _ => .reader

def act (pw : Wrapper) : Env → Wrapper × List ToServer
  | check _ now failed => pw.checkWorker now failed
  | setRunningStatus _ now remoteAddr respErr runErr =>
      pw.setRunningStatus now remoteAddr respErr runErr

end Env

namespace State

def put (s : State C) (i : Nat) (o : Obj C) (sender : Party) (done : Wrapper × List ToServer) :
    State C :=
  { s with
    objs := s.objs.write i { o with pw := done.1 }
    log := s.log ++ done.2.map (.sent sender i) }

def env (s : State C) (a : Env) : State C :=
  match s.objs.cell a.wrapper with
  | none => s
  | some o => s.put a.wrapper o a.party (a.act o.pw)

def envs (s : State C) (as : List Env) : State C := as.foldl env s

def stop (s : State C) (i : Nat) (o : Obj C) : State C :=
  State.put { s with log := s.log ++ [.stop i] } i o .manager o.pw.stop

end State

variable (cf : Configs C) (user : String)

def newObj (cfg : C) : Obj C :=
  ⟨cfg, newWrapper (addUserPrefix user (cf.name cfg)) (cf.monitored cfg)⟩

/-- A round of the first loop of `UpdateAll`, over the map as it was at the start. -/
def visit (cfgsMap : GoMap String C) (s : State C) (name : String) : State C :=
  match s.proxies.get name with
  | none => s
  | some i =>
      match s.objs.cell i with
      | none => s
      | some o =>
          -- `!ok || !reflect.DeepEqual(pxy.Cfg, cfg)`
          if (cfgsMap.get name).any (cf.deepEqual o.cfg) then s
          else { s.stop i o with proxies := s.proxies.erase name }

def add (s : State C) (cfg : C) : State C :=
  match s.proxies.get (cf.name cfg) with
  | some _ => s
  | none =>
      -- `Start` only brings up the worker; what it sends comes with its rounds
      { proxies := s.proxies.insert (cf.name cfg) s.objs.next
        objs := (s.objs.alloc (newObj cf user cfg)).1
        log := s.log ++ [.start s.objs.next] }

/-- The first loop. After the step with number `n` the others take the rounds `env n`. -/
def removeAll (cfgsMap : GoMap String C) (env : Nat → List Env) :
    Nat → State C → List String → State C
  | _, s, [] => s
  | n, s, name :: names =>
      removeAll cfgsMap env (n + 1) ((visit cf cfgsMap s name).envs (env n)) names

def addAll (env : Nat → List Env) : Nat → State C → List C → State C
  | _, s, [] => s
  | n, s, cfg :: cfgs => addAll env (n + 1) ((add cf user s cfg).envs (env n)) cfgs

def updateAll (s : State C) (proxyCfgs : List C) (order : List String) (env : Nat → List Env) :
    State C :=
  addAll cf user env order.length
    (removeAll cf (GoMap.ofList cf.name proxyCfgs) env 0 s order) proxyCfgs

def closeOne (s : State C) (name : String) : State C :=
  match s.proxies.get name with
  | none => s
  | some i =>
      match s.objs.cell i with
      | none => s
      | some o => s.stop i o

def closeAll (env : Nat → List Env) : Nat → State C → List String → State C
  | _, s, [] => s
  | n, s, name :: names => closeAll env (n + 1) ((closeOne s name).envs (env n)) names

def close (s : State C) (order : List String) (env : Nat → List Env) : State C :=
  { closeAll env 0 s order with proxies := .empty }

def init : State C := ⟨.empty, ⟨fun _ => none, 0, fun _ _ => rfl⟩, []⟩

inductive Reached : State C → Prop where
  | init : Reached init
  | env {s : State C} (hs : Reached s) (a : Env) : Reached (s.env a)
  | updateAll {s : State C} (hs : Reached s) (proxyCfgs : List C) {order : List String}
      (ho : s.proxies.Order order) (env : Nat → List Env) :
      Reached (updateAll cf user s proxyCfgs order env)
  | close {s : State C} (hs : Reached s) {order : List String} (ho : s.proxies.Order order)
      (env : Nat → List Env) : Reached (close s order env)

/-! ## What a step does -/

def State.ident (s : State C) (i : Nat) : Option (C × String) :=
  (s.objs.cell i).map fun o => (o.cfg, o.pw.name)

theorem lt_next_of_ident {s : State C} {i : Nat} {x : C × String} (h : s.ident i = some x) :
    i < s.objs.next := by
  obtain ⟨o, ho, -⟩ := Option.map_eq_some_iff.1 h
  exact Heap.lt_next ho

structure Quiet (s s' : State C) : Prop where
  proxies : s'.proxies = s.proxies
  next : s'.objs.next = s.objs.next
  ident : s'.ident = s.ident
  log : ∃ evs, s'.log = s.log ++ evs ∧
    ∀ e ∈ evs, e.byManager = false ∧ e.wrapper < s.objs.next

theorem Quiet.refl (s : State C) : Quiet s s := ⟨rfl, rfl, rfl, [], by simp, by simp⟩

theorem Quiet.trans {s₁ s₂ s₃ : State C} (h : Quiet s₁ s₂) (h' : Quiet s₂ s₃) : Quiet s₁ s₃ := by
  obtain ⟨evs, hlog, hevs⟩ := h.log
  obtain ⟨evs', hlog', hevs'⟩ := h'.log
  refine ⟨h'.proxies.trans h.proxies, h'.next.trans h.next, h'.ident.trans h.ident,
    evs ++ evs', ?_, ?_⟩
  · rw [hlog', hlog, List.append_assoc]
  · intro e he
    rcases List.mem_append.1 he with he | he
    · exact hevs e he
    · rw [← h.next]
      exact hevs' e he

theorem ident_put {s : State C} {i : Nat} {o : Obj C} (ho : s.objs.cell i = some o) (sender : Party)
    {done : Wrapper × List ToServer} (hname : done.1.name = o.pw.name) :
    (s.put i o sender done).ident = s.ident := by
  funext j
  rw [State.ident, State.ident, State.put]
  by_cases hj : j = i
  · rw [hj, Heap.write_cell_self ho, ho, Option.map_some, Option.map_some, hname]
  · rw [Heap.write_cell_of_ne _ _ hj]

theorem act_name {pw : Wrapper} {a : Env} : (a.act pw).1.name = pw.name := by
  cases a with
  | check i now failed => exact Proxy.State.checkWorker_name pw now failed
  | setRunningStatus i now remoteAddr respErr runErr =>
    exact Proxy.State.setRunningStatus_name pw now remoteAddr respErr runErr

theorem quiet_env (s : State C) (a : Env) : Quiet s (s.env a) := by
  unfold State.env
  cases ho : s.objs.cell a.wrapper with
  | none => exact .refl s
  | some o =>
    refine ⟨rfl, Heap.write_next .., ident_put ho _ (act_name), _, rfl, ?_⟩
    intro e he
    obtain ⟨m, -, rfl⟩ := List.mem_map.1 he
    refine ⟨?_, Heap.lt_next ho⟩
    cases a with
    | check | setRunningStatus => rfl

theorem quiet_envs (s : State C) (as : List Env) : Quiet s (s.envs as) := by
  induction as generalizing s with
  | nil => exact .refl s
  | cons a as ih => exact (quiet_env s a).trans (ih (s.env a))

structure Removes (s s' : State C) (name : String) (i : Nat) (w : String) : Prop where
  proxies : s'.proxies = s.proxies.erase name
  next : s'.objs.next = s.objs.next
  ident : s'.ident = s.ident
  log : s'.log = s.log ++ [Event.stop i, .sent .manager i ⟨.closeProxy, w⟩]

structure Adds (s s' : State C) (cfg : C) : Prop where
  proxies : s'.proxies = s.proxies.insert (cf.name cfg) s.objs.next
  next : s'.objs.next = s.objs.next + 1
  ident : s'.ident = update s.ident s.objs.next
    (some (cfg, addUserPrefix user (cf.name cfg)))
  log : s'.log = s.log ++ [.start s.objs.next]

def State.keeps (s : State C) (cfgsMap : GoMap String C) (name : String) (i : Nat) : Bool :=
  (s.ident i).any fun x => (cfgsMap.get name).any (cf.deepEqual x.1)

/-! ## The invariant -/

structure Good (s : State C) : Prop where
  live : ∀ name i, s.proxies.get name = some i →
    ∃ x, s.ident i = some x ∧ cf.name x.1 = name
  wire : ∀ i x, s.ident i = some x → x.2 = addUserPrefix user (cf.name x.1)
  running : ∀ i x, s.ident i = some x → s.proxies.get (cf.name x.1) = some i →
    calls i s.log = [.start i]
  stopped : ∀ i x, s.ident i = some x → s.proxies.get (cf.name x.1) ≠ some i →
    calls i s.log = [.start i, .stop i, .sent .manager i ⟨.closeProxy, x.2⟩]
  below : ∀ e ∈ s.log, e.wrapper < s.objs.next

section Steps

variable {cf user}
variable {s s' : State C}

theorem calls_append (i : Nat) (log log' : List Event) :
    calls i (log ++ log') = calls i log ++ calls i log' :=
  List.filter_append ..

variable {i : Nat} {cfg : C}

theorem calls_eq_nil {log : List Event} (h : ∀ e ∈ log, e.byManager = false ∨ e.wrapper ≠ i) :
    calls i log = [] := by
  apply List.filter_eq_nil_iff.2
  intro e he
  rcases h e he with h | h <;> simp [h]

theorem good_init : Good cf user (init : State C) where
  live := by
    intro name i h
    cases h
  wire := by
    intro i x h
    cases h
  running := by
    intro i x h
    cases h
  stopped := by
    intro i x h
    cases h
  below := by
    intro e he
    cases he

theorem Good.quiet (h : Good cf user s) (hq : Quiet s s') : Good cf user s' := by
  obtain ⟨evs, hlog, hevs⟩ := hq.log
  have hcalls : ∀ i, calls i s'.log = calls i s.log := by
    intro i
    rw [hlog, calls_append, calls_eq_nil fun e he => .inl (hevs e he).1, List.append_nil]
  refine ⟨?_, ?_, ?_, ?_, ?_⟩
  · rw [hq.proxies, hq.ident]
    exact h.live
  · rw [hq.ident]
    exact h.wire
  · rw [hq.proxies, hq.ident]
    intro i x hx hi
    rw [hcalls]
    exact h.running i x hx hi
  · rw [hq.proxies, hq.ident]
    intro i x hx hi
    rw [hcalls]
    exact h.stopped i x hx hi
  · rw [hq.next, hlog]
    intro e he
    rcases List.mem_append.1 he with he | he
    · exact h.below e he
    · exact (hevs e he).2

variable {name w : String}

theorem Removes.get (hr : Removes s s' name i w) (k : String) :
    s'.proxies.get k = if k = name then none else s.proxies.get k := by
  rw [hr.proxies, GoMap.get_erase]

theorem Removes.calls_of_ne {j : Nat} (hr : Removes s s' name i w) (hj : j ≠ i) :
    calls j s'.log = calls j s.log := by
  have hother : calls j [Event.stop i, .sent .manager i ⟨.closeProxy, w⟩] = [] := by
    apply calls_eq_nil
    intro e he
    right
    rcases List.mem_pair.1 he with rfl | rfl <;> exact fun heq => hj heq.symm
  rw [hr.log, calls_append, hother, List.append_nil]

theorem Adds.get (ha : Adds cf user s s' cfg) (k : String) :
    s'.proxies.get k = if k = cf.name cfg then some s.objs.next else s.proxies.get k := by
  rw [ha.proxies, GoMap.get_insert]

theorem Adds.ident_cases (ha : Adds cf user s s' cfg) {x : C × String} (hx : s'.ident i = some x) :
    i = s.objs.next ∧ x = (cfg, addUserPrefix user (cf.name cfg)) ∨
      i ≠ s.objs.next ∧ s.ident i = some x := by
  rw [ha.ident] at hx
  by_cases hi : i = s.objs.next
  · rw [hi, update_self] at hx
    exact .inl ⟨hi, (Option.some.inj hx).symm⟩
  · rw [update_of_ne hi] at hx
    exact .inr ⟨hi, hx⟩

theorem Adds.calls_of_ne (ha : Adds cf user s s' cfg) (hi : i ≠ s.objs.next) :
    calls i s'.log = calls i s.log := by
  have hother : calls i [Event.start s.objs.next] = [] := by
    apply calls_eq_nil
    intro e he
    rw [List.mem_singleton.1 he]
    exact .inr fun heq => hi heq.symm
  rw [ha.log, calls_append, hother, List.append_nil]

theorem Good.removes (h : Good cf user s) {c : C}
    (hi : s.proxies.get name = some i) (hx : s.ident i = some (c, w)) (hr : Removes s s' name i w) :
    Good cf user s' := by
  have hname : cf.name c = name := by
    obtain ⟨x, hx', hname⟩ := h.live name i hi
    obtain rfl := Option.some.inj (hx.symm.trans hx')
    exact hname
  have hlt := lt_next_of_ident hx
  refine ⟨?_, ?_, ?_, ?_, ?_⟩
  · intro k j hj
    rw [hr.get] at hj
    split_ifs at hj
    rw [hr.ident]
    exact h.live k j hj
  · rw [hr.ident]
    exact h.wire
  · rw [hr.ident]
    intro j x hx' hj
    rw [hr.get] at hj
    split_ifs at hj with hk
    have hne : j ≠ i := by
      intro heq
      rw [heq, hx] at hx'
      obtain rfl := Option.some.inj hx'
      exact hk hname
    rw [hr.calls_of_ne hne]
    exact h.running j x hx' hj
  · rw [hr.ident]
    intro j x hx' hj
    by_cases hji : j = i
    -- the wrapper was running, and `Stop` adds its two events
    · rw [hji, hx] at hx'
      obtain rfl := Option.some.inj hx'
      rw [hji, hr.log, calls_append, h.running i (c, w) hx (by rw [hname, hi])]
      simp [calls, Event.byManager, Event.wrapper]
    · rw [hr.calls_of_ne hji]
      apply h.stopped j x hx'
      intro hj'
      rw [hr.get] at hj
      split_ifs at hj with hk
      · rw [hk, hi] at hj'
        exact hji (Option.some.inj hj').symm
      · exact hj hj'
  · rw [hr.next, hr.log]
    intro e he
    rcases List.mem_append.1 he with he | he
    · exact h.below e he
    · rcases List.mem_pair.1 he with rfl | rfl <;> exact hlt

theorem Good.adds (h : Good cf user s) (hnone : s.proxies.get (cf.name cfg) = none)
    (ha : Adds cf user s s' cfg) : Good cf user s' := by
  -- nothing in the log is about a wrapper that is not there yet
  have hnew : calls s.objs.next s'.log = [.start s.objs.next] := by
    rw [ha.log, calls_append, calls_eq_nil fun e he => .inr (h.below e he).ne, List.nil_append]
    simp [calls, Event.byManager, Event.wrapper]
  refine ⟨?_, ?_, ?_, ?_, ?_⟩
  · intro k i hi
    rw [ha.get] at hi
    split_ifs at hi with hk
    · obtain rfl := Option.some.inj hi
      exact ⟨_, by rw [ha.ident, update_self], hk.symm⟩
    · obtain ⟨x, hx, hname⟩ := h.live k i hi
      refine ⟨x, ?_, hname⟩
      rw [ha.ident, update_of_ne (lt_next_of_ident hx).ne]
      exact hx
  · intro i x hx
    rcases ha.ident_cases hx with ⟨-, rfl⟩ | ⟨-, hx⟩
    · rfl
    · exact h.wire i x hx
  · intro i x hx hi
    rcases ha.ident_cases hx with ⟨rfl, -⟩ | ⟨hne, hx⟩
    · exact hnew
    · rw [ha.calls_of_ne hne]
      apply h.running i x hx
      rw [ha.get] at hi
      split_ifs at hi with hk
      · exact absurd (Option.some.inj hi).symm hne
      · exact hi
  · intro i x hx hi
    rcases ha.ident_cases hx with ⟨rfl, rfl⟩ | ⟨hne, hx⟩
    · exact absurd (by rw [ha.get, if_pos rfl]) hi
    · rw [ha.calls_of_ne hne]
      apply h.stopped i x hx
      intro hi'
      rw [ha.get] at hi
      split_ifs at hi with hk
      · rw [hk, hnone] at hi'
        cases hi'
      · exact hi hi'
  · rw [ha.next, ha.log]
    intro e he
    rcases List.mem_append.1 he with he | he
    · exact (h.below e he).trans (Nat.lt_succ_self _)
    · rw [List.mem_singleton.1 he]
      exact Nat.lt_succ_self _

theorem visit_cases (h : Good cf user s) {cfgsMap : GoMap String C} :
    visit cf cfgsMap s name = s ∧
        (∀ i, s.proxies.get name = some i → s.keeps cf cfgsMap name i = true) ∨
      ∃ i c w, s.proxies.get name = some i ∧ s.ident i = some (c, w) ∧
        s.keeps cf cfgsMap name i = false ∧ Removes s (visit cf cfgsMap s name) name i w := by
  unfold visit
  cases hi : s.proxies.get name with
  | none => exact .inl ⟨rfl, by simp⟩
  | some i =>
    obtain ⟨x, hx, -⟩ := h.live name i hi
    obtain ⟨o, ho, rfl⟩ := Option.map_eq_some_iff.1 hx
    have hkeeps : s.keeps cf cfgsMap name i = (cfgsMap.get name).any (cf.deepEqual o.cfg) := by
      rw [State.keeps, hx]
      rfl
    simp only [ho]
    split_ifs with hkept
    · left
      refine ⟨rfl, ?_⟩
      intro j hj
      obtain rfl := Option.some.inj hj
      exact hkeeps.trans hkept
    · right
      refine ⟨i, o.cfg, o.pw.name, rfl, hx, hkeeps.trans (Bool.eq_false_iff.2 hkept), rfl,
        Heap.write_next .., ?_, ?_⟩
      · exact ident_put ho .manager rfl
      · exact List.append_assoc ..

theorem add_cases {cf : Configs C} {user : String} :
    add cf user s cfg = s ∧ s.proxies.get (cf.name cfg) ≠ none ∨
      s.proxies.get (cf.name cfg) = none ∧ Adds cf user s (add cf user s cfg) cfg := by
  unfold add
  cases hi : s.proxies.get (cf.name cfg) with
  | some i => exact .inl ⟨rfl, by simp⟩
  | none =>
    refine .inr ⟨rfl, rfl, rfl, ?_, rfl⟩
    funext i
    rw [State.ident]
    by_cases hi : i = s.objs.next
    · rw [hi, Heap.alloc_cell_self, update_self]
      rfl
    · rw [Heap.alloc_cell_of_ne _ _ hi, update_of_ne hi]
      rfl

end Steps

/-! ## The loops -/

section Loops

variable {cf user}
variable {s s' : State C}

structure Removed (cf : Configs C) (user : String) (cfgsMap : GoMap String C) (names : List String)
    (s s' : State C) : Prop where
  good : Good cf user s'
  next : s'.objs.next = s.objs.next
  ident : s'.ident = s.ident
  grows : s.log <+: s'.log
  get : ∀ k, s'.proxies.get k =
    if k ∈ names then (s.proxies.get k).filter (s.keeps cf cfgsMap k) else s.proxies.get k
  /-- What is stopped is stopped before there is any message of a wrapper that is made later. -/
  stops : ∀ k ∈ names, ∀ i c w, s.proxies.get k = some i → s.ident i = some (c, w) →
    s.keeps cf cfgsMap k i = false →
      ∃ before, before ++ [Event.stop i, .sent .manager i ⟨.closeProxy, w⟩] <+: s'.log ∧
        ∀ e ∈ before, e.wrapper < s.objs.next

theorem keeps_congr (cf : Configs C) (hident : s'.ident = s.ident) (cfgsMap : GoMap String C)
    (k : String) : s'.keeps cf cfgsMap k = s.keeps cf cfgsMap k := by
  funext i
  rw [State.keeps, State.keeps, hident]

theorem filter_eq_self {r : Option Nat} {p : Nat → Bool} (h : ∀ i, r = some i → p i = true) :
    r.filter p = r := by
  cases r with
  | none => rfl
  | some i => rw [Option.filter_some, if_pos (h i rfl)]

theorem removed_visit (h : Good cf user s) (cfgsMap : GoMap String C) (name : String)
    (as : List Env) : Removed cf user cfgsMap [name] s ((visit cf cfgsMap s name).envs as) := by
  have hq := quiet_envs (visit cf cfgsMap s name) as
  obtain ⟨evs, hlog, -⟩ := hq.log
  rcases visit_cases h with ⟨heq, hkept⟩ | ⟨i, c, w, hi, hx, hkept, hr⟩
  · rw [heq] at hq hlog ⊢
    refine ⟨h.quiet hq, hq.next, hq.ident, ⟨evs, hlog.symm⟩, ?_, ?_⟩
    · intro k
      rw [hq.proxies]
      split_ifs with hk
      · rw [List.mem_singleton.1 hk, filter_eq_self hkept]
      · rfl
    · intro k hk i c w hi _ hfalse
      rw [List.mem_singleton.1 hk] at hi hfalse
      rw [hkept i hi] at hfalse
      cases hfalse
  · refine ⟨(h.removes hi hx hr).quiet hq, hq.next.trans hr.next, hq.ident.trans hr.ident,
      ?_, ?_, ?_⟩
    · rw [hlog, hr.log, List.append_assoc]
      exact List.prefix_append ..
    · intro k
      rw [hq.proxies, hr.get]
      by_cases hk : k = name
      · rw [if_pos hk, if_pos (List.mem_singleton.2 hk), hk, hi, Option.filter_some, hkept]
        rfl
      · rw [if_neg hk, if_neg fun hmem => hk (List.mem_singleton.1 hmem)]
    · intro k hk j c' w' hj hx' _
      rw [List.mem_singleton.1 hk] at hj
      obtain rfl := Option.some.inj (hj.symm.trans hi)
      obtain ⟨rfl, rfl⟩ := Prod.mk.inj (Option.some.inj (hx'.symm.trans hx))
      refine ⟨s.log, ?_, h.below⟩
      rw [hlog, hr.log]
      exact List.prefix_append ..

variable {s₁ s₂ s₃ : State C}

theorem Removed.trans {cfgsMap : GoMap String C} {names names' : List String}
    (h : Removed cf user cfgsMap names s₁ s₂) (h' : Removed cf user cfgsMap names' s₂ s₃) :
    Removed cf user cfgsMap (names ++ names') s₁ s₃ := by
  have hkeeps := fun k => keeps_congr cf h.ident cfgsMap k
  refine ⟨h'.good, h'.next.trans h.next, h'.ident.trans h.ident, h.grows.trans h'.grows, ?_, ?_⟩
  · intro k
    rw [h'.get, h.get, hkeeps]
    by_cases hk : k ∈ names
    · by_cases hk' : k ∈ names'
      · simp only [hk, hk', List.mem_append, or_self, if_true, Option.filter_filter, Bool.and_self]
      · simp only [hk, hk', List.mem_append, or_false, if_true, if_false]
    · by_cases hk' : k ∈ names'
      · simp only [hk, hk', List.mem_append, false_or, if_true, if_false]
      · simp only [hk, hk', List.mem_append, or_self, if_false]
  · intro k hk i c w hi hx hfalse
    -- the name was visited before, or its wrapper is still there
    by_cases hfirst : k ∈ names
    · obtain ⟨before, hbefore, hlt⟩ := h.stops k hfirst i c w hi hx hfalse
      exact ⟨before, hbefore.trans h'.grows, hlt⟩
    · have hi' : s₂.proxies.get k = some i := by rw [h.get, if_neg hfirst, hi]
      have hsecond : k ∈ names' := (List.mem_append.1 hk).resolve_left hfirst
      obtain ⟨before, hbefore, hlt⟩ := h'.stops k hsecond i c w hi' (by rw [h.ident, hx])
        (by rw [hkeeps, hfalse])
      refine ⟨before, hbefore, ?_⟩
      rw [← h.next]
      exact hlt

theorem removed_removeAll (h : Good cf user s) (cfgsMap : GoMap String C) (env : Nat → List Env)
    (n : Nat) (names : List String) :
    Removed cf user cfgsMap names s (removeAll cf cfgsMap env n s names) := by
  induction names generalizing s n with
  | nil =>
    refine ⟨h, rfl, rfl, List.prefix_rfl, fun k => by simp [removeAll], ?_⟩
    intro k hk
    cases hk
  | cons name names ih =>
    have hfirst := removed_visit h cfgsMap name (env n)
    exact hfirst.trans (ih hfirst.good (n + 1))

structure Added (cf : Configs C) (user : String) (cfgs : List C) (s s' : State C) : Prop where
  good : Good cf user s'
  next : s.objs.next ≤ s'.objs.next
  ident : ∀ i x, s.ident i = some x → s'.ident i = some x
  grows : s.log <+: s'.log
  kept : ∀ k i, s.proxies.get k = some i → s'.proxies.get k = some i
  missing : ∀ k, s.proxies.get k = none →
    s'.proxies.get k = none ∧ (∀ c ∈ cfgs, cf.name c ≠ k) ∨
      ∃ j w, ∃ c ∈ cfgs, s'.proxies.get k = some j ∧ s.objs.next ≤ j ∧ cf.name c = k ∧
        s'.ident j = some (c, w)

theorem added_add (h : Good cf user s) (cfg : C) (as : List Env) :
    Added cf user [cfg] s ((add cf user s cfg).envs as) := by
  have hq := quiet_envs (add cf user s cfg) as
  obtain ⟨evs, hlog, -⟩ := hq.log
  rcases add_cases with ⟨heq, hsome⟩ | ⟨hnone, ha⟩
  · rw [heq] at hq hlog ⊢
    refine ⟨h.quiet hq, hq.next.ge, ?_, ⟨evs, hlog.symm⟩, ?_, ?_⟩
    · intro i x hx
      rw [hq.ident, hx]
    · intro k i hi
      rw [hq.proxies, hi]
    · intro k hk
      refine .inl ⟨by rw [hq.proxies, hk], ?_⟩
      intro c hc heq
      rw [List.mem_singleton.1 hc] at heq
      exact hsome (by rw [heq, hk])
  · refine ⟨(h.adds hnone ha).quiet hq, ?_, ?_, ?_, ?_, ?_⟩
    · rw [hq.next, ha.next]
      exact Nat.le_succ _
    · intro i x hx
      rw [hq.ident, ha.ident, update_of_ne (lt_next_of_ident hx).ne, hx]
    · rw [hlog, ha.log, List.append_assoc]
      exact List.prefix_append ..
    · intro k i hi
      have hk : k ≠ cf.name cfg := by
        intro hk
        rw [hk, hnone] at hi
        cases hi
      rw [hq.proxies, ha.get, if_neg hk, hi]
    · intro k hk
      rw [hq.proxies, ha.get]
      split_ifs with hname
      · refine .inr ⟨s.objs.next, addUserPrefix user (cf.name cfg), cfg, by simp, rfl, le_refl _,
          hname.symm, ?_⟩
        rw [hq.ident, ha.ident, update_self]
      · refine .inl ⟨hk, ?_⟩
        intro c hc heq
        rw [List.mem_singleton.1 hc] at heq
        exact hname heq.symm

theorem Added.trans {cfgs cfgs' : List C} (h : Added cf user cfgs s₁ s₂)
    (h' : Added cf user cfgs' s₂ s₃) : Added cf user (cfgs ++ cfgs') s₁ s₃ := by
  refine ⟨h'.good, h.next.trans h'.next, fun i x hx => h'.ident i x (h.ident i x hx),
    h.grows.trans h'.grows, fun k i hi => h'.kept k i (h.kept k i hi), ?_⟩
  intro k hk
  -- what the first part has added the second one keeps
  rcases h.missing k hk with ⟨hnone, hne⟩ | ⟨j, w, c, hc, hj, hlt, hname, hx⟩
  · rcases h'.missing k hnone with ⟨hnone', hne'⟩ | ⟨j, w, c, hc, hj, hlt, hname, hx⟩
    · refine .inl ⟨hnone', ?_⟩
      intro c hc
      rcases List.mem_append.1 hc with hc | hc
      · exact hne c hc
      · exact hne' c hc
    · exact .inr ⟨j, w, c, List.mem_append_right _ hc, hj, h.next.trans hlt, hname, hx⟩
  · exact .inr ⟨j, w, c, List.mem_append_left _ hc, h'.kept k j hj, hlt, hname, h'.ident j _ hx⟩

theorem added_addAll (h : Good cf user s) (env : Nat → List Env) (n : Nat) (cfgs : List C) :
    Added cf user cfgs s (addAll cf user env n s cfgs) := by
  induction cfgs generalizing s n with
  | nil =>
    refine ⟨h, le_refl _, fun i x hx => hx, List.prefix_rfl, fun k i hi => hi, ?_⟩
    intro k hk
    exact .inl ⟨hk, by simp⟩
  | cons cfg cfgs ih =>
    have hfirst := added_add h cfg (env n)
    exact hfirst.trans (ih hfirst.good (n + 1))

theorem Good.updateAll (h : Good cf user s) (proxyCfgs : List C) (order : List String)
    (env : Nat → List Env) : Good cf user (updateAll cf user s proxyCfgs order env) :=
  (added_addAll (removed_removeAll h _ env 0 order).good env order.length proxyCfgs).good

/-! ## Closing -/

theorem envs_with_proxies (s : State C) (m : GoMap String Nat) (as : List Env) :
    ({ s with proxies := m } : State C).envs as = { s.envs as with proxies := m } := by
  induction as generalizing s with
  | nil => rfl
  | cons a as ih =>
    have hone : ({ s with proxies := m } : State C).env a = { s.env a with proxies := m } := by
      unfold State.env
      cases s.objs.cell a.wrapper with
      | none | some => rfl
    change (({ s with proxies := m } : State C).env a).envs as = _
    rw [hone]
    exact ih (s.env a)

variable {m : GoMap String Nat}

theorem visit_empty (cf : Configs C) {name : String} (hm : m.get name = s.proxies.get name) :
    ∃ m', visit cf .empty { s with proxies := m } name = { closeOne s name with proxies := m' } ∧
      (closeOne s name).proxies = s.proxies ∧ ∀ k, k ≠ name → m'.get k = m.get k := by
  unfold visit closeOne
  rw [hm]
  cases s.proxies.get name with
  | none => exact ⟨m, rfl, rfl, fun _ _ => rfl⟩
  | some i =>
    dsimp only
    cases s.objs.cell i with
    | none => exact ⟨m, rfl, rfl, fun _ _ => rfl⟩
    | some o =>
      refine ⟨m.erase name, rfl, rfl, ?_⟩
      intro k hk
      rw [GoMap.get_erase, if_neg hk]

theorem closeAll_eq (cf : Configs C) (env : Nat → List Env) (n : Nat) {names : List String}
    (hnodup : names.Nodup) (hm : ∀ k ∈ names, m.get k = s.proxies.get k) : closeAll env n s names =
      { removeAll cf .empty env n { s with proxies := m } names with proxies := s.proxies } := by
  induction names generalizing s n m with
  | nil => rfl
  | cons name names ih =>
    rw [List.nodup_cons] at hnodup
    obtain ⟨m', hvisit, hsame, hm'⟩ := visit_empty cf (hm name (by simp))
    have hproxies : ((closeOne s name).envs (env n)).proxies = s.proxies :=
      (quiet_envs (closeOne s name) (env n)).proxies.trans hsame
    have hrest : ∀ k ∈ names, m'.get k = ((closeOne s name).envs (env n)).proxies.get k := by
      intro k hk
      have hne : k ≠ name := fun heq => hnodup.1 (heq ▸ hk)
      rw [hproxies, hm' k hne]
      exact hm k (List.mem_cons_of_mem _ hk)
    have hloop : removeAll cf .empty env n { s with proxies := m } (name :: names) =
        removeAll cf .empty env (n + 1)
          { (closeOne s name).envs (env n) with proxies := m' } names := by
      rw [removeAll, hvisit]
      exact congrArg (fun s => removeAll cf .empty env (n + 1) s names)
        (envs_with_proxies (closeOne s name) m' (env n))
    rw [closeAll, ih (n + 1) hnodup.2 hrest, hproxies, hloop]

theorem close_eq_updateAll_nil (h : Good cf user s) {order : List String}
    (ho : s.proxies.Order order) (env : Nat → List Env) :
    close s order env = updateAll cf user s [] order env := by
  have hremoved := removed_removeAll h GoMap.empty env 0 order
  have hempty : (removeAll cf .empty env 0 s order).proxies = .empty := by
    apply GoMap.ext_get
    intro k
    rw [hremoved.get]
    split_ifs with hk
    · cases hi : s.proxies.get k with
      | none => rfl
      | some i => simp [State.keeps, Option.filter_some]
    · rw [ho.2, s.proxies.mem_keys, not_not] at hk
      exact hk
  have hloop : closeAll env 0 s order =
      { removeAll cf .empty env 0 s order with proxies := s.proxies } :=
    closeAll_eq cf env 0 ho.1 fun _ _ => rfl
  change { closeAll env 0 s order with proxies := .empty } = removeAll cf .empty env 0 s order
  rw [hloop, ← hempty]

theorem good_of_reached (h : Reached cf user s) : Good cf user s := by
  induction h with
  | init => exact good_init
  | env _ a ih => exact ih.quiet (quiet_env _ a)
  | updateAll _ proxyCfgs _ env ih => exact ih.updateAll proxyCfgs _ env
  | close _ ho env ih =>
    rw [close_eq_updateAll_nil ih ho env]
    exact ih.updateAll [] _ env

end Loops

/-! ## Updates -/

structure Reconciles (s : State C) (proxyCfgs : List C) (s' : State C) : Prop where
  names : ∀ k, s'.proxies.get k ≠ none ↔ ∃ c ∈ proxyCfgs, cf.name c = k
  /-- The wrapper of a name has its configuration and was started and not stopped. -/
  running : ∀ c ∈ proxyCfgs, ∃ i d w, s'.proxies.get (cf.name c) = some i ∧
    s'.ident i = some (d, w) ∧ cf.deepEqual d c = true ∧ calls i s'.log = [.start i]
  /-- A wrapper whose configuration is in the list stays, and the manager does nothing to it. -/
  kept : ∀ k i d w, s.proxies.get k = some i → s.ident i = some (d, w) →
    (∃ c ∈ proxyCfgs, cf.name c = k ∧ cf.deepEqual d c = true) →
      s'.proxies.get k = some i ∧ s'.ident i = some (d, w) ∧ calls i s'.log = calls i s.log
  /-- Any other wrapper is stopped once, which sends `CloseProxy`. -/
  stopped : ∀ k i d w, s.proxies.get k = some i → s.ident i = some (d, w) →
    (∀ c ∈ proxyCfgs, cf.name c = k → cf.deepEqual d c = false) →
      calls i s'.log = calls i s.log ++ [Event.stop i, .sent .manager i ⟨.closeProxy, w⟩]
  /-- If the name is in the list, then `CloseProxy` is before everything of the new wrapper. -/
  replaced : ∀ k i d w, s.proxies.get k = some i → s.ident i = some (d, w) →
    ∀ c ∈ proxyCfgs, cf.name c = k → cf.deepEqual d c = false →
      ∃ j, s'.proxies.get k = some j ∧ j ≠ i ∧ ∃ before after,
        s'.log = before ++ Event.sent .manager i ⟨.closeProxy, w⟩ :: after ∧
          ∀ e ∈ before, e.wrapper ≠ j

section Updates

variable {cf user}
variable {s : State C}

theorem Good.calls_eq (h : Good cf user s) {k : String} {i : Nat} (hi : s.proxies.get k = some i) :
    calls i s.log = [.start i] := by
  obtain ⟨x, hx, rfl⟩ := h.live k i hi
  exact h.running i x hx hi

variable {proxyCfgs : List C}

theorem keeps_iff (hnames : (proxyCfgs.map cf.name).Nodup) {k : String} {i : Nat} {d : C}
    {w : String} (hx : s.ident i = some (d, w)) :
    s.keeps cf (GoMap.ofList cf.name proxyCfgs) k i = true ↔
      ∃ c ∈ proxyCfgs, cf.name c = k ∧ cf.deepEqual d c = true := by
  rw [State.keeps, hx, Option.any_some]
  have hget := fun c => GoMap.get_ofList_iff hnames (k := k) (a := c)
  cases hk : (GoMap.ofList cf.name proxyCfgs).get k with
  | none =>
    rw [Option.any_none]
    constructor
    · intro h
      cases h
    · intro h
      obtain ⟨c, hc, hname, -⟩ := h
      have hsome := (hget c).2 ⟨hc, hname⟩
      rw [hk] at hsome
      cases hsome
  | some c =>
    obtain ⟨hc, hname⟩ := (hget c).1 hk
    rw [Option.any_some]
    constructor
    · intro h
      exact ⟨c, hc, hname, h⟩
    · intro h
      obtain ⟨c', hc', hname', heq⟩ := h
      obtain rfl := Option.some.inj (hk.symm.trans ((hget c').2 ⟨hc', hname'⟩))
      exact heq

structure Updated (cf : Configs C) (user : String) (proxyCfgs : List C) (s s' : State C) :
    Prop where
  good : Good cf user s'
  ident : ∀ i x, s.ident i = some x → s'.ident i = some x
  /-- The wrapper of a name is kept, or there is none any more, or a new one. -/
  entry : ∀ k,
    (∃ i, s.proxies.get k = some i ∧
        s.keeps cf (GoMap.ofList cf.name proxyCfgs) k i = true ∧ s'.proxies.get k = some i) ∨
      (∀ i, s.proxies.get k = some i →
          s.keeps cf (GoMap.ofList cf.name proxyCfgs) k i = false) ∧
        (s'.proxies.get k = none ∧ (∀ c ∈ proxyCfgs, cf.name c ≠ k) ∨
          ∃ j w, ∃ c ∈ proxyCfgs, s'.proxies.get k = some j ∧ s.objs.next ≤ j ∧ cf.name c = k ∧
            s'.ident j = some (c, w))
  stops : ∀ k i c w, s.proxies.get k = some i → s.ident i = some (c, w) →
    s.keeps cf (GoMap.ofList cf.name proxyCfgs) k i = false →
      ∃ before after,
        s'.log = before ++ Event.stop i :: .sent .manager i ⟨.closeProxy, w⟩ :: after ∧
          ∀ e ∈ before, e.wrapper < s.objs.next

variable {order : List String}

theorem updated_updateAll (h : Good cf user s) (proxyCfgs : List C)
    (ho : s.proxies.Order order) (env : Nat → List Env) :
    Updated cf user proxyCfgs s (updateAll cf user s proxyCfgs order env) := by
  have hr := removed_removeAll h (GoMap.ofList cf.name proxyCfgs) env 0 order
  have ha := added_addAll hr.good env order.length proxyCfgs
  change Updated cf user proxyCfgs s (addAll cf user env order.length _ proxyCfgs)
  generalize removeAll cf (GoMap.ofList cf.name proxyCfgs) env 0 s order = s₁ at hr ha ⊢
  have hmem : ∀ k i, s.proxies.get k = some i → k ∈ order := by
    intro k i hi
    rw [ho.2, s.proxies.mem_keys, hi]
    exact Option.some_ne_none i
  have hget : ∀ k, s₁.proxies.get k =
      (s.proxies.get k).filter (s.keeps cf (GoMap.ofList cf.name proxyCfgs) k) := by
    intro k
    rw [hr.get]
    split_ifs with hk
    · rfl
    · cases hi : s.proxies.get k with
      | none => rfl
      | some i => exact absurd (hmem k i hi) hk
  refine ⟨ha.good, ?_, ?_, ?_⟩
  · intro i x hx
    rw [← hr.ident] at hx
    exact ha.ident i x hx
  · intro k
    cases hi : s₁.proxies.get k with
    | some i =>
      obtain ⟨hi', hkeeps⟩ := Option.filter_eq_some_iff.1 ((hget k).symm.trans hi)
      exact .inl ⟨i, hi', hkeeps, ha.kept k i hi⟩
    | none =>
      have hmissing := ha.missing k hi
      rw [hr.next] at hmissing
      refine .inr ⟨?_, hmissing⟩
      intro i hi'
      rw [← Bool.not_eq_true]
      intro hkeeps
      have hsome := (hget k).trans (Option.filter_eq_some_iff.2 ⟨hi', hkeeps⟩)
      rw [hi] at hsome
      cases hsome
  · intro k i c w hi hx hfalse
    obtain ⟨before, hbefore, hlt⟩ := hr.stops k (hmem k i hi) i c w hi hx hfalse
    obtain ⟨after, hlog⟩ := hbefore.trans ha.grows
    refine ⟨before, after, ?_, hlt⟩
    rw [← hlog, List.append_assoc]
    rfl

section Reconciles

variable {s' : State C} (hu : Updated cf user proxyCfgs s s')
include hu

theorem Updated.names (h : Good cf user s) (hnames : (proxyCfgs.map cf.name).Nodup) (k : String) :
    s'.proxies.get k ≠ none ↔ ∃ c ∈ proxyCfgs, cf.name c = k := by
  rcases hu.entry k with ⟨i, hi, hkeeps, hi'⟩ | ⟨-, hnone | ⟨j, w, c, hc, hj, -, hname, -⟩⟩
  · obtain ⟨x, hx, -⟩ := h.live k i hi
    obtain ⟨c, hc, hname, -⟩ := (keeps_iff hnames hx).1 hkeeps
    rw [hi']
    exact ⟨fun _ => ⟨c, hc, hname⟩, fun _ => Option.some_ne_none i⟩
  · obtain ⟨hnone, hne⟩ := hnone
    constructor
    · intro hsome
      exact absurd hnone hsome
    · intro hc
      obtain ⟨c, hc, hname⟩ := hc
      exact absurd hname (hne c hc)
  · rw [hj]
    exact ⟨fun _ => ⟨c, hc, hname⟩, fun _ => Option.some_ne_none j⟩

variable {c : C}

theorem Updated.running (h : Good cf user s) (hnames : (proxyCfgs.map cf.name).Nodup)
    (hc : c ∈ proxyCfgs) : ∃ i d w, s'.proxies.get (cf.name c) = some i ∧ s'.ident i = some (d, w) ∧
      cf.deepEqual d c = true ∧ calls i s'.log = [.start i] := by
  -- there is one configuration of this name
  have hsame : ∀ c' ∈ proxyCfgs, cf.name c' = cf.name c → c' = c := fun c' hc' =>
    List.inj_on_of_nodup_map hnames hc' hc
  rcases hu.entry (cf.name c) with
    ⟨i, hi, hkeeps, hi'⟩ | ⟨-, ⟨-, hne⟩ | ⟨j, w, c', hc', hj, -, hname, hx⟩⟩
  · obtain ⟨⟨d, w⟩, hx, -⟩ := h.live _ i hi
    obtain ⟨c', hc', hname, heq⟩ := (keeps_iff hnames hx).1 hkeeps
    obtain rfl := hsame c' hc' hname
    exact ⟨i, d, w, hi', hu.ident i _ hx, heq, hu.good.calls_eq hi'⟩
  · exact absurd rfl (hne c hc)
  · obtain rfl := hsame c' hc' hname
    exact ⟨j, c', w, hj, hx, cf.equivalence.refl c', hu.good.calls_eq hj⟩

variable {k : String}

theorem Updated.get_ne {i : Nat} {x : C × String} (hi : s.proxies.get k = some i)
    (hx : s.ident i = some x) (hfalse : s.keeps cf (GoMap.ofList cf.name proxyCfgs) k i = false) :
    s'.proxies.get k ≠ some i := by
  intro hi'
  rcases hu.entry k with ⟨j, hj, hkeeps, -⟩ | ⟨-, ⟨hnone, -⟩ | ⟨j, -, -, -, hj, hle, -⟩⟩
  · obtain rfl := Option.some.inj (hi.symm.trans hj)
    cases hfalse.symm.trans hkeeps
  · cases hnone.symm.trans hi'
  · obtain rfl := Option.some.inj (hi'.symm.trans hj)
    exact absurd (lt_next_of_ident hx) (Nat.not_lt.2 hle)

variable {d : C} {w : String}

theorem Updated.stopped (h : Good cf user s) {i : Nat}
    (hi : s.proxies.get k = some i) (hx : s.ident i = some (d, w))
    (hfalse : s.keeps cf (GoMap.ofList cf.name proxyCfgs) k i = false) :
    calls i s'.log = calls i s.log ++ [Event.stop i, .sent .manager i ⟨.closeProxy, w⟩] := by
  have hname : cf.name d = k := by
    obtain ⟨x, hx', hname⟩ := h.live k i hi
    obtain rfl := Option.some.inj (hx.symm.trans hx')
    exact hname
  rw [h.calls_eq hi]
  apply hu.good.stopped i (d, w) (hu.ident i _ hx)
  rw [hname]
  exact hu.get_ne hi hx hfalse

theorem Updated.replaced {i : Nat} (hi : s.proxies.get k = some i) (hx : s.ident i = some (d, w))
    (hfalse : s.keeps cf (GoMap.ofList cf.name proxyCfgs) k i = false) (hc : c ∈ proxyCfgs)
    (hname : cf.name c = k) : ∃ j, s'.proxies.get k = some j ∧ j ≠ i ∧ ∃ before after,
      s'.log = before ++ Event.sent .manager i ⟨.closeProxy, w⟩ :: after ∧
        ∀ e ∈ before, e.wrapper ≠ j := by
  rcases hu.entry k with ⟨j, hj, hkeeps, -⟩ | ⟨-, ⟨-, hne⟩ | ⟨j, -, -, -, hj, hle, -⟩⟩
  · obtain rfl := Option.some.inj (hi.symm.trans hj)
    cases hfalse.symm.trans hkeeps
  · exact absurd hname (hne c hc)
  · have hij : i < j := (lt_next_of_ident hx).trans_le hle
    obtain ⟨before, after, hlog, hlt⟩ := hu.stops k i d w hi hx hfalse
    refine ⟨j, hj, hij.ne', before ++ [.stop i], after, ?_, ?_⟩
    · rw [hlog, List.append_assoc]
      rfl
    · intro e he
      rcases List.mem_append.1 he with he | he
      · exact ((hlt e he).trans_le hle).ne
      · rw [List.mem_singleton.1 he]
        exact hij.ne

end Reconciles

/-- One update, whatever the others do meanwhile. -/
theorem reconciles_updateAll (h : Good cf user s) (hnames : (proxyCfgs.map cf.name).Nodup)
    (ho : s.proxies.Order order) (env : Nat → List Env) :
    Reconciles cf s proxyCfgs (updateAll cf user s proxyCfgs order env) := by
  have hu := updated_updateAll h proxyCfgs ho env
  -- what the list says about a wrapper is what the loop asks
  have hfalse : ∀ k i d w, s.ident i = some (d, w) →
      (∀ c ∈ proxyCfgs, cf.name c = k → cf.deepEqual d c = false) →
        s.keeps cf (GoMap.ofList cf.name proxyCfgs) k i = false := by
    intro k i d w hx hne
    rw [← Bool.not_eq_true, keeps_iff hnames hx]
    intro hc
    obtain ⟨c, hc, hname, heq⟩ := hc
    cases (hne c hc hname).symm.trans heq
  refine ⟨hu.names h hnames, fun c hc => hu.running h hnames hc, ?_, ?_, ?_⟩
  · intro k i d w hi hx hc
    rcases hu.entry k with ⟨j, hj, -, hj'⟩ | ⟨hnot, -⟩
    · obtain rfl := Option.some.inj (hi.symm.trans hj)
      exact ⟨hj', hu.ident i _ hx, (hu.good.calls_eq hj').trans (h.calls_eq hi).symm⟩
    · cases (hnot i hi).symm.trans ((keeps_iff hnames hx).2 hc)
  · intro k i d w hi hx hne
    exact hu.stopped h hi hx (hfalse k i d w hx hne)
  · intro k i d w hi hx c hc hname hne
    refine hu.replaced hi hx (hfalse k i d w hx ?_) hc hname
    intro c' hc' hname'
    rw [List.inj_on_of_nodup_map hnames hc' hc (hname'.trans hname.symm)]
    exact hne

/-! ## Updates that change nothing -/

def rounds (env : Nat → List Env) (n len : Nat) : List Env := (List.range' n len).flatMap env

theorem rounds_succ (env : Nat → List Env) (n len : Nat) :
    rounds env n (len + 1) = env n ++ rounds env (n + 1) len := rfl

theorem envs_append (as bs : List Env) : s.envs (as ++ bs) = (s.envs as).envs bs :=
  List.foldl_append

theorem removeAll_idle (h : Good cf user s) {cfgsMap : GoMap String C}
    (hkeeps : ∀ k i, s.proxies.get k = some i → s.keeps cf cfgsMap k i = true)
    (env : Nat → List Env) (n : Nat) (names : List String) :
    removeAll cf cfgsMap env n s names = s.envs (rounds env n names.length) := by
  induction names generalizing s n with
  | nil => rfl
  | cons name names ih =>
    have hvisit : visit cf cfgsMap s name = s := by
      rcases visit_cases h with ⟨heq, -⟩ | ⟨i, -, -, hi, -, hfalse, -⟩
      · exact heq
      · rw [hkeeps name i hi] at hfalse
        cases hfalse
    have hq := quiet_envs s (env n)
    rw [removeAll, hvisit, List.length_cons, rounds_succ, envs_append]
    apply ih (h.quiet hq)
    intro k i hi
    rw [hq.proxies] at hi
    rw [keeps_congr cf hq.ident]
    exact hkeeps k i hi

theorem addAll_idle {cfgs : List C} (hcfgs : ∀ c ∈ cfgs, s.proxies.get (cf.name c) ≠ none)
    (env : Nat → List Env) (n : Nat) :
    addAll cf user env n s cfgs = s.envs (rounds env n cfgs.length) := by
  induction cfgs generalizing s n with
  | nil => rfl
  | cons cfg cfgs ih =>
    have hadd : add cf user s cfg = s := by
      rcases add_cases with ⟨heq, -⟩ | ⟨hnone, -⟩
      · exact heq
      · exact absurd hnone (hcfgs cfg (by simp))
    have hq := quiet_envs s (env n)
    rw [addAll, hadd, List.length_cons, rounds_succ, envs_append]
    apply ih
    rw [hq.proxies]
    exact fun c hc => hcfgs c (List.mem_cons_of_mem _ hc)

theorem updateAll_idle (h : Good cf user s) (order : List String)
    (hkeeps : ∀ k i, s.proxies.get k = some i →
      s.keeps cf (GoMap.ofList cf.name proxyCfgs) k i = true)
    (hcfgs : ∀ c ∈ proxyCfgs, s.proxies.get (cf.name c) ≠ none) (env : Nat → List Env) :
    updateAll cf user s proxyCfgs order env =
      s.envs (rounds env 0 order.length ++ rounds env order.length proxyCfgs.length) := by
  have hq := quiet_envs s (rounds env 0 order.length)
  rw [updateAll, removeAll_idle h hkeeps, envs_append]
  apply addAll_idle
  rw [hq.proxies]
  exact hcfgs

section Equal

variable {l l' : List C} (h : List.Forall₂ (fun c d => cf.deepEqual c d = true) l l')
include h

theorem names_of_equal : l.map cf.name = l'.map cf.name := by
  induction h with
  | nil => rfl
  | cons heq _ ih => rw [List.map_cons, List.map_cons, cf.name_eq heq, ih]

theorem exists_equal {c : C} (hc : c ∈ l) : ∃ d ∈ l', cf.deepEqual c d = true := by
  induction h with
  | nil => cases hc
  | @cons a b _ _ heq _ ih =>
    rcases List.mem_cons.1 hc with rfl | hc
    · exact ⟨b, by simp, heq⟩
    · obtain ⟨d, hd, heq'⟩ := ih hc
      exact ⟨d, List.mem_cons_of_mem _ hd, heq'⟩

end Equal

end Updates

/-- `UpdateAll` keeps the equal wrappers, stops the others once, and starts what is missing after
the `CloseProxy` of what it replaces. A second one with an equal list does nothing. -/
theorem updateAll_reconciles (cf : Configs C) (user : String) {s : State C}
    (hs : Reached cf user s) {proxyCfgs : List C} (hnames : (proxyCfgs.map cf.name).Nodup)
    {order : List String} (ho : s.proxies.Order order) (env : Nat → List Env) :
    Reconciles cf s proxyCfgs (updateAll cf user s proxyCfgs order env) ∧
      ∀ between proxyCfgs' order' env',
        List.Forall₂ (fun c d => cf.deepEqual c d = true) proxyCfgs proxyCfgs' →
        updateAll cf user ((updateAll cf user s proxyCfgs order env).envs between) proxyCfgs'
            order' env' =
          ((updateAll cf user s proxyCfgs order env).envs between).envs
            (rounds env' 0 order'.length ++ rounds env' order'.length proxyCfgs'.length) := by
  have hgood := good_of_reached hs
  have hrec := reconciles_updateAll hgood hnames ho env
  refine ⟨hrec, ?_⟩
  intro between proxyCfgs' order' env' hequal
  have hgood' := hgood.updateAll proxyCfgs order env
  generalize updateAll cf user s proxyCfgs order env = s' at hrec hgood' ⊢
  have hq := quiet_envs s' between
  have hnames' := hnames
  rw [names_of_equal hequal] at hnames'
  apply updateAll_idle (hgood'.quiet hq) order'
  -- every wrapper has the configuration of its name in the first list, so in the second
  · intro k i hi
    rw [hq.proxies] at hi
    obtain ⟨c, hc, rfl⟩ := (hrec.names k).1 (by simp [hi])
    obtain ⟨i', d, w, hi', hx, heq, -⟩ := hrec.running c hc
    obtain rfl := Option.some.inj (hi.symm.trans hi')
    obtain ⟨c', hc', heq'⟩ := exists_equal hequal hc
    rw [keeps_congr cf hq.ident, keeps_iff hnames' hx]
    exact ⟨c', hc', (cf.name_eq heq').symm, cf.equivalence.trans heq heq'⟩
  · intro c' hc'
    have hsame : cf.name c' ∈ proxyCfgs.map cf.name := by
      rw [names_of_equal hequal]
      exact List.mem_map_of_mem hc'
    obtain ⟨c, hc, hname⟩ := List.mem_map.1 hsame
    rw [hq.proxies]
    exact (hrec.names _).2 ⟨c, hc, hname⟩

end Manager

section Changed

def pairConfigs : Configs (String × Nat) where
  name := Prod.fst
  monitored := fun _ => false
  deepEqual := fun c d => c == d
  equivalence := ⟨by simp, by simp +contextual, by simp +contextual⟩
  name_eq := by simp +contextual

def webManager : State (String × Nat) :=
  (updateAll pairConfigs "" init [("web", 80)] [] fun _ => []).env (.check 0 0 false)

theorem reached_webManager : Reached pairConfigs "" webManager :=
  .env (.updateAll .init _ ⟨List.nodup_nil, fun _ => by simp [init, GoMap.empty]⟩ _) _

theorem order_webManager : webManager.proxies.Order ["web"] := by
  have hkeys : webManager.proxies.keys = {"web"} := rfl
  refine ⟨List.nodup_singleton _, ?_⟩
  intro k
  rw [hkeys, List.mem_singleton, Finset.mem_singleton]

/-- The port changes, and the worker of the new wrapper does not wait for the end of the update. -/
theorem updateAll_reconciles_changed :
    ∃ j, (updateAll pairConfigs "" webManager [("web", 81), ("ssh", 22)] ["web"]
        fun _ => [.check 1 0 false]).proxies.get "web" = some j ∧ j ≠ 0 ∧ ∃ before after,
      (updateAll pairConfigs "" webManager [("web", 81), ("ssh", 22)] ["web"]
          fun _ => [.check 1 0 false]).log =
        before ++ Event.sent .manager 0 ⟨.closeProxy, "web"⟩ :: after ∧
          ∀ e ∈ before, e.wrapper ≠ j :=
  (updateAll_reconciles pairConfigs "" reached_webManager (by decide) order_webManager
    fun _ => [.check 1 0 false]).1.replaced "web" 0 ("web", 80) "web" rfl rfl ("web", 81)
      (by simp) rfl rfl

end Changed

end FrpMeo.Client.Manager
