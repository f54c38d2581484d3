import FrpMeo.Lib.Transition
import FrpMeo.Metrics.Mem

/-!
# Reports of a client

A client reports changes (`ProxyMetrics`), and the dispatcher of `pkg/msg/handler.go` starts a task
for each report (`handleProxyMetrics` of `server/control.go`). A report of `d` connections is `d`
calls of `OpenConnection`, or `-d` of `CloseConnection`, which is lost when it finds zero.
-/

namespace FrpMeo.Metrics

open Lib Lib.Transition Function

structure ProxyMetrics where
  proxyName : String
  connsDelta : Int
  trafficInDelta : Int
  trafficOutDelta : Int
  deriving DecidableEq

namespace Reports

open ServerStatistics

inductive Op where
  | addTotalIn (bytes : Int)
  | addProxyIn (bytes : Int)
  | addTotalOut (bytes : Int)
  | addProxyOut (bytes : Int)
  | openTotal
  | openProxy
  | closeConnection
  deriving DecidableEq

def Op.apply (name : String) (m : ServerStatistics) : Op → ServerStatistics
  | .addTotalIn bytes => m.addTotalIn bytes
  | .addProxyIn bytes => m.addProxyIn name bytes
  | .addTotalOut bytes => m.addTotalOut bytes
  | .addProxyOut bytes => m.addProxyOut name bytes
  | .openTotal => m.openTotal
  | .openProxy => m.openProxy name
  | .closeConnection => m.closeConnection name

def trafficInOps (r : ProxyMetrics) : List Op :=
  if 0 < r.trafficInDelta then [.addTotalIn r.trafficInDelta, .addProxyIn r.trafficInDelta] else []

def trafficOutOps (r : ProxyMetrics) : List Op :=
  if 0 < r.trafficOutDelta then [.addTotalOut r.trafficOutDelta, .addProxyOut r.trafficOutDelta]
  else []

def connsOps (r : ProxyMetrics) : List Op :=
  (List.replicate r.connsDelta.toNat [Op.openTotal, Op.openProxy]).flatten ++
    List.replicate (-r.connsDelta).toNat .closeConnection

def handleProxyMetrics (registered : String → Bool) (r : ProxyMetrics) : List Op :=
  if registered r.proxyName then trafficInOps r ++ trafficOutOps r ++ connsOps r else []

def Op.change : Op → Int
  | .openProxy => 1
  | .closeConnection => -1
  | _ => 0

def changes (ops : List Op) : Int := (ops.map Op.change).sum

@[simp]
theorem changes_nil : changes [] = 0 := rfl

@[simp]
theorem changes_cons (op : Op) (ops : List Op) : changes (op :: ops) = op.change + changes ops :=
  List.sum_cons

theorem changes_append (ops ops' : List Op) :
    changes (ops ++ ops') = changes ops + changes ops' := by
  rw [changes, List.map_append, List.sum_append]
  rfl

variable {r : ProxyMetrics} {op : Op}

theorem change_of_mem_trafficInOps (h : op ∈ trafficInOps r) : op.change = 0 := by
  unfold trafficInOps at h
  split_ifs at h
  · rcases List.mem_pair.1 h with rfl | rfl <;> rfl
  · cases h

theorem change_of_mem_trafficOutOps (h : op ∈ trafficOutOps r) : op.change = 0 := by
  unfold trafficOutOps at h
  split_ifs at h
  · rcases List.mem_pair.1 h with rfl | rfl <;> rfl
  · cases h

theorem changes_eq_zero {ops : List Op} (h : ∀ op ∈ ops, op.change = 0) : changes ops = 0 := by
  apply List.sum_eq_zero
  intro n hn
  obtain ⟨op, hop, rfl⟩ := List.mem_map.1 hn
  exact h op hop

theorem changes_opens (n : Nat) :
    changes (List.replicate n [Op.openTotal, Op.openProxy]).flatten = n := by
  induction n with
  | zero => rfl
  | succ n ih =>
    rw [List.replicate_succ, List.flatten_cons, changes_append, ih]
    exact add_comm _ _

theorem changes_closes (n : Nat) : changes (List.replicate n .closeConnection) = -n := by
  induction n with
  | zero => rfl
  | succ n ih =>
    rw [List.replicate_succ, changes_cons, ih, Op.change]
    omega

theorem changes_handleProxyMetrics {registered : String → Bool}
    (h : registered r.proxyName = true) :
    changes (handleProxyMetrics registered r) = r.connsDelta := by
  rw [handleProxyMetrics, if_pos h, connsOps, changes_append, changes_append, changes_append,
    changes_eq_zero fun _ => change_of_mem_trafficInOps,
    changes_eq_zero fun _ => change_of_mem_trafficOutOps, changes_opens, changes_closes]
  omega

theorem change_nonpos_of_close {registered : String → Bool}
    (h : Op.closeConnection ∈ handleProxyMetrics registered r) :
    ∀ op ∈ handleProxyMetrics registered r, op.change ≤ 0 := by
  unfold handleProxyMetrics at h ⊢
  split_ifs at h ⊢ with hreg
  · have hclose : Op.closeConnection ∈ connsOps r := by
      rcases List.mem_append.1 h with htraffic | hconns
      · rcases List.mem_append.1 htraffic with hin | hout
        · cases change_of_mem_trafficInOps hin
        · cases change_of_mem_trafficOutOps hout
      · exact hconns
    have hneg : r.connsDelta < 0 := by
      simp only [connsOps, List.mem_append, List.mem_flatten, List.mem_replicate] at hclose
      rcases hclose with ⟨l, ⟨-, rfl⟩, hl⟩ | ⟨hpos, -⟩
      · cases hl with
        | tail _ hl => cases hl with
          | tail _ hl => cases hl
      · omega
    have hnone : r.connsDelta.toNat = 0 := Int.toNat_of_nonpos hneg.le
    intro op hop
    rcases List.mem_append.1 hop with htraffic | hconns
    · rcases List.mem_append.1 htraffic with hin | hout
      · exact (change_of_mem_trafficInOps hin).le
      · exact (change_of_mem_trafficOutOps hout).le
    · rw [connsOps, hnone] at hconns
      rw [(List.mem_replicate.1 hconns).2]
      decide
  · cases h

/-! ## The effect of one step -/

def Known (m : ServerStatistics) (name : String) : Prop :=
  ∃ st, m.proxyStatistics.get name = some st ∧ 0 ≤ st.curConns

def Lost (m : ServerStatistics) (name : String) (op : Op) : Prop :=
  op = .closeConnection ∧ ¬ 0 < m.conns name

instance (m : ServerStatistics) (name : String) (op : Op) : Decidable (Lost m name op) :=
  inferInstanceAs (Decidable (_ ∧ _))

section Apply

variable {m : ServerStatistics} {name : String}

theorem Known.modify (h : Known m name) (name' : String) {f : ProxyStatistics → ProxyStatistics}
    (hf : ∀ st : ProxyStatistics, 0 ≤ st.curConns → 0 ≤ (f st).curConns) :
    Known (m.modify name' f) name := by
  obtain ⟨st, hst, hnonneg⟩ := h
  by_cases hn : name = name'
  · refine ⟨f st, ?_, hf st hnonneg⟩
    rw [get_modify, if_pos hn, ← hn, hst]
    rfl
  · refine ⟨st, ?_, hnonneg⟩
    rw [get_modify, if_neg hn]
    exact hst

theorem Known.apply (h : Known m name) (name' : String) (op : Op) :
    Known (op.apply name' m) name := by
  cases op with
  | addProxyIn | addProxyOut => exact h.modify name' fun _ hst => hst
  | addTotalIn | addTotalOut | openTotal => exact h
  | openProxy =>
    apply h.modify name'
    intro st hst
    dsimp only
    omega
  | closeConnection =>
    have htotal : Known { m with curConns := lower m.curConns } name := h
    exact htotal.modify name' fun st hst => lower_nonneg hst

theorem conns_apply (h : Known m name) : (op.apply name m).conns name =
      m.conns name + op.change + (if Lost m name op then 1 else 0) := by
  obtain ⟨st, hst, hnonneg⟩ := h
  have hconns := conns_of_get hst
  cases op with
  | closeConnection =>
    have hclose : (m.closeConnection name).conns name = lower st.curConns :=
      conns_modify (m := { m with curConns := lower m.curConns }) hst _
    simp only [Op.apply, hclose, Lost, hconns, true_and, lower, Op.change]
    split_ifs <;> omega
  | openProxy =>
    have hopen : (m.openProxy name).conns name = st.curConns + 1 := conns_modify hst _
    simp [Op.apply, hopen, Lost, hconns, Op.change]
  | addProxyIn bytes =>
    have hadd : (m.addProxyIn name bytes).conns name = st.curConns := conns_modify hst _
    simp [Op.apply, hadd, Lost, hconns, Op.change]
  | addProxyOut bytes =>
    have hadd : (m.addProxyOut name bytes).conns name = st.curConns := conns_modify hst _
    simp [Op.apply, hadd, Lost, hconns, Op.change]
  | addTotalIn bytes => simp [Op.apply, Lost, Op.change, conns, addTotalIn]
  | addTotalOut bytes => simp [Op.apply, Lost, Op.change, conns, addTotalOut]
  | openTotal => simp [Op.apply, Lost, Op.change, conns, openTotal]

theorem conns_apply_of_ne {name' : String} (h : name ≠ name') :
    (op.apply name' m).conns name = m.conns name := by
  cases op with
  | addTotalIn | addTotalOut | openTotal => rfl
  | addProxyIn | addProxyOut | openProxy => exact conns_modify_of_ne h _
  | closeConnection => exact conns_modify_of_ne h _

end Apply

/-! ## Tasks -/

inductive Pc where
  | looking
  | doing (ops : List Op)
  deriving DecidableEq

structure Task where
  report : ProxyMetrics
  pc : Pc
  deriving DecidableEq

/-- The statistics, the tasks there have been, and for each proxy the closes that were lost. -/
structure State where
  metrics : ServerStatistics
  tasks : GoMap Nat Task
  lost : String → Nat

def init (m : ServerStatistics) : State := ⟨m, .empty, fun _ => 0⟩

inductive Action where
  /-- The dispatcher reads a report and starts task `i` for it. -/
  | receive (i : Nat) (r : ProxyMetrics)
  | look (i : Nat) (r : ProxyMetrics)
  | exec (i : Nat) (r : ProxyMetrics) (op : Op) (rest : List Op)

def Enabled (s : State) : Action → Prop
  | .receive i _ => s.tasks.get i = none
  | .look i r => s.tasks.get i = some ⟨r, .looking⟩
  | .exec i r op rest => s.tasks.get i = some ⟨r, .doing (op :: rest)⟩

instance (s : State) (a : Action) : Decidable (Enabled s a) := by
  cases a <;> dsimp only [Enabled] <;> infer_instance

def next (registered : String → Bool) (s : State) : Action → State
  | .receive i r => { s with tasks := s.tasks.insert i ⟨r, .looking⟩ }
  | .look i r => { s with tasks := s.tasks.insert i ⟨r, .doing (handleProxyMetrics registered r)⟩ }
  | .exec i r op rest =>
      { metrics := op.apply r.proxyName s.metrics
        tasks := s.tasks.insert i ⟨r, .doing rest⟩
        lost := if Lost s.metrics r.proxyName op
          then update s.lost r.proxyName (s.lost r.proxyName + 1) else s.lost }

def step (registered : String → Bool) : State → Action → Option State :=
  stepOf Enabled (next registered)

def reportedBy (name : String) (t : Task) : Int :=
  if t.report.proxyName = name then t.report.connsDelta else 0

def leftBy (name : String) (t : Task) : Int :=
  match t.pc with
  | .looking => reportedBy name t
  | .doing ops => if t.report.proxyName = name then changes ops else 0

def State.reported (s : State) (name : String) : Int := s.tasks.total (reportedBy name)

def State.left (s : State) (name : String) : Int := s.tasks.total (leftBy name)

def Idle (s : State) : Prop := ∀ i t, s.tasks.get i = some t → t.pc = .doing []

theorem idle_iff (s : State) :
    Idle s ↔ ∀ i ∈ s.tasks.keys, ∀ t ∈ s.tasks.get i, t.pc = .doing [] := by
  constructor
  · intro h i _ t ht
    exact h i t ht
  · intro h i t ht
    refine h i ((s.tasks.mem_keys i).2 ?_) t ht
    rw [ht]
    exact Option.some_ne_none t

instance (s : State) : Decidable (Idle s) := decidable_of_iff' _ (idle_iff s)

/-- Each report is handled before the next comes, and the sums so far are not negative. -/
def InOrder (name : String) (s : State) : Action → Prop
  | .receive _ r => Idle s ∧ 0 ≤ s.reported name + reportedBy name ⟨r, .looking⟩
  | _ => True

instance (name : String) (s : State) (a : Action) : Decidable (InOrder name s a) := by
  cases a <;> dsimp only [InOrder] <;> infer_instance

/-! ## The count in every run -/

section Count

variable {registered : String → Bool} {name : String} {s : State}

/-- The count, and what is left to do to it, are what was reported and what was lost. -/
structure Accounts (name : String) (s : State) : Prop where
  known : Known s.metrics name
  sum : s.metrics.conns name + s.left name = s.reported name + s.lost name

variable {m : ServerStatistics} {i : Nat}

theorem accounts_init (h : Known m name) (hzero : m.conns name = 0) : Accounts name (init m) := by
  refine ⟨h, ?_⟩
  have hleft : (init m).left name = 0 := GoMap.total_empty _
  have hreported : (init m).reported name = 0 := GoMap.total_empty _
  rw [hleft, hreported]
  exact congrArg (· + 0) hzero

theorem reported_insert (s : State) (name : String) (i : Nat) (t : Task) :
    (s.tasks.insert i t).total (reportedBy name) =
      s.reported name + (reportedBy name t - s.tasks.weight (reportedBy name) i) :=
  GoMap.total_insert ..

theorem left_insert (s : State) (name : String) (i : Nat) (t : Task) :
    (s.tasks.insert i t).total (leftBy name) =
      s.left name + (leftBy name t - s.tasks.weight (leftBy name) i) :=
  GoMap.total_insert ..

theorem reported_insert_of_get {pc : Pc} (h : s.tasks.get i = some ⟨r, pc⟩) (name : String)
    (pc' : Pc) : (s.tasks.insert i ⟨r, pc'⟩).total (reportedBy name) = s.reported name := by
  rw [reported_insert, GoMap.weight_of_get _ h]
  exact (congrArg (s.reported name + ·) (sub_self _)).trans (add_zero _)

variable {a : Action}

theorem accounts_next (hreg : registered name = true) (h : Accounts name s)
    (hen : Enabled s a) : Accounts name (next registered s a) := by
  have hsum := h.sum
  cases a with
  | receive i r =>
    refine ⟨h.known, ?_⟩
    have hnone : s.tasks.get i = none := hen
    have hleft := left_insert s name i ⟨r, .looking⟩
    have hreported := reported_insert s name i ⟨r, .looking⟩
    rw [GoMap.weight, hnone] at hleft hreported
    simp only [next, State.left, State.reported] at hsum ⊢
    rw [hleft, hreported, State.left, State.reported, leftBy]
    simp only [Option.elim_none]
    omega
  | look i r =>
    refine ⟨h.known, ?_⟩
    have hget : s.tasks.get i = some ⟨r, .looking⟩ := hen
    have hleft := left_insert s name i ⟨r, .doing (handleProxyMetrics registered r)⟩
    rw [GoMap.weight_of_get _ hget] at hleft
    -- the proxy is registered, so the steps are those of the report
    have hsame : leftBy name ⟨r, .doing (handleProxyMetrics registered r)⟩ =
        leftBy name ⟨r, .looking⟩ := by
      simp only [leftBy, reportedBy]
      split_ifs with hn
      · apply changes_handleProxyMetrics
        rw [hn]
        exact hreg
      · rfl
    rw [hsame, sub_self, add_zero] at hleft
    have hreported := reported_insert_of_get hget name
      (.doing (handleProxyMetrics registered r))
    simp only [next, State.left, State.reported] at hsum hleft hreported ⊢
    rw [hleft, hreported]
    exact hsum
  | exec i r op rest =>
    refine ⟨h.known.apply r.proxyName op, ?_⟩
    have hget : s.tasks.get i = some ⟨r, .doing (op :: rest)⟩ := hen
    have hleft := left_insert s name i ⟨r, .doing rest⟩
    rw [GoMap.weight_of_get _ hget] at hleft
    have hreported := reported_insert_of_get hget name (.doing rest)
    simp only [next, State.left, State.reported] at hsum hleft hreported ⊢
    rw [hleft, hreported]
    by_cases hn : r.proxyName = name
    · subst hn
      rw [conns_apply h.known]
      simp only [leftBy, if_true, changes_cons]
      split_ifs with hlost
      · rw [update_self]
        omega
      · omega
    · rw [conns_apply_of_ne (Ne.symm hn)]
      have hlost : (if Lost s.metrics r.proxyName op
          then update s.lost r.proxyName (s.lost r.proxyName + 1) else s.lost) name =
          s.lost name := by
        split_ifs
        · exact update_of_ne (Ne.symm hn) ..
        · rfl
      rw [hlost]
      simp only [leftBy, if_neg hn]
      omega

theorem left_of_idle (h : Idle s) : s.left name = 0 := by
  apply Finset.sum_eq_zero
  intro i hi
  obtain ⟨t, ht⟩ := Option.ne_none_iff_exists'.1 ((s.tasks.mem_keys i).1 hi)
  rw [GoMap.weight_of_get _ ht, leftBy, h i t ht]
  exact ite_self 0

theorem accounts_of_reach {ok : State → Action → Prop} (hreg : registered name = true)
    (hknown : Known m name) (hzero : m.conns name = 0) (h : Reach (step registered) ok (init m) s) :
    Accounts name s := by
  refine invariant_of_next (accounts_init hknown hzero) ?_ h
  intro u a hacc _ hen
  exact accounts_next hreg hacc hen

/-! ## One report after the other -/

/-- At most one report is being handled, and it opens connections or closes them. -/
structure Single (name : String) (s : State) : Prop where
  accounts : Accounts name s
  nonneg : 0 ≤ s.reported name
  none_lost : s.lost name = 0
  one : ∃ i, ∀ j t, s.tasks.get j = some t → j ≠ i → t.pc = .doing []
  oneWay : ∀ i r ops, s.tasks.get i = some ⟨r, .doing ops⟩ → .closeConnection ∈ ops →
    ∀ op ∈ ops, op.change ≤ 0

variable {ops : List Op}

theorem changes_nonpos (h : ∀ op ∈ ops, op.change ≤ 0) : changes ops ≤ 0 := by
  induction ops with
  | nil => exact le_refl 0
  | cons op ops ih =>
    have hop := h op List.mem_cons_self
    have hops := ih fun op' hop' => h op' (List.mem_cons_of_mem op hop')
    rw [changes_cons]
    omega

variable {t : Task}

theorem left_eq_of_one (ht : s.tasks.get i = some t)
    (h : ∀ j t, s.tasks.get j = some t → j ≠ i → t.pc = .doing []) :
    s.left name = leftBy name t := by
  have hi : i ∈ s.tasks.keys := by
    apply (s.tasks.mem_keys i).2
    rw [ht]
    exact Option.some_ne_none t
  rw [← GoMap.weight_of_get (leftBy name) ht]
  apply Finset.sum_eq_single_of_mem i hi
  intro j hj hne
  obtain ⟨t', ht'⟩ := Option.ne_none_iff_exists'.1 ((s.tasks.mem_keys j).1 hj)
  rw [GoMap.weight_of_get _ ht', leftBy, h j t' ht' hne]
  exact ite_self 0

theorem Single.rest_done (h : Single name s) (ht : s.tasks.get i = some t)
    (hpc : t.pc ≠ .doing []) : ∀ j t, s.tasks.get j = some t → j ≠ i → t.pc = .doing [] := by
  obtain ⟨k, hk⟩ := h.one
  have hik : i = k := by
    by_contra hne
    exact hpc (hk i t ht hne)
  rw [hik]
  exact hk

theorem Single.not_lost (h : Single name s) {rest : List Op}
    (hget : s.tasks.get i = some ⟨r, .doing (op :: rest)⟩) (hn : r.proxyName = name) :
    ¬ Lost s.metrics r.proxyName op := by
  rintro ⟨rfl, hzero⟩
  -- the whole count to come is reported less at least one
  have hleft : s.left name = changes (.closeConnection :: rest) := by
    rw [left_eq_of_one hget (h.rest_done hget nofun), leftBy]
    exact if_pos hn
  have hops := h.oneWay i r _ hget List.mem_cons_self
  have hrest := changes_nonpos fun op hop => hops op (List.mem_cons_of_mem _ hop)
  have hsum := h.accounts.sum
  have hnonneg := h.nonneg
  rw [hleft, changes_cons, h.none_lost] at hsum
  rw [hn] at hzero
  simp only [Op.change] at hsum
  omega

theorem Single.one_insert (h : Single name s) {t' : Task} (ht : s.tasks.get i = some t)
    (hpc : t.pc ≠ .doing []) :
    ∃ k, ∀ j u, (s.tasks.insert i t').get j = some u → j ≠ k → u.pc = .doing [] := by
  refine ⟨i, ?_⟩
  intro j u hu hne
  rw [GoMap.get_insert, if_neg hne] at hu
  exact h.rest_done ht hpc j u hu hne

theorem oneWay_insert (h : Single name s)
    (hops : .closeConnection ∈ ops → ∀ op ∈ ops, op.change ≤ 0) :
    ∀ j r' ops', (s.tasks.insert i ⟨r, .doing ops⟩).get j = some ⟨r', .doing ops'⟩ →
      .closeConnection ∈ ops' → ∀ op ∈ ops', op.change ≤ 0 := by
  intro j r' ops' hj
  rw [GoMap.get_insert] at hj
  split_ifs at hj
  · cases hj
    exact hops
  · exact h.oneWay j r' ops' hj

theorem single_next (hreg : registered name = true) (h : Single name s)
    (hok : InOrder name s a) (hen : Enabled s a) : Single name (next registered s a) := by
  have hacc := accounts_next hreg h.accounts hen
  cases a with
  | receive i r =>
    obtain ⟨hidle, hnonneg⟩ := hok
    have hnone : s.tasks.get i = none := hen
    have hreported := reported_insert s name i ⟨r, .looking⟩
    rw [GoMap.weight, hnone] at hreported
    refine ⟨hacc, ?_, h.none_lost, ⟨i, ?_⟩, ?_⟩
    · exact hnonneg.trans_eq (hreported.trans (congrArg _ (sub_zero _))).symm
    · intro j t ht hne
      rw [next, GoMap.get_insert, if_neg hne] at ht
      exact hidle j t ht
    · intro j r' ops hj
      rw [next, GoMap.get_insert] at hj
      split_ifs at hj
      · cases hj
      · exact h.oneWay j r' ops hj
  | look i r =>
    have hget : s.tasks.get i = some ⟨r, .looking⟩ := hen
    exact ⟨hacc, h.nonneg.trans_eq (reported_insert_of_get hget name _).symm, h.none_lost,
      h.one_insert hget (by rintro ⟨⟩), oneWay_insert h change_nonpos_of_close⟩
  | exec i r op rest =>
    have hget : s.tasks.get i = some ⟨r, .doing (op :: rest)⟩ := hen
    refine ⟨hacc, h.nonneg.trans_eq (reported_insert_of_get hget name _).symm, ?_,
      h.one_insert hget (by rintro ⟨⟩), oneWay_insert h ?_⟩
    · simp only [next]
      by_cases hn : r.proxyName = name
      · rw [if_neg (h.not_lost hget hn)]
        exact h.none_lost
      · split_ifs
        · rw [update_of_ne (Ne.symm hn)]
          exact h.none_lost
        · exact h.none_lost
    · intro hclose op' hop'
      exact h.oneWay i r _ hget (List.mem_cons_of_mem op hclose) op' (List.mem_cons_of_mem op hop')

theorem single_of_reach (hreg : registered name = true) (hknown : Known m name)
    (hzero : m.conns name = 0) (h : Reach (step registered) (InOrder name) (init m) s) :
    Single name s := by
  refine invariant_of_next ?_ ?_ h
  · refine ⟨accounts_init hknown hzero, ?_, rfl, ⟨0, ?_⟩, ?_⟩
    · exact (GoMap.total_empty _).ge
    · intro j t ht
      cases ht
    · intro i r ops hi
      cases hi
  · intro u a hsingle hok hen
    exact single_next hreg hsingle hok hen

end Count

/-! ## Two reports -/

def openedA : ServerStatistics := newServerMetrics.newProxy "a" "xtcp+xudp" "" "" 0

def onlyA (name : String) : Bool := name = "a"

def opened : ProxyMetrics := ⟨"a", 1, 0, 0⟩

def closed : ProxyMetrics := ⟨"a", -1, 10, 20⟩

def handleOpened : List Action :=
  [.look 0 opened, .exec 0 opened .openTotal [.openProxy], .exec 0 opened .openProxy []]

def handleClosed : List Action :=
  [.look 1 closed,
    .exec 1 closed (.addTotalIn 10)
      [.addProxyIn 10, .addTotalOut 20, .addProxyOut 20, .closeConnection],
    .exec 1 closed (.addProxyIn 10) [.addTotalOut 20, .addProxyOut 20, .closeConnection],
    .exec 1 closed (.addTotalOut 20) [.addProxyOut 20, .closeConnection],
    .exec 1 closed (.addProxyOut 20) [.closeConnection],
    .exec 1 closed .closeConnection []]

def inOrderRun : List Action :=
  (.receive 0 opened :: handleOpened).append (.receive 1 closed :: handleClosed)

def reversedRun : List Action :=
  .receive 0 opened :: .receive 1 closed :: handleClosed.append handleOpened

end Reports

end FrpMeo.Metrics
