import FrpMeo.Lib.Transition
import FrpMeo.Metrics.Mem

/-!
# The total of the connections

The server counts its connections in one total and for each proxy (`CurConns` in
`pkg/metrics/mem/server.go`). A connection may be closed after its proxy. `CloseProxy` takes the
connections that are left out of both counts; a later `CloseConnection` takes one from the total all
the same if others have connections.
-/

namespace FrpMeo.Metrics.Connections

open Lib Lib.Transition ServerStatistics Function

inductive Stage where
  /-- In `OpenConnection`, with the total counted. -/
  | opening
  | opened
  | closed
  deriving DecidableEq

structure Conn where
  name : String
  stage : Stage
  deriving DecidableEq

structure State where
  metrics : ServerStatistics
  registered : String → Bool
  conns : GoMap Nat Conn
  clock : Int

def init (clock : Int) : State := ⟨newServerMetrics, fun _ => false, .empty, clock⟩

inductive Action where
  | newProxy (name proxyType user clientID : String) (now : Int)
  | closeProxy (name proxyType : String) (now : Int)
  | openTotal (c : Nat) (name : String)
  | openProxy (c : Nat) (name : String)
  | closeConnection (c : Nat) (name : String)
  | clear (offline now : Int)

def State.NoneOpening (s : State) (name : String) : Prop :=
  ∀ c ∈ s.conns.keys, s.conns.get c ≠ some ⟨name, .opening⟩

instance (s : State) (name : String) : Decidable (s.NoneOpening name) :=
  inferInstanceAs (Decidable (∀ c ∈ s.conns.keys, s.conns.get c ≠ some ⟨name, .opening⟩))

def Enabled (s : State) : Action → Prop
  | .newProxy _ _ _ _ now => s.clock ≤ now
  | .closeProxy name _ now => s.clock ≤ now ∧ s.NoneOpening name
  | .openTotal c name => s.conns.get c = none ∧ s.registered name = true
  | .openProxy c name => s.conns.get c = some ⟨name, .opening⟩
  | .closeConnection c name => s.conns.get c = some ⟨name, .opened⟩
  | .clear _ now => s.clock ≤ now

instance (s : State) (a : Action) : Decidable (Enabled s a) := by
  cases a <;> dsimp only [Enabled] <;> infer_instance

def next (s : State) : Action → State
  | .newProxy name proxyType user clientID now =>
      { s with
        metrics := s.metrics.newProxy name proxyType user clientID now
        registered := update s.registered name true
        clock := now }
  | .closeProxy name proxyType now =>
      { s with
        metrics := s.metrics.closeProxy name proxyType now
        registered := update s.registered name false
        clock := now }
  | .openTotal c name =>
      { s with metrics := s.metrics.openTotal, conns := s.conns.insert c ⟨name, .opening⟩ }
  | .openProxy c name =>
      { s with metrics := s.metrics.openProxy name, conns := s.conns.insert c ⟨name, .opened⟩ }
  | .closeConnection c name =>
      { s with
        metrics := s.metrics.closeConnection name, conns := s.conns.insert c ⟨name, .closed⟩ }
  | .clear offline now => { s with metrics := s.metrics.clearUselessInfo offline now, clock := now }

def step : State → Action → Option State := stepOf Enabled next

def Conn.pending (c : Conn) : Int := if c.stage = .opening then 1 else 0

theorem pending_opening (name : String) : Conn.pending ⟨name, .opening⟩ = 1 := rfl

theorem pending_opened (name : String) : Conn.pending ⟨name, .opened⟩ = 0 := rfl

def Balanced (s : State) : Prop :=
  s.metrics.curConns = s.metrics.allConns + s.conns.total Conn.pending

/-- A closed connection is counted for its proxy or nothing is; a counted type does not change. -/
def Charges (s : State) : Action → Prop
  | .closeConnection _ name => 0 < s.metrics.curConns → 0 < s.metrics.conns name
  | .newProxy name proxyType _ _ _ =>
      ∀ st, s.metrics.proxyStatistics.get name = some st → st.proxyType ≠ proxyType →
        st.curConns = 0
  | _ => True

instance (s : State) (a : Action) : Decidable (Charges s a) := by
  cases a <;> dsimp only [Charges] <;> infer_instance

/-! ## What holds in every run -/

structure EntryOk (registered : Bool) (clock : Int) (st : ProxyStatistics) : Prop where
  nonneg : 0 ≤ st.curConns
  offline : registered = false → st.curConns = 0
  started : registered = true → ∃ t, st.lastStartTime = some t ∧
    ∀ u, st.lastCloseTime = some u → u ≤ t
  past : ∀ u, st.lastCloseTime = some u → u ≤ clock

structure Good (s : State) : Prop where
  entry : ∀ n st, s.metrics.proxyStatistics.get n = some st →
    EntryOk (s.registered n) s.clock st
  known : ∀ n, s.registered n = true → s.metrics.proxyStatistics.get n ≠ none
  opening : ∀ c n, s.conns.get c = some ⟨n, .opening⟩ → s.registered n = true

theorem good_init (clock : Int) : Good (init clock) where
  entry := by
    intro n st h
    cases h
  known := by
    intro n h
    cases h
  opening := by
    intro c n h
    cases h

theorem balanced_init {clock : Int} : Balanced (init clock) := by
  have hconns : (init clock).metrics.allConns = 0 := GoMap.total_empty _
  have hpending : (init clock).conns.total Conn.pending = 0 := GoMap.total_empty _
  rw [Balanced, hconns, hpending]
  rfl

variable {st : ProxyStatistics}

theorem EntryOk.later {registered : Bool} {clock now : Int}
    (h : EntryOk registered clock st) (hle : clock ≤ now) : EntryOk registered now st :=
  { h with past := fun u hu => (h.past u hu).trans hle }

theorem EntryOk.not_shouldClear {clock offline now : Int}
    (h : EntryOk true clock st) : shouldClear st offline now = false := by
  obtain ⟨t, ht, hle⟩ := h.started rfl
  cases hu : st.lastCloseTime with
  | none => simp [shouldClear, hu]
  | some u =>
    have hnot : ¬ t < u := not_lt.2 (hle u hu)
    simp [shouldClear, hu, ht, hnot]

section Steps

variable {s : State}

theorem Good.write (h : Good s) {t : State} (name : String) (st : ProxyStatistics)
    (hget : ∀ n, t.metrics.proxyStatistics.get n =
      if n = name then some st else s.metrics.proxyStatistics.get n)
    (hreg : ∀ n, n ≠ name → t.registered n = s.registered n) (hclock : s.clock ≤ t.clock)
    (hst : EntryOk (t.registered name) t.clock st)
    (hopen : ∀ c n, t.conns.get c = some ⟨n, .opening⟩ → t.registered n = true) : Good t := by
  refine ⟨?_, ?_, hopen⟩
  · intro n st' hst'
    rw [hget] at hst'
    split_ifs at hst' with hn
    · obtain rfl := Option.some.inj hst'
      rw [hn]
      exact hst
    · rw [hreg n hn]
      exact (h.entry n st' hst').later hclock
  · intro n hn
    rw [hget]
    split_ifs with hname
    · exact Option.some_ne_none st
    · rw [hreg n hname] at hn
      exact h.known n hn

theorem statsFor_cases {m : ServerStatistics} {name proxyType : String} :
    (∃ st, m.proxyStatistics.get name = some st ∧ st.proxyType = proxyType ∧
        m.statsFor name proxyType = st) ∨
      (m.statsFor name proxyType = newProxyStatistics name proxyType ∧
        ∀ st, m.proxyStatistics.get name = some st → st.proxyType ≠ proxyType) := by
  unfold statsFor
  cases h : m.proxyStatistics.get name with
  | none =>
    right
    refine ⟨rfl, ?_⟩
    intro st hst
    cases hst
  | some st =>
    by_cases htype : st.proxyType = proxyType
    · left
      exact ⟨st, rfl, htype, by simp [htype]⟩
    · right
      refine ⟨by simp [htype], ?_⟩
      intro st' hst'
      cases hst'
      exact htype

variable {now : Int}

theorem Good.newProxy (h : Good s) (name proxyType user clientID : String)
    (hnow : s.clock ≤ now) : Good (next s (.newProxy name proxyType user clientID now)) := by
  have hself : (next s (.newProxy name proxyType user clientID now)).registered name = true :=
    update_self ..
  refine h.write name _ (fun n => GoMap.get_insert ..) (fun n hn => update_of_ne hn ..)
    hnow ?_ ?_
  · rw [hself]
    -- the start is now, and every close was before
    rcases statsFor_cases with ⟨st, hst, -, hsame⟩ | ⟨hnew, -⟩
    · have hold := (h.entry name st hst).later hnow
      rw [hsame]
      refine ⟨hold.nonneg, nofun, fun _ => ⟨now, rfl, hold.past⟩, hold.past⟩
    · rw [hnew]
      refine ⟨le_refl _, nofun, fun _ => ⟨now, rfl, ?_⟩, ?_⟩ <;> rintro u ⟨⟩
  · intro c n hc
    by_cases hn : n = name
    · rw [hn]
      exact hself
    · exact (update_of_ne hn ..).trans (h.opening c n hc)

variable {name : String}

theorem Good.closeProxy (h : Good s) (proxyType : String)
    (hnow : s.clock ≤ now) (hnone : s.NoneOpening name) :
    Good (next s (.closeProxy name proxyType now)) := by
  have hself : (next s (.closeProxy name proxyType now)).registered name = false :=
    update_self ..
  have hother : ∀ n, n ≠ name →
      (next s (.closeProxy name proxyType now)).registered n = s.registered n :=
    fun n hn => update_of_ne hn ..
  have hopen : ∀ c n, s.conns.get c = some ⟨n, .opening⟩ →
      (next s (.closeProxy name proxyType now)).registered n = true := by
    intro c n hc
    have hn : n ≠ name := by
      rintro rfl
      refine hnone c ((s.conns.mem_keys c).2 ?_) hc
      rw [hc]
      exact Option.some_ne_none _
    rw [hother n hn]
    exact h.opening c n hc
  cases hst : s.metrics.proxyStatistics.get name with
  | none =>
    have hstats : (next s (.closeProxy name proxyType now)).metrics.proxyStatistics =
        s.metrics.proxyStatistics := by
      simp only [next, ServerStatistics.closeProxy, hst]
    refine ⟨?_, ?_, hopen⟩
    · intro n st hn
      rw [hstats] at hn
      have hne : n ≠ name := by
        rintro rfl
        rw [hst] at hn
        cases hn
      rw [hother n hne]
      exact (h.entry n st hn).later hnow
    · intro n hn
      rw [hstats]
      apply h.known
      rw [← hother n]
      · exact hn
      · rintro rfl
        rw [hself] at hn
        cases hn
  | some st =>
    have hold := h.entry name st hst
    refine h.write name { st with
        lastCloseTime := some now
        curConns := if 0 < st.curConns then 0 else st.curConns } ?_ hother hnow ?_ hopen
    · intro n
      simp only [next, ServerStatistics.closeProxy, hst]
      exact GoMap.get_insert ..
    · rw [hself]
      have hzero : (if 0 < st.curConns then 0 else st.curConns) = 0 := by
        have hnonneg := hold.nonneg
        split_ifs
        · rfl
        · omega
      refine ⟨hzero.ge, fun _ => hzero, nofun, ?_⟩
      rintro u ⟨⟩
      exact le_refl now

variable {c : Nat}

theorem Good.connection (h : Good s) {conn : Conn} (name : String)
    {m : ServerStatistics} {f : ProxyStatistics → ProxyStatistics}
    (hm : ∀ n, m.proxyStatistics.get n = if n = name then (s.metrics.proxyStatistics.get name).map f
      else s.metrics.proxyStatistics.get n)
    (hf : ∀ st, s.metrics.proxyStatistics.get name = some st →
      EntryOk (s.registered name) s.clock (f st))
    (hconn : ∀ n, conn = ⟨n, .opening⟩ → s.registered n = true) :
    Good { s with metrics := m, conns := s.conns.insert c conn } := by
  have hopen : ∀ c' n, (s.conns.insert c conn).get c' = some ⟨n, .opening⟩ →
      s.registered n = true := by
    intro c' n hc'
    rw [GoMap.get_insert] at hc'
    split_ifs at hc'
    · exact hconn n (Option.some.inj hc')
    · exact h.opening c' n hc'
  cases hst : s.metrics.proxyStatistics.get name with
  | none =>
    have hsame : ∀ n, m.proxyStatistics.get n = s.metrics.proxyStatistics.get n := by
      intro n
      rw [hm]
      split_ifs with hn
      · rw [hn, hst]
        rfl
      · rfl
    refine ⟨?_, ?_, hopen⟩
    · intro n st hn
      exact h.entry n st ((hsame n).symm.trans hn)
    · intro n hn
      rw [hsame]
      exact h.known n hn
  | some st =>
    refine h.write name (f st) ?_ (fun _ _ => rfl) (le_refl _) (hf st hst) hopen
    intro n
    rw [hm, hst]
    rfl

theorem get_closeConnection (m : ServerStatistics) (name n : String) :
    (m.closeConnection name).proxyStatistics.get n =
      if n = name then (m.proxyStatistics.get name).map fun st =>
        { st with curConns := lower st.curConns }
      else m.proxyStatistics.get n :=
  get_modify ..

theorem Good.closeConnection (h : Good s) (c : Nat) (name : String) :
    Good (next s (.closeConnection c name)) := by
  refine h.connection name (get_closeConnection s.metrics name) ?_ ?_
  · intro st hst
    have hold := h.entry name st hst
    refine ⟨lower_nonneg hold.nonneg, ?_, hold.started, hold.past⟩
    intro hoff
    rw [hold.offline hoff]
    rfl
  · rintro n ⟨⟩

variable {a : Action}

theorem good_next (h : Good s) (hen : Enabled s a) : Good (next s a) := by
  cases a with
  | newProxy name proxyType user clientID now => exact h.newProxy name proxyType user clientID hen
  | closeProxy name proxyType now => exact h.closeProxy proxyType hen.1 hen.2
  | openTotal c name =>
    refine h.connection name (f := id) ?_ ?_ ?_
    · intro n
      simp only [Option.map_id, id_eq]
      split_ifs with hn
      · rw [hn]
        rfl
      · rfl
    · exact h.entry name
    · rintro n ⟨⟩
      exact hen.2
  | openProxy c name =>
    refine h.connection name (get_modify s.metrics name · _) ?_ ?_
    · intro st hst
      have hold := h.entry name st hst
      have hreg := h.opening c name hen
      refine ⟨by have := hold.nonneg; dsimp only; omega, ?_, hold.started, hold.past⟩
      intro hoff
      rw [hreg] at hoff
      cases hoff
    · rintro n ⟨⟩
  | closeConnection c name => exact h.closeConnection c name
  | clear offline now =>
    have hnow : s.clock ≤ now := hen
    refine ⟨?_, ?_, h.opening⟩
    · intro n st hn
      obtain ⟨hold, -⟩ := Option.filter_eq_some_iff.1 hn
      exact (h.entry n st hold).later hnow
    · intro n hn
      obtain ⟨st, hst⟩ := Option.ne_none_iff_exists'.1 (h.known n hn)
      have hok := h.entry n st hst
      rw [show s.registered n = true from hn] at hok
      have hkept : (s.metrics.clearUselessInfo offline now).proxyStatistics.get n = some st := by
        apply Option.filter_eq_some_iff.2
        exact ⟨hst, by rw [hok.not_shouldClear]; rfl⟩
      exact fun hnone => Option.some_ne_none st (hkept.symm.trans hnone)

/-! ## The two counts -/

theorem Good.conns_nonneg (h : Good s) (name : String) : 0 ≤ s.metrics.conns name :=
  GoMap.weight_nonneg (fun n st hst => (h.entry n st hst).nonneg) name

theorem Good.conns_le_allConns (h : Good s) (name : String) :
    s.metrics.conns name ≤ s.metrics.allConns :=
  GoMap.weight_le_total (fun n st hst => (h.entry n st hst).nonneg) name

theorem pending_nonneg (s : State) : 0 ≤ s.conns.total Conn.pending := by
  apply GoMap.total_nonneg
  intro c conn _
  unfold Conn.pending
  split_ifs <;> omega

theorem pending_insert (s : State) (c : Nat) (conn : Conn) :
    (s.conns.insert c conn).total Conn.pending =
      s.conns.total Conn.pending + (conn.pending - s.conns.weight Conn.pending c) :=
  GoMap.total_insert ..

theorem conns_statsFor_iff {m : ServerStatistics} {proxyType : String} :
    (m.statsFor name proxyType).curConns = m.conns name ↔
      ∀ st, m.proxyStatistics.get name = some st → st.proxyType ≠ proxyType → st.curConns = 0 := by
  rcases statsFor_cases with ⟨st, hst, htype, hsame⟩ | ⟨hnew, hother⟩
  · rw [hsame, conns_of_get hst]
    refine ⟨fun _ st' hst' hne => ?_, fun _ => rfl⟩
    rw [hst] at hst'
    obtain rfl := Option.some.inj hst'
    exact absurd htype hne
  · rw [hnew]
    constructor
    · intro hzero st hst _
      rw [← conns_of_get hst]
      exact hzero.symm
    · intro hall
      cases hst : m.proxyStatistics.get name with
      | none => simp [conns, GoMap.weight, hst, newProxyStatistics]
      | some st =>
        rw [conns_of_get hst, hall st hst (hother st hst)]
        rfl

theorem balanced_newProxy_iff (h : Balanced s) {proxyType user clientID : String} :
    Balanced (next s (.newProxy name proxyType user clientID now)) ↔
      Charges s (.newProxy name proxyType user clientID now) := by
  have hall : (s.metrics.newProxy name proxyType user clientID now).allConns =
      s.metrics.allConns +
        ((s.metrics.statsFor name proxyType).curConns - s.metrics.conns name) :=
    GoMap.total_insert ..
  apply Iff.trans _ (conns_statsFor_iff)
  unfold Balanced at h ⊢
  simp only [next, hall]
  change s.metrics.curConns = _ ↔ _
  omega

theorem Balanced.closeProxy (h : Balanced s) (hgood : Good s) (name proxyType : String)
    (now : Int) : Balanced (next s (.closeProxy name proxyType now)) := by
  cases hst : s.metrics.proxyStatistics.get name with
  | none =>
    have hmetrics : s.metrics.closeProxy name proxyType now =
        { s.metrics with proxyTypeCounts := s.metrics.closeType proxyType } := by
      simp only [ServerStatistics.closeProxy, hst]
    simp only [next, hmetrics]
    exact h
  | some st =>
    -- both counts lose what was left
    have hnonneg := (hgood.entry name st hst).nonneg
    have hmetrics : s.metrics.closeProxy name proxyType now =
        { s.metrics with
          proxyTypeCounts := s.metrics.closeType proxyType
          curConns := s.metrics.curConns - st.curConns
          proxyStatistics := s.metrics.proxyStatistics.insert name
            { st with lastCloseTime := some now, curConns := 0 } } := by
      have hzero : (if 0 < st.curConns then 0 else st.curConns) = 0 := by
        split_ifs <;> omega
      have htotal : (if 0 < st.curConns then s.metrics.curConns - st.curConns
          else s.metrics.curConns) = s.metrics.curConns - st.curConns := by
        split_ifs <;> omega
      simp only [ServerStatistics.closeProxy, hst, hzero, htotal]
    have hall : (s.metrics.closeProxy name proxyType now).allConns =
        s.metrics.allConns + (0 - st.curConns) := by
      rw [hmetrics, ← conns_of_get hst]
      exact GoMap.total_insert ..
    have hcur : (s.metrics.closeProxy name proxyType now).curConns =
        s.metrics.curConns - st.curConns := by
      rw [hmetrics]
    unfold Balanced at h ⊢
    simp only [next, hall, hcur]
    omega

theorem allConns_closeConnection (m : ServerStatistics) :
    (m.closeConnection name).allConns = m.allConns + (lower (m.conns name) - m.conns name) := by
  cases hst : m.proxyStatistics.get name with
  | none =>
    have hzero : m.conns name = 0 := by
      rw [conns, GoMap.weight, hst]
      rfl
    have hsame : m.closeConnection name = { m with curConns := lower m.curConns } :=
      modify_of_none (m := { m with curConns := lower m.curConns }) hst _
    rw [hsame, hzero]
    exact (add_zero m.allConns).symm
  | some st =>
    rw [conns_of_get hst]
    exact allConns_modify (m := { m with curConns := lower m.curConns }) hst _

/-- One is taken from both counts or from neither, unless the proxy has none and others have. -/
theorem balanced_closeConnection_iff (h : Balanced s) (hgood : Good s)
    (hc : s.conns.get c = some ⟨name, .opened⟩) :
    Balanced (next s (.closeConnection c name)) ↔ Charges s (.closeConnection c name) := by
  have hpending : (s.conns.insert c ⟨name, .closed⟩).total Conn.pending =
      s.conns.total Conn.pending := by
    rw [pending_insert, GoMap.weight_of_get _ hc]
    exact add_zero _
  have hcur : (s.metrics.closeConnection name).curConns = lower s.metrics.curConns :=
    curConns_modify ..
  have hnonneg := hgood.conns_nonneg name
  have hle := hgood.conns_le_allConns name
  have hrest := pending_nonneg s
  unfold Balanced at h ⊢
  simp only [next, Charges, allConns_closeConnection, hpending, hcur, lower]
  split_ifs <;> omega

theorem balanced_next_iff (h : Balanced s) (hgood : Good s) (hen : Enabled s a) :
    Balanced (next s a) ↔ Charges s a := by
  cases a with
  | newProxy name proxyType user clientID now =>
    exact balanced_newProxy_iff h
  | closeProxy name proxyType now =>
    exact iff_of_true (h.closeProxy hgood name proxyType now) trivial
  | openTotal c name =>
    apply iff_of_true _ trivial
    have hpending := pending_insert s c ⟨name, .opening⟩
    rw [GoMap.weight, hen.1] at hpending
    have htotal : s.metrics.openTotal.allConns = s.metrics.allConns := rfl
    unfold Balanced at h ⊢
    simp only [next, hpending, htotal]
    simp only [ServerStatistics.openTotal, pending_opening, Option.elim_none]
    omega
  | openProxy c name =>
    apply iff_of_true _ trivial
    -- a connection is opened for a proxy that has statistics
    obtain ⟨st, hst⟩ := Option.ne_none_iff_exists'.1 (hgood.known name (hgood.opening c name hen))
    have hpending := pending_insert s c ⟨name, .opened⟩
    rw [GoMap.weight_of_get _ hen] at hpending
    unfold Balanced at h ⊢
    simp only [next, hpending, ServerStatistics.openProxy, allConns_modify hst, curConns_modify,
      pending_opening, pending_opened]
    omega
  | closeConnection c name => exact balanced_closeConnection_iff h hgood hen
  | clear offline now =>
    apply iff_of_true _ trivial
    have hall : (s.metrics.clearUselessInfo offline now).allConns = s.metrics.allConns := by
      apply GoMap.total_filter
      intro n st hst hclear
      -- what is dropped was not registered, so nothing is counted for it
      have hok := hgood.entry n st hst
      apply hok.offline
      by_contra hreg
      rw [Bool.not_eq_false] at hreg
      rw [hreg] at hok
      rw [hok.not_shouldClear] at hclear
      cases hclear
    unfold Balanced at h ⊢
    simp only [next, hall]
    exact h

end Steps

theorem balanced_of_reach {clock : Int} {s : State} (h : Reach step Charges (init clock) s) :
    Balanced s ∧ Good s := by
  refine invariant_of_next (P := fun s => Balanced s ∧ Good s)
    ⟨balanced_init, good_init clock⟩ ?_ h
  intro u a hinv hok hen
  exact ⟨(balanced_next_iff hinv.1 hinv.2 hen).2 hok, good_next hinv.2 hen⟩

def Quiet (s : State) : Prop := ∀ c n, s.conns.get c ≠ some ⟨n, .opening⟩

theorem pending_of_quiet {s : State} (h : Quiet s) : s.conns.total Conn.pending = 0 := by
  apply Finset.sum_eq_zero
  intro c _
  cases hc : s.conns.get c with
  | none =>
    rw [GoMap.weight, hc]
    rfl
  | some conn =>
    rw [GoMap.weight_of_get _ hc]
    apply if_neg
    intro hstage
    apply h c conn.name
    rw [hc, ← hstage]

theorem quiet_of_keys {s : State}
    (h : ∀ c ∈ s.conns.keys, ∀ conn ∈ s.conns.get c, conn.stage ≠ .opening) : Quiet s := by
  intro c n hc
  have hmem : c ∈ s.conns.keys := by
    apply (s.conns.mem_keys c).2
    rw [hc]
    exact Option.some_ne_none _
  exact h c hmem _ hc rfl

def reopenedRun : List Action :=
  [.newProxy "a" "tcp" "" "" 0, .openTotal 0 "a", .openProxy 0 "a", .closeProxy "a" "tcp" 1,
    .closeConnection 0 "a", .newProxy "a" "tcp" "" "" 2, .openTotal 1 "a", .openProxy 1 "a"]

def lateRun : List Action :=
  [.newProxy "a" "tcp" "" "" 0, .newProxy "b" "tcp" "" "" 0, .openTotal 0 "a", .openProxy 0 "a",
    .openTotal 1 "b", .openProxy 1 "b", .closeProxy "a" "tcp" 1, .closeConnection 0 "a"]

end FrpMeo.Metrics.Connections
