import FrpMeo.Lib.Tally

/-!
# The statistics of the server

`serverMetrics` of `pkg/metrics/mem/server.go`: counters for the server and each type of proxy, and
statistics for each proxy. Each access to the latter is a step; the totals are moved before the
lock. Counters are integers (`int32` in the source), and a zero `time.Time` is `none`.
-/

namespace FrpMeo.Metrics

open Lib Function

structure ProxyStatistics where
  name : String
  proxyType : String
  user : String
  clientID : String
  trafficIn : Int
  trafficOut : Int
  curConns : Int
  lastStartTime : Option Int
  lastCloseTime : Option Int
  deriving DecidableEq

structure ServerStatistics where
  totalTrafficIn : Int
  totalTrafficOut : Int
  curConns : Int
  proxyTypeCounts : String → Option Int
  proxyStatistics : GoMap String ProxyStatistics

def newServerMetrics : ServerStatistics where
  totalTrafficIn := 0
  totalTrafficOut := 0
  curConns := 0
  proxyTypeCounts := fun _ => none
  proxyStatistics := .empty

def newProxyStatistics (name proxyType : String) : ProxyStatistics where
  name := name
  proxyType := proxyType
  user := ""
  clientID := ""
  trafficIn := 0
  trafficOut := 0
  curConns := 0
  lastStartTime := none
  lastCloseTime := none

namespace ServerStatistics

/-- The statistics of the name, new ones if it has none or has another type. -/
def statsFor (m : ServerStatistics) (name proxyType : String) : ProxyStatistics :=
  match m.proxyStatistics.get name with
  | some st => if st.proxyType = proxyType then st else newProxyStatistics name proxyType
  | none => newProxyStatistics name proxyType

def newProxy (m : ServerStatistics) (name proxyType user clientID : String) (now : Int) :
    ServerStatistics :=
  { m with
    proxyTypeCounts := update m.proxyTypeCounts proxyType
      (some ((m.proxyTypeCounts proxyType).getD 0 + 1))
    proxyStatistics := m.proxyStatistics.insert name
      { m.statsFor name proxyType with user, clientID, lastStartTime := some now } }

def closeType (m : ServerStatistics) (proxyType : String) : String → Option Int :=
  update m.proxyTypeCounts proxyType ((m.proxyTypeCounts proxyType).map (· - 1))

def closeProxy (m : ServerStatistics) (name proxyType : String) (now : Int) : ServerStatistics :=
  match m.proxyStatistics.get name with
  | none => { m with proxyTypeCounts := m.closeType proxyType }
  | some st =>
      -- connections that are still counted are taken back
      { m with
        proxyTypeCounts := m.closeType proxyType
        curConns := if 0 < st.curConns then m.curConns - st.curConns else m.curConns
        proxyStatistics := m.proxyStatistics.insert name
          { st with
            lastCloseTime := some now
            curConns := if 0 < st.curConns then 0 else st.curConns } }

def modify (m : ServerStatistics) (name : String) (f : ProxyStatistics → ProxyStatistics) :
    ServerStatistics :=
  match m.proxyStatistics.get name with
  | none => m
  | some st => { m with proxyStatistics := m.proxyStatistics.insert name (f st) }

def openTotal (m : ServerStatistics) : ServerStatistics := { m with curConns := m.curConns + 1 }

def openProxy (m : ServerStatistics) (name : String) : ServerStatistics :=
  m.modify name fun st => { st with curConns := st.curConns + 1 }

def lower (count : Int) : Int := if 0 < count then count - 1 else count

def closeConnection (m : ServerStatistics) (name : String) : ServerStatistics :=
  { m with curConns := lower m.curConns }.modify name
    fun st => { st with curConns := lower st.curConns }

def addTotalIn (m : ServerStatistics) (bytes : Int) : ServerStatistics :=
  { m with totalTrafficIn := m.totalTrafficIn + bytes }

def addProxyIn (m : ServerStatistics) (name : String) (bytes : Int) : ServerStatistics :=
  m.modify name fun st => { st with trafficIn := st.trafficIn + bytes }

def addTotalOut (m : ServerStatistics) (bytes : Int) : ServerStatistics :=
  { m with totalTrafficOut := m.totalTrafficOut + bytes }

def addProxyOut (m : ServerStatistics) (name : String) (bytes : Int) : ServerStatistics :=
  m.modify name fun st => { st with trafficOut := st.trafficOut + bytes }

def shouldClear (st : ProxyStatistics) (offline now : Int) : Bool :=
  match st.lastCloseTime with
  | none => false
  | some closed =>
      (match st.lastStartTime with
        | none => true
        | some started => decide (started < closed)) && decide (offline < now - closed)

def clearUselessInfo (m : ServerStatistics) (offline now : Int) : ServerStatistics :=
  { m with proxyStatistics := m.proxyStatistics.filter fun st => !shouldClear st offline now }

def conns (m : ServerStatistics) (name : String) : Int := m.proxyStatistics.weight (·.curConns) name

def allConns (m : ServerStatistics) : Int := m.proxyStatistics.total (·.curConns)

def typeCount (m : ServerStatistics) (proxyType : String) : Int :=
  (m.proxyTypeCounts proxyType).getD 0

/-! ## Types -/

theorem typeCount_newProxy (m : ServerStatistics) (name proxyType user clientID : String)
    (now : Int) (t : String) : (m.newProxy name proxyType user clientID now).typeCount t =
      m.typeCount t + if proxyType = t then 1 else 0 := by
  unfold typeCount newProxy
  by_cases ht : proxyType = t
  · subst ht
    simp
  · simp [update_of_ne (Ne.symm ht), ht]

theorem typeCount_closeProxy {m : ServerStatistics} {proxyType : String}
    (h : 0 < m.typeCount proxyType) (name : String) (now : Int) (t : String) :
    (m.closeProxy name proxyType now).typeCount t =
      m.typeCount t - if proxyType = t then 1 else 0 := by
  have hcounts : (m.closeProxy name proxyType now).proxyTypeCounts = m.closeType proxyType := by
    unfold closeProxy
    split <;> rfl
  rw [typeCount, hcounts, closeType]
  by_cases ht : proxyType = t
  · subst ht
    unfold typeCount at h ⊢
    cases hc : m.proxyTypeCounts proxyType with
    | none =>
      rw [hc] at h
      cases h
    | some n => simp
  · simp [update_of_ne (Ne.symm ht), ht, typeCount]

/-! ## Connections -/

theorem lower_nonneg {n : Int} (h : 0 ≤ n) : 0 ≤ lower n := by
  unfold lower
  split_ifs
  · omega
  · exact h

section Conns

variable {m : ServerStatistics} {name : String} {st : ProxyStatistics}

variable (h : m.proxyStatistics.get name = some st)

include h

theorem conns_of_get : m.conns name = st.curConns := GoMap.weight_of_get _ h

theorem modify_of_get (f : ProxyStatistics → ProxyStatistics) :
    m.modify name f = { m with proxyStatistics := m.proxyStatistics.insert name (f st) } := by
  simp only [modify, h]

omit h in
theorem modify_of_none (h : m.proxyStatistics.get name = none)
    (f : ProxyStatistics → ProxyStatistics) : m.modify name f = m := by
  simp only [modify, h]

omit h in
@[simp]
theorem curConns_modify (m : ServerStatistics) (name : String)
    (f : ProxyStatistics → ProxyStatistics) : (m.modify name f).curConns = m.curConns := by
  cases h : m.proxyStatistics.get name with
  | none => rw [modify_of_none h]
  | some st => rw [modify_of_get h]

omit h in
theorem get_modify (m : ServerStatistics) (name name' : String)
    (f : ProxyStatistics → ProxyStatistics) : (m.modify name f).proxyStatistics.get name' =
      if name' = name then (m.proxyStatistics.get name).map f else m.proxyStatistics.get name' := by
  cases h : m.proxyStatistics.get name with
  | none =>
    rw [modify_of_none h]
    split_ifs with hn
    · rw [hn, h]
      rfl
    · rfl
  | some st =>
    rw [modify_of_get h, GoMap.get_insert]
    rfl

theorem conns_modify (f : ProxyStatistics → ProxyStatistics) :
    (m.modify name f).conns name = (f st).curConns := by
  apply conns_of_get
  rw [get_modify, if_pos rfl, h]
  rfl

omit h in
theorem conns_modify_of_ne {name' : String} (hne : name' ≠ name)
    (f : ProxyStatistics → ProxyStatistics) : (m.modify name f).conns name' = m.conns name' := by
  rw [conns, GoMap.weight, get_modify, if_neg hne]
  rfl

omit h in
theorem allConns_insert :
    allConns { m with proxyStatistics := m.proxyStatistics.insert name st } =
      m.allConns + (st.curConns - m.conns name) :=
  GoMap.total_insert ..

theorem allConns_modify (f : ProxyStatistics → ProxyStatistics) :
    (m.modify name f).allConns = m.allConns + ((f st).curConns - st.curConns) := by
  rw [modify_of_get h, allConns_insert, conns_of_get h]

end Conns

end ServerStatistics

end FrpMeo.Metrics
