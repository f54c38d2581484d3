import Mathlib.Algebra.Ring.Nat
import Mathlib.Data.List.Induction
import Mathlib.Order.Basic
import Mathlib.Tactic.Push

/-!
# Health monitor of a proxy

A monitor checks the local service again and again and tells the wrapper of the proxy when it comes
up or goes down (`client/health/health.go`). `failedTimes` is never set back, so it counts all
failures of the monitor's life.
-/

namespace FrpMeo.Client.Health

/-! ## Configuration and monitor -/

structure HTTPHeader where
  name : String
  value : String
  deriving DecidableEq, Repr

structure HealthCheckConfig where
  type : String
  timeoutSeconds : Int
  maxFailed : Int
  intervalSeconds : Int
  path : String
  httpHeaders : List HTTPHeader
  deriving DecidableEq, Repr

/-- The bytes that `net/textproto` admits in a header name. -/
def validHeaderFieldByte (c : Char) : Bool := c.isAlphanum || "!#$%&'*+-.^_`|~".toList.contains c

/-- Upper case at the start and after a hyphen, lower case elsewhere. -/
def canonicalChars : Bool → List Char → List Char
  | _, [] => []
  | upper, c :: cs => (if upper then c.toUpper else c.toLower) :: canonicalChars (c == '-') cs

def canonicalMIMEHeaderKey (name : String) : String :=
  if name.toList.all validHeaderFieldByte then String.ofList (canonicalChars true name.toList)
  else name

/-- `http.Header` with one value for each name, which is all that `Set` leaves. -/
abbrev Header := List (String × String)

namespace Header

def set (h : Header) (name value : String) : Header :=
  (canonicalMIMEHeaderKey name, value) :: h.filter (fun e => e.1 != canonicalMIMEHeaderKey name)

def get (h : Header) (name : String) : String :=
  ((h.find? (fun e => e.1 == canonicalMIMEHeaderKey name)).map (·.2)).getD ""

end Header

/-- `time.Second`; a `time.Duration` is a signed 64 bit number of nanoseconds. -/
def second : Int := 1000000000

def duration (seconds : Int) : Int := (seconds * second).bmod (2 ^ 64)

structure Monitor where
  checkType : String
  interval : Int
  timeout : Int
  maxFailedTimes : Int
  addr : String
  url : String
  header : Header
  failedTimes : UInt64
  statusOK : Bool
  statusNormalFn : Bool
  statusFailedFn : Bool
  deriving DecidableEq, Repr

/-- `if x <= 0 { x = d }`, three times in `NewMonitor`. -/
def positiveOr (x d : Int) : Int := if x ≤ 0 then d else x

def newMonitor (cfg : HealthCheckConfig) (addr : String) (statusNormalFn statusFailedFn : Bool) :
    Monitor :=
  { checkType := cfg.type
    interval := duration (positiveOr cfg.intervalSeconds 10)
    timeout := duration (positiveOr cfg.timeoutSeconds 3)
    maxFailedTimes := positiveOr cfg.maxFailed 1
    addr
    url :=
      if cfg.type = "http" ∧ cfg.path ≠ "" then
        "http://" ++ addr ++ (if cfg.path.startsWith "/" then "" else "/") ++ cfg.path
      else ""
    header := cfg.httpHeaders.foldl (fun h e => Header.set h e.name e.value) []
    failedTimes := 0
    statusOK := false
    statusNormalFn
    statusFailedFn }

/-! ## One check -/

structure Request where
  url : String
  header : Header
  host : String
  deriving DecidableEq, Repr

/-- What the network and `net/http` answer during one check. -/
structure Net where
  dialContext : String → Option String
  newRequest : String → Option String
  response : Request → Except String Nat

namespace Monitor

/-- `doTCPCheck`: without an address the check succeeds. -/
def doTCPCheck (monitor : Monitor) (net : Net) : Option String :=
  if monitor.addr = "" then none else net.dialContext monitor.addr

def doHTTPCheck (monitor : Monitor) (net : Net) : Option String :=
  match net.newRequest monitor.url with
  | some err => some err
  | none =>
    match net.response ⟨monitor.url, monitor.header, Header.get monitor.header "Host"⟩ with
    | .error err => some err
    | .ok statusCode =>
      if statusCode / 100 ≠ 2 then
        some s!"do http health check, StatusCode is [{statusCode}] not 2xx"
      else none

def doCheck (monitor : Monitor) (net : Net) : Option String :=
  if monitor.checkType = "tcp" then monitor.doTCPCheck net
  else if monitor.checkType = "http" then monitor.doHTTPCheck net
  else some "error health check type"

end Monitor

/-! ## The loop -/

inductive Callback where
  | normal
  | failed
  deriving DecidableEq, Repr

namespace Callback

def other : Callback → Callback
  | normal => failed
  | failed => normal

end Callback

/-- `int(x)` for a `uint64`, where `int` has `w` bits. -/
def int (w : Nat) (x : UInt64) : Int := (x.toBitVec.setWidth w).toInt

structure Check where
  err : Option String
  fired : Option Callback
  deriving DecidableEq, Repr

/-- A round: what the network answers, and whether the monitor is stopped when the check returns. -/
structure Round where
  net : Net
  stopped : Bool

namespace Monitor

def report (w : Nat) (monitor : Monitor) (err : Option String) : Monitor × Option Callback :=
  match err with
  | none =>
    if monitor.statusOK = false ∧ monitor.statusNormalFn = true then
      ({ monitor with statusOK := true }, some .normal)
    else (monitor, none)
  | some _ =>
    let failedTimes := monitor.failedTimes + 1
    if monitor.statusOK = true ∧ monitor.maxFailedTimes ≤ int w failedTimes ∧
        monitor.statusFailedFn = true then
      ({ monitor with failedTimes, statusOK := false }, some .failed)
    else ({ monitor with failedTimes }, none)

/-- `checkWorker`, with one entry for each round that is not cut off by `Stop`. -/
def checkWorker (w : Nat) (monitor : Monitor) : List Round → List Check
  | [] => []
  | r :: rs =>
    let err := monitor.doCheck r.net
    if r.stopped = true then []
    else ⟨err, (monitor.report w err).2⟩ :: checkWorker w (monitor.report w err).1 rs

def results (monitor : Monitor) (rounds : List Round) : List (Option String) :=
  (rounds.takeWhile (fun r => !r.stopped)).map (fun r => monitor.doCheck r.net)

def record (w : Nat) (monitor : Monitor) : List (Option String) → List Check
  | [] => []
  | e :: es => ⟨e, (monitor.report w e).2⟩ :: record w (monitor.report w e).1 es

def after (w : Nat) (monitor : Monitor) (es : List (Option String)) : Monitor :=
  es.foldl (fun m e => (m.report w e).1) monitor

/-! ## One step -/

variable {w : Nat} {monitor : Monitor}

theorem report_fst (err : Option String) :
    ∃ failedTimes statusOK, (monitor.report w err).1 = { monitor with failedTimes, statusOK } := by
  cases err with
  | none =>
    simp only [report]
    split
    · exact ⟨monitor.failedTimes, true, rfl⟩
    · exact ⟨monitor.failedTimes, monitor.statusOK, rfl⟩
  | some e =>
    simp only [report]
    split
    · exact ⟨monitor.failedTimes + 1, false, rfl⟩
    · exact ⟨monitor.failedTimes + 1, monitor.statusOK, rfl⟩

theorem doCheck_report (err : Option String) (net : Net) :
    (monitor.report w err).1.doCheck net = monitor.doCheck net := by
  obtain ⟨failedTimes, statusOK, h⟩ := report_fst err
  rw [h]
  rfl

theorem report_failedTimes (err : Option String) : (monitor.report w err).1.failedTimes =
      monitor.failedTimes + (if err.isSome then 1 else 0) := by
  cases err with
  | none | some =>
    simp only [report]
    split <;> simp

variable {err : Option String}

theorem report_normal_iff : (monitor.report w err).2 = some .normal ↔
      err = none ∧ monitor.statusOK = false ∧ monitor.statusNormalFn = true := by
  cases err with
  | none =>
    simp only [report]
    split <;> simp_all
  | some e =>
    simp only [report]
    split <;> simp

theorem report_failed_iff : (monitor.report w err).2 = some .failed ↔
      err.isSome ∧ monitor.statusOK = true ∧
        monitor.maxFailedTimes ≤ int w (monitor.failedTimes + 1) ∧
        monitor.statusFailedFn = true := by
  cases err with
  | none =>
    simp only [report]
    split <;> simp
  | some e =>
    simp only [report]
    split <;> simp_all

theorem report_statusOK : (monitor.report w err).1.statusOK =
      match (monitor.report w err).2 with
      | some .normal => true
      | some .failed => false
      | none => monitor.statusOK := by
  cases err with
  | none | some =>
    simp only [report]
    split <;> rfl

/-! ## Whole histories -/

theorem checkWorker_eq_record (rounds : List Round) :
    monitor.checkWorker w rounds = monitor.record w (monitor.results rounds) := by
  induction rounds generalizing monitor with
  | nil => rfl
  | cons r rs ih =>
    simp only [checkWorker, results, List.takeWhile_cons]
    cases r.stopped with
    | true => rfl
    | false =>
      have hsame : (monitor.report w (monitor.doCheck r.net)).1.results rs =
          monitor.results rs := by
        simp only [results, doCheck_report]
      rw [ih, hsame]
      rfl

@[simp] theorem after_nil : monitor.after w [] = monitor := rfl

@[simp] theorem after_cons (e : Option String) (es : List (Option String)) :
    monitor.after w (e :: es) = (monitor.report w e).1.after w es := rfl

theorem after_append (es fs : List (Option String)) :
    monitor.after w (es ++ fs) = (monitor.after w es).after w fs :=
  List.foldl_append ..

theorem after_concat (es : List (Option String)) (e : Option String) :
    monitor.after w (es ++ [e]) = ((monitor.after w es).report w e).1 := by
  rw [after_append]
  rfl

theorem after_config (w : Nat) (monitor : Monitor) (es : List (Option String)) :
    (monitor.after w es).maxFailedTimes = monitor.maxFailedTimes ∧
      (monitor.after w es).statusNormalFn = monitor.statusNormalFn ∧
      (monitor.after w es).statusFailedFn = monitor.statusFailedFn := by
  induction es generalizing monitor with
  | nil => exact ⟨rfl, rfl, rfl⟩
  | cons e es ih =>
    obtain ⟨failedTimes, statusOK, h⟩ := report_fst e
    rw [after_cons, h]
    exact ih _

def failures (es : List (Option String)) : Nat := es.countP Option.isSome

theorem after_failedTimes (es : List (Option String)) :
    (monitor.after w es).failedTimes = monitor.failedTimes + UInt64.ofNat (failures es) := by
  induction es generalizing monitor with
  | nil => simp [failures]
  | cons e es ih =>
    rw [after_cons, ih, report_failedTimes, UInt64.add_assoc]
    cases e <;> simp [failures, UInt64.add_comm]

variable {es : List (Option String)}

/-- A callback in the history is that of the monitor which the results before it leave. -/
theorem record_eq_append_cons_iff {pre post : List Check} {c : Check} :
    monitor.record w es = pre ++ c :: post ↔
      ∃ es₁ es₂, es = es₁ ++ c.err :: es₂ ∧ pre = monitor.record w es₁ ∧
        c.fired = ((monitor.after w es₁).report w c.err).2 ∧
        post = (monitor.after w (es₁ ++ [c.err])).record w es₂ := by
  induction es generalizing monitor pre with
  | nil => simp [record]
  | cons e es ih =>
    cases pre with
    | nil =>
      constructor
      · intro h
        obtain ⟨rfl, rfl⟩ := h
        exact ⟨[], es, rfl, rfl, rfl, rfl⟩
      · rintro ⟨es₁, es₂, hes, hpre, hfired, hpost⟩
        cases es₁ with
        | nil =>
          obtain ⟨rfl, rfl⟩ := hes
          subst hpost
          simp only [record, List.nil_append, List.cons.injEq, and_true, after_cons, after_nil]
          cases c
          simpa using hfired.symm
        | cons f fs => simp [record] at hpre
    | cons d ds =>
      rw [List.cons_append, record, List.cons.injEq, ih]
      constructor
      · rintro ⟨rfl, es₁, es₂, rfl, rfl, hfired, rfl⟩
        exact ⟨e :: es₁, es₂, rfl, rfl, hfired, rfl⟩
      · rintro ⟨es₁, es₂, hes, hpre, hfired, hpost⟩
        cases es₁ with
        | nil => simp [record] at hpre
        | cons f fs =>
          obtain ⟨rfl, rfl⟩ := hes
          simp only [record, List.cons.injEq] at hpre
          exact ⟨hpre.1.symm, fs, es₂, rfl, hpre.2, hfired, hpost⟩

theorem map_err_record (w : Nat) (monitor : Monitor) (es : List (Option String)) :
    (monitor.record w es).map Check.err = es := by
  induction es generalizing monitor with
  | nil => rfl
  | cons e es ih => simp [record, ih]

/-! ## The status -/

theorem after_statusOK_of_failures (hes : ∀ e ∈ es, e.isSome) (hm : monitor.statusOK = false) :
    (monitor.after w es).statusOK = false := by
  induction es generalizing monitor with
  | nil => exact hm
  | cons e es ih =>
    rw [after_cons]
    apply ih (fun f hf => hes f (List.mem_cons_of_mem e hf))
    obtain ⟨text, rfl⟩ := Option.isSome_iff_exists.1 (hes e List.mem_cons_self)
    simp [report, hm]

theorem statusNormalFn_of_after (hm : monitor.statusOK = false)
    (h : (monitor.after w es).statusOK = true) : monitor.statusNormalFn = true := by
  induction es using List.reverseRecOn with
  | nil => simp [hm] at h
  | append_singleton es e ih =>
    rw [after_concat, report_statusOK] at h
    cases hfired : ((monitor.after w es).report w e).2 with
    | none =>
      rw [hfired] at h
      exact ih h
    | some callback =>
      cases callback with
      | normal => exact (after_config _ _ es).2.1 ▸ (report_normal_iff.1 hfired).2.2
      | failed => simp [hfired] at h

theorem after_success_statusOK (hn : monitor.statusNormalFn = true) :
    (monitor.after w (es ++ [none])).statusOK = true := by
  rw [after_concat]
  cases hok : (monitor.after w es).statusOK with
  | true => simp [report, hok]
  | false => simp [report, hok, (after_config _ _ es).2.1, hn]

theorem after_failures_statusOK {fs : List (Option String)} (hfs : ∀ f ∈ fs, f.isSome)
    (hm : monitor.statusOK = true) (hlow : ∀ j, 0 < j → j ≤ fs.length →
      int w (monitor.failedTimes + UInt64.ofNat j) < monitor.maxFailedTimes) :
    (monitor.after w fs).statusOK = true := by
  induction fs using List.reverseRecOn with
  | nil => exact hm
  | append_singleton fs f ih =>
    have hup : (monitor.after w fs).statusOK = true := by
      apply ih (fun g hg => hfs g (List.mem_append_left _ hg))
      intro j hj hle
      apply hlow j hj
      rw [List.length_append]
      omega
    have hall : failures fs = fs.length :=
      List.countP_eq_length.2 (fun g hg => hfs g (List.mem_append_left _ hg))
    have hcount : int w ((monitor.after w fs).failedTimes + 1) < monitor.maxFailedTimes := by
      have := hlow (fs.length + 1) (Nat.succ_pos _) (by simp)
      rwa [after_failedTimes, hall, UInt64.add_assoc, ← UInt64.ofNat_one, ← UInt64.ofNat_add]
    obtain ⟨text, rfl⟩ := Option.isSome_iff_exists.1 (hfs f (by simp))
    rw [after_concat]
    simp [report, hup, (after_config _ _ fs).1, Int.not_le.2 hcount]

end Monitor

/-! ## What the callbacks mean -/

def alternates : Callback → List Callback → Prop
  | _, [] => True
  | next, c :: cs => c = next ∧ alternates next.other cs

structure Orderly (k : Int) (checks : List Check) : Prop where
  /-- The failure callback fires at a failing check right after `k - 1` failing ones. -/
  failed : ∀ pre c post, checks = pre ++ c :: post → c.fired = some .failed →
    c.err.isSome ∧
      ∃ before run, pre = before ++ run ∧ (∀ d ∈ run, d.err.isSome) ∧ k - 1 ≤ run.length
  normal : ∀ c ∈ checks, c.fired = some .normal → c.err = none
  turns : alternates .normal (checks.filterMap Check.fired)

/-- No run of fewer than `k` failures after a success brings the counter to `k`. -/
def Sparse (w : Nat) (k : Int) (es : List (Option String)) : Prop :=
  ∀ pre fs post, es = pre ++ none :: (fs ++ post) → (∀ f ∈ fs, f.isSome) → fs ≠ [] →
    fs.length < k → int w (UInt64.ofNat (Monitor.failures (pre ++ fs))) < k

variable {es : List (Option String)}

theorem exists_last_success (h : none ∈ es) :
    ∃ pre fs, es = pre ++ none :: fs ∧ ∀ f ∈ fs, f.isSome := by
  induction es using List.reverseRecOn with
  | nil => simp at h
  | append_singleton es e ih =>
    cases e with
    | none => exact ⟨es, [], rfl, by simp⟩
    | some text =>
      obtain ⟨pre, fs, rfl, hfs⟩ := ih (by simpa using h)
      refine ⟨pre, fs ++ [some text], by simp, ?_⟩
      intro f hf
      rcases List.mem_append.1 hf with hf | hf
      · exact hfs f hf
      · rw [List.mem_singleton.1 hf]
        rfl

theorem length_run_le (before pre : List (Option String)) {run fs : List (Option String)}
    (h : before ++ run = pre ++ none :: fs) (hrun : ∀ e ∈ run, e.isSome) :
    run.length ≤ fs.length := by
  by_contra hlong
  have hsuffix : none :: fs <:+ run := by
    have hwhole : none :: fs <:+ before ++ run := h ▸ List.suffix_append pre (none :: fs)
    exact List.suffix_of_suffix_length_le hwhole (List.suffix_append before run)
      (Nat.lt_of_not_le hlong)
  simpa using hrun none (hsuffix.subset List.mem_cons_self)

namespace Monitor

variable {w : Nat} {monitor : Monitor} {c : Check}

theorem record_normal (hc : c ∈ monitor.record w es)
    (h : c.fired = some .normal) : c.err = none := by
  obtain ⟨pre, post, hrec⟩ := List.append_of_mem hc
  obtain ⟨es₁, es₂, -, -, hfired, -⟩ := record_eq_append_cons_iff.1 hrec
  exact (report_normal_iff.1 (hfired ▸ h)).1

theorem record_turns (w : Nat) (monitor : Monitor) (es : List (Option String)) :
    alternates (if monitor.statusOK then .failed else .normal)
      ((monitor.record w es).filterMap Check.fired) := by
  induction es generalizing monitor with
  | nil => trivial
  | cons e es ih =>
    have hrest := ih (monitor.report w e).1
    rw [report_statusOK] at hrest
    simp only [record]
    cases hfired : (monitor.report w e).2 with
    | none =>
      rw [hfired] at hrest
      simpa [List.filterMap_cons, hfired] using hrest
    | some callback =>
      rw [hfired] at hrest
      cases callback with
      | normal =>
        have hdown := (report_normal_iff.1 hfired).2.1
        rw [hdown]
        exact ⟨rfl, hrest⟩
      | failed =>
        have hup := (report_failed_iff.1 hfired).2.1
        rw [hup]
        exact ⟨rfl, hrest⟩

/-- A failure callback comes at a failing check at which the counter has reached the limit. -/
theorem record_failed {pre post : List Check}
    (hm : monitor.statusOK = false) (hrec : monitor.record w es = pre ++ c :: post)
    (h : c.fired = some .failed) :
    c.err.isSome ∧ monitor.statusNormalFn = true ∧ monitor.statusFailedFn = true ∧
      ∃ es₁ fs es₂, es = es₁ ++ none :: (fs ++ c.err :: es₂) ∧ (∀ f ∈ fs, f.isSome) ∧
        pre = monitor.record w (es₁ ++ none :: fs) ∧
        monitor.maxFailedTimes ≤
          int w (monitor.failedTimes + UInt64.ofNat (failures (es₁ ++ fs) + 1)) := by
  obtain ⟨es₁, es₂, rfl, rfl, hfired, -⟩ := record_eq_append_cons_iff.1 hrec
  obtain ⟨herr, hup, hlimit, hset⟩ := report_failed_iff.1 (hfired ▸ h)
  rw [(after_config _ _ es₁).1] at hlimit
  rw [(after_config _ _ es₁).2.2] at hset
  -- the status is up, so there has been a success
  have hsuccess : none ∈ es₁ := by
    by_contra hnone
    have hall : ∀ e ∈ es₁, e.isSome := fun e he => by
      cases e with
      | none => exact absurd he hnone
      | some text => rfl
    simp [after_statusOK_of_failures hall hm] at hup
  obtain ⟨p, fs, rfl, hfs⟩ := exists_last_success hsuccess
  refine ⟨herr, statusNormalFn_of_after hm hup, hset, p, fs, es₂, by simp, hfs, rfl, ?_⟩
  have hcount : failures (p ++ none :: fs) = failures (p ++ fs) := by simp [failures]
  rwa [after_failedTimes, hcount, UInt64.add_assoc, ← UInt64.ofNat_one, ← UInt64.ofNat_add]
    at hlimit

theorem record_fires {es₁ fs es₂ : List (Option String)} {f : Option String}
    (hn : monitor.statusNormalFn = true) (hf : monitor.statusFailedFn = true)
    (hfs : ∀ g ∈ fs ++ [f], g.isSome) (hlow : ∀ j, 0 < j → j ≤ fs.length →
      int w (monitor.failedTimes + UInt64.ofNat (failures es₁ + j)) < monitor.maxFailedTimes)
    (hlimit : monitor.maxFailedTimes ≤
      int w (monitor.failedTimes + UInt64.ofNat (failures es₁ + (fs.length + 1)))) :
    ∃ post, monitor.record w (es₁ ++ none :: (fs ++ f :: es₂)) =
      monitor.record w (es₁ ++ none :: fs) ++ ⟨f, some .failed⟩ :: post := by
  have hall : ∀ g ∈ fs, g.isSome := fun g hg => hfs g (List.mem_append_left _ hg)
  have hlen : failures fs = fs.length := List.countP_eq_length.2 hall
  have hsplit : es₁ ++ none :: fs = es₁ ++ [none] ++ fs := by simp
  have hup : (monitor.after w (es₁ ++ none :: fs)).statusOK = true := by
    rw [hsplit, after_append]
    apply after_failures_statusOK hall (after_success_statusOK hn)
    intro j hj hle
    have hcount : failures (es₁ ++ [none]) = failures es₁ := by simp [failures]
    rw [(after_config _ _ _).1, after_failedTimes, hcount, UInt64.add_assoc, ← UInt64.ofNat_add]
    exact hlow j hj hle
  have hfired : ((monitor.after w (es₁ ++ none :: fs)).report w f).2 = some .failed := by
    have hset := (after_config w monitor (es₁ ++ none :: fs)).2.2.trans hf
    refine report_failed_iff.2 ⟨hfs f (by simp), hup, ?_, hset⟩
    have hcount : failures (es₁ ++ none :: fs) = failures es₁ + fs.length := by
      rw [← hlen]
      simp [failures]
    rw [(after_config _ _ _).1, after_failedTimes, hcount, UInt64.add_assoc, ← UInt64.ofNat_one,
      ← UInt64.ofNat_add, Nat.add_assoc]
    exact hlimit
  exact ⟨_, record_eq_append_cons_iff.2
    ⟨es₁ ++ none :: fs, es₂, by simp, rfl, hfired.symm, rfl⟩⟩

end Monitor

theorem exists_first_cut {P : Nat → Prop} {fs : List (Option String)} (hne : fs ≠ [])
    (h : ¬ P fs.length) :
    ∃ gs f hs, fs = gs ++ f :: hs ∧ (∀ j, 0 < j → j ≤ gs.length → P j) ∧ ¬ P (gs.length + 1) := by
  induction hn : fs.length using Nat.strongRecOn generalizing fs with
  | ind n ih =>
    obtain ⟨gs, f, rfl⟩ : ∃ gs f, fs = gs ++ [f] :=
      ⟨fs.dropLast, fs.getLast hne, (List.dropLast_concat_getLast hne).symm⟩
    by_cases hall : ∀ j, 0 < j → j ≤ gs.length → P j
    · exact ⟨gs, f, [], rfl, hall, by simpa using h⟩
    · push Not at hall
      obtain ⟨j, hj, hle, hP⟩ := hall
      have htake : (gs.take j).length = j := by simp [hle]
      obtain ⟨gs₁, g, hs, hcut, hlow, hhigh⟩ := ih j (by simp at hn; omega)
        (List.length_pos_iff.1 (htake.symm ▸ hj : 0 < (gs.take j).length)) (by rwa [htake]) htake
      refine ⟨gs₁, g, hs ++ (gs.drop j ++ [f]), ?_, hlow, hhigh⟩
      calc gs ++ [f] = gs.take j ++ (gs.drop j ++ [f]) := by
            rw [← List.append_assoc, List.take_append_drop]
        _ = gs₁ ++ g :: (hs ++ (gs.drop j ++ [f])) := by simp [hcut]

theorem Sparse.of_orderly {w : Nat} {monitor : Monitor} (h0 : monitor.failedTimes = 0)
    (hn : monitor.statusNormalFn = true) (hf : monitor.statusFailedFn = true)
    (h : Orderly monitor.maxFailedTimes (monitor.record w es)) :
    Sparse w monitor.maxFailedTimes es := by
  intro pre fs post hes hfs hne hshort
  by_contra hlimit
  have happ : Monitor.failures (pre ++ fs) = Monitor.failures pre + fs.length := by
    rw [← List.countP_eq_length.2 hfs]
    exact List.countP_append ..
  rw [happ] at hlimit
  -- the first failure of the run at which the counter has reached the limit
  obtain ⟨gs, f, hs, rfl, hlow, hreach⟩ := exists_first_cut
    (P := fun j => int w (UInt64.ofNat (Monitor.failures pre + j)) < monitor.maxFailedTimes)
    hne hlimit
  obtain ⟨rest, hrec⟩ := Monitor.record_fires hn hf
    (fun g hg => hfs g (by
      rw [List.append_cons]
      exact List.mem_append_left _ hg))
    (by simpa only [h0, UInt64.zero_add] using hlow)
    (by simpa only [h0, UInt64.zero_add] using Int.not_lt.1 hreach)
  have hsame : pre ++ none :: (gs ++ f :: (hs ++ post)) = es := by simp [hes]
  rw [hsame] at hrec
  -- it fires the callback, and the failures right before it are those of the run
  obtain ⟨-, before, run, hpre, hrun, hlong⟩ := h.failed _ _ _ hrec rfl
  have hle : (run.map Check.err).length ≤ gs.length := by
    apply length_run_le (before.map Check.err) pre
    · rw [← List.map_append, ← hpre, Monitor.map_err_record]
    · simpa using hrun
  simp only [List.length_map, List.length_append, List.length_cons] at hle hshort
  omega

theorem Orderly.of_sparse {w : Nat} {monitor : Monitor} (h0 : monitor.failedTimes = 0)
    (hdown : monitor.statusOK = false)
    (h : monitor.statusNormalFn = true → monitor.statusFailedFn = true →
      Sparse w monitor.maxFailedTimes es) :
    Orderly monitor.maxFailedTimes (monitor.record w es) where
  failed := by
    intro pre c post hrec hfired
    obtain ⟨herr, hn, hf, es₁, fs, es₂, rfl, hfs, rfl, hlimit⟩ :=
      Monitor.record_failed hdown hrec hfired
    refine ⟨herr, ?_⟩
    obtain ⟨before, c₀, run, hsplit⟩ : ∃ before c₀ run,
        monitor.record w (es₁ ++ none :: fs) = (before ++ [c₀]) ++ run ∧
          run.map Check.err = fs := by
      obtain ⟨before, tail, hcut, hb, ht⟩ :=
        List.map_eq_append_iff.1 (Monitor.map_err_record w monitor (es₁ ++ none :: fs))
      obtain ⟨c₀, run, rfl, -, hrun⟩ := List.map_eq_cons_iff.1 ht
      exact ⟨before, c₀, run, by simp [hcut], hrun⟩
    refine ⟨before ++ [c₀], run, hsplit.1, ?_, ?_⟩
    · intro d hd
      exact hfs d.err (hsplit.2 ▸ List.mem_map_of_mem hd)
    · -- a shorter run would be one in which the counter stays below the limit
      by_contra hshort
      have hlen : run.length = fs.length := by rw [← hsplit.2, List.length_map]
      have hlow := h hn hf es₁ (fs ++ [c.err]) es₂ (by simp)
        (by
          intro f hfm
          rcases List.mem_append.1 hfm with hfm | hfm
          · exact hfs f hfm
          · rw [List.mem_singleton.1 hfm]
            exact herr)
        (by simp) (by simp; omega)
      have hcount : Monitor.failures (es₁ ++ (fs ++ [c.err])) =
          Monitor.failures (es₁ ++ fs) + 1 := by
        simp [Monitor.failures, List.countP_append, herr, Nat.add_assoc]
      rw [hcount] at hlow
      rw [h0, UInt64.zero_add] at hlimit
      omega
  normal := fun c hc hfired => Monitor.record_normal hc hfired
  turns := by
    have := Monitor.record_turns w monitor es
    rwa [hdown] at this

/-- The callbacks mean what the limit says exactly when one is not set, or no short run of failures
meets a counter filled up by earlier ones. -/
theorem orderly_iff (w : Nat) (cfg : HealthCheckConfig) (addr : String)
    (statusNormalFn statusFailedFn : Bool) (rounds : List Round) : Orderly (max 1 cfg.maxFailed)
        ((newMonitor cfg addr statusNormalFn statusFailedFn).checkWorker w rounds) ↔
      (statusNormalFn = true → statusFailedFn = true → Sparse w (max 1 cfg.maxFailed)
          ((newMonitor cfg addr statusNormalFn statusFailedFn).results rounds)) := by
  have hmax : (newMonitor cfg addr statusNormalFn statusFailedFn).maxFailedTimes =
      max 1 cfg.maxFailed := by
    simp only [newMonitor, positiveOr]
    omega
  rw [Monitor.checkWorker_eq_record, ← hmax]
  constructor
  · intro h hn hf
    exact Sparse.of_orderly rfl hn hf h
  · intro h
    exact Orderly.of_sparse rfl rfl h

def tcpRounds (ups : List Bool) : List Round :=
  ups.map (fun up =>
    ⟨⟨fun _ => if up then none else some "connection refused", fun _ => none, fun _ => .ok 200⟩,
      false⟩)

/-- With a limit of 3, three single failures with successes between them take the proxy down. -/
theorem three_single_failures :
    ¬ Orderly 3 ((newMonitor ⟨"tcp", 3, 3, 10, "", []⟩ "127.0.0.1:80" true true).checkWorker 64
      (tcpRounds [true, false, true, false, true, false])) := by
  intro h
  obtain ⟨-, before, run, hpre, hrun, hlong⟩ := h.failed
    [⟨none, some .normal⟩, ⟨some "connection refused", none⟩, ⟨none, none⟩,
      ⟨some "connection refused", none⟩, ⟨none, none⟩]
    ⟨some "connection refused", some .failed⟩ [] (by decide) rfl
  have hle : (run.map Check.err).length ≤ ([] : List (Option String)).length := by
    apply length_run_le (before.map Check.err)
      [none, some "connection refused", none, some "connection refused"]
    · rw [← List.map_append, ← hpre]
      rfl
    · simpa using hrun
  simp only [List.length_map, List.length_nil] at hle
  omega

end FrpMeo.Client.Health
