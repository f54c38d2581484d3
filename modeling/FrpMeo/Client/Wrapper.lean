import FrpMeo.Lib.Transition
import Mathlib.Data.List.Basic

/-!
# Proxy wrappers of a client and the proxies of its session

The worker of a wrapper (`client/proxy/proxy_wrapper.go`) asks the server to open its proxy, again
after 20 s without a response or 30 s after an error, and takes it back when its health check fails.
A response names the proxy only, and a reload may have put another wrapper in its place.

The model has the wrappers, two channels in order, the client's reader and the proxies of the
server. `Link.Step` is the protocol of one name; `Sound.follows`: a step of the system is one of it,
or none, for every name.
-/

namespace FrpMeo.Client.Proxy

open Lib.Transition Function

/-! ## Wrappers -/

inductive Phase where
  | new
  | waitStart
  | startErr
  | running
  | checkFailed
  | closed
  deriving DecidableEq, Repr

def second : Nat := 1000000000

def waitResponseTimeout : Nat := 20 * second

def startErrTimeout : Nat := 30 * second

inductive Kind where
  | newProxy
  | closeProxy
  deriving DecidableEq, Repr

structure ToServer where
  kind : Kind
  proxyName : String
  deriving DecidableEq, Repr

structure NewProxyResp where
  proxyName : String
  remoteAddr : String
  error : String
  deriving DecidableEq, Repr

def NewProxyResp.ok (resp : NewProxyResp) : Bool := resp.error == ""

structure Wrapper where
  name : String
  phase : Phase
  err : String
  remoteAddr : String
  monitored : Bool
  /-- `health` is not 0. -/
  failed : Bool
  lastSendStartMsg : Nat
  lastStartErr : Nat
  /-- The clock and the health that `checkWorker` has read and not yet acted upon. -/
  seen : Option (Nat × Bool)
  deriving DecidableEq, Repr

/-- `NewWrapper`: a monitored proxy has failed until its first check succeeds. -/
def newWrapper (name : String) (monitored : Bool) : Wrapper :=
  { name, phase := .new, err := "", remoteAddr := "", monitored, failed := monitored,
    lastSendStartMsg := 0, lastStartErr := 0, seen := none }

namespace Wrapper

/-- The condition under which a round of `checkWorker` sends `NewProxy`. -/
def starts (pw : Wrapper) (now : Nat) : Bool :=
  pw.phase == .new || pw.phase == .checkFailed ||
    (pw.phase == .waitStart && decide (pw.lastSendStartMsg + waitResponseTimeout < now)) ||
    (pw.phase == .startErr && decide (pw.lastStartErr + startErrTimeout < now))

def close (pw : Wrapper) : List ToServer := [⟨.closeProxy, pw.name⟩]

/-- The locked part of a round of `checkWorker`, with the messages it sends. -/
def checkWorker (pw : Wrapper) (now : Nat) (failed : Bool) : Wrapper × List ToServer :=
  if failed = false then
    if pw.starts now then
      ({ pw with phase := .waitStart, lastSendStartMsg := now }, [⟨.newProxy, pw.name⟩])
    else (pw, [])
  else if pw.phase = .running ∨ pw.phase = .waitStart then
    ({ pw with phase := .checkFailed }, pw.close)
  else (pw, [])

def setRunningStatus (pw : Wrapper) (now : Nat) (remoteAddr respErr : String)
    (runErr : Option String) : Wrapper × List ToServer :=
  if pw.phase ≠ .waitStart then (pw, [])
  else if respErr ≠ "" then
    ({ pw with remoteAddr, phase := .startErr, err := respErr, lastStartErr := now }, [])
  else
    match runErr with
    | some err => ({ pw with remoteAddr, phase := .startErr, err, lastStartErr := now }, pw.close)
    | none => ({ pw with remoteAddr, phase := .running, err := "" }, [])

def stop (pw : Wrapper) : Wrapper × List ToServer := ({ pw with phase := .closed }, pw.close)

end Wrapper

/-! ## The system -/

structure State where
  now : Nat
  /-- Wrapper objects are numbered in the order of their creation. -/
  wrapper : Nat → Wrapper
  nextWrapper : Nat
  /-- `proxies` of the client's proxy manager. -/
  proxies : String → Option Nat
  toServer : List ToServer
  toClient : List NewProxyResp
  /-- The reader has taken this response from the channel and looked up this wrapper. -/
  reader : Option (Nat × NewProxyResp)
  /-- `proxies` of the control on the server. -/
  registered : String → Bool

namespace State

def put (s : State) (i : Nat) (done : Wrapper × List ToServer) : State :=
  { s with wrapper := update s.wrapper i done.1, toServer := s.toServer ++ done.2 }

def Quiet (s : State) : Prop := s.toServer = [] ∧ s.toClient = [] ∧ s.reader = none

instance (s : State) : Decidable s.Quiet := inferInstanceAs (Decidable (_ ∧ _))

def Answered (s : State) (name : String) : Prop :=
  (∀ m ∈ s.toServer, m ≠ ⟨.newProxy, name⟩) ∧ (∀ resp ∈ s.toClient, resp.proxyName ≠ name) ∧
    ∀ held ∈ s.reader, held.2.proxyName ≠ name

instance (s : State) (name : String) : Decidable (s.Answered name) :=
  inferInstanceAs (Decidable (_ ∧ _ ∧ _))

end State

def init : State where
  now := 0
  wrapper := fun _ => { newWrapper "" false with phase := .closed }
  nextWrapper := 0
  proxies := fun _ => none
  toServer := []
  toClient := []
  reader := none
  registered := fun _ => false

inductive Action where
  | advance (d : Nat)
  /-- `UpdateAll` of the proxy manager stops a wrapper that is gone or has changed. -/
  | remove (name : String) (i : Nat)
  /-- `UpdateAll` starts a wrapper for a name that has none. -/
  | add (name : String) (monitored : Bool)
  | setHealth (i : Nat) (failed : Bool)
  /-- A round of `checkWorker` reads the clock and the health. -/
  | look (i : Nat)
  /-- The same round goes on under the lock. -/
  | check (i now : Nat) (failed : Bool)
  /-- The server handles a `NewProxy`; `error` is empty if it registers the proxy. -/
  | handleNewProxy (name remoteAddr error : String)
  | handleCloseProxy (name : String)
  /-- The reader of the client takes a response and looks up the wrapper. -/
  | handleNewProxyResp (resp : NewProxyResp)
  | setRunningStatus (i : Nat) (resp : NewProxyResp) (runErr : Option String)
  deriving DecidableEq, Repr

def Enabled (s : State) : Action → Prop
  | .advance _ => True
  | .remove name i => s.proxies name = some i
  | .add name _ => s.proxies name = none
  | .setHealth i _ => (s.wrapper i).monitored = true
  | .look i => i < s.nextWrapper
  | .check i now failed => (s.wrapper i).seen = some (now, failed)
  -- A name that the control has is refused; any other request may be accepted or refused.
  | .handleNewProxy name _ error =>
      s.toServer.head? = some ⟨.newProxy, name⟩ ∧ (s.registered name = true → error ≠ "")
  | .handleCloseProxy name => s.toServer.head? = some ⟨.closeProxy, name⟩
  | .handleNewProxyResp resp => s.reader = none ∧ s.toClient.head? = some resp
  | .setRunningStatus i resp _ => s.reader = some (i, resp)

instance (s : State) (a : Action) : Decidable (Enabled s a) := by
  cases a <;> dsimp only [Enabled] <;> infer_instance

def next (s : State) : Action → State
  | .advance d => { s with now := s.now + d }
  | .remove name i =>
      { s.put i (s.wrapper i).stop with proxies := update s.proxies name none }
  | .add name monitored =>
      { s with
        wrapper := update s.wrapper s.nextWrapper (newWrapper name monitored)
        nextWrapper := s.nextWrapper + 1
        proxies := update s.proxies name (some s.nextWrapper) }
  | .setHealth i failed => s.put i ({ s.wrapper i with failed }, [])
  | .look i => s.put i ({ s.wrapper i with seen := some (s.now, (s.wrapper i).failed) }, [])
  | .check i now failed => s.put i ({ s.wrapper i with seen := none }.checkWorker now failed)
  | .handleNewProxy name remoteAddr error =>
      { s with
        toServer := s.toServer.tail
        toClient := s.toClient ++ [⟨name, if error = "" then remoteAddr else "", error⟩]
        registered := if error = "" then update s.registered name true else s.registered }
  | .handleCloseProxy name =>
      { s with
        toServer := s.toServer.tail
        registered := update s.registered name false }
  -- A response to a name without a wrapper is dropped.
  | .handleNewProxyResp resp =>
      { s with
        toClient := s.toClient.tail
        reader := (s.proxies resp.proxyName).map fun i => (i, resp) }
  | .setRunningStatus i resp runErr =>
      { s.put i ((s.wrapper i).setRunningStatus s.now resp.remoteAddr resp.error runErr) with
        reader := none }

def step : State → Action → Option State := stepOf Enabled next

def Agree (s : State) : Prop :=
  ∀ name, (∀ i, s.proxies name = some i →
      ((s.wrapper i).phase = .running ↔ s.registered name = true)) ∧
    (s.proxies name = none → s.registered name = false)

/-- `NewProxy` is sent only while no `NewProxy` of that name is unanswered. -/
def AsksOnce (s : State) : Action → Prop
  | .check i now failed =>
      failed = false → (s.wrapper i).starts now = true → s.Answered (s.wrapper i).name
  | _ => True

instance (s : State) (a : Action) : Decidable (AsksOnce s a) := by
  cases a <;> dsimp only [AsksOnce] <;> infer_instance

/-! ## The protocol of one name -/

@[ext]
structure Link where
  /-- The wrapper of the manager and its phase. -/
  current : Option (Nat × Phase)
  requests : List Kind
  /-- Responses on their way; `true` for a success. -/
  answers : List Bool
  /-- The response in the hands of the reader, with the wrapper it looked up. -/
  held : Option (Nat × Bool)
  registered : Bool

namespace Link

def Answered (l : Link) : Prop := .newProxy ∉ l.requests ∧ l.answers = [] ∧ l.held = none

inductive Step : Link → Link → Prop where
  | add (l : Link) (i : Nat) : l.current = none → Step l { l with current := some (i, .new) }
  | remove (l : Link) :
      Step l { l with current := none, requests := l.requests ++ [.closeProxy] }
  | request (l : Link) (i : Nat) (p : Phase) : l.current = some (i, p) → p ≠ .running → l.Answered →
      Step l { l with
        current := some (i, .waitStart), requests := l.requests ++ [.newProxy] }
  | withdraw (l : Link) (i : Nat) :
      Step l { l with
        current := some (i, .checkFailed), requests := l.requests ++ [.closeProxy] }
  | accept (l : Link) (rest : List Kind) : l.requests = .newProxy :: rest → l.registered = false →
      Step l { l with requests := rest, answers := l.answers ++ [true], registered := true }
  | refuse (l : Link) (rest : List Kind) : l.requests = .newProxy :: rest →
      Step l { l with requests := rest, answers := l.answers ++ [false] }
  | drop (l : Link) (rest : List Kind) : l.requests = .closeProxy :: rest →
      Step l { l with requests := rest, registered := false }
  | take (l : Link) (ok : Bool) (rest : List Bool) : l.answers = ok :: rest → l.held = none →
      Step l { l with answers := rest, held := l.current.map fun c => (c.1, ok) }
  | ignore (l : Link) : (∀ i ok, l.held = some (i, ok) → l.current ≠ some (i, .waitStart)) →
      Step l { l with held := none }
  | run (l : Link) (i : Nat) : l.held = some (i, true) → l.current = some (i, .waitStart) →
      Step l { l with held := none, current := some (i, .running) }
  | fail (l : Link) (i : Nat) : l.held = some (i, false) → l.current = some (i, .waitStart) →
      Step l { l with held := none, current := some (i, .startErr) }
  | runFails (l : Link) (i : Nat) : l.held = some (i, true) → l.current = some (i, .waitStart) →
      Step l { l with
        held := none, current := some (i, .startErr), requests := l.requests ++ [.closeProxy] }

def Falls (l : Link) : Prop :=
  l.requests.getLast? = some .closeProxy ∨ l.requests = [] ∧ l.registered = false

/-- The request of wrapper `i` is on its way, or its answer, which says what the server has. -/
def Asked (l : Link) (i : Nat) : Prop :=
  (∃ k, l.requests = List.replicate k .closeProxy ++ [.newProxy] ∧
      (k = 0 → l.registered = false)) ∨
    l.requests = [] ∧ (l.answers = [l.registered] ∧ l.held = none ∨
      l.answers = [] ∧ l.held = some (i, l.registered))

def pending (l : Link) : Nat := l.requests.count .newProxy + l.answers.length + l.held.toList.length

structure Good (l : Link) : Prop where
  once : l.pending ≤ 1
  waitStart : ∀ i, l.current = some (i, .waitStart) → l.Asked i
  running : ∀ i, l.current = some (i, .running) → l.requests = [] ∧ l.registered = true ∧ l.Answered
  idle : (∀ i, l.current ≠ some (i, .waitStart) ∧ l.current ≠ some (i, .running)) → l.Falls

/-! A step changes the parts of a link in few ways, and each part of the invariant looks at few of
them. -/

variable {l : Link} {i : Nat} {rest : List Kind}

theorem Answered.pending_eq (h : l.Answered) : l.pending = 0 := by
  obtain ⟨hrequests, hanswers, hheld⟩ := h
  unfold pending
  rw [List.count_eq_zero_of_not_mem hrequests, hanswers, hheld]
  rfl

variable {requests : List Kind}

theorem eq_replicate_of_not_mem (h : .newProxy ∉ requests) :
    requests = List.replicate requests.length .closeProxy := by
  refine List.eq_replicate_iff.2 ⟨rfl, fun m hm => ?_⟩
  cases m with
  | newProxy => exact absurd hm h
  | closeProxy => rfl

theorem falls_of_append (h : l.requests = requests ++ [.closeProxy]) : l.Falls := by
  left
  rw [h, List.getLast?_append]
  rfl

theorem Asked.pending_pos (h : l.Asked i) : 0 < l.pending := by
  unfold pending
  rcases h with ⟨k, hrequests, -⟩ | ⟨-, ⟨hanswers, -⟩ | ⟨-, hheld⟩⟩
  · have hone : 0 < l.requests.count .newProxy := by
      rw [hrequests, List.count_append]
      exact Nat.lt_add_left _ (by decide)
    omega
  · rw [hanswers, List.length_singleton]
    omega
  · rw [hheld]
    exact Nat.succ_pos _

variable (h : l.Good)

include h

variable {p : Phase}

theorem Good.falls (hcur : l.current = some (i, p))
    (hwait : p ≠ .waitStart) (hrun : p ≠ .running) : l.Falls := by
  refine h.idle fun j => ?_
  rw [hcur]
  exact ⟨by rintro ⟨⟩; exact hwait rfl, by rintro ⟨⟩; exact hrun rfl⟩

omit h in
theorem good_of_falls (honce : l.pending ≤ 1) (hfalls : l.Falls)
    (hcur : ∀ i, l.current ≠ some (i, .waitStart) ∧ l.current ≠ some (i, .running)) : l.Good :=
  ⟨honce, fun i hi => absurd hi (hcur i).1, fun i hi => absurd hi (hcur i).2, fun _ => hfalls⟩

theorem Good.request (hcur : l.current = some (i, p)) (hrun : p ≠ .running) (hans : l.Answered) :
    Good { l with current := some (i, .waitStart), requests := l.requests ++ [.newProxy] } := by
  -- a wrapper that waits has a request that is not answered
  have hwait : p ≠ .waitStart := by
    rintro rfl
    have hpos := (h.waitStart i hcur).pending_pos
    rw [hans.pending_eq] at hpos
    exact Nat.lt_irrefl _ hpos
  have hfalls := h.falls hcur hwait hrun
  refine ⟨?_, ?_, ?_, ?_⟩
  · have hzero := hans.pending_eq
    unfold pending at hzero
    change (l.requests ++ [Kind.newProxy]).count .newProxy + l.answers.length +
      l.held.toList.length ≤ 1
    rw [List.count_append, List.count_singleton_self]
    omega
  · rintro j ⟨⟩
    -- all that is before the request closes the proxy; if there is nothing, the proxy is down
    refine .inl ⟨l.requests.length, ?_, fun hlen => ?_⟩
    · rw [← eq_replicate_of_not_mem hans.1]
    · have hnil := List.length_eq_zero_iff.1 hlen
      rcases hfalls with hlast | ⟨-, hreg⟩
      · rw [hnil] at hlast
        cases hlast
      · exact hreg
  · rintro j ⟨⟩
  · intro hidle
    exact absurd rfl (hidle i).1

variable {l' : Link}

omit h in
theorem Falls.tail (h : l.Falls) {m : Kind} (hrequests : l.requests = m :: rest)
    (hrest : l'.requests = rest) (hreg : m = .closeProxy → l'.registered = false) : l'.Falls := by
  rcases h with hlast | ⟨hnil, -⟩
  · rw [hrequests] at hlast
    cases rest with
    | nil => exact .inr ⟨hrest, hreg (Option.some.inj hlast)⟩
    | cons m' rest =>
      left
      rw [hrest, ← hlast, List.getLast?_cons_cons]
  · rw [hrequests] at hnil
    cases hnil

theorem Good.answer {ok reg : Bool} (hrequests : l.requests = .newProxy :: rest)
    (hreg : l.registered = false → reg = ok) :
    Good { l with requests := rest, answers := l.answers ++ [ok], registered := reg } := by
  have honce := h.once
  unfold pending at honce
  rw [hrequests, List.count_cons_self] at honce
  refine ⟨?_, ?_, ?_, ?_⟩
  · change rest.count .newProxy + (l.answers ++ [ok]).length + l.held.toList.length ≤ 1
    rw [List.length_append, List.length_singleton]
    omega
  · intro i hi
    have hanswers : l.answers = [] := List.length_eq_zero_iff.1 (by omega)
    have hheld : l.held = none := by
      have hlen : l.held.toList.length = 0 := by omega
      simpa using hlen
    rcases h.waitStart i hi with ⟨k, hk, hzero⟩ | ⟨hnil, -⟩
    · rw [hrequests] at hk
      -- the request is the first message, so it is the only one
      cases k with
      | zero =>
        obtain rfl : rest = [] := (List.cons.inj hk).2
        exact .inr ⟨rfl, .inl ⟨by rw [hanswers, hreg (hzero rfl)]; rfl, hheld⟩⟩
      | succ k => cases (List.cons.inj hk).1
    · rw [hrequests] at hnil
      cases hnil
  · intro i hi
    have hnil := (h.running i hi).1
    rw [hrequests] at hnil
    cases hnil
  · intro hidle
    exact (h.idle hidle).tail hrequests rfl nofun

theorem Good.drop (hrequests : l.requests = .closeProxy :: rest) :
    Good { l with requests := rest, registered := false } := by
  refine ⟨?_, ?_, ?_, ?_⟩
  · have honce := h.once
    unfold pending at honce
    rw [hrequests, List.count_cons_of_ne (by decide)] at honce
    exact honce
  · intro i hi
    rcases h.waitStart i hi with ⟨k, hk, -⟩ | ⟨hnil, -⟩
    · rw [hrequests] at hk
      cases k with
      | zero => cases (List.cons.inj hk).1
      | succ k => exact .inl ⟨k, (List.cons.inj hk).2, fun _ => rfl⟩
    · rw [hrequests] at hnil
      cases hnil
  · intro i hi
    have hnil := (h.running i hi).1
    rw [hrequests] at hnil
    cases hnil
  · intro hidle
    exact (h.idle hidle).tail hrequests rfl fun _ => rfl

variable {ok : Bool}

theorem Good.take {rest : List Bool} (hanswers : l.answers = ok :: rest) :
    Good { l with answers := rest, held := l.current.map fun c => (c.1, ok) } := by
  have honce := h.once
  unfold pending at honce
  rw [hanswers, List.length_cons] at honce
  obtain rfl : rest = [] := List.length_eq_zero_iff.1 (by omega)
  refine ⟨?_, ?_, ?_, ?_⟩
  · change l.requests.count .newProxy + 0 +
      (l.current.map fun c : Nat × Phase => (c.1, ok)).toList.length ≤ 1
    have hle : (l.current.map fun c : Nat × Phase => (c.1, ok)).toList.length ≤ 1 := by
      cases l.current <;> simp
    omega
  · intro i hi
    have hcur : l.current = some (i, .waitStart) := hi
    rcases h.waitStart i hi with ⟨k, hk, -⟩ | ⟨hnil, ⟨hreg, -⟩ | ⟨hnone, -⟩⟩
    · rw [hk, List.count_append, List.count_singleton_self] at honce
      omega
    · rw [hanswers] at hreg
      refine .inr ⟨hnil, .inr ⟨rfl, ?_⟩⟩
      rw [hcur, ← (List.cons.inj hreg).1]
      rfl
    · rw [hanswers] at hnone
      cases hnone
  · intro i hi
    have hnil := (h.running i hi).2.2.2.1
    rw [hanswers] at hnil
    cases hnil
  · exact h.idle

theorem Good.ignore (hheld : ∀ i ok, l.held = some (i, ok) → l.current ≠ some (i, .waitStart)) :
    Good { l with held := none } := by
  refine ⟨?_, ?_, ?_, h.idle⟩
  · exact Nat.le_trans (Nat.add_le_add_left (Nat.zero_le _) _) h.once
  · intro i hi
    rcases h.waitStart i hi with hask | ⟨hnil, ⟨hanswers, -⟩ | ⟨-, hsome⟩⟩
    · exact .inl hask
    · exact .inr ⟨hnil, .inl ⟨hanswers, rfl⟩⟩
    · exact absurd hi (hheld i _ hsome)
  · intro i hi
    obtain ⟨hnil, hreg, hrequests, hanswers, -⟩ := h.running i hi
    exact ⟨hnil, hreg, hrequests, hanswers, rfl⟩

theorem Good.waited (hheld : l.held = some (i, ok)) (hcur : l.current = some (i, .waitStart)) :
    l.requests = [] ∧ l.answers = [] ∧ l.registered = ok := by
  have honce := h.once
  unfold pending at honce
  rw [hheld, Option.toList_some, List.length_singleton] at honce
  rcases h.waitStart i hcur with ⟨k, hk, -⟩ | ⟨hnil, ⟨-, hnone⟩ | ⟨hanswers, hsome⟩⟩
  · rw [hk, List.count_append, List.count_singleton_self] at honce
    omega
  · rw [hheld] at hnone
    cases hnone
  · rw [hheld] at hsome
    exact ⟨hnil, hanswers, (Prod.mk.inj (Option.some.inj hsome)).2.symm⟩

theorem Good.closes {current : Option (Nat × Phase)}
    (hcur : ∀ i, current ≠ some (i, .waitStart) ∧ current ≠ some (i, .running)) :
    Good { l with current, requests := l.requests ++ [.closeProxy] } := by
  refine good_of_falls ?_ (falls_of_append rfl) hcur
  have honce := h.once
  unfold pending at honce ⊢
  rwa [List.count_append, List.count_singleton, if_neg (by decide), Nat.add_zero]

theorem Good.registered_iff (hrequests : l.requests = []) (hanswers : l.answers = [])
    (hheld : l.held = none) : l.registered = true ↔ ∃ i, l.current = some (i, .running) := by
  -- nobody waits, since a wrapper that does has something on its way
  have hwait : ∀ i, l.current ≠ some (i, .waitStart) := by
    intro i hi
    have hpos := (h.waitStart i hi).pending_pos
    unfold pending at hpos
    rw [hrequests, hanswers, hheld] at hpos
    exact Nat.lt_irrefl 0 hpos
  constructor
  · intro hreg
    by_contra hnot
    rcases h.idle fun i => ⟨hwait i, fun hi => hnot ⟨i, hi⟩⟩ with hlast | ⟨-, hfree⟩
    · rw [hrequests] at hlast
      cases hlast
    · rw [hreg] at hfree
      cases hfree
  · rintro ⟨i, hi⟩
    exact (h.running i hi).2.1

theorem Good.step (hstep : Step l l') : l'.Good := by
  cases hstep with
  | add i hnone =>
    refine good_of_falls h.once (h.idle fun j => ?_) fun j => ⟨nofun, nofun⟩
    rw [hnone]
    exact ⟨nofun, nofun⟩
  | request i p hcur hrun hans => exact h.request hcur hrun hans
  | remove | withdraw => exact h.closes fun j => ⟨nofun, nofun⟩
  | accept rest hrequests hreg => exact h.answer hrequests fun _ => rfl
  | refuse rest hrequests => exact h.answer hrequests id
  | drop rest hrequests => exact h.drop hrequests
  | take ok rest hanswers _ => exact h.take hanswers
  | ignore hheld => exact h.ignore hheld
  | run i hheld hcur =>
    obtain ⟨hnil, hanswers, hreg⟩ := h.waited hheld hcur
    refine ⟨?_, ?_, ?_, ?_⟩
    · exact Nat.le_trans (Nat.add_le_add_left (Nat.zero_le _) _) h.once
    · rintro j ⟨⟩
    · rintro j ⟨⟩
      exact ⟨hnil, hreg, by rw [hnil]; exact List.not_mem_nil, hanswers, rfl⟩
    · intro hidle
      exact absurd rfl (hidle i).2
  | fail i hheld hcur =>
    obtain ⟨hnil, -, hreg⟩ := h.waited hheld hcur
    refine good_of_falls ?_ (.inr ⟨hnil, hreg⟩) fun j => ⟨nofun, nofun⟩
    exact Nat.le_trans (Nat.add_le_add_left (Nat.zero_le _) _) h.once
  | runFails i hheld hcur =>
    -- the wrapper gives the proxy up, and then nobody waits for the answer
    have hcloses : Good { l with
        current := some (i, .startErr), requests := l.requests ++ [.closeProxy] } :=
      h.closes fun j => ⟨nofun, nofun⟩
    exact hcloses.ignore fun j ok _ => nofun

end Link

/-! ## The system follows the protocol -/

namespace State

def link (s : State) (name : String) : Link where
  current := (s.proxies name).map fun i => (i, (s.wrapper i).phase)
  requests := s.toServer.filterMap fun m => if m.proxyName = name then some m.kind else none
  answers := s.toClient.filterMap fun resp => if resp.proxyName = name then some resp.ok else none
  held := s.reader.bind fun held =>
    if held.2.proxyName = name then some (held.1, held.2.ok) else none
  registered := s.registered name

structure Sound (s : State) : Prop where
  named : ∀ name i, s.proxies name = some i → (s.wrapper i).name = name ∧ i < s.nextWrapper
  retired : ∀ i, s.proxies (s.wrapper i).name ≠ some i → (s.wrapper i).phase = .closed
  held : ∀ i resp, s.reader = some (i, resp) →
    (s.wrapper i).name = resp.proxyName ∧ i < s.nextWrapper

variable {s : State}

theorem Sound.kept (h : s.Sound) {i : Nat} (hphase : (s.wrapper i).phase ≠ .closed) :
    s.proxies (s.wrapper i).name = some i := by
  by_contra hnot
  exact hphase (h.retired i hnot)

theorem Answered.link {name : String} (h : s.Answered name) : (s.link name).Answered := by
  obtain ⟨hrequests, hanswers, hheld⟩ := h
  refine ⟨?_, ?_, ?_⟩
  · intro hmem
    obtain ⟨m, hm, hsome⟩ := List.mem_filterMap.1 hmem
    split_ifs at hsome with hname
    refine hrequests m hm ?_
    rw [← hname, ← Option.some.inj hsome]
  · refine List.filterMap_eq_nil_iff.2 fun resp hresp => ?_
    rw [if_neg (hanswers resp hresp)]
  · unfold State.link
    cases hreader : s.reader with
    | none => rfl
    | some held => rw [Option.bind_some, if_neg (hheld held hreader)]

section Put

variable {i : Nat} {done : Wrapper × List ToServer}

theorem Sound.link_put_of_ne (h : s.Sound) (hsent : ∀ m ∈ done.2, m.proxyName = (s.wrapper i).name)
    {name : String} (hname : name ≠ (s.wrapper i).name) :
    (s.put i done).link name = s.link name := by
  have hcur : ((s.put i done).link name).current = (s.link name).current := by
    refine Option.map_congr fun j hj => ?_
    have hji : j ≠ i := by
      rintro rfl
      exact hname (h.named name j hj).1.symm
    change (j, (update s.wrapper i done.1 j).phase) = _
    rw [update_of_ne hji]
  have hrequests : ((s.put i done).link name).requests = (s.link name).requests := by
    change (s.toServer ++ done.2).filterMap _ = _
    rw [List.filterMap_append]
    refine (congrArg _ (List.filterMap_eq_nil_iff.2 fun m hm => ?_)).trans (List.append_nil _)
    rw [if_neg fun heq => hname (heq.symm.trans (hsent m hm))]
  exact Link.ext hcur hrequests rfl rfl rfl

theorem link_put_of_silent {w : Wrapper} (hphase : w.phase = (s.wrapper i).phase) {name : String} :
    (s.put i (w, [])).link name = s.link name := by
  have hcur : ((s.put i (w, [])).link name).current = (s.link name).current := by
    refine Option.map_congr fun j _ => ?_
    change (j, (update s.wrapper i w j).phase) = _
    by_cases hji : j = i
    · rw [hji, update_self, hphase]
    · rw [update_of_ne hji]
  have hrequests : ((s.put i (w, [])).link name).requests = (s.link name).requests :=
    congrArg (List.filterMap _) (List.append_nil _)
  exact Link.ext hcur hrequests rfl rfl rfl

theorem link_put_of_kept (w : Wrapper) (sent : List Kind) {name : String}
    (hkept : s.proxies name = some i) : (s.put i (w, sent.map fun kind => ⟨kind, name⟩)).link name =
      { s.link name with
        current := some (i, w.phase), requests := (s.link name).requests ++ sent } := by
  have hcur : ((s.put i (w, sent.map fun kind => ⟨kind, name⟩)).link name).current =
      some (i, w.phase) := by
    change (s.proxies name).map _ = _
    rw [hkept, Option.map_some]
    change some (i, (update s.wrapper i w i).phase) = _
    rw [update_self]
  have hrequests : ((s.put i (w, sent.map fun kind => ⟨kind, name⟩)).link name).requests =
      (s.link name).requests ++ sent := by
    change (s.toServer ++ sent.map _).filterMap _ = _
    rw [List.filterMap_append, List.filterMap_map]
    refine congrArg _ ((List.filterMap_congr fun kind _ => ?_).trans List.filterMap_some)
    exact if_pos rfl
  exact Link.ext hcur hrequests rfl rfl rfl

theorem put_self : s.put i (s.wrapper i, []) = s := by
  unfold put
  rw [update_eq_self, List.append_nil]

end Put

/-! ### One action -/

def Follows (s t : State) : Prop :=
  ∀ name, t.link name = s.link name ∨ (s.link name).Step (t.link name)

section Steps

variable {t : State}

theorem follows_of_step (name : String)
    (hother : ∀ other, other ≠ name → t.link other = s.link other)
    (hstep : (s.link name).Step (t.link name)) : s.Follows t := by
  intro other
  by_cases hname : other = name
  · rw [hname]
    exact .inr hstep
  · exact .inl (hother other hname)

variable {name : String} {resp : NewProxyResp} {i : Nat} {w : Wrapper}

theorem requests_of_head {kind : Kind} (hhead : s.toServer.head? = some ⟨kind, name⟩)
    (htail : t.toServer = s.toServer.tail) :
    (s.link name).requests = kind :: (t.link name).requests ∧
      ∀ other, other ≠ name → (t.link other).requests = (s.link other).requests := by
  have hcons : s.toServer = ⟨kind, name⟩ :: t.toServer := by
    rw [htail]
    exact List.eq_cons_of_mem_head? hhead
  constructor
  · change s.toServer.filterMap _ = _
    rw [hcons, List.filterMap_cons, if_pos rfl]
    rfl
  · intro other hne
    change _ = s.toServer.filterMap _
    rw [hcons, List.filterMap_cons, if_neg (Ne.symm hne)]
    rfl

theorem follows_handleCloseProxy (hen : Enabled s (.handleCloseProxy name)) :
    s.Follows (next s (.handleCloseProxy name)) := by
  obtain ⟨hown, hother⟩ := requests_of_head (t := next s (.handleCloseProxy name)) hen rfl
  refine follows_of_step name (fun other hne => ?_) ?_
  · exact Link.ext rfl (hother other hne) rfl rfl (update_of_ne hne _ _)
  · have hlink : (next s (.handleCloseProxy name)).link name =
        { s.link name with
          requests := ((next s (.handleCloseProxy name)).link name).requests
          registered := false } := Link.ext rfl rfl rfl rfl (update_self ..)
    rw [hlink]
    exact Link.Step.drop _ _ hown

theorem answers_handleNewProxy (name remoteAddr error other : String) :
    ((next s (.handleNewProxy name remoteAddr error)).link other).answers =
      (s.link other).answers ++ if name = other then [error == ""] else [] := by
  change (s.toClient ++ [_]).filterMap _ = _
  rw [List.filterMap_append]
  refine congrArg _ ?_
  by_cases hname : name = other
  · rw [if_pos hname]
    exact List.filterMap_cons_some (if_pos hname)
  · rw [if_neg hname]
    exact List.filterMap_cons_none (if_neg hname)

theorem follows_handleNewProxy {remoteAddr error : String}
    (hen : Enabled s (.handleNewProxy name remoteAddr error)) :
    s.Follows (next s (.handleNewProxy name remoteAddr error)) := by
  obtain ⟨hown, hother⟩ :=
    requests_of_head (t := next s (.handleNewProxy name remoteAddr error)) hen.1 rfl
  refine follows_of_step name (fun other hne => ?_) ?_
  · refine Link.ext rfl (hother other hne) ?_ rfl ?_
    · rw [answers_handleNewProxy, if_neg (Ne.symm hne), List.append_nil]
    · simp only [next]
      split_ifs
      · exact update_of_ne hne _ _
      · rfl
  · have hanswers := answers_handleNewProxy (s := s) name remoteAddr error name
    rw [if_pos rfl] at hanswers
    by_cases herror : error = ""
    · have hfree : (s.link name).registered = false := by
        cases hreg : s.registered name with
        | false => exact hreg
        | true => exact absurd herror (hen.2 hreg)
      have hlink : (next s (.handleNewProxy name remoteAddr error)).link name =
          { s.link name with
            requests := ((next s (.handleNewProxy name remoteAddr error)).link name).requests
            answers := (s.link name).answers ++ [true]
            registered := true } := by
        refine Link.ext rfl rfl (hanswers.trans (by rw [herror]; rfl)) rfl ?_
        change (if error = "" then update s.registered name true
          else s.registered) name = _
        rw [if_pos herror, update_self]
      rw [hlink]
      exact Link.Step.accept _ _ hown hfree
    · have hlink : (next s (.handleNewProxy name remoteAddr error)).link name =
          { s.link name with
            requests := ((next s (.handleNewProxy name remoteAddr error)).link name).requests
            answers := (s.link name).answers ++ [false] } := by
        refine Link.ext rfl rfl (hanswers.trans (by rw [beq_false_of_ne herror])) rfl ?_
        change (if error = "" then update s.registered name true
          else s.registered) name = _
        rw [if_neg herror]
        rfl
      rw [hlink]
      exact Link.Step.refuse _ _ hown

theorem follows_handleNewProxyResp (hen : Enabled s (.handleNewProxyResp resp)) :
    s.Follows (next s (.handleNewProxyResp resp)) := by
  obtain ⟨hreader, hhead⟩ := hen
  have hcons : s.toClient = resp :: s.toClient.tail := List.eq_cons_of_mem_head? hhead
  refine follows_of_step resp.proxyName (fun other hne => ?_) ?_
  · refine Link.ext rfl rfl ?_ ?_ rfl
    · change _ = s.toClient.filterMap _
      rw [hcons, List.filterMap_cons, if_neg (Ne.symm hne)]
      rfl
    · change ((s.proxies resp.proxyName).map fun i => (i, resp)).bind _ = s.reader.bind _
      rw [hreader]
      cases s.proxies resp.proxyName with
      | none => rfl
      | some i => exact if_neg (Ne.symm hne)
  · have hanswers : (s.link resp.proxyName).answers =
        resp.ok :: ((next s (.handleNewProxyResp resp)).link resp.proxyName).answers := by
      change s.toClient.filterMap _ = _
      rw [hcons, List.filterMap_cons, if_pos rfl]
      rfl
    have hheld : (s.link resp.proxyName).held = none := by
      change s.reader.bind _ = none
      rw [hreader]
      rfl
    have hlink : (next s (.handleNewProxyResp resp)).link resp.proxyName =
        { s.link resp.proxyName with
          answers := ((next s (.handleNewProxyResp resp)).link resp.proxyName).answers
          held := (s.link resp.proxyName).current.map fun c => (c.1, resp.ok) } := by
      refine Link.ext rfl rfl rfl ?_ rfl
      change ((s.proxies resp.proxyName).map fun i => (i, resp)).bind _ =
        ((s.proxies resp.proxyName).map _).map _
      cases s.proxies resp.proxyName with
      | none => rfl
      | some i => exact if_pos rfl
    rw [hlink]
    exact Link.Step.take _ _ _ hanswers hheld

theorem Sound.follows_put (h : s.Sound) (sent : List Kind) (hkept : s.proxies name = some i)
    (hstep : (s.link name).Step { s.link name with
        current := some (i, w.phase), requests := (s.link name).requests ++ sent }) :
    s.Follows (s.put i (w, sent.map fun kind => ⟨kind, name⟩)) := by
  obtain ⟨hname, -⟩ := h.named name i hkept
  refine follows_of_step name (fun other hne => ?_) ?_
  · refine h.link_put_of_ne ?_ (hname.symm ▸ hne)
    intro m hm
    obtain ⟨kind, -, rfl⟩ := List.mem_map.1 hm
    exact hname.symm
  · rw [link_put_of_kept w sent hkept]
    exact hstep

theorem follows_put_of_silent (hphase : w.phase = (s.wrapper i).phase) :
    s.Follows (s.put i (w, [])) :=
  fun name => .inl (link_put_of_silent hphase)

variable {now : Nat} {pw : Wrapper}

theorem ne_running_of_starts (h : pw.starts now = true) :
    pw.phase ≠ .running ∧ pw.phase ≠ .closed := by
  unfold Wrapper.starts at h
  cases hphase : pw.phase <;> simp [hphase] at h ⊢

theorem Sound.follows_check (h : s.Sound) {failed : Bool}
    (hok : AsksOnce s (.check i now failed)) : s.Follows (next s (.check i now failed)) := by
  simp only [next, Wrapper.checkWorker]
  split_ifs with hhealthy hstarts hactive
  · -- A request: the wrapper is one of the manager, and every earlier request is answered.
    obtain ⟨hrun, hclosed⟩ := ne_running_of_starts hstarts
    have hkept := h.kept hclosed
    refine h.follows_put [.newProxy] hkept ?_
    refine Link.Step.request _ i (s.wrapper i).phase ?_ hrun (hok hhealthy hstarts).link
    exact congrArg (Option.map _) hkept
  · exact follows_put_of_silent rfl
  · have hclosed : (s.wrapper i).phase ≠ .closed := by
      intro hclosed
      rcases hactive with hactive | hactive <;> cases hactive.symm.trans hclosed
    exact h.follows_put [.closeProxy] (h.kept hclosed) (Link.Step.withdraw _ i)
  · exact follows_put_of_silent rfl

theorem link_release_of_ne (hreader : s.reader = some (i, resp)) (hne : name ≠ resp.proxyName) :
    State.link { s with reader := none } name = s.link name := by
  refine Link.ext rfl rfl rfl ?_ rfl
  change none = s.reader.bind _
  rw [hreader, Option.bind_some, if_neg (Ne.symm hne)]

theorem held_of_reader (hreader : s.reader = some (i, resp)) :
    (s.link resp.proxyName).held = some (i, resp.ok) := by
  change s.reader.bind _ = _
  rw [hreader, Option.bind_some, if_pos rfl]

theorem follows_ignore (hreader : s.reader = some (i, resp))
    (hphase : (s.wrapper i).phase ≠ .waitStart) : s.Follows { s with reader := none } := by
  refine follows_of_step resp.proxyName (fun other hne => link_release_of_ne hreader hne) ?_
  refine Link.Step.ignore _ fun j ok hheld hcur => ?_
  rw [held_of_reader hreader] at hheld
  obtain ⟨rfl, -⟩ := Prod.mk.inj (Option.some.inj hheld)
  obtain ⟨j, -, hj⟩ := Option.map_eq_some_iff.1 hcur
  obtain ⟨rfl, hwait⟩ := Prod.mk.inj hj
  exact hphase hwait

theorem Sound.follows_take (h : s.Sound) (sent : List Kind) (hreader : s.reader = some (i, resp))
    (hkept : s.proxies resp.proxyName = some i) (hstep : (s.link resp.proxyName).Step
      { s.link resp.proxyName with
        current := some (i, w.phase)
        requests := (s.link resp.proxyName).requests ++ sent
        held := none }) :
    s.Follows { s.put i (w, sent.map fun kind => ⟨kind, resp.proxyName⟩) with reader := none } := by
  refine follows_of_step resp.proxyName (fun other hne => ?_) ?_
  · refine (link_release_of_ne (s := s.put i _) hreader hne).trans (h.link_put_of_ne ?_ ?_)
    · intro m hm
      obtain ⟨kind, -, rfl⟩ := List.mem_map.1 hm
      exact (h.held i resp hreader).1.symm
    · rw [(h.held i resp hreader).1]
      exact hne
  · have hlink := link_put_of_kept w sent hkept
    change (s.link resp.proxyName).Step
      { (s.put i (w, sent.map fun kind => ⟨kind, resp.proxyName⟩)).link resp.proxyName with
        held := none }
    rw [hlink]
    exact hstep

theorem Sound.follows_setRunningStatus (h : s.Sound) {runErr : Option String}
    (hen : Enabled s (.setRunningStatus i resp runErr)) :
    s.Follows (next s (.setRunningStatus i resp runErr)) := by
  have hreader : s.reader = some (i, resp) := hen
  have hheld := held_of_reader hreader
  simp only [next, Wrapper.setRunningStatus]
  by_cases hphase : (s.wrapper i).phase = .waitStart
  · have hkept : s.proxies resp.proxyName = some i := by
      rw [← (h.held i resp hreader).1]
      exact h.kept (by rw [hphase]; rintro ⟨⟩)
    have hcur : (s.link resp.proxyName).current = some (i, .waitStart) := by
      rw [← hphase]
      exact congrArg (Option.map _) hkept
    have hclose : (s.wrapper i).close = [.closeProxy].map fun kind => ⟨kind, resp.proxyName⟩ := by
      rw [← (h.held i resp hreader).1]
      rfl
    rw [if_neg (not_not.2 hphase)]
    by_cases herror : resp.error = ""
    · rw [if_neg (not_not.2 herror)]
      have hok : resp.ok = true := by
        unfold NewProxyResp.ok
        rw [herror]
        rfl
      rw [hok] at hheld
      cases runErr with
      | none =>
        refine h.follows_take [] hreader hkept ?_
        rw [List.append_nil]
        exact Link.Step.run _ i hheld hcur
      | some err =>
        rw [hclose]
        exact h.follows_take [.closeProxy] hreader hkept (Link.Step.runFails _ i hheld hcur)
    · rw [if_pos herror]
      have hok : resp.ok = false := beq_false_of_ne herror
      rw [hok] at hheld
      refine h.follows_take [] hreader hkept ?_
      rw [List.append_nil]
      exact Link.Step.fail _ i hheld hcur
  · rw [if_pos hphase, put_self]
    exact follows_ignore hreader hphase

theorem Sound.follows_remove (h : s.Sound) (hen : Enabled s (.remove name i)) :
    s.Follows (next s (.remove name i)) := by
  have hkept : s.proxies name = some i := hen
  obtain ⟨hname, -⟩ := h.named name i hkept
  have hclose : (s.wrapper i).close = [.closeProxy].map fun kind => ⟨kind, name⟩ := by
    rw [← hname]
    rfl
  have hlink : (next s (.remove name i)).link name =
      { s.link name with
        current := none, requests := (s.link name).requests ++ [.closeProxy] } := by
    have hput := link_put_of_kept { s.wrapper i with phase := .closed } [.closeProxy] hkept
    rw [← hclose] at hput
    have hrequests : ((s.put i (s.wrapper i).stop).link name).requests =
        (s.link name).requests ++ [.closeProxy] := congrArg Link.requests hput
    refine Link.ext ?_ hrequests rfl rfl rfl
    change (update s.proxies name none name).map _ = none
    rw [update_self, Option.map_none]
  refine follows_of_step name (fun other hne => ?_) ?_
  · have hput : (s.put i (s.wrapper i).stop).link other = s.link other := by
      refine h.link_put_of_ne ?_ (hname.symm ▸ hne)
      intro m hm
      rw [List.mem_singleton.1 hm]
    rw [← hput]
    refine Link.ext ?_ rfl rfl rfl rfl
    change (update s.proxies name none other).map _ = _
    rw [update_of_ne hne]
    rfl
  · rw [hlink]
    exact Link.Step.remove _

variable {monitored : Bool}

theorem Sound.follows_add (h : s.Sound) (hen : Enabled s (.add name monitored)) :
    s.Follows (next s (.add name monitored)) := by
  have hnone : s.proxies name = none := hen
  refine follows_of_step name (fun other hne => ?_) ?_
  · refine Link.ext ?_ rfl rfl rfl rfl
    change (update s.proxies name (some s.nextWrapper) other).map _ = _
    rw [update_of_ne hne]
    refine Option.map_congr fun j hj => ?_
    have hold : (next s (.add name monitored)).wrapper j = s.wrapper j :=
      update_of_ne (Nat.ne_of_lt (h.named other j hj).2) _ _
    rw [hold]
  · have hlink : (next s (.add name monitored)).link name =
        { s.link name with current := some (s.nextWrapper, .new) } := by
      refine Link.ext ?_ rfl rfl rfl rfl
      change (update s.proxies name (some s.nextWrapper) name).map _ = _
      have hnew : (next s (.add name monitored)).wrapper s.nextWrapper =
          newWrapper name monitored := update_self ..
      rw [update_self, Option.map_some, hnew]
      rfl
    rw [hlink]
    exact Link.Step.add _ _ (congrArg (Option.map _) hnone)

variable {a : Action}

theorem Sound.follows (h : s.Sound) (hen : Enabled s a) (hok : AsksOnce s a) :
    s.Follows (next s a) := by
  cases a with
  | advance d => exact fun name => .inl rfl
  | remove name i => exact h.follows_remove hen
  | add name monitored => exact h.follows_add hen
  | setHealth | look => exact follows_put_of_silent rfl
  | check i now failed => exact h.follows_check hok
  | handleNewProxy name remoteAddr error => exact follows_handleNewProxy hen
  | handleCloseProxy name => exact follows_handleCloseProxy hen
  | handleNewProxyResp resp => exact follows_handleNewProxyResp hen
  | setRunningStatus i resp runErr => exact h.follows_setRunningStatus hen

/-! ### The objects of the client -/

theorem Sound.put (h : s.Sound) {done : Wrapper × List ToServer}
    (hname : done.1.name = (s.wrapper i).name)
    (hphase : (s.wrapper i).phase = .closed → done.1.phase = .closed) : (s.put i done).Sound := by
  have hnames : ∀ j, ((s.put i done).wrapper j).name = (s.wrapper j).name :=
    (forall_update_iff s.wrapper (p := fun j w => w.name = (s.wrapper j).name)).2
      ⟨hname, fun _ _ => rfl⟩
  have hphases : ∀ j, (s.wrapper j).phase = .closed → ((s.put i done).wrapper j).phase = .closed :=
    (forall_update_iff s.wrapper
      (p := fun j w => (s.wrapper j).phase = .closed → w.phase = .closed)).2 ⟨hphase, fun _ _ => id⟩
  refine ⟨?_, ?_, ?_⟩
  · intro name j hj
    rw [hnames]
    exact h.named name j hj
  · intro j hj
    rw [hnames] at hj
    exact hphases j (h.retired j hj)
  · intro j resp hj
    rw [hnames]
    exact h.held j resp hj

theorem checkWorker_closed (pw : Wrapper) (h : pw.phase = .closed) (now : Nat) (failed : Bool) :
    (pw.checkWorker now failed).1.phase = .closed := by
  unfold Wrapper.checkWorker Wrapper.starts
  cases failed <;> simp [h]

theorem checkWorker_name (pw : Wrapper) (now : Nat) (failed : Bool) :
    (pw.checkWorker now failed).1.name = pw.name := by
  unfold Wrapper.checkWorker
  split_ifs <;> rfl

theorem setRunningStatus_closed (h : pw.phase = .closed) (now : Nat)
    (remoteAddr respErr : String) (runErr : Option String) :
    (pw.setRunningStatus now remoteAddr respErr runErr).1.phase = .closed := by
  unfold Wrapper.setRunningStatus
  rw [if_pos (by rw [h]; rintro ⟨⟩)]
  exact h

theorem setRunningStatus_name (pw : Wrapper) (now : Nat) (remoteAddr respErr : String)
    (runErr : Option String) :
    (pw.setRunningStatus now remoteAddr respErr runErr).1.name = pw.name := by
  unfold Wrapper.setRunningStatus
  split_ifs
  · rfl
  · rfl
  · cases runErr <;> rfl

theorem Sound.remove (h : s.Sound) (hen : Enabled s (.remove name i)) :
    (next s (.remove name i)).Sound := by
  have hkept : s.proxies name = some i := hen
  have hput : (s.put i (s.wrapper i).stop).Sound := h.put rfl fun _ => rfl
  refine ⟨?_, ?_, hput.held⟩
  · intro other j hj
    have hne : other ≠ name := by
      rintro rfl
      rw [show (next s (.remove other i)).proxies other = none from update_self ..] at hj
      cases hj
    exact hput.named other j ((update_of_ne hne _ _).symm.trans hj)
  · intro j hj
    by_cases hji : j = i
    · rw [hji]
      exact congrArg Wrapper.phase (update_self i _ s.wrapper)
    · refine hput.retired j fun hj' => ?_
      have hne : ((s.put i (s.wrapper i).stop).wrapper j).name ≠ name := by
        intro hname
        rw [hname] at hj'
        exact hji (Option.some.inj (hj'.symm.trans hkept))
      exact hj ((update_of_ne hne _ _).trans hj')

theorem Sound.add (h : s.Sound) (hen : Enabled s (.add name monitored)) :
    (next s (.add name monitored)).Sound := by
  have hnone : s.proxies name = none := hen
  have hnew : (next s (.add name monitored)).wrapper s.nextWrapper = newWrapper name monitored :=
    update_self ..
  have hold : ∀ j, j ≠ s.nextWrapper →
      (next s (.add name monitored)).wrapper j = s.wrapper j :=
    fun j hj => update_of_ne hj _ _
  have hself : (next s (.add name monitored)).proxies name = some s.nextWrapper :=
    update_self ..
  have hother : ∀ other, other ≠ name →
      (next s (.add name monitored)).proxies other = s.proxies other :=
    fun other hne => update_of_ne hne _ _
  refine ⟨?_, ?_, ?_⟩
  · intro other j hj
    by_cases hne : other = name
    · subst hne
      obtain rfl := Option.some.inj (hself.symm.trans hj)
      exact ⟨congrArg Wrapper.name hnew, Nat.lt_succ_self _⟩
    · rw [hother other hne] at hj
      obtain ⟨hname, hlt⟩ := h.named other j hj
      rw [hold j (Nat.ne_of_lt hlt)]
      exact ⟨hname, Nat.lt_succ_of_lt hlt⟩
  · intro j hj
    by_cases hjn : j = s.nextWrapper
    · rw [hjn, hnew] at hj
      exact absurd hself hj
    · rw [hold j hjn] at hj ⊢
      refine h.retired j fun hj' => hj ?_
      have hne : (s.wrapper j).name ≠ name := by
        intro hname
        rw [hname, hnone] at hj'
        cases hj'
      rw [hother _ hne]
      exact hj'
  · intro j resp hj
    obtain ⟨hname, hlt⟩ := h.held j resp hj
    rw [hold j (Nat.ne_of_lt hlt)]
    exact ⟨hname, Nat.lt_succ_of_lt hlt⟩

theorem Sound.next (h : s.Sound) (hen : Enabled s a) : (next s a).Sound := by
  cases a with
  | remove name i => exact h.remove hen
  | add name monitored => exact h.add hen
  | setHealth | look => exact h.put rfl id
  | check i now failed =>
    exact h.put (checkWorker_name ..) fun hclosed =>
      checkWorker_closed { s.wrapper i with seen := none } hclosed now failed
  | advance | handleNewProxy | handleCloseProxy => exact { h with }
  | handleNewProxyResp resp =>
    refine ⟨h.named, h.retired, ?_⟩
    intro i resp' hi
    obtain ⟨j, hj, heq⟩ := Option.map_eq_some_iff.1 hi
    obtain ⟨rfl, rfl⟩ := Prod.mk.inj heq
    exact h.named resp.proxyName j hj
  | setRunningStatus i resp runErr =>
    have hput := h.put (setRunningStatus_name (s.wrapper i) s.now resp.remoteAddr resp.error runErr)
      fun hclosed => setRunningStatus_closed hclosed ..
    exact ⟨hput.named, hput.retired, by rintro _ _ ⟨⟩⟩

end Steps

/-! ## Whole runs -/

theorem inv_of_reach (hreach : Reach step AsksOnce init s) :
    s.Sound ∧ ∀ name, (s.link name).Good := by
  refine invariant_of_next (P := fun s : State => s.Sound ∧ ∀ name, (s.link name).Good) ?_ ?_
    hreach
  · refine ⟨⟨by rintro _ _ ⟨⟩, fun _ _ => rfl, by rintro _ _ ⟨⟩⟩, fun name => ?_⟩
    exact Link.good_of_falls (Nat.zero_le 1) (.inr ⟨rfl, rfl⟩) fun i =>
      ⟨nofun, nofun⟩
  · rintro u a ⟨hsound, hgood⟩ hok hen
    refine ⟨hsound.next hen, fun name => ?_⟩
    rcases hsound.follows hen hok name with hrest | hmove
    · rw [hrest]
      exact hgood name
    · exact (hgood name).step hmove

end State

theorem running_iff_registered (s : State) (hreach : Reach step AsksOnce init s)
    (hquiet : s.Quiet) : Agree s := by
  obtain ⟨-, hgood⟩ := State.inv_of_reach hreach
  obtain ⟨hserver, hclient, hreader⟩ := hquiet
  intro name
  have hiff : s.registered name = true ↔ ∃ i, (s.link name).current = some (i, .running) :=
    (hgood name).registered_iff (congrArg (List.filterMap _) hserver)
      (congrArg (List.filterMap _) hclient) (congrArg (Option.bind · _) hreader)
  constructor
  · intro i hi
    have hcur : (s.link name).current = some (i, (s.wrapper i).phase) := congrArg (Option.map _) hi
    rw [hiff, hcur]
    constructor
    · intro hphase
      exact ⟨i, by rw [hphase]⟩
    · rintro ⟨j, hj⟩
      exact (Prod.mk.inj (Option.some.inj hj)).2
  · intro hnone
    have hcur : (s.link name).current = none := congrArg (Option.map _) hnone
    rw [← Bool.not_eq_true, hiff, hcur]
    rintro ⟨i, ⟨⟩⟩

def onceRun : List Action :=
  [.add "web" true, .setHealth 0 false, .look 0, .check 0 0 false,
    .handleNewProxy "web" ":6000" "", .handleNewProxyResp ⟨"web", ":6000", ""⟩,
    .setRunningStatus 0 ⟨"web", ":6000", ""⟩ none, .setHealth 0 true, .look 0, .check 0 0 true,
    .setHealth 0 false, .look 0, .check 0 0 false, .handleCloseProxy "web",
    .handleNewProxy "web" ":6000" "", .handleNewProxyResp ⟨"web", ":6000", ""⟩,
    .setRunningStatus 0 ⟨"web", ":6000", ""⟩ none, .remove "web" 0, .add "web" false, .look 1,
    .check 1 0 false, .handleCloseProxy "web", .handleNewProxy "web" "" "port unavailable",
    .handleNewProxyResp ⟨"web", "", "port unavailable"⟩,
    .setRunningStatus 1 ⟨"web", "", "port unavailable"⟩ none]

theorem running_iff_registered_onceRun :
    let s := (run step AsksOnce init onceRun).getD init
    s.Quiet ∧ s.proxies "web" = some 1 ∧ (s.wrapper 1).phase = .startErr ∧
      s.registered "web" = false := by
  intro s
  have hreach : Reach step AsksOnce init s := reach_getD_of_isSome (by decide +kernel)
  have hquiet : s.Quiet := by decide +kernel
  have hcur : s.proxies "web" = some 1 := by decide +kernel
  have hphase : (s.wrapper 1).phase = .startErr := by decide +kernel
  refine ⟨hquiet, hcur, hphase, ?_⟩
  have hiff := (running_iff_registered s hreach hquiet "web").1 1 hcur
  rw [hphase] at hiff
  rw [← Bool.not_eq_true, ← hiff]
  nofun

/-! ## The counterexamples -/

def resendRun : List Action :=
  [.add "web" false, .look 0, .check 0 0 false, .advance (21 * second), .look 0,
    .check 0 (21 * second) false, .handleNewProxy "web" "" "port unavailable",
    .handleNewProxy "web" ":6000" "", .handleNewProxyResp ⟨"web", "", "port unavailable"⟩,
    .setRunningStatus 0 ⟨"web", "", "port unavailable"⟩ none,
    .handleNewProxyResp ⟨"web", ":6000", ""⟩, .setRunningStatus 0 ⟨"web", ":6000", ""⟩ none]

def replaceRun : List Action :=
  [.add "web" false, .look 0, .check 0 0 false, .remove "web" 0, .add "web" false, .look 1,
    .check 1 0 false, .handleNewProxy "web" ":6000" "", .handleCloseProxy "web",
    .handleNewProxy "web" "" "port unavailable", .handleNewProxyResp ⟨"web", ":6000", ""⟩,
    .setRunningStatus 1 ⟨"web", ":6000", ""⟩ none,
    .handleNewProxyResp ⟨"web", "", "port unavailable"⟩,
    .setRunningStatus 1 ⟨"web", "", "port unavailable"⟩ none]

theorem response_misread : (∃ s, Reach step anyAction init s ∧ s.Quiet ∧ s.proxies "web" = some 0 ∧
      (s.wrapper 0).phase = .startErr ∧ s.registered "web" = true ∧ ¬ Agree s) ∧
    ∃ s, Reach step anyAction init s ∧ s.Quiet ∧ s.proxies "web" = some 1 ∧
      (s.wrapper 1).phase = .running ∧ s.registered "web" = false ∧ ¬ Agree s := by
  constructor
  · have hsome : (run step anyAction init resendRun).isSome = true := by decide +kernel
    refine ⟨_, reach_getD_of_isSome hsome, by decide +kernel, by decide +kernel, by decide +kernel,
      by decide +kernel, ?_⟩
    intro hagree
    have hiff := (hagree "web").1 0 (by decide +kernel)
    revert hiff
    decide +kernel
  · have hsome : (run step anyAction init replaceRun).isSome = true := by decide +kernel
    refine ⟨_, reach_getD_of_isSome hsome, by decide +kernel, by decide +kernel, by decide +kernel,
      by decide +kernel, ?_⟩
    intro hagree
    have hiff := (hagree "web").1 1 (by decide +kernel)
    revert hiff
    decide +kernel

end FrpMeo.Client.Proxy
