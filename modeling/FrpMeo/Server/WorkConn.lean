import Mathlib.Tactic

/-!
# The pool of work connections

`NewControl` sizes the channel of work connections by the client's `PoolCount`, capped by
`MaxPoolCount`, and a proxy tries `poolCount + 1` times (`server/control.go`,
`server/proxy/proxy.go`). Neither is checked from below; `int` is `Int64` here, so additions wrap.
-/

namespace FrpMeo.Server.WorkConn

/-! ## Creating the control -/

/-- What the Go runtime fixes: the largest size of a channel of pointers, which is an `int`. -/
structure Runtime where
  maxChan : Nat
  fits : maxChan < 2 ^ 63

structure Control where
  poolCount : Int64
  workConnChCap : Nat

/-- `make(chan *proxy.WorkConn, size)`; `none` is a panic. -/
def makeChan (rt : Runtime) (size : Int64) : Option Nat :=
  if 0 ≤ size.toInt ∧ size.toInt ≤ rt.maxChan then some size.toInt.toNat else none

/-- `NewControl`, as far as the pool goes; `none` is a panic. -/
def newControl (rt : Runtime) (loginPoolCount maxPoolCount : Int64) : Option Control :=
  let poolCount := min loginPoolCount maxPoolCount
  (makeChan rt (poolCount + 10)).map fun n => ⟨poolCount, n⟩

/-! ## Asking for a work connection -/

structure Conn where
  id : Nat

/-- Receiving from `workConnCh`; only registered connections are ever sent to it. -/
inductive Recv where
  | conn (c : Conn)
  | closed

inductive GetEvent where
  /-- The pool has an answer at once. -/
  | pooled (r : Recv)
  | sendErr
  /-- The pool has an answer after the request. -/
  | waited (r : Recv)
  | timeout

/-- What a Go function with results `(conn, error)` does: return both, or panic. -/
inductive Result where
  | panic
  | ret (conn : Option Conn) (err : Option String)

def ErrCtlClosed : String := "control is closed"

def getWorkConn : GetEvent → Option Conn × Option String
  | .pooled (.conn c) | .waited (.conn c) => (some c, none)
  | .pooled .closed | .waited .closed => (none, some ErrCtlClosed)
  | .sendErr => (none, some "control is already closed")
  | .timeout => (none, some "timeout trying to get work connection")

structure Attempt where
  get : GetEvent
  writeErr : Option String

/-- The loop of `GetWorkConnFromPoolWithProtocol` with `n` attempts left, the next being `i`. -/
def poolLoop (env : Nat → Attempt) : Nat → Nat → Option Conn → Option String → Result
  | 0, _, conn, err => .ret conn err
  | n + 1, i, conn, _ =>
      match getWorkConn (env i).get with
      | (_, some e) => .ret conn (some e)
      -- the connection is used without a check
      | (none, none) => .panic
      | (some c, none) =>
          match (env i).writeErr with
          -- the connection is closed, and the error stays if this was the last attempt
          | some e => poolLoop env n (i + 1) none (some e)
          | none => .ret (some c) none

def getWorkConnFromPool (ctl : Control) (env : Nat → Attempt) : Result :=
  poolLoop env (ctl.poolCount + 1).toInt.toNat 0 none none

/-! ## Results -/

def Result.Proper : Result → Prop
  | .panic => False
  | .ret _ (some _) => True
  | .ret conn none => conn.isSome = true

/-- The control is created, and from then on every request is answered properly. -/
def PoolSafe (rt : Runtime) (loginPoolCount maxPoolCount : Int64) : Prop :=
  ∃ ctl, newControl rt loginPoolCount maxPoolCount = some ctl ∧
    (∀ ev, Result.Proper (.ret (getWorkConn ev).1 (getWorkConn ev).2)) ∧
      ∀ env, (getWorkConnFromPool ctl env).Proper

theorem getWorkConn_proper (ev : GetEvent) :
    Result.Proper (.ret (getWorkConn ev).1 (getWorkConn ev).2) := by
  cases ev with
  | pooled r | waited r => cases r <;> trivial
  | sendErr | timeout => trivial

theorem getWorkConn_cases (ev : GetEvent) :
    (∃ c, getWorkConn ev = (some c, none)) ∨ ∃ e, getWorkConn ev = (none, some e) := by
  cases ev with
  | pooled r | waited r => cases r <;> simp [getWorkConn]
  | sendErr | timeout => simp [getWorkConn]

theorem poolLoop_proper (env : Nat → Attempt) (n i : Nat) (conn : Option Conn)
    (err : Option String) (h : n = 0 → Result.Proper (.ret conn err)) :
    (poolLoop env n i conn err).Proper := by
  -- a further attempt starts only after a failed write, with that error as the answer so far
  induction n generalizing i conn err with
  | zero => exact h rfl
  | succ n ih =>
    rcases getWorkConn_cases (env i).get with ⟨c, hc⟩ | ⟨e, he⟩
    · cases hw : (env i).writeErr with
      | none => simp [poolLoop, hc, hw, Result.Proper]
      | some e =>
        simp only [poolLoop, hc, hw]
        exact ih (i + 1) none (some e) fun _ => trivial
    · simp [poolLoop, he, Result.Proper]

def timeoutEnv (_ : Nat) : Attempt := ⟨.timeout, none⟩

/-- Requests are answered properly exactly when the loop makes at least one attempt. -/
theorem getWorkConnFromPool_proper_iff (ctl : Control) :
    (∀ env, (getWorkConnFromPool ctl env).Proper) ↔ 0 < (ctl.poolCount + 1).toInt := by
  constructor
  · intro h
    by_contra hle
    have hz : (ctl.poolCount + 1).toInt.toNat = 0 := by omega
    have hp := h timeoutEnv
    rw [getWorkConnFromPool, hz] at hp
    cases hp
  · intro hpos env
    refine poolLoop_proper env _ 0 none none fun hz => ?_
    omega

/-! ## The exact condition -/

theorem toInt_min (a b : Int64) : (min a b).toInt = min a.toInt b.toInt := by
  change (if a ≤ b then a else b).toInt = _
  by_cases h : a ≤ b
  · rw [if_pos h, min_eq_left (Int64.le_iff_toInt_le.1 h)]
  · have hlt := Int64.lt_iff_toInt_lt.1 (Int64.not_le.1 h)
    rw [if_neg h, min_eq_right hlt.le]

theorem toInt_add_small (a b : Int64) (h0 : 0 ≤ b.toInt) : (a + b).toInt =
      if a.toInt + b.toInt < 2 ^ 63 then a.toInt + b.toInt else a.toInt + b.toInt - 2 ^ 64 := by
  have ha := a.le_toInt
  have ha' := a.toInt_lt
  have hb' := b.toInt_lt
  rw [Int64.toInt_add, Int.bmod_def]
  split_ifs <;> omega

theorem newControl_isSome_iff (rt : Runtime) (p m : Int64) : (newControl rt p m).isSome = true ↔
      0 ≤ (min p m + 10).toInt ∧ (min p m + 10).toInt ≤ rt.maxChan := by
  unfold newControl makeChan
  dsimp only
  split_ifs with h <;> simpa using h

theorem newControl_poolCount {rt : Runtime} {p m : Int64} {ctl : Control}
    (h : newControl rt p m = some ctl) : ctl.poolCount = min p m := by
  obtain ⟨n, -, rfl⟩ := Option.map_eq_some_iff.1 h
  rfl

/-- Creating the control and asking it for connections is safe iff both pool counts are not negative
and the smaller one leaves room in a channel. -/
theorem poolSafe_iff (rt : Runtime) (loginPoolCount maxPoolCount : Int64) :
    PoolSafe rt loginPoolCount maxPoolCount ↔ 0 ≤ loginPoolCount.toInt ∧ 0 ≤ maxPoolCount.toInt ∧
        (loginPoolCount.toInt + 10 ≤ rt.maxChan ∨ maxPoolCount.toInt + 10 ≤ rt.maxChan) := by
  have hfits := rt.fits
  have hmin := toInt_min loginPoolCount maxPoolCount
  have hlo := (min loginPoolCount maxPoolCount).le_toInt
  have hhi := (min loginPoolCount maxPoolCount).toInt_lt
  have hten : (10 : Int64).toInt = 10 := rfl
  have hone : (1 : Int64).toInt = 1 := rfl
  have hadd10 := toInt_add_small (min loginPoolCount maxPoolCount) 10 (by rw [hten]; omega)
  have hadd1 := toInt_add_small (min loginPoolCount maxPoolCount) 1 (by rw [hone]; omega)
  rw [hten] at hadd10
  rw [hone] at hadd1
  constructor
  · rintro ⟨ctl, hctl, -, hreq⟩
    have hchan := (newControl_isSome_iff rt loginPoolCount maxPoolCount).1 (by rw [hctl]; rfl)
    have hloop := (getWorkConnFromPool_proper_iff ctl).1 hreq
    rw [newControl_poolCount hctl] at hloop
    -- four cases, by which of the two sums wraps around
    split_ifs at hadd10 hadd1 <;> omega
  · rintro ⟨hp, hm, hroom⟩
    have hchan : 0 ≤ (min loginPoolCount maxPoolCount + 10).toInt ∧
        (min loginPoolCount maxPoolCount + 10).toInt ≤ rt.maxChan := by
      split_ifs at hadd10 <;> omega
    obtain ⟨ctl, hctl⟩ := Option.isSome_iff_exists.1
      ((newControl_isSome_iff rt loginPoolCount maxPoolCount).2 hchan)
    refine ⟨ctl, hctl, getWorkConn_proper, (getWorkConnFromPool_proper_iff ctl).2 ?_⟩
    rw [newControl_poolCount hctl]
    split_ifs at hadd1 <;> omega

def linuxRuntime : Runtime := ⟨(2 ^ 48 - 96) / 8, by decide⟩

/-- Pool count -1 gives neither a connection nor an error; -11 makes the server panic. -/
theorem negative_pool_count_unsafe : ¬ PoolSafe linuxRuntime (-1) 5 ∧
      (∃ ctl, newControl linuxRuntime (-1) 5 = some ctl ∧
        ∀ env, getWorkConnFromPool ctl env = .ret none none) ∧
      newControl linuxRuntime (-11) 5 = none := by
  refine ⟨?_, ⟨⟨-1, 9⟩, rfl, fun _ => rfl⟩, rfl⟩
  rintro ⟨ctl, hctl, -, hreq⟩
  cases hctl
  have hp : (none : Option Conn).isSome = true := hreq timeoutEnv
  cases hp

end FrpMeo.Server.WorkConn
