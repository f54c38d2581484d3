import FrpMeo.Lib.Transition
import Mathlib.Tactic
import Mathlib.Data.Finset.Image

/-!
# The port manager

The public ports of one protocol (`server/ports/ports.go`). A name keeps the port it had last for a
day after its release, and gets it back when it asks for any port. What the operating system answers
and the order of Go's maps are arguments of a call. The path for a name's last port does not look at
`usedPorts`: it trusts the operating system.
-/

namespace FrpMeo.Server.Ports

open Lib.Transition Function

/-! ## The manager -/

inductive AcquireError where
  | alreadyUsed
  | notAllowed
  | unavailable
  | noAvailable
  deriving DecidableEq

structure PortCtx where
  proxyName : String
  port : Int
  closed : Bool
  updateTime : Int
  deriving DecidableEq

/-- `Manager`; the contexts that the maps point to are numbered. -/
structure Manager where
  ctxs : List PortCtx
  reservedPorts : String → Option Nat
  usedPorts : Int → Option Nat
  freePorts : Finset Int

structure PortsRange where
  start : Int
  stop : Int
  single : Int

def between (start stop : Int) : Finset Int :=
  (Finset.range (stop - start + 1).toNat).image fun i : Nat => start + (i : Int)

def PortsRange.ports (r : PortsRange) : Finset Int :=
  if 0 < r.single then {r.single} else between r.start r.stop

def allowed (allowPorts : List PortsRange) : Finset Int :=
  match allowPorts with
  | [] => between 1 65535
  | _ => allowPorts.foldl (fun ports r => ports ∪ r.ports) ∅

def newManager (allowPorts : List PortsRange) : Manager where
  ctxs := []
  reservedPorts := fun _ => none
  usedPorts := fun _ => none
  freePorts := allowed allowPorts

structure Moment where
  now : Int
  order : List Int
  keptAvailable : Bool
  isPortAvailable : Int → Bool

def Manager.kept (m : Manager) (name : String) : Option Int :=
  (m.reservedPorts name).bind fun i => m.ctxs[i]?.map PortCtx.port

def Manager.markPortAcquired (m : Manager) (name : String) (port now : Int) : Manager where
  ctxs := m.ctxs ++ [⟨name, port, false, now⟩]
  reservedPorts := update m.reservedPorts name (some m.ctxs.length)
  usedPorts := update m.usedPorts port (some m.ctxs.length)
  freePorts := m.freePorts.erase port

/-- The branch for a random port: five tries. -/
def Manager.acquireRandom (m : Manager) (name : String) (e : Moment) :
    Manager × Except AcquireError Int :=
  match (e.order.take 5).find? e.isPortAvailable with
  | none => (m, .error .noAvailable)
  | some k =>
      -- the port 0 counts as none found, after it has been marked
      (m.markPortAcquired name k e.now, if k = 0 then .error .noAvailable else .ok k)

def Manager.acquireSpecified (m : Manager) (name : String) (port : Int) (e : Moment) :
    Manager × Except AcquireError Int :=
  if port ∈ m.freePorts then
    if e.isPortAvailable port then (m.markPortAcquired name port e.now, .ok port)
    else (m, .error .unavailable)
  else if (m.usedPorts port).isSome then (m, .error .alreadyUsed)
  else (m, .error .notAllowed)

def Manager.acquire (m : Manager) (name : String) (port : Int) (e : Moment) :
    Manager × Except AcquireError Int :=
  if port = 0 then
    match m.kept name with
    | some p =>
        if e.keptAvailable then (m.markPortAcquired name p e.now, .ok p)
        else m.acquireRandom name e
    | none => m.acquireRandom name e
  else m.acquireSpecified name port e

def Manager.release (m : Manager) (port now : Int) : Manager :=
  match m.usedPorts port with
  | none => m
  | some i =>
      { m with
        ctxs := m.ctxs.modify i fun ctx => { ctx with closed := true, updateTime := now }
        usedPorts := update m.usedPorts port none
        freePorts := insert port m.freePorts }

def maxPortReservedDuration : Int := 24 * 60 * 60 * 10 ^ 9

def Manager.cleanReservedPortsOnce (m : Manager) (now : Int) : Manager :=
  { m with
    reservedPorts := fun name => (m.reservedPorts name).filter fun i =>
      !(m.ctxs[i]?.any fun ctx => ctx.closed && maxPortReservedDuration < now - ctx.updateTime) }

def Manager.Ordered (m : Manager) (e : Moment) : Prop :=
  e.order.Nodup ∧ ∀ k, k ∈ e.order ↔ k ∈ m.freePorts

/-! ## What `Acquire` does -/

inductive Acquired (m : Manager) (name : String) (port : Int) (e : Moment) :
    Manager × Except AcquireError Int → Prop where
  /-- The port kept for the name. -/
  | kept (p : Int) (hport : port = 0) (hkept : m.kept name = some p)
      (havailable : e.keptAvailable = true) :
      Acquired m name port e (m.markPortAcquired name p e.now, .ok p)
  /-- A free port, the one asked for if one was. -/
  | free (p : Int) (hport : port = 0 ∨ port = p) (hne : p ≠ 0) (hfree : p ∈ m.freePorts) :
      Acquired m name port e (m.markPortAcquired name p e.now, .ok p)
  /-- The port 0 was among the free ones. -/
  | zero (hport : port = 0) (hfree : 0 ∈ m.freePorts) :
      Acquired m name port e (m.markPortAcquired name 0 e.now, .error .noAvailable)
  | refused (err : AcquireError) : Acquired m name port e (m, .error err)

variable {m : Manager} {e : Moment} {name : String} {port p : Int} {holder : Nat}
  {err : AcquireError}

theorem acquired_acquireRandom (hm : m.Ordered e) (name : String) :
    Acquired m name 0 e (m.acquireRandom name e) := by
  unfold Manager.acquireRandom
  split
  · exact .refused .noAvailable
  · next k hk =>
    have hfree : k ∈ m.freePorts := (hm.2 k).1 (List.mem_of_mem_take (List.mem_of_find?_eq_some hk))
    by_cases h0 : k = 0
    · subst h0
      exact .zero rfl hfree
    · rw [if_neg h0]
      exact .free k (.inl rfl) h0 hfree

theorem acquired_acquire (hm : m.Ordered e) (name : String) (port : Int) :
    Acquired m name port e (m.acquire name port e) := by
  by_cases h0 : port = 0
  · subst h0
    have hrandom := acquired_acquireRandom hm name
    cases hkept : m.kept name with
    | none => simpa [Manager.acquire, hkept] using hrandom
    | some p =>
      by_cases hk : e.keptAvailable = true
      · simpa [Manager.acquire, hkept, hk] using
          (.kept p rfl hkept hk : Acquired m name 0 e (m.markPortAcquired name p e.now, .ok p))
      · simpa [Manager.acquire, hkept, hk] using hrandom
  · simp only [Manager.acquire, h0, if_false, Manager.acquireSpecified]
    split_ifs with hfree havailable
    · exact .free port (.inr rfl) h0 hfree
    · exact .refused .unavailable
    · exact .refused .alreadyUsed
    · exact .refused .notAllowed

theorem granted_eq (hm : m.Ordered e) (hport : port ≠ 0) (h : (m.acquire name port e).2 = .ok p) :
    p = port := by
  have hcases := acquired_acquire hm name port
  revert h hcases
  generalize m.acquire name port e = r
  intro h hcases
  cases hcases with
  | kept q h0 => exact absurd h0 hport
  | free q hq =>
    cases h
    exact (hq.resolve_left hport).symm
  | zero | refused => cases h

/-! ## The port 0 -/

structure Manager.NoZero (m : Manager) : Prop where
  free : (0 : Int) ∉ m.freePorts
  used : m.usedPorts 0 = none
  ctxs : ∀ (i : Nat) (ctx : PortCtx), m.ctxs[i]? = some ctx → ctx.port ≠ 0

theorem noZero_newManager {allowPorts : List PortsRange} (h : (0 : Int) ∉ allowed allowPorts) :
    (newManager allowPorts).NoZero where
  free := h
  used := rfl
  ctxs := by
    intro i ctx h
    simp [newManager] at h

theorem Manager.NoZero.kept (h : m.NoZero) (hp : m.kept name = some p) : p ≠ 0 := by
  obtain ⟨i, -, hctx⟩ := Option.bind_eq_some_iff.1 hp
  obtain ⟨ctx, hi, rfl⟩ := Option.map_eq_some_iff.1 hctx
  exact h.ctxs i ctx hi

theorem Manager.NoZero.markPortAcquired (h : m.NoZero) (name : String) (hp : p ≠ 0) (now : Int) :
    (m.markPortAcquired name p now).NoZero where
  free := by
    intro hmem
    exact h.free (Finset.mem_of_mem_erase hmem)
  used := by
    simpa [Manager.markPortAcquired, update_of_ne hp.symm] using h.used
  ctxs := by
    intro i ctx hi
    rcases List.mem_append.1 (List.mem_of_getElem? hi) with hold | hnew
    · obtain ⟨j, hj⟩ := List.getElem?_of_mem hold
      exact h.ctxs j ctx hj
    · rw [List.mem_singleton] at hnew
      rw [hnew]
      exact hp

theorem Manager.NoZero.acquire (h : m.NoZero) (hm : m.Ordered e) (name : String) (port : Int) :
    (m.acquire name port e).1.NoZero ∧ ∀ p, (m.acquire name port e).2 = .ok p → p ≠ 0 := by
  have hcases := acquired_acquire hm name port
  revert hcases
  generalize m.acquire name port e = r
  intro hcases
  cases hcases with
  | kept q _ hkept =>
    refine ⟨h.markPortAcquired name (h.kept hkept) e.now, ?_⟩
    intro p hp
    cases hp
    exact h.kept hkept
  | free q _ hne =>
    refine ⟨h.markPortAcquired name hne e.now, ?_⟩
    intro p hp
    cases hp
    exact hne
  | zero _ hfree => exact absurd hfree h.free
  | refused =>
    refine ⟨h, ?_⟩
    intro p hp
    cases hp

theorem Manager.NoZero.release (h : m.NoZero) (port now : Int) : (m.release port now).NoZero := by
  unfold Manager.release
  split
  · exact h
  · next i hused =>
    have hne : port ≠ 0 := by
      intro h0
      rw [h0, h.used] at hused
      cases hused
    refine ⟨?_, ?_, ?_⟩
    · intro hmem
      exact h.free (Finset.mem_of_mem_insert_of_ne hmem hne.symm)
    · simpa [update_of_ne hne.symm] using h.used
    · intro j ctx hj
      rw [List.getElem?_modify] at hj
      obtain ⟨old, hold, rfl⟩ := Option.map_eq_some_iff.1 hj
      by_cases hij : i = j <;> simpa [hij] using h.ctxs j old hold

/-! ## Holders -/

/-- The manager with the holders of its ports, from the grant to the next `Release`. -/
structure Ledger where
  manager : Manager
  holders : Int → List Nat

def Ledger.new (allowPorts : List PortsRange) : Ledger := ⟨newManager allowPorts, fun _ => []⟩

def Ledger.acquire (l : Ledger) (holder : Nat) (name : String) (port : Int) (e : Moment) :
    Ledger × Except AcquireError Int :=
  let (m, result) := l.manager.acquire name port e
  (⟨m, match result with
      | .ok p => update l.holders p (holder :: l.holders p)
      | .error _ => l.holders⟩, result)

variable {l : Ledger}

theorem Ledger.acquire_of_ok (h : (l.manager.acquire name port e).2 = .ok p) :
    l.acquire holder name port e = (⟨(l.manager.acquire name port e).1,
        update l.holders p (holder :: l.holders p)⟩, .ok p) := by
  simp [Ledger.acquire, h]

theorem Ledger.acquire_of_error (h : (l.manager.acquire name port e).2 = .error err) :
    l.acquire holder name port e =
      (⟨(l.manager.acquire name port e).1, l.holders⟩, .error err) := by
  simp [Ledger.acquire, h]

def Ledger.release (l : Ledger) (port now : Int) : Ledger :=
  ⟨l.manager.release port now,
    if (l.manager.usedPorts port).isSome then update l.holders port [] else l.holders⟩

def Ledger.cleanReservedPortsOnce (l : Ledger) (now : Int) : Ledger :=
  { l with manager := l.manager.cleanReservedPortsOnce now }

inductive Action where
  | acquire (holder : Nat) (name : String) (port : Int) (e : Moment)
  | release (port now : Int)
  | clean (now : Int)

/-- Go goes through the map in any order, but through this map. -/
def Enabled (l : Ledger) : Action → Prop
  | .acquire _ _ _ e => l.manager.Ordered e
  | .release _ _ => True
  | .clean _ => True

def next (l : Ledger) : Action → Ledger
  | .acquire holder name port e => (l.acquire holder name port e).1
  | .release port now => l.release port now
  | .clean now => l.cleanReservedPortsOnce now

instance (m : Manager) (e : Moment) : Decidable (m.Ordered e) :=
  decidable_of_iff (e.order.Nodup ∧ e.order.toFinset = m.freePorts) (by
    simp only [Manager.Ordered, Finset.ext_iff, List.mem_toFinset])

instance (l : Ledger) (a : Action) : Decidable (Enabled l a) := by
  cases a <;> dsimp only [Enabled] <;> infer_instance

def step : Ledger → Action → Option Ledger := stepOf Enabled next

/-- The system says that the port kept for the name is unavailable when it is used. -/
def SeesUsed (m : Manager) (name : String) (port : Int) (e : Moment) : Prop :=
  port = 0 → ∀ p, m.kept name = some p → (m.usedPorts p).isSome = true → e.keptAvailable = false

instance (m : Manager) (name : String) (port : Int) (e : Moment) :
    Decidable (SeesUsed m name port e) :=
  decidable_of_iff (port = 0 → ∀ p ∈ m.kept name, (m.usedPorts p).isSome = true →
    e.keptAvailable = false) (by
      simp only [SeesUsed, Option.mem_def])

def ProbeSees (l : Ledger) : Action → Prop
  | .acquire _ name port e => SeesUsed l.manager name port e
  | _ => True

/-- No port is free and used, what is held is used, and has one holder. -/
structure Inv (l : Ledger) : Prop where
  apart : ∀ p ∈ l.manager.freePorts, l.manager.usedPorts p = none
  used : ∀ p, l.manager.usedPorts p = none → l.holders p = []
  one : ∀ p, (l.holders p).length ≤ 1

theorem inv_new (allowPorts : List PortsRange) : Inv (Ledger.new allowPorts) where
  apart := fun _ _ => rfl
  used := fun _ _ => rfl
  one := fun _ => Nat.zero_le 1

theorem usedPorts_of_sees (hapart : ∀ p ∈ m.freePorts, m.usedPorts p = none) (hm : m.Ordered e)
    (hsees : SeesUsed m name port e) (h : (m.acquire name port e).2 = .ok p) :
    m.usedPorts p = none := by
  have hcases := acquired_acquire hm name port
  revert h hcases
  generalize m.acquire name port e = r
  intro h hcases
  cases hcases with
  | kept q hport hkept havailable =>
    cases h
    by_contra hused
    have hno := hsees hport p hkept (Option.isSome_iff_ne_none.2 hused)
    rw [havailable] at hno
    cases hno
  | free q hport hne hfree =>
    cases h
    exact hapart p hfree
  | zero | refused => cases h

theorem usedPorts_of_granted (hi : Inv l) (hm : l.manager.Ordered e)
    (hsees : SeesUsed l.manager name port e) (h : (l.manager.acquire name port e).2 = .ok p) :
    l.manager.usedPorts p = none :=
  usedPorts_of_sees hi.apart hm hsees h

theorem markPortAcquired_usedPorts (m : Manager) (name : String) (port now q : Int) :
    (m.markPortAcquired name port now).usedPorts q = none ↔ q ≠ port ∧ m.usedPorts q = none := by
  by_cases hq : q = port <;> simp [Manager.markPortAcquired, hq]

theorem apart_markPortAcquired (h : ∀ p ∈ m.freePorts, m.usedPorts p = none) (name : String)
    (port now : Int) : ∀ p ∈ (m.markPortAcquired name port now).freePorts,
      (m.markPortAcquired name port now).usedPorts p = none := by
  intro p hp
  have hmem := Finset.mem_erase.1 hp
  exact (markPortAcquired_usedPorts m name port now p).2 ⟨hmem.1, h p hmem.2⟩

section

variable (hi : Inv l)

include hi

theorem Inv.grant {now : Int} (hunused : l.manager.usedPorts p = none) :
    Inv ⟨l.manager.markPortAcquired name p now, update l.holders p (holder :: l.holders p)⟩ where
  apart := apart_markPortAcquired hi.apart name p now
  used := by
    intro q hq
    obtain ⟨hne, hnone⟩ := (markPortAcquired_usedPorts _ _ _ _ _).1 hq
    simpa [hne] using hi.used q hnone
  one := by
    intro q
    by_cases hq : q = p
    · subst hq
      simp [hi.used q hunused]
    · simpa [hq] using hi.one q

theorem Inv.acquire (hm : l.manager.Ordered e) (hsees : SeesUsed l.manager name port e) :
    Inv (l.acquire holder name port e).1 := by
  have hunused : ∀ p, (l.manager.acquire name port e).2 = .ok p → l.manager.usedPorts p = none :=
    fun p => usedPorts_of_granted hi hm hsees
  have hcases := acquired_acquire hm name port
  unfold Ledger.acquire
  revert hunused hcases
  generalize l.manager.acquire name port e = r
  intro hunused hcases
  cases hcases with
  | kept p | free p => exact hi.grant (hunused p rfl)
  | zero hport hfree =>
    refine ⟨apart_markPortAcquired hi.apart name 0 e.now, ?_, hi.one⟩
    intro q hq
    exact hi.used q ((markPortAcquired_usedPorts _ _ _ _ _).1 hq).2
  | refused err => exact hi

theorem Inv.release (port now : Int) : Inv (l.release port now) := by
  cases hused : l.manager.usedPorts port with
  | none =>
    have hsame : l.release port now = l := by simp [Ledger.release, Manager.release, hused]
    rw [hsame]
    exact hi
  | some i =>
    simp only [Ledger.release, Manager.release, hused, Option.isSome_some, if_true]
    refine ⟨?_, ?_, ?_⟩
    · intro p hp
      by_cases hq : p = port
      · simp [hq]
      · have hfree : p ∈ l.manager.freePorts := Finset.mem_of_mem_insert_of_ne hp hq
        simpa [hq] using hi.apart p hfree
    · intro p hp
      by_cases hq : p = port
      · simp [hq]
      · have hnone : l.manager.usedPorts p = none := by simpa [hq] using hp
        simpa [hq] using hi.used p hnone
    · intro p
      by_cases hq : p = port
      · simp [hq]
      · simpa [hq] using hi.one p

theorem Inv.clean (now : Int) : Inv (l.cleanReservedPortsOnce now) := { hi with }

theorem Inv.holders_release (port now q : Int) :
    (l.release port now).holders q = if q = port then [] else l.holders q := by
  cases hused : l.manager.usedPorts port with
  | none =>
    by_cases hq : q = port
    · simp [Ledger.release, hused, hq, hi.used port hused]
    · simp [Ledger.release, hused, hq]
  | some i => simp [Ledger.release, hused, update_apply]

theorem Inv.holder_eq {holder' : Nat} (h : holder ∈ l.holders p)
    (h' : holder' ∈ l.holders p) : holder' = holder := by
  have hone := hi.one p
  rcases hholders : l.holders p with _ | ⟨first, _ | ⟨second, rest⟩⟩
  · rw [hholders] at h
    cases h
  · rw [hholders] at h h'
    exact (List.mem_singleton.1 h').trans (List.mem_singleton.1 h).symm
  · rw [hholders] at hone
    simp at hone

theorem Inv.step {l' : Ledger} {a : Action} (hok : ProbeSees l a)
    (h : step l a = some l') : Inv l' := by
  obtain ⟨hen, hl⟩ := stepOf_eq_some_iff.1 h
  subst hl
  cases a with
  | acquire holder name port e => exact hi.acquire hen hok
  | release port now => exact hi.release port now
  | clean now => exact hi.clean now

end

/-- If the system reports a used port as unavailable where a name asks for its kept port, every port
has one holder at most, and `Acquire` grants unused ports only. -/
theorem ports_exclusive (allowPorts : List PortsRange) (l : Ledger)
    (h : Reach step ProbeSees (Ledger.new allowPorts) l) : (∀ p, (l.holders p).length ≤ 1) ∧
      ∀ holder name port e p, Enabled l (.acquire holder name port e) →
        ProbeSees l (.acquire holder name port e) →
          (l.manager.acquire name port e).2 = .ok p → l.manager.usedPorts p = none := by
  have hinv : Inv l := invariant_of_reach (inv_new allowPorts)
    (fun _ _ _ hi hok hst => hi.step hok hst) h
  refine ⟨hinv.one, ?_⟩
  intro holder name port e p hen hok hgranted
  exact usedPorts_of_granted hinv hen hok hgranted

/-! ## Giving a port back -/

/-- No port is free and used, and a port that was given out is one of the two. -/
structure Manager.Sound (m : Manager) : Prop where
  apart : ∀ p ∈ m.freePorts, m.usedPorts p = none
  known : ∀ (i : Nat) (ctx : PortCtx), m.ctxs[i]? = some ctx →
    ctx.port ∈ m.freePorts ∨ (m.usedPorts ctx.port).isSome = true

theorem sound_newManager (allowPorts : List PortsRange) : (newManager allowPorts).Sound where
  apart := fun _ _ => rfl
  known := by
    intro i ctx h
    simp [newManager] at h

theorem Manager.Sound.kept (h : m.Sound) (hp : m.kept name = some p) :
    p ∈ m.freePorts ∨ (m.usedPorts p).isSome = true := by
  obtain ⟨i, -, hctx⟩ := Option.bind_eq_some_iff.1 hp
  obtain ⟨ctx, hi, rfl⟩ := Option.map_eq_some_iff.1 hctx
  exact h.known i ctx hi

theorem Manager.Sound.markPortAcquired (h : m.Sound) (name : String) (port now : Int) :
    (m.markPortAcquired name port now).Sound where
  apart := apart_markPortAcquired h.apart name port now
  known := by
    intro i ctx hi
    by_cases hport : ctx.port = port
    · exact .inr (by simp [Manager.markPortAcquired, hport])
    · rcases List.mem_append.1 (List.mem_of_getElem? hi) with hold | hnew
      · obtain ⟨j, hj⟩ := List.getElem?_of_mem hold
        simpa [Manager.markPortAcquired, hport] using h.known j ctx hj
      · rw [List.mem_singleton] at hnew
        exact absurd (congrArg PortCtx.port hnew) hport

theorem Manager.Sound.acquire (h : m.Sound) {r : Manager × Except AcquireError Int}
    (hr : m.acquire name port e = r) : r.1.Sound := by
  subst hr
  have hrandom : (m.acquireRandom name e).1.Sound := by
    unfold Manager.acquireRandom
    split
    · exact h
    · next k _ => exact h.markPortAcquired name k e.now
  by_cases hport : port = 0
  · cases hkept : m.kept name with
    | none => simpa [Manager.acquire, hport, hkept] using hrandom
    | some p =>
      cases havailable : e.keptAvailable with
      | true =>
        simpa [Manager.acquire, hport, hkept, havailable] using h.markPortAcquired name p e.now
      | false => simpa [Manager.acquire, hport, hkept, havailable] using hrandom
  · simp only [Manager.acquire, hport, if_false, Manager.acquireSpecified]
    split_ifs
    · exact h.markPortAcquired name port e.now
    · exact h
    · exact h
    · exact h

theorem Manager.Sound.release (h : m.Sound) (port now : Int) : (m.release port now).Sound := by
  unfold Manager.release
  split
  · exact h
  · refine ⟨?_, ?_⟩
    · intro p hp
      by_cases hq : p = port
      · simp [hq]
      · simpa [hq] using h.apart p (Finset.mem_of_mem_insert_of_ne hp hq)
    · intro j ctx hj
      obtain ⟨old, hold, hctx⟩ : ∃ old, m.ctxs[j]? = some old ∧ old.port = ctx.port := by
        rw [List.getElem?_modify] at hj
        obtain ⟨old, hold, rfl⟩ := Option.map_eq_some_iff.1 hj
        refine ⟨old, hold, ?_⟩
        split_ifs <;> rfl
      rw [← hctx]
      by_cases hq : old.port = port
      · exact .inl (by simp [hq])
      · simpa [hq] using h.known j old hold

structure SamePorts (m m' : Manager) : Prop where
  used : ∀ q, (m'.usedPorts q).isSome = (m.usedPorts q).isSome
  free : m'.freePorts = m.freePorts

theorem SamePorts.refl (m : Manager) : SamePorts m m := ⟨fun _ => rfl, rfl⟩

def Manager.PicksZero (m : Manager) (name : String) (port : Int) (e : Moment) : Prop :=
  port = 0 ∧ (∀ p, m.kept name = some p → e.keptAvailable = false) ∧
    (e.order.take 5).find? e.isPortAvailable = some 0

def Manager.GivesBack (m : Manager) (name : String) (port : Int) (e : Moment) : Prop :=
  SeesUsed m name port e ∧ ¬ m.PicksZero name port e

theorem givesBack_of_ne_zero (h : port ≠ 0) (m : Manager) (name : String) (e : Moment) :
    m.GivesBack name port e :=
  ⟨fun h0 => absurd h0 h, fun hzero => h hzero.1⟩

theorem acquire_of_kept (hkept : m.kept name = some p) (havailable : e.keptAvailable = true) :
    m.acquire name 0 e = (m.markPortAcquired name p e.now, .ok p) := by
  simp [Manager.acquire, hkept, havailable]

theorem acquire_of_notKept (h : ∀ p, m.kept name = some p → e.keptAvailable = false) :
    m.acquire name 0 e = m.acquireRandom name e := by
  cases hkept : m.kept name with
  | none => simp [Manager.acquire, hkept]
  | some p => simp [Manager.acquire, hkept, h p hkept]

theorem acquire_of_picksZero (h : m.PicksZero name port e) :
    m.acquire name port e = (m.markPortAcquired name 0 e.now, .error .noAvailable) := by
  obtain ⟨hport, hkept, hfind⟩ := h
  rw [hport, acquire_of_notKept hkept]
  simp [Manager.acquireRandom, hfind]

theorem acquire_fst_of_error (h : (m.acquire name port e).2 = .error err)
    (hzero : ¬ m.PicksZero name port e) : (m.acquire name port e).1 = m := by
  by_cases hport : port = 0
  · subst hport
    have hkept : ∀ p, m.kept name = some p → e.keptAvailable = false := by
      intro p hp
      by_contra havailable
      rw [acquire_of_kept hp (by simpa using havailable)] at h
      cases h
    rw [acquire_of_notKept hkept] at h ⊢
    cases hfind : (e.order.take 5).find? e.isPortAvailable with
    | none => simp [Manager.acquireRandom, hfind]
    | some k =>
      have hk : k ≠ 0 := by
        intro hk
        exact hzero ⟨rfl, hkept, hk ▸ hfind⟩
      simp [Manager.acquireRandom, hfind, hk] at h
  · simp only [Manager.acquire, hport, if_false, Manager.acquireSpecified] at h ⊢
    split_ifs at h ⊢ <;> rfl

theorem seesUsed_of_error (h : (m.acquire name port e).2 = .error err) :
    SeesUsed m name port e := by
  intro hport p hp _
  by_contra havailable
  rw [hport, acquire_of_kept hp (by simpa using havailable)] at h
  cases h

theorem seesUsed_iff_of_granted (hm : m.Sound) (ho : m.Ordered e)
    (h : (m.acquire name port e).2 = .ok p) : SeesUsed m name port e ↔ m.usedPorts p = none := by
  constructor
  · intro hsees
    exact usedPorts_of_sees hm.apart ho hsees h
  · intro hunused hport q hq hused
    by_contra havailable
    rw [hport, acquire_of_kept hq (by simpa using havailable)] at h
    cases h
    simp [hunused] at hused

theorem granted_cases {q : Int} (hm : m.Sound) (ho : m.Ordered e)
    (h : (m.acquire name port e).2 = .ok q) :
    (m.acquire name port e).1 = m.markPortAcquired name q e.now ∧
      (q ∈ m.freePorts ∨ (m.usedPorts q).isSome = true) := by
  have hcases := acquired_acquire ho name port
  revert h hcases
  generalize m.acquire name port e = r
  intro h hcases
  cases hcases with
  | kept p _ hkept =>
    cases h
    exact ⟨rfl, hm.kept hkept⟩
  | free p _ _ hfree =>
    cases h
    exact ⟨rfl, .inl hfree⟩
  | zero | refused => cases h

theorem samePorts_markPortAcquired_iff (hm : m.Sound) {q now : Int} :
    SamePorts m (m.markPortAcquired name q now) ↔ (m.usedPorts q).isSome = true := by
  constructor
  · intro h
    rw [← h.used q]
    simp [Manager.markPortAcquired]
  · intro hused
    refine ⟨?_, ?_⟩
    · intro p
      by_cases hp : p = q
      · subst hp
        simp [Manager.markPortAcquired, hused]
      · simp [Manager.markPortAcquired, hp]
    · apply Finset.erase_eq_of_notMem
      intro hfree
      simp [hm.apart q hfree] at hused

theorem samePorts_release_iff {q : Int} (hm : m.Sound) (ho : m.Ordered e)
    (h : (m.acquire name port e).2 = .ok q) (p now : Int) :
    SamePorts m ((m.acquire name port e).1.release p now) ↔
      m.usedPorts p = none ∧ (q = p ∨ (m.usedPorts q).isSome = true) := by
  obtain ⟨hmark, hq⟩ := granted_cases hm ho h
  rw [hmark]
  cases hused : (m.markPortAcquired name q e.now).usedPorts p with
  | none =>
    obtain ⟨hne, hnone⟩ := (markPortAcquired_usedPorts m name q e.now p).1 hused
    have hsame : (m.markPortAcquired name q e.now).release p now =
        m.markPortAcquired name q e.now := by
      simp [Manager.release, hused]
    rw [hsame, samePorts_markPortAcquired_iff hm]
    simp [hnone, Ne.symm hne]
  | some i =>
    -- the call has made no other port used than `q`
    have hqp : m.usedPorts p = none → q = p := by
      intro hnone
      by_contra hne
      have hstill := (markPortAcquired_usedPorts m name q e.now p).2 ⟨Ne.symm hne, hnone⟩
      rw [hstill] at hused
      cases hused
    constructor
    · intro hsame
      have hnone : m.usedPorts p = none := by
        have hp := hsame.used p
        simpa [Manager.release, hused] using hp.symm
      exact ⟨hnone, .inl (hqp hnone)⟩
    · rintro ⟨hnone, -⟩
      obtain rfl := hqp hnone
      have hfree : q ∈ m.freePorts := by
        refine hq.resolve_right ?_
        simp [hnone]
      refine ⟨?_, ?_⟩
      · intro k
        by_cases hk : k = q
        · simp [Manager.release, hused, hk, hnone]
        · simp [Manager.release, hk, Manager.markPortAcquired]
      · simp [Manager.release, Manager.markPortAcquired, Finset.insert_erase hfree]

theorem samePorts_giveBack_iff {m' : Manager} {q : Int} (hm : m.Sound) (ho : m.Ordered e)
    (hacq : m.acquire name port e = (m', .ok q)) (now : Int) :
    SamePorts m (m'.release q now) ↔ m.GivesBack name port e := by
  obtain rfl : (m.acquire name port e).1 = m' := congrArg Prod.fst hacq
  have h : (m.acquire name port e).2 = .ok q := congrArg Prod.snd hacq
  have hzero : ¬ m.PicksZero name port e := by
    intro hzero
    rw [acquire_of_picksZero hzero] at h
    cases h
  rw [samePorts_release_iff hm ho h, Manager.GivesBack, seesUsed_iff_of_granted hm ho h]
  simp [hzero]

theorem samePorts_error_iff {m' : Manager} (hm : m.Sound) (ho : m.Ordered e)
    (hacq : m.acquire name port e = (m', .error err)) :
    SamePorts m m' ↔ m.GivesBack name port e := by
  obtain rfl : (m.acquire name port e).1 = m' := congrArg Prod.fst hacq
  have h : (m.acquire name port e).2 = .error err := congrArg Prod.snd hacq
  constructor
  · intro hsame
    refine ⟨seesUsed_of_error h, ?_⟩
    intro hzero
    have hfree : (0 : Int) ∈ m.freePorts :=
      (ho.2 0).1 (List.mem_of_mem_take (List.mem_of_find?_eq_some hzero.2.2))
    rw [acquire_of_picksZero hzero, samePorts_markPortAcquired_iff hm] at hsame
    simp [hm.apart 0 hfree] at hsame
  · intro hback
    rw [acquire_fst_of_error h hback.2]
    exact SamePorts.refl m

/-! ## Runs -/

def allOpen (order : List Int) : Moment := ⟨0, order, true, fun _ => true⟩

def onePort : Ledger := Ledger.new [⟨0, 0, 6000⟩]

def returnRun : List Action :=
  [.acquire 0 "a" 0 (allOpen [6000]), .release 6000 1, .acquire 1 "a" 0 (allOpen [6000])]

instance (l : Ledger) (a : Action) : Decidable (ProbeSees l a) := by
  cases a <;> dsimp only [ProbeSees] <;> infer_instance

theorem ports_exclusive_returnRun : ∃ l, Reach step ProbeSees onePort l ∧ l.holders 6000 = [1] ∧
      ∀ p, (l.holders p).length ≤ 1 := by
  have hreach : Reach step ProbeSees onePort
      ((run step ProbeSees onePort returnRun).getD onePort) :=
    reach_getD_of_isSome (by decide +kernel)
  exact ⟨_, hreach, by decide +kernel, (ports_exclusive _ _ hreach).1⟩

def twiceRun : List Action :=
  [.acquire 0 "a" 0 (allOpen [6000]), .release 6000 1, .acquire 1 "b" 6000 (allOpen [6000])]

theorem reserved_port_taken_twice : ∃ l l', Reach step anyAction onePort l ∧ l.holders 6000 = [1] ∧
      (l.manager.usedPorts 6000).isSome = true ∧
      (l.manager.acquire "a" 0 (allOpen [])).2 = .ok 6000 ∧
      step l (.acquire 2 "a" 0 (allOpen [])) = some l' ∧ l'.holders 6000 = [2, 1] := by
  have hreach : Reach step anyAction onePort
      ((run step anyAction onePort twiceRun).getD onePort) :=
    reach_getD_of_isSome (by decide +kernel)
  refine ⟨_, _, hreach, by decide +kernel, by decide +kernel, by decide +kernel,
    stepOf_eq_some_iff.2 ⟨by decide +kernel, rfl⟩, by decide +kernel⟩

end FrpMeo.Server.Ports
