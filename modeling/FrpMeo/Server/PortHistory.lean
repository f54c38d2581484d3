import FrpMeo.Server.Ports

/-!
# The port manager over time

Two facts about every run of the port manager (`server/ports/ports.go`).
-/

namespace FrpMeo.Server.Ports

open Lib.Transition Function

/-! ## Free and used ports -/

/-- The allowed ports are the free and the used ones, and no port is both. -/
structure Manager.Parts (m : Manager) (ports : Finset Int) : Prop where
  apart : ∀ p ∈ m.freePorts, m.usedPorts p = none
  cover : ∀ p, p ∈ ports ↔ p ∈ m.freePorts ∨ (m.usedPorts p).isSome = true
  ctxs : ∀ (i : Nat) (ctx : PortCtx), m.ctxs[i]? = some ctx → ctx.port ∈ ports

theorem parts_newManager {allowPorts : List PortsRange} :
    (newManager allowPorts).Parts (allowed allowPorts) where
  apart := fun _ _ => rfl
  cover := by
    intro p
    simp [newManager]
  ctxs := by
    intro i ctx h
    simp [newManager] at h

section Parts

variable {m : Manager} {ports : Finset Int}

theorem Manager.Parts.kept (h : m.Parts ports) {name : String} {p : Int}
    (hp : m.kept name = some p) : p ∈ ports := by
  obtain ⟨i, -, hctx⟩ := Option.bind_eq_some_iff.1 hp
  obtain ⟨ctx, hi, rfl⟩ := Option.map_eq_some_iff.1 hctx
  exact h.ctxs i ctx hi

theorem Manager.Parts.markPortAcquired (h : m.Parts ports) (name : String) {port : Int}
    (hport : port ∈ ports) (now : Int) : (m.markPortAcquired name port now).Parts ports where
  apart := apart_markPortAcquired h.apart name port now
  cover := by
    intro p
    by_cases hp : p = port
    · simp [Manager.markPortAcquired, hp, hport]
    · simpa [Manager.markPortAcquired, hp] using h.cover p
  ctxs := by
    intro i ctx hi
    rcases List.mem_append.1 (List.mem_of_getElem? hi) with hold | hnew
    · obtain ⟨j, hj⟩ := List.getElem?_of_mem hold
      exact h.ctxs j ctx hj
    · rw [List.mem_singleton.1 hnew]
      exact hport

theorem Manager.Parts.acquire (h : m.Parts ports) {e : Moment} (ho : m.Ordered e)
    (name : String) (port : Int) : (m.acquire name port e).1.Parts ports := by
  have hfree : ∀ p ∈ m.freePorts, p ∈ ports := fun p hp => (h.cover p).2 (.inl hp)
  have hcases := acquired_acquire ho name port
  generalize m.acquire name port e = r at hcases
  cases hcases with
  | kept p _ hkept => exact h.markPortAcquired name (h.kept hkept) e.now
  | free p _ _ hp => exact h.markPortAcquired name (hfree p hp) e.now
  | zero _ hp => exact h.markPortAcquired name (hfree 0 hp) e.now
  | refused err => exact h

theorem usedPorts_release {port now p : Int} :
    (m.release port now).usedPorts p = if p = port then none else m.usedPorts p := by
  unfold Manager.release
  cases hused : m.usedPorts port with
  | none =>
    by_cases hp : p = port
    · simp [hp, hused]
    · simp [hp]
  | some i => simp [update_apply]

theorem reservedPorts_release {port now : Int} :
    (m.release port now).reservedPorts = m.reservedPorts := by
  unfold Manager.release
  cases m.usedPorts port with
  | none | some => rfl

theorem ctxs_release {port now : Int} {i : Nat} :
    (m.release port now).ctxs[i]? = (m.ctxs[i]?).map fun ctx =>
      if m.usedPorts port = some i then { ctx with closed := true, updateTime := now }
      else ctx := by
  unfold Manager.release
  cases hused : m.usedPorts port with
  | none => simp
  | some j =>
    rw [List.getElem?_modify]
    by_cases hij : j = i <;> simp [hij]

theorem Manager.Parts.release (h : m.Parts ports) (port now : Int) :
    (m.release port now).Parts ports := by
  unfold Manager.release
  cases hused : m.usedPorts port with
  | none => exact h
  | some i =>
    refine ⟨?_, ?_, ?_⟩
    · intro p hp
      by_cases hq : p = port
      · simp [hq]
      · simpa [hq] using h.apart p (Finset.mem_of_mem_insert_of_ne hp hq)
    · intro p
      by_cases hq : p = port
      · simp [hq, h.cover port, hused]
      · simpa [hq] using h.cover p
    · intro j ctx hj
      rw [List.getElem?_modify] at hj
      obtain ⟨old, hold, rfl⟩ := Option.map_eq_some_iff.1 hj
      by_cases hij : i = j <;> simpa [hij] using h.ctxs j old hold

theorem Manager.Parts.granted (h : m.Parts ports) {e : Moment} (ho : m.Ordered e)
    {name : String} {port p : Int} (hp : (m.acquire name port e).2 = .ok p) :
    p ∈ ports ∧ ((m.acquire name port e).1.usedPorts p).isSome = true := by
  have hcases := acquired_acquire ho name port
  generalize m.acquire name port e = r at hp hcases
  cases hcases with
  | kept q _ hkept =>
    cases hp
    exact ⟨h.kept hkept, by simp [Manager.markPortAcquired]⟩
  | free q _ _ hfree =>
    cases hp
    exact ⟨(h.cover p).2 (.inl hfree), by simp [Manager.markPortAcquired]⟩
  | zero | refused => cases hp

end Parts

theorem parts_step {l l' : Ledger} {a : Action} {ports : Finset Int}
    (hi : l.manager.Parts ports) (h : step l a = some l') : l'.manager.Parts ports := by
  obtain ⟨hen, rfl⟩ := stepOf_eq_some_iff.1 h
  cases a with
  | acquire holder name port e => exact hi.acquire hen name port
  | release port now => exact hi.release port now
  | clean now => exact { hi with }

theorem parts_of_reach {allowPorts : List PortsRange} {l : Ledger}
    (h : Reach step anyAction (Ledger.new allowPorts) l) : l.manager.Parts (allowed allowPorts) :=
  invariant_of_reach (P := fun l => l.manager.Parts (allowed allowPorts))
    (parts_newManager) (fun _ _ _ hi _ hst => parts_step hi hst) h

/-- Whatever the system answers, the free and the used ports part the allowed ones; an `Acquire`
that fails changes nothing, and another returns an allowed port that is used from then on. -/
theorem ports_parted (allowPorts : List PortsRange)
    (hports : ∀ p ∈ allowed allowPorts, 1 ≤ p ∧ p ≤ 65535) (l : Ledger)
    (h : Reach step anyAction (Ledger.new allowPorts) l) :
    (∀ p ∈ l.manager.freePorts, l.manager.usedPorts p = none) ∧
      (∀ p, p ∈ allowed allowPorts ↔
        p ∈ l.manager.freePorts ∨ (l.manager.usedPorts p).isSome = true) ∧
      ∀ name port e, l.manager.Ordered e → (∀ err, (l.manager.acquire name port e).2 = .error err →
          (l.manager.acquire name port e).1 = l.manager) ∧
        ∀ p, (l.manager.acquire name port e).2 = .ok p →
          p ≠ 0 ∧ p ∈ allowed allowPorts ∧ (port ≠ 0 → p = port) ∧
            ((l.manager.acquire name port e).1.usedPorts p).isSome = true := by
  have hparts := parts_of_reach h
  have hzero : (0 : Int) ∉ allowed allowPorts := by
    intro h0
    have hbound := (hports 0 h0).1
    omega
  refine ⟨hparts.apart, hparts.cover, ?_⟩
  intro name port e ho
  constructor
  · intro err herr
    apply acquire_fst_of_error herr
    -- the port 0 would have to be free
    intro hpicks
    have hfree : (0 : Int) ∈ l.manager.freePorts :=
      (ho.2 0).1 (List.mem_of_mem_take (List.mem_of_find?_eq_some hpicks.2.2))
    exact hzero ((hparts.cover 0).2 (.inl hfree))
  · intro p hp
    obtain ⟨hallowed, hused⟩ := hparts.granted ho hp
    refine ⟨?_, hallowed, fun hport => granted_eq ho hport hp, hused⟩
    intro h0
    rw [h0] at hallowed
    exact hzero hallowed

/-- The free ports of the second call are those that the first has left. -/
theorem ports_parted_onePort :
    let l := (run step anyAction onePort
      [.acquire 0 "a" 0 (allOpen [6000]), .release 6000 1]).getD onePort
    (∀ p, p ∈ allowed [⟨0, 0, 6000⟩] ↔
        p ∈ l.manager.freePorts ∨ (l.manager.usedPorts p).isSome = true) ∧
      (l.manager.acquire "b" 6000 (allOpen [6000])).2 = .ok 6000 ∧
      ((l.manager.acquire "b" 6000 (allOpen [6000])).1.usedPorts 6000).isSome = true := by
  intro l
  have hports : ∀ p ∈ allowed [⟨0, 0, 6000⟩], (1 : Int) ≤ p ∧ p ≤ 65535 := by decide +kernel
  have hreach : Reach step anyAction onePort l := reach_getD_of_isSome (by decide +kernel)
  have hgranted : (l.manager.acquire "b" 6000 (allOpen [6000])).2 = .ok 6000 := by decide +kernel
  have hparted := ports_parted [⟨0, 0, 6000⟩] hports l hreach
  have hcall := hparted.2.2 "b" 6000 (allOpen [6000]) (by decide +kernel)
  exact ⟨hparted.2.1, hgranted, (hcall.2 6000 hgranted).2.2.2⟩

/-! ## The last port of a name -/

structure Lease where
  port : Int
  released : Option Int
  deriving DecidableEq

structure History where
  manager : Manager
  clock : Int
  last : String → Option Lease

def History.new (allowPorts : List PortsRange) (clock : Int) : History :=
  ⟨newManager allowPorts, clock, fun _ => none⟩

instance (m : Manager) (name : String) (port : Int) (e : Moment) :
    Decidable (m.PicksZero name port e) :=
  decidable_of_iff (port = 0 ∧ (∀ p ∈ m.kept name, e.keptAvailable = false) ∧
    (e.order.take 5).find? e.isPortAvailable = some 0) (by
      simp only [Manager.PicksZero, Option.mem_def])

/-- The port that a call marks: the one it returns, or the port 0 it reports as an error. -/
def Manager.marked (m : Manager) (name : String) (port : Int) (e : Moment) : Option Int :=
  match (m.acquire name port e).2 with
  | .ok p => some p
  | .error _ => if m.PicksZero name port e then some 0 else none

theorem acquire_fst_of_marked {m : Manager} {name : String} {port p : Int} {e : Moment}
    (ho : m.Ordered e) (h : m.marked name port e = some p) :
    (m.acquire name port e).1 = m.markPortAcquired name p e.now := by
  unfold Manager.marked at h
  cases hr : (m.acquire name port e).2 with
  | ok q =>
    rw [hr] at h
    cases h
    have hcases := acquired_acquire ho name port
    generalize m.acquire name port e = r at hr hcases
    cases hcases with
    | kept | free => cases hr; rfl
    | zero | refused => cases hr
  | error err =>
    simp only [hr] at h
    split_ifs at h with hzero
    cases h
    rw [acquire_of_picksZero hzero]

theorem acquire_fst_of_not_marked {m : Manager} {name : String} {port : Int} {e : Moment}
    (h : m.marked name port e = none) : (m.acquire name port e).1 = m := by
  unfold Manager.marked at h
  cases hr : (m.acquire name port e).2 with
  | ok q => simp [hr] at h
  | error err =>
    simp only [hr] at h
    split_ifs at h with hzero
    exact acquire_fst_of_error hr hzero

def History.acquire (h : History) (name : String) (port : Int) (e : Moment) : History where
  manager := (h.manager.acquire name port e).1
  clock := e.now
  last :=
    match h.manager.marked name port e with
    | some p => update h.last name (some ⟨p, none⟩)
    | none => h.last

/-- A release ends the leases of the port that have not ended. -/
def Lease.endAt (l : Lease) (port now : Int) : Lease :=
  if l.port = port ∧ l.released = none then { l with released := some now } else l

theorem Lease.port_endAt (l : Lease) (port now : Int) : (l.endAt port now).port = l.port := by
  unfold Lease.endAt
  split_ifs <;> rfl

variable {l : Lease}

theorem Lease.released_endAt {port now t : Int} (h : (l.endAt port now).released = some t) :
    (l.port = port ∧ t = now) ∨ l.released = some t := by
  unfold Lease.endAt at h
  split_ifs at h with hend
  · cases h
    exact .inl ⟨hend.1, rfl⟩
  · exact .inr h

theorem Lease.released_endAt_of_some {port now t : Int} (h : l.released = some t) :
    (l.endAt port now).released = some t := by
  unfold Lease.endAt
  rw [if_neg (by simp [h])]
  exact h

theorem Lease.ended_endAt {now : Int} (hpast : ∀ t, l.released = some t → t ≤ now) :
    ∃ t, (l.endAt l.port now).released = some t ∧ t ≤ now := by
  cases hr : l.released with
  | none => exact ⟨now, by simp [Lease.endAt, hr], le_refl now⟩
  | some t => exact ⟨t, Lease.released_endAt_of_some hr, hpast t hr⟩

def History.release (h : History) (port now : Int) : History where
  manager := h.manager.release port now
  clock := now
  last := fun name => (h.last name).map (Lease.endAt · port now)

def History.cleanReservedPortsOnce (h : History) (now : Int) : History where
  manager := h.manager.cleanReservedPortsOnce now
  clock := now
  last := h.last

namespace History

inductive Action where
  | acquire (name : String) (port : Int) (e : Moment)
  | release (port now : Int)
  | clean (now : Int)

def Enabled (h : History) : Action → Prop
  | .acquire _ _ e => h.manager.Ordered e ∧ h.clock ≤ e.now
  | .release _ now => h.clock ≤ now
  | .clean now => h.clock ≤ now

instance (h : History) (a : Action) : Decidable (Enabled h a) := by
  cases a <;> dsimp only [Enabled] <;> infer_instance

def next (h : History) : Action → History
  | .acquire name port e => h.acquire name port e
  | .release port now => h.release port now
  | .clean now => h.cleanReservedPortsOnce now

def step : History → Action → Option History := stepOf Enabled next

/-- The context `i` has the port of the lease, and is closed only if the lease has ended. -/
def Backs (m : Manager) (i : Nat) (l : Lease) : Prop :=
  ∃ ctx, m.ctxs[i]? = some ctx ∧ ctx.port = l.port ∧
    (ctx.closed = true → ∃ t, l.released = some t ∧ t ≤ ctx.updateTime)

/-- A lease that has not ended a day ago is the one reserved for its name. -/
structure Good (h : History) : Prop where
  used : ∀ p i, h.manager.usedPorts p = some i →
    ∃ ctx, h.manager.ctxs[i]? = some ctx ∧ ctx.port = p
  past : ∀ name l t, h.last name = some l → l.released = some t → t ≤ h.clock
  kept : ∀ name l, h.last name = some l →
    (∀ t, l.released = some t → h.clock - t ≤ maxPortReservedDuration) →
      ∃ i, h.manager.reservedPorts name = some i ∧ Backs h.manager i l

theorem good_new {allowPorts : List PortsRange} {clock : Int} : Good (new allowPorts clock) where
  used := by
    intro p i h
    cases h
  past := by
    intro name l t h
    cases h
  kept := by
    intro name l h
    cases h

section Steps

variable {h : History} {now : Int}

variable (hg : Good h)

include hg

theorem Good.later (hle : h.clock ≤ now) : Good { h with clock := now } where
  used := hg.used
  past := by
    intro name l t hl ht
    exact (hg.past name l t hl ht).trans hle
  kept := by
    intro name l hl hday
    apply hg.kept name l hl
    intro t ht
    have hnow := hday t ht
    dsimp only at hnow
    omega

theorem Good.mark (name : String) (p now : Int) : Good { h with
      manager := h.manager.markPortAcquired name p now
      last := update h.last name (some ⟨p, none⟩) } := by
  have hold : ∀ (i : Nat) (ctx : PortCtx), h.manager.ctxs[i]? = some ctx →
      (h.manager.markPortAcquired name p now).ctxs[i]? = some ctx := by
    intro i ctx hi
    rw [Manager.markPortAcquired, List.getElem?_append_left (List.getElem?_eq_some_iff.1 hi).1]
    exact hi
  have hnew : (h.manager.markPortAcquired name p now).ctxs[h.manager.ctxs.length]? =
      some ⟨name, p, false, now⟩ := List.getElem?_concat_length
  refine ⟨?_, ?_, ?_⟩
  · intro q i hq
    by_cases hqp : q = p
    · have hi : some h.manager.ctxs.length = some i := by
        simpa [Manager.markPortAcquired, hqp] using hq
      cases hi
      exact ⟨_, hnew, hqp.symm⟩
    · have hqold : h.manager.usedPorts q = some i := by
        simpa [Manager.markPortAcquired, hqp] using hq
      obtain ⟨ctx, hctx, hport⟩ := hg.used q i hqold
      exact ⟨ctx, hold i ctx hctx, hport⟩
  · intro n l t hl ht
    dsimp only at hl
    by_cases hn : n = name
    · rw [hn, update_self] at hl
      cases hl
      cases ht
    · rw [update_of_ne hn] at hl
      exact hg.past n l t hl ht
  · intro n l hl hday
    dsimp only at hl
    by_cases hn : n = name
    · rw [hn, update_self] at hl
      cases hl
      refine ⟨h.manager.ctxs.length, ?_, _, hnew, rfl, ?_⟩
      · rw [hn]
        exact update_self ..
      · intro hclosed
        cases hclosed
    · rw [update_of_ne hn] at hl
      obtain ⟨i, hi, ctx, hctx, hback⟩ := hg.kept n l hl hday
      refine ⟨i, ?_, ctx, hold i ctx hctx, hback⟩
      exact (update_of_ne hn ..).trans hi

theorem Good.acquire {e : Moment} (ho : h.manager.Ordered e)
    (hle : h.clock ≤ e.now) (name : String) (port : Int) : Good (h.acquire name port e) := by
  have hlater := hg.later hle
  unfold History.acquire
  cases hmarked : h.manager.marked name port e with
  | none =>
    rw [acquire_fst_of_not_marked hmarked]
    exact hlater
  | some p =>
    rw [acquire_fst_of_marked ho hmarked]
    exact hlater.mark name p e.now

theorem Good.release (port : Int) (hle : h.clock ≤ now) : Good (h.release port now) := by
  have hlater := hg.later hle
  have hlast : ∀ name l, (h.release port now).last name = some l →
      ∃ l₀, h.last name = some l₀ ∧ l = l₀.endAt port now := by
    intro name l hl
    obtain ⟨l₀, hl₀, rfl⟩ := Option.map_eq_some_iff.1 hl
    exact ⟨l₀, hl₀, rfl⟩
  refine ⟨?_, ?_, ?_⟩
  · intro p i hp
    have hold := (usedPorts_release).symm.trans hp
    split_ifs at hold
    obtain ⟨ctx, hctx, rfl⟩ := hg.used p i hold
    refine ⟨_, (ctxs_release).trans (by rw [hctx]; rfl), ?_⟩
    split_ifs <;> rfl
  · intro name l t hl ht
    obtain ⟨l₀, hl₀, rfl⟩ := hlast name l hl
    rcases Lease.released_endAt ht with ⟨-, rfl⟩ | hold
    · exact le_refl _
    · exact hlater.past name l₀ t hl₀ hold
  · intro name l hl hday
    obtain ⟨l₀, hl₀, rfl⟩ := hlast name l hl
    obtain ⟨i, hi, ctx, hctx, hport, hclosed⟩ := hlater.kept name l₀ hl₀
      fun t ht => hday t (Lease.released_endAt_of_some ht)
    refine ⟨i, (congrFun (reservedPorts_release) name).trans hi, _,
      (ctxs_release).trans (by rw [hctx]; rfl), ?_⟩
    rw [Lease.port_endAt]
    dsimp only
    by_cases hused : h.manager.usedPorts port = some i
    · rw [if_pos hused]
      refine ⟨hport, fun _ => ?_⟩
      -- the context of the port that is released backs a lease of that port
      obtain ⟨ctx', hctx', hport'⟩ := hg.used port i hused
      obtain rfl := Option.some.inj (hctx.symm.trans hctx')
      rw [← hport', hport]
      exact Lease.ended_endAt fun t ht => hlater.past name l₀ t hl₀ ht
    · rw [if_neg hused]
      refine ⟨hport, fun hc => ?_⟩
      obtain ⟨t, ht, hle'⟩ := hclosed hc
      exact ⟨t, Lease.released_endAt_of_some ht, hle'⟩

theorem Good.clean (hle : h.clock ≤ now) : Good (h.cleanReservedPortsOnce now) := by
  have hlater := hg.later hle
  refine ⟨hlater.used, hlater.past, ?_⟩
  intro name l hl hday
  obtain ⟨i, hi, ctx, hctx, hport, hclosed⟩ := hlater.kept name l hl hday
  refine ⟨i, ?_, ctx, hctx, hport, hclosed⟩
  change (h.manager.reservedPorts name).filter _ = some i
  have hi' : h.manager.reservedPorts name = some i := hi
  have hctx' : h.manager.ctxs[i]? = some ctx := hctx
  simp only [hi', Option.filter_some, hctx', Option.any_some]
  rw [if_pos]
  simp only [Bool.not_eq_true', Bool.and_eq_false_iff, decide_eq_false_iff_not, not_lt]
  cases hc : ctx.closed with
  | false => exact .inl rfl
  | true =>
    obtain ⟨t, ht, hle'⟩ := hclosed hc
    have hnow : now - t ≤ maxPortReservedDuration := hday t ht
    right
    omega

theorem Good.step {h' : History} {a : Action} (hst : step h a = some h') : Good h' := by
  obtain ⟨hen, rfl⟩ := stepOf_eq_some_iff.1 hst
  cases a with
  | acquire name port e => exact hg.acquire hen.1 hen.2 name port
  | release port now => exact hg.release port hen
  | clean now => exact hg.clean hen

end Steps

theorem good_of_reach {allowPorts : List PortsRange} {clock : Int} {h : History}
    (hr : Reach step anyAction (new allowPorts clock) h) : Good h :=
  invariant_of_reach (good_new) (fun _ _ _ hg _ hst => hg.step hst) hr

/-- The last port of a name is kept for it for a day after its release, and `Acquire` returns it if
the system reports it as available. -/
theorem reserved_for_a_day (allowPorts : List PortsRange) (clock : Int) (h : History)
    (hr : Reach step anyAction (new allowPorts clock) h) (name : String) (p t : Int)
    (hlast : h.last name = some ⟨p, some t⟩) (e : Moment) (hnow : h.clock ≤ e.now)
    (hday : e.now - t < maxPortReservedDuration) : h.manager.kept name = some p ∧
      (e.keptAvailable = true → (h.manager.acquire name 0 e).2 = .ok p) := by
  have hg := good_of_reach hr
  obtain ⟨i, hi, ctx, hctx, hport, -⟩ := hg.kept name _ hlast (by
    intro t' ht'
    cases ht'
    omega)
  have hkept : h.manager.kept name = some p := by
    simp only [Manager.kept, hi, Option.bind_some, hctx, Option.map_some]
    rw [hport]
  refine ⟨hkept, ?_⟩
  intro havailable
  rw [acquire_of_kept hkept havailable]

def openAt (now : Int) (order : List Int) : Moment := ⟨now, order, true, fun _ => true⟩

def betweenRun : List Action :=
  [.acquire "a" 6000 (openAt 0 [6000, 6001]), .release 6000 10,
    .acquire "b" 6000 (openAt 20 [6000, 6001]), .clean 30, .release 6000 40]

theorem reserved_for_a_day_betweenRun :
    let start := new [⟨6000, 6001, 0⟩] 0
    let h := (run step anyAction start betweenRun).getD start
    h.last "a" = some ⟨6000, some 10⟩ ∧
      (h.manager.acquire "a" 0 (openAt 50 [6001, 6000])).2 = .ok 6000 := by
  intro start h
  have hreach : Reach step anyAction start h := reach_getD_of_isSome (by decide +kernel)
  have hlast : h.last "a" = some ⟨6000, some 10⟩ := by decide +kernel
  refine ⟨hlast, ?_⟩
  exact (reserved_for_a_day [⟨6000, 6001, 0⟩] 0 h hreach "a" 6000 10 hlast
    (openAt 50 [6001, 6000]) (by decide +kernel) (by decide +kernel)).2 rfl

end History

end FrpMeo.Server.Ports
