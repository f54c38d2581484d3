import FrpMeo.Lib.GoMap
import FrpMeo.Lib.Transition

/-!
# Verdicts about sources, kept for a while

`newAdmitFilter` of `server/proxy/proxy.go`: a call reads the clock, looks at the cache under the
lock, and on a miss evaluates the check without it and stores the verdict. A verdict expires `ttl`
after the reading, which comes before its evaluation.
-/

namespace FrpMeo.Server.AdmitFilter

open Lib Lib.Transition Function

structure Verdict where
  ok : Bool
  exp : Int

/-- An evaluation of `check`, whose result is arbitrary. -/
structure Evaluation where
  remoteAddr : String
  started : Int
  ok : Bool

inductive Pc where
  | absent
  /-- The clock is read; the cache is looked at next. -/
  | entered (addr : String) (now : Int)
  | checking (addr : String) (now started : Int)
  /-- The verdict is stored next. -/
  | storing (addr : String) (now : Int) (ok : Bool)
  | returned (addr : String) (now : Int) (ok : Bool)
  deriving DecidableEq

structure State where
  clock : Int
  cache : GoMap String Verdict
  call : Nat → Pc
  evaluations : List Evaluation

def init (clock : Int) : State := ⟨clock, .empty, fun _ => .absent, []⟩

def admitVerdictMax : Nat := 4096

/-- The cache before an insertion: a full one is cleared. -/
def cleared (cache : GoMap String Verdict) : GoMap String Verdict :=
  if admitVerdictMax ≤ cache.keys.card then .empty else cache

inductive Action where
  | tick (now : Int)
  | enter (k : Nat) (addr : String)
  | look (k : Nat) (addr : String) (now : Int)
  | evaluate (k : Nat) (addr : String) (now started : Int) (ok : Bool)
  | store (k : Nat) (addr : String) (now : Int) (ok : Bool)

def Enabled (s : State) : Action → Prop
  | .tick now => s.clock ≤ now
  | .enter k _ => s.call k = .absent
  | .look k addr now => s.call k = .entered addr now
  | .evaluate k addr now started _ => s.call k = .checking addr now started
  | .store k addr now ok => s.call k = .storing addr now ok

instance (s : State) (a : Action) : Decidable (Enabled s a) := by
  cases a <;> dsimp only [Enabled] <;> infer_instance

def next (ttl : Int) (s : State) : Action → State
  | .tick now => { s with clock := now }
  | .enter k addr =>
      -- without a lifetime the filter is the check itself
      let pc := if ttl ≤ 0 then .checking addr s.clock s.clock else .entered addr s.clock
      { s with call := update s.call k pc }
  | .look k addr now =>
      match (s.cache.get addr).filter fun v => now < v.exp with
      | some v => { s with call := update s.call k (.returned addr now v.ok) }
      | none => { s with call := update s.call k (.checking addr now s.clock) }
  | .evaluate k addr now started ok =>
      let pc := if ttl ≤ 0 then .returned addr now ok else .storing addr now ok
      { s with
        call := update s.call k pc
        evaluations := ⟨addr, started, ok⟩ :: s.evaluations }
  | .store k addr now ok =>
      { s with
        call := update s.call k (.returned addr now ok)
        cache := (cleared s.cache).insert addr ⟨ok, now + ttl⟩ }

def step (ttl : Int) : State → Action → Option State := stepOf Enabled (next ttl)

/-- The check has said so about the source, in an evaluation not older than `since`. -/
def Vouched (evals : List Evaluation) (addr : String) (ok : Bool) (since : Int) : Prop :=
  ∃ e ∈ evals, e.remoteAddr = addr ∧ e.ok = ok ∧ since ≤ e.started

structure Sound (ttl : Int) (s : State) : Prop where
  answers : ∀ k addr now ok, s.call k = .returned addr now ok →
    Vouched s.evaluations addr ok (now - max ttl 0)
  size : s.cache.keys.card ≤ 4096

/-- What a call knows at its place. -/
def Pc.Fits (ttl clock : Int) (evals : List Evaluation) : Pc → Prop
  | .absent => True
  | .entered _ now => now ≤ clock
  | .checking _ now started => now ≤ started
  | .storing addr now ok => Vouched evals addr ok now
  | .returned addr now ok => Vouched evals addr ok (now - max ttl 0)

structure Inv (ttl : Int) (s : State) : Prop where
  calls : ∀ k, (s.call k).Fits ttl s.clock s.evaluations
  cached : ∀ addr v, s.cache.get addr = some v →
    Vouched s.evaluations addr v.ok (v.exp - ttl)
  size : s.cache.keys.card ≤ 4096

variable {ttl : Int} {s : State} {a : Action} {addr : String} {ok : Bool} {since : Int}
  {evals evals' : List Evaluation}

theorem Vouched.mono (h : Vouched evals addr ok since) (hsub : evals ⊆ evals') :
    Vouched evals' addr ok since := by
  obtain ⟨e, he, hsays⟩ := h
  exact ⟨e, hsub he, hsays⟩

theorem Vouched.of_le {since' : Int} (h : Vouched evals addr ok since) (hle : since' ≤ since) :
    Vouched evals addr ok since' := by
  obtain ⟨e, he, haddr, hok, hstarted⟩ := h
  exact ⟨e, he, haddr, hok, hle.trans hstarted⟩

theorem card_cleared_lt (cache : GoMap String Verdict) : (cleared cache).keys.card < 4096 := by
  unfold cleared
  split_ifs with hfull
  · exact Nat.zero_lt_succ _
  · exact Nat.lt_of_not_le hfull

theorem get_cleared {cache : GoMap String Verdict} {v : Verdict}
    (h : (cleared cache).get addr = some v) : cache.get addr = some v := by
  unfold cleared at h
  split_ifs at h
  · cases h
  · exact h

theorem Inv.setCall (h : Inv ttl s) (k : Nat) {pc : Pc}
    (hpc : pc.Fits ttl s.clock s.evaluations) : Inv ttl { s with call := update s.call k pc } :=
  ⟨(forall_update_iff s.call (p := fun _ x => x.Fits ttl s.clock s.evaluations)).2
    ⟨hpc, fun k' _ => h.calls k'⟩, h.cached, h.size⟩

/-- Time goes on, and evaluations end. -/
theorem Inv.grow (h : Inv ttl s) {clock : Int} (hclock : s.clock ≤ clock)
    (hsub : s.evaluations ⊆ evals) : Inv ttl { s with clock := clock, evaluations := evals } := by
  refine ⟨fun k => ?_, fun r v hv => (h.cached r v hv).mono hsub, h.size⟩
  have hk := h.calls k
  cases hc : s.call k <;> simp only [hc, Pc.Fits] at hk ⊢
  · exact hk.trans hclock
  · exact hk
  · exact hk.mono hsub
  · exact hk.mono hsub

theorem inv_next (h : Inv ttl s) (hen : Enabled s a) : Inv ttl (next ttl s a) := by
  cases a with
  | tick now => exact h.grow hen (List.Subset.refl _)
  | enter k addr =>
    apply h.setCall
    split_ifs <;> exact le_refl s.clock
  | look k addr now =>
    have hk := h.calls k
    rw [show s.call k = _ from hen] at hk
    simp only [next]
    split
    · next v hv =>
      obtain ⟨hget, hexp⟩ := Option.filter_eq_some_iff.1 hv
      have hexp' : now < v.exp := by simpa using hexp
      exact h.setCall k ((h.cached addr v hget).of_le (by omega))
    · exact h.setCall k hk
  | evaluate k addr now started ok =>
    have hk := h.calls k
    rw [show s.call k = _ from hen] at hk
    have hvouched : Vouched (⟨addr, started, ok⟩ :: s.evaluations) addr ok now :=
      ⟨_, List.mem_cons_self, rfl, rfl, hk⟩
    apply (h.grow (le_refl _) (List.subset_cons_self _ s.evaluations)).setCall
    split_ifs
    · exact hvouched.of_le (by omega)
    · exact hvouched
  | store k addr now ok =>
    have hk := h.calls k
    rw [show s.call k = _ from hen] at hk
    have hpc : Vouched s.evaluations addr ok (now - max ttl 0) := hk.of_le (by omega)
    refine ⟨fun k' => ?_, fun r v hv => ?_, ?_⟩
    · exact (h.setCall k (show Pc.Fits ttl s.clock _ (.returned addr now ok) from hpc)).calls k'
    · by_cases hr : r = addr
      · obtain rfl : ⟨ok, now + ttl⟩ = v := by simpa [next, GoMap.get_insert, hr] using hv
        subst hr
        exact hk.of_le (by simp)
      · exact h.cached r v (get_cleared (by simpa [next, GoMap.get_insert, hr] using hv))
    · exact (Finset.card_insert_le addr _).trans (card_cleared_lt s.cache)

/-- Every answer is that of an evaluation for its source which was started at most the lifetime
before the call, and the cache is bounded. -/
theorem sound_of_nondecreasing {clock : Int} (h : Reach (step ttl) anyAction (init clock) s) :
    Sound ttl s := by
  have hinit : Inv ttl (init clock) := ⟨fun _ => trivial, nofun, Nat.zero_le _⟩
  have hinv := invariant_of_next hinit (fun _ _ hs _ hen => inv_next hs hen) h
  refine ⟨fun k addr now ok hk => ?_, hinv.size⟩
  have hfits := hinv.calls k
  rwa [hk] at hfits

def hitRun : List Action :=
  [.enter 0 "a", .look 0 "a" 0, .evaluate 0 "a" 0 0 true, .store 0 "a" 0 true, .tick 9,
    .enter 1 "a", .look 1 "a" 9]

theorem sound_of_nondecreasing_hit :
    Sound 10 ((run (step 10) anyAction (init 0) hitRun).getD (init 0)) :=
  sound_of_nondecreasing (reach_getD_of_isSome (by decide +kernel))

end FrpMeo.Server.AdmitFilter
