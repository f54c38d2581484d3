import FrpMeo.Lib.Transition
import Mathlib.Tactic

/-!
# Counts by calendar days

A `StandardDateCounter` (`pkg/util/metric/date_counter.go`) keeps a count for today and each of some
days before. Before each use it shifts the counts by the time from one midnight to the other,
divided by 24 hours. Days of another length make that differ from the number of days.
-/

namespace FrpMeo.Metrics.DateCounter

open Lib.Transition Function

/-- A time zone: the day of an instant, in nanoseconds, and the midnight at which a day starts. -/
structure Zone where
  day : Int → Int
  midnight : Int → Int
  mono : Monotone day

def Zone.startOfDay (z : Zone) (t : Int) : Int := z.midnight (z.day t)

structure StandardDateCounter where
  reserveDays : Nat
  counts : List Int64
  lastUpdateDate : Int

def newStandardDateCounter (z : Zone) (reserveDays : Nat) (now : Int) : StandardDateCounter :=
  ⟨reserveDays, List.replicate reserveDays 0, z.startOfDay now⟩

def reserved (reserveDays : Int) : Nat := if reserveDays ≤ 0 then 1 else reserveDays.toNat

def newDateCounter (z : Zone) (reserveDays now : Int) : StandardDateCounter :=
  newStandardDateCounter z (reserved reserveDays) now

def hour : Int := 3600000000000

/-- The days that have passed, as `rotate` counts them. -/
def elapsed (lastUpdateDate now : Int) : Int := (now - lastUpdateDate).tdiv (24 * hour)

def rotate (z : Zone) (c : StandardDateCounter) (now : Int) : StandardDateCounter :=
  let now := z.startOfDay now
  let days := elapsed c.lastUpdateDate now
  if days ≤ 0 then c
  else if c.reserveDays ≤ days then
    { c with counts := List.replicate c.reserveDays 0, lastUpdateDate := now }
  else
    { c with
      counts := List.replicate days.toNat 0 ++ c.counts.take (c.reserveDays - days.toNat)
      lastUpdateDate := now }

def getLastDaysCount (z : Zone) (c : StandardDateCounter) (now : Int) (lastdays : Nat) :
    List Int64 :=
  (rotate z c now).counts.take (min lastdays c.reserveDays)

inductive Op where
  | inc (count : Int64)
  | dec (count : Int64)
  /-- `TodayCount` and `GetLastDaysCount`. -/
  | read

def Op.apply (z : Zone) (c : StandardDateCounter) (now : Int) : Op → StandardDateCounter
  | .inc count => { rotate z c now with counts := (rotate z c now).counts.modify 0 (· + count) }
  | .dec count => { rotate z c now with counts := (rotate z c now).counts.modify 0 (· - count) }
  | .read => rotate z c now

def Op.amount : Op → Int64
  | .inc count => count
  | .dec count => -count
  | .read => 0

/-! ## Runs -/

/-- A counter, the last reading of the clock, and what has been added on each day. -/
structure State where
  counter : StandardDateCounter
  now : Int
  added : Int → Int64

def init (z : Zone) (reserveDays now : Int) : State := ⟨newDateCounter z reserveDays now, now, 0⟩

def Enabled (s : State) (a : Int × Op) : Prop := s.now ≤ a.1

instance (s : State) (a : Int × Op) : Decidable (Enabled s a) :=
  inferInstanceAs (Decidable (_ ≤ _))

def next (z : Zone) (s : State) (a : Int × Op) : State :=
  ⟨a.2.apply z s.counter a.1, a.1, update s.added (z.day a.1) (s.added (z.day a.1) + a.2.amount)⟩

def step (z : Zone) : State → Int × Op → Option State := stepOf Enabled (next z)

def Counts (z : Zone) (s : State) : Prop :=
  ∀ now, s.now ≤ now → ∀ lastdays ≤ s.counter.reserveDays, ∀ i < lastdays,
    (getLastDaysCount z s.counter now lastdays)[i]? = some (s.added (z.day now - i))

/-- The division tells how many days have passed, as far as the counts reach. -/
def Regular (z : Zone) (reserveDays : Nat) : Prop :=
  ∀ t u, t ≤ u → min (elapsed (z.startOfDay t) (z.startOfDay u)).toNat reserveDays =
    min (z.day u - z.day t).toNat reserveDays

variable {z : Zone} {c : StandardDateCounter} {s : State} {n : Nat} {t : Int}

structure Inv (z : Zone) (n : Nat) (s : State) : Prop where
  reserve : s.counter.reserveDays = n
  length : s.counter.counts.length = n
  updated : s.counter.lastUpdateDate = z.startOfDay s.now
  counts : ∀ i < n, s.counter.counts[i]? = some (s.added (z.day s.now - i))
  later : ∀ d, z.day s.now < d → s.added d = 0

/-- All three branches of `rotate` are one shift. -/
theorem rotate_counts (h : c.counts.length = c.reserveDays) (now : Int) :
    (rotate z c now).counts = (List.replicate (min (elapsed c.lastUpdateDate
      (z.startOfDay now)).toNat c.reserveDays) 0 ++ c.counts).take c.reserveDays := by
  simp only [rotate]
  generalize elapsed _ _ = days
  split_ifs with hpos hlong
  · rw [Int.toNat_of_nonpos hpos, Nat.zero_min, List.replicate_zero, List.nil_append, ← h,
      List.take_length]
  · rw [min_eq_right (by omega), List.take_left' (List.length_replicate ..)]
  · rw [min_eq_left (by omega), List.take_append, List.length_replicate, List.take_replicate,
      min_eq_right (by omega)]

theorem rotate_lastUpdateDate (h : elapsed c.lastUpdateDate (z.startOfDay t) ≤ 0 →
    c.lastUpdateDate = z.startOfDay t) : (rotate z c t).lastUpdateDate = z.startOfDay t := by
  simp only [rotate]
  split_ifs with hpos
  · exact h hpos
  · rfl
  · rfl

theorem rotate_reserveDays (now : Int) :
    (rotate z c now).reserveDays = c.reserveDays := by
  simp only [rotate]
  split_ifs <;> rfl

theorem Inv.rotate_length (hs : Inv z n s) : (rotate z s.counter t).counts.length = n := by
  rw [rotate_counts (hs.length.trans hs.reserve.symm), hs.reserve, List.length_take,
    List.length_append, hs.length]
  omega

theorem Inv.rotate (hs : Inv z n s) (hz : Regular z n) (hn : 0 < n) (ht : s.now ≤ t) :
    (DateCounter.rotate z s.counter t).lastUpdateDate = z.startOfDay t ∧
      ∀ i < n, (DateCounter.rotate z s.counter t).counts[i]? = some (s.added (z.day t - i)) := by
  have hdays := hz s.now t ht
  have hmono := z.mono ht
  rw [← hs.updated] at hdays
  refine ⟨rotate_lastUpdateDate fun hpos => ?_, fun i hi => ?_⟩
  · have hsame : z.day t = z.day s.now := by omega
    rw [hs.updated, Zone.startOfDay, Zone.startOfDay, hsame]
  · rw [rotate_counts (hs.length.trans hs.reserve.symm), hs.reserve, hdays, List.getElem?_take,
      if_pos hi, List.getElem?_append, List.length_replicate]
    split_ifs with hnew
    · rw [List.getElem?_replicate, if_pos hnew, hs.later _ (by omega)]
    · rw [hs.counts _ (by omega)]
      congr 2
      omega

theorem inv_next (hs : Inv z n s) (hz : Regular z n) (hn : 0 < n) {a : Int × Op}
    (hen : Enabled s a) : Inv z n (next z s a) := by
  obtain ⟨t, op⟩ := a
  have ht : s.now ≤ t := hen
  obtain ⟨hupdated, hcounts⟩ := hs.rotate hz hn ht
  have happly : op.apply z s.counter t = { rotate z s.counter t with
      counts := (rotate z s.counter t).counts.modify 0 (· + op.amount) } := by
    cases op with
    | inc count => rfl
    | dec count => simp [Op.apply, Op.amount, Int64.sub_eq_add_neg]
    | read =>
      simp only [Op.apply, Op.amount, Int64.add_zero]
      exact congrArg (fun l => (⟨_, l, _⟩ : StandardDateCounter)) (List.modify_id 0 _).symm
  constructor
  · simp only [next, happly, rotate_reserveDays, hs.reserve]
  · simp only [next, happly, List.length_modify, hs.rotate_length]
  · simp only [next, happly, hupdated]
  · intro i hi
    simp only [next, happly, List.getElem?_modify, hcounts i hi]
    cases i with
    | zero => simp
    | succ i => simp [update_apply]; omega
  · intro d hd
    have := z.mono ht
    simp only [next] at hd ⊢
    rw [update_of_ne (by omega), hs.later d (by omega)]

theorem reserved_pos (reserveDays : Int) : 0 < reserved reserveDays := by
  unfold reserved
  split_ifs <;> omega

theorem inv_init (z : Zone) (reserveDays t : Int) :
    Inv z (reserved reserveDays) (init z reserveDays t) := by
  refine ⟨rfl, List.length_replicate, rfl, fun i hi => ?_, fun _ _ => rfl⟩
  exact List.getElem?_replicate_of_lt hi

theorem Inv.counts_of_regular (hs : Inv z n s) (hz : Regular z n) (hn : 0 < n) : Counts z s := by
  intro now hnow lastdays hle i hi
  have hlt : i < n := by
    have := hs.reserve
    omega
  rw [getLastDaysCount, List.getElem?_take, if_pos (by omega), (hs.rotate hz hn hnow).2 i hlt]

/-- One count, and a reading of all days some time later. -/
theorem place_of_counts {reserveDays u : Int} (hu : t ≤ u)
    (h : Counts z (next z (init z reserveDays t) (t, .inc 1))) :
    ∀ i < reserved reserveDays, (i = min (elapsed (z.startOfDay t) (z.startOfDay u)).toNat
      (reserved reserveDays) ↔ z.day u - i = z.day t) := by
  intro i hi
  have hcounter : (next z (init z reserveDays t) (t, .inc 1)).counter = ⟨reserved reserveDays,
      (List.replicate (reserved reserveDays) 0).modify 0 (· + 1), z.startOfDay t⟩ := by
    simp [next, Op.apply, init, newDateCounter, newStandardDateCounter, rotate, elapsed]
  have hread := h u hu _ le_rfl i (by rwa [hcounter])
  rw [hcounter, getLastDaysCount, rotate_counts (by simp)] at hread
  simp only [next, init, List.take_take, min_self, List.getElem?_take, if_pos hi,
    List.getElem?_append, List.length_replicate, List.getElem?_replicate, List.getElem?_modify,
    Op.amount, update_apply, Pi.zero_apply, Int64.zero_add] at hread
  grind

/-- The counts are those of the calendar days, in every run, iff the division tells how many days
have passed. -/
theorem counts_iff_regular (z : Zone) (reserveDays : Int) :
    (∀ t s, Reach (step z) anyAction (init z reserveDays t) s → Counts z s) ↔
      Regular z (reserved reserveDays) := by
  have hpos := reserved_pos reserveDays
  constructor
  · intro h t u hu
    have hreach : Reach (step z) anyAction (init z reserveDays t)
        (next z (init z reserveDays t) (t, .inc 1)) :=
      .single ⟨(t, .inc 1), trivial, stepOf_eq_some_iff.2 ⟨le_refl t, rfl⟩⟩
    have hplace := place_of_counts hu (h t _ hreach)
    have hmono := z.mono hu
    by_cases hlast : (z.day u - z.day t).toNat < reserved reserveDays
    · have := (hplace _ hlast).2 (by omega)
      omega
    · by_contra hne
      have := (hplace _ (by omega)).1 rfl
      omega
  · intro hz t s h
    have hinv : Inv z (reserved reserveDays) s :=
      invariant_of_next (inv_init z reserveDays t) (fun _ _ hs _ hen => inv_next hs hz hpos hen) h
    exact hinv.counts_of_regular hz hpos

/-- The clocks go from two to three on the first day. -/
def summerTime : Zone where
  day t := if t < 2 * hour then t / (24 * hour) else (t + hour) / (24 * hour)
  midnight d := if d ≤ 0 then d * (24 * hour) else d * (24 * hour) - hour
  mono t u h := by
    unfold hour
    dsimp only
    split_ifs <;> omega

/-- What was counted on the day of 23 hours is shown for the day after. -/
theorem counts_irregular : ∃ s, Reach (step summerTime) anyAction
    (init summerTime 7 0) s ∧ ¬ Counts summerTime s := by
  refine ⟨(run (step summerTime) anyAction (init summerTime 7 0) [(hour, .inc 5)]).getD
    (init summerTime 7 0), reach_getD_of_isSome (by decide +kernel), fun h => ?_⟩
  exact absurd (h (23 * hour) (by decide +kernel) 1 (by decide +kernel) 0 (by decide))
    (by decide +kernel)

end FrpMeo.Metrics.DateCounter
