import FrpMeo.Lib.Transition
import FrpMeo.Nathole.Classify
import Mathlib.Data.List.Rotate

/-!
# Choosing how to punch

The analyzer (`pkg/nathole/analysis.go`) keeps a score for each entry of the tables of behaviours,
for each pair of a client and a visitor. It recommends the first entry with the highest score, takes
one off, and adds two when the entry has worked. Scores are integers.
-/

namespace FrpMeo.Nathole

open Lib.Transition Function

/-- A role, or the empty text of a behaviour that was not set. -/
inductive Role where
  | unset
  | sender
  | receiver
  deriving DecidableEq

structure RecommandBehavior where
  role : Role := .unset
  ttl : Int := 0
  sendDelayMs : Int := 0
  portsRangeNumber : Int := 0
  portsRandomNumber : Int := 0
  listenRandomPorts : Int := 0
  deriving DecidableEq

abbrev Behaviors := List (RecommandBehavior × RecommandBehavior)

def mode0Behaviors : Behaviors :=
  [({ role := .sender }, { role := .receiver, ttl := 7 }),
    ({ role := .receiver, ttl := 7 }, { role := .sender }),
    ({ role := .sender }, { role := .receiver, ttl := 4 }),
    ({ role := .receiver, ttl := 4 }, { role := .sender }),
    ({ role := .sender }, { role := .receiver }),
    ({ role := .receiver }, { role := .sender }),
    ({ role := .sender, sendDelayMs := 5000 }, { role := .receiver }),
    ({ role := .sender, sendDelayMs := 10000 }, { role := .receiver }),
    ({ role := .receiver }, { role := .sender, sendDelayMs := 5000 }),
    ({ role := .receiver }, { role := .sender, sendDelayMs := 10000 })]

def mode1Behaviors : Behaviors :=
  [({ role := .sender }, { role := .receiver, ttl := 7, portsRangeNumber := 10 }),
    ({ role := .sender, sendDelayMs := 2000 },
      { role := .receiver, ttl := 7, portsRangeNumber := 10 }),
    ({ role := .sender }, { role := .receiver, ttl := 4, portsRangeNumber := 10 }),
    ({ role := .sender, sendDelayMs := 2000 },
      { role := .receiver, ttl := 4, portsRangeNumber := 10 }),
    ({ role := .sender }, { role := .receiver, portsRangeNumber := 10 }),
    ({ role := .sender, sendDelayMs := 2000 }, { role := .receiver, portsRangeNumber := 10 })]

def mode2Behaviors : Behaviors :=
  [({ role := .sender, portsRandomNumber := 1000, sendDelayMs := 3000 },
      { role := .receiver, listenRandomPorts := 256, ttl := 7 }),
    ({ role := .sender, portsRandomNumber := 1000, sendDelayMs := 3000 },
      { role := .receiver, listenRandomPorts := 256, ttl := 4 }),
    ({ role := .sender, portsRandomNumber := 1000, sendDelayMs := 3000 },
      { role := .receiver, listenRandomPorts := 256 })]

def mode3Behaviors : Behaviors :=
  [({ role := .sender, portsRangeNumber := 10 },
      { role := .receiver, ttl := 7, portsRangeNumber := 10 }),
    ({ role := .sender, portsRangeNumber := 10 },
      { role := .receiver, ttl := 4, portsRangeNumber := 10 }),
    ({ role := .sender, portsRangeNumber := 10 }, { role := .receiver, portsRangeNumber := 10 }),
    ({ role := .receiver, ttl := 7, portsRangeNumber := 10 },
      { role := .sender, portsRangeNumber := 10 }),
    ({ role := .receiver, ttl := 4, portsRangeNumber := 10 },
      { role := .sender, portsRangeNumber := 10 }),
    ({ role := .receiver, portsRangeNumber := 10 }, { role := .sender, portsRangeNumber := 10 })]

def mode4Behaviors : Behaviors :=
  [({ role := .sender, portsRandomNumber := 1000, sendDelayMs := 3000 },
      { role := .receiver, listenRandomPorts := 256, ttl := 7, portsRangeNumber := 2 }),
    ({ role := .sender, portsRandomNumber := 1000, sendDelayMs := 3000 },
      { role := .receiver, listenRandomPorts := 256, ttl := 4, portsRangeNumber := 2 }),
    ({ role := .sender, portsRandomNumber := 1000, sendDelayMs := 3000 },
      { role := .receiver, listenRandomPorts := 256, portsRangeNumber := 2 })]

def getBehaviorByMode : Nat → Behaviors
  | 0 => mode0Behaviors
  | 1 => mode1Behaviors
  | 2 => mode2Behaviors
  | 3 => mode3Behaviors
  | 4 => mode4Behaviors
  | _ => mode0Behaviors

def getBehaviorByModeAndIndex (mode index : Nat) : RecommandBehavior × RecommandBehavior :=
  ((getBehaviorByMode mode)[index]?).getD ({}, {})

structure BehaviorScore where
  mode : Nat
  index : Nat
  score : Int
  deriving DecidableEq

def getBehaviorScoresByMode2 (mode : Nat) (senderScore receiverScore : Int) : List BehaviorScore :=
  (getBehaviorByMode mode).mapIdx fun i b =>
    ⟨mode, i, if b.1.role = .sender then senderScore else receiverScore⟩

def getBehaviorScoresByMode (mode : Nat) (defaultScore : Int) : List BehaviorScore :=
  getBehaviorScoresByMode2 mode defaultScore defaultScore

/-- `appendMode0` of `newMakeHoleRecordsWithClock`: what it appends. -/
def appendMode0 (c v : NatFeature) : List BehaviorScore :=
  if c.publicNetwork then getBehaviorScoresByMode2 0 0 1
  else if v.publicNetwork then getBehaviorScoresByMode2 0 1 0
  else getBehaviorScoresByMode 0 0

/-- The scores of `newMakeHoleRecordsWithClock`. -/
def newScores (c v : NatFeature) : List BehaviorScore :=
  match classifyFeatureCount [c, v] with
  | (2, _, _) => appendMode0 c v
  | (_, 1, 1) => getBehaviorScoresByMode 1 0 ++ getBehaviorScoresByMode 2 0 ++ appendMode0 c v
  | (_, 1, 0) => getBehaviorScoresByMode 2 0 ++ getBehaviorScoresByMode 1 0 ++ appendMode0 c v
  | (_, 2, 2) => getBehaviorScoresByMode 3 0 ++ getBehaviorScoresByMode 4 0
  | (_, 2, 1) => getBehaviorScoresByMode 4 0
  | _ => getBehaviorScoresByMode 0 1 ++ getBehaviorScoresByMode 1 1 ++ getBehaviorScoresByMode 3 1

/-- The place of the first highest score, which `slices.MaxFunc` returns. -/
def maxPlace (scores : List BehaviorScore) : Nat :=
  scores.findIdx fun x => scores.all fun y => decide (y.score ≤ x.score)

/-- `recommand`: the mode and the index, and the scores it leaves. -/
def recommand (scores : List BehaviorScore) : (Nat × Nat) × List BehaviorScore :=
  match scores[maxPlace scores]? with
  | none => ((0, 0), scores)
  | some x => ((x.mode, x.index), scores.set (maxPlace scores) { x with score := x.score - 1 })

def reportSuccess (scores : List BehaviorScore) (mode index : Nat) : List BehaviorScore :=
  scores.modify (scores.findIdx fun x => x.mode = mode && x.index = index)
    fun x => { x with score := min (x.score + 2) 10 }

/-! ## The analyzer -/

structure MakeHoleRecords where
  scores : List BehaviorScore
  lastUpdateTime : Int

structure Analyzer where
  records : String → Option MakeHoleRecords
  dataReserveDuration : Int

def Analyzer.get (a : Analyzer) (key : String) (c v : NatFeature) (now : Int) : MakeHoleRecords :=
  (a.records key).getD ⟨newScores c v, now⟩

structure Recommendation where
  mode : Nat
  index : Nat
  cBehavior : RecommandBehavior
  vBehavior : RecommandBehavior

/-- The sides of the table's entry, swapped as the features ask. -/
def recommendation (c : NatFeature) (mode index : Nat) : Recommendation :=
  let b := getBehaviorByModeAndIndex mode index
  let swapped : Bool :=
    match mode with
    | 1 => c.natType = .easyNAT
    | 2 => c.natType = .hardNAT
    | 4 => !c.regularPortsChange
    | _ => false
  ⟨mode, index, if swapped then b.2 else b.1, if swapped then b.1 else b.2⟩

def Analyzer.getRecommandBehaviors (a : Analyzer) (key : String) (c v : NatFeature) (now : Int) :
    Analyzer × Recommendation :=
  let r := a.get key c v now
  let picked := recommand r.scores
  let updated : MakeHoleRecords := ⟨picked.2, if r.scores = [] then r.lastUpdateTime else now⟩
  ({ a with records := update a.records key (some updated) },
    recommendation c picked.1.1 picked.1.2)

def Analyzer.reportSuccess (a : Analyzer) (key : String) (mode index : Nat) (now : Int) :
    Analyzer :=
  let updated := (a.records key).map fun r =>
    (⟨Nathole.reportSuccess r.scores mode index, now⟩ : MakeHoleRecords)
  { a with records := update a.records key updated }

def Analyzer.clean (a : Analyzer) (now : Int) : Analyzer :=
  { a with records := fun key => (a.records key).filter fun r =>
      now - r.lastUpdateTime ≤ a.dataReserveDuration }

inductive Call where
  | getRecommandBehaviors (key : String) (c v : NatFeature) (now : Int)
  | reportSuccess (key : String) (mode index : Nat) (now : Int)
  | clean (now : Int)

def Analyzer.apply (a : Analyzer) : Call → Analyzer
  | .getRecommandBehaviors key c v now => (a.getRecommandBehaviors key c v now).1
  | .reportSuccess key mode index now => a.reportSuccess key mode index now
  | .clean now => a.clean now

def newAnalyzer (dataReserveDuration : Int) : Analyzer := ⟨fun _ => none, dataReserveDuration⟩

/-! ## Roles -/

structure Paired (c v : NatFeature) (r : Recommendation) : Prop where
  complementary : (r.cBehavior.role, r.vBehavior.role) ∈
    [(Role.sender, Role.receiver), (.receiver, .sender)]
  hardSends : r.mode = 1 → c.natType ≠ v.natType →
    (r.cBehavior.role = .sender ↔ c.natType = .hardNAT)
  hardReceives : r.mode = 2 → c.natType ≠ v.natType →
    (r.cBehavior.role = .receiver ↔ c.natType = .hardNAT)
  regularSends : r.mode = 4 → c.regularPortsChange = true ∨ v.regularPortsChange = true →
    if r.cBehavior.role = .sender then c.regularPortsChange = true else v.regularPortsChange = true

def Listed (mode index : Nat) : Prop := mode < 5 ∧ index < (getBehaviorByMode mode).length

theorem roles_of_listed : ∀ mode < 5, ∀ b ∈ getBehaviorByMode mode,
    (b.1.role, b.2.role) ∈ [(Role.sender, Role.receiver), (.receiver, .sender)] ∧
      (mode ∈ [1, 2, 4] → b.1.role = .sender) := by
  decide

theorem paired_of_listed {mode index : Nat} (c v : NatFeature) (h : Listed mode index) :
    Paired c v (recommendation c mode index) := by
  obtain ⟨hmode, hindex⟩ := h
  obtain ⟨hroles, hfirst⟩ := roles_of_listed mode hmode _ (List.getElem_mem hindex)
  have hb : getBehaviorByModeAndIndex mode index = (getBehaviorByMode mode)[index] := by
    rw [getBehaviorByModeAndIndex, List.getElem?_eq_getElem hindex, Option.getD_some]
  simp only [recommendation, hb]
  generalize (getBehaviorByMode mode)[index] = b at hroles hfirst
  -- the tables put the sender first in the modes whose sides are swapped
  have hsecond : mode ∈ [1, 2, 4] → b.1.role = .sender ∧ b.2.role = .receiver := by
    intro hm
    have := hfirst hm
    simp_all
  constructor
  · dsimp only
    split_ifs
    · simp only [List.mem_cons, Prod.mk.injEq, List.not_mem_nil, or_false] at hroles ⊢
      tauto
    · exact hroles
  · rintro rfl hne
    obtain ⟨hs, hr⟩ := hsecond (by simp)
    cases hc : c.natType <;> simp [hs, hr]
  · rintro rfl hne
    obtain ⟨hs, hr⟩ := hsecond (by simp)
    cases hc : c.natType <;> simp [hs, hr]
  · rintro rfl hreg
    obtain ⟨hs, hr⟩ := hsecond (by simp)
    cases hc : c.regularPortsChange <;> simp_all

def BehaviorScore.key (x : BehaviorScore) : Nat × Nat := (x.mode, x.index)

structure Fresh (scores : List BehaviorScore) : Prop where
  listed : ∀ x ∈ scores, Listed x.mode x.index
  nodup : (scores.map BehaviorScore.key).Nodup
  ne_nil : scores ≠ []
  level : (∀ x ∈ scores, x.score = 0 ∨ x.score = 0 + 1)

theorem fresh_newScores (c v : NatFeature) : Fresh (newScores c v) := by
  unfold newScores appendMode0
  split
  all_goals
    try split_ifs
    all_goals
      refine ⟨?_, ?_, ?_, ?_⟩
      · unfold Listed
        decide
      all_goals decide

theorem exists_first_max {scores : List BehaviorScore} (h : scores ≠ []) :
    ∃ l₁ x l₂, scores = l₁ ++ x :: l₂ ∧ (∀ y ∈ l₁, y.score < x.score) ∧
      ∀ y ∈ l₂, y.score ≤ x.score := by
  induction scores with
  | nil => exact absurd rfl h
  | cons z scores ih =>
    by_cases hnil : scores = []
    · exact ⟨[], z, [], by simp [hnil]⟩
    · obtain ⟨l₁, x, l₂, rfl, h₁, h₂⟩ := ih hnil
      by_cases hz : z.score < x.score
      · exact ⟨z :: l₁, x, l₂, rfl, by simpa using ⟨hz, h₁⟩, h₂⟩
      · refine ⟨[], z, _, rfl, nofun, fun y hy => ?_⟩
        grind

variable {scores l₁ l₂ : List BehaviorScore} {x : BehaviorScore} {keys : List (Nat × Nat)} {m : Int}

theorem recommand_append (h₁ : ∀ y ∈ l₁, y.score < x.score) (h₂ : ∀ y ∈ l₂, y.score ≤ x.score) :
    recommand (l₁ ++ x :: l₂) = (x.key, l₁ ++ { x with score := x.score - 1 } :: l₂) := by
  have hplace : maxPlace (l₁ ++ x :: l₂) = l₁.length := by
    rw [maxPlace, List.findIdx_eq (by simp)]
    refine ⟨?_, fun j hj => ?_⟩
    · simpa using ⟨fun y hy => (h₁ y hy).le, h₂⟩
    · have := h₁ _ (List.getElem_mem hj)
      simp only [List.getElem_append_left hj, List.all_eq_false]
      exact ⟨x, by simp, by simpa using this⟩
  simp [recommand, hplace, BehaviorScore.key]

theorem keys_recommand :
    (recommand scores).2.map BehaviorScore.key = scores.map BehaviorScore.key := by
  by_cases h : scores = []
  · rw [h]
    rfl
  · obtain ⟨l₁, x, l₂, rfl, h₁, h₂⟩ := exists_first_max h
    rw [recommand_append h₁ h₂]
    simp [BehaviorScore.key]

theorem keys_reportSuccess {mode index : Nat} :
    (reportSuccess scores mode index).map BehaviorScore.key = scores.map BehaviorScore.key := by
  refine List.ext_getElem (by simp [reportSuccess]) fun i _ _ => ?_
  simp only [reportSuccess, List.getElem_map, List.getElem_modify]
  split_ifs <;> rfl

def Analyzer.Listed (a : Analyzer) : Prop :=
  ∀ key r, a.records key = some r → ∀ p ∈ r.scores.map BehaviorScore.key, Nathole.Listed p.1 p.2

variable {a : Analyzer}

theorem Analyzer.Listed.get (h : a.Listed) {key : String} {c v : NatFeature} {now : Int} :
    ∀ p ∈ (a.get key c v now).scores.map BehaviorScore.key, Nathole.Listed p.1 p.2 := by
  unfold Analyzer.get
  cases hr : a.records key with
  | none => exact List.forall_mem_map.2 (fresh_newScores c v).listed
  | some r => exact h key r hr

theorem listed_recommand (h : ∀ p ∈ scores.map BehaviorScore.key, Listed p.1 p.2) :
    Listed (recommand scores).1.1 (recommand scores).1.2 := by
  by_cases hnil : scores = []
  · rw [hnil]
    exact ⟨by decide, by decide⟩
  · obtain ⟨l₁, x, l₂, rfl, h₁, h₂⟩ := exists_first_max hnil
    rw [recommand_append h₁ h₂]
    exact h x.key (by simp)

theorem Analyzer.Listed.apply (h : a.Listed) (call : Call) : (a.apply call).Listed := by
  cases call with
  | getRecommandBehaviors key c v now =>
    intro k r hr
    by_cases hk : k = key
    · simp only [Analyzer.apply, Analyzer.getRecommandBehaviors, hk, update_self] at hr
      cases hr
      rw [keys_recommand]
      exact h.get
    · simp only [Analyzer.apply, Analyzer.getRecommandBehaviors, update_of_ne hk] at hr
      exact h k r hr
  | reportSuccess key mode index now =>
    intro k r hr
    simp only [Analyzer.apply, Analyzer.reportSuccess, update_apply] at hr
    split_ifs at hr
    · obtain ⟨r', hr', rfl⟩ := Option.map_eq_some_iff.1 hr
      rw [keys_reportSuccess]
      exact h key r' hr'
    · exact h k r hr
  | clean now =>
    intro k r hr
    exact h k r (Option.filter_eq_some_iff.1 hr).1

/-- Whatever was recommended and reported before, the recommended roles fit together and the
features of both sides. -/
theorem roles_paired (dataReserveDuration : Int) (calls : List Call) (key : String)
    (c v : NatFeature) (now : Int) : Paired c v (((calls.foldl Analyzer.apply
      (newAnalyzer dataReserveDuration)).getRecommandBehaviors key c v now).2) := by
  have hlisted : (calls.foldl Analyzer.apply (newAnalyzer dataReserveDuration)).Listed := by
    refine foldl_induction (P := Analyzer.Listed) ?_ (fun a call h => h.apply call) calls
    nofun
  exact paired_of_listed c v (listed_recommand hlisted.get)

/-! ## Turns -/

def after (scores : List BehaviorScore) (k : Nat) : List BehaviorScore :=
  (fun s => (recommand s).2)^[k] scores

def picks (scores : List BehaviorScore) (k n : Nat) : List (Nat × Nat) :=
  (List.range n).map fun i => (recommand (after scores (k + i))).1

def Level (m : Int) (scores : List BehaviorScore) : Prop := ∀ x ∈ scores, x.score = m

/-- The entries that begin with a higher score than others. -/
def preferred (scores : List BehaviorScore) : List BehaviorScore :=
  scores.filter fun x => scores.any fun y => y.score < x.score

structure TakesTurns (scores : List BehaviorScore) : Prop where
  spread : ∀ k, ∀ x ∈ after scores k, ∀ y ∈ after scores k, x.score ≤ y.score + 1
  blocks : ∀ k m, Level m (after scores k) → ∀ i,
    (picks scores (k + i) scores.length).Perm (scores.map BehaviorScore.key)
  nodup : (scores.map BehaviorScore.key).Nodup
  preferred : ∃ m, Level m (after scores (preferred scores).length) ∧
    picks scores 0 (preferred scores).length = (preferred scores).map BehaviorScore.key

theorem after_add (scores : List BehaviorScore) (k i : Nat) :
    after scores (k + i) = after (after scores k) i := by
  rw [after, Nat.add_comm, iterate_add_apply]
  rfl

theorem after_succ {k : Nat} : after scores (k + 1) = (recommand (after scores k)).2 :=
  iterate_succ_apply' ..

theorem keys_after (scores : List BehaviorScore) (k : Nat) :
    (after scores k).map BehaviorScore.key = scores.map BehaviorScore.key := by
  induction k with
  | zero => rfl
  | succ k ih => rw [after_succ, keys_recommand, ih]

def Near (m : Int) (scores : List BehaviorScore) : Prop :=
  ∀ x ∈ scores, x.score = m ∨ x.score = m + 1

theorem Near.recommand (h : Near m scores) : ∃ m', Near m' (recommand scores).2 := by
  by_cases hnil : scores = []
  · subst hnil
    exact ⟨m, nofun⟩
  · obtain ⟨l₁, x, l₂, rfl, h₁, h₂⟩ := exists_first_max hnil
    rw [recommand_append h₁ h₂]
    unfold Near at h ⊢
    rcases h x (by simp) with hx | hx
    · exact ⟨m - 1, by grind⟩
    · exact ⟨m, by grind⟩

theorem Near.after (h : Near m scores) (k : Nat) : ∃ m', Near m' (after scores k) := by
  induction k with
  | zero => exact ⟨m, h⟩
  | succ k ih =>
    obtain ⟨m', hm'⟩ := ih
    rw [after_succ]
    exact hm'.recommand

/-- The entries before some place have had their turn in this round, the others have not. -/
def mix (m : Int) (done left : List (Nat × Nat)) : List BehaviorScore :=
  done.map (fun p => ⟨p.1, p.2, m - 1⟩) ++ left.map fun p => ⟨p.1, p.2, m⟩

theorem Level.eq_mix (h : Level m scores) : scores = mix m [] (scores.map BehaviorScore.key) := by
  simp only [mix, List.map_nil, List.nil_append, List.map_map]
  refine (List.map_id scores).symm.trans (List.map_congr_left fun x hx => ?_)
  simp [← h x hx, BehaviorScore.key]

theorem recommand_mix {done left : List (Nat × Nat)} {p : Nat × Nat} :
    recommand (mix m done (p :: left)) = (p, mix m (done ++ [p]) left) := by
  rw [mix, List.map_cons, recommand_append]
  · simp [mix, BehaviorScore.key]
  · grind
  · grind

theorem after_mix (h : keys ≠ []) (k : Nat) : ∃ m', after (mix m [] keys) k =
    mix m' (keys.take (k % keys.length)) (keys.drop (k % keys.length)) := by
  have hpos := List.length_pos_of_ne_nil h
  induction k with
  | zero => exact ⟨m, by simp [after]⟩
  | succ k ih =>
    obtain ⟨m', hm'⟩ := ih
    have hlt := Nat.mod_lt k hpos
    rw [after_succ, hm', List.drop_eq_getElem_cons hlt, recommand_mix,
      List.take_concat_get' _ _ hlt, ← Nat.mod_add_mod k]
    by_cases hlast : k % keys.length + 1 = keys.length
    · -- the round is over: all are one lower
      rw [hlast, Nat.mod_self]
      exact ⟨m' - 1, by simp [mix]⟩
    · rw [Nat.mod_eq_of_lt (by omega : k % keys.length + 1 < keys.length)]
      exact ⟨m', rfl⟩

theorem picks_mix (h : keys ≠ []) (k : Nat) :
    picks (mix m [] keys) k keys.length = keys.rotate k := by
  refine List.ext_getElem (by simp [picks]) fun i hi _ => ?_
  have hlt := Nat.mod_lt (k + i) (List.length_pos_of_ne_nil h)
  obtain ⟨m', hm'⟩ := after_mix (m := m) h (k + i)
  simp only [picks, List.getElem_map, List.getElem_range, List.getElem_rotate]
  rw [hm', List.drop_eq_getElem_cons hlt, recommand_mix]
  simp only [Nat.add_comm]

theorem picks_succ {n : Nat} :
    picks scores 0 (n + 1) = (recommand scores).1 :: picks (recommand scores).2 0 n := by
  simp only [picks, List.range_succ_eq_map, List.map_cons, List.map_map, Nat.zero_add]
  rfl

theorem picks_high {high : List BehaviorScore} (h : Near m scores)
    (hhigh : scores.filter (fun x => x.score = m + 1) = high) : Level m (after scores high.length) ∧
      picks scores 0 high.length = high.map BehaviorScore.key := by
  induction high generalizing scores with
  | nil =>
    refine ⟨fun x hx => ?_, rfl⟩
    have := List.filter_eq_nil_iff.1 hhigh x hx
    exact (h x hx).resolve_right (by simpa using this)
  | cons x high ih =>
    have hx : x ∈ scores ∧ x.score = m + 1 := by
      have : x ∈ scores.filter (fun x => x.score = m + 1) := hhigh ▸ List.mem_cons_self
      simpa using this
    obtain ⟨l₁, x', l₂, rfl, h₁, h₂⟩ := exists_first_max (List.ne_nil_of_mem hx.1)
    have hx' : x'.score = m + 1 := by
      have := h x' (by simp)
      grind
    -- the first of the high ones is the first highest
    have hfilter : l₁.filter (fun x => x.score = m + 1) = [] := by
      simpa [List.filter_eq_nil_iff] using fun y hy => by have := h₁ y hy; omega
    rw [List.filter_append, hfilter, List.nil_append, List.filter_cons_of_pos (by simpa using hx'),
      List.cons.injEq] at hhigh
    obtain ⟨rfl, hhigh⟩ := hhigh
    have hstep := recommand_append h₁ h₂
    have hnear : Near m (recommand (l₁ ++ x' :: l₂)).2 := by
      rw [hstep]
      unfold Near at h ⊢
      grind
    have hleft : (recommand (l₁ ++ x' :: l₂)).2.filter (fun x => x.score = m + 1) = high := by
      rw [hstep, List.filter_append, hfilter, List.filter_cons_of_neg (by simp [hx'])]
      exact hhigh
    obtain ⟨hlevel, hpicks⟩ := ih hnear hleft
    rw [List.length_cons, picks_succ, hpicks, Nat.add_comm, after_add, List.map_cons]
    exact ⟨hlevel, by rw [hstep]⟩

theorem Fresh.takesTurns (h : Fresh scores) : TakesTurns scores where
  spread := by
    intro k x hx y hy
    obtain ⟨m, hm⟩ := Near.after (m := 0) h.level k
    have := hm x hx
    have := hm y hy
    omega
  blocks := by
    intro k m hlevel i
    have hkeys := keys_after scores k
    have hpicks : picks scores (k + i) scores.length = picks (after scores k) i scores.length := by
      simp only [picks, Nat.add_assoc, after_add scores k]
    have hne : scores.map BehaviorScore.key ≠ [] := by simpa using h.ne_nil
    rw [hpicks, hlevel.eq_mix, hkeys, ← List.length_map (f := BehaviorScore.key), picks_mix hne]
    exact List.rotate_perm _ _
  nodup := h.nodup
  preferred := by
    by_cases hlevel : ∃ m, Level m scores
    · obtain ⟨m, hm⟩ := hlevel
      have hnil : Nathole.preferred scores = [] := by
        simp only [Nathole.preferred, List.filter_eq_nil_iff, List.any_eq_true, decide_eq_true_eq]
        rintro x hx ⟨y, hy, hlt⟩
        rw [hm x hx, hm y hy] at hlt
        exact lt_irrefl m hlt
      rw [hnil]
      exact ⟨m, hm, rfl⟩
    · have hlow : ∃ y ∈ scores, y.score = 0 := by
        by_contra hno
        exact hlevel ⟨1, fun x hx => (h.level x hx).resolve_left fun h0 => hno ⟨x, hx, h0⟩⟩
      have hhigh : scores.filter (fun x => x.score = 0 + 1) = Nathole.preferred scores := by
        refine List.filter_congr fun x hx => ?_
        have := h.level
        grind
      exact ⟨0, picks_high h.level hhigh⟩

/-- Without successes the scores stay within one of each other, preferred entries come first, and
once all are equal each block recommends every entry once. -/
theorem turns_taken (c v : NatFeature) : TakesTurns (newScores c v) :=
  (fresh_newScores c v).takesTurns

/-! ## The range of the scores -/

inductive ScoreOp where
  | recommand
  | reportSuccess (mode index : Nat)

def applyOp (scores : List BehaviorScore) : ScoreOp → List BehaviorScore
  | .recommand => (recommand scores).2
  | .reportSuccess mode index => reportSuccess scores mode index

/-- A recommendation takes one off the highest score, which the lower bound does not stop. -/
def HasRoom (scores : List BehaviorScore) : ScoreOp → Prop
  | .recommand => ∃ x ∈ scores, -10 < x.score
  | .reportSuccess _ _ => True

def InRange (scores : List BehaviorScore) : Prop := ∀ x ∈ scores, -10 ≤ x.score ∧ x.score ≤ 10

def afterSuccesses (n : Nat) (x : BehaviorScore) : List BehaviorScore → List BehaviorScore :=
  (fun s => reportSuccess s x.mode x.index)^[n]

/-- So many successes of an entry make it one of the best. -/
def RecoversIn (n : Nat) (scores : List BehaviorScore) : Prop :=
  ∀ x ∈ scores, ∃ y ∈ afterSuccesses n x scores, y.key = x.key ∧
    ∀ z ∈ afterSuccesses n x scores, z.score ≤ y.score

theorem inRange_applyOp_iff (hnil : scores ≠ []) (h : InRange scores) (op : ScoreOp) :
    InRange (applyOp scores op) ↔ HasRoom scores op := by
  unfold InRange at h ⊢
  cases op with
  | recommand =>
    obtain ⟨l₁, x, l₂, rfl, h₁, h₂⟩ := exists_first_max hnil
    simp only [applyOp, HasRoom, recommand_append h₁ h₂]
    constructor
    · intro hrange
      have := hrange { x with score := x.score - 1 } (by simp)
      exact ⟨x, by simp, by grind⟩
    · rintro ⟨y, hy, hlt⟩ z hz
      grind
  | reportSuccess mode index =>
    refine iff_of_true (List.forall_mem_iff_getElem.2 fun j hj => ?_) trivial
    have := h _ (List.getElem_mem (by simpa [applyOp, reportSuccess] using hj : j < scores.length))
    simp only [applyOp, reportSuccess, List.getElem_modify]
    grind

theorem keys_applyOp (scores : List BehaviorScore) (op : ScoreOp) :
    (applyOp scores op).map BehaviorScore.key = scores.map BehaviorScore.key := by
  cases op with
  | recommand => exact keys_recommand
  | reportSuccess mode index => exact keys_reportSuccess

theorem keys_run {ops : List ScoreOp} :
    (ops.foldl applyOp scores).map BehaviorScore.key = scores.map BehaviorScore.key :=
  foldl_induction (P := fun s => s.map BehaviorScore.key = scores.map BehaviorScore.key) rfl
    (fun u op h => (keys_applyOp u op).trans h) ops

theorem reportSuccess_append (h₁ : ∀ y ∈ l₁, y.key ≠ x.key) (l₂ : List BehaviorScore) :
    reportSuccess (l₁ ++ x :: l₂) x.mode x.index =
      l₁ ++ { x with score := min (x.score + 2) 10 } :: l₂ := by
  induction l₁ with
  | nil => simp [reportSuccess, List.findIdx_cons]
  | cons y l₁ ih =>
    have hy : (decide (y.mode = x.mode) && decide (y.index = x.index)) = false := by
      simpa [BehaviorScore.key] using h₁ y List.mem_cons_self
    have hrest := ih fun z hz => h₁ z (List.mem_cons_of_mem y hz)
    simpa [reportSuccess, List.findIdx_cons, hy] using hrest

theorem afterSuccesses_append (h₁ : ∀ y ∈ l₁, y.key ≠ x.key) (hx : x.score ≤ 10) (n : Nat) :
    afterSuccesses n x (l₁ ++ x :: l₂) =
      l₁ ++ { x with score := min (x.score + 2 * n) 10 } :: l₂ := by
  induction n with
  | zero => simp [afterSuccesses, hx]
  | succ n ih =>
    have hstep := reportSuccess_append (x := { x with score := min (x.score + 2 * n) 10 })
      h₁ l₂
    rw [afterSuccesses, iterate_succ_apply', ← afterSuccesses, ih]
    simp only [hstep]
    congr 3
    omega

theorem recoversIn_ten (hkeys : (scores.map BehaviorScore.key).Nodup) (h : InRange scores) :
    RecoversIn 10 scores := by
  intro x hx
  obtain ⟨l₁, l₂, rfl⟩ := List.append_of_mem hx
  have h₁ : ∀ y ∈ l₁, y.key ≠ x.key := by
    intro y hy heq
    rw [List.map_append, List.map_cons] at hkeys
    exact (List.nodup_append.1 hkeys).2.2 _ (List.mem_map_of_mem hy) _ List.mem_cons_self heq
  unfold InRange at h
  have hscore := h x hx
  have htop : min (x.score + 2 * (10 : Nat)) 10 = 10 := by omega
  rw [afterSuccesses_append h₁ hscore.2, htop]
  refine ⟨{ x with score := 10 }, by simp, rfl, fun z hz => ?_⟩
  grind

/-- The scores stay in their range exactly if no recommendation finds all of them at -10. In the
range an entry that works becomes one of the best in ten successes. -/
theorem scores_inRange_iff (c v : NatFeature) (ops : List ScoreOp) :
    ((∀ pre, pre <+: ops → InRange (pre.foldl applyOp (newScores c v))) ↔
      ∀ pre op, pre ++ [op] <+: ops → HasRoom (pre.foldl applyOp (newScores c v)) op) ∧
    (InRange (ops.foldl applyOp (newScores c v)) →
      RecoversIn 10 (ops.foldl applyOp (newScores c v))) := by
  have hfresh := fresh_newScores c v
  constructor
  · refine forall_prefix_foldl_iff (Q := (· ≠ [])) hfresh.ne_nil (fun x hx => ?_)
      (fun u op hu => ?_) (fun u op hu h => inRange_applyOp_iff hu h op) ops
    · have := hfresh.level x hx
      omega
    · intro hnil
      have hkeys := keys_applyOp u op
      rw [hnil, List.map_nil, eq_comm, List.map_eq_nil_iff] at hkeys
      exact hu hkeys
  · refine recoversIn_ten ?_
    rw [keys_run]
    exact hfresh.nodup

/-- Two hard NATs, one of which changes its ports regularly: after 31 failures in a row. -/
theorem scores_below_range : ∃ c v : NatFeature,
    ¬ InRange ((List.replicate 31 ScoreOp.recommand).foldl applyOp (newScores c v)) := by
  let c : NatFeature := ⟨.hardNAT, .portChanged, 1, true, false⟩
  refine ⟨c, { c with regularPortsChange := false }, ?_⟩
  unfold InRange
  decide +kernel

end FrpMeo.Nathole
