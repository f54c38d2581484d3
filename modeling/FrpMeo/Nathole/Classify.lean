import FrpMeo.Lib.Text
import Mathlib.Data.List.Perm.Basic

/-!
# Classifying a NAT

`ClassifyNATFeature` (`pkg/nathole/classify.go`) compares each observed address with the first one;
ports are compared as texts, and their difference is computed from numbers.
-/

namespace FrpMeo.Nathole

open Lib.Text (atoi)

inductive NatType where
  | easyNAT
  | hardNAT
  deriving DecidableEq

inductive Behavior where
  | noChange
  | ipChanged
  | portChanged
  | bothChanged
  deriving DecidableEq

structure NatFeature where
  natType : NatType
  behavior : Behavior
  portsDifference : Int
  regularPortsChange : Bool
  publicNetwork : Bool
  deriving DecidableEq

inductive ClassifyErr where
  | notEnough
  | splitHostPort (addr : String)
  | atoi (port : String)
  deriving DecidableEq

def splitHostPort (addr : String) : Option (String × String) :=
  (Lib.Text.splitHostPort ':' '[' ']' addr.toList).map fun p =>
    (String.ofList p.1, String.ofList p.2)

structure Loop where
  baseIP : String
  basePort : String
  portMax : Int
  portMin : Int
  ipChanged : Bool
  portChanged : Bool
  publicNetwork : Bool

def Loop.start : Loop := ⟨"", "", 0, 0, false, false, false⟩

def Loop.see (localIPs : List String) (l : Loop) (ip port : String) (portNum : Int) : Loop :=
  let publicNetwork := l.publicNetwork || localIPs.contains ip
  if l.baseIP = "" then
    { l with publicNetwork, baseIP := ip, basePort := port, portMax := portNum, portMin := portNum }
  else
    { l with
      publicNetwork
      portMax := max l.portMax portNum
      portMin := min l.portMin portNum
      ipChanged := l.ipChanged || l.baseIP ≠ ip
      portChanged := l.portChanged || l.basePort ≠ port }

def Loop.round (localIPs : List String) (l : Loop) (addr : String) : Except ClassifyErr Loop :=
  match splitHostPort addr with
  | none => .error (.splitHostPort addr)
  | some (ip, port) =>
      match atoi port with
      | none => .error (.atoi port)
      | some portNum => .ok (l.see localIPs ip port portNum)

def Loop.feature (l : Loop) : NatFeature :=
  let behavior : Behavior :=
    if l.ipChanged && l.portChanged then .bothChanged
    else if l.ipChanged then .ipChanged
    else if l.portChanged then .portChanged
    else .noChange
  let natType : NatType := if behavior = .noChange then .easyNAT else .hardNAT
  if behavior = .portChanged then
    let difference := (l.portMax - l.portMin).bmod (2 ^ 64)
    ⟨natType, behavior, difference, difference ≤ 5 && difference ≥ 1, l.publicNetwork⟩
  else ⟨natType, behavior, 0, false, l.publicNetwork⟩

def classifyNATFeature (addresses localIPs : List String) : Except ClassifyErr NatFeature :=
  if addresses.length ≤ 1 then .error .notEnough
  else (addresses.foldlM (Loop.round localIPs) .start).map Loop.feature

def classifyFeatureCount (features : List NatFeature) : Nat × Nat × Nat :=
  let hard := features.filter (·.natType ≠ .easyNAT)
  (features.countP (·.natType = .easyNAT), hard.length, hard.countP (·.regularPortsChange))

/-! ## What a classification means -/

/-- The address has the host and the canonically written port. -/
structure Writes (addr : String) (o : String × Int) : Prop where
  split : splitHostPort addr = some (o.1, toString o.2)
  host : o.1 ≠ ""
  port : atoi (toString o.2) = some o.2
  range : 0 ≤ o.2 ∧ o.2 < 2 ^ 63

structure Classifies (obs : List (String × Int)) (f : NatFeature) : Prop where
  easy : f.natType = .easyNAT ↔ ∀ a ∈ obs, ∀ b ∈ obs, a = b
  ip : f.behavior = .ipChanged ∨ f.behavior = .bothChanged ↔ ∃ a ∈ obs, ∃ b ∈ obs, a.1 ≠ b.1
  port : f.behavior = .portChanged ∨ f.behavior = .bothChanged ↔ ∃ a ∈ obs, ∃ b ∈ obs, a.2 ≠ b.2
  difference : f.behavior = .portChanged → ∃ a ∈ obs, ∃ b ∈ obs,
    (∀ o ∈ obs, b.2 ≤ o.2 ∧ o.2 ≤ a.2) ∧ f.portsDifference = a.2 - b.2 ∧
      (f.regularPortsChange = true ↔ 1 ≤ a.2 - b.2 ∧ a.2 - b.2 ≤ 5)

/-! ## The loop -/

/-- What the variables say of the addresses that were seen, the first of them `base`. -/
structure Seen (localIPs : List String) (base : String × Int) (obs : List (String × Int))
    (l : Loop) : Prop where
  first : base ∈ obs ∧ l.baseIP = base.1 ∧ l.basePort = toString base.2
  ip : l.ipChanged = true ↔ ∃ a ∈ obs, base.1 ≠ a.1
  port : l.portChanged = true ↔ ∃ a ∈ obs, base.2 ≠ a.2
  max : (∃ o ∈ obs, o.2 = l.portMax) ∧ ∀ o ∈ obs, o.2 ≤ l.portMax
  min : (∃ o ∈ obs, o.2 = l.portMin) ∧ ∀ o ∈ obs, l.portMin ≤ o.2
  publicNetwork : l.publicNetwork = true ↔ ∃ o ∈ obs, o.1 ∈ localIPs

variable {localIPs : List String} {obs obs' : List (String × Int)} {l l' : Loop}
  {base base' o : String × Int}

/-- Members of a list differ somewhere if one of them differs from a given one. -/
theorem exists_ne_iff {α β : Type} {xs : List α} {b : α} (hb : b ∈ xs) (f : α → β) :
    (∃ a ∈ xs, ∃ c ∈ xs, f a ≠ f c) ↔ ∃ a ∈ xs, f b ≠ f a := by
  constructor
  · rintro ⟨a, ha, c, hc, hne⟩
    by_cases heq : f b = f a
    · exact ⟨c, hc, heq ▸ hne⟩
    · exact ⟨a, ha, heq⟩
  · rintro ⟨a, ha, hne⟩
    exact ⟨b, hb, a, ha, hne⟩

theorem foldlM_round {addresses : List String} {obs : String → String × Int}
    (h : ∀ addr ∈ addresses, Writes addr (obs addr)) (l : Loop) :
    addresses.foldlM (Loop.round localIPs) l = .ok ((addresses.map obs).foldl
      (fun l o => l.see localIPs o.1 (toString o.2) o.2) l) := by
  induction addresses generalizing l with
  | nil => rfl
  | cons addr addresses ih =>
    have hw := h addr List.mem_cons_self
    have hround : l.round localIPs addr =
        .ok (l.see localIPs (obs addr).1 (toString (obs addr).2) (obs addr).2) := by
      simp only [Loop.round, hw.split, hw.port]
    rw [List.foldlM_cons, hround]
    exact ih (fun a ha => h a (List.mem_cons_of_mem _ ha)) _

theorem attained_concat {m n : Int} (h : ∃ a ∈ obs, a.2 = m) (hn : n = m ∨ n = o.2) :
    ∃ a ∈ obs ++ [o], a.2 = n := by
  obtain ⟨a, ha, rfl⟩ := h
  rcases hn with rfl | rfl
  · exact ⟨a, List.mem_append_left _ ha, rfl⟩
  · exact ⟨o, by simp, rfl⟩

theorem Seen.see (h : Seen localIPs base obs l) (hhost : base.1 ≠ "")
    (hport : ∀ a ∈ base :: [o], atoi (toString a.2) = some a.2) :
    Seen localIPs base (obs ++ [o]) (l.see localIPs o.1 (toString o.2) o.2) := by
  obtain ⟨hbase, hip, hpt⟩ := h.first
  -- canonical texts are equal where the numbers are
  have htext : l.basePort ≠ toString o.2 ↔ base.2 ≠ o.2 := by
    rw [hpt, not_iff_not]
    refine ⟨fun heq => ?_, fun heq => by rw [heq]⟩
    have hb := hport base List.mem_cons_self
    rw [heq, hport o (by simp)] at hb
    exact (Option.some.inj hb).symm
  simp only [Loop.see, if_neg (hip ▸ hhost)]
  refine ⟨⟨List.mem_append_left _ hbase, hip, hpt⟩, ?_, ?_, ?_, ?_, ?_⟩
  · simp [h.ip, hip, or_and_right, exists_or]
  · simpa [h.port, or_and_right, exists_or] using or_congr_right htext
  · refine ⟨attained_concat h.max.1 (max_choice _ _), ?_⟩
    have := h.max.2
    grind
  · refine ⟨attained_concat h.min.1 (min_choice _ _), ?_⟩
    have := h.min.2
    grind
  · simp [h.publicNetwork, or_and_right, exists_or]

theorem seen_foldl (hobs : ∀ o ∈ base :: obs, o.1 ≠ "" ∧ atoi (toString o.2) = some o.2) :
    Seen localIPs base (base :: obs) ((base :: obs).foldl
      (fun l o => l.see localIPs o.1 (toString o.2) o.2) .start) := by
  induction obs using List.reverseRecOn with
  | nil => constructor <;> simp [Loop.see, Loop.start]
  | append_singleton obs o ih =>
    rw [← List.cons_append, List.foldl_concat]
    have hbase := hobs base List.mem_cons_self
    refine (ih fun a ha => hobs a ?_).see hbase.1 ?_
    · exact List.mem_append_left [o] ha
    · exact List.forall_mem_cons.2
        ⟨hbase.2, List.forall_mem_singleton.2 (hobs o (by simp)).2⟩

theorem Seen.feature_eq (h : Seen localIPs base obs l) (h' : Seen localIPs base' obs' l')
    (hmem : ∀ o, o ∈ obs ↔ o ∈ obs') : l.feature = l'.feature := by
  have hip : l.ipChanged = l'.ipChanged := by
    rw [Bool.eq_iff_iff, h.ip, h'.ip, ← exists_ne_iff h.first.1, ← exists_ne_iff h'.first.1]
    simp only [hmem]
  have hport : l.portChanged = l'.portChanged := by
    rw [Bool.eq_iff_iff, h.port, h'.port, ← exists_ne_iff h.first.1, ← exists_ne_iff h'.first.1]
    simp only [hmem]
  have hmax : l.portMax = l'.portMax := by
    have := h.max
    have := h'.max
    grind
  have hmin : l.portMin = l'.portMin := by
    have := h.min
    have := h'.min
    grind
  have hpublic : l.publicNetwork = l'.publicNetwork := by
    rw [Bool.eq_iff_iff, h.publicNetwork, h'.publicNetwork]
    simp only [hmem]
  simp only [Loop.feature, hip, hport, hmax, hmin, hpublic]

theorem feature_changes (l : Loop) :
    (l.feature.natType = .easyNAT ↔ ¬ l.ipChanged = true ∧ ¬ l.portChanged = true) ∧
    (l.feature.behavior = .ipChanged ∨ l.feature.behavior = .bothChanged ↔ l.ipChanged = true) ∧
    (l.feature.behavior = .portChanged ∨ l.feature.behavior = .bothChanged ↔
      l.portChanged = true) := by
  cases hip : l.ipChanged <;> cases hport : l.portChanged <;> simp [Loop.feature, hip, hport]

theorem feature_difference (h : l.feature.behavior = .portChanged)
    (hrange : 0 ≤ l.portMin ∧ l.portMin ≤ l.portMax ∧ l.portMax < 2 ^ 63) :
    l.feature.portsDifference = l.portMax - l.portMin ∧ (l.feature.regularPortsChange = true ↔
      1 ≤ l.portMax - l.portMin ∧ l.portMax - l.portMin ≤ 5) := by
  have hdiff : (l.portMax - l.portMin).bmod (2 ^ 64) = l.portMax - l.portMin := by
    rw [Int.bmod_eq_of_le] <;> omega
  unfold Loop.feature at h ⊢
  simp only [hdiff]
  cases hip : l.ipChanged <;> cases hport : l.portChanged <;> simp [hip, hport] at h ⊢
  omega

theorem Seen.classifies (h : Seen localIPs base obs l)
    (hrange : ∀ o ∈ obs, 0 ≤ o.2 ∧ o.2 < 2 ^ 63) : Classifies obs l.feature := by
  obtain ⟨⟨a, ha, hmax⟩, hle⟩ := h.max
  obtain ⟨⟨b, hb, hmin⟩, hge⟩ := h.min
  obtain ⟨heasy, hip, hport⟩ := feature_changes l
  rw [h.ip, h.port, ← exists_ne_iff h.first.1, ← exists_ne_iff h.first.1] at heasy
  refine ⟨heasy.trans ?_, ?_, ?_, fun hchanged => ⟨a, ha, b, hb, fun o ho => ?_, ?_⟩⟩
  · simp only [not_exists, not_and, not_not, Prod.ext_iff]
    grind
  · rw [hip, h.ip, ← exists_ne_iff h.first.1]
  · rw [hport, h.port, ← exists_ne_iff h.first.1]
  · exact ⟨hmin ▸ hge o ho, hmax ▸ hle o ho⟩
  · rw [hmax, hmin]
    refine feature_difference hchanged ⟨?_, hmax ▸ hge a ha, ?_⟩
    · exact hmin ▸ (hrange b hb).1
    · exact hmax ▸ (hrange a ha).2

/-- The classification of two or more observed addresses is told by their IPs and ports, in any
order. -/
theorem classifies_observed (addresses localIPs : List String) (obs : String → String × Int)
    (h : ∀ addr ∈ addresses, Writes addr (obs addr)) (hlen : 2 ≤ addresses.length) :
    ∃ f, Classifies (addresses.map obs) f ∧ ∀ addresses', addresses'.Perm addresses →
      classifyNATFeature addresses' localIPs = .ok f := by
  have hseen : ∀ as : List String, as.Perm addresses → ∃ base l, Seen localIPs base (as.map obs) l ∧
      classifyNATFeature as localIPs = .ok l.feature := by
    intro as hperm
    have has : ∀ addr ∈ as, Writes addr (obs addr) := fun addr ha => h addr (hperm.mem_iff.1 ha)
    obtain ⟨addr, rest, rfl⟩ : ∃ addr rest, as = addr :: rest :=
      List.exists_cons_of_length_pos (by rw [hperm.length_eq]; omega)
    refine ⟨obs addr, _, seen_foldl ?_, ?_⟩
    · rw [← List.map_cons (f := obs), List.forall_mem_map]
      exact fun a ha => ⟨(has a ha).host, (has a ha).port⟩
    · rw [classifyNATFeature, if_neg (by rw [hperm.length_eq]; omega), foldlM_round has]
      rfl
  obtain ⟨base, l, hl, hfeature⟩ := hseen addresses (.refl _)
  refine ⟨l.feature, hl.classifies ?_, fun as hperm => ?_⟩
  · rw [List.forall_mem_map]
    exact fun a ha => (h a ha).range
  · obtain ⟨base', l', hl', hfeature'⟩ := hseen as hperm
    rw [hfeature', hl'.feature_eq hl fun o => (hperm.map obs).mem_iff]

def twoPorts (addr : String) : String × Int := ("1.2.3.4", if addr = "1.2.3.4:80" then 80 else 83)

theorem classifies_observed_two : classifyNATFeature ["1.2.3.4:83", "1.2.3.4:80"] [] =
      .ok ⟨.hardNAT, .portChanged, 3, true, false⟩ := by
  obtain ⟨f, -, hf⟩ := classifies_observed ["1.2.3.4:80", "1.2.3.4:83"] [] twoPorts
    (List.forall_mem_cons.2 ⟨⟨by decide +kernel, by decide, by decide +kernel, by decide⟩,
      List.forall_mem_singleton.2 ⟨by decide +kernel, by decide, by decide +kernel, by decide⟩⟩)
    (by decide)
  rw [hf _ (List.Perm.swap ..), ← hf _ (.refl _)]
  decide +kernel

end FrpMeo.Nathole
