import Mathlib.Data.List.Induction
import Mathlib.Logic.Relation

/-!
# Labelled transition systems and guarded runs

A system is a partial step function: `step s a = none` when the action `a` is not enabled in `s`, so
a statement about every run is one about every interleaving. `Reach step ok s t`: some run leads
from `s` to `t`, each action meeting the guard `ok`; `anyAction` is the void guard. `run` evaluates
a list of actions. Calls that are always possible are folded over a list.
-/

namespace FrpMeo.Lib.Transition

universe u v

variable {S : Type u} {A : Type v}

def Next (step : S → A → Option S) (ok : S → A → Prop) (s t : S) : Prop :=
  ∃ a, ok s a ∧ step s a = some t

/-- States reached by runs all of whose actions meet the guard. -/
abbrev Reach (step : S → A → Option S) (ok : S → A → Prop) : S → S → Prop :=
  Relation.ReflTransGen (Next step ok)

def anyAction (_ : S) (_ : A) : Prop := True

instance (s : S) (a : A) : Decidable (anyAction s a) := inferInstanceAs (Decidable True)

/-- The state after a list of actions; `none` when one of them is not enabled or breaks the
guard. -/
def run (step : S → A → Option S) (ok : S → A → Prop) [∀ s a, Decidable (ok s a)] :
    S → List A → Option S
  | s, [] => some s
  | s, a :: as =>
      if ok s a then
        match step s a with
        | none => none
        | some t => run step ok t as
      else none

/-- The partial step function of a system given by enabling conditions and total updates. -/
def stepOf (enabled : S → A → Prop) [∀ s a, Decidable (enabled s a)] (next : S → A → S)
    (s : S) (a : A) : Option S :=
  if enabled s a then some (next s a) else none

theorem stepOf_eq_some_iff {enabled : S → A → Prop} [∀ s a, Decidable (enabled s a)]
    {next : S → A → S} {s t : S} {a : A} :
    stepOf enabled next s a = some t ↔ enabled s a ∧ next s a = t := by
  by_cases h : enabled s a <;> simp [stepOf, h]

section Rules

variable {step : S → A → Option S} {ok : S → A → Prop} {P : S → Prop}

/-- A property of the start that every guarded step keeps holds in every state reached. -/
theorem invariant_of_reach {s t : S} (h0 : P s)
    (hstep : ∀ u a v, P u → ok u a → step u a = some v → P v) (h : Reach step ok s t) : P t := by
  induction h with
  | refl => exact h0
  | tail _ hnext ih =>
    obtain ⟨a, hok, hst⟩ := hnext
    exact hstep _ a _ ih hok hst

/-- The rule for a system given by enabling conditions and total updates. -/
theorem invariant_of_next {enabled : S → A → Prop} [∀ s a, Decidable (enabled s a)]
    {next : S → A → S} {s t : S} (h0 : P s)
    (hnext : ∀ u a, P u → ok u a → enabled u a → P (next u a))
    (h : Reach (stepOf enabled next) ok s t) : P t := by
  refine invariant_of_reach h0 ?_ h
  intro u a v hu hok hstep
  obtain ⟨hen, rfl⟩ := stepOf_eq_some_iff.1 hstep
  exact hnext u a hu hok hen

/-- A run under a stronger guard is a run under a weaker one. -/
theorem reach_mono {ok' : S → A → Prop} (hok : ∀ s a, ok s a → ok' s a) {s t : S}
    (h : Reach step ok s t) : Reach step ok' s t := by
  induction h with
  | refl => exact Relation.ReflTransGen.refl
  | tail _ hnext ih =>
    obtain ⟨a, ha, hst⟩ := hnext
    exact ih.tail ⟨a, hok _ a ha, hst⟩

variable {as : List A}

/-- An evaluated list of actions is a guarded run. -/
theorem reach_of_run [∀ s a, Decidable (ok s a)] :
    ∀ {s t : S}, run step ok s as = some t → Reach step ok s t := by
  induction as with
  | nil =>
    intro s t h
    simp only [run, Option.some.injEq] at h
    subst h
    exact Relation.ReflTransGen.refl
  | cons a as ih =>
    intro s t h
    by_cases hok : ok s a
    · cases hst : step s a with
      | none => simp [run, hok, hst] at h
      | some u =>
        simp only [run, hok, hst, if_true] at h
        exact Relation.ReflTransGen.head ⟨a, hok, hst⟩ (ih h)
    · simp [run, hok] at h

/-- The form for a concrete list: that the run exists is all that has to be evaluated. -/
theorem reach_getD_of_isSome [∀ s a, Decidable (ok s a)] {s : S}
    (h : (run step ok s as).isSome = true) : Reach step ok s ((run step ok s as).getD s) := by
  obtain ⟨t, ht⟩ := Option.isSome_iff_exists.1 h
  rw [ht]
  exact reach_of_run ht

end Rules

section Total

variable {f : S → A → S} {s : S}

/-- What a total system keeps holds after every list of actions. -/
theorem foldl_induction {P : S → Prop} (h0 : P s) (hstep : ∀ u a, P u → P (f u a))
    (l : List A) : P (l.foldl f s) := by
  induction l generalizing s with
  | nil => exact h0
  | cons a l ih => exact ih (hstep s a h0)

/-- An exact guard: where `P` holds, an action keeps it iff the action meets the guard. Then `P`
holds all along a run iff all its actions meet the guard. -/
theorem forall_prefix_foldl_iff {P Q : S → Prop} {ok : S → A → Prop} (hQ0 : Q s) (hP0 : P s)
    (hQ : ∀ u a, Q u → Q (f u a)) (hexact : ∀ u a, Q u → P u → (P (f u a) ↔ ok u a)) (l : List A) :
    (∀ pre, pre <+: l → P (pre.foldl f s)) ↔ ∀ pre a, pre ++ [a] <+: l → ok (pre.foldl f s) a := by
  have hstep : ∀ pre a, P (pre.foldl f s) →
      (P ((pre ++ [a]).foldl f s) ↔ ok (pre.foldl f s) a) := by
    intro pre a hP
    rw [List.foldl_append]
    exact hexact _ a (foldl_induction hQ0 hQ pre) hP
  constructor
  · intro h pre a hpre
    have hP : P (pre.foldl f s) := h pre ((List.prefix_append pre [a]).trans hpre)
    exact (hstep pre a hP).1 (h _ hpre)
  · intro h pre
    induction pre using List.reverseRecOn with
    | nil => exact fun _ => hP0
    | append_singleton pre a ih =>
      intro hpre
      have hP := ih ((List.prefix_append pre [a]).trans hpre)
      exact (hstep pre a hP).2 (h pre a hpre)

end Total

end FrpMeo.Lib.Transition
