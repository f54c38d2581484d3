import Mathlib.Data.List.Basic

/-!
# Opening several things, and closing them again

A function opens the targets of a list; when one fails it closes those that are open, in the same
order, and fails itself (`openOrClose`). `Extra s xs`: `s` is the state at the start with what
opening `xs` adds. If closing takes the first of `xs` away, closing everything leads back
(`extra_undo`).
-/

namespace FrpMeo.Lib.Unwind

universe u v w

variable {S : Type u} {T : Type v} {E : Type w}

/-- Opens the targets in order up to the first that fails; the result has those that are open. -/
def openAll (op : T → S → S × Except E Unit) : List T → S → S × List T × Option E
  | [], s => (s, [], none)
  | t :: ts, s =>
      match op t s with
      | (s, .error err) => (s, [], some err)
      | (s, .ok ()) =>
          let (s, opened, err) := openAll op ts s
          (s, t :: opened, err)

def closeAll (close : T → S → S) (ts : List T) (s : S) : S := ts.foldl (fun s t => close t s) s

def openOrClose (op : T → S → S × Except E Unit) (close : T → S → S) (ts : List T) (s : S) :
    S × Except E (List T) :=
  match openAll op ts s with
  | (s, opened, some err) => (closeAll close opened s, .error err)
  | (s, opened, none) => (s, .ok opened)

/-- The state after `openOrClose` has failed, or has succeeded and its targets are closed later. -/
def undo (op : T → S → S × Except E Unit) (close : T → S → S) (ts : List T) (s : S) : S :=
  closeAll close (openAll op ts s).2.1 (openAll op ts s).1

variable {op : T → S → S × Except E Unit} {close : T → S → S}

@[simp] theorem undo_nil (s : S) : undo op close [] s = s := rfl

variable {err : E} {s s' : S} {ts : List T}

theorem eq_undo_of_error
    (h : openOrClose op close ts s = (s', .error err)) : s' = undo op close ts s := by
  unfold openOrClose at h
  unfold undo
  rcases hopened : openAll op ts s with ⟨t, opened, _ | err'⟩
  · rw [hopened] at h
    cases h
  · rw [hopened] at h
    cases h
    rfl

theorem closeAll_eq_undo_of_ok {opened : List T}
    (h : openOrClose op close ts s = (s', .ok opened)) :
    closeAll close opened s' = undo op close ts s := by
  unfold openOrClose at h
  unfold undo
  rcases hopened : openAll op ts s with ⟨t, opened', _ | err⟩
  · rw [hopened] at h
    cases h
    rfl
  · rw [hopened] at h
    cases h

variable {t : T}

theorem openAll_cons_of_error
    (h : op t s = (s', .error err)) : openAll op (t :: ts) s = (s', [], some err) := by
  simp [openAll, h]

theorem openAll_cons_of_ok (h : op t s = (s', .ok ())) : openAll op (t :: ts) s =
      ((openAll op ts s').1, t :: (openAll op ts s').2.1, (openAll op ts s').2.2) := by
  simp [openAll, h]

section Rules

variable {Extra : S → List T → Prop}

def opened (xs : List T) (t : T) : Except E Unit → List T
  | .ok () => xs ++ [t]
  | .error _ => xs

/-- What the targets that are open have added. -/
theorem extra_openAll
    (hop : ∀ t xs s, Extra s xs → Extra (op t s).1 (opened xs t (op t s).2)) (ts : List T) :
    ∀ (xs : List T) (s : S), Extra s xs →
      Extra (openAll op ts s).1 (xs ++ (openAll op ts s).2.1) := by
  -- for every `xs`, since the targets that are open move there one by one
  induction ts with
  | nil =>
    intro xs s h
    simpa [openAll] using h
  | cons t ts ih =>
    intro xs s h
    have hstep := hop t xs s h
    rcases hres : op t s with ⟨s', err | done⟩
    · rw [hres] at hstep
      rw [openAll_cons_of_error hres]
      simpa [opened] using hstep
    · rw [hres] at hstep
      rw [openAll_cons_of_ok hres]
      simpa using ih (xs ++ [t]) s' hstep

theorem extra_closeAll (hclose : ∀ t xs s, Extra s (t :: xs) → Extra (close t s) xs)
    (xs : List T) : ∀ s : S, Extra s xs → Extra (closeAll close xs s) [] := by
  induction xs with
  | nil =>
    intro s h
    exact h
  | cons t xs ih =>
    intro s h
    exact ih (close t s) (hclose t xs s h)

/-- Closing what is open undoes the opening, whether all targets were opened or not. -/
theorem extra_undo (hop : ∀ t xs s, Extra s xs → Extra (op t s).1 (opened xs t (op t s).2))
    (hclose : ∀ t xs s, Extra s (t :: xs) → Extra (close t s) xs)
    (ts : List T) (h : Extra s []) : Extra (undo op close ts s) [] := by
  apply extra_closeAll hclose
  simpa using extra_openAll hop ts [] s h

/-- The rule for the case that the first target is different from the others, and opens. -/
theorem extra_undo_cons
    (hop : ∀ t xs s, xs ≠ [] → Extra s xs → Extra (op t s).1 (opened xs t (op t s).2))
    (hclose : ∀ t xs s, Extra s (t :: xs) → Extra (close t s) xs)
    (ts : List T) (hfirst : op t s = (s', .ok ())) (h : Extra s' [t]) :
    Extra (undo op close (t :: ts) s) [] := by
  -- the list of open targets is never empty again, so the rule for one more target applies
  have hopened := @extra_openAll S T E op (fun s xs => xs ≠ [] ∧ Extra s xs) (by
    rintro t xs s ⟨hxs, hs⟩
    refine ⟨?_, hop t xs s hxs hs⟩
    rcases (op t s).2 with err | done
    · exact hxs
    · exact List.append_ne_nil_of_right_ne_nil xs (List.cons_ne_nil t [])) ts [t] s' ⟨by simp, h⟩
  unfold undo
  rw [openAll_cons_of_ok hfirst]
  exact extra_closeAll hclose _ _ hopened.2

theorem undo_cons_of_error
    (h : op t s = (s', .error err)) : undo op close (t :: ts) s = s' := by
  unfold undo
  rw [openAll_cons_of_error h]
  rfl

variable {P : S → Prop}

/-- What opening and closing one target keep, opening and closing several keeps. -/
theorem invariant_closeAll (hclose : ∀ t s, P s → P (close t s)) (ts : List T) :
    ∀ s : S, P s → P (closeAll close ts s) := by
  induction ts with
  | nil =>
    intro s h
    exact h
  | cons t ts ih =>
    intro s h
    exact ih (close t s) (hclose t s h)

theorem invariant_openOrClose (hopen : ∀ t s, P s → P (op t s).1)
    (hclose : ∀ t s, P s → P (close t s)) (ts : List T) (h : P s) :
    P (openOrClose op close ts s).1 := by
  have hopened : P (openAll op ts s).1 :=
    @extra_openAll S T E op (fun s _ => P s) (fun t _ s hs => hopen t s hs) ts [] s h
  unfold openOrClose
  split
  · next s' opened err hres =>
    rw [hres] at hopened
    exact invariant_closeAll hclose opened s' hopened
  · next s' opened hres =>
    rw [hres] at hopened
    exact hopened

end Rules

end FrpMeo.Lib.Unwind
