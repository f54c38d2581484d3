import Mathlib.Data.List.Induction

/-!
# Histories

A history lists what has happened, the latest event last. `Between x z y l`: a `z` stands between
any `x` and a later `y`. `pending x z l` tells whether an `x` waits for a `z`; `between_concat` asks
that no `y` happens while one does.
-/

namespace FrpMeo.Lib.History

universe u

variable {α : Type u}

/-- Between an event of kind `x` and a later one of kind `y` there is one of kind `z`. -/
def Between (x z y : α → Bool) (l : List α) : Prop :=
  ∀ pre mid post e e', l = pre ++ e :: (mid ++ e' :: post) → x e = true → y e' = true →
    ∃ m ∈ mid, z m = true

/-- After a stretch of events an `x` is waiting for a `z`; `waiting` says whether one was at its
start. -/
def pendingFrom (x z : α → Bool) (waiting : Bool) (l : List α) : Bool :=
  l.foldl (fun waiting e => if x e then true else if z e then false else waiting) waiting

/-- An event of kind `x` has happened and none of kind `z` since. -/
def pending (x z : α → Bool) (l : List α) : Bool := pendingFrom x z false l

theorem pending_nil (x z : α → Bool) : pending x z [] = false := rfl

theorem pending_concat (x z : α → Bool) (l : List α) (a : α) :
    pending x z (l ++ [a]) = if x a then true else if z a then false else pending x z l := by
  rw [pending, pendingFrom, List.foldl_append]
  rfl

/-- A list that ends in `a` splits at an event before `a`, or at `a` itself. -/
theorem concat_eq_append_cons {l pre mid : List α} {a e : α} (h : l ++ [a] = pre ++ e :: mid) :
    (l = pre ∧ a = e ∧ mid = []) ∨ ∃ mid', mid = mid' ++ [a] ∧ l = pre ++ e :: mid' := by
  rcases List.eq_nil_or_concat mid with hnil | ⟨mid', b, hmid⟩
  · rw [hnil] at h
    have hparts := List.append_inj' h rfl
    exact .inl ⟨hparts.1, List.head_eq_of_cons_eq hparts.2, hnil⟩
  · rw [List.concat_eq_append] at hmid
    have hassoc : l ++ [a] = (pre ++ e :: mid') ++ [b] := by rw [h, hmid]; simp
    have hparts := List.append_inj' hassoc rfl
    have hab : a = b := List.head_eq_of_cons_eq hparts.2
    exact .inr ⟨mid', by rw [hmid, hab], hparts.1⟩

/-- Nothing is pending exactly when every `x` has a later `z`. -/
theorem pending_eq_false_iff (x z : α → Bool) (l : List α) : pending x z l = false ↔
      ∀ pre e mid, l = pre ++ e :: mid → x e = true → ∃ m ∈ mid, z m = true := by
  induction l using List.reverseRecOn with
  | nil => simp [pending_nil]
  | append_singleton l a ih =>
    rw [pending_concat]
    by_cases hx : x a = true
    · -- the last event has nothing after it
      simp only [hx, if_true, Bool.true_eq_false, false_iff, not_forall]
      exact ⟨l, a, [], rfl, hx, by simp⟩
    by_cases hz : z a = true
    · simp only [hx, hz, if_true, Bool.false_eq_true, if_false, true_iff]
      intro pre e mid hl hxe
      rcases concat_eq_append_cons hl with ⟨-, hae, -⟩ | ⟨mid', hmid, -⟩
      · exact absurd (hae ▸ hxe) hx
      · exact ⟨a, by simp [hmid], hz⟩
    · simp only [hx, hz, Bool.false_eq_true, if_false]
      rw [ih]
      constructor
      · intro h pre e mid hl hxe
        rcases concat_eq_append_cons hl with ⟨-, hae, -⟩ | ⟨mid', hmid, hl'⟩
        · exact absurd (hae ▸ hxe) hx
        · obtain ⟨m, hm, hzm⟩ := h pre e mid' hl' hxe
          exact ⟨m, by simp [hmid, hm], hzm⟩
      · intro h pre e mid hl hxe
        obtain ⟨m, hm, hzm⟩ := h pre e (mid ++ [a]) (by simp [hl]) hxe
        rcases List.mem_append.1 hm with hm | hm
        · exact ⟨m, hm, hzm⟩
        · exact absurd (List.mem_singleton.1 hm ▸ hzm) hz

theorem between_nil (x z y : α → Bool) : Between x z y [] := by
  intro pre mid post e e' h
  simp at h

variable {x z y : α → Bool}

/-- A history grows by one event: a `y` may not happen while an `x` is pending. -/
theorem between_concat {l : List α} {a : α} (h : Between x z y l)
    (ha : y a = true → pending x z l = false) : Between x z y (l ++ [a]) := by
  intro pre mid post e e' hl hx hy
  have hsplit : l ++ [a] = (pre ++ e :: mid) ++ e' :: post := by rw [hl]; simp
  rcases concat_eq_append_cons hsplit with ⟨hpre, hae, -⟩ | ⟨post', -, hl'⟩
  · have hnone := (pending_eq_false_iff x z l).1 (ha (hae ▸ hy))
    exact hnone pre e mid hpre hx
  · exact h pre mid post' e e' (by rw [hl']; simp) hx hy

/-- No `y` happens in a stretch while an `x` is pending; `waiting` says whether one is at its
start. -/
def safe (x z y : α → Bool) : Bool → List α → Bool
  | _, [] => true
  | waiting, a :: l =>
      (!y a || !waiting) && safe x z y (if x a then true else if z a then false else waiting) l

theorem Between.append {l l' : List α} (h : Between x z y l)
    (hsafe : safe x z y (pending x z l) l' = true) : Between x z y (l ++ l') := by
  induction l' generalizing l with
  | nil => simpa using h
  | cons a l' ih =>
    rw [safe, Bool.and_eq_true, ← pending_concat] at hsafe
    have hone : Between x z y (l ++ [a]) := by
      apply between_concat h
      intro hy
      simpa [hy] using hsafe.1
    have hall := ih hone hsafe.2
    rwa [List.append_assoc, List.singleton_append] at hall

theorem pending_append (l l' : List α) :
    pending x z (l ++ l') = pendingFrom x z (pending x z l) l' :=
  List.foldl_append

/-- What stands between an `x` and a later `y` holds of wider stretches too. -/
theorem Between.mem_of_mem {l pre mid post : List α} {e e' : α}
    (h : Between x z y l) (hl : l = pre ++ mid ++ e' :: post) (he : e ∈ mid) (hx : x e = true)
    (hy : y e' = true) : ∃ m ∈ mid, z m = true := by
  obtain ⟨s, t, hmid⟩ := List.append_of_mem he
  obtain ⟨m, hm, hz⟩ := h (pre ++ s) t post e e' (by rw [hl, hmid]; simp) hx hy
  exact ⟨m, by simp [hmid, hm], hz⟩

end FrpMeo.Lib.History
