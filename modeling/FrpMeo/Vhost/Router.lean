import FrpMeo.Lib.Bytes
import FrpMeo.Lib.Text
import Mathlib.Data.List.Sort

/-!
# Routes by domain, location and user

The table of http and tcpmux routes (`pkg/util/vhost/router.go`). A lookup tries the full host, then
wildcard domains, then `*`, each first for the user and then for all users, and the longest fitting
location first. The nested maps are one list here, in descending order of location.
-/

namespace FrpMeo.Vhost

open Lib Lib.Bytes Lib.Text

structure Go where
  toLower : Bytes → Bytes
  decodeBase64 : Bytes → Option Bytes

structure Place where
  domain : Bytes
  location : Bytes
  httpUser : Bytes
  deriving DecidableEq

structure Router (P : Type) where
  place : Place
  payload : P

variable {P : Type}

structure Routers (P : Type) where
  routes : List (Router P)
  distinct : (routes.map Router.place).Nodup

def Routers.empty : Routers P := ⟨[], List.nodup_nil⟩

def locationOrder (a b : Router P) : Prop := b.place.location ≤ a.place.location

instance : DecidableRel (locationOrder (P := P)) := fun a b =>
  inferInstanceAs (Decidable (b.place.location ≤ a.place.location))

def Routers.exist (rs : Routers P) (place : Place) : Bool := place ∈ rs.routes.map Router.place

variable {rs rs' : Routers P} {r : Router P} {go : Go} {domain location httpUser : Bytes}
  {payload : P}

theorem Routers.nodup_insert (h : rs.exist r.place = false) :
    ((rs.routes.orderedInsert locationOrder r).map Router.place).Nodup := by
  have hperm := (List.perm_orderedInsert locationOrder r rs.routes).map Router.place
  rw [hperm.nodup_iff, List.map_cons, List.nodup_cons]
  refine ⟨?_, rs.distinct⟩
  simpa [Routers.exist] using h

def Go.place (go : Go) (domain location httpUser : Bytes) : Place :=
  ⟨go.toLower domain, location, httpUser⟩

/-- `Add`; `none` is `ErrRouterConfigConflict`. -/
def Routers.add (go : Go) (rs : Routers P) (domain location httpUser : Bytes) (payload : P) :
    Option (Routers P) :=
  if h : rs.exist (go.place domain location httpUser) = false then
    some ⟨rs.routes.orderedInsert locationOrder ⟨go.place domain location httpUser, payload⟩,
      Routers.nodup_insert h⟩
  else none

def Routers.del (go : Go) (rs : Routers P) (domain location httpUser : Bytes) : Routers P :=
  ⟨rs.routes.filter fun r => r.place ≠ go.place domain location httpUser,
    (List.filter_sublist.map Router.place).nodup rs.distinct⟩

/-! ## Lookup -/

/-- `getLocked`: the first location that is a beginning of the path. -/
def Routers.getLocked (rs : Routers P) (path httpUser host : Bytes) : Option (Router P) :=
  rs.routes.find? fun r =>
    r.place.domain == host && r.place.httpUser == httpUser && r.place.location.isPrefixOf path

def Routers.getExactOrAllUsers (rs : Routers P) (path httpUser host : Bytes) :
    Option (Router P) :=
  match rs.getLocked path httpUser host with
  | some r => some r
  | none => rs.getLocked path [] host

def star : Bytes := ascii "*"

/-- The loop of `getByRoute`: with three labels or more, the first becomes the wildcard. -/
def wildcardWalk {α : Type} (get : Bytes → Option α) : List Bytes → Option α
  | _ :: b :: c :: rest =>
      match get (joinDots (star :: b :: c :: rest)) with
      | some r => some r
      | none => wildcardWalk get (b :: c :: rest)
  | _ => none

def Routers.getByRoute (go : Go) (rs : Routers P) (host path httpUser : Bytes) :
    Option (Router P) :=
  let host := go.toLower host
  match rs.getExactOrAllUsers path httpUser host with
  | some r => some r
  | none =>
      match wildcardWalk (rs.getExactOrAllUsers path httpUser) (split dot host) with
      | some r => some r
      | none => rs.getExactOrAllUsers path httpUser star

/-! ## Facts -/

theorem Routers.mem_add (h : rs.add go domain location httpUser payload = some rs') (r : Router P) :
    r ∈ rs'.routes ↔ r = ⟨go.place domain location httpUser, payload⟩ ∨ r ∈ rs.routes := by
  unfold Routers.add at h
  split_ifs at h
  cases h
  exact List.mem_orderedInsert locationOrder

theorem Routers.mem_del : r ∈ (rs.del go domain location httpUser).routes ↔
      r ∈ rs.routes ∧ r.place ≠ go.place domain location httpUser := by
  simp [Routers.del]

theorem Routers.eq_of_place_eq {r' : Router P} (hr : r ∈ rs.routes) (hr' : r' ∈ rs.routes)
    (h : r.place = r'.place) : r = r' :=
  List.inj_on_of_nodup_map rs.distinct hr hr' h

theorem Routers.mem_of_getExactOrAllUsers {path host : Bytes}
    (h : rs.getExactOrAllUsers path httpUser host = some r) : r ∈ rs.routes := by
  unfold Routers.getExactOrAllUsers at h
  cases hg : rs.getLocked path httpUser host with
  | some r' =>
    rw [hg] at h
    cases h
    exact List.mem_of_find?_eq_some hg
  | none =>
    rw [hg] at h
    exact List.mem_of_find?_eq_some h

theorem exists_of_wildcardWalk {α : Type} {get : Bytes → Option α} {labels : List Bytes} {r : α}
    (h : wildcardWalk get labels = some r) : ∃ host, get host = some r := by
  fun_induction wildcardWalk get labels with
  | case1 a b c rest r' hr' =>
    cases h
    exact ⟨_, hr'⟩
  | case2 a b c rest hnone ih => exact ih h
  | case3 labels hshort => cases h

theorem Routers.mem_of_getByRoute {host path : Bytes}
    (h : rs.getByRoute go host path httpUser = some r) : r ∈ rs.routes := by
  unfold Routers.getByRoute at h
  dsimp only at h
  split at h
  · next r' hr' =>
    cases h
    exact Routers.mem_of_getExactOrAllUsers hr'
  · split at h
    · next r' hr' =>
      cases h
      obtain ⟨host', hhost⟩ := exists_of_wildcardWalk hr'
      exact Routers.mem_of_getExactOrAllUsers hhost
    · exact Routers.mem_of_getExactOrAllUsers h

/-! ## Routes that come and go -/

def SameRoutes (rs rs' : Routers P) : Prop := ∀ r, r ∈ rs'.routes ↔ r ∈ rs.routes

theorem SameRoutes.refl (rs : Routers P) : SameRoutes rs rs := fun _ => Iff.rfl

/-- `rs'` differs from `rs` at these places only, and `rs` has no routes there. -/
structure Added (rs rs' : Routers P) (places : List Place) : Prop where
  fresh : ∀ r ∈ rs.routes, r.place ∉ places
  same : ∀ r : Router P, r.place ∉ places → (r ∈ rs'.routes ↔ r ∈ rs.routes)

theorem Added.refl (rs : Routers P) : Added rs rs [] where
  fresh := by simp
  same := fun _ _ => Iff.rfl

theorem Added.sameRoutes (h : Added rs rs' []) : SameRoutes rs rs' := by
  intro r
  exact h.same r List.not_mem_nil

theorem Routers.exist_of_add_eq_some (h : rs.add go domain location httpUser payload = some rs') :
    rs.exist (go.place domain location httpUser) = false := by
  unfold Routers.add at h
  split_ifs at h with hexist
  exact hexist

theorem Routers.exist_of_add_eq_none (h : rs.add go domain location httpUser payload = none) :
    rs.exist (go.place domain location httpUser) = true := by
  unfold Routers.add at h
  split_ifs at h with hexist
  simpa using hexist

theorem Routers.place_ne_of_add (h : rs.add go domain location httpUser payload = some rs')
    (hr : r ∈ rs.routes) : r.place ≠ go.place domain location httpUser := by
  intro hplace
  have hexist := Routers.exist_of_add_eq_some h
  simp only [Routers.exist, decide_eq_false_iff_not] at hexist
  exact hexist (List.mem_map.2 ⟨r, hr, hplace⟩)

theorem Added.add {rs'' : Routers P} {places : List Place} (h : Added rs rs' places)
    (hadd : rs'.add go domain location httpUser payload = some rs'') :
    Added rs rs'' (places ++ [go.place domain location httpUser]) where
  fresh := by
    intro r hr hmem
    have hr' : r ∈ rs'.routes := (h.same r (h.fresh r hr)).2 hr
    rcases List.mem_append.1 hmem with hold | hnew
    · exact h.fresh r hr hold
    · exact Routers.place_ne_of_add hadd hr' (List.mem_singleton.1 hnew)
  same := by
    intro r hr
    rw [List.mem_append, not_or, List.mem_singleton] at hr
    rw [Routers.mem_add hadd, ← h.same r hr.1]
    constructor
    · rintro (rfl | hmem)
      · exact absurd rfl hr.2
      · exact hmem
    · exact .inr

theorem Added.del {places : List Place}
    (h : Added rs rs' (go.place domain location httpUser :: places)) :
    Added rs (rs'.del go domain location httpUser) places where
  fresh := by
    intro r hr hmem
    exact h.fresh r hr (List.mem_cons_of_mem _ hmem)
  same := by
    intro r hr
    rw [Routers.mem_del]
    by_cases hplace : r.place = go.place domain location httpUser
    · constructor
      · intro hmem
        exact absurd hplace hmem.2
      · intro hmem
        exact absurd (hplace ▸ List.mem_cons_self) (h.fresh r hmem)
    · rw [h.same r (List.not_mem_cons_of_ne_of_not_mem hplace hr)]
      simp [hplace]

end FrpMeo.Vhost
