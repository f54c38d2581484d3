import FrpMeo.Vhost.Router

/-!
# The maps behind the router

`Routers` of `pkg/util/vhost/router.go` as the source has it: a map from lower-cased domains to maps
from HTTP users to slices, sorted in descending order of location. The one-list table of
`Vhost.Router` answers as this one does (`getByRoute_eq_flat`).
-/

namespace FrpMeo.Vhost

open Lib Lib.Bytes Lib.Text Function

variable {P : Type}

/-! ## The table -/

abbrev RouterByHTTPUser (P : Type) := Bytes → Option (List (Router P))

structure Table (P : Type) where
  indexByDomain : Bytes → Option (RouterByHTTPUser P)

namespace Table

def newRouters : Table P := ⟨fun _ => none⟩

def exist (t : Table P) (host path httpUser : Bytes) : Option (Router P) :=
  match t.indexByDomain host with
  | none => none
  | some routersByHTTPUser =>
      match routersByHTTPUser httpUser with
      | none => none
      | some routers => routers.find? fun route => path == route.place.location

/-- `slices.SortFunc` by descending location; no two routes of a slice compare equal. -/
def sortFunc (vrs : List (Router P)) : List (Router P) := vrs.insertionSort locationOrder

/-- `Add`; `none` is `ErrRouterConfigConflict`. -/
def add (go : Go) (t : Table P) (domain location httpUser : Bytes) (payload : P) :
    Option (Table P) :=
  let domain := go.toLower domain
  if (t.exist domain location httpUser).isSome then none
  else
    let routersByHTTPUser := (t.indexByDomain domain).getD fun _ => none
    let vrs := (routersByHTTPUser httpUser).getD []
    let vr : Router P := ⟨⟨domain, location, httpUser⟩, payload⟩
    some ⟨update t.indexByDomain domain
      (some (update routersByHTTPUser httpUser (some (sortFunc (vrs ++ [vr])))))⟩

def del (go : Go) (t : Table P) (domain location httpUser : Bytes) : Table P :=
  let domain := go.toLower domain
  match t.indexByDomain domain with
  | none => t
  | some routersByHTTPUser =>
      match routersByHTTPUser httpUser with
      | none => t
      | some vrs =>
          let newVrs := vrs.filter fun vr => vr.place.location ≠ location
          ⟨update t.indexByDomain domain
            (some (update routersByHTTPUser httpUser (some newVrs)))⟩

/-- `getLocked`; a failed lookup returns the last route it looked at, and `false`. -/
def getLocked (t : Table P) (path httpUser host : Bytes) : Option (Router P) :=
  match t.indexByDomain host with
  | none => none
  | some routersByHTTPUser =>
      match routersByHTTPUser httpUser with
      | none => none
      | some vrs => vrs.find? fun vr => vr.place.location.isPrefixOf path

def get (go : Go) (t : Table P) (host path httpUser : Bytes) : Option (Router P) :=
  t.getLocked path httpUser (go.toLower host)

def getExactOrAllUsers (t : Table P) (path httpUser host : Bytes) : Option (Router P) :=
  match t.getLocked path httpUser host with
  | some vr => some vr
  | none => t.getLocked path [] host

def getByRoute (go : Go) (t : Table P) (host path httpUser : Bytes) : Option (Router P) :=
  let host := go.toLower host
  match t.getExactOrAllUsers path httpUser host with
  | some vr => some vr
  | none =>
      match wildcardWalk (t.getExactOrAllUsers path httpUser) (split dot host) with
      | some vr => some vr
      | none => t.getExactOrAllUsers path httpUser star

/-! ## Slices -/

/-- The slice under a domain and a user, empty where a map has no entry. -/
def slice (t : Table P) (domain httpUser : Bytes) : List (Router P) :=
  (((t.indexByDomain domain).getD fun _ => none) httpUser).getD []

variable {go : Go} {t t' : Table P} {domain location httpUser path host : Bytes} {payload : P}
  {domain' httpUser' : Bytes} {r : Router P} {rs : Routers P}

@[simp] theorem slice_newRouters : (newRouters : Table P).slice domain httpUser = [] := rfl

theorem exist_eq : t.exist host path httpUser =
      (t.slice host httpUser).find? fun route => path == route.place.location := by
  unfold exist slice
  cases hd : t.indexByDomain host with
  | none => simp
  | some routersByHTTPUser => cases hu : routersByHTTPUser httpUser <;> simp [hu]

theorem getLocked_eq : t.getLocked path httpUser host =
      (t.slice host httpUser).find? fun vr => vr.place.location.isPrefixOf path := by
  unfold getLocked slice
  cases hd : t.indexByDomain host with
  | none => simp
  | some routersByHTTPUser => cases hu : routersByHTTPUser httpUser <;> simp [hu]

theorem slice_update (t : Table P) (domain httpUser : Bytes) (vrs : List (Router P))
    (domain' httpUser' : Bytes) : (⟨update t.indexByDomain domain (some (update
        ((t.indexByDomain domain).getD fun _ => none) httpUser (some vrs)))⟩ : Table P).slice
        domain' httpUser' =
      if domain' = domain ∧ httpUser' = httpUser then vrs else t.slice domain' httpUser' := by
  unfold slice
  by_cases hd : domain' = domain
  · subst hd
    by_cases hu : httpUser' = httpUser
    · subst hu
      simp
    · simp [hu]
  · simp [hd]

theorem slice_add (h : t.add go domain location httpUser payload = some t') :
    t'.slice domain' httpUser' =
      if domain' = go.toLower domain ∧ httpUser' = httpUser then
        sortFunc (t.slice (go.toLower domain) httpUser ++
          [⟨go.place domain location httpUser, payload⟩])
      else t.slice domain' httpUser' := by
  unfold add at h
  dsimp only at h
  split_ifs at h
  cases h
  exact slice_update t _ _ _ _ _

theorem slice_del : (t.del go domain location httpUser).slice domain' httpUser' =
      if domain' = go.toLower domain ∧ httpUser' = httpUser then
        (t.slice domain' httpUser').filter fun vr => vr.place.location ≠ location
      else t.slice domain' httpUser' := by
  cases hd : t.indexByDomain (go.toLower domain) with
  | none =>
    have hdel : t.del go domain location httpUser = t := by simp [del, hd]
    rw [hdel]
    split_ifs with h
    · simp [slice, h.1, hd]
    · rfl
  | some routersByHTTPUser =>
    cases hu : routersByHTTPUser httpUser with
    | none =>
      have hdel : t.del go domain location httpUser = t := by simp [del, hd, hu]
      rw [hdel]
      split_ifs with h
      · simp [slice, h.1, h.2, hd, hu]
      · rfl
    | some vrs =>
      have hslice : t.slice (go.toLower domain) httpUser = vrs := by simp [slice, hd, hu]
      have hupdate := slice_update t (go.toLower domain) httpUser
        (vrs.filter fun vr => vr.place.location ≠ location) domain' httpUser'
      rw [hd, Option.getD_some] at hupdate
      simp only [del, hd, hu, hupdate]
      split_ifs with h
      · rw [h.1, h.2, hslice]
      · rfl

/-! ## The invariant -/

structure Sound (t : Table P) : Prop where
  filed : ∀ domain httpUser, ∀ r ∈ t.slice domain httpUser,
    r.place.domain = domain ∧ r.place.httpUser = httpUser
  sorted : ∀ domain httpUser, (t.slice domain httpUser).Pairwise locationOrder
  distinct : ∀ domain httpUser, ((t.slice domain httpUser).map (·.place.location)).Nodup

instance : Std.Total (locationOrder (P := P)) :=
  ⟨fun a b => List.le_total b.place.location a.place.location⟩

instance : IsTrans (Router P) locationOrder := ⟨fun _ _ _ hab hbc => List.le_trans hbc hab⟩

theorem perm_sortFunc (vrs : List (Router P)) : (sortFunc vrs).Perm vrs :=
  List.perm_insertionSort locationOrder vrs

theorem pairwise_sortFunc (vrs : List (Router P)) : (sortFunc vrs).Pairwise locationOrder :=
  List.pairwise_insertionSort locationOrder vrs

theorem eq_of_perm {vrs vrs' : List (Router P)} (hperm : vrs.Perm vrs')
    (hvrs : vrs.Pairwise locationOrder) (hvrs' : vrs'.Pairwise locationOrder)
    (hdistinct : (vrs'.map (·.place.location)).Nodup) : vrs = vrs' := by
  apply hperm.eq_of_pairwise _ hvrs hvrs'
  intro a b ha hb hab hba
  apply List.inj_on_of_nodup_map hdistinct (hperm.mem_iff.1 ha) hb
  exact List.le_antisymm hba hab

theorem notMem_of_add (h : t.add go domain location httpUser payload = some t')
    (hr : r ∈ t.slice (go.toLower domain) httpUser) : r.place.location ≠ location := by
  unfold add at h
  dsimp only at h
  split_ifs at h with hexist
  rw [exist_eq, Bool.not_eq_true, Option.isSome_eq_false_iff, Option.isNone_iff_eq_none,
    List.find?_eq_none] at hexist
  intro heq
  exact hexist r hr (by simp [heq])

theorem Sound.newRouters : (newRouters : Table P).Sound where
  filed := by simp
  sorted := by simp
  distinct := by simp

theorem Sound.add (hs : t.Sound) (h : t.add go domain location httpUser payload = some t') :
    t'.Sound where
  filed := by
    intro domain' httpUser' r hr
    rw [slice_add h] at hr
    split_ifs at hr with hkeys
    · obtain ⟨rfl, rfl⟩ := hkeys
      rw [(perm_sortFunc _).mem_iff, List.mem_append, List.mem_singleton] at hr
      rcases hr with hold | rfl
      · exact hs.filed _ _ r hold
      · exact ⟨rfl, rfl⟩
    · exact hs.filed _ _ r hr
  sorted := by
    intro domain' httpUser'
    rw [slice_add h]
    split_ifs
    · exact pairwise_sortFunc _
    · exact hs.sorted _ _
  distinct := by
    intro domain' httpUser'
    rw [slice_add h]
    split_ifs
    · rw [((perm_sortFunc _).map _).nodup_iff, List.map_append, List.map_singleton,
        List.nodup_append]
      refine ⟨hs.distinct _ _, List.nodup_singleton _, ?_⟩
      intro location' hlocation' new hnew heq
      obtain ⟨r, hr, rfl⟩ := List.mem_map.1 hlocation'
      rw [List.mem_singleton] at hnew
      exact notMem_of_add h hr (heq.trans hnew)
    · exact hs.distinct _ _

theorem Sound.del (hs : t.Sound) : (t.del go domain location httpUser).Sound := by
  -- a deletion leaves a part of every slice
  have hsub : ∀ domain' httpUser',
      ((t.del go domain location httpUser).slice domain' httpUser').Sublist
        (t.slice domain' httpUser') := by
    intro domain' httpUser'
    rw [slice_del]
    split_ifs
    · exact List.filter_sublist
    · exact List.Sublist.refl _
  exact
    { filed := fun domain' httpUser' r hr => hs.filed _ _ r ((hsub domain' httpUser').subset hr)
      sorted := fun domain' httpUser' => (hs.sorted _ _).sublist (hsub domain' httpUser')
      distinct := fun domain' httpUser' =>
        ((hsub domain' httpUser').map _).nodup (hs.distinct _ _) }

/-! ## Sequences of calls -/

inductive Call (P : Type)
  | add (domain location httpUser : Bytes) (payload : P)
  | del (domain location httpUser : Bytes)

def apply (go : Go) (t : Table P) : Call P → Table P
  | .add domain location httpUser payload => (t.add go domain location httpUser payload).getD t
  | .del domain location httpUser => t.del go domain location httpUser

def after (go : Go) (calls : List (Call P)) : Table P := calls.foldl (apply go) newRouters

theorem Sound.apply (hs : t.Sound) (go : Go) (call : Call P) : (t.apply go call).Sound := by
  cases call with
  | add domain location httpUser payload =>
    cases h : t.add go domain location httpUser payload with
    | none =>
      simp only [Table.apply, h, Option.getD_none]
      exact hs
    | some t' =>
      simp only [Table.apply, h, Option.getD_some]
      exact hs.add h
  | del domain location httpUser => exact hs.del

theorem sound_after (go : Go) (calls : List (Call P)) : (after go calls).Sound := by
  unfold after
  induction calls using List.reverseRecOn with
  | nil => exact Sound.newRouters
  | append_singleton calls call ih =>
    rw [List.foldl_append]
    exact ih.apply go call

/-! ## The routes of a table -/

def Has (t : Table P) (r : Router P) : Prop := r ∈ t.slice r.place.domain r.place.httpUser

structure Fits (t : Table P) (domain httpUser path : Bytes) (r : Router P) : Prop where
  has : t.Has r
  domain_eq : r.place.domain = domain
  httpUser_eq : r.place.httpUser = httpUser
  begins : r.place.location <+: path

def Longest (t : Table P) (domain httpUser path : Bytes) (r : Router P) : Prop :=
  t.Fits domain httpUser path r ∧ ∀ r', t.Fits domain httpUser path r' →
    r'.place.location.length ≤ r.place.location.length

section

variable (hs : t.Sound)

include hs

theorem Sound.mem_slice_iff : r ∈ t.slice domain httpUser ↔
      t.Has r ∧ r.place.domain = domain ∧ r.place.httpUser = httpUser := by
  constructor
  · intro hr
    obtain ⟨rfl, rfl⟩ := hs.filed _ _ r hr
    exact ⟨hr, rfl, rfl⟩
  · rintro ⟨hr, rfl, rfl⟩
    exact hr

theorem Sound.fits_iff : t.Fits domain httpUser path r ↔
      r ∈ t.slice domain httpUser ∧ r.place.location.isPrefixOf path = true := by
  rw [hs.mem_slice_iff, List.isPrefixOf_iff_prefix]
  constructor
  · intro h
    exact ⟨⟨h.has, h.domain_eq, h.httpUser_eq⟩, h.begins⟩
  · rintro ⟨⟨hhas, hdomain, huser⟩, hbegins⟩
    exact ⟨hhas, hdomain, huser, hbegins⟩

theorem Sound.eq_of_place_eq {r' : Router P} (hr : t.Has r) (hr' : t.Has r')
    (h : r.place = r'.place) : r = r' := by
  unfold Has at hr hr'
  rw [← h] at hr'
  exact List.inj_on_of_nodup_map (hs.distinct _ _) hr hr' (congrArg Place.location h)

theorem Sound.longest_unique {r' : Router P} (hr : t.Longest domain httpUser path r)
    (hr' : t.Longest domain httpUser path r') : r = r' := by
  have hlength := Nat.le_antisymm (hr'.2 r hr.1) (hr.2 r' hr'.1)
  have hlocation : r.place.location = r'.place.location := by
    have hbegins := List.prefix_of_prefix_length_le hr.1.begins hr'.1.begins hlength.le
    exact hbegins.eq_of_length hlength
  have hplace : r.place = r'.place := by
    have hdomain := hr.1.domain_eq.trans hr'.1.domain_eq.symm
    have huser := hr.1.httpUser_eq.trans hr'.1.httpUser_eq.symm
    cases hp : r.place
    cases hp' : r'.place
    simp_all
  exact hs.eq_of_place_eq hr.1.has hr'.1.has hplace

theorem Sound.getLocked_eq_none_iff :
    t.getLocked path httpUser host = none ↔ ∀ r, ¬ t.Fits host httpUser path r := by
  simp only [getLocked_eq, List.find?_eq_none, hs.fits_iff, not_and]

theorem Sound.longest_of_getLocked (h : t.getLocked path httpUser host = some r) :
    t.Longest host httpUser path r := by
  rw [getLocked_eq] at h
  refine ⟨hs.fits_iff.2 ⟨List.mem_of_find?_eq_some h, by simpa using List.find?_some h⟩, ?_⟩
  intro r' hr'
  exact length_le_of_find?_isPrefixOf (fun r : Router P => r.place.location)
    (hs.sorted _ _) h (hs.fits_iff.1 hr').1 hr'.begins

theorem Sound.getLocked_eq_some_iff :
    t.getLocked path httpUser host = some r ↔ t.Longest host httpUser path r := by
  constructor
  · exact hs.longest_of_getLocked
  · intro h
    cases hget : t.getLocked path httpUser host with
    | none => exact absurd h.1 (hs.getLocked_eq_none_iff.1 hget r)
    | some r' => rw [hs.longest_unique (hs.longest_of_getLocked hget) h]

end

/-! ## The contract of the table -/

theorem Sound.add_eq_none_iff (hs : t.Sound) (go : Go) :
    t.add go domain location httpUser payload = none ↔
      ∃ r, t.Has r ∧ r.place = go.place domain location httpUser := by
  have hadd : t.add go domain location httpUser payload = none ↔
      (t.exist (go.toLower domain) location httpUser).isSome = true := by
    unfold Table.add
    dsimp only
    split_ifs with h <;> simp [h]
  rw [hadd, exist_eq, List.find?_isSome]
  constructor
  · rintro ⟨r, hr, hlocation⟩
    obtain ⟨hdomain, huser⟩ := hs.filed _ _ r hr
    rw [beq_iff_eq] at hlocation
    refine ⟨r, (hs.mem_slice_iff.1 hr).1, ?_⟩
    rw [Go.place, hlocation, ← hdomain, ← huser]
  · rintro ⟨r, hr, hplace⟩
    refine ⟨r, hs.mem_slice_iff.2 ⟨hr, ?_, ?_⟩, ?_⟩
    all_goals simp [hplace, Go.place]

theorem has_add_iff (h : t.add go domain location httpUser payload = some t') :
    t'.Has r ↔ t.Has r ∨ r = ⟨go.place domain location httpUser, payload⟩ := by
  unfold Has
  rw [slice_add h]
  split_ifs with hkeys
  · rw [(perm_sortFunc _).mem_iff, List.mem_append, List.mem_singleton, ← hkeys.1, ← hkeys.2]
  · constructor
    · exact .inl
    · rintro (hr | rfl)
      · exact hr
      · exact absurd ⟨rfl, rfl⟩ hkeys

theorem has_del_iff : (t.del go domain location httpUser).Has r ↔
      t.Has r ∧ r.place ≠ go.place domain location httpUser := by
  unfold Has
  rw [slice_del]
  have hplace : r.place = go.place domain location httpUser ↔
      (r.place.domain = go.toLower domain ∧ r.place.httpUser = httpUser) ∧
        r.place.location = location := by
    cases hp : r.place
    simp only [Go.place, Place.mk.injEq]
    tauto
  split_ifs with hkeys <;> simp [hplace, hkeys]

theorem Sound.slice_del_add (hs : t.Sound)
    (h : t.add go domain location httpUser payload = some t') :
    (t'.del go domain location httpUser).slice domain' httpUser' = t.slice domain' httpUser' := by
  rw [slice_del, slice_add h]
  split_ifs with hkeys
  · obtain ⟨rfl, rfl⟩ := hkeys
    let vr : Router P := ⟨go.place domain location httpUser', payload⟩
    have hkept : ((t.slice (go.toLower domain) httpUser' ++ [vr]).filter
        fun vr => vr.place.location ≠ location) = t.slice (go.toLower domain) httpUser' := by
      rw [List.filter_append, List.filter_eq_self.2, List.filter_eq_nil_iff.2, List.append_nil]
      · simp [vr, Go.place]
      · intro r hr
        simpa using notMem_of_add h hr
    apply eq_of_perm _ ((pairwise_sortFunc _).filter _) (hs.sorted _ _) (hs.distinct _ _)
    exact ((perm_sortFunc _).filter _).trans (List.Perm.of_eq hkept)
  · rfl

structure Contract (go : Go) (t : Table P) : Prop where
  distinct : ∀ domain httpUser, ((t.slice domain httpUser).map (·.place.location)).Nodup
  conflict_iff : ∀ domain location httpUser payload,
    t.add go domain location httpUser payload = none ↔
      ∃ r, t.Has r ∧ r.place = go.place domain location httpUser
  add_inserts : ∀ domain location httpUser payload t',
    t.add go domain location httpUser payload = some t' →
      ∀ r, t'.Has r ↔ t.Has r ∨ r = ⟨go.place domain location httpUser, payload⟩
  del_removes : ∀ domain location httpUser r,
    (t.del go domain location httpUser).Has r ↔
      t.Has r ∧ r.place ≠ go.place domain location httpUser
  del_undoes_add : ∀ domain location httpUser payload t',
    t.add go domain location httpUser payload = some t' →
      ∀ domain' httpUser', (t'.del go domain location httpUser).slice domain' httpUser' =
        t.slice domain' httpUser'
  get_isSome_iff : ∀ host path httpUser,
    (t.get go host path httpUser).isSome ↔ ∃ r, t.Fits (go.toLower host) httpUser path r
  get_longest : ∀ host path httpUser r,
    t.get go host path httpUser = some r ↔ t.Longest (go.toLower host) httpUser path r

theorem routeTable_contract (go : Go) (calls : List (Call P)) : (after go calls).Contract go where
  distinct := (sound_after go calls).distinct
  conflict_iff := by
    intro domain location httpUser payload
    exact (sound_after go calls).add_eq_none_iff go
  add_inserts := by
    intro domain location httpUser payload t' h
    exact fun _ => has_add_iff h
  del_removes := fun _ _ _ _ => has_del_iff
  del_undoes_add := by
    intro domain location httpUser payload t' h
    exact fun _ _ => (sound_after go calls).slice_del_add h
  get_isSome_iff := by
    intro host path httpUser
    rw [get, Option.isSome_iff_ne_none, Ne, (sound_after go calls).getLocked_eq_none_iff,
      not_forall_not]
  get_longest := by
    intro host path httpUser r
    exact (sound_after go calls).getLocked_eq_some_iff

/-! ## Precedence -/

/-- The wildcard domains of a host: its first one, two, … labels replaced, two remaining. -/
def wildcards (labels : List Bytes) : List Bytes :=
  (List.range (labels.length - 2)).map fun k => joinDots (star :: labels.drop (k + 1))

/-- The domains that can serve a lower-cased host, in the order of precedence. -/
def candidates (host : Bytes) : List Bytes := host :: wildcards (split dot host) ++ [star]

/-- A candidate serves the path for the user or for all users. -/
def Serves (t : Table P) (path httpUser candidate : Bytes) : Prop :=
  ∃ r, t.Fits candidate httpUser path r ∨ t.Fits candidate [] path r

/-- The longest location of the first candidate that serves the path, the user's first. -/
def Selects (t : Table P) (host path httpUser : Bytes) (r : Router P) : Prop :=
  ∃ before candidate rest, candidates host = before ++ candidate :: rest ∧
    (∀ c ∈ before, ¬ t.Serves path httpUser c) ∧
      (t.Longest candidate httpUser path r ∨
        (∀ r', ¬ t.Fits candidate httpUser path r') ∧ t.Longest candidate [] path r)

theorem wildcards_cons (a b c : Bytes) (rest : List Bytes) : wildcards (a :: b :: c :: rest) =
      joinDots (star :: b :: c :: rest) :: wildcards (b :: c :: rest) := by
  have hlen : (a :: b :: c :: rest).length - 2 = (b :: c :: rest).length - 2 + 1 := by
    simp only [List.length_cons]
    omega
  rw [wildcards, hlen, List.range_succ_eq_map, List.map_cons, List.map_map]
  rfl

theorem wildcardWalk_eq {α : Type} (get : Bytes → Option α) (labels : List Bytes) :
    wildcardWalk get labels = (wildcards labels).findSome? get := by
  fun_induction wildcardWalk get labels with
  | case1 a b c rest r hr => rw [wildcards_cons, List.findSome?_cons, hr]
  | case2 a b c rest hnone ih => rw [wildcards_cons, List.findSome?_cons, hnone, ih]
  | case3 labels hshort =>
    have hlen : labels.length - 2 = 0 := by
      rcases labels with _ | ⟨a, _ | ⟨b, _ | ⟨c, rest⟩⟩⟩
      · rfl
      · rfl
      · rfl
      · exact absurd rfl (hshort a b c rest)
    simp [wildcards, hlen]

theorem findSome?_candidates {α : Type} (get : Bytes → Option α) :
    (candidates host).findSome? get =
      (get host).or ((wildcardWalk get (split dot host)).or (get star)) := by
  rw [wildcardWalk_eq, candidates, List.cons_append, List.findSome?_cons, List.findSome?_append]
  cases hhost : get host with
  | some r => simp
  | none =>
    cases hwild : (wildcards (split dot host)).findSome? get with
    | some r => simp
    | none => cases hstar : get star <;> simp [hstar]

theorem getByRoute_eq : t.getByRoute go host path httpUser =
      (candidates (go.toLower host)).findSome? (t.getExactOrAllUsers path httpUser) := by
  rw [findSome?_candidates]
  unfold getByRoute
  dsimp only
  cases t.getExactOrAllUsers path httpUser (go.toLower host) with
  | some r => rfl
  | none =>
    cases wildcardWalk (t.getExactOrAllUsers path httpUser) (split dot (go.toLower host)) with
    | some | none => rfl

theorem Sound.getExactOrAllUsers_eq_some_iff (hs : t.Sound) :
    t.getExactOrAllUsers path httpUser host = some r ↔ t.Longest host httpUser path r ∨
        (∀ r', ¬ t.Fits host httpUser path r') ∧ t.Longest host [] path r := by
  unfold getExactOrAllUsers
  cases hget : t.getLocked path httpUser host with
  | some r' =>
    have hr' := hs.longest_of_getLocked hget
    constructor
    · intro h
      cases h
      exact .inl hr'
    · rintro (hr | ⟨hnone, -⟩)
      · rw [hs.longest_unique hr hr']
      · exact absurd hr'.1 (hnone r')
  | none =>
    have hnone := hs.getLocked_eq_none_iff.1 hget
    rw [hs.getLocked_eq_some_iff]
    constructor
    · intro h
      exact .inr ⟨hnone, h⟩
    · rintro (hr | ⟨-, hr⟩)
      · exact absurd hr.1 (hnone r)
      · exact hr

theorem Sound.getExactOrAllUsers_eq_none_iff (hs : t.Sound) :
    t.getExactOrAllUsers path httpUser host = none ↔ ¬ t.Serves path httpUser host := by
  unfold getExactOrAllUsers Serves
  simp only [not_exists, not_or]
  cases hget : t.getLocked path httpUser host with
  | some r =>
    have hr := (hs.longest_of_getLocked hget).1
    simp only [reduceCtorEq, false_iff]
    intro h
    exact (h r).1 hr
  | none =>
    have hnone := hs.getLocked_eq_none_iff.1 hget
    simp only [hs.getLocked_eq_none_iff]
    constructor
    · intro h r
      exact ⟨hnone r, h r⟩
    · intro h r
      exact (h r).2

/-- `strings.ToLower` does not tell the cases of ASCII letters apart. -/
def FoldsAscii (go : Go) : Prop :=
  ∀ a b : Bytes, a.map lowerAscii = b.map lowerAscii → go.toLower a = go.toLower b

theorem getByRoute_congr {host' : Bytes} (h : go.toLower host' = go.toLower host) :
    t.getByRoute go host' path httpUser = t.getByRoute go host path httpUser := by
  rw [getByRoute_eq, getByRoute_eq, h]

theorem getByRoute_selects (go : Go) (hfold : FoldsAscii go) (calls : List (Call P))
    (host path httpUser : Bytes) :
    (∀ r, (after go calls).getByRoute go host path httpUser = some r ↔
        (after go calls).Selects (go.toLower host) path httpUser r) ∧
      ((after go calls).getByRoute go host path httpUser = none ↔
        ∀ c ∈ candidates (go.toLower host), ¬ (after go calls).Serves path httpUser c) ∧
      (∀ host', host'.map lowerAscii = host.map lowerAscii →
        (after go calls).getByRoute go host' path httpUser =
          (after go calls).getByRoute go host path httpUser) ∧
      ∀ host', go.toLower host' = go.toLower host →
        (after go calls).getByRoute go host' path httpUser =
          (after go calls).getByRoute go host path httpUser := by
  have hs := sound_after go calls
  refine ⟨?_, ?_, ?_, ?_⟩
  · intro r
    simp only [getByRoute_eq, List.findSome?_eq_some_iff, hs.getExactOrAllUsers_eq_some_iff,
      hs.getExactOrAllUsers_eq_none_iff, Selects]
    constructor
    · rintro ⟨before, candidate, rest, hsplit, hlongest, hbefore⟩
      exact ⟨before, candidate, rest, hsplit, hbefore, hlongest⟩
    · rintro ⟨before, candidate, rest, hsplit, hbefore, hlongest⟩
      exact ⟨before, candidate, rest, hsplit, hlongest, hbefore⟩
  · simp only [getByRoute_eq, List.findSome?_eq_none_iff, hs.getExactOrAllUsers_eq_none_iff]
  · intro host' h
    exact getByRoute_congr (hfold host' host h)
  · intro host' h
    exact getByRoute_congr h

def asciiGo : Go := ⟨List.map lowerAscii, fun _ => none⟩

def exampleCalls : List (Call Nat) :=
  [.add (ascii "*.example.com") (ascii "/") [] 1,
    .add (ascii "test.Example.com") (ascii "/api") [] 2]

theorem getByRoute_selects_capitals :
    (after asciiGo exampleCalls).getByRoute asciiGo (ascii "TEST.Example.com") (ascii "/x") [] =
        (after asciiGo exampleCalls).getByRoute asciiGo (ascii "test.example.com") (ascii "/x") [] ∧
      ((after asciiGo exampleCalls).getByRoute asciiGo (ascii "test.example.com") (ascii "/x")
        []).map Router.payload = some 1 :=
  ⟨(getByRoute_selects asciiGo (fun _ _ h => h) exampleCalls (ascii "test.example.com")
      (ascii "/x") []).2.2.1 _ (by decide), by decide +kernel⟩

/-! ## The table as one list -/

/-- The list holds the routes of each domain and user in the order of their slice. -/
def Flattens (t : Table P) (rs : Routers P) : Prop :=
  ∀ domain httpUser, t.slice domain httpUser =
    rs.routes.filter fun r => r.place.domain == domain && r.place.httpUser == httpUser

def flatApply (go : Go) (rs : Routers P) : Call P → Routers P
  | .add domain location httpUser payload => (rs.add go domain location httpUser payload).getD rs
  | .del domain location httpUser => rs.del go domain location httpUser

def flatAfter (go : Go) (calls : List (Call P)) : Routers P :=
  calls.foldl (flatApply go) Routers.empty

section

variable (hf : t.Flattens rs)

include hf

theorem Flattens.exist_iff (place : Place) :
    (∃ r, t.Has r ∧ r.place = place) ↔ rs.exist place = true := by
  unfold Flattens at hf
  simp [Routers.exist, Has, hf]

omit hf in
theorem Flattens.newRouters : (newRouters : Table P).Flattens Routers.empty := by
  intro domain httpUser
  rfl

theorem Flattens.add_eq_none_iff (hs : t.Sound) : t.add go domain location httpUser payload = none ↔
      rs.add go domain location httpUser payload = none := by
  rw [hs.add_eq_none_iff go, hf.exist_iff]
  unfold Routers.add
  split_ifs with h <;> simp [h]

theorem Flattens.add {rs' : Routers P} (hs : t.Sound) (hsorted : rs.routes.Pairwise locationOrder)
    (h : t.add go domain location httpUser payload = some t')
    (hflat : rs.add go domain location httpUser payload = some rs') :
    t'.Flattens rs' ∧ rs'.routes.Pairwise locationOrder := by
  let vr : Router P := ⟨go.place domain location httpUser, payload⟩
  have hroutes : rs'.routes = rs.routes.orderedInsert locationOrder vr := by
    unfold Routers.add at hflat
    split_ifs at hflat
    cases hflat
    rfl
  have hsorted' : rs'.routes.Pairwise locationOrder := by
    rw [hroutes]
    exact hsorted.orderedInsert vr
  refine ⟨?_, hsorted'⟩
  intro domain' httpUser'
  apply Eq.symm
  apply eq_of_perm _ (hsorted'.filter _) ((hs.add h).sorted _ _) ((hs.add h).distinct _ _)
  -- on both sides the new route joins the slice of its keys, and no other
  have hperm := (List.perm_orderedInsert locationOrder vr rs.routes).filter
    fun r => r.place.domain == domain' && r.place.httpUser == httpUser'
  rw [← hroutes, List.filter_cons, ← hf domain' httpUser'] at hperm
  apply hperm.trans
  rw [slice_add h]
  by_cases hkeys : domain' = go.toLower domain ∧ httpUser' = httpUser
  · obtain ⟨rfl, rfl⟩ := hkeys
    simp only [vr, Go.place, beq_self_eq_true, Bool.and_self, if_true, and_self]
    exact (List.perm_append_singleton _ _).symm.trans (perm_sortFunc _).symm
  · rw [if_neg hkeys, if_neg]
    grind [Go.place]

theorem Flattens.del :
    (t.del go domain location httpUser).Flattens (rs.del go domain location httpUser) := by
  intro domain' httpUser'
  rw [slice_del, hf domain' httpUser', Routers.del]
  have hplace : ∀ r : Router P, r.place = go.place domain location httpUser ↔
      r.place.domain = go.toLower domain ∧ r.place.location = location ∧
        r.place.httpUser = httpUser := by
    intro r
    cases r.place
    simp [Go.place]
  split_ifs with hkeys
  · rw [List.filter_filter, List.filter_filter]
    apply List.filter_congr
    grind
  · rw [List.filter_filter]
    apply List.filter_congr
    grind

theorem Flattens.apply (hs : t.Sound) (hsorted : rs.routes.Pairwise locationOrder) (call : Call P) :
    (apply go t call).Flattens (flatApply go rs call) ∧
      (flatApply go rs call).routes.Pairwise locationOrder := by
  cases call with
  | del domain location httpUser => exact ⟨hf.del, hsorted.filter _⟩
  | add domain location httpUser payload =>
    simp only [Table.apply, flatApply]
    cases h : t.add go domain location httpUser payload with
    | none =>
      rw [(hf.add_eq_none_iff hs).1 h]
      exact ⟨hf, hsorted⟩
    | some t' =>
      have hne : rs.add go domain location httpUser payload ≠ none := by
        rw [ne_eq, ← hf.add_eq_none_iff hs, h]
        exact Option.some_ne_none t'
      obtain ⟨rs', hflat⟩ := Option.ne_none_iff_exists'.1 hne
      rw [hflat]
      exact hf.add hs hsorted h hflat

omit hf in
theorem flattens_after (go : Go) (calls : List (Call P)) :
    (after go calls).Flattens (flatAfter go calls) ∧
      (flatAfter go calls).routes.Pairwise locationOrder := by
  induction calls using List.reverseRecOn with
  | nil => exact ⟨Flattens.newRouters, List.Pairwise.nil⟩
  | append_singleton calls call ih =>
    have hs := sound_after go calls
    unfold after flatAfter at *
    rw [List.foldl_append, List.foldl_append]
    exact ih.1.apply hs ih.2 call

theorem Flattens.getExactOrAllUsers_eq :
    t.getExactOrAllUsers path httpUser host = rs.getExactOrAllUsers path httpUser host := by
  have hget : ∀ user, t.getLocked path user host = rs.getLocked path user host := by
    intro user
    rw [getLocked_eq, hf, List.find?_filter, Routers.getLocked]
    congr 1
    funext r
    rw [Bool.eq_iff_iff]
    simp
  unfold getExactOrAllUsers Routers.getExactOrAllUsers
  rw [hget, hget] <;> rfl

end

/-- The list answers every lookup as the maps do. -/
theorem getByRoute_eq_flat (go : Go) (calls : List (Call P)) (host path httpUser : Bytes) :
    (after go calls).getByRoute go host path httpUser =
      (flatAfter go calls).getByRoute go host path httpUser := by
  have hget : (after go calls).getExactOrAllUsers path httpUser =
      (flatAfter go calls).getExactOrAllUsers path httpUser := by
    funext host
    exact (flattens_after go calls).1.getExactOrAllUsers_eq
  unfold getByRoute Routers.getByRoute
  rw [hget] <;> rfl

end Table

end FrpMeo.Vhost
