import Mathlib.Tactic

/-!
# The client registry

`ClientRegistry` of `server/registry/registry.go`: clients keyed by `{user}.{clientID}` (the run id
stands in for an empty client id) and an index from run ids to keys. A zero `time.Time` is `none`;
clock readings are unix seconds.
-/

namespace FrpMeo.Server.Registry

open Function

structure ClientInfo where
  key : String
  user : String
  rawClientID : String
  runID : String
  hostname : String
  ip : String
  version : String
  wireProtocol : String
  firstConnectedAt : Option Nat
  lastConnectedAt : Option Nat
  disconnectedAt : Option Nat
  online : Bool
  deriving DecidableEq

/-- `ClientRegistry`, without its lock: each method runs under it from start to end. -/
structure ClientRegistry where
  clients : String → Option ClientInfo
  runIndex : String → Option String

def newClientRegistry : ClientRegistry where
  clients := fun _ => none
  runIndex := fun _ => none

structure RegisterArgs where
  user : String
  rawClientID : String
  runID : String
  hostname : String
  version : String
  remoteAddr : String
  wireProtocol : String
  deriving DecidableEq

def composeClientKey (user id : String) : String :=
  if user = "" then id else if id = "" then user else user ++ "." ++ id

def RegisterArgs.clientKey (a : RegisterArgs) : String :=
  composeClientKey a.user (if a.rawClientID = "" then a.runID else a.rawClientID)

def registeredInfo (now : Nat) (a : RegisterArgs) (old : Option ClientInfo) : ClientInfo where
  -- an entry that exists keeps its key, its user and its first connection
  key := (old.map ClientInfo.key).getD a.clientKey
  user := (old.map ClientInfo.user).getD a.user
  rawClientID := a.rawClientID
  runID := a.runID
  hostname := a.hostname
  ip := a.remoteAddr
  version := a.version
  wireProtocol := a.wireProtocol
  firstConnectedAt := some (((old.map ClientInfo.firstConnectedAt).getD none).getD now)
  lastConnectedAt := some now
  disconnectedAt := none
  online := true

def conflicts (a : RegisterArgs) (info : ClientInfo) : Bool :=
  a.rawClientID ≠ "" && info.online && info.runID ≠ "" && info.runID ≠ a.runID

/-- The run index of `Register` after it has dropped the run id of the entry it overwrites. -/
def dropRunID (runIndex : String → Option String) : Option ClientInfo → String → Option String
  | none => runIndex
  | some info =>
      if info.runID = "" then runIndex else update runIndex info.runID none

def ClientRegistry.register (cr : ClientRegistry) (now : Nat) (a : RegisterArgs) :
    ClientRegistry × String × Bool :=
  -- checked before the lock is taken
  if a.runID = "" then (cr, "", false)
  else
    let old := cr.clients a.clientKey
    if (old.map (conflicts a)).getD false then (cr, a.clientKey, true)
    else
      -- `dropRunID` may drop the run id that is registered; it is written again after that
      ({ clients := update cr.clients a.clientKey (some (registeredInfo now a old))
         runIndex := update (dropRunID cr.runIndex old) a.runID (some a.clientKey) },
        a.clientKey, false)

/-- The entry left by `MarkOfflineByRunID`: entries without a client id are removed. -/
def offlineInfo (now : Nat) (info : ClientInfo) : Option ClientInfo :=
  if info.rawClientID = "" then none
  else some { info with runID := "", online := false, disconnectedAt := some now }

def ClientRegistry.markOfflineByRunID (cr : ClientRegistry) (now : Nat) (runID : String) :
    ClientRegistry :=
  match cr.runIndex runID with
  | none => cr
  | some key =>
      { clients :=
          match cr.clients key with
          | none => cr.clients
          | some info =>
              -- the client may have come back under another run id
              if info.runID = runID then update cr.clients key (offlineInfo now info)
              else cr.clients
        runIndex := update cr.runIndex runID none }

def OnlineAs (cr : ClientRegistry) (key runID : String) : Prop :=
  ∃ info, cr.clients key = some info ∧ info.online = true ∧ info.runID = runID

instance (cr : ClientRegistry) (key runID : String) : Decidable (OnlineAs cr key runID) :=
  match h : cr.clients key with
  | none => isFalse (by rintro ⟨info, hi, -⟩; rw [h] at hi; cases hi)
  | some info =>
      decidable_of_iff (info.online = true ∧ info.runID = runID)
        ⟨fun hp => ⟨info, h, hp⟩, fun ⟨j, hj, hp⟩ => by rw [h] at hj; cases hj; exact hp⟩

/-- An entry is online exactly when it has a run id, and the empty run id is not indexed. -/
structure WellFormed (cr : ClientRegistry) : Prop where
  online_iff : ∀ k info, cr.clients k = some info → (info.online = true ↔ info.runID ≠ "")
  index_empty : cr.runIndex "" = none

theorem newClientRegistry_wellFormed : WellFormed newClientRegistry where
  online_iff := by
    intro k info h
    cases h
  index_empty := rfl

theorem not_onlineAs_newClientRegistry (k r : String) : ¬ OnlineAs newClientRegistry k r := by
  rintro ⟨info, h, -⟩
  cases h

/-! ## Register -/

section Register

variable {cr : ClientRegistry} {a : RegisterArgs} (now : Nat)

theorem register_conflict_iff (hwf : WellFormed cr) (hr : a.runID ≠ "") :
    (cr.register now a).2.2 = true ↔
      a.rawClientID ≠ "" ∧ ∃ r, r ≠ a.runID ∧ OnlineAs cr a.clientKey r := by
  cases hold : cr.clients a.clientKey with
  | none =>
    have hno : ∀ r, ¬ OnlineAs cr a.clientKey r := by
      rintro r ⟨info, h, -⟩
      rw [hold] at h
      cases h
    simp [ClientRegistry.register, hr, hold, hno]
  | some info =>
    have hon := hwf.online_iff _ info hold
    have hex : (∃ r, r ≠ a.runID ∧ OnlineAs cr a.clientKey r) ↔
        info.online = true ∧ info.runID ≠ a.runID := by
      constructor
      · rintro ⟨r, hne, info', h, ho, rfl⟩
        rw [hold] at h
        cases h
        exact ⟨ho, hne⟩
      · rintro ⟨ho, hne⟩
        exact ⟨info.runID, hne, info, hold, ho, rfl⟩
    rw [hex]
    by_cases hc : conflicts a info = true
    · simp only [ClientRegistry.register, hr, hold, hc, if_false, Option.map_some, Option.getD_some,
        if_true, true_iff]
      simp only [conflicts, Bool.and_eq_true, decide_eq_true_eq] at hc
      exact ⟨hc.1.1.1, hc.1.1.2, hc.2⟩
    · simp only [ClientRegistry.register, hr, hold, hc, if_false, Option.map_some, Option.getD_some,
        Bool.false_eq_true, false_iff]
      rintro ⟨hid, ho, hne⟩
      apply hc
      simp only [conflicts, Bool.and_eq_true, decide_eq_true_eq]
      exact ⟨⟨⟨hid, ho⟩, hon.1 ho⟩, hne⟩

theorem register_fst_of_conflict (h : (cr.register now a).2.2 = true) :
    (cr.register now a).1 = cr := by
  unfold ClientRegistry.register at h ⊢
  dsimp only at h ⊢
  split_ifs at h ⊢
  rfl

theorem register_fst_of_not_conflict (hr : a.runID ≠ "") (h : (cr.register now a).2.2 = false) :
    (cr.register now a).1 =
      { clients := update cr.clients a.clientKey
          (some (registeredInfo now a (cr.clients a.clientKey)))
        runIndex := update (dropRunID cr.runIndex (cr.clients a.clientKey)) a.runID
          (some a.clientKey) } := by
  unfold ClientRegistry.register at h ⊢
  dsimp only at h ⊢
  rw [if_neg hr] at h ⊢
  split_ifs at h ⊢
  rfl

theorem register_wellFormed (hwf : WellFormed cr) (hr : a.runID ≠ "") :
    WellFormed (cr.register now a).1 := by
  cases hc : (cr.register now a).2.2 with
  | true =>
    rw [register_fst_of_conflict now hc]
    exact hwf
  | false =>
    rw [register_fst_of_not_conflict now hr hc]
    constructor
    · intro k info hk
      dsimp only at hk
      by_cases hkey : k = a.clientKey
      · subst hkey
        rw [update_self] at hk
        cases hk
        simpa [registeredInfo] using hr
      · rw [update_of_ne hkey] at hk
        exact hwf.online_iff k info hk
    · dsimp only
      rw [update_of_ne (Ne.symm hr)]
      cases hold : cr.clients a.clientKey with
      | none => exact hwf.index_empty
      | some info =>
        by_cases hi : info.runID = ""
        · simpa [dropRunID, hi] using hwf.index_empty
        · simp only [dropRunID, hi, if_false]
          rw [update_of_ne (Ne.symm hi)]
          exact hwf.index_empty

theorem onlineAs_register (hr : a.runID ≠ "") (h : (cr.register now a).2.2 = false) (k r : String) :
    OnlineAs (cr.register now a).1 k r ↔
      (k = a.clientKey ∧ r = a.runID) ∨ (k ≠ a.clientKey ∧ OnlineAs cr k r) := by
  rw [register_fst_of_not_conflict now hr h]
  by_cases hkey : k = a.clientKey
  · subst hkey
    simp only [OnlineAs, update_self, true_and, ne_eq, not_true_eq_false, false_and,
      or_false]
    constructor
    · rintro ⟨info, hi, -, rfl⟩
      cases hi
      rfl
    · rintro rfl
      exact ⟨_, rfl, rfl, rfl⟩
  · simp [OnlineAs, hkey]

theorem runIndex_register (hr : a.runID ≠ "") (h : (cr.register now a).2.2 = false) (r : String) :
    (cr.register now a).1.runIndex r = some a.clientKey ∧ r = a.runID ∨
      r ≠ a.runID ∧ ((cr.register now a).1.runIndex r = cr.runIndex r ∨
        ∃ info, cr.clients a.clientKey = some info ∧ info.runID = r ∧ r ≠ "") := by
  rw [register_fst_of_not_conflict now hr h]
  by_cases hrr : r = a.runID
  · subst hrr
    exact .inl ⟨update_self _ _ _, rfl⟩
  · refine .inr ⟨hrr, ?_⟩
    simp only [update_of_ne hrr]
    cases hold : cr.clients a.clientKey with
    | none => exact .inl rfl
    | some info =>
      by_cases hi : info.runID = ""
      · exact .inl (by simp [dropRunID, hi])
      · by_cases hri : r = info.runID
        · exact .inr ⟨info, rfl, hri.symm, by rw [hri]; exact hi⟩
        · exact .inl (by simp [dropRunID, hi, update_of_ne hri])

theorem register_clients_of_ne {k : String} (hk : k ≠ a.clientKey) :
    (cr.register now a).1.clients k = cr.clients k := by
  unfold ClientRegistry.register
  dsimp only
  split_ifs
  · rfl
  · rfl
  · exact update_of_ne hk ..

end Register

/-! ## MarkOfflineByRunID -/

section MarkOffline

variable {cr : ClientRegistry} (now : Nat) (runID : String)

variable {now} in
theorem of_offlineInfo {info info' : ClientInfo} (h : offlineInfo now info = some info') :
    info'.online = false ∧ info'.runID = "" := by
  unfold offlineInfo at h
  split_ifs at h
  cases h
  exact ⟨rfl, rfl⟩

theorem markOfflineByRunID_clients (k : String) : (cr.markOfflineByRunID now runID).clients k =
      if cr.runIndex runID = some k ∧ (cr.clients k).map ClientInfo.runID = some runID then
        (cr.clients k).bind (offlineInfo now)
      else cr.clients k := by
  unfold ClientRegistry.markOfflineByRunID
  cases hidx : cr.runIndex runID with
  | none => simp
  | some key =>
    by_cases hk : key = k
    · subst hk
      cases hold : cr.clients key with
      | none => simp [hold]
      | some info => by_cases hrun : info.runID = runID <;> simp [hold, hrun]
    · cases hold : cr.clients key with
      | none => simp [hold, hk]
      | some info => by_cases hrun : info.runID = runID <;> simp [hold, hrun, hk, Ne.symm hk]

/-- Marking a run id offline takes down the entry its index leads to, and no other. -/
theorem onlineAs_markOfflineByRunID (k r : String) :
    OnlineAs (cr.markOfflineByRunID now runID) k r ↔
      OnlineAs cr k r ∧ ¬ (cr.runIndex runID = some k ∧ r = runID) := by
  rw [OnlineAs, markOfflineByRunID_clients]
  split_ifs with hcond
  · obtain ⟨hidx, hrun⟩ := hcond
    obtain ⟨info, hold, rfl⟩ := Option.map_eq_some_iff.1 hrun
    rw [hold, Option.bind_some]
    constructor
    · rintro ⟨info', hoff, hon, -⟩
      rw [(of_offlineInfo hoff).1] at hon
      cases hon
    · rintro ⟨⟨info', hi, -, rfl⟩, hne⟩
      rw [hold] at hi
      cases hi
      exact absurd ⟨hidx, rfl⟩ hne
  · refine ⟨fun hon => ⟨hon, ?_⟩, fun h => h.1⟩
    rintro ⟨hidx, rfl⟩
    obtain ⟨info, hi, -, hr⟩ := hon
    exact hcond ⟨hidx, Option.map_eq_some_iff.2 ⟨info, hi, hr⟩⟩

theorem runIndex_markOfflineByRunID (r : String) : (cr.markOfflineByRunID now runID).runIndex r =
      if r = runID then none else cr.runIndex r := by
  unfold ClientRegistry.markOfflineByRunID
  cases hidx : cr.runIndex runID with
  | none =>
    by_cases hr : r = runID
    · simp [hr, hidx]
    · simp [hr]
  | some key => simp [update_apply]

theorem markOfflineByRunID_wellFormed (hwf : WellFormed cr) :
    WellFormed (cr.markOfflineByRunID now runID) := by
  constructor
  · intro k info hk
    rw [markOfflineByRunID_clients] at hk
    split_ifs at hk
    · obtain ⟨old, -, hoff⟩ := Option.bind_eq_some_iff.1 hk
      simp [of_offlineInfo hoff]
    · exact hwf.online_iff k info hk
  · rw [runIndex_markOfflineByRunID]
    split_ifs
    · rfl
    · exact hwf.index_empty

theorem markOfflineByRunID_clients_eq_none {k : String} (hk : cr.clients k = none) :
    (cr.markOfflineByRunID now runID).clients k = none := by
  rw [markOfflineByRunID_clients, hk]
  split_ifs <;> rfl

end MarkOffline

end FrpMeo.Server.Registry
