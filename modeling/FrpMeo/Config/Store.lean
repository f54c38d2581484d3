import Mathlib.Data.String.Basic
import FrpMeo.Lib.GoMap

/-!
# The configuration store

The store that a client keeps in a file (`pkg/config/source/store.go`). A call changes the map in
memory, writes both maps to a temporary file and renames it; when a step fails the change is undone.
Configurations are any two types with names, JSON is any codec, and `range` takes any order.
-/

namespace FrpMeo.Config.Store

open Lib

/-- JSON on the store's data, decoded as `rawStoreData` and then entry by entry. -/
structure Json (P V Raw Text : Type) where
  marshalIndent : List P → List V → Except String Text
  unmarshal : Text → Except String (List Raw × List Raw)
  decodeProxy : Raw → Except String P
  decodeVisitor : Raw → Except String V
  roundTrip : ∀ proxies visitors data, marshalIndent proxies visitors = .ok data →
    ∃ rawProxies rawVisitors, unmarshal data = .ok (rawProxies, rawVisitors) ∧
      rawProxies.map decodeProxy = proxies.map .ok ∧
      rawVisitors.map decodeVisitor = visitors.map .ok

structure Names (P V : Type) where
  proxy : P → String
  visitor : V → String
  quote : String → String

@[ext]
structure Source (P V : Type) where
  proxies : GoMap String P
  visitors : GoMap String V

structure Files (Text : Type) where
  file : Option Text
  tmp : Option Text

section Store

variable {P V Raw Text : Type}

def newBaseSource : Source P V := ⟨.empty, .empty⟩

/-! ## Loading -/

def loadEntries {T : Type} (kind : String) (decode : Raw → Except String T) (name : T → String) :
    Nat → GoMap String T → List Raw → Except String (GoMap String T)
  | _, m, [] => .ok m
  | i, m, raw :: rest =>
      match decode raw with
      | .error err =>
          .error ("failed to decode " ++ kind ++ " at index " ++ toString i ++ ": " ++ err)
      | .ok cfg =>
          if name cfg = "" then .error (kind ++ " name cannot be empty")
          else loadEntries kind decode name (i + 1) (m.insert (name cfg) cfg) rest

/-- `loadFromFileUnlocked` for a new store; a file that does not exist leaves the store empty. -/
def loadFromFile (json : Json P V Raw Text) (names : Names P V) :
    Option Text → Except String (Source P V)
  | none => .ok newBaseSource
  | some data =>
      match json.unmarshal data with
      | .error err => .error ("failed to parse JSON: " ++ err)
      | .ok (rawProxies, rawVisitors) =>
          match loadEntries "proxy" json.decodeProxy names.proxy 0 .empty rawProxies with
          | .error err => .error err
          | .ok proxies =>
              match loadEntries "visitor" json.decodeVisitor names.visitor 0 .empty
                rawVisitors with
              | .error err => .error err
              | .ok visitors => .ok ⟨proxies, visitors⟩

/-! ## Saving -/

/-- The step of a save that fails; a part of the data, or the temporary file, may stay. -/
inductive Fault (Text : Type) where
  | mkdirAll (err : String)
  | openFile (err : String)
  | write (err : String) (part : Text) (removed : Bool)
  | sync (err : String) (removed : Bool)
  | close (err : String) (removed : Bool)
  | rename (err : String) (removed : Bool)

structure Ranges (P V : Type) where
  proxies : Source P V → List String
  visitors : Source P V → List String
  orderProxies : ∀ s : Source P V, s.proxies.Order (proxies s)
  orderVisitors : ∀ s : Source P V, s.visitors.Order (visitors s)

def leftover (data : Text) (removed : Bool) : Option Text := if removed then none else some data

def saveToFileUnlocked (json : Json P V Raw Text) (s : Source P V) (fs : Files Text)
    (range : Ranges P V) (fault : Option (Fault Text)) : Files Text × Option String :=
  match json.marshalIndent (s.proxies.values (range.proxies s))
    (s.visitors.values (range.visitors s)) with
  | .error err => (fs, some ("failed to marshal JSON: " ++ err))
  | .ok data =>
      match fault with
      | some (.mkdirAll err) => (fs, some ("failed to create directory: " ++ err))
      | some (.openFile err) => (fs, some ("failed to create temp file: " ++ err))
      | some (.write err part removed) =>
          ({ fs with tmp := leftover part removed }, some ("failed to write temp file: " ++ err))
      | some (.sync err removed) =>
          ({ fs with tmp := leftover data removed }, some ("failed to sync temp file: " ++ err))
      | some (.close err removed) =>
          ({ fs with tmp := leftover data removed }, some ("failed to close temp file: " ++ err))
      | some (.rename err removed) =>
          ({ fs with tmp := leftover data removed }, some ("failed to rename temp file: " ++ err))
      | none => (⟨some data, none⟩, none)

structure State (P V Text : Type) where
  source : Source P V
  files : Files Text

def persistOrRollbackUnlocked (json : Json P V Raw Text) (st : State P V Text)
    (rollback : Source P V → Source P V) (range : Ranges P V) (fault : Option (Fault Text)) :
    State P V Text × Option String :=
  match saveToFileUnlocked json st.source st.files range fault with
  | (files, some err) => (⟨rollback st.source, files⟩, some ("failed to persist: " ++ err))
  | (files, none) => (⟨st.source, files⟩, none)

/-! ## Calls -/

structure Entries (P V T : Type) where
  kind : String
  name : T → String
  get : Source P V → GoMap String T
  set : Source P V → GoMap String T → Source P V

def proxyStoreEntries (names : Names P V) : Entries P V P :=
  ⟨"proxy", names.proxy, Source.proxies, fun s m => { s with proxies := m }⟩

def visitorStoreEntries (names : Names P V) : Entries P V V :=
  ⟨"visitor", names.visitor, Source.visitors, fun s m => { s with visitors := m }⟩

section Calls

variable {T : Type} (json : Json P V Raw Text) (names : Names P V) (e : Entries P V T)
  (st : State P V Text) (range : Ranges P V) (fault : Option (Fault Text))

def addStoreEntry (name : String) (value : T) : State P V Text × Option String :=
  match (e.get st.source).get name with
  | some _ => (st, some ("already exists: " ++ e.kind ++ " " ++ names.quote name))
  | none =>
      persistOrRollbackUnlocked json
        ⟨e.set st.source ((e.get st.source).insert name value), st.files⟩
        (fun s => e.set s ((e.get s).erase name)) range fault

def updateStoreEntry (name : String) (value : T) : State P V Text × Option String :=
  match (e.get st.source).get name with
  | none => (st, some ("not found: " ++ e.kind ++ " " ++ names.quote name))
  | some old =>
      persistOrRollbackUnlocked json
        ⟨e.set st.source ((e.get st.source).insert name value), st.files⟩
        (fun s => e.set s ((e.get s).insert name old)) range fault

def removeStoreEntry (name : String) : State P V Text × Option String :=
  if name = "" then (st, some (e.kind ++ " name cannot be empty"))
  else
    match (e.get st.source).get name with
    | none => (st, some ("not found: " ++ e.kind ++ " " ++ names.quote name))
    | some old =>
        persistOrRollbackUnlocked json ⟨e.set st.source ((e.get st.source).erase name), st.files⟩
          (fun s => e.set s ((e.get s).insert name old)) range fault

def validateName (value : Option T) : Except String (String × T) :=
  match value with
  | none => .error (e.kind ++ " cannot be nil")
  | some cfg => if e.name cfg = "" then .error (e.kind ++ " name cannot be empty")
      else .ok (e.name cfg, cfg)

inductive Op (T : Type) where
  | add (value : Option T)
  | update (value : Option T)
  | remove (name : String)

def call : Op T → State P V Text × Option String
  | .add value =>
      match validateName e value with
      | .error err => (st, some err)
      | .ok (name, cfg) => addStoreEntry json names e st range fault name cfg
  | .update value =>
      match validateName e value with
      | .error err => (st, some err)
      | .ok (name, cfg) => updateStoreEntry json names e st range fault name cfg
  | .remove name => removeStoreEntry json names e st range fault name

end Calls

structure Call (P V Text : Type) where
  op : Op P ⊕ Op V
  range : Ranges P V
  fault : Option (Fault Text)

def step (json : Json P V Raw Text) (names : Names P V) (st : State P V Text)
    (c : Call P V Text) : State P V Text × Option String :=
  match c.op with
  | .inl op => call json names (proxyStoreEntries names) st c.range c.fault op
  | .inr op => call json names (visitorStoreEntries names) st c.range c.fault op

def run (json : Json P V Raw Text) (names : Names P V) (st : State P V Text)
    (calls : List (Call P V Text)) : State P V Text :=
  calls.foldl (fun st c => (step json names st c).1) st

/-! ## What loads -/

/-- The maps are keyed by the names of their entries, none of which is empty. -/
structure Source.Named (names : Names P V) (s : Source P V) : Prop where
  proxies : s.proxies.KeyedBy names.proxy
  visitors : s.visitors.KeyedBy names.visitor
  proxies_ne : s.proxies.get "" = none
  visitors_ne : s.visitors.get "" = none

variable {raws : List Raw}

theorem loadEntries_eq {T : Type} (kind : String) {decode : Raw → Except String T}
    {name : T → String} {cfgs : List T} (hdecode : raws.map decode = cfgs.map .ok)
    (hname : ∀ cfg ∈ cfgs, name cfg ≠ "") (i : Nat) (m : GoMap String T) :
    loadEntries kind decode name i m raws = .ok (GoMap.insertAll name m cfgs) := by
  induction raws generalizing i m cfgs with
  | nil =>
    cases cfgs with
    | nil => rfl
    | cons cfg cfgs => simp at hdecode
  | cons raw raws ih =>
    cases cfgs with
    | nil => simp at hdecode
    | cons cfg cfgs =>
      rw [List.map_cons, List.map_cons, List.cons.injEq] at hdecode
      have hne : name cfg ≠ "" := hname cfg (by simp)
      simp only [loadEntries, hdecode.1, hne, if_false]
      exact ih hdecode.2 (fun c hc => hname c (List.mem_cons_of_mem _ hc)) (i + 1) _

theorem loadEntries_keyed {T : Type} {kind : String} {decode : Raw → Except String T}
    {name : T → String} {i : Nat} {m m' : GoMap String T}
    (h : loadEntries kind decode name i m raws = .ok m') (hm : m.KeyedBy name)
    (hne : m.get "" = none) : m'.KeyedBy name ∧ m'.get "" = none := by
  induction raws generalizing i m with
  | nil =>
    obtain rfl := Except.ok.inj h
    exact ⟨hm, hne⟩
  | cons raw raws ih =>
    rw [loadEntries] at h
    cases hraw : decode raw with
    | error err => simp [hraw] at h
    | ok cfg =>
      by_cases hempty : name cfg = ""
      · simp [hraw, hempty] at h
      · simp only [hraw, hempty, if_false] at h
        refine ih h (hm.insert rfl) ?_
        rw [GoMap.get_insert, if_neg fun heq => hempty heq.symm]
        exact hne

theorem named_of_loadFromFile {json : Json P V Raw Text} {names : Names P V} {file : Option Text}
    {s : Source P V} (h : loadFromFile json names file = .ok s) : s.Named names := by
  cases file with
  | none =>
    obtain rfl := Except.ok.inj h
    exact ⟨GoMap.keyedBy_empty _, GoMap.keyedBy_empty _, rfl, rfl⟩
  | some data =>
    rw [loadFromFile] at h
    rcases hdata : json.unmarshal data with err | ⟨rawProxies, rawVisitors⟩
    · simp [hdata] at h
    · cases hproxies : loadEntries "proxy" json.decodeProxy names.proxy 0 .empty rawProxies with
      | error err => simp [hdata, hproxies] at h
      | ok proxies =>
        cases hvisitors : loadEntries "visitor" json.decodeVisitor names.visitor 0 .empty
            rawVisitors with
        | error err => simp [hdata, hproxies, hvisitors] at h
        | ok visitors =>
          simp only [hdata, hproxies, hvisitors, Except.ok.injEq] at h
          subst h
          obtain ⟨hp, hpne⟩ := loadEntries_keyed hproxies (GoMap.keyedBy_empty _) rfl
          obtain ⟨hv, hvne⟩ := loadEntries_keyed hvisitors (GoMap.keyedBy_empty _) rfl
          exact ⟨hp, hv, hpne, hvne⟩

theorem name_ne_of_mem_values {T : Type} {m : GoMap String T} {name : T → String}
    (hkey : m.KeyedBy name) (hne : m.get "" = none) {l : List String} (h : m.Order l) :
    ∀ cfg ∈ m.values l, name cfg ≠ "" := by
  intro cfg hcfg hempty
  rw [GoMap.mem_values_iff_of_keyedBy h hkey, hempty, hne] at hcfg
  cases hcfg

/-! ## Saving and undoing -/

section Save

variable {json : Json P V Raw Text} {names : Names P V} {s : Source P V} {fs fs' : Files Text}

/-- What is saved loads as what was in memory, whichever way `range` went. -/
theorem load_of_saved (hs : s.Named names) {range : Ranges P V}
    {fault : Option (Fault Text)} (h : saveToFileUnlocked json s fs range fault = (fs', none)) :
    loadFromFile json names fs'.file = .ok s := by
  unfold saveToFileUnlocked at h
  cases hdata : json.marshalIndent (s.proxies.values (range.proxies s))
      (s.visitors.values (range.visitors s)) with
  | error err => simp [hdata] at h
  | ok data =>
    cases fault with
    | some fault => cases fault <;> simp [hdata] at h
    | none =>
      simp only [hdata, Prod.mk.injEq, and_true] at h
      subst h
      obtain ⟨rawProxies, rawVisitors, hraw, hproxies, hvisitors⟩ := json.roundTrip _ _ _ hdata
      have hp := loadEntries_eq "proxy" hproxies
        (name_ne_of_mem_values hs.proxies hs.proxies_ne (range.orderProxies s)) 0 .empty
      have hv := loadEntries_eq "visitor" hvisitors
        (name_ne_of_mem_values hs.visitors hs.visitors_ne (range.orderVisitors s)) 0 .empty
      simp only [loadFromFile, hraw, hp, hv]
      -- collecting what a loop over a map saw gives the map
      exact congrArg Except.ok (Source.ext (GoMap.ofList_values hs.proxies (range.orderProxies s))
        (GoMap.ofList_values hs.visitors (range.orderVisitors s)))

theorem file_of_save_error {range : Ranges P V} {fault : Option (Fault Text)}
    {err : String} (h : saveToFileUnlocked json s fs range fault = (fs', some err)) :
    fs'.file = fs.file := by
  unfold saveToFileUnlocked at h
  cases hdata : json.marshalIndent (s.proxies.values (range.proxies s))
      (s.visitors.values (range.visitors s)) with
  | error err =>
    simp only [hdata, Prod.mk.injEq] at h
    rw [← h.1]
  | ok data =>
    cases fault with
    | none => simp [hdata] at h
    | some fault =>
      cases fault with
      | mkdirAll | openFile | write | sync | close | rename =>
        simp only [hdata, Prod.mk.injEq] at h
        rw [← h.1]

def State.InStep (json : Json P V Raw Text) (names : Names P V) (st : State P V Text) : Prop :=
  loadFromFile json names st.files.file = .ok st.source

def Promised (json : Json P V Raw Text) (names : Names P V) (st : State P V Text)
    (result : State P V Text × Option String) : Prop :=
  result.1.InStep json names ∧
    (result.2 ≠ none → result.1.source = st.source ∧ result.1.files.file = st.files.file)

theorem promised_refused {st : State P V Text} (h : st.InStep json names) {err : String} :
    Promised json names st (st, some err) :=
  ⟨h, fun _ => ⟨rfl, rfl⟩⟩

theorem promised_persist {st : State P V Text} (h : st.InStep json names) (hs : s.Named names)
    {rollback : Source P V → Source P V} (hback : rollback s = st.source) (range : Ranges P V)
    (fault : Option (Fault Text)) : Promised json names st
      (persistOrRollbackUnlocked json ⟨s, st.files⟩ rollback range fault) := by
  unfold persistOrRollbackUnlocked
  rcases hsave : saveToFileUnlocked json s st.files range fault with ⟨fs, err⟩
  cases err with
  | none => exact ⟨load_of_saved hs hsave, fun hne => absurd rfl hne⟩
  | some err =>
    have hfile := file_of_save_error hsave
    refine ⟨?_, fun _ => ⟨hback, hfile⟩⟩
    change loadFromFile json names fs.file = .ok (rollback s)
    rw [hfile, hback]
    exact h

end Save

/-! ## The calls keep the promise -/

/-- The map is read and replaced without touching the other, and stays keyed by names. -/
structure Entries.Lawful {T : Type} (names : Names P V) (e : Entries P V T) : Prop where
  get_set : ∀ s m, e.get (e.set s m) = m
  set_set : ∀ s m m', e.set (e.set s m) m' = e.set s m'
  set_get : ∀ s, e.set s (e.get s) = s
  named_get : ∀ s : Source P V, s.Named names → (e.get s).KeyedBy e.name ∧ (e.get s).get "" = none
  named_set : ∀ (s : Source P V) (m : GoMap String T), s.Named names → m.KeyedBy e.name →
    m.get "" = none → (e.set s m).Named names

theorem lawful_proxyStoreEntries (names : Names P V) : (proxyStoreEntries names).Lawful names where
  get_set := fun _ _ => rfl
  set_set := fun _ _ _ => rfl
  set_get := fun _ => rfl
  named_get := fun _ h => ⟨h.proxies, h.proxies_ne⟩
  named_set := fun _ _ h hm hne => ⟨hm, h.visitors, hne, h.visitors_ne⟩

theorem lawful_visitorStoreEntries (names : Names P V) :
    (visitorStoreEntries names).Lawful names where
  get_set := fun _ _ => rfl
  set_set := fun _ _ _ => rfl
  set_get := fun _ => rfl
  named_get := fun _ h => ⟨h.visitors, h.visitors_ne⟩
  named_set := fun _ _ h hm hne => ⟨h.proxies, hm, h.proxies_ne, hne⟩

section Calls

variable {T : Type} {json : Json P V Raw Text} {names : Names P V} {e : Entries P V T}
  {st : State P V Text} (range : Ranges P V) (fault : Option (Fault Text)) {name : String} {cfg : T}

theorem validateName_ok {value : Option T} (h : validateName e value = .ok (name, cfg)) :
    e.name cfg = name ∧ name ≠ "" := by
  cases value with
  | none => cases h
  | some c =>
    rw [validateName] at h
    by_cases hempty : e.name c = ""
    · simp [hempty] at h
    · simp only [hempty, if_false, Except.ok.injEq, Prod.mk.injEq] at h
      obtain ⟨hname, rfl⟩ := h
      exact ⟨hname, hname ▸ hempty⟩

variable (he : e.Lawful names)

include he

theorem named_insert {s : Source P V} (hs : s.Named names)
    (hname : e.name cfg = name) (hne : name ≠ "") :
    (e.set s ((e.get s).insert name cfg)).Named names := by
  obtain ⟨hkeyed, hempty⟩ := he.named_get s hs
  refine he.named_set s _ hs (hkeyed.insert hname) ?_
  rw [GoMap.get_insert, if_neg hne.symm]
  exact hempty

theorem named_erase {s : Source P V} (hs : s.Named names) (name : String) :
    (e.set s ((e.get s).erase name)).Named names := by
  obtain ⟨hkeyed, hempty⟩ := he.named_get s hs
  refine he.named_set s _ hs (hkeyed.erase name) ?_
  rw [GoMap.get_erase]
  split_ifs
  · rfl
  · exact hempty

theorem promised_add (h : st.InStep json names) (hname : e.name cfg = name) (hne : name ≠ "") :
    Promised json names st (addStoreEntry json names e st range fault name cfg) := by
  unfold addStoreEntry
  cases hold : (e.get st.source).get name with
  | some old => exact promised_refused h
  | none =>
    refine promised_persist h (named_insert he (named_of_loadFromFile h) hname hne) ?_ range fault
    -- the name was free, so to delete it is to undo the insertion
    rw [he.get_set, he.set_set, GoMap.erase_insert hold, he.set_get]

theorem promised_update (h : st.InStep json names) (hname : e.name cfg = name) (hne : name ≠ "") :
    Promised json names st (updateStoreEntry json names e st range fault name cfg) := by
  unfold updateStoreEntry
  cases hold : (e.get st.source).get name with
  | none => exact promised_refused h
  | some old =>
    refine promised_persist h (named_insert he (named_of_loadFromFile h) hname hne) ?_ range fault
    rw [he.get_set, he.set_set, GoMap.insert_insert hold, he.set_get]

theorem promised_remove (h : st.InStep json names) (name : String) :
    Promised json names st (removeStoreEntry json names e st range fault name) := by
  unfold removeStoreEntry
  by_cases hempty : name = ""
  · rw [if_pos hempty]
    exact promised_refused h
  · rw [if_neg hempty]
    cases hold : (e.get st.source).get name with
    | none => exact promised_refused h
    | some old =>
      refine promised_persist h (named_erase he (named_of_loadFromFile h) name) ?_ range fault
      rw [he.get_set, he.set_set, GoMap.insert_erase hold, he.set_get]

theorem promised_call (h : st.InStep json names) (op : Op T) :
    Promised json names st (call json names e st range fault op) := by
  cases op with
  | add value =>
    rw [call]
    rcases hvalue : validateName e value with err | ⟨name, cfg⟩
    · exact promised_refused h
    · obtain ⟨hname, hne⟩ := validateName_ok hvalue
      exact promised_add range fault he h hname hne
  | update value =>
    rw [call]
    rcases hvalue : validateName e value with err | ⟨name, cfg⟩
    · exact promised_refused h
    · obtain ⟨hname, hne⟩ := validateName_ok hvalue
      exact promised_update range fault he h hname hne
  | remove name => exact promised_remove range fault he h name

end Calls

theorem promised_step {json : Json P V Raw Text} {names : Names P V} {st : State P V Text}
    (h : st.InStep json names) (c : Call P V Text) :
    Promised json names st (step json names st c) := by
  rw [step]
  cases hop : c.op with
  | inl op => exact promised_call c.range c.fault (lawful_proxyStoreEntries names) h op
  | inr op => exact promised_call c.range c.fault (lawful_visitorStoreEntries names) h op

/-- Whatever calls and failing saves there were, the file loads as what is in memory, and a call
that returns an error changes neither. -/
theorem store_in_step (json : Json P V Raw Text) (names : Names P V) (st : State P V Text)
    (h : loadFromFile json names st.files.file = .ok st.source) (calls : List (Call P V Text)) :
    loadFromFile json names (run json names st calls).files.file =
        .ok (run json names st calls).source ∧
      ∀ c, (step json names (run json names st calls) c).2 ≠ none →
        (step json names (run json names st calls) c).1.source = (run json names st calls).source ∧
        (step json names (run json names st calls) c).1.files.file =
          (run json names st calls).files.file := by
  -- the file loads as the memory after each call, by induction on the calls
  have hrun : (run json names st calls).InStep json names := by
    induction calls generalizing st with
    | nil => exact h
    | cons c calls ih => exact ih _ (promised_step h c).1
  exact ⟨hrun, fun c => (promised_step hrun c).2⟩

end Store

def listJson : Json (String × Nat) (String × Nat) (String × Nat)
    (List (String × Nat) × List (String × Nat)) where
  marshalIndent := fun proxies visitors => .ok (proxies, visitors)
  unmarshal := .ok
  decodeProxy := .ok
  decodeVisitor := .ok
  roundTrip := by
    intro proxies visitors data h
    obtain rfl := Except.ok.inj h
    exact ⟨proxies, visitors, rfl, rfl, rfl⟩

def pairNames : Names (String × Nat) (String × Nat) :=
  ⟨Prod.fst, Prod.fst, fun s => "\"" ++ s ++ "\""⟩

theorem order_sort {α : Type} (m : GoMap String α) : m.Order m.keys.sort :=
  ⟨m.keys.sort_nodup _, fun _ => Finset.mem_sort _⟩

def sortedRanges {P V : Type} : Ranges P V where
  proxies := fun s => s.proxies.keys.sort
  visitors := fun s => s.visitors.keys.sort
  orderProxies := fun s => order_sort s.proxies
  orderVisitors := fun s => order_sort s.visitors

/-- An update whose rename fails is undone, so a store with one proxy keeps it. -/
theorem store_in_step_rename :
    let st := run listJson pairNames ⟨newBaseSource, ⟨none, none⟩⟩
      [⟨.inl (.add (some ("web", 80))), sortedRanges, none⟩]
    let c : Call (String × Nat) (String × Nat) _ :=
      ⟨.inl (.update (some ("web", 81))), sortedRanges, some (.rename "busy" false)⟩
    st.source.proxies.get "web" = some ("web", 80) ∧
      (step listJson pairNames st c).2 =
        some "failed to persist: failed to rename temp file: busy" ∧
      (step listJson pairNames st c).1.source = st.source ∧
      loadFromFile listJson pairNames st.files.file = .ok st.source := by
  intro st c
  have hclaim := store_in_step listJson pairNames ⟨newBaseSource, ⟨none, none⟩⟩ rfl
    [⟨.inl (.add (some ("web", 80))), sortedRanges, none⟩]
  have herr : (step listJson pairNames st c).2 =
      some "failed to persist: failed to rename temp file: busy" := by rfl
  exact ⟨by rfl, herr, (hclaim.2 c (by rw [herr]; simp)).1, hclaim.1⟩

end FrpMeo.Config.Store
