import FrpMeo.Server.Registry

/-!
# Names of users' proxies and clients

frps keeps the proxies and the clients of all users in two maps, under names made of the user and
the chosen name with a dot between them: `AddUserPrefix` (`pkg/naming/names.go`) and
`composeClientKey` (`server/registry/registry.go`). Either may have a dot itself.
-/

namespace FrpMeo.Server.Names

open Server.Registry Function

/-! ## Names -/

def addUserPrefix (user name : String) : String :=
  if user = "" then name else user ++ "." ++ name

structure Scoped where
  user : String
  name : String
  deriving DecidableEq, Repr

namespace Scoped

def wireName (p : Scoped) : String := addUserPrefix p.user p.name

def clientKey (p : Scoped) : String := composeClientKey p.user p.name

/-- The user of `q` continues that of `p`, and the name of `p` begins with what it continues by. -/
def Within (q p : Scoped) : Prop :=
  q.user ≠ "" ∧
    ((p.user = "" ∧ p.name = q.user ++ "." ++ q.name) ∨
      (p.user ≠ "" ∧ ∃ x, q.user = p.user ++ "." ++ x ∧ p.name = x ++ "." ++ q.name))

variable {p q : Scoped}

theorem Within.wireName_eq (h : q.Within p) : p.wireName = q.wireName := by
  obtain ⟨hq, ⟨hp, hname⟩ | ⟨hp, x, huser, hname⟩⟩ := h
  · simp [wireName, addUserPrefix, hq, hp, hname]
  · simp [wireName, addUserPrefix, hp, huser, hname, String.append_assoc]

theorem dotted_eq {u n v m : String} (h : u ++ "." ++ n = v ++ "." ++ m) :
    (u = v ∧ n = m) ∨ (∃ x, v = u ++ "." ++ x ∧ n = x ++ "." ++ m) ∨
      (∃ x, u = v ++ "." ++ x ∧ m = x ++ "." ++ n) := by
  -- one first part is the beginning of the other; the rest of it is empty or starts with the dot
  have key : ∀ {a b c d : String} {t : List Char}, b.toList = a.toList ++ t →
      '.' :: c.toList = t ++ '.' :: d.toList →
      (a = b ∧ c = d) ∨ (∃ x, b = a ++ "." ++ x ∧ c = x ++ "." ++ d) := by
    intro a b c d t hb hc
    cases t with
    | nil =>
      left
      exact ⟨String.toList_inj.1 (by simpa using hb.symm), String.toList_inj.1 (by simpa using hc)⟩
    | cons k t =>
      right
      simp only [List.cons_append, List.cons.injEq] at hc
      obtain ⟨rfl, hc⟩ := hc
      refine ⟨String.ofList t, String.toList_inj.1 ?_, String.toList_inj.1 ?_⟩
      · simp [hb]
      · simp [hc]
  have hlist : u.toList ++ '.' :: n.toList = v.toList ++ '.' :: m.toList := by
    simpa using congrArg String.toList h
  rcases List.append_eq_append_iff.1 hlist with ⟨t, hv, hn⟩ | ⟨t, hu, hm⟩
  · rcases key hv hn with heq | hx
    · exact .inl heq
    · exact .inr (.inl hx)
  · rcases key hu hm with ⟨rfl, rfl⟩ | hx
    · exact .inl ⟨rfl, rfl⟩
    · exact .inr (.inr hx)

theorem wireName_eq_iff : p.wireName = q.wireName ↔ p = q ∨ q.Within p ∨ p.Within q := by
  constructor
  · intro h
    obtain ⟨u, n⟩ := p
    obtain ⟨v, m⟩ := q
    simp only [wireName, addUserPrefix] at h
    by_cases hu : u = "" <;> by_cases hv : v = ""
    · simp_all
    · rw [if_pos hu, if_neg hv] at h
      exact .inr (.inl ⟨hv, .inl ⟨hu, h⟩⟩)
    · rw [if_neg hu, if_pos hv] at h
      exact .inr (.inr ⟨hu, .inl ⟨hv, h.symm⟩⟩)
    · rw [if_neg hu, if_neg hv] at h
      rcases dotted_eq h with ⟨rfl, rfl⟩ | hx | hx
      · exact .inl rfl
      · exact .inr (.inl ⟨hv, .inr ⟨hu, hx⟩⟩)
      · exact .inr (.inr ⟨hu, .inr ⟨hv, hx⟩⟩)
  · rintro (rfl | h | h)
    · rfl
    · exact h.wireName_eq
    · exact h.wireName_eq.symm

theorem clientKey_eq_wireName (hp : p.name ≠ "") : p.clientKey = p.wireName := by
  simp [clientKey, wireName, composeClientKey, addUserPrefix, hp]

end Scoped

/-! ## The map of proxies -/

structure Manager (α : Type) where
  pxys : String → Option α

namespace Manager

variable {α : Type}

def exist (pm : Manager α) (name : String) : Bool := (pm.pxys name).isSome

def add (pm : Manager α) (name : String) (pxy : α) : Manager α × Option String :=
  if pm.exist name then (pm, some s!"proxy name [{name}] is already in use")
  else (⟨update pm.pxys name (some pxy)⟩, none)

def del (pm : Manager α) (name : String) : Manager α := ⟨update pm.pxys name none⟩

def getByName (pm : Manager α) (name : String) : Option α := pm.pxys name

theorem add_snd (pm : Manager α) (name : String) (pxy : α) : (pm.add name pxy).2 =
      if (pm.getByName name).isSome then some s!"proxy name [{name}] is already in use"
      else none := by
  by_cases h : (pm.pxys name).isSome <;> simp [add, exist, getByName, h]

inductive Op (α : Type) where
  | add (pxy : α)
  | del

def apply (pm : Manager α) (name : String) : Op α → Manager α
  | .add pxy => (pm.add name pxy).1
  | .del => pm.del name

variable {name name' : String}

theorem getByName_apply_of_ne (h : name' ≠ name) (pm : Manager α)
    (op : Op α) : (pm.apply name op).getByName name' = pm.getByName name' := by
  cases op with
  | add pxy =>
    simp only [apply, add]
    split
    · rfl
    · exact update_of_ne h ..
  | del => exact update_of_ne h ..

theorem getByName_foldl_of_ne (h : name' ≠ name) (pm : Manager α) (ops : List (Op α)) :
    (ops.foldl (fun pm op => pm.apply name op) pm).getByName name' = pm.getByName name' := by
  induction ops generalizing pm with
  | nil => rfl
  | cons op ops ih =>
    rw [List.foldl_cons, ih]
    exact getByName_apply_of_ne h pm op

end Manager

/-- Nothing done with the proxy of `p` changes the proxy found for `q`, or the answer to it. -/
structure ProxiesApart (p q : Scoped) : Prop where
  names : p.wireName ≠ q.wireName
  found : ∀ (α : Type) (pm : Manager α) (ops : List (Manager.Op α)),
    (ops.foldl (fun pm op => pm.apply p.wireName op) pm).getByName q.wireName =
      pm.getByName q.wireName
  answer : ∀ (α : Type) (pm : Manager α) (ops : List (Manager.Op α)) (pxy : α),
    ((ops.foldl (fun pm op => pm.apply p.wireName op) pm).add q.wireName pxy).2 =
      (pm.add q.wireName pxy).2

theorem proxiesApart_of_ne {p q : Scoped} (h : p.wireName ≠ q.wireName) : ProxiesApart p q where
  names := h
  found := fun _ pm ops => Manager.getByName_foldl_of_ne h.symm pm ops
  answer := by
    intro α pm ops pxy
    rw [Manager.add_snd, Manager.add_snd, Manager.getByName_foldl_of_ne h.symm pm ops]

/-! ## The map of clients -/

def registerAll (cr : ClientRegistry) (logins : List (Nat × RegisterArgs)) : ClientRegistry :=
  logins.foldl (fun cr login => (cr.register login.1 login.2).1) cr

def LoginOf (p : Scoped) (a : RegisterArgs) : Prop := a.user = p.user ∧ a.rawClientID = p.name

variable {a : RegisterArgs}

theorem LoginOf.clientKey_eq {p : Scoped} (h : LoginOf p a)
    (hp : p.name ≠ "") : a.clientKey = p.clientKey := by
  simp [RegisterArgs.clientKey, Scoped.clientKey, h.1, h.2, hp]

theorem registerAll_clients_of_ne {k : String} {logins : List (Nat × RegisterArgs)}
    (h : ∀ login ∈ logins, k ≠ login.2.clientKey) (cr : ClientRegistry) :
    (registerAll cr logins).clients k = cr.clients k := by
  induction logins generalizing cr with
  | nil => rfl
  | cons login logins ih =>
    have hrest := ih (fun l hl => h l (List.mem_cons_of_mem login hl))
      (cr.register login.1 login.2).1
    simp only [registerAll, List.foldl_cons] at hrest ⊢
    rw [hrest]
    exact register_clients_of_ne _ (h login List.mem_cons_self)

theorem register_snd_congr {cr cr' : ClientRegistry} (now : Nat)
    (h : cr'.clients a.clientKey = cr.clients a.clientKey) :
    (cr'.register now a).2 = (cr.register now a).2 := by
  simp only [ClientRegistry.register, h]
  split
  · rfl
  · split <;> rfl

/-- No login of the client `p` changes the entry of `q`, or the answer to a login of `q`. -/
structure ClientsApart (p q : Scoped) : Prop where
  keys : p.clientKey ≠ q.clientKey
  entry : ∀ (cr : ClientRegistry) (logins : List (Nat × RegisterArgs)),
    (∀ login ∈ logins, LoginOf p login.2) →
      (registerAll cr logins).clients q.clientKey = cr.clients q.clientKey
  answer : ∀ (cr : ClientRegistry) (logins : List (Nat × RegisterArgs)) (now : Nat)
    (a : RegisterArgs), (∀ login ∈ logins, LoginOf p login.2) → LoginOf q a →
      ((registerAll cr logins).register now a).2 = (cr.register now a).2

theorem clientsApart_of_ne {p q : Scoped} (hp : p.name ≠ "") (hq : q.name ≠ "")
    (h : p.clientKey ≠ q.clientKey) : ClientsApart p q := by
  have entry : ∀ (cr : ClientRegistry) (logins : List (Nat × RegisterArgs)),
      (∀ login ∈ logins, LoginOf p login.2) →
        (registerAll cr logins).clients q.clientKey = cr.clients q.clientKey := by
    intro cr logins hlogins
    apply registerAll_clients_of_ne
    intro login hmem
    rw [(hlogins login hmem).clientKey_eq hp]
    exact h.symm
  refine ⟨h, entry, ?_⟩
  intro cr logins now a hlogins ha
  apply register_snd_congr
  rw [ha.clientKey_eq hq]
  exact entry cr logins hlogins

/-! ## Users apart -/

/-- Proxies and clients of two pairs are apart iff neither pair lies within the other. -/
theorem apart_iff (p q : Scoped) (hp : p.name ≠ "") (hq : q.name ≠ "") (hne : p ≠ q) :
    (ProxiesApart p q ↔ ¬ (q.Within p ∨ p.Within q)) ∧
      (ClientsApart p q ↔ ¬ (q.Within p ∨ p.Within q)) := by
  have hnames : p.wireName ≠ q.wireName ↔ ¬ (q.Within p ∨ p.Within q) := by
    rw [Ne, Scoped.wireName_eq_iff, or_iff_right hne]
  have hkeys : p.clientKey ≠ q.clientKey ↔ ¬ (q.Within p ∨ p.Within q) := by
    rw [Scoped.clientKey_eq_wireName hp, Scoped.clientKey_eq_wireName hq, hnames]
  constructor
  · exact ⟨fun h => hnames.1 h.names, fun h => proxiesApart_of_ne (hnames.2 h)⟩
  · exact ⟨fun h => hkeys.1 h.keys, fun h => clientsApart_of_ne hp hq (hkeys.2 h)⟩

/-- Users without a dot in common. -/
theorem apart_alice_bob : ProxiesApart ⟨"alice", "web"⟩ ⟨"bob", "web"⟩ ∧
      ClientsApart ⟨"alice", "web"⟩ ⟨"bob", "web"⟩ := by
  have h := apart_iff ⟨"alice", "web"⟩ ⟨"bob", "web"⟩ (by decide) (by decide) (by decide)
  have hname : Scoped.wireName ⟨"alice", "web"⟩ ≠ Scoped.wireName ⟨"bob", "web"⟩ := by decide
  have hwithin := fun hw => hname (Scoped.wireName_eq_iff.2 (.inr hw))
  exact ⟨h.1.2 hwithin, h.2.2 hwithin⟩

def loginAs (p : Scoped) (runID : String) : RegisterArgs := ⟨p.user, p.name, runID, "", "", "", ""⟩

/-- User `a.b` keeps `a` from opening a proxy and logging in, and takes over its entry. -/
theorem users_collide : Scoped.wireName ⟨"a.b", "c"⟩ = Scoped.wireName ⟨"a", "b.c"⟩ ∧
      (((Manager.mk fun _ => none).add (Scoped.wireName ⟨"a.b", "c"⟩) ()).1.add
        (Scoped.wireName ⟨"a", "b.c"⟩) ()).2 = some "proxy name [a.b.c] is already in use" ∧
      Scoped.clientKey ⟨"a.b", "c"⟩ = Scoped.clientKey ⟨"a", "b.c"⟩ ∧
      ((newClientRegistry.register 0 (loginAs ⟨"a.b", "c"⟩ "r1")).1.register 1
        (loginAs ⟨"a", "b.c"⟩ "r2")).2 = ("a.b.c", true) ∧
      ((((newClientRegistry.register 0 (loginAs ⟨"a.b", "c"⟩ "r1")).1.markOfflineByRunID 1
        "r1").register 2 (loginAs ⟨"a", "b.c"⟩ "r2")).1.clients "a.b.c").map ClientInfo.user =
          some "a.b" := by
  refine ⟨?_, ?_, ?_, ?_, ?_⟩ <;> decide

end FrpMeo.Server.Names
