import FrpMeo.Server.Session

/-!
# Teardown of a control

What the worker of a control leaves behind. An open proxy is in `ctl.proxies`, in the hands of the
read loop, or among those the worker has taken (`Control.Tracks`), and the worker takes them only
after the read loop has stopped.
-/

namespace FrpMeo.Server.Session

open Lib.Transition Function

/-! ## Where the open proxies are -/

def LoginPc.afterStart : LoginPc → Bool
  | .counting | .watching | .ended => true
  | _ => false

def ReaderPc.opens : ReaderPc → Option String
  | .running name | .adding name | .closing name => some name
  | _ => none

def ReaderPc.lists : ReaderPc → Option String
  | .adding name | .closing name => some name
  | _ => none

def WorkerPc.rest : WorkerPc → List String
  | .closingProxies rest => rest
  | _ => []

def WorkerPc.tearing : WorkerPc → Bool
  | .absent | .serving => false
  | _ => true

def WorkerPc.taken : WorkerPc → Bool
  | .absent | .serving | .closing => false
  | _ => true

def Control.Tracks (k : Control) (name : String) : Prop :=
  name ∈ k.proxies ∨ k.reader.opens = some name ∨ name ∈ k.worker.rest

def Control.Lists (k : Control) (name : String) : Prop :=
  name ∈ k.proxies ∨ k.reader.lists = some name ∨ name ∈ k.worker.rest

theorem Control.Lists.tracks {k : Control} {name : String} (h : k.Lists name) : k.Tracks name := by
  rcases h with hp | hr | hw
  · exact .inl hp
  · refine .inr (.inl ?_)
    cases hk : k.reader <;> rw [hk] at hr <;> first | exact hr | cases hr
  · exact .inr (.inr hw)

structure Control.Orderly (k : Control) : Prop where
  opened : ∀ name ∈ k.opened, k.Tracks name
  unstarted : k.started = false → k.reader = .absent ∧ k.worker = .absent ∧ k.proxies = []
  stopped : k.worker.tearing = true → k.reader = .stopped
  taken : k.worker.taken = true → k.proxies = []
  closed : k.worker = .finished → k.done = true

structure TeardownInv (s : State) : Prop where
  absent : ∀ i, s.next ≤ i → s.pc i = .absent
  ctl : ∀ c, (s.ctl c).Orderly
  pxys : ∀ name c, s.pxys name = some c → (s.ctl c).Lists name
  starting : ∀ i, (s.pc i).afterStart = false → (s.ctl i).started = false

/-- All proxies of `c` are closed and out of the proxy manager, and `doneCh` is closed. -/
structure TornDown (s : State) (c : Nat) : Prop where
  worker : (s.ctl c).worker = .finished
  done : (s.ctl c).done = true
  opened : (s.ctl c).opened = []
  proxies : (s.ctl c).proxies = []
  pxys : ∀ name, s.pxys name ≠ some c

theorem newControl_orderly (runID : String) : (newControl runID).Orderly where
  opened := nofun
  unstarted := fun _ => ⟨rfl, rfl, rfl⟩
  stopped := nofun
  taken := nofun
  closed := nofun

theorem teardownInv_init : TeardownInv init where
  absent := fun _ _ => rfl
  ctl := fun _ => newControl_orderly ""
  pxys := nofun
  starting := fun _ _ => rfl

theorem Control.Orderly.not_tracks {k : Control} (h : k.Orderly) (hf : k.worker = .finished)
    (name : String) : ¬ k.Tracks name := by
  have hreader : k.reader = .stopped := h.stopped (by rw [hf]; rfl)
  have hproxies : k.proxies = [] := h.taken (by rw [hf]; rfl)
  rw [Control.Tracks, hproxies, hreader, hf]
  rintro (hp | hr | hw)
  · cases hp
  · cases hr
  · cases hw

variable {s : State}

theorem TeardownInv.tornDown (h : TeardownInv s) {c : Nat} (hf : (s.ctl c).worker = .finished) :
    TornDown s c := by
  have ho := h.ctl c
  refine ⟨hf, ho.closed hf, List.eq_nil_iff_forall_not_mem.2 ?_, ho.taken (by rw [hf]; rfl), ?_⟩
  · exact fun name hname => ho.not_tracks hf name (ho.opened name hname)
  · exact fun name hname => ho.not_tracks hf name (h.pxys name c hname).tracks

/-! ## Every step keeps the account -/

section Updates

variable {t : State}

theorem TeardownInv.congr (h : TeardownInv s) (hctl : t.ctl = s.ctl) (hpxys : t.pxys = s.pxys)
    (hpc : t.pc = s.pc) (hnext : t.next = s.next) : TeardownInv t := by
  refine ⟨?_, ?_, ?_, ?_⟩
  · rw [hpc, hnext]
    exact h.absent
  · rw [hctl]
    exact h.ctl
  · rw [hctl, hpxys]
    exact h.pxys
  · rw [hctl, hpc]
    exact h.starting

variable {c : Nat} {k : Control} {w : WorkerPc} {name : String}

variable (h : TeardownInv s)

include h

variable {m : String → Option Nat}

theorem TeardownInv.setCtl (hk : k.Orderly) (hst : k.started = true → (s.pc c).afterStart = true)
    (hself : ∀ name, m name = some c → k.Lists name)
    (hother : ∀ name d, d ≠ c → m name = some d → s.pxys name = some d) :
    TeardownInv ({ s with pxys := m }.setCtl c k) := by
  refine ⟨h.absent, ?_, ?_, ?_⟩
  · exact (forall_setCtl_iff).2 ⟨hk, fun d _ => h.ctl d⟩
  · intro name
    refine (forall_setCtl_iff (p := fun d k => m name = some d → k.Lists name)).2
      ⟨hself name, fun d hd hname => h.pxys name d (hother name d hd hname)⟩
  · refine (forall_setCtl_iff (p := fun i k =>
      (s.pc i).afterStart = false → k.started = false)).2 ⟨fun hc => ?_, fun i _ => h.starting i⟩
    cases hks : k.started with
    | false => rfl
    | true =>
      rw [hst hks] at hc
      cases hc

theorem TeardownInv.afterStart (hs : (s.ctl c).started = true) : (s.pc c).afterStart = true := by
  cases hp : (s.pc c).afterStart with
  | true => rfl
  | false =>
    rw [h.starting c hp] at hs
    cases hs

theorem TeardownInv.setFlags (c : Nat) (hk : (k.started, k.opened, k.proxies, k.reader, k.worker) =
      ((s.ctl c).started, (s.ctl c).opened, (s.ctl c).proxies, (s.ctl c).reader, (s.ctl c).worker))
    (hd : (s.ctl c).done = true → k.done = true) : TeardownInv (s.setCtl c k) := by
  obtain ⟨hs, ho, hp, hr, hw⟩ : k.started = (s.ctl c).started ∧ k.opened = (s.ctl c).opened ∧
      k.proxies = (s.ctl c).proxies ∧ k.reader = (s.ctl c).reader ∧
        k.worker = (s.ctl c).worker := by
    simpa using hk
  have hc := h.ctl c
  refine h.setCtl ⟨?_, ?_, ?_, ?_, ?_⟩ ?_ ?_ (fun _ _ _ hn => hn)
  · rw [ho]
    intro name hn
    have ht := hc.opened name hn
    rwa [Control.Tracks, ← hp, ← hr, ← hw] at ht
  · rw [hs, hr, hw, hp]
    exact hc.unstarted
  · rw [hr, hw]
    exact hc.stopped
  · rw [hp, hw]
    exact hc.taken
  · rw [hw]
    exact fun hf => hd (hc.closed hf)
  · rw [hs]
    exact h.afterStart
  · intro name hn
    have hl := h.pxys name c hn
    rwa [Control.Lists, ← hp, ← hr, ← hw] at hl

variable {i : Nat}

theorem TeardownInv.setPc {p : LoginPc} (hi : s.pc i ≠ .absent)
    (hp : p.afterStart = false → (s.ctl i).started = false) : TeardownInv (s.setPc i p) := by
  refine ⟨?_, h.ctl, h.pxys, ?_⟩
  · exact (forall_setPc_iff (p := fun j q => s.next ≤ j → q = .absent)).2
      ⟨fun hj => absurd (h.absent i hj) hi, fun j _ => h.absent j⟩
  · exact (forall_setPc_iff (p := fun j q =>
      q.afterStart = false → (s.ctl j).started = false)).2 ⟨hp, fun j _ => h.starting j⟩

theorem TeardownInv.move {q : LoginPc} (p : LoginPc)
    (hpc : s.pc i = q) (hq : q ≠ .absent := by rintro ⟨⟩)
    (hns : q.afterStart = false := by rfl) : TeardownInv (s.setPc i p) := by
  subst hpc
  exact h.setPc hq fun _ => h.starting i hns

omit h in
theorem Control.Orderly.started_of_reader (h : k.Orderly) (hr : k.reader ≠ .absent) :
    k.started = true := by
  cases hs : k.started with
  | true => rfl
  | false => exact absurd (h.unstarted hs).1 hr

omit h in
theorem Control.Orderly.started_of_worker (h : k.Orderly) (hw : k.worker ≠ .absent) :
    k.started = true := by
  cases hs : k.started with
  | true => rfl
  | false => exact absurd (h.unstarted hs).2.1 hw

omit h in
theorem Control.Orderly.not_tearing (h : k.Orderly) (hr : k.reader ≠ .stopped) :
    k.worker.tearing = false := by
  cases hw : k.worker.tearing with
  | false => rfl
  | true => exact absurd (h.stopped hw) hr

omit h in
theorem WorkerPc.of_not_tearing (h : w.tearing = false) :
    w.taken = false ∧ w.rest = [] ∧ w ≠ .finished := by
  cases w <;> first | (cases h; done) | exact ⟨rfl, rfl, nofun⟩

omit h in
theorem Control.Orderly.start (h : k.Orderly) (hs : k.started = false) : k.start.Orderly := by
  unfold Control.start
  split_ifs
  · exact h
  · obtain ⟨hr, hw, -⟩ := h.unstarted hs
    refine ⟨?_, nofun, nofun, nofun, nofun⟩
    intro name hn
    rcases h.opened name hn with hp | ho | hrest
    · exact .inl hp
    · rw [hr] at ho
      cases ho
    · rw [hw] at hrest
      cases hrest

variable {r : ReaderPc}

namespace TeardownInv

theorem read (hr : (s.ctl c).reader = r)
    (ho : ∀ name ∈ k.opened, name ∈ k.proxies ∨ k.reader.opens = some name)
    (hself : ∀ name, m name = some c → name ∈ k.proxies ∨ k.reader.lists = some name)
    (hother : ∀ name d, d ≠ c → m name = some d → s.pxys name = some d)
    (habsent : r ≠ .absent := by rintro ⟨⟩) (hstopped : r ≠ .stopped := by rintro ⟨⟩)
    (hk : (k.started, k.done, k.worker) =
      ((s.ctl c).started, (s.ctl c).done, (s.ctl c).worker) := by rfl) :
    TeardownInv ({ s with pxys := m }.setCtl c k) := by
  subst hr
  obtain ⟨hs, hd, hw⟩ : k.started = (s.ctl c).started ∧ k.done = (s.ctl c).done ∧
      k.worker = (s.ctl c).worker := by
    simpa using hk
  have hc := h.ctl c
  have hstarted := hc.started_of_reader habsent
  have hnt := hc.not_tearing hstopped
  obtain ⟨htaken, -, hfin⟩ := WorkerPc.of_not_tearing hnt
  refine h.setCtl ⟨?_, ?_, ?_, ?_, ?_⟩ (fun _ => h.afterStart hstarted) ?_ hother
  · exact fun name hn => (ho name hn).imp_right .inl
  · intro hns
    rw [hs, hstarted] at hns
    cases hns
  · rw [hw, hnt]
    nofun
  · rw [hw, htaken]
    nofun
  · rw [hw]
    exact fun hf => absurd hf hfin
  · exact fun name hn => (hself name hn).imp_right .inl

theorem read_cases (hr : (s.ctl c).reader = r) (hrun : r ≠ .stopped := by rintro ⟨⟩) :
    (∀ name ∈ (s.ctl c).opened, name ∈ (s.ctl c).proxies ∨ r.opens = some name) ∧
      ∀ name, s.pxys name = some c → name ∈ (s.ctl c).proxies ∨ r.lists = some name := by
  subst hr
  have hc := h.ctl c
  have hrest := (WorkerPc.of_not_tearing (hc.not_tearing hrun)).2.1
  constructor
  · intro name hn
    have ht := hc.opened name hn
    rw [Control.Tracks, hrest] at ht
    simpa using ht
  · intro name hn
    have hl := h.pxys name c hn
    rw [Control.Lists, hrest] at hl
    simpa using hl

theorem idle_cases (hr : (s.ctl c).reader = .idle) :
    (∀ name ∈ (s.ctl c).opened, name ∈ (s.ctl c).proxies) ∧
      ∀ name, s.pxys name = some c → name ∈ (s.ctl c).proxies := by
  obtain ⟨hopen, hlist⟩ := h.read_cases hr
  constructor
  · exact fun name hn => (hopen name hn).resolve_right nofun
  · exact fun name hn => (hlist name hn).resolve_right nofun

theorem reader_stopped (hw : (s.ctl c).worker = w)
    (ht : w.tearing = true) : (s.ctl c).reader = .stopped :=
  (h.ctl c).stopped (by rw [hw]; exact ht)

theorem work (hw : (s.ctl c).worker = w)
    (hstop : (s.ctl c).reader = .stopped) (htaken : k.worker.taken = true → w.taken = true)
    (hdone : k.worker = .finished → k.done = true := by rintro ⟨⟩)
    (hrun : w ≠ .absent := by rintro ⟨⟩) (hk : (k.started, k.opened, k.proxies, k.reader) =
      ((s.ctl c).started, (s.ctl c).opened, (s.ctl c).proxies, (s.ctl c).reader) := by rfl)
    (hrest : k.worker.rest = w.rest := by rfl) : TeardownInv (s.setCtl c k) := by
  subst hw
  obtain ⟨hs, ho, hp, hr⟩ : k.started = (s.ctl c).started ∧ k.opened = (s.ctl c).opened ∧
      k.proxies = (s.ctl c).proxies ∧ k.reader = (s.ctl c).reader := by
    simpa using hk
  have hc := h.ctl c
  have hstarted := hc.started_of_worker hrun
  refine h.setCtl ⟨?_, ?_, ?_, ?_, hdone⟩ (fun _ => h.afterStart hstarted) ?_
    (fun _ _ _ hn => hn)
  · rw [ho]
    intro name hn
    have ht := hc.opened name hn
    rwa [Control.Tracks, ← hp, ← hr, ← hrest] at ht
  · intro hns
    rw [hs, hstarted] at hns
    cases hns
  · rw [hr]
    exact fun _ => hstop
  · rw [hp]
    exact fun ht => hc.taken (htaken ht)
  · intro name hn
    have hl := h.pxys name c hn
    rwa [Control.Lists, ← hp, ← hr, ← hrest] at hl

theorem takeProxies (hw : (s.ctl c).worker = .closing) : TeardownInv (next s (.takeProxies c)) := by
  have hc := h.ctl c
  have hstop : (s.ctl c).reader = .stopped := h.reader_stopped hw rfl
  have hstarted := hc.started_of_worker (by rw [hw]; rintro ⟨⟩)
  have hproxies : ∀ name, (s.ctl c).Tracks name → name ∈ (s.ctl c).proxies := by
    rintro name (hp | hr | hrest)
    · exact hp
    · rw [hstop] at hr
      cases hr
    · rw [hw] at hrest
      cases hrest
  refine h.setCtl ⟨?_, ?_, fun _ => hstop, fun _ => rfl, nofun⟩
    (fun _ => h.afterStart hstarted) ?_ (fun _ _ _ hn => hn)
  · exact fun name hn => .inr (.inr (hproxies name (hc.opened name hn)))
  · intro hns
    rw [show (s.ctl c).started = false from hns] at hstarted
    cases hstarted
  · exact fun name hn => .inr (.inr (hproxies name (h.pxys name c hn).tracks))

theorem workerClose {rest : List String} (hw : (s.ctl c).worker = .closingProxies rest) :
    TeardownInv (next s (.workerClose c rest name)) := by
  have hc := h.ctl c
  have hstop : (s.ctl c).reader = .stopped := h.reader_stopped hw rfl
  have hempty : (s.ctl c).proxies = [] := hc.taken (by rw [hw]; rfl)
  have hstarted := hc.started_of_worker (by rw [hw]; rintro ⟨⟩)
  refine h.setCtl ⟨?_, ?_, fun _ => hstop, fun _ => hempty, nofun⟩
    (fun _ => h.afterStart hstarted) ?_ ?_
  · intro n hn
    obtain ⟨hopen, hne⟩ := List.mem_filter.1 hn
    rcases hc.opened n hopen with hp | hr | hrest
    · exact .inl hp
    · exact .inr (.inl hr)
    · rw [hw] at hrest
      exact .inr (.inr (List.mem_filter.2 ⟨hrest, hne⟩))
  · intro hns
    rw [show (s.ctl c).started = false from hns] at hstarted
    cases hstarted
  · intro n hn
    obtain ⟨hne, hn⟩ := update_none_eq_some.1 hn
    rcases h.pxys n c hn with hp | hr | hrest
    · exact .inl hp
    · exact .inr (.inl hr)
    · rw [hw] at hrest
      exact .inr (.inr (List.mem_filter.2 ⟨hrest, decide_eq_true hne⟩))
  · exact fun n d _ hn => (update_none_eq_some.1 hn).2

theorem addProxy (hr : (s.ctl c).reader = .running name) :
    TeardownInv (next s (.addProxy c name)) := by
  obtain ⟨hopen, hlist⟩ := h.read_cases hr
  have hlist' : ∀ n, s.pxys n = some c → n ∈ (s.ctl c).proxies :=
    fun n hn => (hlist n hn).resolve_right nofun
  by_cases hfree : s.pxys name = none
  · rw [next, if_pos hfree]
    refine h.read hr hopen ?_ ?_
    · intro n hn
      by_cases hne : n = name
      · exact .inr (congrArg some hne.symm)
      · rw [update_of_ne hne] at hn
        exact .inl (hlist' n hn)
    · intro n d hd hn
      by_cases hne : n = name
      · rw [hne, update_self] at hn
        cases hn
        exact absurd rfl hd
      · rwa [update_of_ne hne] at hn
  · rw [next, if_neg hfree]
    refine h.read hr ?_ (fun n hn => .inl (hlist' n hn)) (fun _ _ _ hn => hn)
    intro n hn
    obtain ⟨hmem, hne⟩ := List.mem_filter.1 hn
    rcases hopen n hmem with hp | ho
    · exact .inl hp
    · cases ho
      simp at hne

theorem storeProxy (hr : (s.ctl c).reader = .adding name) :
    TeardownInv (next s (.storeProxy c name)) := by
  obtain ⟨hopen, hlist⟩ := h.read_cases hr
  have hmem : ∀ n, n ∈ (s.ctl c).proxies ∨ some name = some n → n ∈ name :: (s.ctl c).proxies := by
    rintro n (hp | hn)
    · exact List.mem_cons_of_mem _ hp
    · cases hn
      exact List.mem_cons_self
  exact h.read hr (fun n hn => .inl (hmem n (hopen n hn)))
    (fun n hn => .inl (hmem n (hlist n hn))) (fun _ _ _ hn => hn)

theorem closeProxy (hr : (s.ctl c).reader = .idle) : TeardownInv (next s (.closeProxy c name)) := by
  obtain ⟨hopen, hlist⟩ := h.idle_cases hr
  have hmem : ∀ n, n ∈ (s.ctl c).proxies →
      n ∈ (s.ctl c).proxies.filter (· ≠ name) ∨ some name = some n := by
    intro n hn
    by_cases hne : n = name
    · exact .inr (congrArg some hne.symm)
    · exact .inl (List.mem_filter.2 ⟨hn, decide_eq_true hne⟩)
  exact h.read hr (fun n hn => hmem n (hopen n hn)) (fun n hn => hmem n (hlist n hn))
    (fun _ _ _ hn => hn)

theorem finishClose (hr : (s.ctl c).reader = .closing name) :
    TeardownInv (next s (.finishClose c name)) := by
  obtain ⟨hopen, hlist⟩ := h.read_cases hr
  refine h.read hr ?_ ?_ fun n d _ hn => (update_none_eq_some.1 hn).2
  · intro n hn
    obtain ⟨hmem, hne⟩ := List.mem_filter.1 hn
    rcases hopen n hmem with hp | ho
    · exact .inl hp
    · cases ho
      simp at hne
  · intro n hn
    obtain ⟨hne, hn⟩ := update_none_eq_some.1 hn
    rcases hlist n hn with hp | hl
    · exact .inl hp
    · cases hl
      exact absurd rfl hne

theorem pxys_ne_next (name : String) : s.pxys name ≠ some s.next := by
  intro hname
  have hns : (s.ctl s.next).started = false :=
    h.starting s.next (by rw [h.absent s.next (Nat.le_refl _)]; rfl)
  obtain ⟨hr, hw, hp⟩ := (h.ctl s.next).unstarted hns
  have hl := h.pxys name s.next hname
  rw [Control.Lists, hr, hw, hp] at hl
  rcases hl with hl | hl | hl <;> cases hl

theorem newLogin (a : Registry.RegisterArgs) : TeardownInv (next s (.login a)) := by
  refine ⟨?_, ?_, ?_, ?_⟩
  · exact (forall_login_iff (p := fun j q _ _ => s.next + 1 ≤ j → q = .absent)).2
      ⟨fun hj => by omega, fun j _ hj => h.absent j (by omega)⟩
  · exact (forall_login_iff (p := fun _ _ k _ => k.Orderly)).2
      ⟨newControl_orderly a.runID, fun c _ => h.ctl c⟩
  · intro name
    exact (forall_login_iff (p := fun c _ k _ => s.pxys name = some c → k.Lists name)).2
      ⟨fun hname => absurd hname (h.pxys_ne_next name), fun c _ => h.pxys name c⟩
  · exact (forall_login_iff (p := fun _ q k _ => q.afterStart = false → k.started = false)).2
      ⟨fun _ => rfl, fun i _ => h.starting i⟩

end TeardownInv

end Updates

theorem teardownInv_next (h : TeardownInv s) {a : Action} (hen : Enabled s a) :
    TeardownInv (next s a) := by
  cases a with
  | login a => exact h.newLogin a
  | lockManager i old =>
    exact (h.congr (t := { s with mgrLock := some i }) rfl rfl rfl rfl).move _ hen.1
  | replaced i old => exact (h.setFlags (k := (s.ctl old).retire) old rfl id).move _ hen
  | closeOldConn i old started =>
    have hconn : TeardownInv (s.setCtl old { s.ctl old with connClosed := true }) :=
      h.setFlags old rfl id
    exact hconn.move _ hen
  | closeOldDone i old started =>
    have hdone : TeardownInv
        (s.setCtl old { s.ctl old with done := (s.ctl old).done || !started }) :=
      h.setFlags old rfl fun hd => Bool.or_eq_true_iff.2 (.inl hd)
    exact hdone.move _ hen
  | store i old =>
    have hmap : TeardownInv { s with
        ctlsByRunID := update s.ctlsByRunID (s.runID i) (some i), mgrLock := none } :=
      h.congr rfl rfl rfl rfl
    exact hmap.move _ hen
  | register i now =>
    have hreg : TeardownInv { s with registry := (s.registry.register now (s.login i)).1 } :=
      h.congr rfl rfl rfl rfl
    exact hreg.move _ hen
  | conflictDel i =>
    have hdel : TeardownInv (s.del i) := h.congr rfl rfl rfl rfl
    have hconn : TeardownInv ((s.del i).setCtl i { s.ctl i with connClosed := true }) :=
      hdel.setFlags i rfl id
    exact hconn.move _ hen.1
  | wake | writeResp => exact h.move _ hen.1
  | undoDel i =>
    have hdel : TeardownInv (s.del i) := h.congr rfl rfl rfl rfl
    exact hdel.move _ hen.1
  | undoMark i now =>
    have hmark : TeardownInv (s.markOffline now (s.runID i)) := h.congr rfl rfl rfl rfl
    exact (hmark.setFlags (k := { s.ctl i with connClosed := true }) i rfl id).move _ hen
  | start i =>
    have hpc : s.pc i = .starting := hen
    have hns : (s.ctl i).started = false := h.starting i (by rw [hpc]; rfl)
    -- the move comes first: a started control needs its login past `Start`
    have hmove : TeardownInv (s.setPc i .counting) := h.move _ hpc
    refine hmove.setCtl ((h.ctl i).start hns) ?_ ?_ (fun _ _ _ hn => hn)
    · intro _
      rw [setPc_pc_self]
      rfl
    · intro name hn
      obtain ⟨hr, hw, hp⟩ := (h.ctl i).unstarted hns
      have hl := h.pxys name i hn
      rw [Control.Lists, hr, hw, hp] at hl
      rcases hl with hl | hl | hl <;> cases hl
  | newClient i =>
    have hcount : TeardownInv { s with clientCounts := s.clientCounts + 1 } :=
      h.congr rfl rfl rfl rfl
    have hpc : s.pc i = .counting := hen
    exact hcount.setPc (by rw [hpc]; rintro ⟨⟩) nofun
  | reap i =>
    have hdel : TeardownInv (s.del i) := h.congr rfl rfl rfl rfl
    have hpc : (s.del i).pc i = .watching := hen.1
    exact hdel.setPc (by rw [hpc]; rintro ⟨⟩) nofun
  | connLost c => exact h.setFlags c rfl id
  | runProxy c name =>
    obtain ⟨hopen, hlist⟩ := h.idle_cases hen.1
    refine h.read hen.1 ?_ (fun n hn => .inl (hlist n hn)) (fun _ _ _ hn => hn)
    intro n hn
    rcases List.mem_cons.1 hn with hn | hn
    · exact .inr (congrArg some hn.symm)
    · exact .inl (hopen n hn)
  | addProxy c name => exact h.addProxy hen
  | storeProxy c name => exact h.storeProxy hen
  | closeProxy c name => exact h.closeProxy hen.1
  | finishClose c name => exact h.finishClose hen
  | readError c =>
    obtain ⟨hopen, hlist⟩ := h.idle_cases hen
    exact h.read hen (fun n hn => .inl (hopen n hn))
      (fun n hn => .inl (hlist n hn)) (fun _ _ _ hn => hn)
  | workerWake c => exact h.work hen.1 hen.2 nofun
  | takeProxies c => exact h.takeProxies hen
  | workerClose c rest name => exact h.workerClose hen.1
  | closeClient c =>
    have hcount : TeardownInv { s with clientCounts := s.clientCounts - 1 } :=
      h.congr rfl rfl rfl rfl
    exact hcount.work hen (h.reader_stopped hen rfl) fun _ => rfl
  | readRunID c => exact h.work hen (h.reader_stopped hen rfl) fun _ => rfl
  | markOffline c runID now =>
    have hmark : TeardownInv (s.markOffline now runID) := h.congr rfl rfl rfl rfl
    exact hmark.work hen (h.reader_stopped hen rfl) fun _ => rfl
  | closeDone c => exact h.work hen (h.reader_stopped hen rfl) (fun _ => rfl) fun _ => rfl

variable {ok : State → Action → Prop}

theorem teardownInv_of_reach (h : Reach step ok init s) : TeardownInv s := by
  refine invariant_of_next teardownInv_init ?_ h
  intro u a hinv _ hen
  exact teardownInv_next hinv hen

end FrpMeo.Server.Session
