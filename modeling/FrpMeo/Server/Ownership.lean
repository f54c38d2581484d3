import FrpMeo.Server.Teardown

/-!
# Who owns a proxy name

A proxy that runs is in the proxy manager's map, by name over the whole server, and in that of its
control (`server/control.go`, `Manager` in `server/proxy/proxy.go`). They are written one after the
other, without a common lock.
-/

namespace FrpMeo.Server.Session

open Lib.Transition

/-- What is listed is in the proxy manager, and a control has one open proxy of a name at most. -/
structure Owned (s : State) : Prop where
  listed : ∀ c name, (s.ctl c).Lists name → s.pxys name = some c
  distinct : ∀ c, (s.ctl c).opened.Nodup
  closing : ∀ c name, (s.ctl c).reader = .closing name → name ∉ (s.ctl c).proxies

theorem not_lists_newControl (runID name : String) : ¬ (newControl runID).Lists name := by
  rintro (h | h | h) <;> cases h

theorem owned_init : Owned init where
  listed := fun _ name h => absurd h (not_lists_newControl "" name)
  distinct := fun _ => List.nodup_nil
  closing := nofun

section Updates

variable {s t : State} {c : Nat} {name : String} {k : Control}

variable (h : Owned s)

include h

theorem Owned.ne_of_lists {d : Nat} {name' : String}
    (hname : s.pxys name = none ∨ s.pxys name = some c) (hd : d ≠ c)
    (hlists : (s.ctl d).Lists name') : name' ≠ name := by
  rintro rfl
  have hpxys := h.listed d name' hlists
  rcases hname with hnone | hsome
  · rw [hnone] at hpxys
    cases hpxys
  · rw [hsome] at hpxys
    cases hpxys
    exact hd rfl

theorem Owned.update (hctl : t.ctl = Function.update s.ctl c k)
    (hself : ∀ name, k.Lists name → t.pxys name = some c)
    (hother : ∀ d name, d ≠ c → (s.ctl d).Lists name → t.pxys name = s.pxys name)
    (hopened : k.opened.Nodup)
    (hclosing : ∀ name, k.reader = .closing name → name ∉ k.proxies := by rintro _ ⟨⟩) :
    Owned t := by
  constructor
  · rw [hctl]
    intro d name
    by_cases hd : d = c
    · subst hd
      rw [Function.update_self]
      exact hself name
    · rw [Function.update_of_ne hd]
      intro hlists
      rw [hother d name hd hlists]
      exact h.listed d name hlists
  · rw [hctl]
    exact (Function.forall_update_iff s.ctl (p := fun _ k => k.opened.Nodup)).2
      ⟨hopened, fun d _ => h.distinct d⟩
  · rw [hctl]
    exact (Function.forall_update_iff s.ctl (p := fun _ k => ∀ name, k.reader = .closing name →
      name ∉ k.proxies)).2 ⟨hclosing, fun d _ => h.closing d⟩

theorem Owned.congr (hctl : t.ctl = s.ctl) (hpxys : t.pxys = s.pxys) : Owned t := by
  constructor
  · rw [hctl, hpxys]
    exact h.listed
  · rw [hctl]
    exact h.distinct
  · rw [hctl]
    exact h.closing

theorem Owned.keep (hctl : t.ctl = Function.update s.ctl c k)
    (hpxys : t.pxys = s.pxys) (hlists : ∀ name, k.Lists name → (s.ctl c).Lists name)
    (hclosing : ∀ name, k.reader = .closing name → name ∉ k.proxies)
    (hopened : k.opened = (s.ctl c).opened := by rfl) : Owned t := by
  refine h.update hctl ?_ ?_ ?_ hclosing
  · intro name hname
    rw [hpxys]
    exact h.listed c name (hlists name hname)
  · intro d name _ _
    rw [hpxys]
  · rw [hopened]
    exact h.distinct c

theorem Owned.setFlags (c : Nat) (hctl : t.ctl = Function.update s.ctl c k)
    (hpxys : t.pxys = s.pxys) (hk : (k.opened, k.proxies, k.reader, k.worker) =
      ((s.ctl c).opened, (s.ctl c).proxies, (s.ctl c).reader, (s.ctl c).worker) := by rfl) :
    Owned t := by
  obtain ⟨ho, hp, hr, hw⟩ : k.opened = (s.ctl c).opened ∧ k.proxies = (s.ctl c).proxies ∧
      k.reader = (s.ctl c).reader ∧ k.worker = (s.ctl c).worker := by
    simpa using hk
  refine h.keep hctl hpxys ?_ ?_ ho
  · intro name hname
    rwa [Control.Lists, hp, hr, hw] at hname
  · rw [hp, hr]
    exact h.closing c

theorem Owned.addProxy (hi : TeardownInv s) (hr : (s.ctl c).reader = .running name) :
    Owned (next s (.addProxy c name)) := by
  -- while the read loop runs, the worker has no proxies in hand
  have hrest := (WorkerPc.of_not_tearing ((hi.ctl c).not_tearing (by rw [hr]; rintro ⟨⟩))).2.1
  by_cases hfree : s.pxys name = none
  · rw [next, if_pos hfree]
    refine h.update rfl ?_ ?_ (h.distinct c)
    · rintro n (hp | hl | hw)
      · have hn := h.listed c n (.inl hp)
        have hne : n ≠ name := by
          rintro rfl
          rw [hfree] at hn
          cases hn
        exact (Function.update_of_ne hne _ _).trans hn
      · cases hl
        exact Function.update_self _ _ _
      · have hmem : n ∈ (s.ctl c).worker.rest := hw
        rw [hrest] at hmem
        cases hmem
    · intro d n hd hn
      exact Function.update_of_ne (h.ne_of_lists (.inl hfree) hd hn) _ _
  · rw [next, if_neg hfree]
    refine h.update rfl ?_ (fun _ _ _ _ => rfl) ((h.distinct c).filter _)
    rintro n (hp | hl | hw)
    · exact h.listed c n (.inl hp)
    · cases hl
    · exact h.listed c n (.inr (.inr hw))

theorem Owned.del (hname : (s.ctl c).Lists name)
    (hctl : t.ctl = Function.update s.ctl c k) (hpxys : t.pxys = Function.update s.pxys name none)
    (hlists : ∀ n, k.Lists n → (s.ctl c).Lists n ∧ n ≠ name)
    (hclosing : ∀ n, k.reader = .closing n → n ∉ k.proxies)
    (hopened : k.opened = (s.ctl c).opened.filter (· ≠ name) := by rfl) : Owned t := by
  refine h.update hctl ?_ ?_ ?_ hclosing
  · intro n hn
    obtain ⟨hold, hne⟩ := hlists n hn
    rw [hpxys, Function.update_of_ne hne]
    exact h.listed c n hold
  · intro d n hd hn
    rw [hpxys, Function.update_of_ne]
    exact h.ne_of_lists (.inr (h.listed c name hname)) hd hn
  · rw [hopened]
    exact (h.distinct c).filter _

theorem Owned.finishClose (hi : TeardownInv s) (hr : (s.ctl c).reader = .closing name) :
    Owned (next s (.finishClose c name)) := by
  have hrest := (WorkerPc.of_not_tearing ((hi.ctl c).not_tearing (by rw [hr]; rintro ⟨⟩))).2.1
  refine h.del (.inr (.inl (by rw [hr]; rfl))) rfl rfl ?_ nofun
  rintro n (hp | hl | hw)
  · refine ⟨.inl hp, ?_⟩
    rintro rfl
    exact h.closing c n hr hp
  · cases hl
  · have hmem : n ∈ (s.ctl c).worker.rest := hw
    rw [hrest] at hmem
    cases hmem

theorem Owned.workerClose (hi : TeardownInv s) {rest : List String}
    (hw : (s.ctl c).worker = .closingProxies rest) (hmem : name ∈ rest) :
    Owned (next s (.workerClose c rest name)) := by
  -- the worker has taken the map after the read loop ended, so the rest is all that is listed
  have hstop : (s.ctl c).reader = .stopped := hi.reader_stopped hw rfl
  have hempty : (s.ctl c).proxies = [] := (hi.ctl c).taken (by rw [hw]; rfl)
  refine h.del (.inr (.inr (by rw [hw]; exact hmem))) rfl rfl ?_ ?_
  · rintro n (hp | hl | hrest)
    · have hmem' : n ∈ (s.ctl c).proxies := hp
      rw [hempty] at hmem'
      cases hmem'
    · have hlists : (s.ctl c).reader.lists = some n := hl
      rw [hstop] at hlists
      cases hlists
    · obtain ⟨hn, hne⟩ := List.mem_filter.1 hrest
      exact ⟨.inr (.inr (by rw [hw]; exact hn)), of_decide_eq_true hne⟩
  · exact h.closing c

theorem Owned.work (hctl : t.ctl = Function.update s.ctl c k)
    (hpxys : t.pxys = s.pxys) (hrest : k.worker.rest = []) (hk : (k.opened, k.proxies, k.reader) =
      ((s.ctl c).opened, (s.ctl c).proxies, (s.ctl c).reader) := by rfl) : Owned t := by
  obtain ⟨ho, hp, hr⟩ : k.opened = (s.ctl c).opened ∧ k.proxies = (s.ctl c).proxies ∧
      k.reader = (s.ctl c).reader := by
    simpa using hk
  refine h.keep hctl hpxys ?_ ?_ ho
  · intro name hname
    rw [Control.Lists, hp, hr, hrest] at hname
    rcases hname with hmem | hlists | hnil
    · exact .inl hmem
    · exact .inr (.inl hlists)
    · cases hnil
  · rw [hp, hr]
    exact h.closing c

theorem Owned.start (c : Nat) (hctl : t.ctl = Function.update s.ctl c (s.ctl c).start)
    (hpxys : t.pxys = s.pxys) : Owned t := by
  unfold Control.start at hctl
  split_ifs at hctl
  · exact h.setFlags c hctl hpxys
  · refine h.keep hctl hpxys ?_ nofun
    rintro n (hp | hl | hw)
    · exact .inl hp
    · cases hl
    · cases hw

end Updates

variable {s : State}

theorem owned_next (h : Owned s) (hi : TeardownInv s) {a : Action} (hen : Enabled s a) :
    Owned (next s a) := by
  cases a with
  | login a =>
    refine h.update rfl ?_ (fun _ _ _ _ => rfl) List.nodup_nil
    exact fun name hname => absurd hname (not_lists_newControl _ name)
  | replaced _ old | closeOldConn _ old | closeOldDone _ old => exact h.setFlags old rfl rfl
  | conflictDel i | undoMark i => exact h.setFlags i rfl rfl
  | start i => exact h.start i rfl rfl
  | lockManager | store | wake | register | writeResp | undoDel | newClient | reap =>
    exact h.congr rfl rfl
  | connLost c => exact h.setFlags c rfl rfl
  | runProxy c name =>
    obtain ⟨hr, hfree⟩ := hen
    refine h.update rfl ?_ (fun _ _ _ _ => rfl) (List.nodup_cons.2 ⟨?_, h.distinct c⟩)
    · rintro n (hp | hl | hw)
      · exact h.listed c n (.inl hp)
      · cases hl
      · exact h.listed c n (.inr (.inr hw))
    · -- an open proxy of this name would still be in the proxy manager
      intro hopen
      have hname := h.listed c name (.inl ((hi.idle_cases hr).1 name hopen))
      rw [hfree] at hname
      cases hname
  | addProxy c name => exact h.addProxy hi hen
  | storeProxy c name =>
    -- the name moves from the hands of the read loop to the map
    have hr : (s.ctl c).reader = .adding name := hen
    refine h.keep rfl rfl ?_ nofun
    rintro n (hp | hl | hw)
    · rcases List.mem_cons.1 hp with rfl | hp
      · exact .inr (.inl (by rw [hr]; rfl))
      · exact .inl hp
    · cases hl
    · exact .inr (.inr hw)
  | closeProxy c name =>
    refine h.keep rfl rfl ?_ ?_
    · rintro n (hp | hl | hw)
      · exact .inl (List.mem_filter.1 hp).1
      · cases hl
        exact .inl hen.2
      · exact .inr (.inr hw)
    · rintro n ⟨⟩
      simp
  | finishClose c name => exact h.finishClose hi hen
  | readError c =>
    refine h.keep rfl rfl ?_ nofun
    rintro n (hp | hl | hw)
    · exact .inl hp
    · cases hl
    · exact .inr (.inr hw)
  | workerWake c | closeClient c | readRunID c | markOffline c | closeDone c =>
    exact h.work rfl rfl rfl
  | takeProxies c =>
    -- the names move from the map to the hands of the worker
    refine h.keep rfl rfl ?_ fun _ _ => List.not_mem_nil
    rintro n (hp | hl | hw)
    · cases hp
    · exact .inr (.inl hl)
    · exact .inl hw
  | workerClose c rest name => exact h.workerClose hi hen.1 hen.2

/-- In every run the proxy manager has exactly what the controls list. -/
theorem owned_of_reach {ok : State → Action → Prop} (h : Reach step ok init s) :
    Owned s ∧ TeardownInv s := by
  refine invariant_of_next (P := fun s => Owned s ∧ TeardownInv s) ⟨owned_init, teardownInv_init⟩
    ?_ h
  rintro u a ⟨hown, hinv⟩ _ hen
  exact ⟨owned_next hown hinv hen, teardownInv_next hinv hen⟩

/-! ## Between the operations -/

def ReaderPc.resting : ReaderPc → Bool
  | .absent | .idle | .stopped => true
  | _ => false

def WorkerPc.resting : WorkerPc → Bool
  | .absent | .serving | .finished => true
  | _ => false

def Settled (s : State) : Prop :=
  ∀ c, (s.ctl c).reader.resting = true ∧ (s.ctl c).worker.resting = true

theorem Control.lists_iff_of_resting {k : Control} (hr : k.reader.resting = true)
    (hw : k.worker.resting = true) (name : String) : k.Lists name ↔ name ∈ k.proxies := by
  constructor
  · rintro (hp | hl | hrest)
    · exact hp
    · cases hk : k.reader <;> rw [hk] at hl hr <;> first | (cases hr; done) | cases hl
    · cases hk : k.worker <;> rw [hk] at hrest hw <;> first | (cases hw; done) | cases hrest
  · exact .inl

theorem proxies_partition (s : State) (hreach : Reach step anyAction init s) :
    (∀ name c d, (s.ctl c).Lists name → (s.ctl d).Lists name → c = d) ∧
      (∀ c, (s.ctl c).opened.Nodup) ∧
      (Settled s → ∀ name c, s.pxys name = some c ↔
        (s.ctl c).worker ≠ .finished ∧ name ∈ (s.ctl c).proxies) := by
  obtain ⟨hown, hinv⟩ := owned_of_reach hreach
  refine ⟨?_, hown.distinct, ?_⟩
  · intro name c d hc hd
    have hname := hown.listed c name hc
    rw [hown.listed d name hd] at hname
    exact (Option.some.inj hname).symm
  · intro hset name c
    rw [← Control.lists_iff_of_resting (hset c).1 (hset c).2]
    constructor
    · intro hname
      have hlists := hinv.pxys name c hname
      exact ⟨fun hf => (hinv.ctl c).not_tracks hf name hlists.tracks, hlists⟩
    · exact fun hname => hown.listed c name hname.2

theorem settled_of_lt (hinv : TeardownInv s)
    (h : ∀ c < s.next, (s.ctl c).reader.resting = true ∧ (s.ctl c).worker.resting = true) :
    Settled s := by
  intro c
  by_cases hc : c < s.next
  · exact h c hc
  · have hns : (s.ctl c).started = false := hinv.starting c (by rw [hinv.absent c (by omega)]; rfl)
    obtain ⟨hr, hw, -⟩ := (hinv.ctl c).unstarted hns
    rw [hr, hw]
    exact ⟨rfl, rfl⟩

def raceRun : List Action :=
  [.login ⟨"", "", "a", "r0", "", "", ""⟩, .lockManager 0 none, .store 0 none, .register 0 1,
    .writeResp 0 true, .start 0,
    .login ⟨"", "", "b", "r1", "", "", ""⟩, .lockManager 1 none, .store 1 none, .register 1 2,
    .writeResp 1 true, .start 1,
    .runProxy 0 "web", .runProxy 1 "web", .addProxy 0 "web", .addProxy 1 "web", .storeProxy 0 "web",
    .runProxy 1 "ssh", .addProxy 1 "ssh", .storeProxy 1 "ssh"]

theorem proxies_partition_raceRun :
    let s := (run step anyAction init raceRun).getD init
    Settled s ∧ s.pxys "web" = some 0 ∧ s.pxys "ssh" = some 1 := by
  intro s
  have hreach : Reach step anyAction init s := reach_getD_of_isSome (by decide +kernel)
  have hset : Settled s := settled_of_lt (teardownInv_of_reach hreach) (by decide +kernel)
  refine ⟨hset, ((proxies_partition s hreach).2.2 hset "web" 0).2 ?_,
    ((proxies_partition s hreach).2.2 hset "ssh" 1).2 ?_⟩ <;> decide +kernel

end FrpMeo.Server.Session
