import FrpMeo.Lib.Transition
import FrpMeo.Vhost.Group
import Mathlib.Data.List.Rotate

/-!
# Round robin under concurrent picks

`chooseEndpoint` and `createConn` of an HTTP group (`server/group/http.go`) add one to an atomic
counter and take the member at the new value modulo the number of members. As many picks as there
are members hit each once, in whatever order they read (`picks_each_once`).
-/

namespace FrpMeo.Vhost.RoundRobin

open Lib Lib.Bytes Lib.Transition

/-- A call of `createConn` (`direct`) or of `chooseEndpoint`. -/
structure Call where
  direct : Bool
  newIndex : UInt64
  /-- The member at the index, once the call has read the members. -/
  picked : Option (Bytes × ConnFn)

structure State where
  index : UInt64
  calls : List Call

inductive Action where
  /-- `index.Add(1)`. -/
  | add (direct : Bool)
  /-- The call reads the members under the lock. -/
  | read (c : Nat)

def step (gr : Group) (s : State) : Action → Option State
  | .add direct => some ⟨s.index + 1, s.calls ++ [⟨direct, s.index + 1, none⟩]⟩
  | .read c => s.calls[c]?.map fun call => { s with calls := s.calls.set c { call with
      picked := gr.members[call.newIndex.toNat % gr.members.length]? } }

structure Inv (gr : Group) (s : State) : Prop where
  index : s.index = gr.index + UInt64.ofNat s.calls.length
  tickets : ∀ c call, s.calls[c]? = some call → call.newIndex = gr.index + UInt64.ofNat (c + 1) ∧
    ∀ m, call.picked = some m → gr.members[call.newIndex.toNat % gr.members.length]? = some m

theorem inv_step {gr : Group} {s t : State} {a : Action} (h : Inv gr s)
    (hstep : step gr s a = some t) : Inv gr t := by
  cases a with
  | add direct =>
    cases hstep
    have hnext : s.index + 1 = gr.index + UInt64.ofNat (s.calls.length + 1) := by
      rw [h.index, UInt64.ofNat_add, UInt64.add_assoc]
      rfl
    refine ⟨by simpa using hnext, fun c call hc => ?_⟩
    rcases Nat.lt_trichotomy c s.calls.length with hlt | rfl | hgt
    · rw [List.getElem?_append_left hlt] at hc
      exact h.tickets c call hc
    · simp only [List.getElem?_concat_length, Option.some.injEq] at hc
      subst hc
      exact ⟨hnext, nofun⟩
    · have hbound := (List.getElem?_eq_some_iff.1 hc).1
      simp only [List.length_append, List.length_singleton] at hbound
      omega
  | read c =>
    obtain ⟨call, hcall, rfl⟩ := Option.map_eq_some_iff.1 hstep
    refine ⟨by simpa using h.index, fun c' call' hc' => ?_⟩
    by_cases hc : c = c'
    · subst hc
      rw [List.getElem?_set_self (List.getElem?_eq_some_iff.1 hcall).1] at hc'
      cases hc'
      exact ⟨(h.tickets c call hcall).1, fun _ => id⟩
    · rw [List.getElem?_set_ne hc] at hc'
      exact h.tickets c' call' hc'

/-- In a group that does not change, while the counter does not wrap, as many consecutive picks as
there are members pick each exactly once. -/
theorem picks_each_once (gr : Group) (s : State) (h : Reach (step gr) anyAction ⟨gr.index, []⟩ s)
    (hwrap : gr.index.toNat + s.calls.length < 2 ^ 64) (a : Nat)
    (hread : ∀ call ∈ (s.calls.drop a).take gr.members.length, call.picked.isSome = true)
    (hlen : a + gr.members.length ≤ s.calls.length) :
    (((s.calls.drop a).take gr.members.length).map Call.picked).Perm (gr.members.map some) := by
  have hinv : Inv gr s := by
    refine invariant_of_reach ⟨?_, ?_⟩ (fun _ _ _ hi _ => inv_step hi) h
    · simp
    · simp
  -- the window is the list of the members from some place on, round to that place
  have hrotate : ((s.calls.drop a).take gr.members.length).map Call.picked =
      (gr.members.rotate (gr.index.toNat + 1 + a)).map some := by
    refine List.ext_getElem (by simp; omega) fun j hj _ => ?_
    rw [List.length_map] at hj
    have hlt : a + j < s.calls.length := by simp at hj; omega
    obtain ⟨hticket, hpicked⟩ := hinv.tickets (a + j) _ (List.getElem?_eq_getElem hlt)
    have hindex : s.calls[a + j].newIndex.toNat = j + (gr.index.toNat + 1 + a) := by
      rw [hticket, UInt64.toNat_add, UInt64.toNat_ofNat']
      omega
    have hsome := hread _ (List.getElem_mem hj)
    rw [List.getElem_take, List.getElem_drop] at hsome
    obtain ⟨m, hm⟩ := Option.isSome_iff_exists.1 hsome
    have hat := hpicked m hm
    rw [hindex] at hat
    simp [List.getElem_rotate, hm, (List.getElem?_eq_some_iff.1 hat).2]
  rw [hrotate]
  exact (List.rotate_perm _ _).map some

def pairGroup : Group :=
  ⟨[], [], [], [], [], [([97], ⟨0, [], []⟩), ([98], ⟨1, [], []⟩)], by decide, 7⟩

theorem picks_each_once_pairGroup :
    let s := (run (step pairGroup) anyAction ⟨7, []⟩
      [.add true, .add false, .read 1, .read 0]).getD ⟨7, []⟩
    s.calls.map Call.newIndex = [8, 9] ∧
      (((s.calls.drop 0).take 2).map Call.picked).Perm (pairGroup.members.map some) := by
  intro s
  have hreach : Reach (step pairGroup) anyAction ⟨7, []⟩ s :=
    reach_getD_of_isSome (by decide +kernel)
  refine ⟨by decide +kernel, ?_⟩
  exact picks_each_once pairGroup s hreach (by decide +kernel) 0 (by decide +kernel)
    (by decide +kernel)

end FrpMeo.Vhost.RoundRobin
