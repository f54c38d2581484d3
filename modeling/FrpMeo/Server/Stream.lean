import Mathlib.Tactic

/-!
# Streams around work connections

The server wraps a work connection in encryption, compression and a bandwidth limiter
(`handleUserTCPConnection`, `UDPProxy.Run`, `HTTPProxy.GetRealConn`). The limiter's close function
refers to the variable that holds the stream, so the model has a heap of objects; by the time it
runs, that is the limited stream itself. The client's close function is over the connection.
-/

namespace FrpMeo.Server.Stream

open Function

/-! ## Objects and Close -/

inductive CloseFn where
  /-- `func() error { return rwc.Close() }`, where `rwc` is the variable of the stream. -/
  | closeVar
  /-- `func() error { return conn.Close() }`, where `conn` is not assigned again. -/
  | closeConn (conn : Nat)

inductive Obj where
  | workConn
  /-- `libio.WithEncryption`. -/
  | encryption (rwc : Nat)
  /-- `libio.WithCompression`, `libio.WithCompressionFromPool`. -/
  | compression (rwc : Nat)
  /-- `limit.NewReader`; it has no `Close`. -/
  | limitReader (r : Nat)
  /-- `limit.NewWriter`; it has no `Close`. -/
  | limitWriter (w : Nat)
  /-- `libio.WrapReadWriteCloser`. -/
  | readWriteCloser (r w : Nat) (closeFn : CloseFn)
  /-- `WrapReadWriteCloserToConn`; its `Close` is that of the embedded stream. -/
  | wrapConn (rwc : Nat)
  /-- `WrapStatsConn`. -/
  | statsConn (conn : Nat)

def Obj.isCloser : Obj → Bool
  | .limitReader _ | .limitWriter _ => false
  | _ => true

/-- The objects, what is marked closed, and the variable `local` or `rwc` of the stream. -/
structure Heap where
  objs : List Obj
  closed : Nat → Bool
  var : Nat

def Heap.mark (h : Heap) (i : Nat) : Heap := { h with closed := update h.closed i true }

def Heap.isCloser (h : Heap) (i : Nat) : Bool := (h.objs[i]?.map Obj.isCloser).getD false

def CloseFn.target (h : Heap) : CloseFn → Nat
  | .closeVar => h.var
  | .closeConn conn => conn

/-- `Close` of object `i`; `none` when the fuel is used up. -/
def close : Nat → Heap → Nat → Option Heap
  | 0, _, _ => none
  | n + 1, h, i =>
      match h.objs[i]? with
      | none => some h
      | some .workConn => some (h.mark i)
      | some (.encryption rwc) | some (.compression rwc) | some (.wrapConn rwc) => close n h rwc
      | some (.limitReader _) | some (.limitWriter _) => some h
      | some (.readWriteCloser r w closeFn) =>
          -- the mark comes first, so that a `Close` from inside `closeFn` returns at once
          if h.closed i then some h
          else do
            let h := h.mark i
            let h ← if h.isCloser r then close n h r else some h
            let h ← if h.isCloser w then close n h w else some h
            close n h (closeFn.target h)
      | some (.statsConn conn) => if h.closed i then some h else close n (h.mark i) conn

/-! ## How the server builds a stream -/

structure Transport where
  useEncryption : Bool
  useCompression : Bool
  bandwidthLimit : Int
  bandwidthLimitMode : String

def bandwidthLimitModeServer : String := "server"

def Transport.hasLimiter (t : Transport) : Bool :=
  0 < t.bandwidthLimit && t.bandwidthLimitMode = bandwidthLimitModeServer

def Heap.assign (h : Heap) (o : Obj) : Heap :=
  { h with objs := h.objs ++ [o], var := h.objs.length }

def Heap.withEncryption (h : Heap) : Heap := h.assign (.encryption h.var)

def Heap.withCompression (h : Heap) : Heap := h.assign (.compression h.var)

/-- `WrapReadWriteCloser(limit.NewReader(rwc, l), limit.NewWriter(rwc, l), closeFn)`, assigned to
the variable. -/
def Heap.withLimiter (h : Heap) (closeFn : CloseFn) : Heap :=
  { h with
    objs := h.objs ++ [.limitReader h.var, .limitWriter h.var,
      .readWriteCloser h.objs.length (h.objs.length + 1) closeFn]
    var := h.objs.length + 2 }

def workConnID : Nat := 0

def newHeap : Heap := ⟨[.workConn], fun _ => false, workConnID⟩

inductive Path where
  | tcp
  | udp
  | http

/-- The stream a path hands on, built around the variable. -/
def Path.finish (h : Heap) : Path → Heap × Nat
  | .tcp => (h, h.var)
  -- the wrapper is a new variable: `closeFn` does not see it
  | .udp => ({ h with objs := h.objs ++ [.wrapConn h.var] }, h.objs.length)
  | .http =>
      ({ h with objs := h.objs ++ [.wrapConn h.var, .statsConn h.objs.length] }, h.objs.length + 1)

def encode (t : Transport) (h : Heap) : Heap :=
  let h := if t.useEncryption then h.withEncryption else h
  if t.useCompression then h.withCompression else h

def wrap (t : Transport) (h : Heap) : Heap :=
  let h := encode t h
  if t.hasLimiter then h.withLimiter .closeVar else h

/-- The stream of a path; none when `WithEncryption` fails, and the work connection is closed. -/
def buildStream (p : Path) (t : Transport) (encErr : Bool) : Except Heap (Heap × Nat) :=
  if t.useEncryption && encErr then .error (newHeap.mark workConnID)
  else .ok (p.finish (wrap t newHeap))

/-! ## Forwarding -/

def Forwards (h : Heap) (a b : Nat) : Prop :=
  h.objs[a]? = some (.encryption b) ∨ h.objs[a]? = some (.compression b) ∨
    h.objs[a]? = some (.wrapConn b)

/-- Closing `s` returns and leaves the work connection closed. -/
def Closes (h : Heap) (s : Nat) : Prop :=
  ∃ n h', close n h s = some h' ∧ h'.closed workConnID = true

variable {h : Heap} {a b : Nat}

theorem close_of_forwards (hf : Forwards h a b) (n : Nat) : close (n + 1) h a = close n h b := by
  rcases hf with ha | ha | ha <;> simp [close, ha]

theorem closes_of_forwards (hf : Forwards h a b) : Closes h a ↔ Closes h b := by
  constructor
  · rintro ⟨n, h', hc, hw⟩
    cases n with
    | zero => cases hc
    | succ n =>
      rw [close_of_forwards hf] at hc
      exact ⟨n, h', hc, hw⟩
  · rintro ⟨n, h', hc, hw⟩
    exact ⟨n + 1, h', by rw [close_of_forwards hf, hc], hw⟩

theorem closes_of_chain (hc : Relation.ReflTransGen (Forwards h) a b) :
    Closes h a ↔ Closes h b := by
  induction hc with
  | refl => exact Iff.rfl
  | tail _ hf ih => exact ih.trans (closes_of_forwards hf)

theorem closes_workConn (hw : h.objs[workConnID]? = some .workConn) : Closes h workConnID := by
  refine ⟨1, h.mark workConnID, ?_, ?_⟩
  · simp [close, hw]
  · simp [Heap.mark]

theorem closes_statsConn {s conn : Nat} (hs : h.objs[s]? = some (.statsConn conn))
    (hopen : h.closed s = false) : Closes h s ↔ Closes (h.mark s) conn := by
  have hclose : ∀ n, close (n + 1) h s = close n (h.mark s) conn := by
    intro n
    simp [close, hs, hopen]
  constructor
  · rintro ⟨n, h', hc, hw⟩
    cases n with
    | zero => cases hc
    | succ n =>
      rw [hclose] at hc
      exact ⟨n, h', hc, hw⟩
  · rintro ⟨n, h', hc, hw⟩
    exact ⟨n + 1, h', by rw [hclose, hc], hw⟩

/-! ## The two outcomes -/

/-- The variable leads to the work connection. -/
structure Reaches (h : Heap) : Prop where
  workConn : h.objs[workConnID]? = some .workConn
  chain : Relation.ReflTransGen (Forwards h) h.var workConnID

/-- The variable holds a limited stream whose close function closes the variable. -/
structure Sealed (h : Heap) : Prop where
  stream : ∃ r w a b, h.objs[h.var]? = some (.readWriteCloser r w .closeVar) ∧
    h.objs[r]? = some (.limitReader a) ∧ h.objs[w]? = some (.limitWriter b)
  var_open : h.closed h.var = false
  conn_open : h.closed workConnID = false
  var_ne : h.var ≠ workConnID

theorem Reaches.closes (hr : Reaches h) : Closes h h.var :=
  (closes_of_chain hr.chain).2 (closes_workConn hr.workConn)

theorem Sealed.not_closes (hs : Sealed h) : ¬ Closes h h.var := by
  obtain ⟨r, w, a, b, hv, hr, hw⟩ := hs.stream
  have hmark : (h.mark h.var).closed workConnID = false := by
    change update h.closed h.var true workConnID = false
    rw [update_of_ne (Ne.symm hs.var_ne)]
    exact hs.conn_open
  have hclose : ∀ n, close (n + 1) h h.var = close n (h.mark h.var) h.var := by
    intro n
    simp [close, hv, hs.var_open, Heap.isCloser, Heap.mark, hr, hw, Obj.isCloser, CloseFn.target]
  rintro ⟨n, h', hc, hconn⟩
  -- one level of fuel for the stream and one for the call of its close function
  match n with
  | 0 => cases hc
  | 1 =>
    rw [hclose] at hc
    cases hc
  | n + 2 =>
    -- the inner call returns at once
    have hinner : close (n + 1) (h.mark h.var) h.var = some (h.mark h.var) := by
      simp [close, Heap.mark, hv]
    rw [hclose, hinner] at hc
    cases hc
    rw [hmark] at hconn
    cases hconn

section Extend

variable {h' : Heap} {os : List Obj}

section

variable (he : h'.objs = h.objs ++ os)

include he

theorem getElem?_extend {i : Nat} {o : Obj} (ho : h.objs[i]? = some o) : h'.objs[i]? = some o := by
  obtain ⟨hi, -⟩ := List.getElem?_eq_some_iff.1 ho
  rw [he, List.getElem?_append_left hi, ho]

theorem Forwards.extend (hf : Forwards h a b) : Forwards h' a b := by
  rcases hf with ha | ha | ha
  · exact .inl (getElem?_extend he ha)
  · exact .inr (.inl (getElem?_extend he ha))
  · exact .inr (.inr (getElem?_extend he ha))

theorem chain_extend
    (hc : Relation.ReflTransGen (Forwards h) a b) : Relation.ReflTransGen (Forwards h') a b :=
  hc.lift id fun _ _ hf => hf.extend he

theorem Reaches.extend (hv : h'.var = h.var) (hr : Reaches h) : Reaches h' :=
  ⟨getElem?_extend he hr.workConn, by rw [hv]; exact chain_extend he hr.chain⟩

theorem Sealed.extend (hv : h'.var = h.var)
    (hopen : h'.closed h.var = false) (hconn : h'.closed workConnID = false) (hs : Sealed h) :
    Sealed h' := by
  obtain ⟨r, w, a, b, hvar, hr, hw⟩ := hs.stream
  refine ⟨⟨r, w, a, b, ?_, getElem?_extend he hr, getElem?_extend he hw⟩, ?_, hconn, ?_⟩
  · rw [hv]
    exact getElem?_extend he hvar
  · rw [hv]
    exact hopen
  · rw [hv]
    exact hs.var_ne

end

theorem chain_assign (h : Heap) {o : Obj} (ho : o = .encryption h.var ∨ o = .compression h.var) :
    Relation.ReflTransGen (Forwards (h.assign o)) (h.assign o).var h.var := by
  have hself : (h.assign o).objs[h.objs.length]? = some o := by simp [Heap.assign]
  refine Relation.ReflTransGen.single ?_
  rcases ho with rfl | rfl
  · exact .inl hself
  · exact .inr (.inl hself)

end Extend

/-! ## The server's streams -/

theorem newHeap_reaches : Reaches newHeap := ⟨rfl, Relation.ReflTransGen.refl⟩

theorem encode_chain (t : Transport) (h : Heap) : (∃ os, (encode t h).objs = h.objs ++ os) ∧
      Relation.ReflTransGen (Forwards (encode t h)) (encode t h).var h.var := by
  unfold encode
  cases t.useEncryption <;> cases t.useCompression
  · exact ⟨⟨[], (List.append_nil _).symm⟩, Relation.ReflTransGen.refl⟩
  · exact ⟨⟨_, rfl⟩, chain_assign h (.inr rfl)⟩
  · exact ⟨⟨_, rfl⟩, chain_assign h (.inl rfl)⟩
  · -- compression around encryption: two links
    refine ⟨⟨_, List.append_assoc ..⟩, ?_⟩
    have hcomp := chain_assign h.withEncryption (.inr rfl)
    exact hcomp.trans (chain_extend rfl (chain_assign h (.inl rfl)))

theorem Reaches.encode (hr : Reaches h) (t : Transport) : Reaches (encode t h) := by
  obtain ⟨⟨os, hos⟩, hchain⟩ := encode_chain t h
  exact ⟨getElem?_extend hos hr.workConn, hchain.trans (chain_extend hos hr.chain)⟩

theorem sealed_withLimiter (hr : Reaches h) (hopen : ∀ i, h.closed i = false) :
    Sealed (h.withLimiter .closeVar) := by
  obtain ⟨hlen, -⟩ := List.getElem?_eq_some_iff.1 hr.workConn
  refine ⟨⟨h.objs.length, h.objs.length + 1, h.var, h.var, ?_, ?_, ?_⟩, hopen _, hopen _, ?_⟩
  · simp [Heap.withLimiter]
  · simp [Heap.withLimiter]
  · simp [Heap.withLimiter]
  · change h.objs.length + 2 ≠ workConnID
    rw [workConnID]
    omega

theorem encode_closed (t : Transport) (h : Heap) : (encode t h).closed = h.closed := by
  unfold encode
  split_ifs <;> rfl

theorem wrap_closed (t : Transport) : (wrap t h).closed = h.closed := by
  rw [← encode_closed t h]
  unfold wrap
  split_ifs <;> rfl

variable {t : Transport}

theorem wrap_reaches (hl : t.hasLimiter = false) : Reaches (wrap t newHeap) := by
  have hr := newHeap_reaches.encode t
  simp only [wrap, hl]
  exact hr

theorem wrap_sealed (hl : t.hasLimiter = true) : Sealed (wrap t newHeap) := by
  have hs := sealed_withLimiter (newHeap_reaches.encode t)
    (by rw [encode_closed]; exact fun _ => rfl)
  simp only [wrap, hl]
  exact hs

theorem closes_finish (p : Path) (hopen : ∀ i, h.closed i = false) :
    (Reaches h → Closes (p.finish h).1 (p.finish h).2) ∧
      (Sealed h → ¬ Closes (p.finish h).1 (p.finish h).2) := by
  cases p with
  | tcp => exact ⟨Reaches.closes, Sealed.not_closes⟩
  | udp =>
    have hf : Forwards (Path.udp.finish h).1 h.objs.length h.var :=
      .inr (.inr (by simp [Path.finish]))
    constructor
    · intro hr
      have hr' : Reaches (Path.udp.finish h).1 := hr.extend rfl rfl
      exact (closes_of_forwards hf).2 hr'.closes
    · intro hs hc
      have hs' : Sealed (Path.udp.finish h).1 := hs.extend rfl rfl (hopen _) (hopen _)
      exact hs'.not_closes ((closes_of_forwards hf).1 hc)
  | http =>
    have hstats : (Path.http.finish h).1.objs[h.objs.length + 1]? =
        some (.statsConn h.objs.length) := by
      simp [Path.finish]
    have hf : Forwards ((Path.http.finish h).1.mark (h.objs.length + 1)) h.objs.length h.var :=
      .inr (.inr (by simp [Path.finish, Heap.mark]))
    have hiff := (closes_statsConn hstats (hopen _)).trans (closes_of_forwards hf)
    constructor
    · intro hr
      have hr' : Reaches ((Path.http.finish h).1.mark (h.objs.length + 1)) := hr.extend rfl rfl
      exact hiff.2 hr'.closes
    · intro hs hc
      obtain ⟨r, w, a, b, hv, -⟩ := hs.stream
      obtain ⟨hlt, -⟩ := List.getElem?_eq_some_iff.1 hv
      -- only the statistics wrapper has been marked
      have hmark : ∀ i, i ≠ h.objs.length + 1 →
          ((Path.http.finish h).1.mark (h.objs.length + 1)).closed i = false := by
        intro i hi
        change update h.closed _ true i = false
        rw [update_of_ne hi]
        exact hopen i
      have hs' : Sealed ((Path.http.finish h).1.mark (h.objs.length + 1)) :=
        hs.extend rfl rfl (hmark _ (by omega)) (hmark _ (by rw [workConnID]; omega))
      exact hs'.not_closes (hiff.1 hc)

def ClosesWorkConn (p : Path) (t : Transport) : Prop :=
  ∀ encErr h s, buildStream p t encErr = .ok (h, s) → Closes h s

/-- The stream closes the work connection exactly when there is no server-side limiter. -/
theorem closesWorkConn_iff (p : Path) (t : Transport) :
    ClosesWorkConn p t ↔ t.hasLimiter = false := by
  have hopen : ∀ i, (wrap t newHeap).closed i = false := by
    intro i
    rw [wrap_closed]
    rfl
  obtain ⟨hreach, hseal⟩ := closes_finish p hopen
  constructor
  · intro hc
    cases hl : t.hasLimiter with
    | false => rfl
    | true =>
      have hb : buildStream p t false = .ok (p.finish (wrap t newHeap)) := by simp [buildStream]
      exact absurd (hc false _ _ hb) (hseal (wrap_sealed hl))
  · intro hl encErr h s hb
    unfold buildStream at hb
    split_ifs at hb
    have hfin := Except.ok.inj hb
    rw [show h = (p.finish (wrap t newHeap)).1 by rw [hfin],
      show s = (p.finish (wrap t newHeap)).2 by rw [hfin]]
    exact hreach (wrap_reaches hl)

/-- A TCP proxy with a server-side limit of one byte a second. -/
theorem limited_stream_keeps_workConn : ¬ ClosesWorkConn .tcp ⟨false, false, 1, "server"⟩ := by
  intro hc
  obtain ⟨n, h', hclose, hconn⟩ := hc false _ _ rfl
  match n with
  | 0 => cases hclose
  | 1 => cases hclose
  | n + 2 =>
    cases hclose
    cases hconn

/-! ## The client's streams -/

/-- `wrapWorkConn` of the client: the limiter is innermost, with a close function over `conn`. -/
def clientWrap (t : Transport) (limiter : Bool) (h : Heap) : Heap :=
  encode t (if limiter then h.withLimiter (.closeConn h.var) else h)

/-- The client's limiter closes the connection it wraps, whatever is built around it. -/
theorem closes_clientLimiter {os : List Obj}
    (hos : h.objs = (newHeap.withLimiter (.closeConn workConnID)).objs ++ os)
    (hopen : ∀ i, h.closed i = false) : Closes h 3 := by
  refine ⟨2, (h.mark 3).mark workConnID, ?_, ?_⟩
  · simp [close, hos, newHeap, Heap.withLimiter, hopen, Heap.isCloser, Heap.mark, Obj.isCloser,
      CloseFn.target, workConnID]
  · exact update_self (f := (h.mark 3).closed) workConnID true

end FrpMeo.Server.Stream
