import Mathlib.Tactic

/-!
# Visitors with a TCP and a UDP listener

`Run` of `stcp+sudp` and `xtcp+xudp` visitors (`client/visitor/stcpsudp.go`, `xtcpxudp.go`) opens a
TCP listener and then a UDP socket on the same address. If the socket fails, the listener stays open
without a reference, and every later attempt of the manager fails on it.
-/

namespace FrpMeo.Client.VisitorPorts

inductive Kind where
  | stcpSudp
  | xtcpXudp

def Kind.label : Kind → String
  | .stcpSudp => "stcp+sudp"
  | .xtcpXudp => "xtcpxudp"

/-- What an attempt meets: ports of other programs, the answer of `ResolveUDPAddr`, and the error of
the call that fails. -/
structure Env where
  tcpTaken : Bool
  udpTaken : Bool
  resolves : Bool
  addr : String
  err : String

/-- What the client has open on `BindAddr:BindPort`; `loops` are those started for it. -/
structure Open where
  tcp : Bool
  udp : Bool
  loops : Nat
  deriving DecidableEq

def Open.nothing : Open := ⟨false, false, 0⟩

def run (kind : Kind) (bindPort : Int) (env : Env) (o : Open) : Open × Option String :=
  if bindPort ≤ 0 then (o, none)
  else if env.tcpTaken || o.tcp then (o, some env.err)
  else
    -- the accept loop runs before the socket is opened
    let o := { o with tcp := true, loops := o.loops + 1 }
    if !env.resolves then (o, some (kind.label ++ " ResolveUDPAddr error: " ++ env.err))
    else if env.udpTaken || o.udp then
      (o, some (kind.label ++ " listen udp port " ++ env.addr ++ " error: " ++ env.err))
    else ({ o with udp := true, loops := o.loops + 2 }, none)

structure State where
  opened : Open
  running : Bool
  deriving DecidableEq

def init : State := ⟨.nothing, false⟩

def keepRound (kind : Kind) (bindPort : Int) (s : State) (env : Env) : State :=
  if s.running then s
  else ⟨(run kind bindPort env s.opened).1, (run kind bindPort env s.opened).2.isNone⟩

def Env.Free (env : Env) : Prop := env.tcpTaken = false ∧ env.udpTaken = false ∧ env.resolves = true

variable {kind : Kind} {bindPort : Int} {s : State} {env : Env}

/-- A visitor that does not run: its TCP listener is left if an attempt got past it. -/
structure Left (passed : Prop) (s : State) : Prop where
  stopped : s.running = false
  clean : ¬ passed → s.opened = .nothing
  listener : passed → s.opened.tcp = true

/-- The client's own listener refuses every attempt. -/
theorem run_of_tcp (hport : 0 < bindPort) {o : Open} (h : (env.tcpTaken || o.tcp) = true) :
    run kind bindPort env o = (o, some env.err) := by
  rw [run, if_neg (by omega), if_pos h]

theorem Left.keepRound {passed : Prop} (h : Left passed s) (hport : 0 < bindPort)
    (hstop : (keepRound kind bindPort s env).running = false) :
    Left (passed ∨ env.tcpTaken = false) (keepRound kind bindPort s env) := by
  refine ⟨hstop, fun hnot => ?_, fun hor => ?_⟩ <;>
    simp only [VisitorPorts.keepRound, h.stopped, Bool.false_eq_true, if_false]
  · rw [not_or, Bool.not_eq_false] at hnot
    rw [run_of_tcp hport (by simp [hnot.2]), h.clean hnot.1]
  · by_cases hpassed : passed
    · rw [run_of_tcp hport (by simp [h.listener hpassed])]
      exact h.listener hpassed
    · have hfree := hor.resolve_left hpassed
      have hport' : ¬ bindPort ≤ 0 := by omega
      rw [run, if_neg hport', h.clean hpassed, if_neg (by simp [hfree, Open.nothing])]
      dsimp only
      split_ifs <;> rfl

theorem left_foldl (hport : 0 < bindPort) (envs : List Env)
    (hstop : (envs.foldl (keepRound kind bindPort) init).running = false) :
    Left (∃ env ∈ envs, env.tcpTaken = false) (envs.foldl (keepRound kind bindPort) init) := by
  induction envs using List.reverseRecOn with
  | nil => exact ⟨rfl, fun _ => rfl, by simp⟩
  | append_singleton envs env ih =>
    rw [List.foldl_concat] at hstop ⊢
    have hbefore : (envs.foldl (keepRound kind bindPort) init).running = false := by
      by_contra hrun
      rw [keepRound, if_pos (by simpa using hrun)] at hstop
      exact hrun hstop
    simpa [or_and_right, exists_or] using (ih hbefore).keepRound hport hstop

/-- After failed attempts the client has nothing open and no loop running iff all of them failed at
the TCP listener; exactly then an attempt that meets free ports starts the visitor. -/
theorem failed_runs_clean_iff (kind : Kind) (bindPort : Int) (hport : 0 < bindPort)
    (envs : List Env) (hstop : (envs.foldl (keepRound kind bindPort) init).running = false)
    (env : Env) (hfree : env.Free) :
    ((envs.foldl (keepRound kind bindPort) init).opened = .nothing ↔
      ∀ env ∈ envs, env.tcpTaken = true) ∧
    ((keepRound kind bindPort (envs.foldl (keepRound kind bindPort) init) env).running = true ↔
      ∀ env ∈ envs, env.tcpTaken = true) := by
  have hall : (∀ env ∈ envs, env.tcpTaken = true) ↔ ¬ ∃ env ∈ envs, env.tcpTaken = false := by
    simp
  have hleft := left_foldl hport envs hstop
  rw [hall]
  refine ⟨⟨fun hopen hpassed => ?_, hleft.clean⟩, fun hrun hpassed => ?_, fun hnot => ?_⟩
  · have htcp := hleft.listener hpassed
    rw [hopen] at htcp
    cases htcp
  · rw [keepRound, hleft.stopped, if_neg (by decide),
      run_of_tcp hport (by simp [hleft.listener hpassed])] at hrun
    cases hrun
  · obtain ⟨ht, hu, hr⟩ := hfree
    have hport' : ¬ bindPort ≤ 0 := by omega
    simp [keepRound, hleft.stopped, hleft.clean hnot, run, hport', ht, hu, hr, Open.nothing]

def taken (tcp udp : Bool) : Env := ⟨tcp, udp, true, "127.0.0.1:6000", "address already in use"⟩

theorem failed_runs_clean_iff_tcp :
    (keepRound .stcpSudp 6000 init (taken true false)).opened = .nothing ∧
      (keepRound .stcpSudp 6000 (keepRound .stcpSudp 6000 init (taken true false))
        (taken false false)).running = true := by
  have hiff := failed_runs_clean_iff .stcpSudp 6000 (by decide) [taken true false]
    (by decide +kernel) (taken false false) ⟨rfl, rfl, rfl⟩
  exact ⟨hiff.1.2 (by simp [taken]), hiff.2.2 (by simp [taken])⟩

/-- Another program has the UDP port. The listener stays, and no attempt succeeds when the port is
free again. -/
theorem failed_udp_keeps_accept_loop :
    let s := keepRound .xtcpXudp 6000 init (taken false true)
    s.opened = ⟨true, false, 1⟩ ∧ ∀ n,
      (List.replicate n (taken false false)).foldl (keepRound .xtcpXudp 6000) s =
        ⟨⟨true, false, 1⟩, false⟩ := by
  intro s
  have hs : s = ⟨⟨true, false, 1⟩, false⟩ := by decide +kernel
  have hstay : keepRound .xtcpXudp 6000 s (taken false false) = s := by decide +kernel
  refine ⟨by rw [hs], fun n => ?_⟩
  rw [← hs]
  induction n with
  | zero => rfl
  | succ n ih => rwa [List.replicate_succ, List.foldl_cons, hstay]

end FrpMeo.Client.VisitorPorts
