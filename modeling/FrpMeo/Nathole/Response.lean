import FrpMeo.Nathole.Analysis
import Mathlib.Data.List.Destutter

/-!
# The answer to the two sides

`newNatHoleResponse` of `pkg/nathole/controller.go` removes adjacent repeats from the candidate
addresses and computes a range of ports from the last one. `slices.Compact` works in place, and the
range is computed from the old slice.
-/

namespace FrpMeo.Nathole

open Lib.Text (atoi)

structure PortsRange where
  fromPort : Int
  toPort : Int
  deriving DecidableEq

structure DetectBehavior where
  mode : Nat
  role : Role
  ttl : Int
  sendDelayMs : Int
  readTimeoutMs : Int
  sendRandomPorts : Int
  listenRandomPorts : Int
  candidatePorts : List PortsRange

structure Response where
  transactionID : String
  sid : String
  protocol : String
  candidateAddrs : List String
  assistedAddrs : List String
  detectBehavior : DetectBehavior

/-- `slices.Compact`: what it returns, and what the slice it was given holds afterwards. -/
def compact (addrs : List String) : List String × List String :=
  let kept := addrs.destutter (· ≠ ·)
  (kept, kept ++ List.replicate (addrs.length - kept.length) "")

def toInt (n : Int) : Int := n.bmod (2 ^ 64)

def getRangePorts (addrs : List String) (difference maxNumber : Int) : List PortsRange :=
  if maxNumber ≤ 0 then []
  else
    (((addrs.getLast?.bind splitHostPort).bind fun p => atoi p.2).map fun port =>
      ⟨max (max (toInt (port - difference - 5)) (toInt (port - maxNumber))) 1,
        min (min (toInt (port + difference + 5)) (toInt (port + maxNumber))) 65535⟩).toList

def newNatHoleResponse (transactionID sid protocol : String) (mode : Nat)
    (candidateAddrs assistedAddrs : List String) (behavior : RecommandBehavior)
    (readTimeoutMs portsDifference : Int) : Response where
  transactionID := transactionID
  sid := sid
  protocol := protocol
  candidateAddrs := (compact candidateAddrs).1
  assistedAddrs := (compact assistedAddrs).1
  detectBehavior :=
    { mode := mode
      role := behavior.role
      ttl := behavior.ttl
      sendDelayMs := behavior.sendDelayMs
      readTimeoutMs := readTimeoutMs
      sendRandomPorts := behavior.portsRandomNumber
      listenRandomPorts := behavior.listenRandomPorts
      -- the slice is read after it was compacted
      candidatePorts := getRangePorts (compact candidateAddrs).2 portsDifference
        behavior.portsRangeNumber }

def Covers (ports : List PortsRange) (port : Int) : Prop :=
  ports ≠ [] ∧ ∀ r ∈ ports, 1 ≤ r.fromPort ∧ r.fromPort ≤ port ∧ port ≤ r.toPort ∧ r.toPort ≤ 65535

instance (ports : List PortsRange) (port : Int) : Decidable (Covers ports port) :=
  inferInstanceAs (Decidable (_ ∧ _))

variable {addrs : List String} {difference maxNumber port : Int}

theorem compact_of_chain (h : addrs.IsChain (· ≠ ·)) : (compact addrs).2 = addrs := by
  simp [compact, List.destutter_of_isChain _ _ h]

theorem getLast?_compact (h : ¬ addrs.IsChain (· ≠ ·)) : (compact addrs).2.getLast? = some "" := by
  have hsub := List.destutter_sublist (· ≠ ·) addrs
  have hlt : (addrs.destutter (· ≠ ·)).length < addrs.length := by
    refine lt_of_le_of_ne hsub.length_le fun heq => h ?_
    rw [← hsub.eq_of_length heq]
    exact List.isChain_destutter _ _
  obtain ⟨n, hn⟩ := Nat.exists_eq_succ_of_ne_zero (Nat.sub_ne_zero_of_lt hlt)
  simp [compact, hn, List.replicate_succ']

theorem toInt_of_lt {n : Int} (h : 0 ≤ n + 2 ^ 63) (h' : n < 2 ^ 63) : toInt n = n := by
  rw [toInt, Int.bmod_eq_of_le] <;> omega

theorem toInt_neg {n : Int} (h : 2 ^ 63 ≤ n) (h' : n < 2 ^ 64) : toInt n < 0 := by
  rw [toInt, ← Int.sub_bmod_right, Int.bmod_eq_of_le] <;> omega

theorem covers_getRangePorts_iff (hport : (addrs.getLast?.bind splitHostPort).bind
      (fun p => atoi p.2) = some port) (hrange : 1 ≤ port ∧ port ≤ 65535)
    (hmax : 0 < maxNumber ∧ maxNumber < 2 ^ 63) (hdiff : 0 ≤ difference ∧ difference < 2 ^ 63) :
    Covers (getRangePorts addrs difference maxNumber) port ↔
      port + difference + 5 < 2 ^ 63 ∧ port + maxNumber < 2 ^ 63 := by
  simp only [Covers, getRangePorts, if_neg (not_le.2 hmax.1), hport, Option.map_some,
    Option.toList_some, List.forall_mem_singleton]
  constructor
  · rintro ⟨-, -, -, hto, -⟩
    -- a sum that overflows is negative, and then so is the end of the range
    constructor
    · by_contra hd
      have := toInt_neg (not_lt.1 hd) (by omega)
      omega
    · by_contra hm
      have := toInt_neg (not_lt.1 hm) (by omega)
      omega
  · rintro ⟨hd, hm⟩
    rw [toInt_of_lt (n := port - difference - 5) (by omega) (by omega),
      toInt_of_lt (n := port - maxNumber) (by omega) (by omega), toInt_of_lt (by omega) hd,
      toInt_of_lt (by omega) hm]
    exact ⟨nofun, by omega⟩

/-- The response has candidate ports around the last port iff no address is repeated right after
itself and the sums do not overflow. -/
theorem covers_response_iff (transactionID sid protocol : String) (mode : Nat)
    (assistedAddrs : List String) (behavior : RecommandBehavior) (readTimeoutMs : Int)
    (hport : (addrs.getLast?.bind splitHostPort).bind (fun p => atoi p.2) = some port)
    (hrange : 1 ≤ port ∧ port ≤ 65535)
    (hmax : 0 < behavior.portsRangeNumber ∧ behavior.portsRangeNumber < 2 ^ 63)
    (hdiff : 0 ≤ difference ∧ difference < 2 ^ 63) :
    Covers (newNatHoleResponse transactionID sid protocol mode addrs assistedAddrs behavior
        readTimeoutMs difference).detectBehavior.candidatePorts port ↔
      addrs.IsChain (· ≠ ·) ∧ port + difference + 5 < 2 ^ 63 ∧
        port + behavior.portsRangeNumber < 2 ^ 63 := by
  by_cases hchain : addrs.IsChain (· ≠ ·)
  · simp only [newNatHoleResponse, compact_of_chain hchain, hchain, true_and]
    exact covers_getRangePorts_iff hport hrange hmax hdiff
  · have hnil : getRangePorts (compact addrs).2 difference behavior.portsRangeNumber = [] := by
      simp only [getRangePorts, getLast?_compact hchain]
      split_ifs <;> rfl
    simp [newNatHoleResponse, hnil, Covers, hchain]

theorem covers_response_iff_two :
    Covers (newNatHoleResponse "t" "s" "quic" 1 ["1.2.3.4:80", "1.2.3.4:83"] []
      { role := .sender, portsRangeNumber := 10 } 5000 3).detectBehavior.candidatePorts 83 :=
  (covers_response_iff "t" "s" "quic" 1 [] { role := .sender, portsRangeNumber := 10 } 5000
    (by decide +kernel) (by decide) (by decide) (by decide)).2
    ⟨by decide +kernel, by decide, by decide⟩

/-- An address that was observed twice leaves no candidate ports. -/
theorem repeated_address_loses_ports :
    (newNatHoleResponse "t" "s" "quic" 1 ["1.2.3.4:80", "1.2.3.4:80"] []
      { role := .sender, portsRangeNumber := 10 } 5000 0).detectBehavior.candidatePorts = [] := by
  decide +kernel

end FrpMeo.Nathole
