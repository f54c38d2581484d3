import FrpMeo.Lib.Text
import FrpMeo.Lib.Netip

/-!
# The firewall

The access control of the server (`server/firewall/firewall.go`): manual rules in order, then a
reputation provider, then the default policy. What the provider answers is part of the moment of a
decision, so the results hold for every answer.
-/

set_option linter.dupNamespace false

namespace FrpMeo.Server.Firewall

open Lib.Text Lib.Netip

structure Go where
  netip : Parsers
  letters : CaseMap

/-! ## Configuration -/

structure Rule where
  id : String
  action : String
  cidr : String
  port : String
  note : String
  expiresAt : Int

structure ProviderConfig where
  mode : String
  frpControlURL : String
  frpControlAPIKey : String
  url : String
  method : String
  body : String
  headers : List (String × String)
  blockedPath : String
  reasonPath : String
  cacheTTLSec : Int
  timeoutMs : Int
  failOpen : Bool
  insecureTLS : Bool

def ProviderConfig.zero : ProviderConfig := ⟨"", "", "", "", "", "", [], "", "", 0, 0, false, false⟩

/-- `effective` resolves frpcontrol into a concrete custom request. -/
def ProviderConfig.effective (p : ProviderConfig) : ProviderConfig :=
  if p.mode ≠ "frpcontrol" then p
  else
    { ProviderConfig.zero with
      mode := "custom"
      url := trimRight '/' p.frpControlURL ++ "/api/fw/check"
      method := "POST"
      body := "\x7b\"ips\":[\"\x7bip\x7d\"]\x7d"
      headers := [("X-API-Key", p.frpControlAPIKey)]
      blockedPath := "results.0.blacklisted"
      reasonPath := "results.0.reason"
      cacheTTLSec := p.cacheTTLSec
      timeoutMs := p.timeoutMs
      failOpen := p.failOpen
      insecureTLS := p.insecureTLS }

structure Config where
  enabled : Bool
  controlPort : Bool
  webPort : Bool
  default : String
  rules : List Rule
  provider : ProviderConfig

/-- The decoded state file; `enabled = none` counts as enabled. -/
structure State where
  enabled : Option Bool
  controlPort : Bool
  webPort : Bool
  default : String
  rules : List Rule
  provider : ProviderConfig

/-! ## Compiled rules -/

/-- The compiled CIDR: the fields `anyCIDR`, `prefix` and `never`, of which one applies. -/
inductive Source where
  | any
  | network (p : Prefix)
  /-- A text that does not parse; the rule matches nothing. -/
  | never

structure PortRange where
  lo : Int
  hi : Int

/-- The compiled port text; `none` is any port. -/
abbrev Ports := Option (List PortRange)

structure CompiledRule where
  rule : Rule
  allow : Bool
  source : Source
  ports : Ports
  reason : String
  reason_ne : reason ≠ ""

def ruleReason (id : String) (index : Nat) : String :=
  if trimSpace id ≠ "" then "rule " ++ trimSpace id else "rule #" ++ toString (index + 1)

theorem append_ne_empty {s : String} (hs : s ≠ "") (t : String) : s ++ t ≠ "" := by
  intro h
  apply hs
  have hl := congrArg String.length h
  rw [String.length_append, String.length_empty] at hl
  exact String.length_eq_zero_iff.1 (by omega)

theorem ruleReason_ne (id : String) (index : Nat) : ruleReason id index ≠ "" := by
  unfold ruleReason
  split_ifs <;> exact append_ne_empty (by decide) _

def parsePort (s : String) : Option Int :=
  match atoi (trimSpace s) with
  | none => none
  | some n => if n < 0 ∨ 65535 < n then none else some n

/-- `parsePortRange`: one entry of a port text, `6000` or `6000-6010`. -/
def parsePortRange (part : String) : Option PortRange :=
  if trimSpace part = "" then none
  else
    let (before, after) := cut '-' (trimSpace part).toList
    match parsePort (String.ofList before), after with
    | none, _ => none
    | some lo, none => some ⟨lo, lo⟩
    | some lo, some after =>
        match parsePort (String.ofList after) with
        | none => none
        | some hi => if hi < lo then none else some ⟨lo, hi⟩

/-- `compilePorts`: a malformed entry is dropped. -/
def compilePorts (spec : String) : Ports :=
  let spec := trimSpace spec
  if spec = "" ∨ spec = "*" ∨ equalFoldAscii spec "all" then none
  else some ((split ',' spec.toList).filterMap fun part => parsePortRange (String.ofList part))

def compileSource (go : Go) (text : String) : Source :=
  let cidr := trimSpace text
  if cidr = "" ∨ cidr = "*" then .any
  else if '/' ∈ cidr.toList then
    match go.netip.parsePrefix cidr with
    | none => .never
    | some p =>
        if p.addr.is4In6 ∧ 96 ≤ p.bits then
          -- an IPv4 network in IPv6 form is held in the form addresses are matched in
          match Prefix.ofAddr p.addr.unmap (p.bits - 96) with
          | none => .never
          | some q => .network q.masked
        else .network p.masked
  else
    match go.netip.parseAddr cidr with
    | none => .never
    | some addr =>
        match Prefix.ofAddr addr.unmap addr.unmap.bitLen with
        | none => .never
        | some q => .network q

def compileRule (go : Go) (r : Rule) (index : Nat) : CompiledRule where
  rule := r
  allow := equalFoldAscii (trimSpace r.action) "allow"
  source := compileSource go r.cidr
  ports := compilePorts r.port
  reason := ruleReason r.id index
  reason_ne := ruleReason_ne r.id index

def compileRules (go : Go) (rules : List Rule) : List CompiledRule :=
  rules.mapIdx fun i r => compileRule go r i

def matchRanges (ranges : List PortRange) (port : Int) : Bool :=
  ranges.any fun r => r.lo ≤ port && port ≤ r.hi

def Source.contains (ip : Option Addr) : Source → Bool
  | .any => true
  | .never => false
  | .network p => ip.any p.contains

def CompiledRule.matches (c : CompiledRule) (ip : Option Addr) (port : Int) : Bool :=
  c.source.contains ip && (c.ports.map fun ranges => matchRanges ranges port).getD true

def CompiledRule.expired (c : CompiledRule) (now : Int) : Bool :=
  c.rule.expiresAt != 0 && c.rule.expiresAt ≤ now

/-! ## The firewall and its updates -/

structure Firewall where
  enabled : Bool
  controlPort : Bool
  webPort : Bool
  defaultPolicy : String
  rules : List CompiledRule
  provider : ProviderConfig
  selfProviderPort : Int
  localIPs : List String

/-- The host's own addresses, and the port of an endpoint that resolves to one of them, or 0. -/
structure Host where
  localAddrSet : List String
  portIfLocal : String → List String → Int

def Firewall.resolveSelfProvider (f : Firewall) (host : Host) : Firewall :=
  let p := f.provider.effective
  { f with
    localIPs := host.localAddrSet
    selfProviderPort :=
      if p.mode = "off" ∨ p.url = "" then 0
      else host.portIfLocal (replace p.url "\x7bip\x7d" "0.0.0.0") host.localAddrSet }

def Firewall.prune (f : Firewall) (now : Int) : Firewall :=
  { f with rules := f.rules.filter fun r => !r.expired now }

def withMode (p : ProviderConfig) : ProviderConfig :=
  if p.mode = "" then { p with mode := "off" } else p

def orDefault (s d : String) : String := if s = "" then d else s

inductive StateFile where
  | content (s : State)
  | malformed (err : String)
  | notExist
  | unreadable (err : String)

/-- `New`, before the provider is resolved and expired rules are dropped. -/
def load (go : Go) : StateFile → Except String Firewall
  | .content s => .ok
      { enabled := s.enabled.getD true
        controlPort := s.controlPort
        webPort := s.webPort
        -- unlike in `SetConfig`, a text other than `allow` and `deny` stays, and denies
        defaultPolicy := orDefault (toLower go.letters s.default) "allow"
        rules := compileRules go s.rules
        provider := withMode s.provider
        selfProviderPort := 0
        localIPs := [] }
  | .notExist => .ok
      { enabled := true
        controlPort := false
        webPort := false
        defaultPolicy := "allow"
        rules := []
        provider := withMode ProviderConfig.zero
        selfProviderPort := 0
        localIPs := [] }
  | .malformed err => .error err
  | .unreadable err => .error err

def new (go : Go) (file : StateFile) (host : Host) (now : Int) : Except String Firewall :=
  (load go file).map fun f => (f.prune now).resolveSelfProvider host

/-- `SetConfig`; the error is that of saving the state file, after the memory has changed. -/
def Firewall.setConfig (go : Go) (f : Firewall) (c : Config) (host : Host)
    (saveErr : Option String) : Firewall × Option String :=
  let d := toLower go.letters c.default
  let f := { f with
    enabled := c.enabled
    controlPort := c.controlPort
    webPort := c.webPort
    defaultPolicy := if d ≠ "allow" ∧ d ≠ "deny" then "allow" else d
    rules := compileRules go c.rules
    provider := withMode c.provider }
  (f.resolveSelfProvider host, saveErr)

/-! ## Decisions -/

structure Moment where
  now : Int
  checkExternal : String → ProviderConfig → Bool × String

def parseAddr (go : Go) (remoteAddr : String) : Option Addr :=
  let host := ((splitHostPort ':' '[' ']' remoteAddr.toList).map fun hp => String.ofList hp.1).getD
    remoteAddr
  (go.netip.parseAddr (trimSpace host)).map Addr.unmap

namespace Firewall

def firstMatch (f : Firewall) (now : Int) (ip : Option Addr) (port : Int) :
    Option CompiledRule :=
  f.rules.find? fun r => !r.expired now && r.matches ip port

def isSelfCall (go : Go) (f : Firewall) (ip : Addr) (port : Int) : Bool :=
  f.selfProviderPort != 0 && port == f.selfProviderPort && go.netip.addrString ip ∈ f.localIPs

def asksProvider (go : Go) (f : Firewall) (ip : Addr) (port : Int) : Bool :=
  (f.provider.mode == "frpcontrol" || f.provider.mode == "custom") && !f.isSelfCall go ip port

def reputation (go : Go) (f : Firewall) (m : Moment) (ip : Option Addr) (port : Int) :
    Option String :=
  match ip with
  -- an address that does not parse is not looked up
  | none => none
  | some ip =>
      if f.asksProvider go ip port then
        match m.checkExternal (go.netip.addrString ip) f.provider.effective with
        | (false, _) => none
        | (true, why) => some (if why ≠ "" then "reputation (" ++ why ++ ")" else "reputation")
      else none

def allow (go : Go) (f : Firewall) (m : Moment) (remoteAddr : String) (port : Int) :
    Bool × String :=
  if !f.enabled then (true, "firewall disabled")
  else
    let ip := parseAddr go remoteAddr
    match f.firstMatch m.now ip port with
    | some r => (r.allow, r.reason)
    -- the provider can only reject: what it lets pass is left to the default policy
    | none =>
        match f.reputation go m ip port with
        | some reason => (false, reason)
        | none =>
            if f.defaultPolicy = "allow" then (true, "default allow") else (false, "default deny")

/-- The shape of `AllowControl` and `AllowWeb`: a switch of its own in front of `Allow`. -/
def allowSwitched (go : Go) (f : Firewall) (on : Bool) (off : String) (m : Moment)
    (remoteAddr : String) (port : Int) : Bool × String :=
  if !(f.enabled && on) then (true, off) else f.allow go m remoteAddr port

def allowControl (go : Go) (f : Firewall) (m : Moment) (remoteAddr : String)
    (port : Int) : Bool × String :=
  f.allowSwitched go f.controlPort "control port not protected" m remoteAddr port

def allowWeb (go : Go) (f : Firewall) (m : Moment) (remoteAddr : String) (port : Int) :
    Bool × String :=
  f.allowSwitched go f.webPort "web port not protected" m remoteAddr port

/-! ## What decides -/

/-- The rules, the provider and the default policy, in this order, let the address in. -/
def Admits (go : Go) (f : Firewall) (m : Moment) (ip : Option Addr) (port : Int) : Prop :=
  (∃ r, f.firstMatch m.now ip port = some r ∧ r.allow = true) ∨
    f.firstMatch m.now ip port = none ∧ f.reputation go m ip port = none ∧
      f.defaultPolicy = "allow"

theorem allow_iff (go : Go) (f : Firewall) (m : Moment) (remoteAddr : String)
    (port : Int) : (f.allow go m remoteAddr port).1 = true ↔
      f.enabled = false ∨ f.Admits go m (parseAddr go remoteAddr) port := by
  unfold allow Admits
  cases he : f.enabled with
  | false => simp
  | true =>
    cases hr : f.firstMatch m.now (parseAddr go remoteAddr) port with
    | some r => simp [hr]
    | none =>
      cases hp : f.reputation go m (parseAddr go remoteAddr) port with
      | some why => simp [hr, hp]
      | none => by_cases hd : f.defaultPolicy = "allow" <;> simp [hr, hp, hd]

theorem allowSwitched_iff (go : Go) (f : Firewall) (on : Bool) (off : String) (m : Moment)
    (remoteAddr : String) (port : Int) : (f.allowSwitched go on off m remoteAddr port).1 = true ↔
      f.enabled = false ∨ on = false ∨ f.Admits go m (parseAddr go remoteAddr) port := by
  unfold allowSwitched
  cases he : f.enabled with
  | false => simp
  | true =>
    cases on with
    | false => simp
    | true => simpa [he] using f.allow_iff go m remoteAddr port

end Firewall

end FrpMeo.Server.Firewall
