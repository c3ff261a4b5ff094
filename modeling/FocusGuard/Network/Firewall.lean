import FocusGuard.Lib.Chains
import FocusGuard.Runtime

/-!
# The firewall of the gateway

The `iptables` commands of `focusguard/network/gateway.py` and `focusguard/network/bypass.py`. Each
command of a call may be refused, fail for a reason of its own, or not be started at all. Nothing
is logged here.
-/

namespace FocusGuard

/-- The arguments that make up a rule. -/
abbrev Rule := List Text

/-- The chain behind `-j`. -/
def Rule.target : Rule → Option Text
  | flag :: name :: rest => if flag = "-j" then some name else Rule.target (name :: rest)
  | _ => none

def natChains : Finset Text :=
  [("PREROUTING" : Text), "INPUT", "OUTPUT", "POSTROUTING"].toFinset

def filterChains : Finset Text := [("INPUT" : Text), "FORWARD", "OUTPUT"].toFinset

/-- The tables that the gateway works on. -/
structure Firewall where
  nat : ChainTable Text Rule natChains
  filter : ChainTable Text Rule filterChains

/-- The host's routing state. -/
structure Router where
  firewall : Firewall
  ipForward : Bool

abbrev IptablesCommand := ChainCommand Text Rule

/-- What else keeps a command from having its effect. -/
inductive Fault where
  /-- It exits with another code than zero. -/
  | exits
  /-- It cannot be started; the text is that of the exception. -/
  | raises (message : Text)
  deriving DecidableEq

/-- How the commands on one table fare. -/
structure TableEnv where
  fault : IptablesCommand → Option Fault
  /-- What the command writes to `stderr`; `none` if that is not UTF-8. -/
  stderr : IptablesCommand → Option Text
  /-- `str(e)` of the `CalledProcessError`. -/
  failed : IptablesCommand → Text

structure HostEnv where
  nat : TableEnv
  filter : TableEnv
  /-- `/proc/sys/net/ipv4/ip_forward` can be written, or else `sysctl` succeeds. -/
  canForward : Bool

/-- What `subprocess.run` raises. -/
inductive RunError where
  | calledProcess (stderr : Option Text) (message : Text)
  | other (message : Text)

def jumpTo (chain : Text) : Rule := ["-j", chain]

section Table

variable {builtin : Finset Text} (env : TableEnv)

/-- `subprocess.run(["iptables", …], check=check)`: whether the command exited with zero. -/
def iptables (check : Bool) (cmd : IptablesCommand) :
    Exec RunError (ChainTable Text Rule builtin) Bool := fun t =>
  let refused : Except RunError Bool :=
    if check then .error (.calledProcess (env.stderr cmd) (env.failed cmd)) else .ok false
  match env.fault cmd with
  | some (.raises message) => (.error (.other message), t)
  | some .exits => (refused, t)
  | none =>
    match t.run Rule.target cmd with
    | some t' => (.ok true, t')
    | none => (refused, t)

/-- `iptables -L` of a chain, with what keeps it from running: whether it exits with zero. An
exception counts as no. -/
def lists (fault : Option Fault) (t : ChainTable Text Rule builtin) (chain : Text) : Bool :=
  match fault with
  | some .exits => false
  | some (.raises _) => false
  | none => (t.lookup chain).isSome

def appendRules (chain : Text) :
    List Rule → Exec RunError (ChainTable Text Rule builtin) Unit
  | [] => pure ()
  | rule :: rest => do
    let _ ← iptables env true (.append chain rule)
    appendRules chain rest

/-- The parent is made to jump to the chain, unless it does so already. -/
def ensureJump (chain parent : Text) : Exec RunError (ChainTable Text Rule builtin) Unit := do
  let present ← iptables env false (.check parent (jumpTo chain))
  if present then pure ()
  else
    let _ ← iptables env true (.insertFirst parent (jumpTo chain))
    pure ()

/-- A dedicated chain is created, emptied and filled, and the parent jumps to it. -/
def setUpChain (chain parent : Text) (rules : List Rule) :
    Exec RunError (ChainTable Text Rule builtin) Unit := do
  let _ ← iptables env false (.new chain)
  let _ ← iptables env false (.flush chain)
  appendRules env chain rules
  ensureJump env chain parent

def tearDownChain (chain parent : Text) : Exec RunError (ChainTable Text Rule builtin) Unit := do
  let _ ← iptables env false (.delete parent (jumpTo chain))
  let _ ← iptables env false (.flush chain)
  let _ ← iptables env false (.remove chain)
  pure ()

end Table

def onNat {α : Type} (m : Exec RunError (ChainTable Text Rule natChains) α) :
    Exec RunError Router α :=
  Exec.focus (fun r => r.firewall.nat)
    (fun t r => { r with firewall := { r.firewall with nat := t } }) m

def onFilter {α : Type} (m : Exec RunError (ChainTable Text Rule filterChains) α) :
    Exec RunError Router α :=
  Exec.focus (fun r => r.firewall.filter)
    (fun t r => { r with firewall := { r.firewall with filter := t } }) m

/-- The body of a `try`: whether it went through, and the message of the call. -/
def reporting (success : Text) (failure : RunError → Except PyError Text)
    (m : Exec RunError Router Unit) : Exec PyError Router (Bool × Text) := fun r =>
  match m r with
  | (.ok (), r) => (.ok (true, success), r)
  | (.error e, r) =>
    match failure e with
    | .ok message => (.ok (false, message), r)
    | .error x => (.error x, r)

variable (rt : Runtime) (env : HostEnv)

/-- Whether the error output tells that root is needed. -/
def needsRoot (errOutput : Text) : Bool :=
  ("permission denied" : Text) <:+: rt.lower errOutput ∨
    ("must be root" : Text) <:+: rt.lower errOutput

/-! ## `NetworkGatewayManager` -/

def chainRedirect : Text := "FOCUSGUARD_REDIRECT"

def chainFilter : Text := "FOCUSGUARD_FILTER"

structure NetworkGatewayManager where
  dnsPort : Int := 53
  hasIptables : Bool

namespace NetworkGatewayManager

/-- `is_transparent_redirection_active()`: the chain can be listed. -/
def isTransparentRedirectionActive (m : NetworkGatewayManager) (fault : Option Fault)
    (r : Router) : Bool :=
  m.hasIptables ∧ lists fault r.firewall.nat chainRedirect

def redirectRule (protocol : Text) (dnsPort : Int) : Rule :=
  ["-p", protocol, "--dport", "53", "-j", "REDIRECT", "--to-ports", (toString dnsPort).toList]

def redirectRules (dnsPort : Int) : List Rule :=
  [redirectRule "udp" dnsPort, redirectRule "tcp" dnsPort]

def filterRules : List Rule := [["-p", "tcp", "--dport", "853", "-j", "REJECT"]]

def enableIpForwarding : Exec RunError Router Bool := fun r =>
  if env.canForward then (.ok true, { r with ipForward := true }) else (.ok false, r)

def enableFailure : RunError → Except PyError Text
  | .calledProcess none _ => .error .unicodeError
  | .calledProcess (some stderr) message =>
    let errOutput := if Text.strip stderr = [] then message else Text.strip stderr
    if needsRoot rt errOutput then
      .ok "Enabling network gateway enforcement requires root privileges (run with sudo)."
    else .ok (("Failed to apply iptables redirection: " : Text) ++ errOutput)
  | .other message => .ok message

def enableTransparentRedirection (m : NetworkGatewayManager) :
    Exec PyError Router (Bool × Text) :=
  if ¬ m.hasIptables then pure (false, "iptables utility not found on this system.")
  else
    reporting "Transparent DNS interception and DoT blocking active." (enableFailure rt) do
      let _ ← enableIpForwarding env
      onNat (setUpChain env.nat chainRedirect "PREROUTING" (redirectRules m.dnsPort))
      onFilter (setUpChain env.filter chainFilter "FORWARD" filterRules)

def disableFailure : RunError → Except PyError Text
  | .calledProcess none _ => .error .unicodeError
  | .calledProcess (some stderr) message =>
    let errOutput := Text.strip stderr
    if needsRoot rt errOutput then
      .ok "Disabling network gateway enforcement requires root privileges (run with sudo)."
    else
      .ok (("Failed to disable iptables redirection: " : Text) ++
        if errOutput = [] then message else errOutput)
  | .other message => .ok message

def disableTransparentRedirection (m : NetworkGatewayManager) :
    Exec PyError Router (Bool × Text) :=
  if ¬ m.hasIptables then pure (false, "iptables utility not found.")
  else
    reporting "Transparent DNS interception removed cleanly." (disableFailure rt) do
      onNat (tearDownChain env.nat chainRedirect "PREROUTING")
      onFilter (tearDownChain env.filter chainFilter "FORWARD")

end NetworkGatewayManager

/-! ## `BypassResistanceManager` -/

def chainBypass : Text := "FOCUSGUARD_BYPASS"

/-- Protocol, port and label. -/
def tunnelPorts : List (Text × Text × Text) := [
  ("udp", "51820", "WireGuard"), ("udp", "1194", "OpenVPN UDP"), ("tcp", "1194", "OpenVPN TCP"),
  ("udp", "500", "IPsec IKE"), ("udp", "4500", "IPsec NAT-T")]

structure BypassResistanceManager where
  hasIptables : Bool

namespace BypassResistanceManager

def bypassRules : List Rule :=
  tunnelPorts.map fun (proto, port, _) => ["-p", proto, "--dport", port, "-j", "REJECT"]

def enableFailure : RunError → Except PyError Text
  | .calledProcess none _ => .error .unicodeError
  | .calledProcess (some stderr) message =>
    .ok (("Failed to apply tunnel restrictions: " : Text) ++
      if Text.strip stderr = [] then message else Text.strip stderr)
  | .other message => .ok message

def enableTunnelRestrictions (m : BypassResistanceManager) : Exec PyError Router (Bool × Text) :=
  if ¬ m.hasIptables then pure (false, "iptables not found on this system.")
  else
    reporting "Common VPN tunnel ports (WireGuard, OpenVPN, IPsec) restricted." enableFailure
      (onFilter (setUpChain env.filter chainBypass "FORWARD" bypassRules))

/-- `str(e)`, whatever is raised. -/
def disableFailure : RunError → Except PyError Text
  | .calledProcess _ message => .ok message
  | .other message => .ok message

def disableTunnelRestrictions (m : BypassResistanceManager) : Exec PyError Router (Bool × Text) :=
  if ¬ m.hasIptables then pure (false, "iptables not found.")
  else
    reporting "VPN tunnel protocol restrictions removed." disableFailure
      (onFilter (tearDownChain env.filter chainBypass "FORWARD"))

end BypassResistanceManager

end FocusGuard
