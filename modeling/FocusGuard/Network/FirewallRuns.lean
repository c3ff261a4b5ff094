import FocusGuard.Lib.Runs
import FocusGuard.Network.Firewall

/-!
# The firewall over sequences of calls

Where every command does what `iptables` makes of it, enabling a feature attaches its chains and
disabling it detaches them. The rest of the ruleset stays as it was found, and once both features
are off nothing else is left.

## Main results

* `setUpChain_eq`, `tearDownChain_eq`: the commands of a call attach or detach one chain.
* `Reversible.step`: the invariant of a call.
* `firewall_reversible`: what holds after every sequence of calls.
-/

namespace FocusGuard

open ChainTable NetworkGatewayManager BypassResistanceManager

/-- No command is kept from its effect. -/
def TableEnv.Runs (env : TableEnv) : Prop := ∀ cmd, env.fault cmd = none

/-- What a manager is asked to do. -/
inductive FirewallCall where
  | enableTransparentRedirection (m : NetworkGatewayManager)
  | disableTransparentRedirection (m : NetworkGatewayManager)
  | enableTunnelRestrictions (m : BypassResistanceManager)
  | disableTunnelRestrictions (m : BypassResistanceManager)

/-- The features that the calls so far have left enabled. -/
structure Features where
  redirection : Bool := false
  tunnels : Bool := false

structure Gateway where
  router : Router
  features : Features

namespace FirewallCall

def run (rt : Runtime) (env : HostEnv) : FirewallCall → Exec PyError Router (Bool × Text)
  | .enableTransparentRedirection m => m.enableTransparentRedirection rt env
  | .disableTransparentRedirection m => m.disableTransparentRedirection rt env
  | .enableTunnelRestrictions m => m.enableTunnelRestrictions env
  | .disableTunnelRestrictions m => m.disableTunnelRestrictions env

/-- The features after the call has returned `True`. -/
def features (on : Features) : FirewallCall → Features
  | .enableTransparentRedirection _ => { on with redirection := true }
  | .disableTransparentRedirection _ => { on with redirection := false }
  | .enableTunnelRestrictions _ => { on with tunnels := true }
  | .disableTunnelRestrictions _ => { on with tunnels := false }

def hasIptables : FirewallCall → Bool
  | .enableTransparentRedirection m => m.hasIptables
  | .disableTransparentRedirection m => m.hasIptables
  | .enableTunnelRestrictions m => m.hasIptables
  | .disableTunnelRestrictions m => m.hasIptables

end FirewallCall

/-- The gateway after a call; a call that does not return `True` changes no feature. -/
def Gateway.after (rt : Runtime) (g : Gateway) (ev : HostEnv × FirewallCall) : Gateway where
  router := (ev.2.run rt ev.1 g.router).2
  features :=
    match (ev.2.run rt ev.1 g.router).1 with
    | .ok (true, _) => ev.2.features g.features
    | _ => g.features

def Gateway.Step (rt : Runtime) (g : Gateway) (ev : HostEnv × FirewallCall) (g' : Gateway) : Prop :=
  g.after rt ev = g'

def focusGuardChains : List Text := [chainRedirect, chainFilter, chainBypass]

/-- No chain of the program exists, and no rule has one as its target. -/
def Firewall.Unclaimed (f : Firewall) : Prop :=
  ∀ c ∈ focusGuardChains, Unused Rule.target f.nat c ∧ Unused Rule.target f.filter c

/-- The rule has no chain of the program as its target. -/
def Rule.isForeign (r : Rule) : Bool := focusGuardChains.all fun c => Rule.target r ≠ some c

variable {rt : Runtime} {builtin : Finset Text} {t : ChainTable Text Rule builtin} {env : TableEnv}
  {chain parent : Text} {l rules : List Rule}

/-! ## One command after the other -/

/-- A command that runs and may be refused. -/
theorem iptables_attempt {cmd : IptablesCommand} (h : env.fault cmd = none) :
    iptables env false cmd t = (.ok (t.run Rule.target cmd).isSome, t.attempt Rule.target cmd) := by
  unfold iptables attempt
  rw [h]
  cases t.run Rule.target cmd <;> rfl

theorem iptables_of_run {cmd : IptablesCommand} {check : Bool} {t' : ChainTable Text Rule builtin}
    (h : env.fault cmd = none) (hrun : t.run Rule.target cmd = some t') :
    iptables env check cmd t = (.ok true, t') := by
  unfold iptables
  rw [h]
  simp only [hrun]

theorem appendRules_eq (h : env.Runs) (hl : t.lookup chain = some l) :
    appendRules env chain rules t = (.ok (), t.set chain (l ++ rules)) := by
  induction rules generalizing t l with
  | nil =>
    rw [List.append_nil, set_lookup hl]
    rfl
  | cons rule rules ih =>
    have hrun : t.run Rule.target (.append chain rule) = some (t.set chain (l ++ [rule])) := by
      simp [ChainTable.run, hl]
    rw [appendRules, Exec.bind_of_ok (iptables_of_run (h _) hrun), ih lookup_set, set_set,
      List.append_assoc]
    rfl

/-- A chain is set up by attaching it. -/
theorem setUpChain_eq (h : env.Runs) (hparent : parent ∈ builtin) :
    setUpChain env chain parent rules t =
      (.ok (), t.install Rule.target jumpTo parent chain rules) := by
  unfold setUpChain ensureJump
  rw [Exec.bind_of_ok (iptables_attempt (h _)), Exec.bind_of_ok (iptables_attempt (h _)),
    attempt_new_flush, Exec.bind_of_ok (appendRules_eq h lookup_set), List.nil_append, set_set,
    Exec.bind_of_ok (iptables_attempt (h _))]
  obtain ⟨l, hl⟩ := Option.isSome_iff_exists.mp
    ((t.set chain rules).lookup_isSome_of_builtin hparent)
  unfold ChainTable.install
  by_cases hm : jumpTo chain ∈ l
  · simp [ChainTable.run, attempt, hl, hm]
  · have hrun : (t.set chain rules).run Rule.target (.insertFirst parent (jumpTo chain)) =
        some ((t.set chain rules).set parent (jumpTo chain :: l)) := by
      simp [ChainTable.run, hl]
    simp [ChainTable.run, attempt, hl, hm, Exec.bind_of_ok (iptables_of_run (h _) hrun)]

theorem tearDownChain_eq (h : env.Runs) :
    tearDownChain env chain parent t = (.ok (), t.detach Rule.target jumpTo parent chain) := by
  unfold tearDownChain ChainTable.detach
  rw [Exec.bind_of_ok (iptables_attempt (h _)), Exec.bind_of_ok (iptables_attempt (h _)),
    Exec.bind_of_ok (iptables_attempt (h _))]
  rfl

/-! ## The features as attached chains -/

/-- The table is `t₀` with these chains attached, and none of their rules goes to a chain of the
program. -/
def HoldsChains (parent : Text) (t₀ t : ChainTable Text Rule builtin) (on : Text → Prop) : Prop :=
  ∃ names content, Attached jumpTo parent t₀ t names content ∧
    (∀ c, ∀ r ∈ content c, Rule.isForeign r = true) ∧ ∀ c, c ∈ names ↔ on c

theorem target_jumpTo (c : Text) : Rule.target (jumpTo c) = some c := rfl

theorem isForeign_iff {r : Rule} :
    r.isForeign = true ↔ ∀ c ∈ focusGuardChains, Rule.target r ≠ some c := by
  simp [Rule.isForeign, List.all_eq_true]

namespace HoldsChains

variable {t₀ : ChainTable Text Rule builtin} {on : Text → Prop} (hparent : parent ∈ builtin)

theorem congr {on' : Text → Prop} (h : HoldsChains parent t₀ t on) (hon : ∀ c, on c ↔ on' c) :
    HoldsChains parent t₀ t on' := by
  obtain ⟨names, content, hattached, hforeign, hnames⟩ := h
  exact ⟨names, content, hattached, hforeign, fun c => (hnames c).trans (hon c)⟩

include hparent in
theorem install (h : HoldsChains parent t₀ t on) (hc : Unused Rule.target t₀ chain)
    (hrules : ∀ r ∈ rules, Rule.isForeign r = true) :
    HoldsChains parent t₀ (t.install Rule.target jumpTo parent chain rules)
      fun b => b = chain ∨ on b := by
  obtain ⟨names, content, hattached, hforeign, hnames⟩ := h
  refine ⟨_, _, hattached.install hparent target_jumpTo hc rules, fun b r hr => ?_, fun b => ?_⟩
  · by_cases hb : b = chain
    · rw [hb, Function.update_self] at hr
      exact hrules r hr
    · rw [Function.update_of_ne hb] at hr
      exact hforeign b r hr
  · by_cases hm : chain ∈ names
    · rw [if_pos hm, hnames]
      exact ⟨.inr, fun hb => hb.elim (fun heq => heq ▸ (hnames chain).mp hm) id⟩
    · rw [if_neg hm, List.mem_cons, hnames]

include hparent in
theorem detach (h : HoldsChains parent t₀ t on) (hc : Unused Rule.target t₀ chain)
    (hchain : chain ∈ focusGuardChains) :
    HoldsChains parent t₀ (t.detach Rule.target jumpTo parent chain) fun b => b ≠ chain ∧ on b := by
  obtain ⟨names, content, hattached, hforeign, hnames⟩ := h
  refine ⟨_, _, hattached.detach hparent target_jumpTo hc fun b _ r hr => ?_, hforeign, fun b => ?_⟩
  · exact isForeign_iff.mp (hforeign b r hr) chain hchain
  · exact hattached.mem_erase_iff.trans (and_congr_right fun _ => hnames b)

theorem eq_of_none (h : HoldsChains parent t₀ t on) (hon : ∀ c, ¬ on c) : t = t₀ := by
  obtain ⟨names, content, hattached, -, hnames⟩ := h
  obtain rfl : names = [] := List.eq_nil_iff_forall_not_mem.mpr fun c hc => hon c ((hnames c).mp hc)
  exact hattached.eq_of_nil

end HoldsChains

/-- The tables are those of `f` with the chains of the enabled features. -/
structure Reversible (f : Firewall) (g : Gateway) : Prop where
  nat : HoldsChains "PREROUTING" f.nat g.router.firewall.nat
    fun c => c = chainRedirect ∧ g.features.redirection = true
  filter : HoldsChains "FORWARD" f.filter g.router.firewall.filter
    fun c => (c = chainFilter ∧ g.features.redirection = true) ∨
      (c = chainBypass ∧ g.features.tunnels = true)

/-! ## Calls -/

theorem onNat_eq {α : Type} {m : Exec RunError (ChainTable Text Rule natChains) α} {r : Router}
    {x : Except RunError α} {t : ChainTable Text Rule natChains} (h : m r.firewall.nat = (x, t)) :
    onNat m r = (x, { r with firewall := { r.firewall with nat := t } }) := by
  simp [onNat, h]

theorem onFilter_eq {α : Type} {m : Exec RunError (ChainTable Text Rule filterChains) α}
    {r : Router} {x : Except RunError α} {t : ChainTable Text Rule filterChains}
    (h : m r.firewall.filter = (x, t)) :
    onFilter m r = (x, { r with firewall := { r.firewall with filter := t } }) := by
  simp [onFilter, h]

theorem reporting_of_ok {success : Text} {failure : RunError → Except PyError Text}
    {m : Exec RunError Router Unit} {r r' : Router} (h : m r = (.ok (), r')) :
    reporting success failure m r = (.ok (true, success), r') := by
  simp only [reporting, h]

theorem enableIpForwarding_eq (henv : HostEnv) (r : Router) :
    ∃ done forward, enableIpForwarding henv r = (.ok done, { r with ipForward := forward }) := by
  unfold enableIpForwarding
  split
  · exact ⟨_, _, rfl⟩
  · exact ⟨_, r.ipForward, rfl⟩

section Calls

variable {henv : HostEnv} (hnat : henv.nat.Runs) (hfilter : henv.filter.Runs)

include hfilter

include hnat in
theorem enableTransparentRedirection_eq (rt : Runtime) {m : NetworkGatewayManager}
    (hm : m.hasIptables = true) (r : Router) :
    ∃ message forward, m.enableTransparentRedirection rt henv r =
      (.ok (true, message),
        ⟨⟨r.firewall.nat.install Rule.target jumpTo "PREROUTING" chainRedirect
            (redirectRules m.dnsPort),
          r.firewall.filter.install Rule.target jumpTo "FORWARD" chainFilter filterRules⟩,
          forward⟩) := by
  obtain ⟨done, forward, hforward⟩ := enableIpForwarding_eq henv r
  unfold enableTransparentRedirection
  rw [if_neg (not_not.mpr hm)]
  refine ⟨_, forward, reporting_of_ok ?_⟩
  rw [Exec.bind_of_ok hforward,
    Exec.bind_of_ok (onNat_eq (setUpChain_eq hnat (by decide)))]
  exact onFilter_eq (setUpChain_eq hfilter (by decide))

include hnat in
theorem disableTransparentRedirection_eq (rt : Runtime) {m : NetworkGatewayManager}
    (hm : m.hasIptables = true) (r : Router) :
    ∃ message, m.disableTransparentRedirection rt henv r =
      (.ok (true, message),
        ⟨⟨r.firewall.nat.detach Rule.target jumpTo "PREROUTING" chainRedirect,
          r.firewall.filter.detach Rule.target jumpTo "FORWARD" chainFilter⟩, r.ipForward⟩) := by
  unfold disableTransparentRedirection
  rw [if_neg (not_not.mpr hm)]
  refine ⟨_, reporting_of_ok ?_⟩
  rw [Exec.bind_of_ok (onNat_eq (tearDownChain_eq hnat))]
  exact onFilter_eq (tearDownChain_eq hfilter)

theorem enableTunnelRestrictions_eq {m : BypassResistanceManager} (hm : m.hasIptables = true)
    (r : Router) : ∃ message, m.enableTunnelRestrictions henv r =
      (.ok (true, message), ⟨⟨r.firewall.nat,
        r.firewall.filter.install Rule.target jumpTo "FORWARD" chainBypass bypassRules⟩,
        r.ipForward⟩) := by
  unfold enableTunnelRestrictions
  rw [if_neg (not_not.mpr hm)]
  exact ⟨_, reporting_of_ok (onFilter_eq (setUpChain_eq hfilter (by decide)))⟩

theorem disableTunnelRestrictions_eq {m : BypassResistanceManager} (hm : m.hasIptables = true)
    (r : Router) : ∃ message, m.disableTunnelRestrictions henv r =
      (.ok (true, message), ⟨⟨r.firewall.nat,
        r.firewall.filter.detach Rule.target jumpTo "FORWARD" chainBypass⟩, r.ipForward⟩) := by
  unfold disableTunnelRestrictions
  rw [if_neg (not_not.mpr hm)]
  exact ⟨_, reporting_of_ok (onFilter_eq (tearDownChain_eq hfilter))⟩

end Calls

theorem Gateway.after_of_true {g : Gateway} {henv : HostEnv} (call : FirewallCall)
    {message : Text} {r : Router} (h : call.run rt henv g.router = (.ok (true, message), r)) :
    g.after rt (henv, call) = ⟨r, call.features g.features⟩ := by
  simp only [Gateway.after, h]

/-- Without `iptables` a call returns `False` and does nothing. -/
theorem Gateway.after_of_missing {g : Gateway} {henv : HostEnv} {call : FirewallCall}
    (h : call.hasIptables = false) : g.after rt (henv, call) = g := by
  have hrun : ∃ message, call.run rt henv g.router = (.ok (false, message), g.router) := by
    cases call with
    | enableTransparentRedirection m =>
      have hm : m.hasIptables = false := h
      exact ⟨_, congrFun (if_pos (by simp [hm])) _⟩
    | disableTransparentRedirection m =>
      have hm : m.hasIptables = false := h
      exact ⟨_, congrFun (if_pos (by simp [hm])) _⟩
    | enableTunnelRestrictions m =>
      have hm : m.hasIptables = false := h
      exact ⟨_, congrFun (if_pos (by simp [hm])) _⟩
    | disableTunnelRestrictions m =>
      have hm : m.hasIptables = false := h
      exact ⟨_, congrFun (if_pos (by simp [hm])) _⟩
  obtain ⟨message, hrun⟩ := hrun
  simp only [Gateway.after, hrun]

theorem rules_foreign (dnsPort : Int) : (∀ r ∈ redirectRules dnsPort, r.isForeign = true) ∧
    (∀ r ∈ filterRules, r.isForeign = true) ∧ ∀ r ∈ bypassRules, r.isForeign = true := by
  refine ⟨fun r hr => ?_, by decide, by decide⟩
  have htarget : Rule.target r = some "REDIRECT".toList := by
    rcases List.mem_pair.mp hr with rfl | rfl
    · rfl
    · rfl
  rw [isForeign_iff, htarget]
  decide

/-! ## Sequences of calls -/

namespace Reversible

variable {f : Firewall} {g g' : Gateway} {ev : HostEnv × FirewallCall}

theorem init (f : Firewall) (forward : Bool) : Reversible f ⟨⟨f, forward⟩, {}⟩ where
  nat := ⟨[], fun _ => [], .refl _, by simp, by simp⟩
  filter := ⟨[], fun _ => [], .refl _, by simp, by simp⟩

theorem step (hf : f.Unclaimed) (h : Reversible f g) (hnat : ev.1.nat.Runs)
    (hfilter : ev.1.filter.Runs) : Reversible f (g.after rt ev) := by
  obtain ⟨henv, call⟩ := ev
  dsimp only at hnat hfilter
  obtain ⟨hredirect, hdns, htunnel⟩ : chainRedirect ∈ focusGuardChains ∧
    chainFilter ∈ focusGuardChains ∧ chainBypass ∈ focusGuardChains := by simp [focusGuardChains]
  have hne : chainFilter ≠ chainBypass := by decide
  have hnatParent : ("PREROUTING" : Text) ∈ natChains := by decide
  have hfilterParent : ("FORWARD" : Text) ∈ filterChains := by decide
  cases hm : call.hasIptables with
  | false => rwa [Gateway.after_of_missing hm]
  | true =>
    cases call with
    | enableTransparentRedirection m =>
      obtain ⟨hrules, hdnsRules, -⟩ := rules_foreign m.dnsPort
      obtain ⟨message, forward, hrun⟩ := enableTransparentRedirection_eq hnat hfilter rt hm g.router
      rw [Gateway.after_of_true (.enableTransparentRedirection m) hrun]
      refine ⟨(h.nat.install hnatParent (hf _ hredirect).1 hrules).congr fun c => ?_,
        (h.filter.install hfilterParent (hf _ hdns).2 hdnsRules).congr fun c => ?_⟩
      · simp only [FirewallCall.features]
        grind
      · simp only [FirewallCall.features]
        grind
    | disableTransparentRedirection m =>
      obtain ⟨message, hrun⟩ := disableTransparentRedirection_eq hnat hfilter rt hm g.router
      rw [Gateway.after_of_true (.disableTransparentRedirection m) hrun]
      refine ⟨(h.nat.detach hnatParent (hf _ hredirect).1 hredirect).congr fun c => ?_,
        (h.filter.detach hfilterParent (hf _ hdns).2 hdns).congr fun c => ?_⟩
      · simp only [FirewallCall.features]
        grind
      · simp only [FirewallCall.features]
        grind
    | enableTunnelRestrictions m =>
      obtain ⟨-, -, hrules⟩ := rules_foreign 0
      obtain ⟨message, hrun⟩ := enableTunnelRestrictions_eq hfilter hm g.router
      rw [Gateway.after_of_true (.enableTunnelRestrictions m) hrun]
      refine ⟨h.nat,
        (h.filter.install hfilterParent (hf _ htunnel).2 hrules).congr fun c => ?_⟩
      simp only [FirewallCall.features]
      grind
    | disableTunnelRestrictions m =>
      obtain ⟨message, hrun⟩ := disableTunnelRestrictions_eq hfilter hm g.router
      rw [Gateway.after_of_true (.disableTunnelRestrictions m) hrun]
      refine ⟨h.nat,
        (h.filter.detach hfilterParent (hf _ htunnel).2 htunnel).congr fun c => ?_⟩
      simp only [FirewallCall.features]
      grind

end Reversible

/-- Firewall changes are reversible and isolated: on a ruleset without chains of the program, after
any calls whose commands run, all other rules are where they were and in their order, a chain is
jumped to at most once, and with both features disabled the ruleset is the one at the beginning. -/
theorem firewall_reversible {f : Firewall} (hf : f.Unclaimed) {forward : Bool} {g : Gateway}
    {calls : List (HostEnv × FirewallCall)}
    (hrun : Run (Gateway.Step rt) ⟨⟨f, forward⟩, {}⟩ calls g)
    (hcalls : ∀ ev ∈ calls, ev.1.nat.Runs ∧ ev.1.filter.Runs) :
    (∀ c ∉ focusGuardChains,
      (g.router.firewall.nat.lookup c).map (List.filter Rule.isForeign) = f.nat.lookup c ∧
      (g.router.firewall.filter.lookup c).map (List.filter Rule.isForeign) = f.filter.lookup c) ∧
    (∀ c ∈ focusGuardChains,
      (∀ l, g.router.firewall.nat.lookup "PREROUTING" = some l → l.count (jumpTo c) ≤ 1) ∧
      ∀ l, g.router.firewall.filter.lookup "FORWARD" = some l → l.count (jumpTo c) ≤ 1) ∧
    (g.features.redirection = false → g.features.tunnels = false → g.router.firewall = f) := by
  have hinv : Reversible f g := by
    refine hrun.invariant (I := Reversible f) ?_ hcalls (Reversible.init f forward)
    rintro g ev g' hev h rfl
    exact h.step hf hev.1 hev.2
  refine ⟨fun c hc => ⟨?_, ?_⟩, fun c hc => ⟨fun l hl => ?_, fun l hl => ?_⟩, fun hr ht => ?_⟩
  · obtain ⟨names, content, hattached, -, hnames⟩ := hinv.nat
    refine hattached.others target_jumpTo (fun b hb => ?_) (fun b hb => (hf b hb).1)
      (fun r => isForeign_iff) hc
    simp [focusGuardChains, ((hnames b).mp hb).1]
  · obtain ⟨names, content, hattached, -, hnames⟩ := hinv.filter
    refine hattached.others target_jumpTo (fun b hb => ?_) (fun b hb => (hf b hb).2)
      (fun r => isForeign_iff) hc
    rcases (hnames b).mp hb with ⟨heq, -⟩ | ⟨heq, -⟩
    · simp [focusGuardChains, heq]
    · simp [focusGuardChains, heq]
  · obtain ⟨names, content, hattached, -, -⟩ := hinv.nat
    exact hattached.count_jump_le target_jumpTo (hf c hc).1 hl
  · obtain ⟨names, content, hattached, -, -⟩ := hinv.filter
    exact hattached.count_jump_le target_jumpTo (hf c hc).2 hl
  · have hnat := hinv.nat.eq_of_none fun c hc => by simp [hr] at hc
    have hfilter := hinv.filter.eq_of_none fun c hc => by simp [hr, ht] at hc
    calc g.router.firewall = ⟨g.router.firewall.nat, g.router.firewall.filter⟩ := rfl
      _ = f := by rw [hnat, hfilter]

section Example

/-- A host that forwards the web to a container. -/
def containerHost : Firewall where
  nat :=
    { chains := [⟨"PREROUTING", [["-p", "tcp", "--dport", "80", "-j", "DOCKER"]]⟩, ⟨"INPUT", []⟩,
        ⟨"OUTPUT", []⟩, ⟨"POSTROUTING", []⟩, ⟨"DOCKER", []⟩].toFinmap
      builtin_mem := by decide }
  filter :=
    { chains := [⟨"INPUT", []⟩, ⟨"FORWARD", [["-j", "ACCEPT"]]⟩, ⟨"OUTPUT", []⟩].toFinmap
      builtin_mem := by decide }

def workingHost : HostEnv where
  nat := ⟨fun _ => none, fun _ => some [], fun _ => []⟩
  filter := ⟨fun _ => none, fun _ => some [], fun _ => []⟩
  canForward := true

theorem containerHost_unclaimed : containerHost.Unclaimed := by
  have hunused : ∀ c ∈ focusGuardChains,
      (containerHost.nat.lookup c = none ∧ ¬ containerHost.nat.Refers Rule.target c) ∧
        containerHost.filter.lookup c = none ∧ ¬ containerHost.filter.Refers Rule.target c := by
    decide +kernel
  intro c hc
  obtain ⟨⟨habsent, hunreferenced⟩, habsent', hunreferenced'⟩ := hunused c hc
  exact ⟨⟨habsent, hunreferenced⟩, habsent', hunreferenced'⟩

/-- Redirection and restrictions, then both off again. -/
def onAndOff : List (HostEnv × FirewallCall) := [
  (workingHost, .enableTransparentRedirection ⟨53, true⟩),
  (workingHost, .enableTunnelRestrictions ⟨true⟩),
  (workingHost, .disableTransparentRedirection ⟨53, true⟩),
  (workingHost, .disableTunnelRestrictions ⟨true⟩)]

/-- The host is left as it was. -/
theorem firewall_reversible_container : ∃ g : Gateway,
    Run (Gateway.Step asciiRuntime) ⟨⟨containerHost, false⟩, {}⟩ onAndOff g ∧
      g.router.firewall = containerHost := by
  have hrun : ∃ g, Run (Gateway.Step asciiRuntime) ⟨⟨containerHost, false⟩, {}⟩ onAndOff g ∧
      g.features.redirection = false ∧ g.features.tunnels = false :=
    ⟨_, .cons rfl (.cons rfl (.cons rfl (.single rfl))), by decide +kernel, by decide +kernel⟩
  obtain ⟨g, hrun, hredirection, htunnels⟩ := hrun
  refine ⟨g, hrun, (firewall_reversible containerHost_unclaimed hrun fun ev hev => ?_).2.2
    hredirection htunnels⟩
  simp only [onAndOff, List.mem_cons, List.not_mem_nil, or_false] at hev
  rcases hev with rfl | rfl | rfl | rfl
  all_goals exact ⟨fun _ => rfl, fun _ => rfl⟩

end Example

end FocusGuard
