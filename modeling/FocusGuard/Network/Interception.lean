import FocusGuard.Lib.ChainWalks
import FocusGuard.Network.FirewallRuns

/-!
# What the firewall does with packets

The rules that `focusguard/network/gateway.py` and `focusguard/network/bypass.py` install, as packets
meet them. The chains of the host may do anything with a packet. Where every command runs, the
packets that are intercepted after some calls are those that the calls ask for, and all others fare
as they would have without the program.

## Main definitions

* `Netfilter`: what a rule does with a packet.
* `Interception`: what the calls so far ask for.

## Main results

* `Intercepts.step`: a call changes the firewall as it changes what is asked for.
* `calls_refine_interception`: the packets after calls whose commands run.
-/

namespace FocusGuard

open ChainTable NetworkGatewayManager BypassResistanceManager

/-- The end of a walk. -/
inductive Fate where
  /-- To the ports of this host that the rule names. -/
  | redirected (toPorts : Text)
  | rejected
  /-- What another target of the host makes of it. -/
  | other (target : Text)
  deriving DecidableEq

/-- The packet filter, for packets `P`. The rules of the program have the meaning that the manual of
`iptables` gives them, and a rule calls no other chain than the one behind `-j`. -/
structure Netfilter (P : Type) where
  protocol : P → Text
  destinationPort : P → Nat
  effect : P → Rule → RuleEffect Text Fate
  jump : ∀ p, ∀ c ∈ focusGuardChains, effect p (jumpTo c) = .call c
  redirect : ∀ p proto port toPorts,
    effect p ["-p", proto, "--dport", port, "-j", "REDIRECT", "--to-ports", toPorts] =
      if protocol p = proto ∧ destinationPort p = Nat.ofDigitChars 10 port 0 then
        .verdict (.redirected toPorts)
      else .pass
  reject : ∀ p proto port, effect p ["-p", proto, "--dport", port, "-j", "REJECT"] =
    if protocol p = proto ∧ destinationPort p = Nat.ofDigitChars 10 port 0 then .verdict .rejected
    else .pass
  target : ∀ p r c, effect p r = .call c → Rule.target r = some c

namespace Netfilter

variable {P : Type} (k : Netfilter P)

/-- A packet with this protocol and this destination port. -/
def Selects (proto : Text) (port : Nat) (p : P) : Prop :=
  k.protocol p = proto ∧ k.destinationPort p = port

instance (proto : Text) (port : Nat) (p : P) : Decidable (k.Selects proto port p) :=
  inferInstanceAs (Decidable (k.protocol p = proto ∧ k.destinationPort p = port))

/-- "All client port 53 DNS traffic". -/
def IsDns (p : P) : Prop := k.Selects "udp" 53 p ∨ k.Selects "tcp" 53 p

def IsDnsOverTls (p : P) : Prop := k.Selects "tcp" 853 p

/-- WireGuard, OpenVPN and IPsec on their standard ports. -/
def IsTunnel (p : P) : Prop :=
  ∃ entry ∈ tunnelPorts, k.Selects entry.1 (Nat.ofDigitChars 10 entry.2.1 0) p

instance (p : P) : Decidable (k.IsDns p) :=
  inferInstanceAs (Decidable (k.Selects "udp" 53 p ∨ k.Selects "tcp" 53 p))

instance (p : P) : Decidable (k.IsDnsOverTls p) := inferInstanceAs (Decidable (k.Selects _ _ p))

instance (p : P) : Decidable (k.IsTunnel p) := inferInstanceAs (Decidable (∃ entry ∈ tunnelPorts, _))

end Netfilter

/-- What the calls so far ask for: the port that DNS goes to, and whether tunnels are rejected. -/
structure Interception where
  redirection : Option Int := none
  tunnels : Bool := false

namespace Interception

def asked (i : Interception) : FirewallCall → Interception
  | .enableTransparentRedirection m => { i with redirection := some m.dnsPort }
  | .disableTransparentRedirection _ => { i with redirection := none }
  | .enableTunnelRestrictions _ => { i with tunnels := true }
  | .disableTunnelRestrictions _ => { i with tunnels := false }

/-- A call without `iptables` asks for nothing. -/
def after (i : Interception) (call : FirewallCall) : Interception :=
  if call.hasIptables then i.asked call else i

def afterAll (calls : List (HostEnv × FirewallCall)) : Interception :=
  calls.foldl (fun i ev => i.after ev.2) {}

variable {P : Type} (k : Netfilter P) (i : Interception) (p : P)

/-- What happens to the packet before it is routed; `none` is what would happen anyhow. -/
def preRouting : Option Fate :=
  if k.IsDns p then i.redirection.map fun port => .redirected (toString port).toList else none

/-- What happens to the packet when it is forwarded. -/
def forward : Option Fate :=
  if (i.redirection.isSome = true ∧ k.IsDnsOverTls p) ∨ (i.tunnels = true ∧ k.IsTunnel p) then
    some .rejected
  else none

/-- The chains of the `nat` table. -/
def natRules (c : Text) : Option (List Rule) :=
  if c = chainRedirect then i.redirection.map redirectRules else none

/-- The chains of the `filter` table. -/
def filterTableRules (c : Text) : Option (List Rule) :=
  if c = chainFilter then if i.redirection.isSome then some filterRules else none
  else if c = chainBypass then if i.tunnels then some bypassRules else none
  else none

variable {i}

theorem natRules_redirection {port : Option Int} :
    natRules { i with redirection := port } =
      Function.update i.natRules chainRedirect (port.map redirectRules) := by
  funext c
  by_cases hc : c = chainRedirect <;> simp [natRules, hc]

theorem filterTableRules_redirection {port : Option Int} :
    filterTableRules { i with redirection := port } =
      Function.update i.filterTableRules chainFilter (port.map fun _ => filterRules) := by
  funext c
  by_cases hc : c = chainFilter <;> cases port <;> simp [filterTableRules, hc]

theorem filterTableRules_tunnels {on : Bool} :
    filterTableRules { i with tunnels := on } =
      Function.update i.filterTableRules chainBypass (if on then some bypassRules else none) := by
  have hne : chainFilter ≠ chainBypass := by decide
  funext c
  by_cases hc : c = chainBypass <;> simp [filterTableRules, hc, hne.symm]

end Interception

/-- No rule has the chain that packets enter by as its target. -/
def Firewall.Rooted (f : Firewall) : Prop :=
  ¬ f.nat.Refers Rule.target "PREROUTING" ∧ ¬ f.filter.Refers Rule.target "FORWARD"

/-! ## The rules of the program -/

section Rules

variable {P : Type} {k : Netfilter P} {p : P} {i : Interception}

theorem effect_redirectRule {proto : Text} {port : Int} :
    k.effect p (redirectRule proto port) = if k.Selects proto 53 p then
      .verdict (.redirected (toString port).toList) else .pass :=
  k.redirect p proto "53" (toString port).toList

theorem mem_redirectRules {port : Int} {r : Rule} (hr : r ∈ redirectRules port) :
    ∃ proto, (proto = "udp" ∨ proto = "tcp") ∧ r = redirectRule proto port := by
  rcases List.mem_pair.mp hr with rfl | rfl
  · exact ⟨_, .inl rfl, rfl⟩
  · exact ⟨_, .inr rfl, rfl⟩

theorem leaf_redirectRules {port : Int} : ∀ r ∈ redirectRules port, Leaf (k.effect p) r := by
  intro r hr
  obtain ⟨proto, -, rfl⟩ := mem_redirectRules hr
  rw [Leaf, effect_redirectRule]
  split
  · exact .inr ⟨_, rfl⟩
  · exact .inl rfl

theorem firstVerdict_redirectRules {port : Int} : firstVerdict (k.effect p) (redirectRules port) =
    if k.IsDns p then some (.redirected (toString port).toList) else none := by
  rw [redirectRules]
  by_cases hudp : k.Selects "udp" 53 p
  · rw [firstVerdict_cons_of_verdict (by rw [effect_redirectRule, if_pos hudp]),
      if_pos (.inl hudp)]
  · rw [firstVerdict_cons_of_pass (by rw [effect_redirectRule, if_neg hudp])]
    by_cases htcp : k.Selects "tcp" 53 p
    · rw [firstVerdict_cons_of_verdict (by rw [effect_redirectRule, if_pos htcp]),
        if_pos (.inr htcp)]
    · have hdns : ¬ k.IsDns p := not_or.mpr ⟨hudp, htcp⟩
      rw [firstVerdict_cons_of_pass (by rw [effect_redirectRule, if_neg htcp]), if_neg hdns]
      rfl

/-- Rules that reject what has a protocol and a port. -/
def rejectRules (entries : List (Text × Text)) : List Rule :=
  entries.map fun entry => ["-p", entry.1, "--dport", entry.2, "-j", "REJECT"]

theorem leaf_rejectRules {entries : List (Text × Text)} :
    ∀ r ∈ rejectRules entries, Leaf (k.effect p) r := by
  intro r hr
  obtain ⟨entry, -, rfl⟩ := List.mem_map.mp hr
  rw [Leaf, k.reject]
  split
  · exact .inr ⟨_, rfl⟩
  · exact .inl rfl

theorem firstVerdict_rejectRules {entries : List (Text × Text)} :
    firstVerdict (k.effect p) (rejectRules entries) =
      if ∃ entry ∈ entries, k.Selects entry.1 (Nat.ofDigitChars 10 entry.2 0) p then some .rejected
      else none := by
  induction entries with
  | nil => simp [rejectRules, firstVerdict]
  | cons entry entries ih =>
    have hrule := k.reject p entry.1 entry.2
    rw [rejectRules, List.map_cons]
    by_cases h : k.Selects entry.1 (Nat.ofDigitChars 10 entry.2 0) p
    · rw [firstVerdict_cons_of_verdict (hrule.trans (if_pos h)),
        if_pos ⟨entry, List.mem_cons_self, h⟩]
    · rw [firstVerdict_cons_of_pass (hrule.trans (if_neg h))]
      refine ih.trans (if_congr ?_ rfl rfl)
      simp [h]

theorem filterRules_eq : filterRules = rejectRules [("tcp", "853")] := rfl

theorem bypassRules_eq : bypassRules =
    rejectRules (tunnelPorts.map fun entry => (entry.1, entry.2.1)) := rfl

theorem firstVerdict_filterRules : firstVerdict (k.effect p) filterRules =
    if k.IsDnsOverTls p then some .rejected else none := by
  rw [filterRules_eq, firstVerdict_rejectRules]
  refine if_congr ?_ rfl rfl
  simp only [List.mem_singleton, exists_eq_left]
  exact Iff.rfl

theorem firstVerdict_bypassRules : firstVerdict (k.effect p) bypassRules =
    if k.IsTunnel p then some .rejected else none := by
  rw [bypassRules_eq, firstVerdict_rejectRules]
  refine if_congr ?_ rfl rfl
  simp [Netfilter.IsTunnel]

end Rules

/-! ## Calls whose commands run -/

/-- The table is `t₀` with these chains, and a jump to each of them. -/
def Carries {builtin : Finset Text} (parent : Text) (t₀ t : ChainTable Text Rule builtin)
    (rules : Text → Option (List Rule)) : Prop :=
  ∃ names content, Attached jumpTo parent t₀ t names content ∧
    ∀ c, rules c = if c ∈ names then some (content c) else none

namespace Carries

variable {builtin : Finset Text} {parent chain : Text} {t₀ t : ChainTable Text Rule builtin}
  {rules : Text → Option (List Rule)} (hparent : parent ∈ builtin)

include hparent

theorem install (h : Carries parent t₀ t rules) (hc : Unused Rule.target t₀ chain)
    (l : List Rule) : Carries parent t₀ (t.install Rule.target jumpTo parent chain l)
      (Function.update rules chain (some l)) := by
  obtain ⟨names, content, hattached, hrules⟩ := h
  refine ⟨_, _, hattached.install hparent target_jumpTo hc l, fun c => ?_⟩
  by_cases hcc : c = chain
  · subst hcc
    rw [Function.update_self, Function.update_self, if_pos]
    split
    · assumption
    · exact List.mem_cons_self
  · rw [Function.update_of_ne hcc, Function.update_of_ne hcc, hrules]
    refine if_congr ?_ rfl rfl
    split
    · rfl
    · simp [hcc]

theorem detach (h : Carries parent t₀ t rules) (hc : Unused Rule.target t₀ chain)
    (hrules : ∀ c l, rules c = some l → ∀ r ∈ l, Rule.target r ≠ some chain) :
    Carries parent t₀ (t.detach Rule.target jumpTo parent chain)
      (Function.update rules chain none) := by
  obtain ⟨names, content, hattached, heq⟩ := h
  refine ⟨_, _, hattached.detach hparent target_jumpTo hc fun b hb => ?_, fun c => ?_⟩
  · exact hrules b (content b) ((heq b).trans (if_pos hb))
  · by_cases hcc : c = chain
    · subst hcc
      rw [Function.update_self, if_neg (fun hm => (hattached.mem_erase_iff.mp hm).1 rfl)]
    · rw [Function.update_of_ne hcc, heq]
      exact if_congr (by rw [hattached.mem_erase_iff, and_iff_right hcc]) rfl rfl

omit hparent in
/-- The chains have the verdict `v` together, if each of them has it or none and one has it. -/
theorem verdict_eq {A : Type} {effect : Rule → RuleEffect Text A} {names : List Text}
    {content : Text → List Rule} (hattached : Attached jumpTo parent t₀ t names content)
    (heq : ∀ c, rules c = if c ∈ names then some (content c) else none) {v : Option A}
    (hle : ∀ c l, rules c = some l → firstVerdict effect l = none ∨ firstVerdict effect l = v)
    (hsome : v ≠ none → ∃ c l, rules c = some l ∧ firstVerdict effect l = v) :
    Extends.verdict effect t names = v := by
  have hlookup : ∀ c ∈ names, (t.lookup c).getD [] = content c := fun c hc => by
    rw [hattached.own c hc, Option.getD_some]
  have hrules : ∀ c ∈ names, rules c = some (content c) := fun c hc => (heq c).trans (if_pos hc)
  cases hv : Extends.verdict effect t names with
  | none =>
    by_contra hne
    obtain ⟨c, l, hl, hverdict⟩ := hsome (Ne.symm hne)
    have hc : c ∈ names := by
      by_contra hc
      rw [heq, if_neg hc] at hl
      cases hl
    obtain rfl := Option.some.inj ((hrules c hc).symm.trans hl)
    have hnone := List.findSome?_eq_none_iff.mp hv c hc
    rw [hlookup c hc, hverdict] at hnone
    exact hne hnone.symm
  | some a =>
    obtain ⟨c, hc, hverdict⟩ := List.exists_of_findSome?_eq_some hv
    rw [hlookup c hc] at hverdict
    rcases hle c _ (hrules c hc) with hnone | hv'
    · rw [hnone] at hverdict
      cases hverdict
    · rw [← hverdict, hv']

/-- What packets meet in the table. -/
theorem fares {A : Type} {effect : Rule → RuleEffect Text A} (h : Carries parent t₀ t rules)
    {reserved : List Text} (hkeeps : Keeps effect parent reserved t₀)
    (hjump : ∀ c ∈ reserved, effect (jumpTo c) = .call c)
    (hreserved : ∀ c l, rules c = some l → c ∈ reserved)
    (hleaf : ∀ c l, rules c = some l → ∀ r ∈ l, Leaf effect r) {v : Option A}
    (hle : ∀ c l, rules c = some l → firstVerdict effect l = none ∨ firstVerdict effect l = v)
    (hsome : v ≠ none → ∃ c l, rules c = some l ∧ firstVerdict effect l = v) (o : Option A) :
    (Fares effect t parent o ↔ Decides v o (Fares effect t₀ parent o)) ∧
      ∀ c ∉ reserved, c ≠ parent → (Fares effect t c o ↔ Fares effect t₀ c o) := by
  obtain ⟨names, content, hattached, heq⟩ := h
  have hrules : ∀ c ∈ names, rules c = some (content c) := fun c hc => (heq c).trans (if_pos hc)
  have hext : Extends jumpTo parent reserved t₀ t names := by
    refine ⟨hattached.head, fun c hc => hreserved c _ (hrules c hc), fun c hc => ?_,
      fun c hp hc => hattached.other c hp fun hm => hc (hreserved c _ (hrules c hm))⟩
    rw [hattached.own c hc]
    rfl
  refine ⟨?_, fun c hc hp => hext.fares_other hkeeps hp hc⟩
  rw [hext.fares_parent hkeeps hparent hjump fun c hc => ?_, verdict_eq hattached heq hle hsome]
  rw [hattached.own c hc]
  exact hleaf c _ (hrules c hc)

end Carries

/-- The firewall is `f` with what is asked for. -/
structure Intercepts (f : Firewall) (i : Interception) (g : Gateway) : Prop where
  nat : Carries "PREROUTING" f.nat g.router.firewall.nat i.natRules
  filter : Carries "FORWARD" f.filter g.router.firewall.filter i.filterTableRules

theorem Interception.rules_foreign (i : Interception) {c chain : Text} {l : List Rule} {r : Rule}
    (hchain : chain ∈ focusGuardChains) (hr : r ∈ l) :
    (i.natRules c = some l → Rule.target r ≠ some chain) ∧
      (i.filterTableRules c = some l → Rule.target r ≠ some chain) := by
  refine ⟨fun h => ?_, fun h => ?_⟩
  · unfold natRules at h
    split at h
    · obtain ⟨port, -, rfl⟩ := Option.map_eq_some_iff.mp h
      exact isForeign_iff.mp ((FocusGuard.rules_foreign port).1 r hr) chain hchain
    · cases h
  · unfold filterTableRules at h
    split_ifs at h
    · obtain rfl := Option.some.inj h
      exact isForeign_iff.mp ((FocusGuard.rules_foreign 0).2.1 r hr) chain hchain
    · obtain rfl := Option.some.inj h
      exact isForeign_iff.mp ((FocusGuard.rules_foreign 0).2.2 r hr) chain hchain

namespace Intercepts

variable {rt : Runtime} {f : Firewall} {i : Interception} {g : Gateway}
  {ev : HostEnv × FirewallCall}

theorem init (f : Firewall) (forward : Bool) : Intercepts f {} ⟨⟨f, forward⟩, {}⟩ where
  nat := ⟨[], fun _ => [], .refl _, by simp [Interception.natRules]⟩
  filter := ⟨[], fun _ => [], .refl _, by simp [Interception.filterTableRules]⟩

/-- A call whose commands run does what it is asked for. -/
theorem step (hf : f.Unclaimed) (h : Intercepts f i g) (hnat : ev.1.nat.Runs)
    (hfilter : ev.1.filter.Runs) : Intercepts f (i.after ev.2) (g.after rt ev) := by
  obtain ⟨henv, call⟩ := ev
  dsimp only at hnat hfilter ⊢
  obtain ⟨hredirect, hdns, htunnel⟩ : chainRedirect ∈ focusGuardChains ∧
    chainFilter ∈ focusGuardChains ∧ chainBypass ∈ focusGuardChains := by simp [focusGuardChains]
  have hnatParent : ("PREROUTING" : Text) ∈ natChains := by decide
  have hfilterParent : ("FORWARD" : Text) ∈ filterChains := by decide
  cases hm : call.hasIptables with
  | false =>
    rw [Gateway.after_of_missing hm, Interception.after, hm]
    exact h
  | true =>
    rw [Interception.after, hm, if_pos rfl]
    cases call with
    | enableTransparentRedirection m =>
      obtain ⟨message, forward, hrun⟩ := enableTransparentRedirection_eq hnat hfilter rt hm g.router
      rw [Gateway.after_of_true (.enableTransparentRedirection m) hrun]
      refine ⟨?_, ?_⟩
      · rw [Interception.asked, Interception.natRules_redirection]
        exact h.nat.install hnatParent (hf _ hredirect).1 _
      · rw [Interception.asked, Interception.filterTableRules_redirection]
        exact h.filter.install hfilterParent (hf _ hdns).2 _
    | disableTransparentRedirection m =>
      obtain ⟨message, hrun⟩ := disableTransparentRedirection_eq hnat hfilter rt hm g.router
      rw [Gateway.after_of_true (.disableTransparentRedirection m) hrun]
      refine ⟨?_, ?_⟩
      · rw [Interception.asked, Interception.natRules_redirection]
        exact h.nat.detach hnatParent (hf _ hredirect).1
          fun c l hl r hr => (i.rules_foreign hredirect hr).1 hl
      · rw [Interception.asked, Interception.filterTableRules_redirection]
        exact h.filter.detach hfilterParent (hf _ hdns).2
          fun c l hl r hr => (i.rules_foreign hdns hr).2 hl
    | enableTunnelRestrictions m =>
      obtain ⟨message, hrun⟩ := enableTunnelRestrictions_eq hfilter hm g.router
      rw [Gateway.after_of_true (.enableTunnelRestrictions m) hrun]
      refine ⟨h.nat, ?_⟩
      rw [Interception.asked, Interception.filterTableRules_tunnels]
      exact h.filter.install hfilterParent (hf _ htunnel).2 _
    | disableTunnelRestrictions m =>
      obtain ⟨message, hrun⟩ := disableTunnelRestrictions_eq hfilter hm g.router
      rw [Gateway.after_of_true (.disableTunnelRestrictions m) hrun]
      refine ⟨h.nat, ?_⟩
      rw [Interception.asked, Interception.filterTableRules_tunnels]
      exact h.filter.detach hfilterParent (hf _ htunnel).2
        fun c l hl r hr => (i.rules_foreign htunnel hr).2 hl

theorem of_run (hf : f.Unclaimed) {forward : Bool} {calls : List (HostEnv × FirewallCall)}
    (hrun : Run (Gateway.Step rt) ⟨⟨f, forward⟩, {}⟩ calls g)
    (hcalls : ∀ ev ∈ calls, ev.1.nat.Runs ∧ ev.1.filter.Runs) :
    Intercepts f (Interception.afterAll calls) g := by
  refine hrun.fold (R := Intercepts f) ?_ hcalls (init f forward)
  rintro i g ev g' hev h rfl
  exact h.step hf hev.1 hev.2

end Intercepts

section Packets

variable {P : Type} {k : Netfilter P} {p : P} {f : Firewall}

/-- No rule of the host calls a chain of the program or one that packets enter by. -/
theorem keeps_of_unclaimed (hf : f.Unclaimed) (hroot : f.Rooted) :
    Keeps (k.effect p) "PREROUTING" focusGuardChains f.nat ∧
      Keeps (k.effect p) "FORWARD" focusGuardChains f.filter := by
  refine ⟨fun c l hl r hr b hb he => ?_, fun c l hl r hr b hb he => ?_⟩
  · have htarget := k.target p r b he
    rcases hb with rfl | hb
    · exact hroot.1 (refers_iff.mpr ⟨c, l, hl, r, hr, htarget⟩)
    · exact (hf b hb).1.target_ne hl hr htarget
  · have htarget := k.target p r b he
    rcases hb with rfl | hb
    · exact hroot.2 (refers_iff.mpr ⟨c, l, hl, r, hr, htarget⟩)
    · exact (hf b hb).2.target_ne hl hr htarget

namespace Intercepts

variable {i : Interception} {g : Gateway}

theorem fares_nat (hf : f.Unclaimed) (hroot : f.Rooted) (h : Intercepts f i g)
    (o : Option Fate) :
    (Fares (k.effect p) g.router.firewall.nat "PREROUTING" o ↔
      Decides (i.preRouting k p) o (Fares (k.effect p) f.nat "PREROUTING" o)) ∧
    ∀ c ∉ focusGuardChains, c ≠ "PREROUTING" →
      (Fares (k.effect p) g.router.firewall.nat c o ↔ Fares (k.effect p) f.nat c o) := by
  have hrules : ∀ c l, i.natRules c = some l →
      c = chainRedirect ∧ ∃ port, i.redirection = some port ∧ l = redirectRules port := by
    intro c l hl
    unfold Interception.natRules at hl
    split at hl
    · next hc =>
      obtain ⟨port, hport, rfl⟩ := Option.map_eq_some_iff.mp hl
      exact ⟨hc, port, hport, rfl⟩
    · cases hl
  have hverdict : ∀ port, i.redirection = some port →
      firstVerdict (k.effect p) (redirectRules port) = i.preRouting k p := fun port hport => by
    rw [firstVerdict_redirectRules, Interception.preRouting, hport, Option.map_some]
  refine h.nat.fares (by decide) (keeps_of_unclaimed hf hroot).1 (k.jump p) ?_ ?_ ?_ ?_ o
  · intro c l hl
    simp [(hrules c l hl).1, focusGuardChains]
  · intro c l hl
    obtain ⟨-, port, -, rfl⟩ := hrules c l hl
    exact leaf_redirectRules
  · intro c l hl
    obtain ⟨-, port, hport, rfl⟩ := hrules c l hl
    exact .inr (hverdict port hport)
  · intro hne
    cases hport : i.redirection with
    | none => exact absurd (by rw [Interception.preRouting, hport]; split <;> rfl) hne
    | some port =>
      exact ⟨chainRedirect, redirectRules port, by simp [Interception.natRules, hport],
        hverdict port hport⟩

theorem fares_filter (hf : f.Unclaimed) (hroot : f.Rooted) (h : Intercepts f i g)
    (o : Option Fate) :
    (Fares (k.effect p) g.router.firewall.filter "FORWARD" o ↔
      Decides (i.forward k p) o (Fares (k.effect p) f.filter "FORWARD" o)) ∧
    ∀ c ∉ focusGuardChains, c ≠ "FORWARD" →
      (Fares (k.effect p) g.router.firewall.filter c o ↔ Fares (k.effect p) f.filter c o) := by
  have hrules : ∀ c l, i.filterTableRules c = some l →
      (c = chainFilter ∧ i.redirection.isSome = true ∧ l = filterRules) ∨
        (c = chainBypass ∧ i.tunnels = true ∧ l = bypassRules) := by
    intro c l hl
    unfold Interception.filterTableRules at hl
    split_ifs at hl with hc hon hc hon
    · exact .inl ⟨hc, hon, (Option.some.inj hl).symm⟩
    · exact .inr ⟨hc, hon, (Option.some.inj hl).symm⟩
  have hne : chainBypass ≠ chainFilter := by decide
  refine h.filter.fares (by decide) (keeps_of_unclaimed hf hroot).2 (k.jump p) ?_ ?_ ?_ ?_ o
  · intro c l hl
    rcases hrules c l hl with ⟨rfl, -⟩ | ⟨rfl, -⟩
    · simp [focusGuardChains]
    · simp [focusGuardChains]
  · intro c l hl
    rcases hrules c l hl with ⟨-, -, rfl⟩ | ⟨-, -, rfl⟩
    · exact filterRules_eq ▸ leaf_rejectRules
    · exact bypassRules_eq ▸ leaf_rejectRules
  · intro c l hl
    rcases hrules c l hl with ⟨-, hon, rfl⟩ | ⟨-, hon, rfl⟩
    · rw [firstVerdict_filterRules]
      by_cases hp : k.IsDnsOverTls p
      · exact .inr (by rw [if_pos hp, Interception.forward, if_pos (.inl ⟨hon, hp⟩)])
      · exact .inl (if_neg hp)
    · rw [firstVerdict_bypassRules]
      by_cases hp : k.IsTunnel p
      · exact .inr (by rw [if_pos hp, Interception.forward, if_pos (.inr ⟨hon, hp⟩)])
      · exact .inl (if_neg hp)
  · intro hsome
    unfold Interception.forward at hsome ⊢
    split at hsome
    · next hcond =>
      rw [if_pos hcond]
      rcases hcond with ⟨hon, hp⟩ | ⟨hon, hp⟩
      · exact ⟨chainFilter, filterRules, by simp [Interception.filterTableRules, hon],
          by rw [firstVerdict_filterRules, if_pos hp]⟩
      · exact ⟨chainBypass, bypassRules, by simp [Interception.filterTableRules, hon, hne],
          by rw [firstVerdict_bypassRules, if_pos hp]⟩
    · exact absurd rfl hsome

end Intercepts

/-- On a ruleset without chains of the program, after any calls whose commands run: a packet that
enters is redirected if it is DNS and the last call about the redirection enabled it, a forwarded one
is rejected if it is DNS over TLS or belongs to a tunnel and that is asked for, and otherwise both
fare as they did at the beginning, as do the packets of every other chain. -/
theorem calls_refine_interception {rt : Runtime} (hf : f.Unclaimed) (hroot : f.Rooted)
    {forward : Bool} {g : Gateway} {calls : List (HostEnv × FirewallCall)}
    (hrun : Run (Gateway.Step rt) ⟨⟨f, forward⟩, {}⟩ calls g)
    (hcalls : ∀ ev ∈ calls, ev.1.nat.Runs ∧ ev.1.filter.Runs) (k : Netfilter P) (p : P)
    (o : Option Fate) :
    ((Fares (k.effect p) g.router.firewall.nat "PREROUTING" o ↔
        Decides ((Interception.afterAll calls).preRouting k p) o
          (Fares (k.effect p) f.nat "PREROUTING" o)) ∧
      ∀ c ∉ focusGuardChains, c ≠ "PREROUTING" →
        (Fares (k.effect p) g.router.firewall.nat c o ↔ Fares (k.effect p) f.nat c o)) ∧
    (Fares (k.effect p) g.router.firewall.filter "FORWARD" o ↔
        Decides ((Interception.afterAll calls).forward k p) o
          (Fares (k.effect p) f.filter "FORWARD" o)) ∧
      ∀ c ∉ focusGuardChains, c ≠ "FORWARD" →
        (Fares (k.effect p) g.router.firewall.filter c o ↔ Fares (k.effect p) f.filter c o) := by
  have hinv := Intercepts.of_run hf hrun hcalls
  exact ⟨hinv.fares_nat hf hroot o, hinv.fares_filter hf hroot o⟩

section Example

/-- The value of an option. -/
def optionValue (flag : Text) : Rule → Option Text
  | name :: value :: rest => if name = flag then some value else optionValue flag rest
  | _ => none

def plainTarget (r : Rule) : RuleEffect Text Fate :=
  match optionValue "-j" r with
  | none => .pass
  | some target =>
    if target = "REJECT" then .verdict .rejected
    else if target = "REDIRECT" then .verdict (.redirected ((optionValue "--to-ports" r).getD []))
    else if target = "RETURN" then .back
    else if target = "ACCEPT" ∨ Rule.target r ≠ some target then .verdict (.other target)
    else .call target

/-- Protocol and port are compared, and some targets are known; a packet is these two. -/
def plainEffect (p : Text × Nat) (r : Rule) : RuleEffect Text Fate :=
  if (∀ proto ∈ optionValue "-p" r, p.1 = proto) ∧
      ∀ port ∈ optionValue "--dport" r, p.2 = Nat.ofDigitChars 10 port 0 then plainTarget r
  else .pass

theorem plainEffect_of_options {p : Text × Nat} {r : Rule} {proto port : Text}
    (hproto : optionValue "-p" r = some proto) (hport : optionValue "--dport" r = some port) :
    plainEffect p r = if p.1 = proto ∧ p.2 = Nat.ofDigitChars 10 port 0 then plainTarget r
      else .pass := by
  unfold plainEffect
  rw [hproto, hport]
  simp

theorem plainTarget_call {r : Rule} {c : Text} (h : plainTarget r = .call c) :
    Rule.target r = some c := by
  unfold plainTarget at h
  split at h
  · cases h
  · next target _ =>
    by_contra hne
    split_ifs at h with _ _ _ hc
    obtain rfl := RuleEffect.call.inj h
    exact hne (not_not.mp (not_or.mp hc).2)

def plainNetfilter : Netfilter (Text × Nat) where
  protocol := Prod.fst
  destinationPort := Prod.snd
  effect := plainEffect
  jump p c hc := by
    simp only [focusGuardChains, List.mem_cons, List.not_mem_nil, or_false] at hc
    rcases hc with rfl | rfl | rfl <;> rfl
  redirect p proto port toPorts := plainEffect_of_options rfl rfl
  reject p proto port := plainEffect_of_options rfl rfl
  target p r c h := by
    unfold plainEffect at h
    split at h
    · exact plainTarget_call h
    · cases h

theorem containerHost_rooted : containerHost.Rooted := by
  have hroot : ¬ containerHost.nat.Refers Rule.target "PREROUTING" ∧
      ¬ containerHost.filter.Refers Rule.target "FORWARD" := by decide +kernel
  exact hroot

theorem onAndOff_runs : ∀ ev ∈ onAndOff.take 2, ev.1.nat.Runs ∧ ev.1.filter.Runs := by
  intro ev hev
  simp only [onAndOff, List.take_succ_cons, List.take_zero, List.mem_cons, List.not_mem_nil,
    or_false] at hev
  rcases hev with rfl | rfl
  all_goals exact ⟨fun _ => rfl, fun _ => rfl⟩

/-- DNS goes to the program, and the web goes on to the container. -/
theorem calls_refine_interception_container : ∃ g : Gateway,
    Run (Gateway.Step asciiRuntime) ⟨⟨containerHost, false⟩, {}⟩ (onAndOff.take 2) g ∧
      Fares (plainEffect ("udp", 53)) g.router.firewall.nat "PREROUTING"
        (some (.redirected "53")) ∧
      Fares (plainEffect ("tcp", 80)) g.router.firewall.nat "PREROUTING" none := by
  have hrun : ∃ g, Run (Gateway.Step asciiRuntime) ⟨⟨containerHost, false⟩, {}⟩
      (onAndOff.take 2) g := ⟨_, .cons rfl (.single rfl)⟩
  obtain ⟨g, hrun⟩ := hrun
  have hweb : Fares (plainEffect ("tcp", 80)) containerHost.nat "PREROUTING" none :=
    ⟨_, rfl, .returned rfl rfl .nil .nil⟩
  refine ⟨g, hrun, ?_, ?_⟩
  · exact (calls_refine_interception containerHost_unclaimed containerHost_rooted hrun
      onAndOff_runs plainNetfilter ("udp", 53) (some (.redirected "53"))).1.1.mpr rfl
  · exact (calls_refine_interception containerHost_unclaimed containerHost_rooted hrun
      onAndOff_runs plainNetfilter ("tcp", 80) none).1.1.mpr hweb

end Example

end Packets

end FocusGuard
