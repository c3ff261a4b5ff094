import FocusGuard.Network.Interception

/-!
# What failing commands do to packets

Commands of a call may fail, be refused or not be started, and a call that is stopped leaves what it
has done by then. Whatever comes of it, the chains of the program hold rules of the program only, and
a jump is inserted to a chain that is there. So there may be fewer packets that are intercepted than
the calls ask for, but never others.

## Main results

* `setUpChain_preserves`, `tearDownChain_preserves`: a table of the host with chains of the program
  stays one.
* `calls_never_interfere`: the packets after any calls.
-/

namespace FocusGuard

open ChainTable NetworkGatewayManager BypassResistanceManager

/-! ## Commands -/

section Commands

variable {builtin : Finset Text} {env : TableEnv} {parent chain : Text} {reserved : List Text}
  {own : Text → Rule → Prop} {t₀ t : ChainTable Text Rule builtin} {rules : List Rule}
  {cmd : IptablesCommand} {check : Bool}

variable (env t cmd check) in
/-- A command that fails leaves the table as it was. -/
theorem iptables_table : (iptables env check cmd t).2 = t ∨
    t.run Rule.target cmd = some (iptables env check cmd t).2 := by
  unfold iptables
  match env.fault cmd with
  | some (.raises message) => exact .inl rfl
  | some .exits => exact .inl rfl
  | none =>
    cases h : t.run Rule.target cmd with
    | none => exact .inl rfl
    | some t' => exact .inr rfl

theorem run_of_checked {done : Bool} {t' : ChainTable Text Rule builtin}
    (h : iptables env true cmd t = (.ok done, t')) : t.run Rule.target cmd = some t' := by
  unfold iptables at h
  match hfault : env.fault cmd with
  | some (.raises message) => simp [hfault] at h
  | some .exits => simp [hfault] at h
  | none =>
    cases hrun : t.run Rule.target cmd with
    | none => simp [hfault, hrun] at h
    | some u => simp_all

/-- A table of the host with chains of the program, in the middle of a call. -/
abbrev Tended (parent : Text) (reserved : List Text) (own : Text → Rule → Prop)
    (t₀ t : ChainTable Text Rule builtin) : Prop :=
  Managed jumpTo parent reserved own t₀ t

variable (hparent : parent ∈ builtin) (hunused : ∀ c ∈ reserved, Unused Rule.target t₀ c)

include hparent hunused

theorem iptables_tended (hcmd : Manages jumpTo parent reserved own cmd)
    (h : Tended parent reserved own t₀ t)
    (hpresent : ∀ c, cmd = .insertFirst parent (jumpTo c) → (t.lookup c).isSome = true) :
    Tended parent reserved own t₀ (iptables env check cmd t).2 := by
  rcases iptables_table env t cmd check with heq | hrun
  · rwa [heq]
  · exact h.run hparent target_jumpTo hunused hcmd hpresent hrun

theorem iptables_preserves (hcmd : Manages jumpTo parent reserved own cmd)
    (hinsert : ∀ c, cmd ≠ .insertFirst parent (jumpTo c)) :
    Exec.Preserves (Tended parent reserved own t₀) (iptables env check cmd) :=
  .of_state fun _ h => iptables_tended hparent hunused hcmd h fun c heq => absurd heq (hinsert c)

/-- A chain that a rule has been appended to is there. -/
theorem append_tended {rule : Rule} (hchain : chain ∈ reserved) (hown : own chain rule) :
    Exec.Triple (Tended parent reserved own t₀) (iptables env true (.append chain rule))
      (fun _ t => Tended parent reserved own t₀ t ∧ (t.lookup chain).isSome = true)
      (fun _ => Tended parent reserved own t₀) := by
  intro t h
  have ht : Tended parent reserved own t₀ (iptables env true (.append chain rule) t).2 :=
    iptables_tended hparent hunused (.append hchain hown) h (by simp)
  match hm : iptables env true (.append chain rule) t with
  | (.error e, t') => rwa [hm] at ht
  | (.ok done, t') =>
    rw [hm] at ht
    obtain ⟨l, -, rfl⟩ := Option.map_eq_some_iff.mp (run_of_checked hm)
    exact ⟨ht, by rw [lookup_set]; rfl⟩

theorem appendRules_tended (hchain : chain ∈ reserved) (hown : ∀ r ∈ rules, own chain r) :
    Exec.Triple (fun t => Tended parent reserved own t₀ t ∧ (t.lookup chain).isSome = true)
      (appendRules env chain rules)
      (fun _ t => Tended parent reserved own t₀ t ∧ (t.lookup chain).isSome = true)
      (fun _ => Tended parent reserved own t₀) := by
  induction rules with
  | nil => exact .pure fun t h => h
  | cons rule rules ih =>
    have hrule : own chain rule := hown rule List.mem_cons_self
    have hone : Exec.Triple (Tended parent reserved own t₀) (iptables env true (.append chain rule))
        _ _ := append_tended hparent hunused hchain hrule
    exact .bind (hone.imp (fun _ h => h.1) (fun _ _ h => h) fun _ _ h => h) fun _ =>
      ih fun r hr => hown r (List.mem_cons_of_mem _ hr)

theorem insertJump_tended (hchain : chain ∈ reserved) :
    Exec.Triple (fun t => Tended parent reserved own t₀ t ∧ (t.lookup chain).isSome = true)
      (iptables env true (.insertFirst parent (jumpTo chain)))
      (fun _ => Tended parent reserved own t₀) (fun _ => Tended parent reserved own t₀) := by
  refine .of_state ?_
  rintro t ⟨h, hpresent⟩
  refine iptables_tended hparent hunused (.insertFirst hchain) h fun c heq => ?_
  rwa [← jump_injective target_jumpTo (ChainCommand.insertFirst.inj heq).2]

omit hparent hunused in
/-- A check changes nothing. -/
theorem check_preserves {I : ChainTable Text Rule builtin → Prop} {r : Rule} :
    Exec.Preserves I (iptables env false (.check parent r)) := by
  refine .of_state fun t h => ?_
  rcases iptables_table env t (.check parent r) false with heq | hrun
  · rwa [heq]
  · obtain ⟨l, -, hif⟩ := Option.bind_eq_some_iff.mp hrun
    split at hif
    · exact Option.some.inj hif ▸ h
    · cases hif

/-- The jump is inserted when the chain is there. -/
theorem ensureJump_tended (hchain : chain ∈ reserved) :
    Exec.Triple (fun t => Tended parent reserved own t₀ t ∧ (t.lookup chain).isSome = true)
      (ensureJump env chain parent) (fun _ => Tended parent reserved own t₀)
      (fun _ => Tended parent reserved own t₀) := by
  refine .bind (check_preserves.imp (fun _ h => h) (fun _ _ h => h) fun _ _ h => h.1) fun _ => ?_
  refine .ite (fun _ => .pure fun _ h => h.1) fun _ => ?_
  exact .bind (insertJump_tended hparent hunused hchain) fun _ => .pure fun _ h => h

theorem setUpChain_preserves (hchain : chain ∈ reserved) (hown : ∀ r ∈ rules, own chain r)
    (hrules : rules ≠ []) :
    Exec.Preserves (Tended parent reserved own t₀) (setUpChain env chain parent rules) := by
  obtain ⟨rule, rest, rfl⟩ := List.exists_cons_of_ne_nil hrules
  refine .bind (iptables_preserves hparent hunused (.new hchain) (by simp)) fun _ => ?_
  refine .bind (iptables_preserves hparent hunused (.flush hchain) (by simp)) fun _ => ?_
  refine .bind (Q := fun _ t => Tended parent reserved own t₀ t ∧ (t.lookup chain).isSome = true)
    ?_ fun _ => ensureJump_tended hparent hunused hchain
  exact .bind (append_tended hparent hunused hchain (hown rule List.mem_cons_self)) fun _ =>
    appendRules_tended hparent hunused hchain fun r hr => hown r (List.mem_cons_of_mem _ hr)

theorem tearDownChain_preserves (hchain : chain ∈ reserved) :
    Exec.Preserves (Tended parent reserved own t₀) (tearDownChain env chain parent) := by
  refine .bind (iptables_preserves hparent hunused (.delete hchain) (by simp)) fun _ => ?_
  refine .bind (iptables_preserves hparent hunused (.flush hchain) (by simp)) fun _ => ?_
  exact .bind (iptables_preserves hparent hunused (.remove hchain) (by simp)) fun _ =>
    .pure fun _ h => h

end Commands

/-! ## Calls -/

section Runs

variable {rt : Runtime} {f : Firewall} {calls : List (HostEnv × FirewallCall)}

/-- The rules that the calls may append to a chain of the `nat` table. -/
def NatOwn (calls : List (HostEnv × FirewallCall)) (c : Text) (r : Rule) : Prop :=
  c = chainRedirect ∧
    ∃ henv m, (henv, .enableTransparentRedirection m) ∈ calls ∧ r ∈ redirectRules m.dnsPort

def FilterOwn (calls : List (HostEnv × FirewallCall)) (c : Text) (r : Rule) : Prop :=
  (c = chainFilter ∧ r ∈ filterRules ∧
      ∃ henv m, (henv, FirewallCall.enableTransparentRedirection m) ∈ calls) ∨
    c = chainBypass ∧ r ∈ bypassRules ∧
      ∃ henv m, (henv, FirewallCall.enableTunnelRestrictions m) ∈ calls

/-- The tables of `f` with chains of the program, in whatever state. -/
structure Tends (f : Firewall) (calls : List (HostEnv × FirewallCall)) (r : Router) : Prop where
  nat : Tended "PREROUTING" focusGuardChains (NatOwn calls) f.nat r.firewall.nat
  filter : Tended "FORWARD" focusGuardChains (FilterOwn calls) f.filter r.firewall.filter

theorem reporting_state {success : Text} {failure : RunError → Except PyError Text}
    {m : Exec RunError Router Unit} (r : Router) : (reporting success failure m r).2 = (m r).2 := by
  unfold reporting
  match m r with
  | (.ok (), r') => rfl
  | (.error e, r') =>
    dsimp only
    cases failure e <;> rfl

namespace Tends

theorem onNat {α : Type} {m : Exec RunError (ChainTable Text Rule natChains) α}
    (h : Exec.Preserves (Tended "PREROUTING" focusGuardChains (NatOwn calls) f.nat) m) :
    Exec.Preserves (Tends f calls) (FocusGuard.onNat m) :=
  .of_state fun _ hr => ⟨h.after hr.nat, hr.filter⟩

theorem onFilter {α : Type} {m : Exec RunError (ChainTable Text Rule filterChains) α}
    (h : Exec.Preserves (Tended "FORWARD" focusGuardChains (FilterOwn calls) f.filter) m) :
    Exec.Preserves (Tends f calls) (FocusGuard.onFilter m) :=
  .of_state fun _ hr => ⟨hr.nat, h.after hr.filter⟩

theorem enableIpForwarding (henv : HostEnv) :
    Exec.Preserves (Tends f calls) (NetworkGatewayManager.enableIpForwarding henv) :=
  .of_state fun r hr => by
    obtain ⟨done, forward, heq⟩ := enableIpForwarding_eq henv r
    rw [heq]
    exact ⟨hr.nat, hr.filter⟩

/-- Whatever becomes of its commands, a call leaves the tables in such a state. -/
theorem run (hf : f.Unclaimed) {henv : HostEnv} {call : FirewallCall}
    (hcall : (henv, call) ∈ calls) : Exec.Preserves (Tends f calls) (call.run rt henv) := by
  obtain ⟨hredirect, hdns, htunnel⟩ : chainRedirect ∈ focusGuardChains ∧
    chainFilter ∈ focusGuardChains ∧ chainBypass ∈ focusGuardChains := by simp [focusGuardChains]
  have hnatParent : ("PREROUTING" : Text) ∈ natChains := by decide
  have hfilterParent : ("FORWARD" : Text) ∈ filterChains := by decide
  have hnat : ∀ c ∈ focusGuardChains, Unused Rule.target f.nat c := fun c hc => (hf c hc).1
  have hfilter : ∀ c ∈ focusGuardChains, Unused Rule.target f.filter c := fun c hc => (hf c hc).2
  have hreporting : ∀ {success : Text} {failure : RunError → Except PyError Text}
      {m : Exec RunError Router Unit}, Exec.Preserves (Tends f calls) m →
      Exec.Preserves (Tends f calls) (reporting success failure m) := fun hm =>
    .of_state fun r hr => by
      rw [reporting_state]
      exact hm.after hr
  cases call with
  | enableTransparentRedirection m =>
    refine .ite (fun _ => .pure fun _ h => h) fun _ => hreporting ?_
    refine .bind (enableIpForwarding henv) fun _ => .bind (onNat ?_) fun _ => onFilter ?_
    · exact setUpChain_preserves hnatParent hnat hredirect (fun r hr => ⟨rfl, henv, m, hcall, hr⟩)
        (by simp [redirectRules])
    · exact setUpChain_preserves hfilterParent hfilter hdns
        (fun r hr => .inl ⟨rfl, hr, henv, m, hcall⟩) (by simp [filterRules])
  | disableTransparentRedirection m =>
    refine .ite (fun _ => .pure fun _ h => h) fun _ => hreporting ?_
    exact .bind (onNat (tearDownChain_preserves hnatParent hnat hredirect)) fun _ =>
      onFilter (tearDownChain_preserves hfilterParent hfilter hdns)
  | enableTunnelRestrictions m =>
    refine .ite (fun _ => .pure fun _ h => h) fun _ => hreporting (onFilter ?_)
    exact setUpChain_preserves hfilterParent hfilter htunnel
      (fun r hr => .inr ⟨rfl, hr, henv, m, hcall⟩) (by simp [bypassRules, tunnelPorts])
  | disableTunnelRestrictions m =>
    refine .ite (fun _ => .pure fun _ h => h) fun _ => hreporting ?_
    exact onFilter (tearDownChain_preserves hfilterParent hfilter htunnel)

end Tends

variable {P : Type} {k : Netfilter P} {p : P} {r : Rule} {c : Text} {a : Fate}

theorem NatOwn.leaf (h : NatOwn calls c r) : Leaf (k.effect p) r := by
  obtain ⟨-, henv, m, -, hr⟩ := h
  exact leaf_redirectRules r hr

theorem NatOwn.verdict (h : NatOwn calls c r) (he : k.effect p r = .verdict a) :
    c = chainRedirect ∧ k.IsDns p ∧
      ∃ henv m, (henv, .enableTransparentRedirection m) ∈ calls ∧
        a = .redirected (toString m.dnsPort).toList := by
  obtain ⟨hc, henv, m, hcall, hr⟩ := h
  obtain ⟨proto, hproto, rfl⟩ := mem_redirectRules hr
  rw [effect_redirectRule] at he
  split at he
  · next hsel =>
    have hdns : k.IsDns p := by
      rcases hproto with rfl | rfl
      · exact .inl hsel
      · exact .inr hsel
    exact ⟨hc, hdns, henv, m, hcall, (RuleEffect.verdict.inj he).symm⟩
  · cases he

theorem FilterOwn.leaf (h : FilterOwn calls c r) : Leaf (k.effect p) r := by
  rcases h with ⟨-, hr, -⟩ | ⟨-, hr, -⟩
  · exact leaf_rejectRules r (filterRules_eq ▸ hr)
  · exact leaf_rejectRules r (bypassRules_eq ▸ hr)

/-- A rule among others that reject decides about what one of them rejects. -/
theorem rejected_of_verdict {rules : List Rule} {entries : List (Text × Text)}
    (hrules : rules = rejectRules entries) (hr : r ∈ rules) (he : k.effect p r = .verdict a) :
    a = .rejected ∧ firstVerdict (k.effect p) rules = some .rejected := by
  subst hrules
  obtain ⟨entry, hentry, rfl⟩ := List.mem_map.mp hr
  rw [k.reject] at he
  split at he
  · next hsel =>
    rw [firstVerdict_rejectRules, if_pos ⟨entry, hentry, hsel⟩]
    exact ⟨(RuleEffect.verdict.inj he).symm, rfl⟩
  · cases he

theorem FilterOwn.verdict (h : FilterOwn calls c r) (he : k.effect p r = .verdict a) :
    a = .rejected ∧
      ((c = chainFilter ∧ k.IsDnsOverTls p ∧
          ∃ henv m, (henv, .enableTransparentRedirection m) ∈ calls) ∨
        c = chainBypass ∧ k.IsTunnel p ∧
          ∃ henv m, (henv, .enableTunnelRestrictions m) ∈ calls) := by
  rcases h with ⟨hc, hr, hcall⟩ | ⟨hc, hr, hcall⟩
  · obtain ⟨ha, hfirst⟩ := rejected_of_verdict filterRules_eq hr he
    rw [firstVerdict_filterRules] at hfirst
    refine ⟨ha, .inl ⟨hc, ?_, hcall⟩⟩
    by_contra hp
    rw [if_neg hp] at hfirst
    cases hfirst
  · obtain ⟨ha, hfirst⟩ := rejected_of_verdict bypassRules_eq hr he
    rw [firstVerdict_bypassRules] at hfirst
    refine ⟨ha, .inr ⟨hc, ?_, hcall⟩⟩
    by_contra hp
    rw [if_neg hp] at hfirst
    cases hfirst

namespace Tends

theorem init (hf : f.Unclaimed) (forward : Bool) : Tends f calls ⟨f, forward⟩ where
  nat := .refl fun c hc => (hf c hc).1.absent
  filter := .refl fun c hc => (hf c hc).2.absent

theorem of_run (hf : f.Unclaimed) {forward : Bool} {g : Gateway}
    (hrun : Run (Gateway.Step rt) ⟨⟨f, forward⟩, {}⟩ calls g) : Tends f calls g.router := by
  have hstep : ∀ (g : Gateway) (ev : HostEnv × FirewallCall) (g' : Gateway), ev ∈ calls →
      Tends f calls g.router → Gateway.Step rt g ev g' → Tends f calls g'.router := by
    rintro g ⟨henv, call⟩ g' hev h rfl
    exact (run hf hev).after h
  exact hrun.invariant (I := fun g => Tends f calls g.router) hstep (fun ev hev => hev)
    (init hf forward)

variable {router : Router} (hf : f.Unclaimed) (hroot : f.Rooted) (h : Tends f calls router)
  (k p)

include hf hroot h

/-- The packets that enter. -/
theorem fares_nat :
    (∃ v, (∀ a, v = some a → (router.firewall.nat.lookup chainRedirect).isSome = true ∧
        k.IsDns p ∧ ∃ henv m, (henv, .enableTransparentRedirection m) ∈ calls ∧
          a = .redirected (toString m.dnsPort).toList) ∧
      ∀ o, Fares (k.effect p) router.firewall.nat "PREROUTING" o ↔
        Decides v o (Fares (k.effect p) f.nat "PREROUTING" o)) ∧
    ∀ c ∉ focusGuardChains, c ≠ "PREROUTING" → ∀ o,
      Fares (k.effect p) router.firewall.nat c o ↔ Fares (k.effect p) f.nat c o := by
  obtain ⟨⟨v, hv, hfares⟩, hother⟩ := h.nat.fares (keeps_of_unclaimed (k := k) (p := p) hf hroot).1
    (by decide) (k.jump p) fun _ _ => NatOwn.leaf
  refine ⟨⟨v, fun a ha => ?_, hfares⟩, hother⟩
  obtain ⟨c, r, hpresent, hown, he⟩ := hv a ha
  obtain ⟨rfl, hverdict⟩ := hown.verdict he
  exact ⟨hpresent, hverdict⟩

/-- The packets that are forwarded. -/
theorem fares_filter :
    (∃ v, (∀ a, v = some a → a = .rejected ∧
        (((router.firewall.filter.lookup chainFilter).isSome = true ∧ k.IsDnsOverTls p ∧
            ∃ henv m, (henv, .enableTransparentRedirection m) ∈ calls) ∨
          (router.firewall.filter.lookup chainBypass).isSome = true ∧ k.IsTunnel p ∧
            ∃ henv m, (henv, .enableTunnelRestrictions m) ∈ calls)) ∧
      ∀ o, Fares (k.effect p) router.firewall.filter "FORWARD" o ↔
        Decides v o (Fares (k.effect p) f.filter "FORWARD" o)) ∧
    ∀ c ∉ focusGuardChains, c ≠ "FORWARD" → ∀ o,
      Fares (k.effect p) router.firewall.filter c o ↔ Fares (k.effect p) f.filter c o := by
  obtain ⟨⟨v, hv, hfares⟩, hother⟩ := h.filter.fares
    (keeps_of_unclaimed (k := k) (p := p) hf hroot).2 (by decide) (k.jump p) fun _ _ => FilterOwn.leaf
  refine ⟨⟨v, fun a ha => ?_, hfares⟩, hother⟩
  obtain ⟨c, r, hpresent, hown, he⟩ := hv a ha
  obtain ⟨ha, ⟨rfl, hverdict⟩ | ⟨rfl, hverdict⟩⟩ := hown.verdict he
  · exact ⟨ha, .inl ⟨hpresent, hverdict⟩⟩
  · exact ⟨ha, .inr ⟨hpresent, hverdict⟩⟩

end Tends

/-- On a ruleset without chains of the program, after any calls, whichever of their commands fail or
are refused: a packet that enters is redirected only if it is DNS, to the port of one of the calls
that enable the redirection, a forwarded one is rejected only if it is DNS over TLS or belongs to a
tunnel and a call asks for that, and otherwise both fare as they did at the beginning, as do the
packets of every other chain. -/
theorem calls_never_interfere (hf : f.Unclaimed) (hroot : f.Rooted) {forward : Bool} {g : Gateway}
    (hrun : Run (Gateway.Step rt) ⟨⟨f, forward⟩, {}⟩ calls g) (k : Netfilter P) (p : P) :
    ((∃ v, (∀ a, v = some a → k.IsDns p ∧
          ∃ henv m, (henv, .enableTransparentRedirection m) ∈ calls ∧
            a = .redirected (toString m.dnsPort).toList) ∧
        ∀ o, Fares (k.effect p) g.router.firewall.nat "PREROUTING" o ↔
          Decides v o (Fares (k.effect p) f.nat "PREROUTING" o)) ∧
      ∀ c ∉ focusGuardChains, c ≠ "PREROUTING" → ∀ o,
        Fares (k.effect p) g.router.firewall.nat c o ↔ Fares (k.effect p) f.nat c o) ∧
    (∃ v, (∀ a, v = some a → a = .rejected ∧
        ((k.IsDnsOverTls p ∧ ∃ henv m, (henv, .enableTransparentRedirection m) ∈ calls) ∨
          k.IsTunnel p ∧ ∃ henv m, (henv, .enableTunnelRestrictions m) ∈ calls)) ∧
      ∀ o, Fares (k.effect p) g.router.firewall.filter "FORWARD" o ↔
        Decides v o (Fares (k.effect p) f.filter "FORWARD" o)) ∧
    ∀ c ∉ focusGuardChains, c ≠ "FORWARD" → ∀ o,
      Fares (k.effect p) g.router.firewall.filter c o ↔ Fares (k.effect p) f.filter c o := by
  have hinv := Tends.of_run hf hrun
  obtain ⟨⟨v, hv, hentered⟩, hnat⟩ := Tends.fares_nat k p hf hroot hinv
  obtain ⟨⟨w, hw, hforwarded⟩, hfilter⟩ := Tends.fares_filter k p hf hroot hinv
  refine ⟨⟨⟨v, fun a ha => (hv a ha).2, hentered⟩, hnat⟩, ⟨w, fun a ha => ?_, hforwarded⟩, hfilter⟩
  obtain ⟨ha, ⟨-, hdot⟩ | ⟨-, htunnel⟩⟩ := hw a ha
  · exact ⟨ha, .inl hdot⟩
  · exact ⟨ha, .inr htunnel⟩

/-- Another program takes the lock when the second rule of the redirection is appended. -/
def lockedHost : HostEnv where
  nat := ⟨fun cmd => if cmd = .append chainRedirect (redirectRule "tcp" 53) then some .exits
    else none, fun _ => some [], fun _ => []⟩
  filter := ⟨fun _ => none, fun _ => some [], fun _ => []⟩
  canForward := true

/-- Half of a redirection, and the web goes on to the container. -/
theorem calls_never_interfere_container : ∃ g : Gateway,
    Run (Gateway.Step asciiRuntime) ⟨⟨containerHost, false⟩, {}⟩
        [(lockedHost, .enableTransparentRedirection ⟨53, true⟩)] g ∧
      g.features.redirection = false ∧
      ∀ o, Fares (plainEffect ("tcp", 80)) g.router.firewall.nat "PREROUTING" o ↔
        Fares (plainEffect ("tcp", 80)) containerHost.nat "PREROUTING" o := by
  have hrun : ∃ g, Run (Gateway.Step asciiRuntime) ⟨⟨containerHost, false⟩, {}⟩
      [(lockedHost, .enableTransparentRedirection ⟨53, true⟩)] g ∧
        g.features.redirection = false := ⟨_, .single rfl, by decide +kernel⟩
  obtain ⟨g, hrun, hoff⟩ := hrun
  obtain ⟨⟨⟨v, hv, hfares⟩, -⟩, -⟩ := calls_never_interfere containerHost_unclaimed
    containerHost_rooted hrun plainNetfilter ("tcp", 80)
  have hnone : v = none := Option.eq_none_iff_forall_ne_some.mpr fun a ha =>
    absurd (hv a ha).1 (by decide)
  subst hnone
  exact ⟨g, hrun, hoff, hfares⟩

end Runs

end FocusGuard
