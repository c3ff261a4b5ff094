import FocusGuard.Core.SessionScope

/-!
# What the catalogues match is blocked

The status screens look a name up in the catalogues, the sinkhole in its rules. After a refresh
the two agree: a name that a blocked service, a VPN provider or a DoH provider matches is blocked.

## Main results

* `refreshSinkhole_rules`: the rules that a refresh installs.
* `catalogue_matches_blocked`: what is matched is blocked.
-/

namespace FocusGuard

open PolicyEngine

/-- `identify_bypass_attempt(domain)` finds the domain, and this endpoint is at or above it. -/
def BypassMatch (rt : Runtime) (domain endpoint : Text) : Prop :=
  (identifyBypassAttempt rt domain).isSome = true ∧
    Text.under (rt.lower (Text.strip domain)) endpoint = true

variable {rt : Runtime} {e e' : PolicyEngine} {d q : Text}

/-- A refresh installs the rules of the domains in force, in the mode that was set. -/
theorem refreshSinkhole_rules (h : refreshSinkhole rt e = (.ok (), e')) :
    e'.sinkhole.allowlistMode = e.sinkhole.allowlistMode ∧
      e'.sinkhole.blockedTrees = rulesOf rt
        ((if e.sinkhole.blockDoh then dohBootstrapDomains else []) ++
          getAllActiveBlockedDomains rt e.config e.session) := by
  unfold refreshSinkhole at h
  rw [Exec.bind_of_ok (Exec.get_apply e)] at h
  obtain ⟨s, hset, rfl⟩ := Exec.focus_eq_ok.mp h
  unfold DomainSinkhole.setBlockedDomains at hset
  rw [Exec.bind_of_ok (Exec.get_apply _)] at hset
  obtain ⟨trees, _, hrules, hs⟩ := Exec.bind_eq_ok.mp hset
  obtain ⟨htrees, rfl⟩ := Exec.ofExcept_eq_ok.mp hrules
  cases hs
  exact ⟨rfl, (blockedRules_eq_ok_iff.mp htrees).2⟩

/-! ## Looking up -/

theorem serviceRegistry_ids : (serviceRegistry.map ServiceDefinition.id).Nodup ∧
    ∀ svc ∈ serviceRegistry, (∀ c ∈ svc.id, Text.isAsciiChar c = true) ∧
      (Text.strip svc.id).map Char.toLower = svc.id ∧
      ∀ entry ∈ aliasMap, entry.1 ≠ svc.id := by
  decide +kernel

/-- A service is found again by its own identifier. -/
theorem getService_id {svc : ServiceDefinition} (hs : svc ∈ serviceRegistry) :
    getService rt svc.id = some svc := by
  obtain ⟨hnodup, hids⟩ := serviceRegistry_ids
  obtain ⟨hascii, hsame, halias⟩ := hids svc hs
  have hstrip : ∀ c ∈ Text.strip svc.id, Text.isAsciiChar c = true ∨ c = Text.replacement :=
    fun c hc => .inl (hascii c (Text.mem_of_mem_stripBy hc))
  have hsid : rt.lower (Text.strip svc.id) = svc.id := by rw [rt.lower_of_ascii hstrip, hsame]
  have hnone : aliasMap.find? (fun entry => entry.1 = svc.id) = none := by
    rw [List.find?_eq_none]
    exact fun entry he => by simpa using halias entry he
  simp only [getService, hsid, hnone]
  cases hfound : serviceRegistry.find? fun other => other.id = svc.id with
  | none =>
    rw [List.find?_eq_none] at hfound
    exact absurd (hfound svc hs) (by simp)
  | some other =>
    have hid : other.id = svc.id := by simpa using List.find?_some hfound
    rw [List.inj_on_of_nodup_map hnodup (List.mem_of_find?_eq_some hfound) hs hid]

/-- The service that is matched covers the name. -/
theorem matchDomainToService_eq {id : Text} (h : matchDomainToService rt q = (true, some id)) :
    ∃ svc ∈ serviceRegistry, svc.id = id ∧ svc.covers (rt.lower (Text.strip q)) = true := by
  simp only [matchDomainToService] at h
  cases hfound : serviceRegistry.find? fun svc => svc.covers (rt.lower (Text.strip q)) with
  | none =>
    rw [hfound] at h
    cases h
  | some svc =>
    rw [hfound] at h
    cases h
    exact ⟨svc, List.mem_of_find?_eq_some hfound, rfl, by simpa using List.find?_some hfound⟩

/-- A name without blanks, and without a dot at either end, is only put in lower case. -/
theorem strip_of_unpadded (hblank : ∀ c ∈ q, Text.isSpace c = false)
    (hhead : q.head? ≠ some '.') (hlast : q.getLast? ≠ some '.') :
    Text.strip q = q ∧ cleanDomain rt q = rt.lower q := by
  have hspace : ∀ c ∈ q, ¬ Text.isSpace c = true := fun c hc => by simp [hblank c hc]
  have hdot : ∀ c ∈ q, c ≠ '.' → ¬ isDomainBlank c = true := by
    intro c hc hne hb
    simp only [isDomainBlank, List.mem_cons, List.not_mem_nil, or_false, decide_eq_true_eq] at hb
    rcases hb with rfl | rfl | rfl | rfl | rfl
    · exact hne rfl
    all_goals exact hspace _ hc (by decide)
  constructor
  · exact Text.stripBy_eq_self (fun c hc => hspace c (List.mem_of_mem_head? hc))
      fun c hc => hspace c (List.mem_of_mem_getLast? hc)
  · rw [cleanDomain, Text.stripBy_eq_self]
    · intro c hc
      exact hdot c (List.mem_of_mem_head? hc) fun heq => hhead (heq ▸ hc)
    · intro c hc
      exact hdot c (List.mem_of_mem_getLast? hc) fun heq => hlast (heq ▸ hc)

/-! ## What is matched -/

/-- After a refresh in blocklist mode a name under an entry that is in force is blocked. -/
theorem isBlocked_of_ruleEntry (hlower : LowerLaws rt) (h : refreshSinkhole rt e = (.ok (), e'))
    (hmode : e.sinkhole.allowlistMode = false) {r : Text} (hr : RuleEntry r)
    (hforce : r ∈ permanentlyBlocked rt e.config)
    (hunder : Text.under (cleanDomain rt q) r = true) : (e'.sinkhole.isBlocked rt q).1 = true := by
  obtain ⟨hmode', htrees⟩ := refreshSinkhole_rules h
  have hmem : r ∈ (if e.sinkhole.blockDoh then dohBootstrapDomains else []) ++
      getAllActiveBlockedDomains rt e.config e.session :=
    List.mem_append_right _ (mem_getAllActiveBlockedDomains.mpr (.inl hforce))
  have hclean : cleanDomain rt r = r := by
    rw [hr.validated.cleanDomain_eq, chomp_of_not hr.last]
  exact blocks_of_mem (hmode'.trans hmode) htrees hlower hr.validated hr.notNumeric hmem q
    (hclean.symm ▸ hunder) (hr.apart.not_essential hunder)

/-- Catalogue matches are enforced: after a refresh in blocklist mode a name that a permanently
blocked service matches is blocked, and so is one that is matched through a VPN domain, or through
a DoH endpoint other than an address, while these are blocked. -/
theorem catalogue_matches_blocked (hlower : LowerLaws rt)
    (hrefresh : refreshSinkhole rt e = (.ok (), e')) (hmode : e.sinkhole.allowlistMode = false)
    (hblank : ∀ c ∈ q, Text.isSpace c = false) (hhead : q.head? ≠ some '.')
    (hlast : q.getLast? ≠ some '.') :
    (∀ id ∈ e.config.permanentServices, matchDomainToService rt q = (true, some id) →
      (e'.sinkhole.isBlocked rt q).1 = true) ∧
    (∀ endpoint ∈ getAllVpnDomains, e.config.blockVpns = true → BypassMatch rt q endpoint →
      (e'.sinkhole.isBlocked rt q).1 = true) ∧
    ∀ endpoint ∈ getAllDohDomains, isIpLiteral endpoint = false → e.config.blockDoh = true →
      BypassMatch rt q endpoint → (e'.sinkhole.isBlocked rt q).1 = true := by
  obtain ⟨hstrip, hclean⟩ : Text.strip q = q ∧ cleanDomain rt q = rt.lower q :=
    strip_of_unpadded hblank hhead hlast
  have hname : rt.lower (Text.strip q) = cleanDomain rt q := by rw [hstrip, hclean]
  refine ⟨fun id hid hmatch => ?_, fun endpoint hm hvpns hmatch => ?_,
    fun endpoint hm hip hdoh hmatch => ?_⟩
  · obtain ⟨svc, hs, rfl, hcovers⟩ := matchDomainToService_eq hmatch
    rw [hname] at hcovers
    obtain ⟨r, hr, hrule, hunder⟩ := serviceRegistry_cover hs hcovers
    refine isBlocked_of_ruleEntry hlower hrefresh hmode hrule ?_ hunder
    simp only [permanentlyBlocked, List.mem_append]
    exact .inl (.inl (.inr (mem_getAllDomainsForServices hid (getService_id hs) hr)))
  · refine isBlocked_of_ruleEntry hlower hrefresh hmode (getAllVpnDomains_ruleEntry endpoint hm) ?_
      (hname ▸ hmatch.2)
    simp [permanentlyBlocked, hvpns, hm]
  · refine isBlocked_of_ruleEntry hlower hrefresh hmode
      (getAllDohDomains_ruleEntry endpoint hm hip) ?_ (hname ▸ hmatch.2)
    simp [permanentlyBlocked, hdoh, hm]

section Example

/-- An engine that blocks YouTube, before its first refresh. -/
def blockingYoutube : PolicyEngine where
  sinkhole := ⟨true, ∅, rulesOf asciiRuntime essentialSystemDomains, false⟩
  stateManager := { disk := {} }
  config := { permanentServices := ["youtube"] }
  session := {}

theorem refresh_blockingYoutube :
    refreshSinkhole asciiRuntime blockingYoutube =
      (.ok (), refreshed asciiRuntime blockingYoutube) := by
  refine refreshSinkhole_eq ⟨rfl, rfl, ?_, by simp [blockingYoutube], fun hl => by cases hl⟩
  exact allowedRules_eq_ok_iff.mpr ⟨by simp [blockingYoutube], by simp [blockingYoutube]⟩

/-- `www.youtube.com`, `api.nordvpn.com` and `dns.google` are blocked there. -/
theorem catalogue_matches_blocked_youtube :
    ((refreshed asciiRuntime blockingYoutube).sinkhole.isBlocked asciiRuntime
      "www.youtube.com").1 = true ∧
    ((refreshed asciiRuntime blockingYoutube).sinkhole.isBlocked asciiRuntime
      "api.nordvpn.com").1 = true ∧
    ((refreshed asciiRuntime blockingYoutube).sinkhole.isBlocked asciiRuntime
      "dns.google").1 = true := by
  have hmatch : matchDomainToService asciiRuntime "www.youtube.com" =
      (true, some "youtube".toList) := by decide +kernel
  have hvpn : BypassMatch asciiRuntime "api.nordvpn.com" "nordvpn.com" := by
    unfold BypassMatch
    decide +kernel
  have hdoh : BypassMatch asciiRuntime "dns.google" "dns.google" := by
    unfold BypassMatch
    decide +kernel
  refine ⟨?_, ?_, ?_⟩
  · exact (catalogue_matches_blocked lowerLaws_ascii refresh_blockingYoutube rfl (by decide)
      (by decide) (by decide)).1 _ List.mem_cons_self hmatch
  · exact (catalogue_matches_blocked lowerLaws_ascii refresh_blockingYoutube rfl (by decide)
      (by decide) (by decide)).2.1 _ (by decide) rfl hvpn
  · exact (catalogue_matches_blocked lowerLaws_ascii refresh_blockingYoutube rfl (by decide)
      (by decide) (by decide)).2.2 _ (by decide) (by decide) rfl hdoh

end Example

end FocusGuard
