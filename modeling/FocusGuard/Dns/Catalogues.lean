import FocusGuard.Core.Services
import FocusGuard.Dns.Normalized
import FocusGuard.Network.Bypass

/-!
# The catalogues

What the companion table, the service registry and the bypass lists may hold. A service may list a
pattern with a star, which is plain text but no domain; every other companion or service domain is
normalized, and normalizing it again leaves it as it is. No entry shares a name with an essential
system domain, and what a pattern stands for is under a domain of the same service.

## Main results

* `companions_checked`, `serviceRegistry_entry`: the entries, checked one by one.
* `serviceRegistry_cover`: every name that a service covers is under a domain that gets a rule.
* `serviceRegistry_plain`, `getCompanionDomains_plain`: no catalogue makes a refresh raise.
-/

namespace FocusGuard

variable {rt : Runtime}

/-- A pattern, or a normalized domain that normalizes again. -/
def CatalogueEntry (d : Text) : Prop := ('*' ∈ d ∧ Plain d) ∨ (Validated d ∧ ¬ NumericTail d)

instance (d : Text) : Decidable (CatalogueEntry d) :=
  inferInstanceAs (Decidable (('*' ∈ d ∧ Plain d) ∨ (Validated d ∧ ¬ NumericTail d)))

theorem CatalogueEntry.plain {d : Text} (h : CatalogueEntry d) : Plain d := by
  rcases h with ⟨-, h⟩ | ⟨h, -⟩
  · exact h
  · exact h.plain

theorem CatalogueEntry.domain {d : Text} (h : CatalogueEntry d) (hstar : '*' ∉ d) :
    Validated d ∧ ¬ NumericTail d := by
  rcases h with ⟨hm, -⟩ | h
  · exact absurd hm hstar
  · exact h

/-- No name is at or under both this one and an essential system domain. -/
def Apart (d : Text) : Prop := ∀ name ∈ essentialSystemDomains, ¬ name <:+ d ∧ ¬ d <:+ name

instance (d : Text) : Decidable (Apart d) :=
  inferInstanceAs (Decidable (∀ name ∈ essentialSystemDomains, ¬ name <:+ d ∧ ¬ d <:+ name))

theorem isSuffix_of_under {d r : Text} (h : Text.under d r = true) : r <:+ d := by
  simp only [Text.under, decide_eq_true_eq] at h
  rcases h with rfl | h
  · exact List.suffix_refl d
  · exact (List.suffix_cons '.' r).trans h

/-- A name under such an entry is not essential. -/
theorem Apart.not_essential {d r : Text} (h : Apart r) (hunder : Text.under d r = true) :
    ¬ Essential d := by
  rintro ⟨name, hname, hessential⟩
  rcases List.suffix_or_suffix_of_suffix (isSuffix_of_under hunder)
    (isSuffix_of_under hessential) with hsuffix | hsuffix
  · exact (h name hname).2 hsuffix
  · exact (h name hname).1 hsuffix

/-- A normalized domain that keeps its form and is apart from the essential ones. -/
structure RuleEntry (d : Text) : Prop where
  validated : Validated d
  notNumeric : ¬ NumericTail d
  last : d.getLast? ≠ some '\n'
  apart : Apart d

theorem ruleEntry_iff {d : Text} : RuleEntry d ↔
    Validated d ∧ ¬ NumericTail d ∧ d.getLast? ≠ some '\n' ∧ Apart d :=
  ⟨fun h => ⟨h.1, h.2, h.3, h.4⟩, fun h => ⟨h.1, h.2.1, h.2.2.1, h.2.2.2⟩⟩

instance (d : Text) : Decidable (RuleEntry d) := decidable_of_iff _ ruleEntry_iff.symm

/-- Four labels of digits. -/
def isIpLiteral (t : Text) : Bool :=
  (labelsOf t).length = 4 ∧ (labelsOf t).all fun label => label ≠ [] ∧ label.all Char.isDigit

/-! ## The entries -/

theorem companions_checked : ∀ entry ∈ serviceCompanions, ∀ d ∈ entry.2,
    Validated d ∧ ¬ NumericTail d ∧ d.getLast? ≠ some '\n' := by decide +kernel

/-- All names of the service, with repetitions. -/
def ServiceDefinition.listed (svc : ServiceDefinition) : List Text :=
  svc.primaryDomains ++ svc.companionDomains ++ svc.mobileApiEndpoints ++ svc.cdnDomains ++
    svc.dohEndpoints

theorem mem_allDomains {svc : ServiceDefinition} {d : Text} :
    d ∈ svc.allDomains ↔ d ∈ svc.listed :=
  List.mem_dedup

/-- A pattern stands for names under a domain of the same service, every other entry gets a rule. -/
theorem serviceRegistry_checked : ∀ svc ∈ serviceRegistry, ∀ d ∈ svc.listed,
    if '*' ∈ d then Plain d ∧ ∃ r ∈ svc.listed, '*' ∉ r ∧ Text.under (candidateSuffix d) r = true
    else RuleEntry d := by
  decide +kernel

theorem serviceRegistry_ruleEntry {svc : ServiceDefinition} (hs : svc ∈ serviceRegistry) {d : Text}
    (hd : d ∈ svc.listed) (hstar : '*' ∉ d) : RuleEntry d := by
  have hchecked := serviceRegistry_checked svc hs d hd
  rwa [if_neg hstar] at hchecked

theorem serviceRegistry_entry : ∀ svc ∈ serviceRegistry, ∀ d ∈ svc.allDomains,
    CatalogueEntry d := by
  intro svc hs d hd
  have hlisted := mem_allDomains.mp hd
  by_cases hstar : '*' ∈ d
  · have hchecked := serviceRegistry_checked svc hs d hlisted
    rw [if_pos hstar] at hchecked
    exact .inl ⟨hstar, hchecked.1⟩
  · have hrule := serviceRegistry_ruleEntry hs hlisted hstar
    exact .inr ⟨hrule.validated, hrule.notNumeric⟩

theorem candidateSuffix_of_notMem {d : Text} (h : '*' ∉ d) : candidateSuffix d = d := by
  refine if_neg fun hpre => ?_
  exact h (hpre.subset (show '*' ∈ ['*', '.'] by simp))

/-- Every name that a service covers is under a domain of the service that gets a rule. -/
theorem serviceRegistry_cover {svc : ServiceDefinition} (hs : svc ∈ serviceRegistry) {d : Text}
    (h : svc.covers d = true) :
    ∃ r ∈ svc.allDomains, RuleEntry r ∧ Text.under d r = true := by
  obtain ⟨candidate, hc, hunder⟩ := List.any_eq_true.mp h
  have hlisted := mem_allDomains.mp hc
  by_cases hstar : '*' ∈ candidate
  · have hchecked := serviceRegistry_checked svc hs candidate hlisted
    rw [if_pos hstar] at hchecked
    obtain ⟨-, r, hr, hplain, habove⟩ := hchecked
    exact ⟨r, mem_allDomains.mpr hr, serviceRegistry_ruleEntry hs hr hplain,
      Text.under_trans hunder habove⟩
  · refine ⟨candidate, hc, serviceRegistry_ruleEntry hs hlisted hstar, ?_⟩
    rwa [candidateSuffix_of_notMem hstar] at hunder

theorem getAllVpnDomains_ruleEntry : ∀ d ∈ getAllVpnDomains, RuleEntry d := by decide +kernel

theorem getAllVpnDomains_plain : ∀ d ∈ getAllVpnDomains, Plain d :=
  fun d hd => (getAllVpnDomains_ruleEntry d hd).validated.plain

theorem getAllDohDomains_plain : ∀ d ∈ getAllDohDomains, Plain d := by decide

theorem getAllDohDomains_ruleEntry : ∀ d ∈ getAllDohDomains, isIpLiteral d = false →
    RuleEntry d := by decide +kernel

/-! ## What is looked up -/

theorem getCompanionDomains_checked {domain d : Text} (h : d ∈ getCompanionDomains rt domain) :
    Validated d ∧ ¬ NumericTail d ∧ d.getLast? ≠ some '\n' := by
  simp only [getCompanionDomains] at h
  generalize (if ("www." : Text) <+: rt.lower domain then (rt.lower domain).drop 4
    else rt.lower domain) = canonical at h
  split at h
  · next entry hf => exact companions_checked entry (List.mem_of_find?_eq_some hf) d h
  · cases h

theorem getCompanionDomains_entry {domain d : Text} (h : d ∈ getCompanionDomains rt domain) :
    Validated d ∧ ¬ NumericTail d :=
  (getCompanionDomains_checked h).imp_right And.left

theorem getCompanionDomains_plain {domain d : Text} (h : d ∈ getCompanionDomains rt domain) :
    Plain d :=
  (getCompanionDomains_entry h).1.plain

theorem getService_mem {t : Text} {svc : ServiceDefinition} (h : getService rt t = some svc) :
    svc ∈ serviceRegistry := by
  simp only [getService] at h
  exact List.mem_of_find?_eq_some h

theorem serviceRegistry_plain {svc : ServiceDefinition} (hs : svc ∈ serviceRegistry) :
    ∀ d ∈ svc.allDomains, Plain d :=
  fun d hd => (serviceRegistry_entry svc hs d hd).plain

theorem getAllDomainsForServices_plain {ids : List Text} {d : Text}
    (h : d ∈ getAllDomainsForServices rt ids) : Plain d := by
  obtain ⟨id, -, hd⟩ := List.mem_flatMap.mp h
  split at hd
  · next svc hs => exact serviceRegistry_plain (getService_mem hs) d hd
  · cases hd

end FocusGuard
