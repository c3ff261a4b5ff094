import FocusGuard.Dns.Sinkhole
import Mathlib.Data.Finset.Lattice.Lemmas
import Mathlib.Data.Finset.Dedup

/-!
# What the rule sets contain

`addRules` is described by what it adds and by when it raises. Only a text with a colon can
make `normalizeText` raise anything but an invalid-domain error, and the texts it returns
contain none.

## Main results

* `addRules_eq_ok_iff`: the rules that are added, and when nothing is raised.
* `normalizeText_plain`: a normalized domain is ASCII without a colon.
-/

namespace FocusGuard

variable (rt : Runtime)

/-- Adding the domain as a rule does not raise. -/
def RuleSafe (d : Text) : Prop :=
  ∀ e, normalizeText rt d = .error e → ∃ message, e = .invalidDomain message

/-- ASCII without a colon. -/
def Plain (d : Text) : Prop := ∀ c ∈ d, Text.isAsciiChar c = true ∧ c ≠ ':'

instance (d : Text) : Decidable (Plain d) := Text.decidableForallMem _ d

/-- The rule that a domain stands for. -/
def ruleOf (d : Text) : Option Key :=
  match normalizeText rt d with
  | .ok norm => some (domainToKey rt norm)
  | .error _ => none

/-- The rules that a list of domains stands for. -/
def rulesOf (l : List Text) : Finset Key := (l.filterMap (ruleOf rt)).toFinset

variable {rt : Runtime}

@[simp] theorem mem_rulesOf {l : List Text} {k : Key} :
    k ∈ rulesOf rt l ↔ ∃ d ∈ l, ruleOf rt d = some k := by
  simp [rulesOf]

theorem rulesOf_append (l l' : List Text) :
    rulesOf rt (l ++ l') = rulesOf rt l ∪ rulesOf rt l' := by
  ext k
  simp [or_and_right, exists_or]

/-! ## Adding rules -/

theorem addRule_eq_ok_iff {d : Text} {target trees : Finset Key} :
    addRule rt d target = .ok trees ↔ RuleSafe rt d ∧ trees = target ∪ rulesOf rt [d] := by
  unfold addRule RuleSafe rulesOf ruleOf
  cases h : normalizeText rt d with
  | ok norm =>
    simp [h, @eq_comm _ trees]
  | error e =>
    cases e with
    | invalidDomain m => simp [h, @eq_comm _ trees]
    | _ => simp [h]

/-- The rules that are added, and when nothing is raised. -/
theorem addRules_eq_ok_iff {l : List Text} {target trees : Finset Key} :
    addRules rt l target = .ok trees ↔
      (∀ d ∈ l, RuleSafe rt d) ∧ trees = target ∪ rulesOf rt l := by
  induction l generalizing target with
  | nil => simp [addRules, rulesOf, @eq_comm _ trees]
  | cons d l ih =>
    have hcons : rulesOf rt (d :: l) = rulesOf rt [d] ∪ rulesOf rt l := rulesOf_append [d] l
    cases h : addRule rt d target with
    | ok t =>
      obtain ⟨hd, rfl⟩ := addRule_eq_ok_iff.mp h
      simp only [addRules, h, ih, List.forall_mem_cons, hcons, Finset.union_assoc]
      exact ⟨fun ⟨hl, ht⟩ => ⟨⟨hd, hl⟩, ht⟩, fun ⟨hl, ht⟩ => ⟨hl.2, ht⟩⟩
    | error e =>
      have hd : ¬ RuleSafe rt d := fun hd => by
        have hok : addRule rt d target = _ := addRule_eq_ok_iff.mpr ⟨hd, rfl⟩
        rw [h] at hok
        cases hok
      simp [addRules, h, hd]

/-- The exceptions of `addRules` do not depend on the set it adds to. -/
theorem addRules_of_ruleSafe {l : List Text} (h : ∀ d ∈ l, RuleSafe rt d)
    (target : Finset Key) : addRules rt l target = .ok (target ∪ rulesOf rt l) :=
  addRules_eq_ok_iff.mpr ⟨h, rfl⟩

/-! ## Domains that never raise -/

theorem toLower_ne_colon {c : Char} (h : c ≠ ':') : c.toLower ≠ ':' := by
  rintro hc
  rcases Text.toLower_cases c with hs | ⟨hlo, -, hsum⟩
  · exact h (hs ▸ hc)
  · have hcolon : (':' : Char).toNat = 58 := rfl
    rw [hc, hcolon] at hsum
    omega

theorem Plain.of_subset {d d' : Text} (h : Plain d) (hs : ∀ c ∈ d', c ∈ d) : Plain d' :=
  fun c hc => h c (hs c hc)

theorem Plain.lower_notMem {d : Text} (h : Plain d) : ':' ∉ rt.lower d := by
  rw [rt.lower_of_ascii fun c hc => Or.inl (h c hc).1]
  intro hm
  obtain ⟨c, hc, heq⟩ := List.mem_map.mp hm
  exact toLower_ne_colon (h c hc).2 heq

theorem validateLabels_error {domain : Text} {labels : List Text} {e : PyError}
    (h : validateLabels domain labels = .error e) : ∃ message, e = .invalidDomain message := by
  induction labels with
  | nil => cases h
  | cons label labels ih =>
    rw [validateLabels] at h
    split_ifs at h
    · exact ⟨_, (Except.error.inj h).symm⟩
    · exact ⟨_, (Except.error.inj h).symm⟩
    · exact ih h
    · exact ⟨_, (Except.error.inj h).symm⟩

theorem validateDomain_error {domain : Text} {e : PyError}
    (h : validateDomain rt domain = .error e) : ∃ message, e = .invalidDomain message := by
  simp only [validateDomain] at h
  split_ifs at h
  · exact ⟨_, (Except.error.inj h).symm⟩
  · exact ⟨_, (Except.error.inj h).symm⟩
  · exact ⟨_, (Except.error.inj h).symm⟩
  · exact validateLabels_error h

/-- Only taking a URL apart can raise something else. -/
theorem ruleSafe_of_extractHost {d host : Text}
    (h : extractHost rt (dropWildcard (rt.lower (Text.strip d))) = .ok host) :
    RuleSafe rt d := by
  intro e he
  rw [normalizeText, h] at he
  dsimp only at he
  split at he
  · exact ⟨_, (Except.error.inj he).symm⟩
  split at he
  · exact ⟨_, (Except.error.inj he).symm⟩
  split at he
  · exact ⟨_, (Except.error.inj he).symm⟩
  split at he
  · next hv =>
    obtain rfl := Except.error.inj he
    exact validateDomain_error hv
  · cases he

/-- No scheme is found in such a text. -/
theorem Plain.extractHost_eq {d : Text} (h : Plain d) :
    extractHost rt (dropWildcard (rt.lower (Text.strip d))) =
      .ok ((dropWildcard (rt.lower (Text.strip d))).takeWhile (· ≠ '/')) := by
  have hstrip : Plain (Text.strip d) := h.of_subset fun c hc => Text.mem_of_mem_stripBy hc
  have hcolon : ':' ∉ dropWildcard (rt.lower (Text.strip d)) := by
    unfold dropWildcard
    split
    · exact fun hm => hstrip.lower_notMem (List.mem_of_mem_drop hm)
    · exact hstrip.lower_notMem
  refine if_neg fun hi => ?_
  exact hcolon (hi.subset (show ':' ∈ ("://" : Text) by decide))

theorem Plain.ruleSafe {d : Text} (h : Plain d) : RuleSafe rt d :=
  ruleSafe_of_extractHost h.extractHost_eq

/-! ## Normalized domains -/

theorem isLabelChar_plain {c : Char} (h : isLabelChar c = true) :
    Text.isAsciiChar c = true ∧ c ≠ ':' := by
  have hc : (97 ≤ c.toNat ∧ c.toNat ≤ 122) ∨ (48 ≤ c.toNat ∧ c.toNat ≤ 57) ∨ c = '-' := by
    simpa [isLabelChar, isLabelEnd, or_assoc] using h
  constructor
  · have hdash : ('-' : Char).toNat = 45 := rfl
    rcases hc with hc | hc | rfl <;> simp [Text.isAsciiChar] <;> omega
  · rintro rfl
    revert hc
    decide

theorem matchesLabel_plain {label : Text} (h : matchesLabel label = true) : Plain label := by
  have hbody : ∀ {l : Text}, labelBody l = true → Plain l := by
    intro l hl c hc
    simp only [labelBody, decide_eq_true_eq, List.all_eq_true] at hl
    exact isLabelChar_plain (hl.1 c hc)
  simp only [matchesLabel, decide_eq_true_eq] at h
  rcases h with h | ⟨hlast, h⟩
  · exact hbody h
  · intro c hc
    have hne : label ≠ [] := List.ne_nil_of_mem hc
    rw [← List.dropLast_append_getLast hne, List.mem_append, List.mem_singleton] at hc
    rcases hc with hc | rfl
    · exact hbody h c hc
    · rw [List.getLast?_eq_some_getLast hne, Option.some.injEq] at hlast
      rw [hlast]
      decide

theorem validateLabels_ok {domain : Text} {labels : List Text}
    (h : validateLabels domain labels = .ok ()) :
    ∀ label ∈ labels, label ≠ [] ∧ label.length ≤ 63 ∧ matchesLabel label = true := by
  induction labels with
  | nil => simp
  | cons label labels ih =>
    rw [validateLabels] at h
    split_ifs at h with h1 h2 h3
    refine List.forall_mem_cons.mpr ⟨⟨h1, by omega, by simpa using h3⟩, ih h⟩

theorem validateDomain_ok {domain : Text} (h : validateDomain rt domain = .ok ()) :
    2 ≤ (domain.splitOn '.').length ∧
      ∀ label ∈ domain.splitOn '.', label ≠ [] ∧ label.length ≤ 63 ∧ matchesLabel label = true := by
  simp only [validateDomain] at h
  split_ifs at h with h1 h2 h3
  exact ⟨by omega, validateLabels_ok h⟩

theorem normalizeText_ok {raw domain : Text} (h : normalizeText rt raw = .ok domain) :
    validateDomain rt domain = .ok () := by
  simp only [normalizeText] at h
  split at h
  · cases h
  split at h
  · cases h
  split at h
  · cases h
  split at h
  · cases h
  split at h
  · cases h
  · next hv =>
    cases h
    exact hv

/-- A normalized domain is ASCII without a colon. -/
theorem normalizeText_plain {raw domain : Text} (h : normalizeText rt raw = .ok domain) :
    Plain domain := by
  obtain ⟨-, hlabels⟩ := validateDomain_ok (normalizeText_ok h)
  intro c hc
  rw [← Text.join_splitOn '.' domain] at hc
  rcases Text.mem_join hc with rfl | ⟨label, hl, hcl⟩
  · decide
  · exact matchesLabel_plain (hlabels label hl).2.2 c hcl

theorem normalizeDomain_plain {raw : Json} {domain : Text}
    (h : normalizeDomain rt raw = .ok domain) : Plain domain := by
  cases raw with
  | str t => exact normalizeText_plain h
  | _ => cases h

/-! ## The rule sets of the sinkhole -/

theorem essentialSystemDomains_plain : ∀ d ∈ essentialSystemDomains, Plain d := by decide

theorem dohBootstrapDomains_plain : ∀ d ∈ dohBootstrapDomains, Plain d := by decide

theorem blockedRules_eq_ok_iff {blockDoh : Bool} {domains : List Text} {trees : Finset Key} :
    DomainSinkhole.blockedRules rt blockDoh domains = .ok trees ↔
      (∀ d ∈ domains, RuleSafe rt d) ∧
        trees = rulesOf rt ((if blockDoh then dohBootstrapDomains else []) ++ domains) := by
  have hboot : ∀ d ∈ if blockDoh then dohBootstrapDomains else [], RuleSafe rt d := by
    intro d hd
    split at hd
    · exact (dohBootstrapDomains_plain d hd).ruleSafe
    · cases hd
  rw [DomainSinkhole.blockedRules, addRules_of_ruleSafe hboot, Finset.empty_union, rulesOf_append]
  exact addRules_eq_ok_iff

theorem allowedRules_eq_ok_iff {domains : List Text} {trees : Finset Key} :
    DomainSinkhole.allowedRules rt domains = .ok trees ↔
      (∀ d ∈ domains, RuleSafe rt d) ∧ trees = rulesOf rt (essentialSystemDomains ++ domains) := by
  have hessential : ∀ d ∈ essentialSystemDomains, RuleSafe rt d :=
    fun d hd => (essentialSystemDomains_plain d hd).ruleSafe
  rw [DomainSinkhole.allowedRules, addRules_of_ruleSafe hessential, Finset.empty_union,
    rulesOf_append]
  exact addRules_eq_ok_iff

end FocusGuard
