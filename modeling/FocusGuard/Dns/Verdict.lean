import FocusGuard.Dns.Normalized

/-!
# The verdict is suffix matching

Two lists are installed, and then a name is blocked or not by what it is under. This is so unless
an entry makes `normalize_domain` raise something that `_add_rule` does not catch, or is normalized
to a name with a line feed at its end: the key of such a rule is that of the name without it.

## Main results

* `decidesBySuffix_iff`: when the verdicts follow the normalized forms of the lists.
* `unparsable_url_escapes`: one entry that `urlparse` refuses, and nothing of the list is blocked.
-/

namespace FocusGuard

/-- The name is, or is under, the normalized form of an entry that normalizes. -/
def Listed (rt : Runtime) (l : List Text) (d : Text) : Prop :=
  ∃ entry ∈ l, ∃ norm, normalizeText rt entry = .ok norm ∧ Text.under d norm = true

/-- The blocked list together with the domains that the sinkhole adds to it. -/
def withBootstrap (blockDoh : Bool) (blocked : List Text) : List Text :=
  (if blockDoh then dohBootstrapDomains else []) ++ blocked

/-- Both lists can be installed, and every verdict is then by suffix. -/
def DecidesBySuffix (rt : Runtime) (s : DomainSinkhole) (blocked allowed : List Text)
    (allowlistMode : Bool) : Prop :=
  ∃ s₁ s₂, DomainSinkhole.setBlockedDomains rt blocked s = (.ok (), s₁) ∧
    DomainSinkhole.setAllowedDomains rt allowed s₁ = (.ok (), s₂) ∧
    ∀ q, ((({ s₂ with allowlistMode := allowlistMode } : DomainSinkhole).isBlocked rt q).1 = true ↔
      cleanDomain rt q ≠ [] ∧ ¬ Essential (cleanDomain rt q) ∧
        (allowlistMode = false ∧ Listed rt (withBootstrap s.blockDoh blocked) (cleanDomain rt q) ∨
          allowlistMode = true ∧ ¬ Listed rt allowed (cleanDomain rt q)))

/-- Normalized forms with a line feed at the end add nothing to the list. -/
def LineFeedsRedundant (rt : Runtime) (l : List Text) : Prop :=
  ∀ entry ∈ l, ∀ norm, normalizeText rt entry = .ok norm → norm.getLast? = some '\n' →
    Essential (chomp norm) ∨ Listed rt l (chomp norm)

variable {rt : Runtime}

/-! ## What the rules cover -/

theorem Essential.of_under {d m : Text} (hm : Essential m) (h : Text.under d m = true) :
    Essential d := by
  obtain ⟨e, he, hunder⟩ := hm
  exact ⟨e, he, Text.under_trans h hunder⟩

theorem Listed.of_under {l : List Text} {d m : Text} (hm : Listed rt l m)
    (h : Text.under d m = true) : Listed rt l d := by
  obtain ⟨entry, he, norm, hn, hunder⟩ := hm
  exact ⟨entry, he, norm, hn, Text.under_trans h hunder⟩

/-- Both ends of a name under another one at the last character. -/
theorem getLast?_of_under {d r : Text} (h : Text.under d r = true) (hr : r ≠ []) :
    d.getLast? = r.getLast? := by
  simp only [Text.under, decide_eq_true_eq] at h
  rcases h with rfl | ⟨x, rfl⟩
  · rfl
  · rw [List.getLast?_append_of_ne_nil _ (by simp), List.getLast?_cons_of_ne_nil hr]

/-- A cleaned name does not end with a line feed. -/
theorem getLast?_cleanDomain (hlower : LowerLaws rt) (q : Text) :
    (cleanDomain rt q).getLast? ≠ some '\n' := by
  intro hlast
  have hstrip : Text.stripBy isDomainBlank (cleanDomain rt q) = cleanDomain rt q := by
    rw [cleanDomain, hlower.strip, Text.stripBy_idem]
  rw [← hstrip] at hlast
  exact Text.getLast?_stripBy hlast (by decide)

/-- The rules of a list cover what is listed, where its line feeds are redundant. -/
theorem covered_iff_listed (hlower : LowerLaws rt) {l : List Text} {q : Text}
    (hl : LineFeedsRedundant rt l) (hess : ¬ Essential (cleanDomain rt q)) :
    Covered (rulesOf rt l) (cleanDomain rt q) ↔ Listed rt l (cleanDomain rt q) := by
  rw [covered_rulesOf]
  constructor
  · rintro ⟨entry, he, norm, hn, hunder⟩
    rcases chomp_cases norm with ⟨heq, -⟩ | heq
    · exact ⟨entry, he, norm, hn, heq ▸ hunder⟩
    · have hlast : norm.getLast? = some '\n' := by
        rw [heq, List.getLast?_concat]
      rcases hl entry he norm hn hlast with hm | hm
      · exact absurd (hm.of_under hunder) hess
      · exact hm.of_under hunder
  · rintro ⟨entry, he, norm, hn, hunder⟩
    refine ⟨entry, he, norm, hn, ?_⟩
    rcases chomp_cases norm with ⟨heq, -⟩ | heq
    · rwa [heq]
    · -- a name under this one would end with a line feed
      have hlast := getLast?_of_under hunder (by rw [heq]; simp)
      rw [heq, List.getLast?_concat] at hlast
      exact absurd hlast (getLast?_cleanDomain hlower q)

/-- The names that the sinkhole adds to the allowlist are essential anyway. -/
theorem essential_of_covered {d : Text} (h : Covered (rulesOf rt essentialSystemDomains) d) :
    Essential d := by
  obtain ⟨entry, he, norm, hn, hunder⟩ := covered_rulesOf.mp h
  have htame : ∀ e ∈ essentialSystemDomains, (∀ c ∈ e, isLabelChar c = true ∨ c = '.' ∨ c = '\n') ∧
      e ≠ [] ∧ Text.stripBy isDomainBlank e = e ∧ Text.strip e = e ∧ chomp e = e := by
    decide
  obtain ⟨hchars, hne, hblank, hstrip, hchomp⟩ := htame entry he
  have hte : Tame entry := ⟨hchars, hne, hblank⟩
  obtain ⟨rfl, -⟩ := hte.eq_of_normalizeText hstrip hn
  exact ⟨norm, he, hchomp ▸ hunder⟩

theorem covered_allowed_iff {l : List Text} {d : Text} (hess : ¬ Essential d) :
    Covered (rulesOf rt (essentialSystemDomains ++ l)) d ↔ Covered (rulesOf rt l) d := by
  rw [covered_rulesOf, covered_rulesOf]
  constructor
  · rintro ⟨entry, he, norm, hn, hunder⟩
    rcases List.mem_append.mp he with he | he
    · exact absurd (essential_of_covered (covered_rulesOf.mpr ⟨entry, he, norm, hn, hunder⟩)) hess
    · exact ⟨entry, he, norm, hn, hunder⟩
  · rintro ⟨entry, he, rest⟩
    exact ⟨entry, List.mem_append_right _ he, rest⟩

/-! ## Installing the lists -/

section Install

variable {s s' : DomainSinkhole} {l : List Text}

theorem setBlockedDomains_eq_ok_iff :
    DomainSinkhole.setBlockedDomains rt l s = (.ok (), s') ↔ (∀ d ∈ l, RuleSafe rt d) ∧
      s' = { s with blockedTrees := rulesOf rt (withBootstrap s.blockDoh l) } := by
  unfold DomainSinkhole.setBlockedDomains withBootstrap
  rw [Exec.bind_of_ok (Exec.get_apply s)]
  cases hr : DomainSinkhole.blockedRules rt s.blockDoh l with
  | error x =>
    have hunsafe : ¬ ∀ d ∈ l, RuleSafe rt d := by
      intro hsafe
      have hok : DomainSinkhole.blockedRules rt s.blockDoh l = _ :=
        blockedRules_eq_ok_iff.mpr ⟨hsafe, rfl⟩
      rw [hr] at hok
      cases hok
    simp [Exec.bind_apply, hunsafe]
  | ok trees =>
    obtain ⟨hsafe, rfl⟩ := blockedRules_eq_ok_iff.mp hr
    simp only [Exec.bind_apply, Exec.ofExcept_apply, Exec.modify_apply, Prod.mk.injEq, true_and,
      @eq_comm _ s']
    exact ⟨fun h => ⟨hsafe, h⟩, And.right⟩

theorem setAllowedDomains_eq_ok_iff :
    DomainSinkhole.setAllowedDomains rt l s = (.ok (), s') ↔ (∀ d ∈ l, RuleSafe rt d) ∧
      s' = { s with allowedTrees := rulesOf rt (essentialSystemDomains ++ l) } := by
  unfold DomainSinkhole.setAllowedDomains
  cases hr : DomainSinkhole.allowedRules rt l with
  | error x =>
    have hunsafe : ¬ ∀ d ∈ l, RuleSafe rt d := by
      intro hsafe
      have hok : DomainSinkhole.allowedRules rt l = _ := allowedRules_eq_ok_iff.mpr ⟨hsafe, rfl⟩
      rw [hr] at hok
      cases hok
    simp [Exec.bind_apply, hunsafe]
  | ok trees =>
    obtain ⟨hsafe, rfl⟩ := allowedRules_eq_ok_iff.mp hr
    simp only [Exec.bind_apply, Exec.ofExcept_apply, Exec.modify_apply, Prod.mk.injEq, true_and,
      @eq_comm _ s']
    exact ⟨fun h => ⟨hsafe, h⟩, And.right⟩

end Install

/-! ## Verdicts -/

section Verdicts

variable {s : DomainSinkhole} {blocked allowed : List Text} {mode : Bool}

/-- The list that the mode looks at. -/
def listInForce (s : DomainSinkhole) (blocked allowed : List Text) (mode : Bool) : List Text :=
  if mode then allowed else withBootstrap s.blockDoh blocked

/-- With both lists installed, a cleaned name is blocked by the list in force. -/
theorem isBlocked_installed (hlower : LowerLaws rt) (s : DomainSinkhole) (blocked allowed : List Text)
    (mode : Bool) (q : Text) : (({ s with
        blockedTrees := rulesOf rt (withBootstrap s.blockDoh blocked)
        allowedTrees := rulesOf rt (essentialSystemDomains ++ allowed)
        allowlistMode := mode } : DomainSinkhole).isBlocked rt q).1 = true ↔
      cleanDomain rt q ≠ [] ∧ ¬ Essential (cleanDomain rt q) ∧
        (mode = false ∧ Covered (rulesOf rt (listInForce s blocked allowed mode)) (cleanDomain rt q) ∨
          mode = true ∧
            ¬ Covered (rulesOf rt (listInForce s blocked allowed mode)) (cleanDomain rt q)) := by
  rw [isBlocked_of_clean (hlower.cleanDomain_cleanDomain q)]
  refine and_congr_right fun _ => and_congr_right fun hess => ?_
  cases mode with
  | false => simp [listInForce]
  | true => simp [listInForce, covered_allowed_iff hess]

/-- The verdicts are by suffix exactly when no entry raises and the line feeds at the ends of
normalized forms are redundant in the list that the mode looks at. -/
theorem decidesBySuffix_iff (hlower : LowerLaws rt) :
    DecidesBySuffix rt s blocked allowed mode ↔
      (∀ d ∈ blocked, RuleSafe rt d) ∧ (∀ d ∈ allowed, RuleSafe rt d) ∧
        LineFeedsRedundant rt (listInForce s blocked allowed mode) := by
  constructor
  · rintro ⟨s₁, s₂, h₁, h₂, hverdict⟩
    obtain ⟨hblocked, rfl⟩ := setBlockedDomains_eq_ok_iff.mp h₁
    obtain ⟨hallowed, rfl⟩ := setAllowedDomains_eq_ok_iff.mp h₂
    refine ⟨hblocked, hallowed, fun entry he norm hn hlast => ?_⟩
    have hvalid := validated_of_normalizeText hn
    have hclean : cleanDomain rt (chomp norm) = chomp norm := hvalid.clean_chomp.cleanDomain
    have hcovered : Covered (rulesOf rt (listInForce s blocked allowed mode)) (chomp norm) :=
      covered_rulesOf.mpr ⟨entry, he, norm, hn, Text.under_refl _⟩
    by_cases hess : Essential (chomp norm)
    · exact .inl hess
    right
    have hq := hverdict (chomp norm)
    have hinstalled := isBlocked_installed hlower s blocked allowed mode (chomp norm)
    rw [hclean] at hq hinstalled
    have hboth := hinstalled.symm.trans hq
    have hne : chomp norm ≠ [] := hvalid.tame.ne_nil
    cases mode with
    | false =>
      simp only [listInForce, Bool.false_eq_true, if_false] at hcovered hboth ⊢
      simpa [hne, hess, hcovered] using hboth
    | true =>
      simp only [listInForce, if_true] at hcovered hboth ⊢
      simpa [hne, hess, hcovered] using hboth
  · rintro ⟨hblocked, hallowed, hfeeds⟩
    refine ⟨_, _, setBlockedDomains_eq_ok_iff.mpr ⟨hblocked, rfl⟩,
      setAllowedDomains_eq_ok_iff.mpr ⟨hallowed, rfl⟩, fun q => ?_⟩
    refine (isBlocked_installed hlower s blocked allowed mode q).trans ?_
    refine and_congr_right fun _ => and_congr_right fun hess => ?_
    have hlisted := covered_iff_listed hlower hfeeds hess
    cases mode with
    | false => simpa [listInForce] using hlisted
    | true => simpa [listInForce] using not_congr hlisted

end Verdicts

/-- A sinkhole that has been built without DoH blocking. -/
def emptySinkhole : DomainSinkhole := ⟨false, ∅, ∅, false⟩

theorem decidesBySuffix_allowlist :
    DecidesBySuffix asciiRuntime emptySinkhole ["youtube.com"] ["example.org"] true := by
  refine (decidesBySuffix_iff lowerLaws_ascii).mpr ⟨?_, ?_, ?_⟩
  · exact fun d hd => Plain.ruleSafe (by obtain rfl := List.mem_singleton.mp hd; decide)
  · exact fun d hd => Plain.ruleSafe (by obtain rfl := List.mem_singleton.mp hd; decide)
  · intro entry he norm hn hlast
    obtain rfl : entry = "example.org" := List.mem_singleton.mp he
    have hnorm : normalizeText asciiRuntime "example.org" = .ok "example.org" := by decide
    rw [hnorm, Except.ok.injEq] at hn
    rw [← hn] at hlast
    exact absurd hlast (by decide)

/-- One entry that `urlparse` refuses, and nothing of the list is blocked. -/
theorem unparsable_url_escapes :
    DomainSinkhole.init asciiRuntime false = .ok emptySinkhole ∧
    DomainSinkhole.setBlockedDomains asciiRuntime ["youtube.com", "http://[x"] emptySinkhole =
      (.error (.valueError "Invalid IPv6 URL"), emptySinkhole) ∧
    (emptySinkhole.isBlocked asciiRuntime "youtube.com").1 = false ∧
    Listed asciiRuntime ["youtube.com", "http://[x"] (cleanDomain asciiRuntime "youtube.com") ∧
    ¬ DecidesBySuffix asciiRuntime emptySinkhole ["youtube.com", "http://[x"] [] false := by
  have hraise : DomainSinkhole.setBlockedDomains asciiRuntime ["youtube.com", "http://[x"]
      emptySinkhole = (.error (.valueError "Invalid IPv6 URL"), emptySinkhole) := rfl
  refine ⟨rfl, hraise, by decide, ⟨"youtube.com", by simp, "youtube.com", by decide, by decide⟩, ?_⟩
  rintro ⟨s₁, s₂, h₁, -⟩
  rw [hraise] at h₁
  cases h₁

end FocusGuard
