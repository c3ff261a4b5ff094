import FocusGuard.Dns.Sinkhole

/-!
# What the sinkhole blocks

The tree walk compares reversed label sequences. In terms of names: a rule covers the names
whose labels end with the labels of the rule, and the essential system domains shield
themselves and every name under them.

## Main results

* `matchesTree_iff`: a key matches when a non-empty rule is a prefix of it.
* `isBlocked_iff`: the verdict of a sinkhole in blocklist mode.
-/

namespace FocusGuard

variable {rt : Runtime}

/-! ## Cleaning a name -/

/-- Every character is ASCII or the replacement character, as in any decoded name. -/
def Decoded (t : Text) : Prop := ∀ c ∈ t, Text.isAsciiChar c = true ∨ c = Text.replacement

theorem Decoded.of_subset {t t' : Text} (h : Decoded t) (hs : ∀ c ∈ t', c ∈ t) : Decoded t' :=
  fun c hc => h c (hs c hc)

theorem decoded_char_toLower {c : Char} (h : Text.isAsciiChar c = true ∨ c = Text.replacement) :
    Text.isAsciiChar c.toLower = true ∨ c.toLower = Text.replacement := by
  rcases h with h | rfl
  · left
    rcases Text.toLower_cases c with hc | ⟨-, hhi, hc⟩
    · rw [hc]
      exact h
    · simp only [Text.isAsciiChar, decide_eq_true_eq, hc]
      omega
  · exact .inr rfl

theorem isDomainBlank_toLower (c : Char) : isDomainBlank c.toLower = isDomainBlank c := by
  rcases Text.toLower_cases c with h | ⟨hlo, hhi, hsum⟩
  · rw [h]
  · have hkept : ∀ d : Char, 65 ≤ d.toNat → isDomainBlank d = false := by
      intro d hd
      simp only [isDomainBlank, List.mem_cons, List.not_mem_nil, or_false, decide_eq_false_iff_not]
      rintro (rfl | rfl | rfl | rfl | rfl) <;> revert hd <;> decide
    rw [hkept c hlo, hkept c.toLower (by omega)]

theorem dropWhile_toLower (t : Text) : (t.map Char.toLower).dropWhile isDomainBlank =
    (t.dropWhile isDomainBlank).map Char.toLower := by
  induction t with
  | nil => rfl
  | cons c t ih =>
    rw [List.map_cons, List.dropWhile_cons, List.dropWhile_cons, isDomainBlank_toLower]
    split
    · exact ih
    · rfl

theorem stripBy_toLower (t : Text) : Text.stripBy isDomainBlank (t.map Char.toLower) =
    (Text.stripBy isDomainBlank t).map Char.toLower := by
  simp only [Text.stripBy, List.rdropWhile, dropWhile_toLower, ← List.map_reverse]

theorem cleanDomain_of_decoded {t : Text} (h : Decoded t) :
    cleanDomain rt t = (Text.stripBy isDomainBlank t).map Char.toLower := by
  have hs : Decoded (Text.stripBy isDomainBlank t) :=
    h.of_subset fun c hc => Text.mem_of_mem_stripBy hc
  rw [cleanDomain, rt.lower_of_ascii hs]

theorem Decoded.cleanDomain {t : Text} (h : Decoded t) : Decoded (cleanDomain rt t) := by
  rw [cleanDomain_of_decoded h]
  intro c hc
  obtain ⟨d, hd, rfl⟩ := List.mem_map.mp hc
  exact decoded_char_toLower (h d (Text.mem_of_mem_stripBy hd))

/-- Cleaning a name twice is cleaning it once. -/
theorem cleanDomain_cleanDomain {t : Text} (h : Decoded t) :
    FocusGuard.cleanDomain rt (FocusGuard.cleanDomain rt t) = FocusGuard.cleanDomain rt t := by
  have hc : Decoded (FocusGuard.cleanDomain rt t) := h.cleanDomain
  rw [cleanDomain_of_decoded hc, cleanDomain_of_decoded h, stripBy_toLower, Text.stripBy_idem,
    List.map_map]
  congr 1
  funext c
  exact Text.toLower_toLower c

/-- What `str.lower()` does to any text: nothing the second time, and nothing to blanks and dots. -/
structure LowerLaws (rt : Runtime) : Prop where
  idem : ∀ t, rt.lower (rt.lower t) = rt.lower t
  strip : ∀ t, Text.stripBy isDomainBlank (rt.lower t) = rt.lower (Text.stripBy isDomainBlank t)

theorem LowerLaws.cleanDomain_cleanDomain (h : LowerLaws rt) (t : Text) :
    FocusGuard.cleanDomain rt (FocusGuard.cleanDomain rt t) = FocusGuard.cleanDomain rt t := by
  simp only [FocusGuard.cleanDomain]
  rw [h.strip, Text.stripBy_idem, h.idem]

/-- The host without Unicode tables obeys them. -/
theorem lowerLaws_ascii : LowerLaws asciiRuntime := by
  have hsame : ∀ t, ¬ Decoded t → asciiRuntime.lower t = t := by
    intro t ht
    rw [Runtime.lower, if_neg]
    · rfl
    · simpa [Decoded] using ht
  constructor
  · intro t
    by_cases ht : Decoded t
    · have hlow : Decoded (t.map Char.toLower) := by
        intro c hc
        obtain ⟨b, hb, rfl⟩ := List.mem_map.mp hc
        exact decoded_char_toLower (ht b hb)
      rw [asciiRuntime.lower_of_ascii ht, asciiRuntime.lower_of_ascii hlow, List.map_map]
      exact List.map_congr_left fun c _ => Text.toLower_toLower c
    · rw [hsame t ht, hsame t ht]
  · intro t
    by_cases ht : Decoded t
    · have hs : Decoded (Text.stripBy isDomainBlank t) :=
        ht.of_subset fun c hc => Text.mem_of_mem_stripBy hc
      rw [asciiRuntime.lower_of_ascii ht, asciiRuntime.lower_of_ascii hs, stripBy_toLower]
    · have hs : ¬ Decoded (Text.stripBy isDomainBlank t) := by
        intro hs
        apply ht
        intro c hc
        by_cases hb : isDomainBlank c = true
        · left
          simp only [isDomainBlank, List.mem_cons, List.not_mem_nil, or_false,
            decide_eq_true_eq] at hb
          rcases hb with rfl | rfl | rfl | rfl | rfl <;> rfl
        · exact hs c (Text.mem_stripBy_of_not hc hb)
      rw [hsame t ht, hsame _ hs]

/-- A name that cleaning leaves as it is. -/
def Clean (t : Text) : Prop :=
  (∀ c ∈ t, Text.isAsciiChar c = true ∧ c.toLower = c) ∧
    (∀ c ∈ t.head?, ¬ isDomainBlank c = true) ∧ ∀ c ∈ t.getLast?, ¬ isDomainBlank c = true

instance (t : Text) : Decidable (Clean t) :=
  @instDecidableAnd _ _ (Text.decidableForallMem _ t)
    (@instDecidableAnd _ _ (Option.decidableForallMem t.head?)
      (Option.decidableForallMem t.getLast?))

theorem Clean.cleanDomain {t : Text} (h : Clean t) : FocusGuard.cleanDomain rt t = t := by
  have hd : Decoded t := fun c hc => .inl (h.1 c hc).1
  rw [cleanDomain_of_decoded hd, Text.stripBy_eq_self h.2.1 h.2.2]
  exact (List.map_congr_left fun c hc => (h.1 c hc).2).trans (List.map_id t)

/-! ## Keys -/

/-- A key matches when a non-empty rule is a prefix of it. -/
theorem matchesTree_iff {key : Key} {trees : Finset Key} :
    matchesTree key trees = true ↔ ∃ rule ∈ trees, rule ≠ [] ∧ rule <+: key := by
  simp only [matchesTree, List.any_eq_true, List.mem_range, decide_eq_true_eq]
  constructor
  · rintro ⟨i, hi, hm⟩
    refine ⟨_, hm, ?_, List.take_prefix _ _⟩
    rw [← List.length_pos_iff_ne_nil, List.length_take]
    omega
  · rintro ⟨rule, hm, hne, hpre⟩
    have hpos := List.length_pos_iff_ne_nil.mpr hne
    have hlen := hpre.length_le
    refine ⟨rule.length - 1, by omega, ?_⟩
    rw [show rule.length - 1 + 1 = rule.length by omega, ← List.prefix_iff_eq_take.mp hpre]
    exact hm

/-- The labels of a name, in the order they are written. -/
abbrev labelsOf (t : Text) : List Text := t.splitOn '.'

theorem domainToKey_of_clean {t : Text} (h : cleanDomain rt t = t) :
    domainToKey rt t = (labelsOf t).reverse := by
  rw [domainToKey, h]

/-- A rule is a prefix of a key when its labels end the name. -/
theorem prefix_reverse_iff {rule : Key} {t : Text} :
    rule <+: (labelsOf t).reverse ↔ rule.reverse <:+ labelsOf t := by
  rw [← List.reverse_suffix, List.reverse_reverse]

/-! ## The verdict -/

theorem essentialSystemDomains_clean : ∀ d ∈ essentialSystemDomains, Clean d := by decide

/-- The names that no policy may block: an essential system domain, or a name under one. -/
def Essential (t : Text) : Prop := ∃ d ∈ essentialSystemDomains, Text.under t d = true

theorem essential_iff {t : Text} (h : cleanDomain rt t = t) :
    (essentialSystemDomains.any fun d => matchesTree (domainToKey rt t) {domainToKey rt d}) = true ↔
      Essential t := by
  simp only [List.any_eq_true, matchesTree_iff, Finset.mem_singleton, exists_eq_left, Essential]
  refine exists_congr fun d => and_congr_right fun hd => ?_
  have hclean : cleanDomain rt d = d := (essentialSystemDomains_clean d hd).cleanDomain
  have hne : domainToKey rt d ≠ [] := by
    rw [domainToKey_of_clean hclean, ne_eq, List.reverse_eq_nil_iff]
    exact List.splitOn_ne_nil _ _
  rw [Text.under_iff_suffix, domainToKey_of_clean h, domainToKey_of_clean hclean]
  rw [domainToKey_of_clean hclean] at hne
  simp only [ne_eq, hne, not_false_eq_true, true_and]
  rw [prefix_reverse_iff, List.reverse_reverse]

/-- A rule in force covers the name. -/
def Covered (trees : Finset Key) (t : Text) : Prop :=
  ∃ rule ∈ trees, rule ≠ [] ∧ rule.reverse <:+ labelsOf t

theorem covered_iff {trees : Finset Key} {t : Text} (h : cleanDomain rt t = t) :
    matchesTree (domainToKey rt t) trees = true ↔ Covered trees t := by
  rw [matchesTree_iff, domainToKey_of_clean h]
  simp only [prefix_reverse_iff, Covered]

/-- The verdict on a name whose cleaned form is clean. -/
theorem isBlocked_of_clean {s : DomainSinkhole} {t : Text}
    (hclean : cleanDomain rt (cleanDomain rt t) = cleanDomain rt t) :
    (s.isBlocked rt t).1 = true ↔ cleanDomain rt t ≠ [] ∧ ¬ Essential (cleanDomain rt t) ∧
      (if s.allowlistMode then ¬ Covered s.allowedTrees (cleanDomain rt t)
        else Covered s.blockedTrees (cleanDomain rt t)) := by
  simp only [DomainSinkhole.isBlocked]
  by_cases hnil : cleanDomain rt t = []
  · simp [hnil]
  · rw [if_neg hnil]
    by_cases hess : Essential (cleanDomain rt t)
    · rw [if_pos ((essential_iff hclean).mpr hess)]
      simp [hess]
    · rw [if_neg (mt (essential_iff hclean).mp hess)]
      have hallowed : matchesTree (domainToKey rt (cleanDomain rt t)) s.allowedTrees = true ↔
          Covered s.allowedTrees (cleanDomain rt t) := covered_iff hclean
      have hblocked : matchesTree (domainToKey rt (cleanDomain rt t)) s.blockedTrees = true ↔
          Covered s.blockedTrees (cleanDomain rt t) := covered_iff hclean
      cases s.allowlistMode with
      | true =>
        simp only [if_true, ← hallowed]
        split_ifs with hm <;> simp [hnil, hess, hm]
      | false =>
        simp only [Bool.false_eq_true, if_false, ← hblocked]
        split_ifs with hm <;> simp [hnil, hess, hm]

/-- A sinkhole in blocklist mode blocks the covered names that are not essential. -/
theorem isBlocked_iff {s : DomainSinkhole} (hmode : s.allowlistMode = false) {t : Text}
    (ht : Decoded t) : (s.isBlocked rt t).1 = true ↔
      cleanDomain rt t ≠ [] ∧ ¬ Essential (cleanDomain rt t) ∧
        Covered s.blockedTrees (cleanDomain rt t) := by
  rw [isBlocked_of_clean (cleanDomain_cleanDomain ht), hmode]
  simp

end FocusGuard
