import FocusGuard.Dns.Matching
import FocusGuard.Dns.Rules

/-!
# Normalized domains

A normalized domain is normalized again when its rule is installed, and cleaned when its key is
taken. Both leave it as it is but for one thing: `LABEL_REGEX` ends with `$`, which lets a line
feed pass at the end of a label, and stripping takes a line feed off the end of the domain. The
second normalization then sees another last label and may refuse it as numeric.

## Main results

* `Validated.cleanDomain_eq`: cleaning takes off a line feed at the end.
* `renormalize`: a second normalization does the same, or refuses a numeric last label.
* `covered_rulesOf`: the rules of a list cover what is under its chomped normalized forms.
-/

namespace FocusGuard

/-- The text without a line feed at its end. -/
def chomp (t : Text) : Text := if t.getLast? = some '\n' then t.dropLast else t

/-- Two or more labels that pass for labels, 253 characters at most. -/
structure Validated (t : Text) : Prop where
  short : t.length ≤ 253
  two : 2 ≤ (labelsOf t).length
  labels : ∀ label ∈ labelsOf t, label ≠ [] ∧ label.length ≤ 63 ∧ matchesLabel label = true

/-- Without a line feed at its end the last label is a number. -/
def NumericTail (t : Text) : Prop :=
  ∃ label ∈ (labelsOf (chomp t)).getLast?, label.all Char.isDigit = true

variable {rt : Runtime} {t label : Text}

theorem validated_iff : Validated t ↔ t.length ≤ 253 ∧ 2 ≤ (labelsOf t).length ∧
    ∀ label ∈ labelsOf t, label ≠ [] ∧ label.length ≤ 63 ∧ matchesLabel label = true :=
  ⟨fun h => ⟨h.short, h.two, h.labels⟩, fun h => ⟨h.1, h.2.1, h.2.2⟩⟩

instance (t : Text) : Decidable (Validated t) := decidable_of_iff _ validated_iff.symm

theorem numericTail_iff : NumericTail t ↔
    ((labelsOf (chomp t)).getLast?.any fun label => label.all Char.isDigit) = true := by
  simp [NumericTail, Option.any_eq_true]

instance (t : Text) : Decidable (NumericTail t) := decidable_of_iff _ numericTail_iff.symm

theorem validated_of_validateDomain (h : validateDomain rt t = .ok ()) : Validated t := by
  obtain ⟨htwo, hlabels⟩ := validateDomain_ok h
  refine ⟨?_, htwo, hlabels⟩
  simp only [validateDomain] at h
  split_ifs at h with hlong
  omega

theorem validated_of_normalizeText {raw : Text} (h : normalizeText rt raw = .ok t) :
    Validated t :=
  validated_of_validateDomain (normalizeText_ok h)

/-! ## Labels -/

theorem toNat_isLabelEnd {c : Char} (h : isLabelEnd c = true) :
    (97 ≤ c.toNat ∧ c.toNat ≤ 122) ∨ (48 ≤ c.toNat ∧ c.toNat ≤ 57) := by
  simpa [isLabelEnd] using h

theorem isLabelEnd_not_blank {c : Char} (h : isLabelEnd c = true) : ¬ isDomainBlank c = true := by
  intro hb
  simp only [isDomainBlank, List.mem_cons, List.not_mem_nil, or_false, decide_eq_true_eq] at hb
  rcases hb with rfl | rfl | rfl | rfl | rfl <;> revert h <;> decide

theorem chomp_of_not (h : t.getLast? ≠ some '\n') : chomp t = t := if_neg h

theorem chomp_append_singleton (t : Text) : chomp (t ++ ['\n']) = t := by
  simp [chomp]

theorem chomp_isPrefix (t : Text) : chomp t <+: t := by
  unfold chomp
  split
  · exact List.dropLast_prefix t
  · exact List.prefix_refl t

/-- A text is its chomped form, perhaps with a line feed behind it. -/
theorem chomp_cases (t : Text) : (chomp t = t ∧ t.getLast? ≠ some '\n') ∨
    t = chomp t ++ ['\n'] := by
  by_cases h : t.getLast? = some '\n'
  · right
    obtain ⟨u, rfl⟩ := List.getLast?_eq_some_iff.mp h
    rw [chomp_append_singleton]
  · exact .inl ⟨chomp_of_not h, h⟩

theorem labelBody_ends (h : labelBody label = true) :
    (∃ c ∈ label.head?, isLabelEnd c = true) ∧ ∃ c ∈ label.getLast?, isLabelEnd c = true := by
  simp only [labelBody, decide_eq_true_eq, Option.any_eq_true] at h
  exact ⟨h.2.1, h.2.2.1⟩

theorem labelBody_chomp (h : matchesLabel label = true) : labelBody (chomp label) = true := by
  simp only [matchesLabel, decide_eq_true_eq] at h
  rcases h with h | ⟨hlast, h⟩
  · rw [chomp_of_not]
    · exact h
    · obtain ⟨-, c, hc, hend⟩ := labelBody_ends h
      rintro hlf
      rw [hlf, Option.mem_some_iff] at hc
      rw [← hc] at hend
      revert hend
      decide
  · rwa [chomp, if_pos hlast]

theorem matchesLabel_mem (h : matchesLabel label = true) {c : Char} (hc : c ∈ label) :
    isLabelChar c = true ∨ c = '\n' := by
  have hbody := labelBody_chomp h
  simp only [labelBody, decide_eq_true_eq, List.all_eq_true] at hbody
  rcases chomp_cases label with ⟨heq, -⟩ | heq
  · exact .inl (hbody.1 c (heq.symm ▸ hc))
  · rw [heq, List.mem_append, List.mem_singleton] at hc
    exact hc.imp_left (hbody.1 c)

/-- The characters of a validated name are ASCII, and lower case already. -/
theorem kept_by_lower {c : Char} (h : isLabelChar c = true ∨ c = '.' ∨ c = '\n') :
    Text.isAsciiChar c = true ∧ c.toLower = c := by
  rcases h with hchar | rfl | rfl
  · refine ⟨(isLabelChar_plain hchar).1, ?_⟩
    rcases Text.toLower_cases c with hlow | ⟨hlo, hhi, -⟩
    · exact hlow
    · simp only [isLabelChar, decide_eq_true_eq] at hchar
      rcases hchar with hend | rfl
      · have := toNat_isLabelEnd hend
        omega
      · rfl
  · exact ⟨rfl, rfl⟩
  · exact ⟨rfl, rfl⟩

/-! ## Validated names -/

namespace Validated

theorem mem (h : Validated t) {c : Char} (hc : c ∈ t) :
    isLabelChar c = true ∨ c = '.' ∨ c = '\n' := by
  rw [← Text.join_splitOn '.' t] at hc
  rcases Text.mem_join hc with rfl | ⟨label, hl, hcl⟩
  · exact .inr (.inl rfl)
  · rcases matchesLabel_mem (h.labels label hl).2.2 hcl with hchar | rfl
    · exact .inl hchar
    · exact .inr (.inr rfl)

theorem plain (h : Validated t) : Plain t := by
  intro c hc
  rcases h.mem hc with hchar | rfl | rfl
  · exact isLabelChar_plain hchar
  · exact ⟨rfl, by decide⟩
  · exact ⟨rfl, by decide⟩

/-- The last label stands behind a dot. -/
theorem last_label (h : Validated t) : ∃ lead last, lead ≠ [] ∧ labelsOf t = lead ++ [last] ∧
    t = Text.join '.' lead ++ '.' :: last := by
  rcases List.eq_nil_or_concat (labelsOf t) with hnil | ⟨lead, last, hlabels⟩
  · exact absurd hnil (List.splitOn_ne_nil '.' t)
  · rw [List.concat_eq_append] at hlabels
    have hlead : lead ≠ [] := by
      rintro rfl
      have htwo := h.two
      rw [hlabels] at htwo
      simp at htwo
    refine ⟨lead, last, hlead, hlabels, ?_⟩
    calc t = Text.join '.' (labelsOf t) := (Text.join_splitOn '.' t).symm
      _ = Text.join '.' lead ++ '.' :: last := by
        rw [hlabels, Text.join_append hlead (by simp), Text.join_singleton]

/-- Chomping a name chomps its last label. -/
theorem chomp_last (h : Validated t) : ∃ lead last, lead ≠ [] ∧ labelsOf t = lead ++ [last] ∧
    labelsOf (chomp t) = lead ++ [chomp last] ∧
      chomp t = Text.join '.' lead ++ '.' :: chomp last := by
  obtain ⟨lead, last, hlead, hlabels, ht⟩ := h.last_label
  have hchomp : chomp t = Text.join '.' lead ++ '.' :: chomp last := by
    have hne : last ≠ [] := (h.labels last (by simp [hlabels])).1
    rcases chomp_cases last with ⟨heq, hlf⟩ | heq
    · rw [heq, ← ht, chomp_of_not]
      rwa [ht, List.getLast?_append_of_ne_nil _ (by simp), List.getLast?_cons_of_ne_nil hne]
    · have happ : t = (Text.join '.' lead ++ '.' :: chomp last) ++ ['\n'] := by
        rw [List.append_assoc, List.cons_append, ← heq]
        exact ht
      conv_lhs => rw [happ]
      exact chomp_append_singleton _
  refine ⟨lead, last, hlead, hlabels, ?_, hchomp⟩
  have hnodot : ∀ piece ∈ lead ++ [chomp last], '.' ∉ piece := by
    intro piece hp
    rcases List.mem_append.mp hp with hp | hp
    · exact Text.notMem_of_mem_splitOn (show piece ∈ labelsOf t by simp [hlabels, hp])
    · obtain rfl := List.mem_singleton.mp hp
      have hlast : '.' ∉ last :=
        Text.notMem_of_mem_splitOn (show last ∈ labelsOf t by simp [hlabels])
      exact fun hm => hlast ((chomp_isPrefix last).subset hm)
  have hjoin : chomp t = Text.join '.' (lead ++ [chomp last]) := by
    rw [hchomp, Text.join_append hlead (by simp), Text.join_singleton]
  rw [hjoin]
  exact Text.splitOn_join_of_notMem hnodot (by simp)

/-- A letter or a digit stands at either end of the chomped name. -/
theorem ends (h : Validated t) : (∃ c ∈ (chomp t).head?, isLabelEnd c = true) ∧
    ∃ c ∈ (chomp t).getLast?, isLabelEnd c = true := by
  obtain ⟨lead, last, hlead, hlabels, -, hchomp⟩ := h.chomp_last
  rw [hchomp]
  constructor
  · obtain ⟨first, rest, rfl⟩ := List.exists_cons_of_ne_nil hlead
    obtain ⟨hne, -, hm⟩ := h.labels first (by simp [hlabels])
    obtain ⟨⟨c, hc, hend⟩, -⟩ := labelBody_ends (labelBody_chomp hm)
    have hfirst : first.head? = some c := by
      obtain ⟨l, hl⟩ := List.head?_eq_some_iff.mp hc
      obtain ⟨x, hx⟩ := chomp_isPrefix first
      rw [← hx, hl]
      rfl
    refine ⟨c, ?_, hend⟩
    cases rest with
    | nil => simp [List.head?_append, hfirst]
    | cons b rest =>
      rw [Text.join_cons_cons]
      simp [List.head?_append, hfirst]
  · obtain ⟨-, c, hc, hend⟩ :=
      labelBody_ends (labelBody_chomp (h.labels last (by simp [hlabels])).2.2)
    have hne : chomp last ≠ [] := by
      rintro hnil
      simp [hnil] at hc
    refine ⟨c, ?_, hend⟩
    rwa [List.getLast?_append_of_ne_nil _ (by simp), List.getLast?_cons_of_ne_nil hne]

/-- Stripping line feeds, but neither letters nor digits, chomps the name. -/
theorem stripBy_eq (h : Validated t) {p : Char → Bool} (hlf : p '\n' = true)
    (hend : ∀ c, isLabelEnd c = true → ¬ p c = true) : Text.stripBy p t = chomp t := by
  obtain ⟨⟨a, ha, haend⟩, b, hb, hbend⟩ := h.ends
  have hhead : ∀ c ∈ (chomp t).head?, ¬ p c = true := by
    intro c hc
    rw [Option.mem_unique hc ha]
    exact hend a haend
  have hlast : ∀ c ∈ (chomp t).getLast?, ¬ p c = true := by
    intro c hc
    rw [Option.mem_unique hc hb]
    exact hend b hbend
  rcases chomp_cases t with ⟨heq, -⟩ | heq
  · rw [heq] at hhead hlast ⊢
    exact Text.stripBy_eq_self hhead hlast
  · obtain ⟨rest, hrest⟩ := List.head?_eq_some_iff.mp ha
    conv_lhs => rw [heq]
    have hdrop : (chomp t ++ ['\n']).dropWhile p = chomp t ++ ['\n'] := by
      rw [hrest, List.cons_append, List.dropWhile_cons_of_neg (hend a haend)]
    rw [Text.stripBy, hdrop, List.rdropWhile_concat_pos _ _ _ hlf, List.rdropWhile_eq_self_iff]
    intro hne
    exact hlast _ (List.getLast?_eq_some_getLast hne)

/-- Chomping leaves a validated name. -/
theorem chomped (h : Validated t) : Validated (chomp t) := by
  obtain ⟨lead, last, -, hlabels, hchomped, -⟩ := h.chomp_last
  refine ⟨(chomp_isPrefix t).length_le.trans h.short, ?_, ?_⟩
  · have htwo := h.two
    rw [hlabels] at htwo
    rw [hchomped]
    simpa using htwo
  · intro label hl
    rw [hchomped] at hl
    rcases List.mem_append.mp hl with hl | hl
    · exact h.labels label (by simp [hlabels, hl])
    · obtain rfl := List.mem_singleton.mp hl
      obtain ⟨-, hlen, hm⟩ := h.labels last (by simp [hlabels])
      have hbody := labelBody_chomp hm
      obtain ⟨⟨c, hc, -⟩, -⟩ := labelBody_ends hbody
      refine ⟨?_, (chomp_isPrefix last).length_le.trans hlen, ?_⟩
      · rintro hnil
        simp [hnil] at hc
      · simp [matchesLabel, hbody]

theorem clean_chomp (h : Validated t) : Clean (chomp t) := by
  obtain ⟨⟨a, ha, haend⟩, b, hb, hbend⟩ := h.ends
  refine ⟨fun c hc => ?_, fun c hc => ?_, fun c hc => ?_⟩
  · exact kept_by_lower (h.mem ((chomp_isPrefix t).subset hc))
  · rw [Option.mem_unique hc ha]
    exact isLabelEnd_not_blank haend
  · rw [Option.mem_unique hc hb]
    exact isLabelEnd_not_blank hbend

/-- Cleaning takes off a line feed at the end. -/
theorem cleanDomain_eq (h : Validated t) : cleanDomain rt t = chomp t := by
  have hdecoded : Decoded t := fun c hc => .inl (kept_by_lower (h.mem hc)).1
  have hstrip : Text.stripBy isDomainBlank t = chomp t :=
    h.stripBy_eq (by decide) fun _ hc => isLabelEnd_not_blank hc
  rw [cleanDomain_of_decoded hdecoded, hstrip]
  exact (List.map_congr_left fun c hc => (h.clean_chomp.1 c hc).2).trans (List.map_id _)

end Validated

/-! ## Normalizing what looks like a domain -/

/-- ASCII text goes through the IDNA codec unchanged, where it goes through. -/
theorem idna_of_ascii {candidate : Text} (h : Text.isAscii t = true)
    (hc : rt.idna t = some candidate) : candidate = t := by
  rw [Runtime.idna, if_pos h] at hc
  dsimp only at hc
  split at hc
  · exact (Option.some.inj hc).symm
  · cases hc

/-- Letters, digits, hyphens, dots and line feeds, with nothing to strip at the ends. -/
structure Tame (t : Text) : Prop where
  chars : ∀ c ∈ t, isLabelChar c = true ∨ c = '.' ∨ c = '\n'
  ne_nil : t ≠ []
  stripped : Text.stripBy isDomainBlank t = t

theorem takeWhile_of_notMem {c : Char} (h : c ∉ t) : t.takeWhile (· ≠ c) = t := by
  rw [List.takeWhile_eq_self_iff]
  intro b hb
  simp only [ne_eq, decide_eq_true_eq]
  rintro rfl
  exact h hb

namespace Tame

theorem notMem (h : Tame t) {c : Char} (hc : isLabelChar c = false) (hdot : c ≠ '.')
    (hlf : c ≠ '\n') : c ∉ t := by
  intro hm
  rcases h.chars c hm with hchar | rfl | rfl
  · rw [hc] at hchar
    cases hchar
  · exact hdot rfl
  · exact hlf rfl

theorem lower_eq (h : Tame t) : rt.lower t = t := by
  have hkept : ∀ c ∈ t, Text.isAsciiChar c = true ∧ c.toLower = c :=
    fun c hc => kept_by_lower (h.chars c hc)
  rw [rt.lower_of_ascii fun c hc => .inl (hkept c hc).1]
  exact (List.map_congr_left fun c hc => (hkept c hc).2).trans (List.map_id _)

theorem isAscii (h : Tame t) : Text.isAscii t = true := by
  rw [Text.isAscii, List.all_eq_true]
  exact fun c hc => (kept_by_lower (h.chars c hc)).1

/-- Of such a text nothing is taken for a wildcard, a scheme, a path or a port. -/
theorem cut_eq (h : Tame t) {raw : Text} (hraw : Text.strip raw = t) : raw ≠ [] ∧
    extractHost rt (dropWildcard (rt.lower (Text.strip raw))) = .ok t ∧ cutHost t = t := by
  have hwild : dropWildcard t = t := by
    refine if_neg fun hpre => ?_
    exact h.notMem (by decide) (by decide) (by decide) (hpre.subset (show '*' ∈ ['*', '.'] by simp))
  have hurl : ¬ ("://" : Text) <:+: t := fun hi =>
    h.notMem (by decide) (by decide) (by decide) (hi.subset (show ':' ∈ [':', '/', '/'] by simp))
  refine ⟨?_, ?_, ?_⟩
  · rintro rfl
    exact h.ne_nil hraw.symm
  · rw [hraw, h.lower_eq, hwild, extractHost, if_neg hurl,
      takeWhile_of_notMem (h.notMem (by decide) (by decide) (by decide))]
  · rw [cutHost, takeWhile_of_notMem (h.notMem (by decide) (by decide) (by decide)),
      takeWhile_of_notMem (h.notMem (by decide) (by decide) (by decide)),
      takeWhile_of_notMem (h.notMem (by decide) (by decide) (by decide)),
      takeWhile_of_notMem (h.notMem (by decide) (by decide) (by decide)), h.stripped]

theorem normalizeText_of_valid (h : Tame t) {raw : Text} (hraw : Text.strip raw = t)
    (hidna : rt.idna t = some t) (hvalid : validateDomain rt t = .ok ()) :
    normalizeText rt raw = .ok t := by
  obtain ⟨hne, hhost, hcut⟩ : raw ≠ [] ∧
      extractHost rt (dropWildcard (rt.lower (Text.strip raw))) = .ok t ∧ cutHost t = t :=
    h.cut_eq hraw
  rw [normalizeText, if_neg hne, hhost]
  simp only [hcut, if_neg h.ne_nil, hidna, hvalid]

/-- What such a text is normalized to is the text itself. -/
theorem eq_of_normalizeText (h : Tame t) {raw norm : Text} (hraw : Text.strip raw = t)
    (hn : normalizeText rt raw = .ok norm) : norm = t ∧ validateDomain rt t = .ok () := by
  obtain ⟨hne, hhost, hcut⟩ : raw ≠ [] ∧
      extractHost rt (dropWildcard (rt.lower (Text.strip raw))) = .ok t ∧ cutHost t = t :=
    h.cut_eq hraw
  rw [normalizeText, if_neg hne, hhost] at hn
  simp only [hcut, if_neg h.ne_nil] at hn
  split at hn
  · cases hn
  · next candidate hi =>
    obtain rfl := idna_of_ascii h.isAscii hi
    split at hn
    · cases hn
    · next hv =>
      cases hn
      exact ⟨rfl, hv⟩

end Tame

theorem Validated.tame (h : Validated t) : Tame (chomp t) where
  chars c hc := h.mem ((chomp_isPrefix t).subset hc)
  ne_nil := by
    obtain ⟨⟨c, hc, -⟩, -⟩ := h.ends
    rintro hnil
    simp [hnil] at hc
  stripped := Text.stripBy_eq_self h.clean_chomp.2.1 h.clean_chomp.2.2

theorem Validated.strip_eq (h : Validated t) : Text.strip t = chomp t := by
  refine h.stripBy_eq (by decide) fun c hc hs => ?_
  have hcode := toNat_isLabelEnd hc
  simp only [Text.isSpace, List.mem_cons, List.not_mem_nil, or_false, decide_eq_true_eq] at hs
  omega

/-- The label regex and the length limits hold for a validated name, so only a numeric last label
is refused. -/
theorem Validated.validateDomain_eq (h : Validated t) : validateDomain rt t = .ok () ↔
    ¬ (labelsOf t).getLast?.any rt.isdigit = true := by
  have hlabels : ∀ labels : List Text, (∀ l ∈ labels, l ≠ [] ∧ l.length ≤ 63 ∧
      matchesLabel l = true) → validateLabels t labels = .ok () := by
    intro labels hl
    induction labels with
    | nil => rfl
    | cons l labels ih =>
      obtain ⟨⟨hne, hlen, hm⟩, hrest⟩ := List.forall_mem_cons.mp hl
      rw [validateLabels, if_neg hne, if_neg (by omega), if_neg (by simp [hm])]
      exact ih hrest
  have hshort := h.short
  have htwo : 2 ≤ (t.splitOn '.').length := h.two
  simp only [validateDomain]
  rw [if_neg (by omega), if_neg (by omega), hlabels _ h.labels]
  split_ifs with hd <;> simp [hd]

theorem Validated.isAscii (h : Validated t) : Text.isAscii t = true := by
  rw [Text.isAscii, List.all_eq_true]
  exact fun c hc => (h.plain c hc).1

/-- The codec leaves a validated name as it is. -/
theorem Validated.idna_eq (h : Validated t) : rt.idna t = some t := by
  rw [Runtime.idna, if_pos h.isAscii]
  refine if_pos ⟨?_, ?_⟩
  · rw [List.all_eq_true]
    intro l hl
    obtain ⟨hlne, hlen, -⟩ := h.labels l (List.mem_of_mem_dropLast hl)
    have := List.length_pos_iff.mpr hlne
    simp only [decide_eq_true_eq]
    omega
  · rw [Option.all_eq_true]
    intro l hl
    obtain ⟨-, hlen, -⟩ := h.labels l (List.mem_of_mem_getLast? hl)
    simp only [decide_eq_true_eq]
    omega

theorem isdigit_of_ascii (hne : t ≠ []) (h : Text.isAscii t = true) :
    rt.isdigit t = true ↔ t.all Char.isDigit = true := by
  simp only [Text.isAscii, List.all_eq_true] at h
  simp only [Runtime.isdigit, hne, ne_eq, not_false_eq_true, true_and, decide_eq_true_eq,
    List.all_eq_true]
  refine forall₂_congr fun c hc => ?_
  rw [Runtime.isDigit, if_pos (h c hc)]

/-- A second normalization chomps the name, or refuses its last label. -/
theorem renormalize (h : Validated t) :
    (NumericTail t → ∀ norm, normalizeText rt t ≠ .ok norm) ∧
      (¬ NumericTail t → normalizeText rt t = .ok (chomp t)) := by
  have htame := h.tame
  obtain ⟨lead, last, -, -, hlabels, -⟩ := h.chomp_last
  obtain ⟨hne, -, -⟩ := h.chomped.labels (chomp last) (by simp [hlabels])
  have hascii : Text.isAscii (chomp last) = true := by
    have hall := htame.isAscii
    simp only [Text.isAscii, List.all_eq_true] at hall ⊢
    exact fun c hc => hall c (Text.mem_of_mem_splitOn
      (show chomp last ∈ labelsOf (chomp t) by simp [hlabels]) hc)
  have htail : NumericTail t ↔ rt.isdigit (chomp last) = true := by
    rw [isdigit_of_ascii hne hascii, NumericTail, hlabels]
    simp
  have hvalid : validateDomain rt (chomp t) = .ok () ↔ ¬ NumericTail t := by
    rw [h.chomped.validateDomain_eq, htail, hlabels]
    simp
  constructor
  · intro hnum norm hn
    exact hvalid.mp (htame.eq_of_normalizeText h.strip_eq hn).2 hnum
  · intro hnum
    exact htame.normalizeText_of_valid h.strip_eq h.chomped.idna_eq (hvalid.mpr hnum)

/-! ## Normalizing plain text -/

/-- Cutting and stripping a text only takes characters away. -/
theorem mem_of_mem_cutHost {c : Char} (h : c ∈ cutHost t) : c ∈ t := by
  unfold cutHost at h
  have hcut : ∀ {p : Char → Bool} {l : Text}, c ∈ l.takeWhile p → c ∈ l :=
    fun hm => (List.takeWhile_sublist _).subset hm
  exact hcut (hcut (hcut (hcut (Text.mem_of_mem_stripBy h))))

/-- Only what the IDNA codec makes of other characters can end with a line feed. -/
theorem Plain.getLast?_ne {raw norm : Text} (h : Plain raw) (hn : normalizeText rt raw = .ok norm) :
    norm.getLast? ≠ some '\n' := by
  have hlower : Text.isAscii (rt.lower (Text.strip raw)) = true := by
    have hstrip : ∀ c ∈ Text.strip raw, Text.isAsciiChar c = true ∨ c = Text.replacement :=
      fun c hc => .inl (h c (Text.mem_of_mem_stripBy hc)).1
    rw [rt.lower_of_ascii hstrip, Text.isAscii, List.all_eq_true]
    intro c hc
    obtain ⟨b, hb, rfl⟩ := List.mem_map.mp hc
    have hascii := (h b (Text.mem_of_mem_stripBy hb)).1
    rcases Text.toLower_cases b with heq | ⟨-, hhi, heq⟩
    · rwa [heq]
    · simp only [Text.isAsciiChar, heq, decide_eq_true_eq]
      omega
  rw [Text.isAscii, List.all_eq_true] at hlower
  generalize hhost : (dropWildcard (rt.lower (Text.strip raw))).takeWhile (· ≠ '/') = host
  have hascii : Text.isAscii (cutHost host) = true := by
    rw [Text.isAscii, List.all_eq_true]
    intro c hc
    have hm := mem_of_mem_cutHost hc
    rw [← hhost] at hm
    have hwild := (List.takeWhile_sublist _).subset hm
    unfold dropWildcard at hwild
    split at hwild
    · exact hlower c (List.mem_of_mem_drop hwild)
    · exact hlower c hwild
  rw [normalizeText, h.extractHost_eq, hhost] at hn
  dsimp only at hn
  split_ifs at hn
  split at hn
  · cases hn
  · next candidate hidna =>
    obtain rfl := idna_of_ascii hascii hidna
    split at hn
    · cases hn
    · cases hn
      intro hlast
      exact Text.getLast?_stripBy hlast (by decide)

/-- A normalized form without a line feed at its end has been validated as it is. -/
theorem not_numericTail_of_normalizeText {raw norm : Text} (hn : normalizeText rt raw = .ok norm)
    (hlast : norm.getLast? ≠ some '\n') : ¬ NumericTail norm := by
  have hvalid := validated_of_normalizeText hn
  have hchomp : chomp norm = norm := chomp_of_not hlast
  obtain ⟨lead, last, -, hlabels, -⟩ := hvalid.last_label
  have hne := (hvalid.labels last (by simp [hlabels])).1
  have hascii : Text.isAscii last = true := by
    rw [Text.isAscii, List.all_eq_true]
    exact fun c hc => (hvalid.plain c (Text.mem_of_mem_splitOn
      (show last ∈ labelsOf norm by simp [hlabels]) hc)).1
  have hdigits := hvalid.validateDomain_eq.mp (normalizeText_ok hn)
  rintro ⟨label, hl, hall⟩
  rw [hchomp, hlabels, List.getLast?_concat, Option.mem_some_iff] at hl
  subst hl
  apply hdigits
  rw [hlabels, List.getLast?_concat, Option.any_some]
  exact (isdigit_of_ascii hne hascii).mpr hall

/-- So the last label of such a normalized form is not a number. -/
theorem Plain.not_numericTail {raw norm : Text} (h : Plain raw)
    (hn : normalizeText rt raw = .ok norm) : ¬ NumericTail norm :=
  not_numericTail_of_normalizeText hn (h.getLast?_ne hn)

/-! ## Rules -/

/-- The rules of a list cover what is under its chomped normalized forms. -/
theorem covered_rulesOf {l : List Text} {d : Text} : Covered (rulesOf rt l) d ↔
    ∃ entry ∈ l, ∃ norm, normalizeText rt entry = .ok norm ∧ Text.under d (chomp norm) = true := by
  have hrule : ∀ {entry norm : Text}, normalizeText rt entry = .ok norm →
      (domainToKey rt norm).reverse = labelsOf (chomp norm) := by
    intro entry norm hn
    rw [domainToKey, List.reverse_reverse, (validated_of_normalizeText hn).cleanDomain_eq]
  constructor
  · rintro ⟨rule, hmem, -, hsuffix⟩
    obtain ⟨entry, he, hr⟩ := mem_rulesOf.mp hmem
    unfold ruleOf at hr
    split at hr
    · next norm hn =>
      cases hr
      rw [hrule hn] at hsuffix
      exact ⟨entry, he, norm, hn, (Text.under_iff_suffix _ _).mpr hsuffix⟩
    · cases hr
  · rintro ⟨entry, he, norm, hn, hunder⟩
    refine ⟨domainToKey rt norm, mem_rulesOf.mpr ⟨entry, he, by rw [ruleOf, hn]⟩, ?_, ?_⟩
    · rw [ne_eq, ← List.reverse_eq_nil_iff, hrule hn]
      exact List.splitOn_ne_nil _ _
    · rw [hrule hn]
      exact (Text.under_iff_suffix _ _).mp hunder

end FocusGuard
