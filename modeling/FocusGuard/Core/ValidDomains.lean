import FocusGuard.Dns.Normalized

/-!
# What a normalized domain is

A normalized domain has the labels, lengths and letters of a domain, and normalizing it again gives
it back, but for what `LABEL_REGEX` lets through: a line feed at the end of a label. Inside the host
an input may have one as it is; at the very end only the IDNA codec can leave one, as dots and
blanks have been stripped before.

## Main results

* `validDomain_iff`: when a normalized domain is a valid one.
* `renormalizes_iff`: when it is normalized to itself, and its rule is its own key.
-/

namespace FocusGuard

/-- A name of RFC 1035 and 1123 in lower case, with a last label that is not a number. -/
structure ValidDomain (d : Text) : Prop where
  short : d.length ≤ 253
  two : 2 ≤ (labelsOf d).length
  length : ∀ label ∈ labelsOf d, 1 ≤ label.length ∧ label.length ≤ 63
  chars : ∀ label ∈ labelsOf d, ∀ c ∈ label, c.isLower = true ∨ c.isDigit = true ∨ c = '-'
  ends : ∀ label ∈ labelsOf d, label.head? ≠ some '-' ∧ label.getLast? ≠ some '-'
  tld : ∀ label ∈ (labelsOf d).getLast?, ∃ c ∈ label, ¬ c.isDigit = true

variable (rt : Runtime)

/-- The host that is cut out of an input. -/
def hostOf (rawInput : Text) : Option Text :=
  match extractHost rt (dropWildcard (rt.lower (Text.strip rawInput))) with
  | .error _ => none
  | .ok host => some (cutHost host)

/-- The host of an input as the IDNA codec writes it. -/
def encodedHost (rawInput : Text) : Option Text :=
  match extractHost rt (dropWildcard (rt.lower (Text.strip rawInput))) with
  | .error _ => none
  | .ok host => rt.idna (cutHost host)

variable {rt} {raw d : Text}

theorem normalizeText_encodedHost {raw norm : Text} (h : normalizeText rt raw = .ok norm) :
    encodedHost rt raw = some norm := by
  simp only [normalizeText] at h
  split at h
  · cases h
  cases hhost : extractHost rt (dropWildcard (rt.lower (Text.strip raw))) with
  | error x =>
    rw [hhost] at h
    cases h
  | ok host =>
    rw [hhost] at h
    dsimp only at h
    split at h
    · cases h
    rw [encodedHost, hhost]
    dsimp only
    cases hidna : rt.idna (cutHost host) with
    | none =>
      rw [hidna] at h
      cases h
    | some candidate =>
      rw [hidna] at h
      dsimp only at h
      split at h
      · cases h
      · cases h
        rfl

/-- An ASCII host is what is returned; of another one the codec's text is. -/
theorem normalizeText_hostOf {raw norm : Text} (h : normalizeText rt raw = .ok norm) :
    ∃ host, hostOf rt raw = some host ∧ (Text.isAscii host = true → norm = host) ∧
      (¬ Text.isAscii host = true → rt.idnaUnicode host = some norm) := by
  have henc : encodedHost rt raw = some norm := normalizeText_encodedHost h
  rw [encodedHost] at henc
  cases hhost : extractHost rt (dropWildcard (rt.lower (Text.strip raw))) with
  | error x =>
    rw [hhost] at henc
    cases henc
  | ok host =>
    rw [hhost] at henc
    dsimp only at henc
    refine ⟨cutHost host, by rw [hostOf, hhost], fun hascii => ?_, fun hascii => ?_⟩
    · exact idna_of_ascii hascii henc
    · rw [Runtime.idna, if_neg hascii] at henc
      exact (Option.filter_eq_some_iff.mp henc).1

theorem hostOf_getLast? {host : Text} (h : host ∈ hostOf rt raw) : host.getLast? ≠ some '\n' := by
  rw [hostOf] at h
  split at h
  · cases h
  · cases h
    exact fun hlast => Text.getLast?_stripBy hlast (by decide)

/-! ## Valid domains -/

theorem isLabelEnd_iff {c : Char} : isLabelEnd c = true ↔ c.isLower = true ∨ c.isDigit = true := by
  have hlow : c.isLower = true ↔ 97 ≤ c.toNat ∧ c.toNat ≤ 122 :=
    Bool.and_eq_true_iff.trans (and_congr decide_eq_true_iff decide_eq_true_iff)
  have hdigit : c.isDigit = true ↔ 48 ≤ c.toNat ∧ c.toNat ≤ 57 :=
    Bool.and_eq_true_iff.trans (and_congr decide_eq_true_iff decide_eq_true_iff)
  rw [isLabelEnd, decide_eq_true_eq, hlow, hdigit]

/-- A label that matches and has no line feed is one. -/
theorem labelBody_iff {label : Text} (hm : matchesLabel label = true) :
    labelBody label = true ↔ '\n' ∉ label := by
  constructor
  · intro hbody hlf
    simp only [labelBody, decide_eq_true_eq, List.all_eq_true] at hbody
    exact absurd (hbody.1 _ hlf) (by decide)
  · intro hlf
    have hchomp := labelBody_chomp hm
    rwa [chomp_of_not fun hlast => hlf (List.mem_of_getLast? hlast)] at hchomp

theorem ValidDomain.notMem (h : ValidDomain d) : '\n' ∉ d := by
  intro hlf
  rw [← Text.join_splitOn '.' d] at hlf
  rcases Text.mem_join hlf with hdot | ⟨label, hl, hc⟩
  · exact absurd hdot (by decide)
  · exact absurd (h.chars label hl _ hc) (by decide)

/-- Only a line feed keeps a validated domain from being valid. -/
theorem Validated.validDomain (h : Validated d) (hnum : ¬ NumericTail d) (hlf : '\n' ∉ d) :
    ValidDomain d := by
  have hbody : ∀ label ∈ labelsOf d, labelBody label = true := fun label hl =>
    (labelBody_iff (h.labels label hl).2.2).mpr fun hc => hlf (Text.mem_of_mem_splitOn hl hc)
  have hend : ∀ {c : Char}, isLabelEnd c = true → c ≠ '-' := by
    rintro c hc rfl
    exact absurd hc (by decide)
  constructor
  · exact h.short
  · exact h.two
  · intro label hl
    obtain ⟨hne, hlen, -⟩ := h.labels label hl
    exact ⟨List.length_pos_iff.mpr hne, hlen⟩
  · intro label hl c hc
    have hall := hbody label hl
    simp only [labelBody, decide_eq_true_eq, List.all_eq_true] at hall
    have hchar := hall.1 c hc
    simp only [isLabelChar, decide_eq_true_eq] at hchar
    rcases hchar with hchar | hchar
    · exact (isLabelEnd_iff.mp hchar).imp_right .inl
    · exact .inr (.inr hchar)
  · intro label hl
    obtain ⟨⟨a, ha, haend⟩, b, hb, hbend⟩ := labelBody_ends (hbody label hl)
    constructor
    · intro hhead
      exact hend haend (Option.mem_unique ha hhead)
    · intro hlast
      exact hend hbend (Option.mem_unique hb hlast)
  · intro label hl
    have hchomp : chomp d = d := chomp_of_not fun hlast => hlf (List.mem_of_getLast? hlast)
    by_contra hdigits
    refine hnum ⟨label, hchomp.symm ▸ hl, ?_⟩
    rw [List.all_eq_true]
    intro c hc
    by_contra hnot
    exact hdigits ⟨c, hc, hnot⟩

/-- A normalized domain is valid just if its host has no line feed, once the codec has written it in
ASCII. -/
theorem validDomain_iff (h : normalizeDomain rt (.str raw) = .ok d) :
    ValidDomain d ↔ ∀ host ∈ hostOf rt raw, (Text.isAscii host = true → '\n' ∉ host) ∧
      (¬ Text.isAscii host = true → ∀ ascii ∈ rt.idnaUnicode host, '\n' ∉ ascii) := by
  obtain ⟨cut, hcut, hsame, hcodec⟩ : ∃ host, hostOf rt raw = some host ∧
      (Text.isAscii host = true → d = host) ∧
      (¬ Text.isAscii host = true → rt.idnaUnicode host = some d) := normalizeText_hostOf h
  constructor
  · intro hvalid host hmem
    obtain rfl := Option.mem_unique hcut hmem
    refine ⟨fun hascii => hsame hascii ▸ hvalid.notMem, fun hascii ascii hmem => ?_⟩
    obtain rfl := Option.mem_unique (hcodec hascii) hmem
    exact hvalid.notMem
  · intro hall
    obtain ⟨hplain, hother⟩ := hall cut hcut
    have hlf : '\n' ∉ d := by
      by_cases hascii : Text.isAscii cut = true
      · exact (hsame hascii).symm ▸ hplain hascii
      · exact hother hascii d (hcodec hascii)
    refine (validated_of_normalizeText h).validDomain ?_ hlf
    exact not_numericTail_of_normalizeText h fun hlast => hlf (List.mem_of_getLast? hlast)

theorem validDomain_iff_youtube : ValidDomain "www.youtube.com" := by
  have hn : normalizeDomain asciiRuntime (.str "https://www.YouTube.com/") =
      .ok "www.youtube.com".toList := by
    decide
  refine (validDomain_iff hn).mpr fun host hhost => ?_
  have hcut : hostOf asciiRuntime "https://www.YouTube.com/" = some "www.youtube.com".toList := by
    decide
  obtain rfl := Option.mem_unique hcut hhost
  decide

/-- The first label has a line feed at its end. -/
theorem line_feed_accepted : ¬ ∀ raw d,
    normalizeDomain asciiRuntime (.str raw) = .ok d → ValidDomain d := by
  intro h
  have hn : normalizeDomain asciiRuntime (.str "a\n.com") = .ok "a\n.com".toList := by decide
  exact (h _ _ hn).notMem (by decide)

/-! ## Normalizing again -/

/-- A validated domain normalizes to itself unless it ends with a line feed. -/
theorem fixed_of_validated {d : Text} (hd : Validated d) (hnum : ¬ NumericTail d)
    (hlast : d.getLast? ≠ some '\n') : normalizeDomain rt (.str d) = .ok d := by
  have hchomp : normalizeText rt d = .ok (chomp d) := (renormalize hd).2 hnum
  rwa [chomp_of_not hlast] at hchomp

theorem not_fixed_of_lineFeed (hd : Validated d) (hlast : d.getLast? = some '\n') :
    normalizeDomain rt (.str d) ≠ .ok d := by
  intro hfixed
  by_cases hnum : NumericTail d
  · exact (renormalize hd).1 hnum d hfixed
  · have hchomp : normalizeText rt d = .ok (chomp d) := (renormalize hd).2 hnum
    have hsame : d = chomp d := Except.ok.inj (hfixed.symm.trans hchomp)
    have hlength := congrArg List.length hsame
    obtain ⟨u, rfl⟩ := List.getLast?_eq_some_iff.mp hlast
    rw [chomp_append_singleton] at hlength
    simp at hlength

/-- A normalized domain is normalized to itself, and is installed under its own key, just if the
codec has not written a host beyond ASCII with a line feed at its end. -/
theorem renormalizes_iff (h : normalizeDomain rt (.str raw) = .ok d) :
    (normalizeDomain rt (.str d) = .ok d ∧
        ∀ target, addRule rt d target = .ok (insert (labelsOf d).reverse target)) ↔
      ∀ host ∈ hostOf rt raw, ¬ Text.isAscii host = true →
        ∀ ascii ∈ rt.idnaUnicode host, ascii.getLast? ≠ some '\n' := by
  obtain ⟨cut, hcut, hsame, hcodec⟩ : ∃ host, hostOf rt raw = some host ∧
      (Text.isAscii host = true → d = host) ∧
      (¬ Text.isAscii host = true → rt.idnaUnicode host = some d) := normalizeText_hostOf h
  have hvalid := validated_of_normalizeText h
  constructor
  · rintro ⟨hfixed, -⟩ host hmem hascii ascii hascii' hlast
    obtain rfl := Option.mem_unique hcut hmem
    obtain rfl := Option.mem_unique (hcodec hascii) hascii'
    exact not_fixed_of_lineFeed hvalid hlast hfixed
  · intro hall
    have hlast : d.getLast? ≠ some '\n' := by
      by_cases hascii : Text.isAscii cut = true
      · rw [hsame hascii]
        exact hostOf_getLast? hcut
      · exact hall cut hcut hascii d (hcodec hascii)
    have hfixed : normalizeText rt d = .ok d :=
      fixed_of_validated hvalid (not_numericTail_of_normalizeText h hlast) hlast
    have hkey : domainToKey rt d = (labelsOf d).reverse := by
      unfold domainToKey labelsOf
      rw [hvalid.cleanDomain_eq, chomp_of_not hlast]
    refine ⟨hfixed, fun target => ?_⟩
    simp only [addRule, hfixed, hkey]

theorem renormalizes_iff_youtube :
    normalizeDomain asciiRuntime (.str "www.youtube.com") = .ok "www.youtube.com".toList := by
  have hn : normalizeDomain asciiRuntime (.str "https://www.YouTube.com/") =
      .ok "www.youtube.com".toList := by
    decide
  refine ((renormalizes_iff hn).mpr fun host hhost hascii => ?_).1
  have hcut : hostOf asciiRuntime "https://www.YouTube.com/" = some "www.youtube.com".toList := by
    decide
  obtain rfl := Option.mem_unique hcut hhost
  exact absurd (by decide) hascii

/-- A host whose IDNA codec, as Python's does, drops a soft hyphen. -/
def idnaRuntime : Runtime :=
  { asciiRuntime with idnaUnicode := fun t => some (t.filter fun c => c ≠ '\u00ad') }

/-- A domain whose line feed a soft hyphen keeps from being stripped. -/
def hyphenatedCom : Text := "x.com\n\u00ad"

/-- What comes out of the first normalization loses its line feed in the second. -/
theorem renormalizes_differently : ¬ ∀ raw d, normalizeDomain idnaRuntime (.str raw) = .ok d →
    normalizeDomain idnaRuntime (.str d) = .ok d := by
  intro h
  have hn : normalizeDomain idnaRuntime (.str hyphenatedCom) = .ok "x.com\n".toList := by decide
  exact absurd (h _ _ hn) (by decide)

end FocusGuard
