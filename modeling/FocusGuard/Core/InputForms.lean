import FocusGuard.Core.UrlHosts

/-!
# The input forms of a domain

A domain may be typed as it is, behind `*.` or a scheme, with a port, a path, a query or a fragment
behind it. The text is read as a URL wherever a `://` stands in it, so a path that has one hides the
host in front of it.

## Main definitions

* `Form`: the documented forms.
* `Form.FindsHost`: when the host of a form is found.

## Main results

* `normalizes_form_iff`: what is typed in one of the forms is normalized to its host.
-/

namespace FocusGuard

/-! ## The forms -/

inductive Form
  | wildcard
  | bare (tail : Tail)
  | http (tail : Tail)
  | https (tail : Tail)

def Form.text (host : Text) : Form → Text
  | .wildcard => ("*." : Text) ++ host
  | .bare tail => host ++ tail.text
  | .http tail => ("http://" : Text) ++ (host ++ tail.text)
  | .https tail => ("https://" : Text) ++ (host ++ tail.text)

/-- The text is read as a URL. -/
def Form.ReadAsUrl : Form → Prop
  | .wildcard => False
  | .bare tail => tail.HasScheme
  | .http _ => True
  | .https _ => True

/-- A URL without a network location is read, and its path is not the host: the host stands in front
of the first slash, or is taken for a scheme. -/
def Form.HidesHost (host : Text) : Form → Prop
  | .bare (.more .path rest) => ("://" : Text) <:+: rest
  | .bare (.more (.portPath _) rest) =>
    ("://" : Text) <:+: rest ∧ ∃ c ∈ host.head?, c.isAlpha = true
  | _ => False

/-- The host of the form is found; a line feed in it is lost in a URL, and at the end anyway. -/
structure Form.FindsHost (form : Form) (host : Text) : Prop where
  shown : ¬ form.HidesHost host
  whole : form.ReadAsUrl → '\n' ∉ host
  last : host.getLast? ≠ some '\n'

/-- What `str.lower()` and the IDNA codec do to any text: ASCII in front is lowered by itself, the
signs of `://` are no letters, and no slash is dropped. -/
structure FormLaws (rt : Runtime) : Prop where
  lower : ∀ ascii rest, Text.isAscii ascii = true →
    ∃ rest', rt.lower (ascii ++ rest) = ascii.map Char.toLower ++ rest' ∧
      (("://" : Text) <:+: rest' ↔ ("://" : Text) <:+: rest)
  idna : ∀ t ascii, rt.idnaUnicode t = some ascii → '/' ∈ t → '/' ∈ ascii

variable {rt : Runtime} {h raw : Text}

/-! ## Letter case and blanks -/

theorem not_isSpace_of_toLower {c : Char} (hend : isLabelEnd c.toLower = true) :
    ¬ Text.isSpace c = true := by
  have hcode := toNat_isLabelEnd hend
  intro hspace
  simp only [Text.isSpace, List.mem_cons, List.not_mem_nil, or_false, decide_eq_true_eq] at hspace
  rcases Text.toLower_cases c with heq | ⟨hlo, hhi, hsum⟩
  · rw [heq] at hcode
    omega
  · omega

/-- No blank is part of a `://`. -/
theorem scheme_infix_rdropWhile (t : Text) :
    ("://" : Text) <:+: t.rdropWhile Text.isSpace ↔ ("://" : Text) <:+: t := by
  induction t using List.reverseRecOn with
  | nil => rfl
  | append_singleton t c ih =>
    rw [List.rdropWhile_concat]
    split
    · next hspace =>
      rw [ih, List.infix_concat_iff]
      refine ⟨.inr, fun hi => hi.resolve_left fun hsuffix => ?_⟩
      have hlast : c = '/' := by
        obtain ⟨pre, hpre⟩ := hsuffix
        have hget := congrArg List.getLast? hpre
        rw [List.getLast?_concat, List.getLast?_append_of_ne_nil _ (by decide)] at hget
        exact (Option.some.inj hget).symm
      subst hlast
      exact absurd hspace (by decide)
    · rfl

variable {before after : Text}

/-- Blanks around a text, and at its end, are stripped. -/
theorem strip_core {core : Text} (hb : ∀ c ∈ before, Text.isSpace c = true)
    (ha : ∀ c ∈ after, Text.isSpace c = true) (hne : core ≠ [])
    (hhead : ∀ c ∈ core.head?, ¬ Text.isSpace c = true)
    (hlast : ∀ c ∈ core.getLast?, ¬ Text.isSpace c = true) (rest : Text) :
    Text.strip (before ++ (core ++ rest) ++ after) = core ++ rest.rdropWhile Text.isSpace := by
  obtain ⟨c, core, rfl⟩ := List.exists_cons_of_ne_nil hne
  rw [Text.strip, Text.stripBy_padded hb ha, Text.stripBy, List.cons_append,
    List.dropWhile_cons_of_neg (hhead c rfl), ← List.cons_append, Text.rdropWhile_append hlast]

/-- What may stand in front of the host. -/
def leads : List Text := [[], "*.", "http://", "https://"]

theorem leads_lower : ∀ lead ∈ leads, Text.isAscii lead = true ∧ lead.map Char.toLower = lead ∧
    ∀ c ∈ lead.head?, ¬ Text.isSpace c = true := by
  simp only [leads, List.forall_mem_cons]
  refine ⟨⟨rfl, rfl, ?_⟩, ⟨by decide, by decide, ?_⟩, ⟨by decide, by decide, ?_⟩,
    ⟨by decide, by decide, ?_⟩, List.forall_mem_nil _⟩
  · rintro c ⟨⟩
  · rintro c ⟨⟩
    decide
  · rintro c ⟨⟩
    decide
  · rintro c ⟨⟩
    decide

theorem Port.lowered (port : Port) :
    Text.isAscii port.text = true ∧ port.text.map Char.toLower = port.text := by
  have hkept : ∀ c ∈ port.text, Text.isAsciiChar c = true ∧ c.toLower = c := by
    intro c hc
    rcases List.mem_cons.mp hc with rfl | hc
    · exact ⟨rfl, rfl⟩
    · exact kept_by_lower (port.hostChars c hc)
  refine ⟨List.all_eq_true.mpr fun c hc => (hkept c hc).1, ?_⟩
  exact (List.map_congr_left fun c hc => (hkept c hc).2).trans (List.map_id _)

theorem Mark.lowered_port (mark : Mark) :
    Text.isAscii mark.port = true ∧ mark.port.map Char.toLower = mark.port := by
  cases mark with
  | portPath port => exact port.lowered
  | _ => exact ⟨rfl, rfl⟩

theorem Mark.lowered_sign (mark : Mark) : Text.isAscii [mark.sign] = true ∧
    mark.sign.toLower = mark.sign ∧ ¬ Text.isSpace mark.sign = true := by
  have hall : ∀ c ∈ ['/', '?', '#'], Text.isAscii [c] = true ∧ c.toLower = c ∧
      ¬ Text.isSpace c = true := by
    decide
  exact hall _ mark.sign_mem

/-- A host in some letter case. -/
structure HostCase (host h : Text) : Prop where
  valid : Validated h
  lower : host.map Char.toLower = h

namespace HostCase

variable {host lead : Text}

theorem isAscii (hc : HostCase host h) : Text.isAscii host = true := by
  rw [Text.isAscii, List.all_eq_true]
  intro c hm
  have hlow : Text.isAsciiChar c.toLower = true := by
    refine (kept_by_lower (hc.valid.hostChars _ ?_)).1
    rw [← hc.lower]
    exact List.mem_map_of_mem hm
  simp only [Text.isAsciiChar, decide_eq_true_eq] at hlow ⊢
  rcases Text.toLower_cases c with heq | ⟨-, hhi, -⟩
  · rwa [heq] at hlow
  · omega

/-- The blanks of a host can only be a line feed at its end. -/
theorem split (hc : HostCase host h) : ∃ body blanks, host = body ++ blanks ∧
    body.map Char.toLower = chomp h ∧ ∀ c ∈ blanks, Text.isSpace c = true := by
  rcases chomp_cases h with ⟨heq, -⟩ | heq
  · exact ⟨host, [], (List.append_nil host).symm, hc.lower.trans heq.symm, by simp⟩
  · have hmap : host.map Char.toLower = chomp h ++ ['\n'] := hc.lower.trans heq
    obtain ⟨body, blanks, hhost, hbody, hblanks⟩ := List.map_eq_append_iff.mp hmap
    refine ⟨body, blanks, hhost, hbody, fun c hm => ?_⟩
    have hlow : c.toLower = '\n' :=
      List.mem_singleton.mp (hblanks ▸ List.mem_map_of_mem hm)
    rcases Text.toLower_cases c with hsame | ⟨hlo, -, hsum⟩
    · rw [← hsame, hlow]
      rfl
    · rw [hlow] at hsum
      have hlf : ('\n' : Char).toNat = 10 := rfl
      omega

/-- Neither end of the rest of it is a blank. -/
theorem body_ends (hc : HostCase host h) {body : Text} (hbody : body.map Char.toLower = chomp h) :
    body ≠ [] ∧ (∀ c ∈ body.head?, ¬ Text.isSpace c = true) ∧
      ∀ c ∈ body.getLast?, ¬ Text.isSpace c = true := by
  obtain ⟨⟨a, ha, haend⟩, b, hb, hbend⟩ := hc.valid.ends
  rw [← hbody] at ha hb
  refine ⟨?_, fun c hm => not_isSpace_of_toLower ?_, fun c hm => not_isSpace_of_toLower ?_⟩
  · rintro rfl
    cases ha
  · rw [List.head?_map, Option.mem_map] at ha
    obtain ⟨c', hm', hlow⟩ := ha
    rw [Option.mem_unique hm hm', hlow]
    exact haend
  · rw [List.getLast?_map, Option.mem_map] at hb
    obtain ⟨c', hm', hlow⟩ := hb
    rw [Option.mem_unique hm hm', hlow]
    exact hbend

theorem head_core (hc : HostCase host h) (hlead : lead ∈ leads) (rest : Text) :
    ∀ c ∈ (lead ++ (host ++ rest)).head?, ¬ Text.isSpace c = true := by
  obtain ⟨body, blanks, rfl, hbody, -⟩ := hc.split
  obtain ⟨hne, hhead, -⟩ := hc.body_ends hbody
  intro c hm
  cases lead with
  | nil =>
    obtain ⟨a, body, rfl⟩ := List.exists_cons_of_ne_nil hne
    exact hhead c hm
  | cons a lead => exact (leads_lower _ hlead).2.2 c hm

theorem isAscii_append {t rest : Text} (ht : Text.isAscii t = true)
    (hrest : Text.isAscii rest = true) : Text.isAscii (t ++ rest) = true := by
  rw [Text.isAscii, List.all_append]
  exact Bool.and_eq_true_iff.mpr ⟨ht, hrest⟩

theorem lower_core {core : Text} (hascii : Text.isAscii core = true) :
    rt.lower core = core.map Char.toLower := by
  rw [Text.isAscii, List.all_eq_true] at hascii
  exact rt.lower_of_ascii fun c hm => .inl (hascii c hm)

/-- A host alone, behind what may stand in front of it. -/
theorem lower_alone (hc : HostCase host h) (hlead : lead ∈ leads)
    (hb : ∀ c ∈ before, Text.isSpace c = true) (ha : ∀ c ∈ after, Text.isSpace c = true) :
    rt.lower (Text.strip (before ++ (lead ++ host) ++ after)) = lead ++ chomp h := by
  have hhead := hc.head_core hlead []
  obtain ⟨body, blanks, rfl, hbody, hblanks⟩ := hc.split
  obtain ⟨hne, -, hlast⟩ := hc.body_ends hbody
  obtain ⟨hascii, hlow, -⟩ := leads_lower lead hlead
  have hcore : ∀ c ∈ (lead ++ body).head?, ¬ Text.isSpace c = true := by
    intro c hm
    refine hhead c ?_
    rw [List.append_nil, ← List.append_assoc]
    exact List.mem_head?_append_of_mem_head? hm
  have hend : ∀ c ∈ (lead ++ body).getLast?, ¬ Text.isSpace c = true := by
    rw [List.getLast?_append_of_ne_nil _ hne]
    exact hlast
  have hbascii : Text.isAscii body = true := by
    have hall := hc.isAscii
    rw [Text.isAscii, List.all_append, Bool.and_eq_true_iff] at hall
    exact hall.1
  rw [← List.append_assoc lead, strip_core hb ha (by simp [hne]) hcore hend,
    List.rdropWhile_eq_nil_iff.mpr hblanks, List.append_nil,
    lower_core (isAscii_append hascii hbascii), List.map_append, hlow, hbody]

/-- A host with a port. -/
theorem lower_port (hc : HostCase host h) (hlead : lead ∈ leads) (port : Port)
    (hb : ∀ c ∈ before, Text.isSpace c = true) (ha : ∀ c ∈ after, Text.isSpace c = true) :
    rt.lower (Text.strip (before ++ (lead ++ (host ++ port.text)) ++ after)) =
      lead ++ (h ++ port.text) := by
  obtain ⟨hascii, hlow, -⟩ := leads_lower lead hlead
  have hend : ∀ c ∈ (lead ++ (host ++ port.text)).getLast?, ¬ Text.isSpace c = true := by
    intro c hm
    rw [List.getLast?_append_of_ne_nil _ (by simp [Port.text]),
      List.getLast?_append_of_ne_nil _ (by simp [Port.text]), Port.text,
      List.getLast?_cons_of_ne_nil port.ne_nil] at hm
    have hdigit := port.digit c (List.mem_of_getLast? hm)
    refine not_isSpace_of_toLower ?_
    rw [(kept_by_lower (.inl (isDigit_isLabelChar hdigit))).2]
    exact isLabelEnd_iff.mpr (.inr hdigit)
  have hstrip : Text.strip (before ++ (lead ++ (host ++ port.text) ++ []) ++ after) =
      lead ++ (host ++ port.text) ++ [] :=
    strip_core hb ha (by simp [Port.text]) (hc.head_core hlead port.text) hend []
  rw [List.append_nil] at hstrip
  rw [hstrip, lower_core (isAscii_append hascii (isAscii_append hc.isAscii port.lowered.1)),
    List.map_append, List.map_append, hlow, hc.lower, port.lowered.2]

/-- A host with further characters. -/
theorem lower_more (laws : FormLaws rt) (hc : HostCase host h) (hlead : lead ∈ leads) (mark : Mark)
    (rest : Text) (hb : ∀ c ∈ before, Text.isSpace c = true)
    (ha : ∀ c ∈ after, Text.isSpace c = true) : ∃ rest', rt.lower (Text.strip
      (before ++ (lead ++ (host ++ (mark.port ++ mark.sign :: rest))) ++ after)) =
        lead ++ (h ++ (mark.port ++ mark.sign :: rest')) ∧
      (("://" : Text) <:+: rest' ↔ ("://" : Text) <:+: rest) := by
  obtain ⟨hascii, hlow, -⟩ := leads_lower lead hlead
  have hend : ∀ c ∈ (lead ++ (host ++ (mark.port ++ [mark.sign]))).getLast?,
      ¬ Text.isSpace c = true := by
    intro c hm
    simp only [← List.append_assoc, List.getLast?_concat, Option.mem_some_iff] at hm
    rw [← hm]
    exact mark.lowered_sign.2.2
  have hcore : lead ++ (host ++ (mark.port ++ mark.sign :: rest)) =
      lead ++ (host ++ (mark.port ++ [mark.sign])) ++ rest := by
    simp
  have hbeyond : Text.isAscii (lead ++ (host ++ (mark.port ++ [mark.sign]))) = true :=
    isAscii_append hascii (isAscii_append hc.isAscii
      (isAscii_append mark.lowered_port.1 mark.lowered_sign.1))
  obtain ⟨rest', hlower, hurl⟩ := laws.lower _ (rest.rdropWhile Text.isSpace) hbeyond
  refine ⟨rest', ?_, hurl.trans (scheme_infix_rdropWhile rest)⟩
  rw [hcore, strip_core hb ha (by simp) (hc.head_core hlead _) hend, hlower]
  simp only [List.map_append, hlow, hc.lower, mark.lowered_port.2, List.map_cons, List.map_nil,
    mark.lowered_sign.2.1, List.append_assoc, List.cons_append, List.nil_append]

end HostCase

/-! ## What the forms are normalized to -/

/-- Where a validated host is cut out, it is the normalized form. -/
theorem normalizeText_of_hostOf (hv : validateDomain rt h = .ok ())
    (hhost : hostOf rt raw = some h) : normalizeText rt raw = .ok h := by
  have hvalid : Validated h := validated_of_validateDomain hv
  have hne : h ≠ [] := by
    rintro rfl
    exact absurd hvalid.two (by decide)
  rw [hostOf] at hhost
  split at hhost
  · cases hhost
  · next host hext =>
    have hcut : cutHost host = h := Option.some.inj hhost
    have hraw : raw ≠ [] := by
      rintro rfl
      have hnil : extractHost rt (dropWildcard (rt.lower (Text.strip []))) = .ok [] := rfl
      rw [hnil] at hext
      cases hext
      exact hne hcut.symm
    rw [normalizeText, if_neg hraw, hext]
    simp only [hcut, if_neg hne, hvalid.idna_eq, hv]

/-- A host that is not ASCII, or another than the one asked for, is not normalized to it. -/
theorem hostOf_eq_of_normalizeText {host : Text} (hhost : hostOf rt raw = some host)
    (hascii : Text.isAscii host = true) (hn : normalizeText rt raw = .ok h) : host = h := by
  obtain ⟨cut, hcut, hsame, -⟩ : ∃ cut, hostOf rt raw = some cut ∧
      (Text.isAscii cut = true → h = cut) ∧
      (¬ Text.isAscii cut = true → rt.idnaUnicode cut = some h) := normalizeText_hostOf hn
  obtain rfl := Option.some.inj (hhost.symm.trans hcut)
  exact (hsame hascii).symm

/-- A letter or a digit stands in front of a host, whatever it loses at its end. -/
theorem Validated.head (hvalid : Validated h) {k : Text} (hk : k = h ∨ k = chomp h) :
    ∃ c ∈ k.head?, isLabelEnd c = true := by
  obtain ⟨⟨c, hc, hend⟩, -⟩ := hvalid.ends
  refine ⟨c, ?_, hend⟩
  rcases hk with rfl | rfl
  · obtain ⟨rest, hrest⟩ := chomp_isPrefix k
    rw [← hrest]
    exact List.mem_head?_append_of_mem_head? hc
  · exact hc

theorem Validated.hostChars_of (hvalid : Validated h) {k : Text} (hk : k = h ∨ k = chomp h) :
    HostChars k := by
  rcases hk with rfl | rfl
  · exact hvalid.hostChars
  · exact hvalid.hostChars.chomped

theorem dropWildcard_of_head {t : Text} {c : Char} (hc : c ∈ t.head?) (hne : c ≠ '*') :
    dropWildcard t = t := by
  obtain ⟨rest, rfl⟩ := List.head?_eq_some_iff.mp hc
  exact if_neg fun hpre => hne (List.cons_prefix_cons.mp hpre).1.symm

/-- A host in front is no wildcard. -/
theorem dropWildcard_of_isLabelEnd {t : Text} {c : Char} (hc : c ∈ t.head?)
    (hend : isLabelEnd c = true) (rest : Text) : dropWildcard (t ++ rest) = t ++ rest := by
  refine dropWildcard_of_head (List.mem_head?_append_of_mem_head? hc) ?_
  rintro rfl
  exact absurd hend (by decide)

section Outcomes

variable (hv : validateDomain rt h = .ok ()) {host : Text}
  (ht : extractHost rt (dropWildcard (rt.lower (Text.strip raw))) = .ok host)

include hv ht

/-- A host that is kept whole loses a line feed at its end. -/
theorem normalizes_whole (hcut : cutHost host = chomp h) :
    normalizeText rt raw = .ok h ↔ h.getLast? ≠ some '\n' := by
  have hvalid : Validated h := validated_of_validateDomain hv
  have hhost : hostOf rt raw = some (chomp h) := by rw [hostOf, ht, ← hcut]
  constructor
  · intro hn
    have hsame : chomp h = h := hostOf_eq_of_normalizeText hhost hvalid.tame.isAscii hn
    rcases chomp_cases h with ⟨-, hlast⟩ | heq
    · exact hlast
    · rw [hsame] at heq
      simp at heq
  · intro hlast
    rw [chomp_of_not hlast] at hhost
    exact normalizeText_of_hostOf hv hhost

/-- A host in a URL loses every line feed. -/
theorem normalizes_unbroken {k : Text} (hk : k = h ∨ k = chomp h)
    (hcut : cutHost host = Text.stripBy isDomainBlank (unbroken k)) :
    normalizeText rt raw = .ok h ↔ '\n' ∉ h := by
  have hvalid : Validated h := validated_of_validateDomain hv
  have hhost : hostOf rt raw = some (Text.stripBy isDomainBlank (unbroken k)) := by
    rw [hostOf, ht, ← hcut]
  constructor
  · intro hn hlf
    have hchars : HostChars k := hvalid.hostChars_of hk
    have hascii : Text.isAscii (Text.stripBy isDomainBlank (unbroken k)) = true := by
      rw [Text.isAscii, List.all_eq_true]
      exact fun c hc => (hchars.of_unbroken.unbracketed (Text.mem_of_mem_stripBy hc)).1
    have hsame : Text.stripBy isDomainBlank (unbroken k) = h :=
      hostOf_eq_of_normalizeText hhost hascii hn
    rw [← hsame] at hlf
    exact (mem_unbroken (Text.mem_of_mem_stripBy hlf)).2 rfl
  · intro hlf
    have hchomp : chomp h = h := chomp_of_not fun hlast => hlf (List.mem_of_getLast? hlast)
    have hkeep : k = h := hk.elim id fun heq => heq.trans hchomp
    have hunbroken : unbroken h = h := hvalid.hostChars.unbroken_eq hlf
    have hstripped : Text.stripBy isDomainBlank h = h := by
      have hstrip := hvalid.tame.stripped
      rwa [hchomp] at hstrip
    rw [hkeep, hunbroken, hstripped] at hhost
    exact normalizeText_of_hostOf hv hhost

/-- A host with a slash in it is no domain. -/
theorem not_normalizes_slash (laws : FormLaws rt) (hslash : '/' ∈ cutHost host) :
    normalizeText rt raw ≠ .ok h := by
  have hvalid : Validated h := validated_of_validateDomain hv
  intro hn
  obtain ⟨cut, hcut, hsame, hcodec⟩ : ∃ cut, hostOf rt raw = some cut ∧
      (Text.isAscii cut = true → h = cut) ∧
      (¬ Text.isAscii cut = true → rt.idnaUnicode cut = some h) := normalizeText_hostOf hn
  have heq : cut = cutHost host := by
    rw [hostOf, ht] at hcut
    exact (Option.some.inj hcut).symm
  rw [← heq] at hslash
  by_cases hascii : Text.isAscii cut = true
  · rw [← hsame hascii] at hslash
    exact hvalid.hostChars.notMem_slash hslash
  · exact hvalid.hostChars.notMem_slash (laws.idna _ _ (hcodec hascii) hslash)

end Outcomes

theorem Tail.hasScheme_of_hidesHost {tail : Tail} (hhides : (Form.bare tail).HidesHost h) :
    tail.HasScheme := by
  cases tail with
  | none => exact hhides
  | port port => exact hhides
  | more mark rest =>
    cases mark with
    | path => exact hhides
    | portPath port => exact hhides.1
    | query => exact hhides.elim
    | fragment => exact hhides.elim

section Forms

variable (hv : validateDomain rt h = .ok ()) {host : Text} (hcase : host.map Char.toLower = h)
  (hb : ∀ c ∈ before, Text.isSpace c = true) (ha : ∀ c ∈ after, Text.isSpace c = true)

include hv hcase hb ha

/-- Lowering and stripping keep the form, but for a line feed at the end. -/
theorem lower_tail (laws : FormLaws rt) {lead : Text} (hlead : lead ∈ leads) (tail : Tail) :
    ∃ (k : Text) (tail' : Tail),
      rt.lower (Text.strip (before ++ (lead ++ (host ++ tail.text)) ++ after)) =
        lead ++ (k ++ tail'.text) ∧ (k = h ∨ k = chomp h) ∧
          (tail'.HasScheme ↔ tail.HasScheme) := by
  have hc : HostCase host h := ⟨validated_of_validateDomain hv, hcase⟩
  cases tail with
  | none =>
    refine ⟨chomp h, .none, ?_, .inr rfl, Iff.rfl⟩
    rw [Tail.text, List.append_nil, List.append_nil]
    exact hc.lower_alone hlead hb ha
  | port port => exact ⟨h, .port port, hc.lower_port hlead port hb ha, .inl rfl, Iff.rfl⟩
  | more mark rest =>
    obtain ⟨rest', hlower, hurl⟩ := hc.lower_more laws hlead mark rest hb ha
    exact ⟨h, .more mark rest', hlower, .inl rfl, hurl⟩

/-- Behind a scheme the host is found where it has no line feed. -/
theorem normalizes_scheme (laws : FormLaws rt) {scheme : Text}
    (hs : scheme = "http" ∨ scheme = "https") (tail : Tail) :
    normalizeText rt (before ++ (scheme ++ (("://" : Text) ++ (host ++ tail.text))) ++ after) =
      .ok h ↔ '\n' ∉ h := by
  have hvalid : Validated h := validated_of_validateDomain hv
  have hlead : scheme ++ ("://" : Text) ∈ leads := by rcases hs with rfl | rfl <;> decide
  obtain ⟨k, tail', hlower, hk, -⟩ := lower_tail hv hcase hb ha laws hlead tail
  obtain ⟨c, hc, hend⟩ := hvalid.head hk
  obtain ⟨cut, hext, hcut⟩ : ∃ cut, extractHost rt
      (scheme ++ (("://" : Text) ++ (k ++ tail'.text))) = .ok cut ∧
        cutHost cut = Text.stripBy isDomainBlank (unbroken k) :=
    (hvalid.hostChars_of hk).extractHost_scheme hc hend hs tail'
  have ht : extractHost rt (dropWildcard (rt.lower (Text.strip
      (before ++ (scheme ++ (("://" : Text) ++ (host ++ tail.text))) ++ after)))) = .ok cut := by
    have hwild : dropWildcard (scheme ++ (("://" : Text) ++ (k ++ tail'.text))) =
        scheme ++ (("://" : Text) ++ (k ++ tail'.text)) := by
      have hhead : 'h' ∈ (scheme ++ (("://" : Text) ++ (k ++ tail'.text))).head? := by
        rcases hs with rfl | rfl <;> rfl
      exact dropWildcard_of_head hhead (by decide)
    rw [List.append_assoc scheme, List.append_assoc scheme] at hlower
    rw [hlower, hwild, hext]
  exact normalizes_unbroken hv ht hk hcut

/-- Without a `://` the host is found where it has no line feed at its end. -/
theorem normalizes_bare (laws : FormLaws rt) {lead : Text} (hl : lead = [] ∨ lead = "*.")
    {tail : Tail} (htail : ¬ tail.HasScheme) :
    normalizeText rt (before ++ (lead ++ (host ++ tail.text)) ++ after) = .ok h ↔
      h.getLast? ≠ some '\n' := by
  have hvalid : Validated h := validated_of_validateDomain hv
  have hlead : lead ∈ leads := by rcases hl with rfl | rfl <;> decide
  obtain ⟨k, tail', hlower, hk, hurl⟩ := lower_tail hv hcase hb ha laws hlead tail
  obtain ⟨c, hc, hend⟩ := hvalid.head hk
  obtain ⟨cut, hext, hcut⟩ : ∃ cut, extractHost rt (k ++ tail'.text) = .ok cut ∧
      cutHost cut = Text.stripBy isDomainBlank k :=
    (hvalid.hostChars_of hk).extractHost_bare (mt hurl.mp htail)
  have ht : extractHost rt (dropWildcard (rt.lower (Text.strip
      (before ++ (lead ++ (host ++ tail.text)) ++ after)))) = .ok cut := by
    have hwild : dropWildcard (lead ++ (k ++ tail'.text)) = k ++ tail'.text := by
      rcases hl with rfl | rfl
      · exact dropWildcard_of_isLabelEnd hc hend _
      · exact if_pos (List.prefix_append _ _)
    rw [hlower, hwild, hext]
  refine normalizes_whole hv ht (hcut.trans ?_)
  rcases hk with rfl | rfl
  · exact hvalid.stripBy_eq (by decide) fun _ hend => isLabelEnd_not_blank hend
  · exact hvalid.tame.stripped

/-- With a `://` further on the mark behind the host decides. -/
theorem normalizes_more (laws : FormLaws rt) (mark : Mark) {rest : Text}
    (hrest : ("://" : Text) <:+: rest) :
    normalizeText rt (before ++ (host ++ (mark.port ++ mark.sign :: rest)) ++ after) = .ok h ↔
      ¬ (Form.bare (.more mark rest)).HidesHost h ∧ '\n' ∉ h := by
  have hvalid : Validated h := validated_of_validateDomain hv
  have hform : HostCase host h := ⟨hvalid, hcase⟩
  have hchars : HostChars h := hvalid.hostChars
  obtain ⟨rest', hlower, hurl⟩ : ∃ rest',
      rt.lower (Text.strip (before ++ (host ++ (mark.port ++ mark.sign :: rest)) ++ after)) =
        h ++ (mark.port ++ mark.sign :: rest') ∧
      (("://" : Text) <:+: rest' ↔ ("://" : Text) <:+: rest) :=
    hform.lower_more laws (show [] ∈ leads by decide) mark rest hb ha
  have hrest' := hurl.mpr hrest
  obtain ⟨c, hc, hend⟩ := hvalid.head (.inl rfl)
  have ht : ∀ {cut : Text}, extractHost rt (h ++ (mark.port ++ mark.sign :: rest')) = .ok cut →
      extractHost rt (dropWildcard (rt.lower (Text.strip
        (before ++ (host ++ (mark.port ++ mark.sign :: rest)) ++ after)))) = .ok cut := by
    intro cut hext
    rw [hlower, dropWildcard_of_isLabelEnd hc hend, hext]
  have hquery : ∀ {cut : Text}, extractHost rt (h ++ (mark.port ++ mark.sign :: rest')) = .ok cut →
      cutHost cut = Text.stripBy isDomainBlank (unbroken h) →
      (normalizeText rt (before ++ (host ++ (mark.port ++ mark.sign :: rest)) ++ after) = .ok h ↔
        '\n' ∉ h) := fun hext hcut => normalizes_unbroken hv (ht hext) (.inl rfl) hcut
  cases mark with
  | path =>
    obtain ⟨cut, hext, hslash⟩ := hchars.extractHost_path hc hend hrest'
    exact iff_of_false (not_normalizes_slash hv (ht hext) laws hslash) fun h => h.1 hrest
  | portPath port =>
    by_cases hletter : c.isAlpha = true
    · obtain ⟨cut, hext, hslash⟩ := hchars.extractHost_letter hc hend hletter port hrest'
      exact iff_of_false (not_normalizes_slash hv (ht hext) laws hslash)
        fun h => h.1 ⟨hrest, c, hc, hletter⟩
    · obtain ⟨cut, hext, hcut⟩ := hchars.extractHost_digit hc hend hletter port hrest'
      refine (hquery hext hcut).trans (and_iff_right ?_).symm
      rintro ⟨-, b, hb, hb'⟩
      exact hletter (Option.mem_unique hb hc ▸ hb')
  | query =>
    have hext : extractHost rt (h ++ '?' :: rest') = .ok (unbroken h) :=
      hchars.extractHost_query hc hend (by decide) hrest'
    exact (hquery hext hchars.of_unbroken.cutHost_eq).trans (and_iff_right id).symm
  | fragment =>
    have hext : extractHost rt (h ++ '#' :: rest') = .ok (unbroken h) :=
      hchars.extractHost_query hc hend (by decide) hrest'
    exact (hquery hext hchars.of_unbroken.cutHost_eq).trans (and_iff_right id).symm

/-- What is typed in one of the forms is normalized to its host just if the host is found. -/
theorem normalizes_form_iff (laws : FormLaws rt) (form : Form) :
    normalizeDomain rt (.str (before ++ form.text host ++ after)) = .ok h ↔ form.FindsHost h := by
  have hlast : '\n' ∉ h → h.getLast? ≠ some '\n' := fun hlf h => hlf (List.mem_of_getLast? h)
  cases form with
  | wildcard =>
    have hbare := normalizes_bare hv hcase hb ha laws (.inr rfl)
      (show ¬ Tail.none.HasScheme from id)
    rw [Tail.text, List.append_nil] at hbare
    exact hbare.trans ⟨fun h => ⟨id, fun hurl => hurl.elim, h⟩, fun h => h.last⟩
  | http tail =>
    have hscheme := normalizes_scheme hv hcase hb ha laws (.inl rfl) tail
    exact hscheme.trans ⟨fun h => ⟨id, fun _ => h, hlast h⟩, fun h => h.whole trivial⟩
  | https tail =>
    have hscheme := normalizes_scheme hv hcase hb ha laws (.inr rfl) tail
    exact hscheme.trans ⟨fun h => ⟨id, fun _ => h, hlast h⟩, fun h => h.whole trivial⟩
  | bare tail =>
    by_cases htail : tail.HasScheme
    · cases tail with
      | none => exact htail.elim
      | port port => exact htail.elim
      | more mark rest =>
        have hmore := normalizes_more hv hcase hb ha laws mark htail
        exact hmore.trans ⟨fun h => ⟨h.1, fun _ => h.2, hlast h.2⟩,
          fun h => ⟨h.shown, h.whole htail⟩⟩
    · have hbare := normalizes_bare hv hcase hb ha laws (.inl rfl) htail
      exact hbare.trans ⟨fun h => ⟨mt Tail.hasScheme_of_hidesHost htail,
        fun hurl => absurd hurl htail, h⟩, fun h => h.last⟩

end Forms

/-- A host with a table for letters beyond ASCII that maps none of them, and no IDNA codec. -/
def caseRuntime : Runtime := { asciiRuntime with lowerUnicode := fun t => t.map Char.toLower }

theorem scheme_infix_toLower (t : Text) :
    ("://" : Text) <:+: t.map Char.toLower ↔ ("://" : Text) <:+: t := by
  constructor
  · intro hi
    obtain ⟨t', ht', heq⟩ := List.infix_map_iff.mp hi
    have hself : t'.map Char.toLower = t' := by
      refine (List.map_congr_left fun c hc => ?_).trans (List.map_id t')
      have hsign : c.toLower ∈ [':', '/', '/'] := by
        have hm := List.mem_map_of_mem (f := Char.toLower) hc
        rwa [← heq] at hm
      rcases Text.toLower_cases c with hsame | ⟨hlo, -, hsum⟩
      · exact hsame
      · simp only [List.mem_cons, List.not_mem_nil, or_false] at hsign
        have hcode : c.toLower.toNat = 58 ∨ c.toLower.toNat = 47 := by
          rcases hsign with hs | hs | hs <;> rw [hs] <;> decide
        omega
    rwa [heq, hself]
  · intro hi
    exact hi.map Char.toLower

theorem formLaws_caseRuntime : FormLaws caseRuntime := by
  have hlower : ∀ t, caseRuntime.lower t = t.map Char.toLower := fun t => ite_self _
  constructor
  · intro ascii rest _
    refine ⟨rest.map Char.toLower, ?_, ?_⟩
    · rw [hlower, List.map_append]
    · exact scheme_infix_toLower rest
  · intro t ascii h
    cases h

theorem normalizes_form_iff_youtube :
    normalizeDomain caseRuntime (.str " https://WWW.YouTube.com/watch?u=http://x.com ") =
      .ok "www.youtube.com".toList := by
  have hv : validateDomain caseRuntime "www.youtube.com" = .ok () := by decide
  have hspace : ∀ c ∈ [' '], Text.isSpace c = true := by decide
  have hcase : ("WWW.YouTube.com" : Text).map Char.toLower = "www.youtube.com" := by decide
  exact (normalizes_form_iff hv hcase hspace hspace formLaws_caseRuntime
    (.https (.more .path "watch?u=http://x.com"))).mpr ⟨id, fun _ => by decide, by decide⟩

/-- The query has a `://` in it. -/
theorem redirect_not_normalized : FormLaws caseRuntime ∧
    ¬ ∀ (h host before after : Text) (form : Form), validateDomain caseRuntime h = .ok () →
      host.map Char.toLower = h → (∀ c ∈ before, Text.isSpace c = true) →
      (∀ c ∈ after, Text.isSpace c = true) →
      normalizeDomain caseRuntime (.str (before ++ form.text host ++ after)) = .ok h := by
  refine ⟨formLaws_caseRuntime, fun h => ?_⟩
  have hn := h "youtube.com" "youtube.com" [] [] (.bare (.more .path "redirect?u=http://x.com"))
    (by decide) (by decide) (by simp) (by simp)
  revert hn
  decide

end FocusGuard
