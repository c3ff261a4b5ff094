import FocusGuard.Core.ValidDomains

/-!
# Cutting the host out

What `normalize_domain` takes for the host of a text that begins with one, with a port, a path, a
query or a fragment behind it. Without a `://` the text is cut in front of the first delimiter; with
one it is read as a URL.

## Main definitions

* `Tail`: what may follow a host.

## Main results

* `HostChars.extractHost_bare`, `HostChars.extractHost_scheme`: the host of a text without a `://`,
  and of one that begins with a scheme.
* `HostChars.extractHost_path`, `HostChars.extractHost_query`, `HostChars.extractHost_letter`,
  `HostChars.extractHost_digit`: what is taken where a `://` stands further on.
-/

namespace FocusGuard

/-! ## What follows a host -/

/-- A port as it is typed: a digit or more. -/
structure Port where
  digits : Text
  ne_nil : digits ≠ []
  digit : ∀ c ∈ digits, c.isDigit = true

def Port.text (port : Port) : Text := ':' :: port.digits

/-- What separates the host from further characters. -/
inductive Mark
  | path
  | portPath (port : Port)
  | query
  | fragment

def Mark.port : Mark → Text
  | .portPath p => p.text
  | _ => []

def Mark.sign : Mark → Char
  | .query => '?'
  | .fragment => '#'
  | _ => '/'

/-- What may follow the host. -/
inductive Tail
  | none
  | port (port : Port)
  | more (mark : Mark) (rest : Text)

def Tail.text : Tail → Text
  | .none => []
  | .port p => p.text
  | .more mark rest => mark.port ++ mark.sign :: rest

/-- A `://` stands among the further characters. -/
def Tail.HasScheme : Tail → Prop
  | .more _ rest => ("://" : Text) <:+: rest
  | _ => False

variable {rt : Runtime} {h : Text}

/-! ## The characters of a host -/

/-- The characters of a validated name. -/
def HostChars (t : Text) : Prop := ∀ c ∈ t, isLabelChar c = true ∨ c = '.' ∨ c = '\n'

theorem Validated.hostChars (hv : Validated h) : HostChars h := fun _ hc => hv.mem hc

theorem HostChars.chomped (hh : HostChars h) : HostChars (chomp h) :=
  fun c hc => hh c ((chomp_isPrefix h).subset hc)

/-- None of the characters that `normalize_domain` cuts at stands in a host. -/
theorem HostChars.ne (hh : HostChars h) {b : Char} (hb : b ∈ h) {c : Char}
    (hc : isLabelChar c = false) (hdot : c ≠ '.') (hlf : c ≠ '\n') : b ≠ c := by
  rintro rfl
  rcases hh b hb with hchar | rfl | rfl
  · rw [hc] at hchar
    cases hchar
  · exact hdot rfl
  · exact hlf rfl

theorem HostChars.notMem (hh : HostChars h) {b : Char} (hb : b ∈ h) {stops : Text}
    (hstops : ∀ c ∈ stops, isLabelChar c = false ∧ c ≠ '.' ∧ c ≠ '\n') : b ∉ stops := by
  intro hm
  obtain ⟨hchar, hdot, hlf⟩ := hstops b hm
  exact hh.ne hb hchar hdot hlf rfl

theorem HostChars.notMem_colon (hh : HostChars h) : ':' ∉ h :=
  fun hm => hh.ne hm (by decide) (by decide) (by decide) rfl

theorem HostChars.notMem_slash (hh : HostChars h) : '/' ∉ h :=
  fun hm => hh.ne hm (by decide) (by decide) (by decide) rfl

theorem isDigit_isLabelChar {c : Char} (hc : c.isDigit = true) : isLabelChar c = true := by
  simp only [isLabelChar, decide_eq_true_eq]
  exact .inl (isLabelEnd_iff.mpr (.inr hc))

theorem Port.hostChars (port : Port) : HostChars port.digits :=
  fun c hc => .inl (isDigit_isLabelChar (port.digit c hc))

/-! ## Cutting -/

/-- The host ends in front of the first colon, question mark, number sign or at sign. -/
theorem cutHost_eq (t : Text) :
    cutHost t = Text.stripBy isDomainBlank (t.takeWhile (· ∉ [':', '?', '#', '@'])) := by
  simp only [cutHost, List.takeWhile_takeWhile]
  congr 2
  funext c
  simp only [decide_eq_decide, List.mem_cons, List.not_mem_nil, or_false, decide_eq_true_eq]
  tauto

theorem HostChars.takeWhile_eq (hh : HostChars h) {stops : Text} {t : Text}
    (hstops : ∀ c ∈ stops, isLabelChar c = false ∧ c ≠ '.' ∧ c ≠ '\n')
    (ht : ∀ c ∈ t.head?, c ∈ stops) : (h ++ t).takeWhile (· ∉ stops) = h :=
  Text.takeWhile_append_stop (fun _ hb => decide_eq_true (hh.notMem hb hstops))
    fun c hc hno => of_decide_eq_true hno (ht c hc)

theorem HostChars.cutHost_append (hh : HostChars h) {t : Text}
    (ht : ∀ c ∈ t.head?, c ∈ [':', '?', '#', '@']) :
    cutHost (h ++ t) = Text.stripBy isDomainBlank h := by
  rw [cutHost_eq, hh.takeWhile_eq (by decide) ht]

/-- The parameters of the last path segment stand behind the last slash. -/
theorem stripParams_append (t rest : Text) :
    ∃ rest', stripParams (t ++ '/' :: rest) = t ++ '/' :: rest' := by
  have hdir : (t ++ '/' :: rest).rdropWhile (· ≠ '/') =
      t ++ '/' :: rest.rdropWhile (· ≠ '/') := by
    have happ : t ++ '/' :: rest = (t ++ ['/']) ++ rest := by simp
    rw [happ, Text.rdropWhile_append (by simp)]
    simp
  refine ⟨rest.rdropWhile (· ≠ '/') ++
    ((t ++ '/' :: rest).rtakeWhile (· ≠ '/')).takeWhile (· ≠ ';'), ?_⟩
  rw [stripParams, hdir, List.append_assoc, List.cons_append]

theorem HostChars.stripParams_eq (hh : HostChars h) : stripParams h = h := by
  have hslash : ∀ c ∈ h, decide (c ≠ '/') = true := fun c hc =>
    decide_eq_true (hh.ne hc (by decide) (by decide) (by decide))
  have hdir : h.rdropWhile (· ≠ '/') = [] := List.rdropWhile_eq_nil_iff.mpr hslash
  have hlast : h.rtakeWhile (· ≠ '/') = h := List.rtakeWhile_eq_self_iff.mpr hslash
  rw [stripParams, hdir, hlast, List.nil_append, List.takeWhile_eq_self_iff]
  exact fun c hc => decide_eq_true (hh.ne hc (by decide) (by decide) (by decide))

/-- A `://` cannot begin before the first colon. -/
theorem scheme_infix_append {t rest : Text} (ht : ':' ∉ t) :
    ("://" : Text) <:+: t ++ rest ↔ ("://" : Text) <:+: rest := by
  induction t with
  | nil => rfl
  | cons c t ih =>
    rw [List.mem_cons, not_or] at ht
    rw [List.cons_append, List.infix_cons_iff, ih ht.2]
    refine ⟨fun hi => hi.resolve_left fun hp => ?_, .inr⟩
    exact ht.1 (List.cons_prefix_cons.mp hp).1

/-- A port does not begin one either. -/
theorem scheme_infix_port (port : Port) {rest : Text} :
    ("://" : Text) <:+: port.text ++ rest ↔ ("://" : Text) <:+: rest := by
  rw [Port.text, List.cons_append, List.infix_cons_iff,
    scheme_infix_append port.hostChars.notMem_colon]
  refine ⟨fun hi => hi.resolve_left fun hp => ?_, .inr⟩
  obtain ⟨d, ds, hds⟩ := List.exists_cons_of_ne_nil port.ne_nil
  rw [hds] at hp
  have hslash : '/' = d := (List.cons_prefix_cons.mp (List.cons_prefix_cons.mp hp).2).1
  have hdigit := port.digit d (by simp [hds])
  rw [← hslash] at hdigit
  exact absurd hdigit (by decide)

theorem Mark.sign_mem (mark : Mark) : mark.sign ∈ ['/', '?', '#'] := by
  cases mark <;> simp [Mark.sign]

theorem Tail.scheme_infix (hh : HostChars h) (tail : Tail) :
    ("://" : Text) <:+: h ++ tail.text ↔ tail.HasScheme := by
  rw [scheme_infix_append hh.notMem_colon]
  have hsign : ∀ mark : Mark, ':' ∉ [mark.sign] := by
    intro mark hm
    have hmem := mark.sign_mem
    rw [← List.mem_singleton.mp hm] at hmem
    exact absurd hmem (by decide)
  cases tail with
  | none => exact iff_of_false (by decide) id
  | port port =>
    have hport := @scheme_infix_port port []
    rw [List.append_nil] at hport
    exact hport.trans (iff_of_false (by decide) id)
  | more mark rest =>
    have hrest : ("://" : Text) <:+: [mark.sign] ++ rest ↔ ("://" : Text) <:+: rest :=
      scheme_infix_append (hsign mark)
    cases mark with
    | portPath port => exact (scheme_infix_port port).trans hrest
    | _ => exact hrest

/-! ## URLs -/

/-- The text without the characters that `urlsplit` removes everywhere. -/
def unbroken (t : Text) : Text := t.filter fun c => c ∉ ['\t', '\r', '\n']

theorem unbroken_append (t rest : Text) : unbroken (t ++ rest) = unbroken t ++ unbroken rest :=
  List.filter_append ..

theorem unbroken_eq_self {t : Text} (ht : ∀ c ∈ t, c ∉ ['\t', '\r', '\n']) : unbroken t = t :=
  List.filter_eq_self.mpr fun c hc => decide_eq_true (ht c hc)

theorem unbroken_cons {c : Char} (hc : c ∉ ['\t', '\r', '\n']) (t : Text) :
    unbroken (c :: t) = c :: unbroken t :=
  List.filter_cons_of_pos (decide_eq_true hc)

theorem mem_unbroken {t : Text} {c : Char} (hc : c ∈ unbroken t) : c ∈ t ∧ c ≠ '\n' := by
  obtain ⟨hm, hkept⟩ := List.mem_filter.mp hc
  refine ⟨hm, ?_⟩
  rintro rfl
  exact absurd hkept (by decide)

theorem HostChars.of_unbroken (hh : HostChars h) : HostChars (unbroken h) :=
  fun c hc => hh c (mem_unbroken hc).1

theorem HostChars.unbroken_eq (hh : HostChars h) (hlf : '\n' ∉ h) : FocusGuard.unbroken h = h := by
  refine unbroken_eq_self fun c hc => ?_
  simp only [List.mem_cons, List.not_mem_nil, or_false, not_or]
  refine ⟨hh.ne hc (by decide) (by decide) (by decide),
    hh.ne hc (by decide) (by decide) (by decide), ?_⟩
  rintro rfl
  exact hlf hc

theorem Port.unbroken_text (port : Port) : unbroken port.text = port.text := by
  refine unbroken_eq_self fun c hc => ?_
  rcases List.mem_cons.mp hc with rfl | hc
  · decide
  · intro hm
    have hdigit := port.digit c hc
    simp only [List.mem_cons, List.not_mem_nil, or_false] at hm
    rcases hm with rfl | rfl | rfl <;> exact absurd hdigit (by decide)

/-- What precedes the first colon is a scheme if it has the characters of one. -/
theorem splitScheme_of_scheme {scheme rest : Text} (hcolon : ':' ∉ scheme)
    (hletter : ∃ c ∈ scheme.head?, Text.isAsciiChar c = true ∧ c.isAlpha = true)
    (hchars : ∀ c ∈ scheme, isSchemeChar c = true) :
    splitScheme rt (scheme ++ ':' :: rest) = (rt.lower scheme, rest) := by
  have hpos : ∀ c ∈ scheme, decide (c ≠ ':') = true := by
    intro c hc
    simp only [ne_eq, decide_eq_true_eq]
    rintro rfl
    exact hcolon hc
  have htake : (scheme ++ ':' :: rest).takeWhile (· ≠ ':') = scheme :=
    Text.takeWhile_append_stop hpos (by simp)
  have hdrop : (scheme ++ ':' :: rest).dropWhile (· ≠ ':') = ':' :: rest := by
    rw [List.dropWhile_append_of_pos hpos, List.dropWhile_cons_of_neg (by simp)]
  simp only [splitScheme, htake, hdrop]
  refine if_pos ⟨?_, List.all_eq_true.mpr hchars⟩
  simpa [Option.any_eq_true] using hletter

/-- There is no scheme where it would not begin with a letter, or would have another character. -/
theorem splitScheme_of_not {url : Text} (h : (∀ c ∈ url.head?, ¬ c.isAlpha = true) ∨
    ∃ c ∈ url.takeWhile (· ≠ ':'), isSchemeChar c = false) :
    splitScheme rt url = ([], url) := by
  unfold splitScheme
  dsimp only
  split
  · next hdrop =>
    refine if_neg ?_
    rintro ⟨hletter, hchars⟩
    rcases h with h | ⟨c, hc, hnot⟩
    · rw [Option.any_eq_true] at hletter
      obtain ⟨c, hc, hascii⟩ := hletter
      have hmem : c ∈ url.head? := by
        rw [← List.takeWhile_append_dropWhile (p := (· ≠ ':')) (l := url), List.head?_append, hc]
        rfl
      simp only [decide_eq_true_eq] at hascii
      exact h c hmem hascii.2
    · rw [List.all_eq_true] at hchars
      rw [hchars c hc] at hnot
      cases hnot
  · rfl

theorem urlparse_lstrip {t : Text} (hhead : ∀ c ∈ t.head?, ¬ c.toNat ≤ 32) :
    t.dropWhile (fun c => c.toNat ≤ 32) = t := by
  cases t with
  | nil => rfl
  | cons c t => exact List.dropWhile_cons_of_neg (by simpa using hhead c rfl)

/-- A URL with a network location that has no brackets and is ASCII. -/
theorem urlparse_netloc {t scheme rest : Text} (hhead : ∀ c ∈ t.head?, ¬ c.toNat ≤ 32)
    (hsplit : splitScheme rt (unbroken t) = (scheme, ("//" : Text) ++ rest))
    (hplain : ∀ c ∈ rest.takeWhile (· ∉ ['/', '?', '#']),
      Text.isAsciiChar c = true ∧ c ≠ '[' ∧ c ≠ ']') :
    ∃ path, urlparse rt t = some (rest.takeWhile (· ∉ ['/', '?', '#']), path) := by
  have hascii : Text.isAscii (rest.takeWhile (· ∉ ['/', '?', '#'])) = true := by
    rw [Text.isAscii, List.all_eq_true]
    exact fun c hc => (hplain c hc).1
  have hopen : '[' ∉ rest.takeWhile (· ∉ ['/', '?', '#']) := fun hm => (hplain _ hm).2.1 rfl
  have hclose : ']' ∉ rest.takeWhile (· ∉ ['/', '?', '#']) := fun hm => (hplain _ hm).2.2 rfl
  have hpre : ("//" : Text) <+: ("//" : Text) ++ rest := List.prefix_append _ _
  have hrest : (("//" : Text) ++ rest).drop 2 = rest := rfl
  unfold urlparse
  rw [urlparse_lstrip hhead]
  rw [unbroken] at hsplit
  dsimp only
  rw [hsplit]
  dsimp only
  rw [if_pos hpre, hrest]
  dsimp only
  rw [if_neg (by simp only [hopen, hclose, false_and, or_false, not_false_eq_true]),
    if_neg (by simp only [hopen, hascii, not_true_eq_false, or_false, false_and,
      not_false_eq_true])]
  exact ⟨_, rfl⟩

/-- A URL without one. -/
theorem urlparse_path {t scheme url : Text} (hhead : ∀ c ∈ t.head?, ¬ c.toNat ≤ 32)
    (hsplit : splitScheme rt (unbroken t) = (scheme, url)) (hslashes : ¬ ("//" : Text) <+: url) :
    urlparse rt t = some ([], if scheme ∈ usesParams
      then stripParams ((url.takeWhile (· ≠ '#')).takeWhile (· ≠ '?'))
      else (url.takeWhile (· ≠ '#')).takeWhile (· ≠ '?')) := by
  unfold urlparse
  rw [urlparse_lstrip hhead]
  dsimp only
  rw [unbroken] at hsplit
  rw [hsplit]
  dsimp only
  rw [if_neg hslashes]
  dsimp only
  rw [if_neg (by simp), if_neg (by simp [Text.isAscii])]

/-! ## The host of a form -/

theorem head?_takeWhile {p : Char → Bool} {t : Text} {c : Char}
    (hc : c ∈ (t.takeWhile p).head?) : c ∈ t.head? ∧ p c = true := by
  cases t with
  | nil => cases hc
  | cons b t =>
    rw [List.takeWhile_cons] at hc
    split at hc
    · next hp =>
      obtain rfl : b = c := by simpa using hc
      exact ⟨rfl, hp⟩
    · cases hc

theorem Tail.head?_text (tail : Tail) : ∀ c ∈ tail.text.head?, c ∈ [':', '/', '?', '#'] := by
  cases tail with
  | none => simp [Tail.text]
  | port port => simp [Tail.text, Port.text]
  | more mark rest =>
    cases mark <;> simp [Tail.text, Mark.port, Mark.sign, Port.text]

/-- Without `://` in it, the text is cut behind the host. -/
theorem HostChars.extractHost_bare (hh : HostChars h) {tail : Tail} (htail : ¬ tail.HasScheme) :
    ∃ host, extractHost rt (h ++ tail.text) = .ok host ∧
      cutHost host = Text.stripBy isDomainBlank h := by
  have htake : (h ++ tail.text).takeWhile (· ≠ '/') = h ++ tail.text.takeWhile (· ≠ '/') :=
    List.takeWhile_append_of_pos fun c hc =>
      decide_eq_true (hh.ne hc (by decide) (by decide) (by decide))
  refine ⟨_, if_neg (mt (tail.scheme_infix hh).mp htail), ?_⟩
  rw [htake]
  refine hh.cutHost_append fun c hc => ?_
  obtain ⟨hhead, hslash⟩ := head?_takeWhile hc
  have hsign := tail.head?_text c hhead
  simp only [List.mem_cons, List.not_mem_nil, or_false, ne_eq, decide_eq_true_eq] at hsign hslash ⊢
  tauto

theorem HostChars.cutHost_eq (hh : HostChars h) : cutHost h = Text.stripBy isDomainBlank h := by
  have hcut : cutHost (h ++ []) = Text.stripBy isDomainBlank h := hh.cutHost_append (by simp)
  rwa [List.append_nil] at hcut

theorem unbroken_head {c : Char} (hc : c ∈ h.head?) (hend : isLabelEnd c = true) :
    c ∈ (unbroken h).head? := by
  obtain ⟨rest, rfl⟩ := List.head?_eq_some_iff.mp hc
  have hkept : c ∉ ['\t', '\r', '\n'] := by
    have hcode := toNat_isLabelEnd hend
    simp only [List.mem_cons, List.not_mem_nil, or_false]
    rintro (rfl | rfl | rfl) <;> revert hcode <;> decide
  have hcons : unbroken (c :: rest) = c :: unbroken rest :=
    List.filter_cons_of_pos (decide_eq_true hkept)
  rw [hcons]
  rfl

/-- The further characters begin behind the port. -/
theorem Tail.split_port (tail : Tail) : ∃ port rest, unbroken tail.text = port ++ rest ∧
    (port = [] ∨ ∃ p : Port, port = p.text) ∧ ∀ c ∈ rest.head?, c ∈ ['/', '?', '#'] := by
  cases tail with
  | none => exact ⟨[], [], rfl, .inl rfl, by simp⟩
  | port p =>
    refine ⟨p.text, [], ?_, .inr ⟨p, rfl⟩, by simp⟩
    rw [Tail.text, p.unbroken_text, List.append_nil]
  | more mark rest =>
    have hsign : unbroken (mark.sign :: rest) = mark.sign :: unbroken rest := by
      refine unbroken_cons ?_ rest
      have hother : ∀ c ∈ ['/', '?', '#'], c ∉ ['\t', '\r', '\n'] := by decide
      exact hother _ mark.sign_mem
    refine ⟨mark.port, mark.sign :: unbroken rest, ?_, ?_, ?_⟩
    · rw [Tail.text, unbroken_append, hsign]
      cases mark with
      | portPath p => rw [Mark.port, p.unbroken_text]
      | _ => rfl
    · cases mark with
      | portPath p => exact .inr ⟨p, rfl⟩
      | _ => exact .inl rfl
    · intro c hc
      obtain rfl : mark.sign = c := by simpa using hc
      exact mark.sign_mem

theorem HostChars.unbracketed (hh : HostChars h) {c : Char} (hc : c ∈ h) :
    Text.isAsciiChar c = true ∧ c ≠ '[' ∧ c ≠ ']' :=
  ⟨(kept_by_lower (hh c hc)).1, hh.ne hc (by decide) (by decide) (by decide),
    hh.ne hc (by decide) (by decide) (by decide)⟩

theorem Port.unbracketed (port : Port) {c : Char} (hc : c ∈ port.text) :
    Text.isAsciiChar c = true ∧ c ≠ '[' ∧ c ≠ ']' := by
  rcases List.mem_cons.mp hc with rfl | hc
  · decide
  · exact port.hostChars.unbracketed hc

theorem Port.notMem (port : Port) {c : Char} (hc : c ∈ port.text) : c ∉ ['/', '?', '#'] := by
  rcases List.mem_cons.mp hc with rfl | hc
  · decide
  · exact port.hostChars.notMem hc (by decide)

/-- A network location is the host with its port. -/
theorem HostChars.netloc_eq (hh : HostChars h) (tail : Tail) : ∃ port,
    (unbroken (h ++ tail.text)).takeWhile (· ∉ ['/', '?', '#']) = unbroken h ++ port ∧
      (port = [] ∨ ∃ p : Port, port = p.text) := by
  obtain ⟨port, rest, htext, hport, hrest⟩ := tail.split_port
  refine ⟨port, ?_, hport⟩
  rw [unbroken_append, htext, ← List.append_assoc]
  refine Text.takeWhile_append_stop (fun c hc => decide_eq_true ?_)
    fun c hc hno => of_decide_eq_true hno (hrest c hc)
  rcases List.mem_append.mp hc with hc | hc
  · exact hh.of_unbroken.notMem hc (by decide)
  · rcases hport with rfl | ⟨p, rfl⟩
    · cases hc
    · exact p.notMem hc

/-- In front of a scheme the network location is cut behind the host. -/
theorem HostChars.extractHost_scheme (hh : HostChars h) {c : Char} (hc : c ∈ h.head?)
    (hend : isLabelEnd c = true) {scheme : Text} (hs : scheme = "http" ∨ scheme = "https")
    (tail : Tail) :
    ∃ host, extractHost rt (scheme ++ (("://" : Text) ++ (h ++ tail.text))) = .ok host ∧
      cutHost host = Text.stripBy isDomainBlank (unbroken h) := by
  obtain ⟨port, hnetloc, hport⟩ : ∃ port,
      (unbroken (h ++ tail.text)).takeWhile (· ∉ ['/', '?', '#']) = unbroken h ++ port ∧
        (port = [] ∨ ∃ p : Port, port = p.text) := hh.netloc_eq tail
  have hne : unbroken h ++ port ≠ [] := by
    intro hnil
    have hhead : c ∈ (unbroken h).head? := unbroken_head hc hend
    rw [(List.append_eq_nil_iff.mp hnil).1] at hhead
    cases hhead
  have hurl : ("://" : Text) <:+: scheme ++ (("://" : Text) ++ (h ++ tail.text)) :=
    List.infix_append_of_infix_right List.infix_append_left
  have hbroken : unbroken (scheme ++ (("://" : Text) ++ (h ++ tail.text))) =
      scheme ++ ':' :: (("//" : Text) ++ unbroken (h ++ tail.text)) := by
    rw [unbroken_append, unbroken_append]
    rcases hs with rfl | rfl <;> rfl
  have hsplit : splitScheme rt (unbroken (scheme ++ (("://" : Text) ++ (h ++ tail.text)))) =
      (rt.lower scheme, ("//" : Text) ++ unbroken (h ++ tail.text)) := by
    rw [hbroken]
    rcases hs with rfl | rfl
    · exact splitScheme_of_scheme (by decide) ⟨'h', rfl, by decide⟩ (by decide)
    · exact splitScheme_of_scheme (by decide) ⟨'h', rfl, by decide⟩ (by decide)
  obtain ⟨path, hparse⟩ : ∃ path, urlparse rt (scheme ++ (("://" : Text) ++ (h ++ tail.text))) =
      some ((unbroken (h ++ tail.text)).takeWhile (· ∉ ['/', '?', '#']), path) := by
    refine urlparse_netloc (fun b hb => ?_) hsplit fun b hb => ?_
    · rcases hs with rfl | rfl <;> (obtain rfl : 'h' = b := by simpa using hb) <;> decide
    · rw [hnetloc] at hb
      rcases List.mem_append.mp hb with hb | hb
      · exact hh.of_unbroken.unbracketed hb
      · rcases hport with rfl | ⟨p, rfl⟩
        · cases hb
        · exact p.unbracketed hb
  refine ⟨unbroken h ++ port, ?_, hh.of_unbroken.cutHost_append fun b hb => ?_⟩
  · rw [extractHost, if_pos hurl, hparse, hnetloc]
    exact congrArg _ (if_pos hne)
  · rcases hport with rfl | ⟨p, rfl⟩
    · cases hb
    · obtain rfl : ':' = b := by simpa [Port.text] using hb
      decide

/-! ## A `://` behind a bare host -/

/-- Only the line feed of a host is no scheme character. -/
theorem HostChars.isSchemeChar_unbroken (hh : HostChars h) {c : Char} (hc : c ∈ unbroken h) :
    isSchemeChar c = true := by
  have hascii := (hh.of_unbroken.unbracketed hc).1
  simp only [isSchemeChar, hascii, true_and, decide_eq_true_eq]
  rcases hh.of_unbroken c hc with hchar | rfl | rfl
  · simp only [isLabelChar, decide_eq_true_eq] at hchar
    rcases hchar with hend | rfl
    · left
      rcases isLabelEnd_iff.mp hend with hlow | hdigit
      · have halpha : c.isAlpha = true := Bool.or_eq_true_iff.mpr (.inr hlow)
        simp [Char.isAlphanum, halpha]
      · simp [Char.isAlphanum, hdigit]
    · exact .inr (by decide)
  · exact .inr (by decide)
  · exact absurd rfl (mem_unbroken hc).2

theorem HostChars.mem_takeWhile (hh : HostChars h) {sign : Char} (hsign : sign ≠ ':')
    {rest : Text} : sign ∈ (h ++ sign :: rest).takeWhile (· ≠ ':') := by
  have hcolon : ∀ b ∈ h, decide (b ≠ ':') = true := fun b hb =>
    decide_eq_true (hh.ne hb (by decide) (by decide) (by decide))
  rw [List.takeWhile_append_of_pos hcolon, List.takeWhile_cons_of_pos (by simpa using hsign)]
  simp

theorem not_slashes {c : Char} {url : Text} (hc : c ∈ url.head?) (hslash : c ≠ '/') :
    ¬ ("//" : Text) <+: url := by
  obtain ⟨rest, rfl⟩ := List.head?_eq_some_iff.mp hc
  intro hpre
  exact hslash (List.cons_prefix_cons.mp hpre).1.symm

theorem isLabelEnd_ne_slash {c : Char} (hend : isLabelEnd c = true) : c ≠ '/' := by
  rintro rfl
  exact absurd hend (by decide)

/-- `urlsplit` strips nothing in front of a host. -/
theorem visible_head {c : Char} (hc : c ∈ h.head?) (hend : isLabelEnd c = true) (rest : Text) :
    ∀ b ∈ (h ++ rest).head?, ¬ b.toNat ≤ 32 := by
  intro b hb
  obtain rfl := Option.mem_unique hb (List.mem_head?_append_of_mem_head? hc)
  have hcode := toNat_isLabelEnd hend
  omega

/-- A text without a scheme has no network location: its path is read. -/
theorem extractHost_path {c : Char} (hc : c ∈ h.head?) (hend : isLabelEnd c = true) {rest : Text}
    (hrest : ("://" : Text) <:+: rest)
    (hsplit : splitScheme rt (unbroken (h ++ rest)) = ([], unbroken (h ++ rest))) :
    extractHost rt (h ++ rest) = .ok (stripParams
      (((unbroken (h ++ rest)).takeWhile (· ≠ '#')).takeWhile (· ≠ '?'))) := by
  have hhead : c ∈ (unbroken (h ++ rest)).head? := by
    rw [unbroken_append]
    exact List.mem_head?_append_of_mem_head? (unbroken_head hc hend)
  have hparse : urlparse rt (h ++ rest) = some ([], if [] ∈ usesParams
      then stripParams (((unbroken (h ++ rest)).takeWhile (· ≠ '#')).takeWhile (· ≠ '?'))
      else ((unbroken (h ++ rest)).takeWhile (· ≠ '#')).takeWhile (· ≠ '?')) := by
    exact urlparse_path (visible_head hc hend rest) hsplit
      (not_slashes hhead (isLabelEnd_ne_slash hend))
  rw [extractHost, if_pos (List.infix_append_of_infix_right hrest), hparse]
  rfl

/-- Query and fragment are cut from the path, and the host is left. -/
theorem HostChars.extractHost_query (hh : HostChars h) {c : Char} (hc : c ∈ h.head?)
    (hend : isLabelEnd c = true) {sign : Char} (hsign : sign ∈ ['?', '#']) {rest : Text}
    (hrest : ("://" : Text) <:+: rest) :
    extractHost rt (h ++ sign :: rest) = .ok (unbroken h) := by
  have hother : isSchemeChar sign = false ∧ sign ≠ ':' ∧ sign ∉ ['\t', '\r', '\n'] := by
    revert sign
    decide
  have hbroken : unbroken (h ++ sign :: rest) = unbroken h ++ sign :: unbroken rest := by
    rw [unbroken_append, unbroken_cons hother.2.2]
  have hsplit : splitScheme rt (unbroken (h ++ sign :: rest)) =
      ([], unbroken (h ++ sign :: rest)) := by
    rw [hbroken]
    exact splitScheme_of_not (.inr ⟨sign, hh.of_unbroken.mem_takeWhile hother.2.1, hother.1⟩)
  have hpath : ((unbroken h ++ sign :: unbroken rest).takeWhile (· ≠ '#')).takeWhile (· ≠ '?') =
      unbroken h := by
    rw [List.takeWhile_takeWhile]
    refine Text.takeWhile_append_stop (fun b hb => ?_) fun b hb => ?_
    · simp only [ne_eq, decide_eq_true_eq]
      exact ⟨hh.of_unbroken.ne hb (by decide) (by decide) (by decide),
        hh.of_unbroken.ne hb (by decide) (by decide) (by decide)⟩
    · obtain rfl : sign = b := by simpa using hb
      simp only [List.mem_cons, List.not_mem_nil, or_false] at hsign
      rcases hsign with rfl | rfl <;> decide
  have hurl : ("://" : Text) <:+: sign :: rest := List.infix_cons_iff.mpr (.inr hrest)
  rw [extractHost_path hc hend hurl hsplit, hbroken, hpath, hh.of_unbroken.stripParams_eq]

/-- Behind a slash the path goes on up to the query or the fragment. -/
theorem path_append {t : Text} (ht : ∀ c ∈ t, c ≠ '#' ∧ c ≠ '?') (rest : Text) :
    ∃ rest', ((t ++ '/' :: rest).takeWhile (· ≠ '#')).takeWhile (· ≠ '?') = t ++ '/' :: rest' := by
  have hpos : ∀ c ∈ t, decide (decide (c ≠ '?') = true ∧ decide (c ≠ '#') = true) = true := by
    intro c hc
    obtain ⟨hnumber, hquestion⟩ := ht c hc
    simp only [ne_eq, decide_eq_true_eq]
    exact ⟨hquestion, hnumber⟩
  rw [List.takeWhile_takeWhile, List.takeWhile_append_of_pos hpos,
    List.takeWhile_cons_of_pos (by decide)]
  exact ⟨_, rfl⟩

theorem strippedPath_append {t : Text} (ht : ∀ c ∈ t, c ≠ '#' ∧ c ≠ '?') (rest : Text) :
    ∃ rest', stripParams (((t ++ '/' :: rest).takeWhile (· ≠ '#')).takeWhile (· ≠ '?')) =
      t ++ '/' :: rest' := by
  obtain ⟨rest', hpath⟩ := path_append ht rest
  rw [hpath]
  exact stripParams_append t rest'

/-- Cutting and stripping leave a slash where nothing is cut in front of it. -/
theorem slash_mem_cutHost {t : Text} (ht : ∀ c ∈ t, c ∉ [':', '?', '#', '@']) (rest : Text) :
    '/' ∈ cutHost (t ++ '/' :: rest) := by
  rw [cutHost_eq]
  refine Text.mem_stripBy_of_not ?_ (by decide)
  rw [List.takeWhile_append_of_pos fun c hc => decide_eq_true (ht c hc),
    List.takeWhile_cons_of_pos (by decide)]
  simp

/-- A path is not cut off, and hides the host. -/
theorem HostChars.extractHost_path (hh : HostChars h) {c : Char} (hc : c ∈ h.head?)
    (hend : isLabelEnd c = true) {rest : Text} (hrest : ("://" : Text) <:+: rest) :
    ∃ host, extractHost rt (h ++ '/' :: rest) = .ok host ∧ '/' ∈ cutHost host := by
  have hbroken : unbroken (h ++ '/' :: rest) = unbroken h ++ '/' :: unbroken rest := by
    rw [unbroken_append, unbroken_cons (by decide)]
  have hsplit : splitScheme rt (unbroken (h ++ '/' :: rest)) =
      ([], unbroken (h ++ '/' :: rest)) := by
    rw [hbroken]
    exact splitScheme_of_not (.inr ⟨'/', hh.of_unbroken.mem_takeWhile (by decide), by decide⟩)
  obtain ⟨rest', hpath⟩ : ∃ rest', stripParams (((unbroken h ++ '/' :: unbroken rest).takeWhile
      (· ≠ '#')).takeWhile (· ≠ '?')) = unbroken h ++ '/' :: rest' :=
    strippedPath_append (fun b hb => ⟨hh.of_unbroken.ne hb (by decide) (by decide) (by decide),
      hh.of_unbroken.ne hb (by decide) (by decide) (by decide)⟩) _
  have hurl : ("://" : Text) <:+: '/' :: rest := List.infix_cons_iff.mpr (.inr hrest)
  refine ⟨unbroken h ++ '/' :: rest', ?_, ?_⟩
  · rw [FocusGuard.extractHost_path hc hend hurl hsplit, hbroken, hpath]
  · exact slash_mem_cutHost (fun b hb => hh.of_unbroken.notMem hb (by decide)) _

/-- In front of a port and a path a host that begins with a letter is taken for a scheme. -/
theorem HostChars.extractHost_letter (hh : HostChars h) {c : Char} (hc : c ∈ h.head?)
    (hend : isLabelEnd c = true) (hletter : c.isAlpha = true) (port : Port) {rest : Text}
    (hrest : ("://" : Text) <:+: rest) :
    ∃ host, extractHost rt (h ++ (port.text ++ '/' :: rest)) = .ok host ∧ '/' ∈ cutHost host := by
  have hbroken : unbroken (h ++ (port.text ++ '/' :: rest)) =
      unbroken h ++ ':' :: (port.digits ++ '/' :: unbroken rest) := by
    rw [unbroken_append, unbroken_append, port.unbroken_text, unbroken_cons (by decide), Port.text,
      List.cons_append]
  have hsplit : splitScheme rt (unbroken (h ++ (port.text ++ '/' :: rest))) =
      (rt.lower (unbroken h), port.digits ++ '/' :: unbroken rest) := by
    rw [hbroken]
    exact splitScheme_of_scheme hh.of_unbroken.notMem_colon
      ⟨c, unbroken_head hc hend, (hh.unbracketed (List.mem_of_mem_head? hc)).1, hletter⟩
      fun b hb => hh.isSchemeChar_unbroken hb
  obtain ⟨d, ds, hds⟩ := List.exists_cons_of_ne_nil port.ne_nil
  have hslashes : ¬ ("//" : Text) <+: port.digits ++ '/' :: unbroken rest := by
    have hd : d ∈ (port.digits ++ '/' :: unbroken rest).head? := by
      rw [hds]
      rfl
    refine not_slashes hd ?_
    rintro rfl
    exact absurd (port.digit '/' (by simp [hds])) (by decide)
  have hkept : ∀ b ∈ port.digits, b ≠ '#' ∧ b ≠ '?' := fun b hb =>
    ⟨port.hostChars.ne hb (by decide) (by decide) (by decide),
      port.hostChars.ne hb (by decide) (by decide) (by decide)⟩
  have hparse := urlparse_path (visible_head hc hend _) hsplit hslashes
  have hurl : ("://" : Text) <:+: h ++ (port.text ++ '/' :: rest) :=
    List.infix_append_of_infix_right
      (List.infix_append_of_infix_right (List.infix_cons_iff.mpr (.inr hrest)))
  obtain ⟨rest', hpath⟩ : ∃ rest', (if rt.lower (unbroken h) ∈ usesParams
      then stripParams (((port.digits ++ '/' :: unbroken rest).takeWhile (· ≠ '#')).takeWhile
        (· ≠ '?'))
      else ((port.digits ++ '/' :: unbroken rest).takeWhile (· ≠ '#')).takeWhile (· ≠ '?')) =
        port.digits ++ '/' :: rest' := by
    split
    · exact strippedPath_append hkept _
    · exact path_append hkept _
  refine ⟨port.digits ++ '/' :: rest', ?_, ?_⟩
  · rw [extractHost, if_pos hurl, hparse, hpath]
    rfl
  · exact slash_mem_cutHost (fun b hb => port.hostChars.notMem hb (by decide)) _

/-- In front of a port and a path a host that begins with a digit is no scheme. -/
theorem HostChars.extractHost_digit (hh : HostChars h) {c : Char} (hc : c ∈ h.head?)
    (hend : isLabelEnd c = true) (hletter : ¬ c.isAlpha = true) (port : Port) {rest : Text}
    (hrest : ("://" : Text) <:+: rest) :
    ∃ host, extractHost rt (h ++ (port.text ++ '/' :: rest)) = .ok host ∧
      cutHost host = Text.stripBy isDomainBlank (unbroken h) := by
  have hbroken : unbroken (h ++ (port.text ++ '/' :: rest)) =
      (unbroken h ++ port.text) ++ '/' :: unbroken rest := by
    rw [unbroken_append, unbroken_append, port.unbroken_text, unbroken_cons (by decide),
      List.append_assoc]
  have hhead : c ∈ (unbroken (h ++ (port.text ++ '/' :: rest))).head? := by
    rw [unbroken_append]
    exact List.mem_head?_append_of_mem_head? (unbroken_head hc hend)
  have hsplit : splitScheme rt (unbroken (h ++ (port.text ++ '/' :: rest))) =
      ([], unbroken (h ++ (port.text ++ '/' :: rest))) := by
    refine splitScheme_of_not (.inl fun b hb => ?_)
    obtain rfl := Option.mem_unique hb hhead
    exact hletter
  obtain ⟨rest', hpath⟩ : ∃ rest', stripParams ((((unbroken h ++ port.text) ++
      '/' :: unbroken rest).takeWhile (· ≠ '#')).takeWhile (· ≠ '?')) =
      (unbroken h ++ port.text) ++ '/' :: rest' := by
    refine strippedPath_append (fun b hb => ?_) _
    rcases List.mem_append.mp hb with hb | hb
    · exact ⟨hh.of_unbroken.ne hb (by decide) (by decide) (by decide),
        hh.of_unbroken.ne hb (by decide) (by decide) (by decide)⟩
    · have hstop := port.notMem hb
      simp only [List.mem_cons, List.not_mem_nil, or_false, not_or] at hstop
      exact ⟨hstop.2.2, hstop.2.1⟩
  have hurl : ("://" : Text) <:+: port.text ++ '/' :: rest :=
    List.infix_append_of_infix_right (List.infix_cons_iff.mpr (.inr hrest))
  refine ⟨(unbroken h ++ port.text) ++ '/' :: rest', ?_, ?_⟩
  · rw [FocusGuard.extractHost_path hc hend hurl hsplit, hbroken, hpath]
  · rw [List.append_assoc]
    exact hh.of_unbroken.cutHost_append (by simp [Port.text])

end FocusGuard
