import FocusGuard.Core.TimeGuard

/-!
# The grammar of durations

A duration is a number of minutes without a unit, or hours, minutes and seconds with theirs, in this
order, some of which can be missing.

## Main results

* `matchDuration_iff`: the groups that the pattern finds are the parts of the text.
* `parseDurationToSeconds_grammar`: which texts are durations, and of how many seconds.
-/

namespace FocusGuard

variable {rt : Runtime} {c u v : Char} {s t p rest : Text} {g : Option Text} {n : Nat}
  {unit : Char → Bool}

/-! ## The grammar -/

/-- At least one digit, and nothing else. -/
def Digits (t : Text) : Prop := t ≠ [] ∧ ∀ c ∈ t, c.isDigit = true

/-- The value of decimal digits. -/
def decimalValue (t : Text) : Nat := t.foldl (fun n c => n * 10 + (c.toNat - 48)) 0

/-- A part of a duration: digits and their unit, or nothing. -/
inductive Part (unit : Char) : Option Text → Text → Prop where
  | absent : Part unit none []
  | present {digits : Text} (h : Digits digits) : Part unit (some digits) (digits ++ [unit])

/-- The value of a part, zero for one that is not there. -/
def partValue (digits : Option Text) : Nat := (digits.map decimalValue).getD 0

/-- The texts that stand for `n` seconds. -/
inductive Denotes : Text → Nat → Prop where
  | plain {digits : Text} (h : Digits digits) : Denotes digits (60 * decimalValue digits)
  | units {hours minutes seconds : Option Text} {ht mt st : Text} (hhours : Part 'h' hours ht)
      (hminutes : Part 'm' minutes mt) (hseconds : Part 's' seconds st)
      (hpresent : ¬ (hours = none ∧ minutes = none ∧ seconds = none)) :
      Denotes (ht ++ (mt ++ st))
        (3600 * partValue hours + 60 * partValue minutes + partValue seconds)

/-- A part of digits alone is not there. -/
theorem Part.eq_none (h : Part u g p) (hu : u.isDigit = false) (hall : ∀ c ∈ p, c.isDigit = true) :
    g = none := by
  cases h with
  | absent => rfl
  | present hdigits =>
    have hdigit := hall u (List.mem_append_right _ (List.mem_singleton.mpr rfl))
    rw [hu] at hdigit
    cases hdigit

/-- Digits alone, if there are any, are minutes. -/
theorem Denotes.of_digits (h : Denotes t n) (ht : ∀ c ∈ t, c.isDigit = true) :
    Digits t ∧ n = 60 * decimalValue t := by
  cases h with
  | plain h => exact ⟨h, rfl⟩
  | units hhours hminutes hseconds hpresent =>
    refine absurd ⟨?_, ?_, ?_⟩ hpresent
    · exact hhours.eq_none rfl fun c hc => ht c (List.mem_append_left _ hc)
    · exact hminutes.eq_none rfl fun c hc =>
        ht c (List.mem_append_right _ (List.mem_append_left _ hc))
    · exact hseconds.eq_none rfl fun c hc =>
        ht c (List.mem_append_right _ (List.mem_append_right _ hc))

theorem denotes_iff_of_digits (ht : Digits t) : Denotes t n ↔ n = 60 * decimalValue t :=
  ⟨fun h => (h.of_digits ht.2).2, fun h => h ▸ .plain ht⟩

theorem not_denotes_nil : ¬ Denotes [] n :=
  fun h => (h.of_digits fun _ hc => absurd hc List.not_mem_nil).1.1 rfl

/-! ## Digits -/

theorem isSome_decimal (hc : Text.isAsciiChar c = true) :
    (rt.decimal c).isSome = c.isDigit := by
  have hdigit : c.isDigit = true ↔ 48 ≤ c.toNat ∧ c.toNat ≤ 57 := by
    rw [Char.isDigit, Bool.and_eq_true, decide_eq_true_eq, decide_eq_true_eq]
    exact Iff.rfl
  rw [Runtime.decimal, if_pos hc, Calendar.digitVal, Bool.eq_iff_iff, hdigit]
  split
  · next h => exact iff_of_true rfl h
  · next h => exact iff_of_false nofun h

theorem decimal_of_digit (hc : c.isDigit = true) : rt.decimal c = some (c.toNat - 48) := by
  have hdigit : 48 ≤ c.toNat ∧ c.toNat ≤ 57 := by
    rw [Char.isDigit, Bool.and_eq_true, decide_eq_true_eq, decide_eq_true_eq] at hc
    exact hc
  have hascii : Text.isAsciiChar c = true := decide_eq_true (by omega)
  rw [Runtime.decimal, if_pos hascii, Calendar.digitVal, if_pos hdigit]

theorem int_of_digits (h : ∀ c ∈ t, c.isDigit = true) : rt.int t = some (decimalValue t) := by
  have hvalues : t.mapM rt.decimal = some (t.map fun c => c.toNat - 48) := by
    induction t with
    | nil => rfl
    | cons c t ih =>
      rw [List.mapM_cons, decimal_of_digit (h c List.mem_cons_self),
        ih fun d hd => h d (List.mem_cons_of_mem _ hd)]
      rfl
  rw [Runtime.int, hvalues, Option.map_some, decimalValue, List.foldl_map]

/-! ## The pattern -/

/-- A character that the pattern takes for a digit. -/
def isDecimal (rt : Runtime) (c : Char) : Bool := (rt.decimal c).isSome

theorem isDecimal_of_digit (hc : c.isDigit = true) : isDecimal rt c = true := by
  rw [isDecimal, decimal_of_digit hc]
  rfl

theorem durationGroup_eq (rt : Runtime) (unit : Char → Bool) (t : Text) : durationGroup rt unit t =
    match t.dropWhile (isDecimal rt) with
    | c :: rest =>
      if t.takeWhile (isDecimal rt) ≠ [] ∧ unit c then (some (t.takeWhile (isDecimal rt)), rest)
      else (none, t)
    | [] => (none, t) :=
  rfl

/-- ASCII characters in lower case. -/
def InLowerCase (t : Text) : Prop := ∀ c ∈ t, Text.isAsciiChar c = true ∧ c.toLower = c

/-- A group is a part, and what is left is behind it. -/
theorem durationGroup_part (ht : InLowerCase t) (hunit : ∀ c ∈ t, unit c = true → c = u)
    (h : durationGroup rt unit t = (g, rest)) : ∃ p, Part u g p ∧ t = p ++ rest := by
  have hsplit := List.takeWhile_append_dropWhile (p := isDecimal rt) (l := t)
  have hdigits : ∀ c ∈ t.takeWhile (isDecimal rt), c.isDigit = true := by
    intro c hc
    have hdecimal : isDecimal rt c = true := List.mem_takeWhile_imp hc
    rwa [isDecimal, isSome_decimal (ht c ((List.takeWhile_prefix _).subset hc)).1] at hdecimal
  rw [durationGroup_eq] at h
  split at h
  · next c rest' hdrop =>
    have hc : c ∈ t := (List.dropWhile_suffix _).subset (hdrop ▸ List.mem_cons_self)
    rw [hdrop] at hsplit
    split at h
    · next hgroup =>
      obtain ⟨rfl, rfl⟩ := Prod.mk.inj h
      obtain rfl := hunit c hc hgroup.2
      refine ⟨_, .present ⟨hgroup.1, hdigits⟩, ?_⟩
      rw [List.append_assoc, List.singleton_append]
      exact hsplit.symm
    · obtain ⟨rfl, rfl⟩ := Prod.mk.inj h
      exact ⟨[], .absent, rfl⟩
  · obtain ⟨rfl, rfl⟩ := Prod.mk.inj h
    exact ⟨[], .absent, rfl⟩

/-- Behind the digits in front of the text there is no such unit. -/
def NoPart (rt : Runtime) (unit : Char → Bool) (t : Text) : Prop :=
  ∀ c ∈ (t.dropWhile (isDecimal rt)).head?, unit c = false

theorem noPart_nil : NoPart rt unit [] := nofun

/-- A part with another unit is no such part. -/
theorem Part.noPart (hp : Part v g p) (hv : unit v = false) (hdigit : isDecimal rt v = false)
    (h : NoPart rt unit rest) : NoPart rt unit (p ++ rest) := by
  cases hp with
  | absent => exact h
  | present hdigits =>
    unfold NoPart
    rw [List.append_assoc, List.dropWhile_append_of_pos fun c hc => isDecimal_of_digit
      (hdigits.2 c hc), List.singleton_append, List.dropWhile_cons_of_neg
      (Bool.eq_false_iff.mp hdigit)]
    rintro c ⟨⟩
    exact hv

theorem durationGroup_absent (h : NoPart rt unit t) : durationGroup rt unit t = (none, t) := by
  rw [durationGroup_eq]
  split
  · next c rest' hdrop =>
    have hc : unit c = false := h c (by rw [hdrop]; rfl)
    rw [if_neg]
    rw [hc]
    exact fun hgroup => absurd hgroup.2 nofun
  · rfl

theorem durationGroup_present (ht : Digits t) (hu : unit u = true)
    (hdigit : isDecimal rt u = false) :
    durationGroup rt unit (t ++ u :: rest) = (some t, rest) := by
  have hall : ∀ c ∈ t, isDecimal rt c = true := fun c hc => isDecimal_of_digit (ht.2 c hc)
  have hstop : ¬ isDecimal rt u = true := Bool.eq_false_iff.mp hdigit
  have htake : (t ++ u :: rest).takeWhile (isDecimal rt) = t :=
    Text.takeWhile_append_stop hall (by simpa using hstop)
  rw [durationGroup_eq, List.dropWhile_append_of_pos hall, List.dropWhile_cons_of_neg hstop]
  dsimp only
  rw [htake, if_pos ⟨ht.1, hu⟩]

/-- The group takes its part from the front of the text. -/
theorem Part.durationGroup_eq (hp : Part u g p) (hu : unit u = true)
    (hdigit : isDecimal rt u = false) (h : NoPart rt unit rest) :
    durationGroup rt unit (p ++ rest) = (g, rest) := by
  cases hp with
  | absent => exact durationGroup_absent h
  | present hdigits =>
    rw [List.append_assoc, List.singleton_append]
    exact durationGroup_present hdigits hu hdigit

theorem InLowerCase.eq_unit (ht : InLowerCase t) {upper : Char} (hupper : upper.toLower ≠ upper) :
    ∀ c ∈ t, decide (c = u ∨ c = upper) = true → c = u := by
  intro c hc hunit
  rcases of_decide_eq_true hunit with rfl | rfl
  · rfl
  · exact absurd (ht _ hc).2 hupper

theorem InLowerCase.eq_seconds (ht : InLowerCase t) :
    ∀ c ∈ t, decide (c = 's' ∨ c = 'S' ∨ c = Char.ofNat 0x17F) = true → c = 's' := by
  intro c hc hunit
  rcases of_decide_eq_true hunit with rfl | rfl | rfl
  · rfl
  · exact absurd (ht _ hc).2 (by decide)
  · exact absurd (ht _ hc).1 (by decide)

/-- The pattern matches the texts that are parts in order, and its groups are these parts. -/
theorem matchDuration_iff (ht : InLowerCase t) {hours minutes seconds : Option Text} :
    matchDuration rt t = some (hours, minutes, seconds) ↔ ∃ hp mp sp, Part 'h' hours hp ∧
      Part 'm' minutes mp ∧ Part 's' seconds sp ∧ t = hp ++ (mp ++ sp) := by
  unfold matchDuration
  constructor
  · intro h
    rcases hfirst : durationGroup rt (fun c => c = 'h' ∨ c = 'H') t with ⟨g₁, rest₁⟩
    rcases hsecond : durationGroup rt (fun c => c = 'm' ∨ c = 'M') rest₁ with ⟨g₂, rest₂⟩
    rcases hthird : durationGroup rt (fun c => c = 's' ∨ c = 'S' ∨ c = Char.ofNat 0x17F) rest₂ with
      ⟨g₃, rest₃⟩
    simp only [hfirst, hsecond, hthird] at h
    obtain ⟨hp, hhours, rfl⟩ := durationGroup_part ht (ht.eq_unit (by decide)) hfirst
    have ht₁ : InLowerCase rest₁ := fun c hc => ht c (List.mem_append_right _ hc)
    obtain ⟨mp, hminutes, rfl⟩ := durationGroup_part ht₁ (ht₁.eq_unit (by decide)) hsecond
    have ht₂ : InLowerCase rest₂ := fun c hc => ht₁ c (List.mem_append_right _ hc)
    obtain ⟨sp, hseconds, rfl⟩ := durationGroup_part ht₂ ht₂.eq_seconds hthird
    split at h
    · next hrest =>
      simp only [Option.some.injEq, Prod.mk.injEq] at h
      obtain ⟨rfl, rfl, rfl⟩ := h
      exact ⟨hp, mp, sp, hhours, hminutes, hseconds, by rw [hrest, List.append_nil]⟩
    · cases h
  · rintro ⟨hp, mp, sp, hhours, hminutes, hseconds, rfl⟩
    -- no group takes the digits of a later part, whose unit is another one
    have hlast : ∀ {unit}, unit 's' = false → NoPart rt unit sp := fun hs => by
      simpa using hseconds.noPart hs rfl noPart_nil
    have hfirst : durationGroup rt (fun c => c = 'h' ∨ c = 'H') (hp ++ (mp ++ sp)) =
        (hours, mp ++ sp) :=
      hhours.durationGroup_eq (by decide) rfl
        (hminutes.noPart (by decide) rfl (hlast (by decide)))
    have hsecond : durationGroup rt (fun c => c = 'm' ∨ c = 'M') (mp ++ sp) = (minutes, sp) :=
      hminutes.durationGroup_eq (by decide) rfl (hlast (by decide))
    have hthird : durationGroup rt (fun c => c = 's' ∨ c = 'S' ∨ c = Char.ofNat 0x17F) (sp ++ []) =
        (seconds, []) :=
      hseconds.durationGroup_eq (by decide) rfl noPart_nil
    rw [List.append_nil] at hthird
    simp only [hfirst, hsecond, hthird, if_true]

/-! ## Durations -/

theorem groupValue_eq {unit : Char} (h : Part unit g p) : groupValue rt g = partValue g := by
  cases h with
  | absent => rfl
  | present hdigits =>
    rw [groupValue, int_of_digits hdigits.2]
    rfl

theorem lowered_clean (rt : Runtime) (hs : Text.isAscii s = true) :
    rt.lower (Text.strip s) = (Text.strip s).map Char.toLower ∧
      InLowerCase ((Text.strip s).map Char.toLower) := by
  have hstrip : ∀ c ∈ Text.strip s, Text.isAsciiChar c = true := by
    intro c hc
    exact List.all_eq_true.mp hs c (Text.mem_of_mem_stripBy hc)
  refine ⟨rt.lower_of_ascii fun c hc => .inl (hstrip c hc), fun c hc => ?_⟩
  obtain ⟨d, hd, rfl⟩ := List.mem_map.mp hc
  refine ⟨?_, Text.toLower_toLower d⟩
  have hascii := of_decide_eq_true (hstrip d hd)
  have hlower := Text.toNat_toLower d
  refine decide_eq_true ?_
  split at hlower
  · omega
  · omega

theorem isdigit_iff (ht : InLowerCase t) : rt.isdigit t = true ↔ Digits t := by
  rw [Runtime.isdigit, decide_eq_true_eq, Digits, List.all_eq_true]
  refine and_congr_right fun _ => forall₂_congr fun c hc => ?_
  rw [Runtime.isDigit, if_pos (ht c hc).1]

/-- A text that is not a number denotes what its groups say. -/
theorem denotes_iff_of_match (ht : InLowerCase t) (hdigits : ¬ Digits t) (n : Nat) :
    Denotes t n ↔ ∃ hours minutes seconds,
      matchDuration rt t = some (hours, minutes, seconds) ∧
        ¬ (hours = none ∧ minutes = none ∧ seconds = none) ∧
        n = groupValue rt hours * 3600 + groupValue rt minutes * 60 + groupValue rt seconds := by
  constructor
  · intro h
    cases h with
    | plain h => exact absurd h hdigits
    | units hhours hminutes hseconds hpresent =>
      refine ⟨_, _, _, (matchDuration_iff ht).mpr ⟨_, _, _, hhours, hminutes, hseconds, rfl⟩,
        hpresent, ?_⟩
      rw [groupValue_eq hhours, groupValue_eq hminutes, groupValue_eq hseconds]
      omega
  · rintro ⟨hours, minutes, seconds, hmatch, hpresent, rfl⟩
    obtain ⟨hp, mp, sp, hhours, hminutes, hseconds, rfl⟩ := (matchDuration_iff ht).mp hmatch
    rw [groupValue_eq hhours, groupValue_eq hminutes, groupValue_eq hseconds,
      Nat.mul_comm _ 3600, Nat.mul_comm _ 60]
    exact .units hhours hminutes hseconds hpresent

theorem intOrRaise_digits (h : Digits t) : intOrRaise rt t = .ok (decimalValue t) := by
  rw [intOrRaise, int_of_digits h.2]

/-- The parser accepts what is denoted, unless it is zero. -/
theorem parseDuration_eq_ok_iff (ht : InLowerCase (rt.lower (Text.strip s))) :
    parseDurationToSeconds rt s = .ok n ↔ Denotes (rt.lower (Text.strip s)) n ∧ 0 < n := by
  unfold parseDurationToSeconds
  generalize rt.lower (Text.strip s) = clean at ht ⊢
  dsimp only
  split
  · next hempty =>
    subst hempty
    exact iff_of_false nofun fun h => not_denotes_nil h.1
  · split
    · next hdigits =>
      have hdigits := (isdigit_iff ht).mp hdigits
      rw [intOrRaise_digits hdigits, denotes_iff_of_digits hdigits]
      dsimp only
      split
      · next hzero =>
        refine iff_of_false nofun fun h => ?_
        omega
      · next hpos =>
        rw [Except.ok.injEq]
        omega
    · next hdigits =>
      rw [denotes_iff_of_match ht fun h => hdigits ((isdigit_iff ht).mpr h)]
      cases hmatch : matchDuration rt clean with
      | none => exact iff_of_false nofun fun ⟨⟨_, _, _, h, _⟩, _⟩ => by cases h
      | some groups =>
        obtain ⟨hours, minutes, seconds⟩ := groups
        dsimp only
        split
        · next hnone =>
          refine iff_of_false nofun ?_
          rintro ⟨⟨_, _, _, ⟨⟩, hpresent, -⟩, -⟩
          exact hpresent hnone
        · next hpresent =>
          split
          · next hzero =>
            refine iff_of_false nofun ?_
            rintro ⟨⟨_, _, _, ⟨⟩, -, rfl⟩, hpos⟩
            omega
          · next hpos =>
            rw [Except.ok.injEq]
            constructor
            · rintro rfl
              exact ⟨⟨_, _, _, rfl, hpresent, rfl⟩, by omega⟩
            · rintro ⟨⟨_, _, _, ⟨⟩, -, rfl⟩, -⟩
              rfl

theorem intOrRaise_error {e : PyError} (h : intOrRaise rt t = .error e) :
    ∃ message, e = .valueError message := by
  unfold intOrRaise at h
  split at h
  · cases h
  · cases h
    exact ⟨_, rfl⟩

/-- The parser raises nothing but a `ValueError`. -/
theorem parse_error {e : PyError} (h : parseDurationToSeconds rt s = .error e) :
    ∃ message, e = .valueError message := by
  unfold parseDurationToSeconds at h
  dsimp only at h
  split at h
  · cases h
    exact ⟨_, rfl⟩
  · split at h
    · split at h
      · next herror =>
        cases h
        exact intOrRaise_error herror
      · split at h
        · cases h
          exact ⟨_, rfl⟩
        · cases h
    · split at h
      · split at h
        · cases h
          exact ⟨_, rfl⟩
        · split at h
          · cases h
            exact ⟨_, rfl⟩
          · cases h
      · cases h
        exact ⟨_, rfl⟩

/-- Durations are parsed by one grammar: a text, stripped and in lower case, is parsed to the number
of seconds it denotes, if that is not zero, and any other text raises a `ValueError`. -/
theorem parseDurationToSeconds_grammar (rt : Runtime) (hs : Text.isAscii s = true) :
    let clean := (Text.strip s).map Char.toLower
    (∀ n, parseDurationToSeconds rt s = .ok n ↔ Denotes clean n ∧ 0 < n) ∧
      ((¬ ∃ n, Denotes clean n ∧ 0 < n) →
        ∃ message, parseDurationToSeconds rt s = .error (.valueError message)) := by
  obtain ⟨hclean, hlowered⟩ := lowered_clean rt hs
  rw [← hclean] at hlowered
  dsimp only
  rw [← hclean]
  refine ⟨fun n => parseDuration_eq_ok_iff hlowered, fun hnone => ?_⟩
  cases hparse : parseDurationToSeconds rt s with
  | ok n => exact absurd ⟨n, (parseDuration_eq_ok_iff hlowered).mp hparse⟩ hnone
  | error e =>
    obtain ⟨message, rfl⟩ := parse_error hparse
    exact ⟨message, rfl⟩

/-- An hour and a half. -/
theorem parseDurationToSeconds_grammar_hourAndHalf :
    Denotes ((Text.strip " 1H30m").map Char.toLower) 5400 ∧ 0 < 5400 :=
  ((parseDurationToSeconds_grammar asciiRuntime (by decide)).1 5400).mp (by decide)

end FocusGuard
