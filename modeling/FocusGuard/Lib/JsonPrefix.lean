import FocusGuard.Lib.JsonRoundTrip

/-!
# Values that have come to their end

A string, an array and an object say themselves where they end, so they are read in the same way
whatever stands behind them. A number does not: more digits make it another one. A written object
that is cut off is therefore no JSON.

## Main results

* `Json.scanValue_append`: a value is read in the same way when the text goes on.
* `Json.loads_of_cut`, `Json.decode_of_cut`: an object that is cut off is not read.
-/

namespace Json

variable (fl : Floats)

section

variable {t rest more : Text} {n m : Nat}

/-! ## Strings -/

theorem hex4_append (h : hex4 t = some (n, rest)) (more : Text) :
    hex4 (t ++ more) = some (n, rest ++ more) := by
  unfold hex4 at h
  split at h
  · next a b c d t =>
    obtain ⟨i, hi, j, hj, k, hk, l, hl, heq⟩ : ∃ i, hexVal a = some i ∧ ∃ j, hexVal b = some j ∧
        ∃ k, hexVal c = some k ∧ ∃ l, hexVal d = some l ∧
        some (((i * 16 + j) * 16 + k) * 16 + l, t) = some (n, rest) := by
      simpa only [Option.bind_eq_bind, Option.bind_eq_some_iff] using h
    cases heq
    simp only [List.cons_append, hex4, hi, hj, hk, hl, Option.bind_eq_bind, Option.bind_some]
  · cases h

theorem lowSurrogate_append (h : lowSurrogate t = some (n, rest)) (more : Text) :
    lowSurrogate (t ++ more) = some (n, rest ++ more) := by
  unfold lowSurrogate at h
  split at h
  · next t =>
    obtain ⟨hread, hlow⟩ := Option.filter_eq_some_iff.mp h
    simp only [List.cons_append, lowSurrogate, hex4_append hread, Option.filter_some, hlow, if_true]
  · cases h

/-- Where the string goes on to its end, there is room for the escape that was looked for. -/
theorem lowSurrogate_append_of_none (h : lowSurrogate t = none) {p : Text × Text}
    (hread : scanString n t = some p) (more : Text) : lowSurrogate (t ++ more) = none := by
  cases n with
  | zero => cases hread
  | succ n =>
    rcases t with _ | ⟨c, _ | ⟨d, t⟩⟩
    · cases hread
    · by_cases hc : c = '\\'
      · subst hc
        cases hread
      · cases more <;> simp [lowSurrogate, hc]
    · by_cases hesc : c = '\\' ∧ d = 'u'
      · obtain ⟨rfl, rfl⟩ := hesc
        cases hhex : hex4 t with
        | none => simp [scanString, scanChar, unescape, hhex] at hread
        | some q =>
          simp only [lowSurrogate, hhex, Option.filter_some] at h
          simp only [List.cons_append, lowSurrogate, hex4_append hhex, Option.filter_some]
          split at h
          · cases h
          · next hlow => rw [if_neg hlow]
      · unfold lowSurrogate
        split
        · next t' ht' =>
          simp only [List.cons_append, List.cons.injEq] at ht'
          exact absurd ⟨ht'.1, ht'.2.1⟩ hesc
        · rfl

theorem codePoint_append {p : Text × Text} {c : Char} (h : codePoint n t = (c, rest))
    (hread : scanString m rest = some p) (more : Text) :
    codePoint n (t ++ more) = (c, rest ++ more) := by
  unfold codePoint at h ⊢
  split at h
  · next hhigh =>
    rw [if_pos hhigh]
    cases hlow : lowSurrogate t with
    | none =>
      rw [hlow] at h
      obtain ⟨rfl, rfl⟩ := Prod.mk.inj h
      rw [lowSurrogate_append_of_none hlow hread]
    | some q =>
      rw [hlow] at h
      obtain ⟨rfl, rfl⟩ := Prod.mk.inj h
      rw [lowSurrogate_append hlow]
  · next hhigh =>
    rw [if_neg hhigh]
    split at h
    · next hlow =>
      obtain ⟨rfl, rfl⟩ := Prod.mk.inj h
      rw [if_pos hlow]
    · next hlow =>
      obtain ⟨rfl, rfl⟩ := Prod.mk.inj h
      rw [if_neg hlow]

theorem scanChar_append {p : Text × Text} {c a : Char} (h : scanChar c t = some (a, rest))
    (hread : scanString m rest = some p) (more : Text) :
    scanChar c (t ++ more) = some (a, rest ++ more) := by
  unfold scanChar at h ⊢
  split at h
  · next hc =>
    rw [if_pos hc]
    cases t with
    | nil => cases h
    | cons d t =>
      simp only [List.cons_append, unescape] at h ⊢
      split at h
      · next hd =>
        obtain ⟨q, hq, hpoint⟩ := Option.map_eq_some_iff.mp h
        rw [if_pos hd, hex4_append hq, Option.map_some, codePoint_append hpoint hread]
      · next hd =>
        rw [if_neg hd]
        obtain ⟨e, he, heq⟩ := Option.map_eq_some_iff.mp h
        cases heq
        rw [he, Option.map_some]
  · next hc =>
    rw [if_neg hc]
    split at h
    · cases h
    · next hcontrol =>
      cases h
      rw [if_neg hcontrol]

/-- A string ends at its quote. -/
theorem scanString_append {s : Text} (h : scanString n t = some (s, rest)) (hle : n ≤ m)
    (more : Text) : scanString m (t ++ more) = some (s, rest ++ more) := by
  induction n generalizing t s m with
  | zero => cases h
  | succ n ih =>
    obtain ⟨m, rfl⟩ : ∃ k, m = k + 1 := ⟨m - 1, by omega⟩
    cases t with
    | nil => cases h
    | cons c t =>
      simp only [List.cons_append, scanString] at h ⊢
      split at h
      · next hc =>
        cases h
        rw [if_pos hc]
      · next hc =>
        obtain ⟨⟨a, t₁⟩, hchar, hrest⟩ := Option.bind_eq_some_iff.mp h
        obtain ⟨⟨s, t₂⟩, hstring, heq⟩ := Option.bind_eq_some_iff.mp hrest
        cases heq
        rw [if_neg hc, scanChar_append hchar hstring]
        simp only [Option.bind_eq_bind, Option.bind_some,
          ih hstring (Nat.le_of_succ_le_succ hle)]

/-! ## Numbers and words -/

/-- Something stands behind the value, and it does not go on like a number. -/
def Stops (rest : Text) : Prop := rest ≠ [] ∧ Ended rest

theorem scanSign_append (signs : List Char) (h : t ≠ []) (more : Text) :
    scanSign signs (t ++ more) = ((scanSign signs t).1, (scanSign signs t).2 ++ more) := by
  cases t with
  | nil => exact absurd rfl h
  | cons c t =>
    simp only [List.cons_append, scanSign]
    split
    · rfl
    · rfl

theorem takeWhile_append_of_rest {p : Char → Bool} (h : t.dropWhile p ≠ []) (more : Text) :
    (t ++ more).takeWhile p = t.takeWhile p ∧
      (t ++ more).dropWhile p = t.dropWhile p ++ more := by
  have hall : ¬ (t.takeWhile p).length = t.length := by
    intro hlen
    have hsum := congrArg List.length (List.takeWhile_append_dropWhile (p := p) (l := t))
    rw [List.length_append] at hsum
    exact h (List.eq_nil_of_length_eq_zero (by omega))
  constructor
  · rw [List.takeWhile_append, if_neg hall]
  · rw [List.dropWhile_append, if_neg (by simpa using h)]

theorem scanWhole_append {whole : Text} (h : scanWhole t = some (whole, rest)) (hrest : rest ≠ [])
    (more : Text) : scanWhole (t ++ more) = some (whole, rest ++ more) := by
  cases t with
  | nil => cases h
  | cons c t =>
    simp only [List.cons_append, scanWhole] at h ⊢
    split at h
    · next hc =>
      cases h
      rw [if_pos hc]
    · next hc =>
      split at h
      · next hdigit =>
        cases h
        obtain ⟨htake, hdrop⟩ := takeWhile_append_of_rest hrest more
        rw [if_neg hc, if_pos hdigit, htake, hdrop]
      · cases h

theorem scanExponent_append {exponent : Text} (h : scanExponent t = (exponent, rest))
    (hrest : Stops rest) (more : Text) :
    scanExponent (t ++ more) = (exponent, rest ++ more) ∧ t ≠ [] ∧ t.head? ≠ some '.' := by
  cases t with
  | nil =>
    cases h
    exact absurd rfl hrest.1
  | cons c t =>
    refine ⟨?_, List.cons_ne_nil _ _, ?_⟩
    · simp only [List.cons_append, scanExponent] at h ⊢
      split at h
      · next hexp =>
        obtain ⟨hc, hdigits⟩ := hexp
        obtain ⟨rfl, rfl⟩ := Prod.mk.inj h
        have ht : t ≠ [] := by
          rintro rfl
          exact hdigits rfl
        obtain ⟨htake, hdrop⟩ := takeWhile_append_of_rest hrest.1 more
        simp only [scanSign_append _ ht, htake, hdrop, if_pos (And.intro hc hdigits)]
      · obtain ⟨rfl, rfl⟩ := Prod.mk.inj h
        obtain ⟨-, -, he, hE⟩ := hrest.2 c rfl
        rw [if_neg fun hexp => hexp.1.elim he hE]
        rfl
    · simp only [scanExponent] at h
      split at h
      · next hexp =>
        intro hdot
        obtain rfl := Option.some.inj hdot
        exact absurd hexp.1 (by decide)
      · obtain ⟨rfl, rfl⟩ := Prod.mk.inj h
        intro hdot
        exact (hrest.2 c rfl).2.1 (Option.some.inj hdot)

theorem scanFraction_append {fraction : Text} (h : scanFraction t = (fraction, rest))
    (hrest : rest ≠ []) (hdot : rest.head? ≠ some '.') (more : Text) :
    scanFraction (t ++ more) = (fraction, rest ++ more) ∧ t ≠ [] := by
  cases t with
  | nil =>
    cases h
    exact absurd rfl hrest
  | cons c t =>
    refine ⟨?_, List.cons_ne_nil _ _⟩
    simp only [List.cons_append, scanFraction] at h ⊢
    split at h
    · next hfraction =>
      obtain ⟨rfl, rfl⟩ := Prod.mk.inj h
      obtain ⟨htake, hdrop⟩ := takeWhile_append_of_rest hrest more
      rw [htake, hdrop, if_pos hfraction]
    · obtain ⟨rfl, rfl⟩ := Prod.mk.inj h
      rw [if_neg fun hfraction => hdot (congrArg some hfraction.1)]
      rfl

/-- A number ends where something else begins. -/
theorem scanNumber_append {v : Json} (h : scanNumber fl t = some (v, rest)) (hrest : Stops rest)
    (more : Text) : scanNumber fl (t ++ more) = some (v, rest ++ more) := by
  unfold scanNumber at h
  cases hwhole : scanWhole (scanSign ['-'] t).2 with
  | none => simp [hwhole] at h
  | some p =>
    obtain ⟨whole, t₁⟩ := p
    have ht : t ≠ [] := by
      rintro rfl
      cases hwhole
    cases hfraction : scanFraction t₁ with
    | mk fraction t₂ =>
      cases hexponent : scanExponent t₂ with
      | mk exponent t₃ =>
        simp only [hwhole, hfraction, hexponent] at h
        obtain rfl : t₃ = rest := by
          split at h
          · exact (Prod.mk.inj (Option.some.inj h)).2
          · exact (Prod.mk.inj (Option.some.inj h)).2
        obtain ⟨hexponent', ht₂, hdot⟩ := scanExponent_append hexponent hrest more
        obtain ⟨hfraction', ht₁⟩ := scanFraction_append hfraction ht₂ hdot more
        have hwhole' := scanWhole_append hwhole ht₁ more
        simp only [scanNumber, scanSign_append _ ht, hwhole', hfraction', hexponent']
        split at h
        · next hint =>
          cases h
          rw [if_pos hint]
        · next hint =>
          cases h
          rw [if_neg hint]

/-- What begins with a word is that word, and no number. -/
theorem scanWord_word : ∀ w ∈ words fl, ∀ more : Text, scanNumber fl (w.1 ++ more) = none ∧
    scanWord fl (w.1 ++ more) = some (w.2, more) := by
  intro w hw more
  simp only [words, List.mem_cons, List.not_mem_nil, or_false] at hw
  rcases hw with rfl | rfl | rfl | rfl | rfl | rfl
  · exact ⟨rfl, rfl⟩
  · exact ⟨rfl, rfl⟩
  · exact ⟨rfl, rfl⟩
  · exact ⟨rfl, rfl⟩
  · exact ⟨rfl, rfl⟩
  · exact ⟨rfl, rfl⟩

theorem scanWord_append {v : Json} (h : scanWord fl t = some (v, rest)) (more : Text) :
    scanNumber fl (t ++ more) = none ∧ scanWord fl (t ++ more) = some (v, rest ++ more) := by
  obtain ⟨w, hfind, heq⟩ := Option.map_eq_some_iff.mp h
  cases heq
  have hbegins := List.find?_some (p := fun w : Text × Json => w.1.isPrefixOf t) hfind
  obtain ⟨rest, rfl⟩ := List.isPrefixOf_iff_prefix.mp hbegins
  have hword := scanWord_word fl w (List.mem_of_find?_eq_some hfind) (rest ++ more)
  rwa [List.drop_left, List.append_assoc]

/-! ## Marks -/

theorem skipWhite_append (h : skipWhite t ≠ []) (more : Text) :
    skipWhite (t ++ more) = skipWhite t ++ more :=
  (takeWhile_append_of_rest h more).2

theorem scanMark_append {close : Char} {goesOn : Bool} (h : scanMark close t = some (goesOn, rest))
    (hrest : goesOn = true → rest ≠ []) (more : Text) :
    scanMark close (t ++ more) = some (goesOn, rest ++ more) := by
  unfold scanMark at h ⊢
  cases hskip : skipWhite t with
  | nil => simp [hskip] at h
  | cons c t₁ =>
    rw [skipWhite_append (by simp [hskip]), hskip]
    simp only [hskip, List.cons_append] at h ⊢
    split at h
    · next hc =>
      cases h
      rw [if_pos hc, skipWhite_append (hrest rfl)]
    · next hc =>
      split at h
      · next hclose =>
        cases h
        rw [if_neg hc, if_pos hclose]
      · cases h

theorem scanColon_append (h : scanColon t = some rest) (hrest : rest ≠ []) (more : Text) :
    scanColon (t ++ more) = some (rest ++ more) := by
  unfold scanColon at h ⊢
  cases hskip : skipWhite t with
  | nil => simp [hskip] at h
  | cons c t₁ =>
    rw [skipWhite_append (by simp [hskip]), hskip]
    simp only [hskip, List.cons_append] at h ⊢
    split at h
    · next hc =>
      cases h
      rw [if_pos hc, skipWhite_append hrest]
    · cases h

theorem scanKey_append {key : Text} (h : scanKey t = some (key, rest)) (hrest : rest ≠ [])
    (more : Text) : scanKey (t ++ more) = some (key, rest ++ more) := by
  cases t with
  | nil => cases h
  | cons c t =>
    simp only [List.cons_append, scanKey] at h ⊢
    split at h
    · next hc =>
      obtain ⟨⟨k, t₁⟩, hstring, hcolon⟩ := Option.bind_eq_some_iff.mp h
      obtain ⟨t₂, hcolon, heq⟩ := Option.bind_eq_some_iff.mp hcolon
      cases heq
      have hle : t.length ≤ (t ++ more).length := by
        rw [List.length_append]
        omega
      rw [if_pos hc, scanString_append hstring hle]
      simp only [Option.bind_eq_bind, Option.bind_some, scanColon_append hcolon hrest]
    · cases h

/-- What stands before a mark is no part of a number. -/
theorem stops_of_scanMark {close : Char} {p : Bool × Text} (h : scanMark close t = some p)
    (hclose : close = ']' ∨ close = '}') : Stops t := by
  cases t with
  | nil => cases h
  | cons c t =>
    refine ⟨List.cons_ne_nil _ _, .cons ?_⟩
    by_cases hwhite : isWhite c = true
    · simp only [isWhite, decide_eq_true_eq] at hwhite
      rcases hwhite with rfl | rfl | rfl | rfl <;> decide
    · rw [scanMark, skipWhite_cons (by simpa using hwhite)] at h
      dsimp only at h
      split at h
      · next hc =>
        subst hc
        decide
      · split at h
        · next hc =>
          rw [hc]
          rcases hclose with rfl | rfl <;> decide
        · cases h

end

/-! ## Values -/

/-- The text begins with a string, an array or an object. -/
def Delimited (t : Text) : Prop := ∃ c ∈ t.head?, c = '"' ∨ c = '[' ∨ c = '{'

variable {fl}

theorem scanValue_nil (n : Nat) : scanValue fl n [] = none := by
  cases n <;> rfl

theorem ne_nil_of_scanItems {n : Nat} {t : Text} {p : List Json × Text}
    (h : scanItems fl n t = some p) : t ≠ [] := by
  rintro rfl
  cases n with
  | zero => cases h
  | succ n => simp [scanItems, scanValue_nil] at h

theorem ne_nil_of_scanMembers {n : Nat} {t : Text} {p : List (Text × Json) × Text}
    (h : scanMembers fl n t = some p) : t ≠ [] := by
  rintro rfl
  cases n with
  | zero => cases h
  | succ n => cases h

theorem ne_nil_of_scanValue {n : Nat} {t : Text} {p : Json × Text}
    (h : scanValue fl n t = some p) : t ≠ [] := by
  rintro rfl
  rw [scanValue_nil] at h
  cases h

/-- An array or an object behind its bracket: it is closed at once, or `read` finds what is in it.
Where the text goes on, `read'` finds the same. -/
theorem enclosed_append {A : Type} {close : Char} {empty v : Json} {build : A → Json}
    {read read' : Text → Option (A × Text)} {t rest more : Text}
    (hread : ∀ u p, read u = some p → u ≠ [])
    (happend : ∀ u a u', read u = some (a, u') → read' (u ++ more) = some (a, u' ++ more))
    (h : (if (skipWhite t).head? = some close then some (empty, (skipWhite t).tail)
      else (read (skipWhite t)).map fun p => (build p.1, p.2)) = some (v, rest)) :
    (if (skipWhite (t ++ more)).head? = some close then some (empty, (skipWhite (t ++ more)).tail)
      else (read' (skipWhite (t ++ more))).map fun p => (build p.1, p.2)) =
        some (v, rest ++ more) := by
  have hskip : skipWhite t ≠ [] := by
    intro hnil
    rw [hnil, if_neg (by simp)] at h
    obtain ⟨p, hp, -⟩ := Option.map_eq_some_iff.mp h
    exact hread [] p hp rfl
  rw [skipWhite_append hskip, List.head?_append_of_ne_nil _ hskip]
  split at h
  · next hclose =>
    cases h
    rw [if_pos hclose, List.tail_append_of_ne_nil hskip]
  · next hclose =>
    obtain ⟨⟨a, u'⟩, ha, heq⟩ := Option.map_eq_some_iff.mp h
    cases heq
    rw [if_neg hclose, happend _ a u' ha, Option.map_some]

mutual

/-- A value that has come to its end is read in the same way when the text goes on, and when more
steps are allowed. -/
theorem scanValue_append : ∀ {n m : Nat} {t rest : Text} {v : Json},
    scanValue fl n t = some (v, rest) → Delimited t ∨ Stops rest → n ≤ m → ∀ more,
    scanValue fl m (t ++ more) = some (v, rest ++ more)
  | 0, _, _, _, _, h, _, _, _ => nomatch h
  | _ + 1, _, [], _, _, h, _, _, _ => nomatch h
  | n + 1, m, c :: t, rest, v, h, hend, hle, more => by
    obtain ⟨m, rfl⟩ : ∃ k, m = k + 1 := ⟨m - 1, by omega⟩
    have hle := Nat.le_of_succ_le_succ hle
    rw [scanValue] at h
    rw [List.cons_append, scanValue]
    by_cases hquote : c = '"'
    · rw [if_pos hquote] at h ⊢
      obtain ⟨⟨s, t₁⟩, hstring, heq⟩ := Option.map_eq_some_iff.mp h
      cases heq
      have hlength : t.length ≤ (t ++ more).length := by
        rw [List.length_append]
        omega
      rw [scanString_append hstring hlength, Option.map_some]
    rw [if_neg hquote] at h ⊢
    by_cases hbracket : c = '['
    · rw [if_pos hbracket] at h ⊢
      exact enclosed_append (fun _ _ => ne_nil_of_scanItems)
        (fun _ _ _ hitems => scanItems_append hitems hle more) h
    rw [if_neg hbracket] at h ⊢
    by_cases hbrace : c = '{'
    · rw [if_pos hbrace] at h ⊢
      exact enclosed_append (fun _ _ => ne_nil_of_scanMembers)
        (fun _ _ _ hmembers => scanMembers_append hmembers hle more) h
    rw [if_neg hbrace] at h ⊢
    have hstops : Stops rest := by
      refine hend.resolve_left ?_
      rintro ⟨c', hc', hmark⟩
      obtain rfl := Option.some.inj hc'
      rcases hmark with hmark | hmark | hmark
      · exact hquote hmark
      · exact hbracket hmark
      · exact hbrace hmark
    rcases Option.or_eq_some_iff.mp h with hnumber | ⟨-, hword⟩
    · rw [← List.cons_append, scanNumber_append fl hnumber hstops]
      rfl
    · obtain ⟨hnone, hsome⟩ := scanWord_append fl hword more
      rw [← List.cons_append, hnone, hsome]
      rfl

theorem scanItems_append : ∀ {n m : Nat} {t rest : Text} {l : List Json},
    scanItems fl n t = some (l, rest) → n ≤ m → ∀ more,
    scanItems fl m (t ++ more) = some (l, rest ++ more)
  | 0, _, _, _, _, h, _, _ => nomatch h
  | n + 1, m, t, rest, l, h, hle, more => by
    obtain ⟨m, rfl⟩ : ∃ k, m = k + 1 := ⟨m - 1, by omega⟩
    have hle := Nat.le_of_succ_le_succ hle
    rw [scanItems] at h ⊢
    obtain ⟨⟨v, t₁⟩, hvalue, h⟩ := Option.bind_eq_some_iff.mp h
    obtain ⟨⟨goesOn, t₂⟩, hmark, h⟩ := Option.bind_eq_some_iff.mp h
    have hvalue' := scanValue_append hvalue (.inr (stops_of_scanMark hmark (.inl rfl))) hle more
    cases goesOn with
    | true =>
      obtain ⟨⟨l, t₃⟩, hitems, heq⟩ := Option.map_eq_some_iff.mp h
      cases heq
      have hmark' := scanMark_append hmark (fun _ => ne_nil_of_scanItems hitems) more
      have hitems' := scanItems_append hitems hle more
      simp only [Option.bind_eq_bind, hvalue', Option.bind_some, hmark', if_true, hitems',
        Option.map_some]
    | false =>
      cases h
      have hmark' := scanMark_append hmark nofun more
      simp only [Option.bind_eq_bind, hvalue', Option.bind_some, hmark', Bool.false_eq_true,
        if_false]

theorem scanMembers_append : ∀ {n m : Nat} {t rest : Text} {l : List (Text × Json)},
    scanMembers fl n t = some (l, rest) → n ≤ m → ∀ more,
    scanMembers fl m (t ++ more) = some (l, rest ++ more)
  | 0, _, _, _, _, h, _, _ => nomatch h
  | n + 1, m, t, rest, l, h, hle, more => by
    obtain ⟨m, rfl⟩ : ∃ k, m = k + 1 := ⟨m - 1, by omega⟩
    have hle := Nat.le_of_succ_le_succ hle
    rw [scanMembers] at h ⊢
    obtain ⟨⟨key, t₁⟩, hkey, h⟩ := Option.bind_eq_some_iff.mp h
    obtain ⟨⟨v, t₂⟩, hvalue, h⟩ := Option.bind_eq_some_iff.mp h
    obtain ⟨⟨goesOn, t₃⟩, hmark, h⟩ := Option.bind_eq_some_iff.mp h
    have hkey' := scanKey_append hkey (ne_nil_of_scanValue hvalue) more
    have hvalue' := scanValue_append hvalue (.inr (stops_of_scanMark hmark (.inr rfl))) hle more
    cases goesOn with
    | true =>
      obtain ⟨⟨l, t₄⟩, hmembers, heq⟩ := Option.map_eq_some_iff.mp h
      cases heq
      have hmark' := scanMark_append hmark (fun _ => ne_nil_of_scanMembers hmembers) more
      have hmembers' := scanMembers_append hmembers hle more
      simp only [Option.bind_eq_bind, hkey', hvalue', Option.bind_some, hmark', if_true,
        hmembers', Option.map_some]
    | false =>
      cases h
      have hmark' := scanMark_append hmark nofun more
      simp only [Option.bind_eq_bind, hkey', hvalue', Option.bind_some, hmark',
        Bool.false_eq_true, if_false]

end

/-- An object, or the beginning of one, is found at its brace. -/
theorem skipWhite_brace (t : Text) : skipWhite ('{' :: t) = '{' :: t := skipWhite_cons rfl t

theorem dumps_obj (l : List (Text × Json)) : ∃ t, dumps fl (.obj l) = '{' :: t := by
  cases l with
  | nil => exact ⟨_, rfl⟩
  | cons m l => exact ⟨_, rfl⟩

/-- An object that is cut off anywhere is not read. -/
theorem loads_of_cut {l : List (Text × Json)} {t more : Text} (h : (Json.obj l).Plain)
    (hcut : t ++ more = dumps fl (.obj l)) (hmore : more ≠ []) : loads fl t = none := by
  obtain ⟨full, hfull⟩ : ∃ full, dumps fl (.obj l) = '{' :: full := dumps_obj l
  cases t with
  | nil => rfl
  | cons c t =>
    obtain rfl : c = '{' := by
      rw [hfull] at hcut
      exact (List.cons.inj hcut).1
    rw [loads, skipWhite_brace]
    cases hread : scanValue fl (('{' :: t).length + 1) ('{' :: t) with
    | none => rfl
    | some p =>
      obtain ⟨v, rest⟩ := p
      -- the whole object would end where the cut one does
      have hwhole := scanValue_append hread (.inl ⟨'{', rfl, .inr (.inr rfl)⟩)
        (Nat.le_max_left _ (dumps fl (.obj l)).length) more
      have hdumps := scanValue_dumps fl (.obj l)
        (max (('{' :: t).length + 1) (dumps fl (.obj l)).length) [] h (Nat.le_max_right _ _) .nil
      rw [← hcut] at hwhole hdumps
      rw [List.append_nil, hwhole] at hdumps
      have hnil := (Prod.mk.inj (Option.some.inj hdumps)).2
      exact absurd (List.append_eq_nil_iff.mp hnil).2 hmore

/-! ## Bytes -/

theorem utf8EncodeChar_of_printable {c : Char} (h : 32 ≤ c.toNat ∧ c.toNat ≤ 126) :
    ∃ b, String.utf8EncodeChar c = [b] := by
  have hsize : c.utf8Size = 1 := Char.utf8Size_eq_one_iff.mpr (by
    rw [UInt32.le_iff_toNat_le]
    exact Nat.le_trans h.2 (by decide))
  exact ⟨_, String.utf8EncodeChar_eq_singleton hsize⟩

/-- The bytes of a printable text are cut between two characters. -/
theorem encode_eq_append {t : Text} (h : t.Printable) {data more : Bytes}
    (hcut : t.encode = data ++ more) : ∃ u w, t = u ++ w ∧ u.encode = data ∧ w.encode = more := by
  induction t generalizing data with
  | nil =>
    obtain ⟨rfl, rfl⟩ := List.append_eq_nil_iff.mp hcut.symm
    exact ⟨[], [], rfl, rfl, rfl⟩
  | cons c t ih =>
    cases data with
    | nil => exact ⟨[], c :: t, rfl, rfl, hcut⟩
    | cons b data =>
      obtain ⟨hc, ht⟩ := List.forall_mem_cons.mp h
      have hsplit : ∀ u : Text, Text.encode (c :: u) = String.utf8EncodeChar c ++ u.encode :=
        fun _ => List.flatMap_cons
      obtain ⟨a, hsingle⟩ := utf8EncodeChar_of_printable hc
      rw [hsplit, hsingle, List.singleton_append, List.cons_append] at hcut
      obtain ⟨hb, hrest⟩ := List.cons.inj hcut
      obtain ⟨u, w, rfl, hu, hw⟩ := ih ht hrest
      refine ⟨c :: u, w, rfl, ?_, hw⟩
      rw [hsplit, hsingle, List.singleton_append, hb, hu]

/-- Nor are the bytes of an object that is cut off. -/
theorem decode_of_cut {l : List (Text × Json)} {data more : Bytes} (h : (Json.obj l).Plain)
    (hcut : (dumps fl (.obj l)).encode = data ++ more) (hmore : more ≠ []) :
    (Bytes.decode data).bind (loads fl) = none := by
  obtain ⟨u, w, hdumps, rfl, rfl⟩ := encode_eq_append (dumps_printable fl (.obj l)) hcut
  have hw : w ≠ [] := by
    rintro rfl
    exact hmore rfl
  rw [Bytes.decode_encode, Option.bind_some, loads_of_cut h hdumps.symm hw]

end Json
