import FocusGuard.Lib.JsonText

/-!
# Written values are read back

`json.loads` is the inverse of `json.dumps` on the values a program writes without floats and with
distinct keys. What is written is printable ASCII, so it has no line break.

## Main results

* `Json.loads_dumps`: the round trip.
* `Json.mem_encode_dumps`: the bytes of a written value are printable ASCII.
-/

namespace Text.Printable

theorem append {t u : Text} (ht : Printable t) (hu : Printable u) :
    Printable (t ++ u) := by
  intro c hc
  exact (List.mem_append.mp hc).elim (ht c) (hu c)

theorem cons {c : Char} {t : Text} (hc : 32 ≤ c.toNat ∧ c.toNat ≤ 126)
    (ht : Printable t) : Printable (c :: t) :=
  List.forall_mem_cons.mpr ⟨hc, ht⟩

theorem of_digits {t : Text} (h : ∀ c ∈ t, c.isDigit = true) : Printable t := by
  intro c hc
  have hd := h c hc
  rw [Char.isDigit_iff_toNat, show '0'.toNat = 48 from rfl, show '9'.toNat = 57 from rfl] at hd
  omega

end Text.Printable

namespace Json

open Text (Printable)

/-! ## Characters -/

theorem hexVal_digitChar : ∀ d, d < 16 → hexVal (Nat.digitChar d) = some d := by decide

theorem hex4_unicodeEscape {n : Nat} (h : n < 0x10000) (rest : Text) :
    hex4 ((unicodeEscape n).drop 2 ++ rest) = some (n, rest) := by
  have h1 := hexVal_digitChar (n / 4096 % 16) (Nat.mod_lt _ (by decide))
  have h2 := hexVal_digitChar (n / 256 % 16) (Nat.mod_lt _ (by decide))
  have h3 := hexVal_digitChar (n / 16 % 16) (Nat.mod_lt _ (by decide))
  have h4 := hexVal_digitChar (n % 16) (Nat.mod_lt _ (by decide))
  have hn : ((n / 4096 % 16 * 16 + n / 256 % 16) * 16 + n / 16 % 16) * 16 + n % 16 = n := by omega
  simp only [unicodeEscape, List.drop_succ_cons, List.drop_zero, List.cons_append,
    List.nil_append, hex4, h1, h2, h3, h4, Option.bind_eq_bind, Option.bind_some, hn]

/-- An escape of a code unit is read as the character of that code unit. -/
theorem scanChar_unicodeEscape {n : Nat} (h : n < 0x10000) (rest : Text) :
    scanChar '\\' ((unicodeEscape n).tail ++ rest) = some (codePoint n rest) := by
  have hread := hex4_unicodeEscape h rest
  simp only [unicodeEscape, List.tail_cons, List.drop_succ_cons, List.drop_zero, List.cons_append,
    List.nil_append] at hread ⊢
  simp only [scanChar, unescape, if_true, hread, Option.map_some]

theorem lowSurrogate_unicodeEscape {n : Nat} (hlo : 0xDC00 ≤ n) (hhi : n ≤ 0xDFFF) (rest : Text) :
    lowSurrogate (unicodeEscape n ++ rest) = some (n, rest) := by
  have hread := hex4_unicodeEscape (show n < 0x10000 by omega) rest
  simp only [unicodeEscape, List.drop_succ_cons, List.drop_zero, List.cons_append,
    List.nil_append] at hread ⊢
  simp [lowSurrogate, hread, hlo, hhi]

theorem toNat_valid (c : Char) : c.toNat < 0xD800 ∨ (0xDFFF < c.toNat ∧ c.toNat < 0x110000) :=
  c.valid

theorem find_escapes : ∀ e ∈ escapes,
    e.2 ≠ 'u' ∧ (('/', '/') :: escapes).find? (fun e' => e'.2 = e.2) = some e := by decide

/-- A character is read back from what is written for it, and that does not begin like the end of
the string. -/
theorem scanChar_escapeChar (c : Char) : ∃ head tail, escapeChar c = head :: tail ∧ head ≠ '"' ∧
    ∀ rest, scanChar head (tail ++ rest) = some (c, rest) := by
  unfold escapeChar
  split
  · next e he =>
    obtain ⟨hu, hfind⟩ := find_escapes e (List.mem_of_find?_eq_some he)
    have hc : e.1 = c := by simpa using List.find?_some he
    refine ⟨'\\', [e.2], rfl, by decide, fun rest => ?_⟩
    simp only [scanChar, if_true, List.cons_append, List.nil_append, unescape, if_neg hu, hfind,
      Option.map_some, hc]
  · next hnone =>
    have hnot := List.find?_eq_none.mp hnone
    split
    · next hprint =>
      have hquote : c ≠ '"' := by
        rintro rfl
        exact hnot ('"', '"') (by decide) (by simp)
      have hback : c ≠ '\\' := by
        rintro rfl
        exact hnot ('\\', '\\') (by decide) (by simp)
      refine ⟨c, [], rfl, hquote, fun rest => ?_⟩
      rw [scanChar, if_neg hback, if_neg (by omega), List.nil_append]
    · have hvalid := toNat_valid c
      split
      · next hbmp =>
        refine ⟨'\\', (unicodeEscape c.toNat).tail, rfl, by decide, fun rest => ?_⟩
        rw [scanChar_unicodeEscape hbmp, codePoint, if_neg (by omega), if_neg (by omega),
          Char.ofNat_toNat]
      · next hbmp =>
        generalize hk : c.toNat - 0x10000 = k
        have hkc : 0x10000 + k = c.toNat := by omega
        refine ⟨'\\', (unicodeEscape (0xD800 + k / 0x400)).tail ++
          unicodeEscape (0xDC00 + k % 0x400), rfl, by decide, fun rest => ?_⟩
        have hlow := lowSurrogate_unicodeEscape (n := 0xDC00 + k % 0x400) (by omega) (by omega) rest
        rw [List.append_assoc, scanChar_unicodeEscape (by omega), codePoint, if_pos (by omega),
          hlow]
        have hval : 0x10000 + (0xD800 + k / 0x400 - 0xD800) * 0x400 +
            (0xDC00 + k % 0x400 - 0xDC00) = c.toNat := by omega
        dsimp only
        rw [hval, Char.ofNat_toNat]

/-! ## Strings -/

theorem length_le_flatMap_escapeChar (t : Text) : t.length ≤ (t.flatMap escapeChar).length := by
  induction t with
  | nil => exact Nat.le_refl _
  | cons c t ih =>
    obtain ⟨head, tail, hc, -⟩ := scanChar_escapeChar c
    simp only [List.flatMap_cons, List.length_append, hc, List.length_cons]
    omega

theorem scanString_escaped {t : Text} {n : Nat} (h : t.length < n) (rest : Text) :
    scanString n (t.flatMap escapeChar ++ '"' :: rest) = some (t, rest) := by
  induction t generalizing n with
  | nil =>
    cases n with
    | zero => cases h
    | succ n => rfl
  | cons c t ih =>
    cases n with
    | zero => cases h
    | succ n =>
      obtain ⟨head, tail, hc, hquote, hread⟩ := scanChar_escapeChar c
      have ih := ih (Nat.lt_of_succ_lt_succ h)
      simp only [List.flatMap_cons, hc, List.cons_append, List.append_assoc, scanString,
        if_neg hquote, hread, Option.bind_eq_bind, Option.bind_some, ih]

/-- The string behind its opening quote. -/
theorem scanString_dumpsStr (t rest : Text) :
    scanString ((dumpsStr t).tail ++ rest).length ((dumpsStr t).tail ++ rest) = some (t, rest) := by
  have hlen := length_le_flatMap_escapeChar t
  simp only [dumpsStr, List.tail_cons, List.append_assoc, List.cons_append, List.nil_append]
  apply scanString_escaped
  simp only [List.length_append, List.length_cons]
  omega

/-! ## Numbers -/

/-- What stands behind a value does not go on like a number. -/
def Ended (rest : Text) : Prop :=
  ∀ c ∈ rest.head?, c.isDigit = false ∧ c ≠ '.' ∧ c ≠ 'e' ∧ c ≠ 'E'

theorem Ended.nil : Ended [] := nofun

theorem Ended.cons {c : Char} {rest : Text}
    (h : c.isDigit = false ∧ c ≠ '.' ∧ c ≠ 'e' ∧ c ≠ 'E') : Ended (c :: rest) := by
  intro a ha
  cases ha
  exact h

theorem takeWhile_digits {ds rest : Text} (hds : ∀ c ∈ ds, c.isDigit = true) (hrest : Ended rest) :
    (ds ++ rest).takeWhile Char.isDigit = ds ∧ (ds ++ rest).dropWhile Char.isDigit = rest := by
  rw [List.takeWhile_append_of_pos hds, List.dropWhile_append_of_pos hds]
  cases rest with
  | nil => simp
  | cons c rest => simp [(hrest c rfl).1]

theorem scanFraction_ended {rest : Text} (h : Ended rest) : scanFraction rest = ([], rest) := by
  cases rest with
  | nil => rfl
  | cons c rest => rw [scanFraction, if_neg fun hdot => (h c rfl).2.1 hdot.1]

theorem scanExponent_ended {rest : Text} (h : Ended rest) : scanExponent rest = ([], rest) := by
  cases rest with
  | nil => rfl
  | cons c rest =>
    obtain ⟨-, -, he, hE⟩ := h c rfl
    simp only [scanExponent, he, hE, or_self, false_and, if_false]

theorem isDigit_toDigits {n : Nat} : ∀ c ∈ Nat.toDigits 10 n, c.isDigit = true :=
  fun _ hc => Nat.isDigit_of_mem_toDigits (by decide) (by decide) hc

/-- Only zero is written with a leading zero. -/
theorem toDigits_cases (n : Nat) : n = 0 ∨
    ∃ c ds, Nat.toDigits 10 n = c :: ds ∧ c ≠ '0' := by
  induction n using Nat.strongRecOn with
  | _ n ih =>
    by_cases hlt : n < 10
    · rw [Nat.toDigits_of_lt_base hlt]
      have hall : ∀ n < 10, n = 0 ∨ Nat.digitChar n ≠ '0' := by decide
      exact (hall n hlt).imp_right fun hne => ⟨_, [], rfl, hne⟩
    · rcases ih (n / 10) (by omega) with hz | ⟨c, ds, hc, hne⟩
      · omega
      · refine .inr ⟨c, ds ++ [Nat.digitChar (n % 10)], ?_, hne⟩
        rw [Nat.toDigits_of_base_le (by decide) (by omega), hc]
        rfl

theorem scanWhole_toDigits (n : Nat) {rest : Text} (h : Ended rest) :
    scanWhole (Nat.toDigits 10 n ++ rest) = some (Nat.toDigits 10 n, rest) := by
  rcases toDigits_cases n with rfl | ⟨c, ds, hc, hne⟩
  · rfl
  · have hdigits : ∀ a ∈ c :: ds, a.isDigit = true := hc ▸ isDigit_toDigits
    obtain ⟨hhead, htail⟩ := List.forall_mem_cons.mp hdigits
    obtain ⟨htake, hdrop⟩ := takeWhile_digits htail h
    rw [hc, List.cons_append, scanWhole, if_neg hne, if_pos hhead, htake, hdrop]

/-- A digit is no mark, no white space and no sign. -/
theorem isDigit_ne {c d : Char} (h : c.isDigit = true) (hd : d.isDigit = false) : c ≠ d := by
  rintro rfl
  rw [h] at hd
  cases hd

theorem exists_toDigits (n : Nat) : ∃ c ds, Nat.toDigits 10 n = c :: ds ∧ c.isDigit = true := by
  cases hds : Nat.toDigits 10 n with
  | nil => exact absurd hds Nat.toDigits_ne_nil
  | cons c ds => exact ⟨c, ds, rfl, isDigit_toDigits c (hds ▸ List.mem_cons_self)⟩

theorem scanNumber_dumpsInt (fl : Floats) (n : Int) {rest : Text} (h : Ended rest) :
    scanNumber fl (dumpsInt n ++ rest) = some (.int n, rest) := by
  have hwhole := scanWhole_toDigits n.natAbs h
  have hvalue : Nat.ofDigitChars 10 (Nat.toDigits 10 n.natAbs) 0 = n.natAbs :=
    Nat.ofDigitChars_ten_toDigits
  unfold dumpsInt
  split
  · next hneg =>
    have hsign : scanSign ['-'] ('-' :: (Nat.toDigits 10 n.natAbs ++ rest)) =
        (['-'], Nat.toDigits 10 n.natAbs ++ rest) := rfl
    have hint : intOf ['-'] (Nat.toDigits 10 n.natAbs) = n := by
      rw [intOf, if_neg (by decide), hvalue]
      omega
    simp only [List.cons_append, scanNumber, hsign, hwhole, scanFraction_ended h,
      scanExponent_ended h, and_self, if_true, hint]
  · next hpos =>
    have hsign : scanSign ['-'] (Nat.toDigits 10 n.natAbs ++ rest) =
        ([], Nat.toDigits 10 n.natAbs ++ rest) := by
      obtain ⟨c, ds, hds, hc⟩ := exists_toDigits n.natAbs
      rw [hds, List.cons_append, scanSign, if_neg]
      simpa using isDigit_ne hc (show '-'.isDigit = false by decide)
    have hint : intOf [] (Nat.toDigits 10 n.natAbs) = n := by
      rw [intOf, if_pos rfl, hvalue]
      omega
    simp only [scanNumber, hsign, hwhole, scanFraction_ended h, scanExponent_ended h, and_self,
      if_true, hint]

/-! ## Values -/

mutual

/-- No float, and no key twice in an object. -/
def Plain : Json → Prop
  | .float _ => False
  | .arr l => PlainItems l
  | .obj l => (l.map Prod.fst).Nodup ∧ PlainMembers l
  | _ => True

def PlainItems : List Json → Prop
  | [] => True
  | v :: l => Plain v ∧ PlainItems l

def PlainMembers : List (Text × Json) → Prop
  | [] => True
  | (_, v) :: l => Plain v ∧ PlainMembers l

end

theorem plain_ofOptText (t : Option Text) : (ofOptText t).Plain := by
  cases t <;> trivial

theorem plain_ofTexts (l : List Text) : (ofTexts l).Plain := by
  show PlainItems (l.map str)
  induction l with
  | nil => trivial
  | cons t l ih => exact ⟨trivial, ih⟩

theorem plain_optInt (n : Option Int) : ((n.map int).getD .null).Plain := by
  cases n <;> trivial

theorem isWhite_of_isDigit {c : Char} (h : c.isDigit = true) : isWhite c = false := by
  have h1 := isDigit_ne h (show ' '.isDigit = false by decide)
  have h2 := isDigit_ne h (show '\t'.isDigit = false by decide)
  have h3 := isDigit_ne h (show '\n'.isDigit = false by decide)
  have h4 := isDigit_ne h (show '\r'.isDigit = false by decide)
  simp [isWhite, h1, h2, h3, h4]

/-- A written value begins with its first character. -/
theorem dumps_cons (fl : Floats) {v : Json} (h : v.Plain) :
    ∃ c t, dumps fl v = c :: t ∧ isWhite c = false ∧ c ≠ ']' := by
  cases v with
  | null => exact ⟨'n', _, rfl, by decide, by decide⟩
  | bool b => cases b with
    | true => exact ⟨'t', _, rfl, by decide, by decide⟩
    | false => exact ⟨'f', _, rfl, by decide, by decide⟩
  | int n =>
    obtain ⟨c, ds, hds, hc⟩ := exists_toDigits n.natAbs
    simp only [dumps, dumpsInt]
    split
    · exact ⟨'-', _, rfl, by decide, by decide⟩
    · exact ⟨c, ds, hds, isWhite_of_isDigit hc, isDigit_ne hc (by decide)⟩
  | float q => exact h.elim
  | str t => exact ⟨'"', _, rfl, by decide, by decide⟩
  | arr l => cases l with
    | nil => exact ⟨'[', _, rfl, by decide, by decide⟩
    | cons v l => exact ⟨'[', _, rfl, by decide, by decide⟩
  | obj l => cases l with
    | nil => exact ⟨'{', _, rfl, by decide, by decide⟩
    | cons m l => exact ⟨'{', _, rfl, by decide, by decide⟩

theorem skipWhite_cons {c : Char} (h : isWhite c = false) (t : Text) :
    skipWhite (c :: t) = c :: t :=
  List.dropWhile_cons_of_neg (by simp [h])

theorem ended_dumpsItems (fl : Floats) (l : List Json) (rest : Text) :
    Ended (dumpsItems fl l ++ rest) := by
  cases l with
  | nil => exact .cons (by decide)
  | cons v l => exact .cons (by decide)

theorem ended_dumpsMembers (fl : Floats) (l : List (Text × Json)) (rest : Text) :
    Ended (dumpsMembers fl l ++ rest) := by
  cases l with
  | nil => exact .cons (by decide)
  | cons m l => exact .cons (by decide)

/-- A value behind one blank is found. -/
theorem skipWhite_dumps (fl : Floats) {v : Json} (h : v.Plain) (rest : Text) :
    skipWhite (dumps fl v ++ rest) = dumps fl v ++ rest := by
  obtain ⟨c, t, hc, hwhite, -⟩ := dumps_cons fl h
  rw [hc, List.cons_append, skipWhite_cons hwhite]

theorem length_dumps_pos (fl : Floats) {v : Json} (h : v.Plain) : 0 < (dumps fl v).length := by
  obtain ⟨c, t, hc, -⟩ := dumps_cons fl h
  rw [hc]
  exact Nat.succ_pos _

/-- A text that is no string, array or object is a number or a word. -/
theorem scanValue_scalar (fl : Floats) (n : Nat) {c : Char} (t : Text) (h1 : c ≠ '"')
    (h2 : c ≠ '[') (h3 : c ≠ '{') : scanValue fl (n + 1) (c :: t) =
      (scanNumber fl (c :: t)).or (scanWord fl (c :: t)) := by
  rw [scanValue, if_neg h1, if_neg h2, if_neg h3]

theorem scanValue_int (fl : Floats) (i : Int) (n : Nat) {rest : Text} (h : Ended rest) :
    scanValue fl (n + 1) (dumpsInt i ++ rest) = some (.int i, rest) := by
  have hread := scanNumber_dumpsInt fl i h
  have hhead : ∃ c t, dumpsInt i = c :: t ∧ c ≠ '"' ∧ c ≠ '[' ∧ c ≠ '{' := by
    obtain ⟨c, ds, hds, hc⟩ := exists_toDigits i.natAbs
    unfold dumpsInt
    split
    · exact ⟨'-', _, rfl, by decide, by decide, by decide⟩
    · exact ⟨c, ds, hds, isDigit_ne hc (by decide), isDigit_ne hc (by decide),
        isDigit_ne hc (by decide)⟩
  obtain ⟨c, t, hc, h1, h2, h3⟩ := hhead
  rw [hc, List.cons_append] at hread ⊢
  rw [scanValue_scalar fl n _ h1 h2 h3, hread]
  rfl

theorem scanValue_str (fl : Floats) (t : Text) (n : Nat) (rest : Text) :
    scanValue fl (n + 1) (dumpsStr t ++ rest) = some (.str t, rest) := by
  have hread := scanString_dumpsStr t rest
  simp only [dumpsStr, List.tail_cons] at hread
  rw [dumpsStr, List.cons_append, scanValue, if_pos rfl, hread]
  rfl

theorem scanKey_dumpsStr (fl : Floats) (key : Text) {v : Json} (hv : v.Plain) (rest : Text) :
    scanKey (dumpsStr key ++ ([':', ' '] ++ (dumps fl v ++ rest))) =
      some (key, dumps fl v ++ rest) := by
  have hkey := scanString_dumpsStr key ([':', ' '] ++ (dumps fl v ++ rest))
  have hcolon : scanColon ([':', ' '] ++ (dumps fl v ++ rest)) = some (dumps fl v ++ rest) :=
    congrArg some (skipWhite_dumps fl hv rest)
  simp only [dumpsStr, List.tail_cons] at hkey
  rw [dumpsStr, List.cons_append, scanKey, if_pos rfl, hkey]
  simp only [Option.bind_eq_bind, Option.bind_some, hcolon]

/-- Setting a new key adds its item at the end. -/
theorem put_of_notMem {m : Text × Json} {d : List (Text × Json)} (h : m.1 ∉ d.map Prod.fst) :
    Dict.put m.1 m.2 d = d ++ [m] := by
  induction d with
  | nil => rfl
  | cons item d ih =>
    obtain ⟨hitem, hd⟩ := not_or.mp (mt List.mem_cons.mpr h)
    rw [Dict.put, if_neg (Ne.symm hitem), ih hd]
    rfl

/-- Members with distinct keys stay as they are. -/
theorem ofMembers_of_nodup {l : List (Text × Json)} (h : (l.map Prod.fst).Nodup) :
    ofMembers l = .obj l := by
  have hall : ∀ (l d : List (Text × Json)), ((d ++ l).map Prod.fst).Nodup →
      l.foldl (fun d m => Dict.put m.1 m.2 d) d = d ++ l := by
    intro l
    induction l with
    | nil => intro d _; rw [List.append_nil]; rfl
    | cons m l ih =>
      intro d hd
      have hm : m.1 ∉ d.map Prod.fst := by
        rw [List.map_append, List.map_cons, List.nodup_middle, List.nodup_cons] at hd
        exact fun hmem => hd.1 (List.mem_append_left _ hmem)
      rw [List.foldl_cons, put_of_notMem hm, ih, List.append_assoc]
      · rfl
      · simpa using hd
  rw [ofMembers, hall l [] h]
  rfl

theorem length_dumpsItems_pos (fl : Floats) (l : List Json) : 0 < (dumpsItems fl l).length := by
  cases l with
  | nil => exact Nat.one_pos
  | cons v l => exact Nat.succ_pos _

theorem length_dumpsMembers_pos (fl : Floats) (l : List (Text × Json)) :
    0 < (dumpsMembers fl l).length := by
  cases l with
  | nil => exact Nat.one_pos
  | cons m l => exact Nat.succ_pos _

/-- The first value of an array does not close it. -/
theorem head?_dumps_ne (fl : Floats) {v : Json} (h : v.Plain) (rest : Text) :
    (dumps fl v ++ rest).head? ≠ some ']' := by
  obtain ⟨c, t, hc, -, hclose⟩ := dumps_cons fl h
  simpa [hc] using hclose

theorem scanMark_comma (fl : Floats) (close : Char) {v : Json} (h : v.Plain) (rest : Text) :
    scanMark close ([',', ' '] ++ (dumps fl v ++ rest)) = some (true, dumps fl v ++ rest) :=
  congrArg (fun t => some (true, t)) (skipWhite_dumps fl h rest)

theorem scanMark_comma_key (key rest : Text) :
    scanMark '}' ([',', ' '] ++ (dumpsStr key ++ rest)) = some (true, dumpsStr key ++ rest) := rfl

mutual

/-- A written value is read back, whatever stands behind it. -/
theorem scanValue_dumps (fl : Floats) : ∀ (v : Json) (n : Nat) (rest : Text), v.Plain →
    (dumps fl v).length ≤ n → Ended rest →
    scanValue fl n (dumps fl v ++ rest) = some (v, rest)
  | v, 0, _, hv, hn, _ => absurd (length_dumps_pos fl hv) (by omega)
  | .null, _ + 1, _, _, _, _ => rfl
  | .bool true, _ + 1, _, _, _, _ => rfl
  | .bool false, _ + 1, _, _, _, _ => rfl
  | .int i, n + 1, _, _, _, h => scanValue_int fl i n h
  | .str t, n + 1, rest, _, _, _ => scanValue_str fl t n rest
  | .arr [], _ + 1, _, _, _, _ => rfl
  | .arr (v :: l), n + 1, rest, hv, hn, _ => by
    obtain ⟨hv, hl⟩ := hv
    simp only [dumps, List.length_cons, List.length_append] at hn
    have hpos := length_dumps_pos fl hv
    have hclose := length_dumpsItems_pos fl l
    obtain ⟨n, rfl⟩ : ∃ k, n = k + 1 := ⟨n - 1, by omega⟩
    have hfirst := scanValue_dumps fl v n (dumpsItems fl l ++ rest) hv (by omega)
      (ended_dumpsItems fl l rest)
    have hitems := scanItems_dumps fl l v n rest hl (by omega) hfirst
    rw [dumps, List.cons_append, List.append_assoc, scanValue, if_neg (by decide), if_pos rfl,
      skipWhite_dumps fl hv, if_neg (head?_dumps_ne fl hv _), hitems]
    rfl
  | .obj [], _ + 1, _, _, _, _ => rfl
  | .obj ((key, v) :: l), n + 1, rest, hv, hn, _ => by
    obtain ⟨hnodup, hv, hl⟩ := hv
    simp only [dumps, List.length_cons, List.length_append] at hn
    have hpos := length_dumps_pos fl hv
    have hclose := length_dumpsMembers_pos fl l
    obtain ⟨n, rfl⟩ : ∃ k, n = k + 1 := ⟨n - 1, by omega⟩
    have hfirst := scanValue_dumps fl v n (dumpsMembers fl l ++ rest) hv (by omega)
      (ended_dumpsMembers fl l rest)
    have hmembers := scanMembers_dumps fl l key v n rest hv hl (by omega) hfirst
    have hskip : ∀ t, skipWhite (dumpsStr key ++ t) = dumpsStr key ++ t := fun _ => rfl
    have hopen : ∀ t, (dumpsStr key ++ t).head? ≠ some '}' := by
      intro t
      simp [dumpsStr]
    simp only [dumps, List.cons_append, List.append_assoc, List.nil_append] at hmembers ⊢
    rw [scanValue, if_neg (by decide), if_neg (by decide), if_pos rfl, hskip,
      if_neg (hopen _), hmembers, Option.map_some, ofMembers_of_nodup hnodup]

theorem scanItems_dumps (fl : Floats) : ∀ (l : List Json) (v : Json) (n : Nat) (rest : Text),
    PlainItems l → (dumpsItems fl l).length ≤ n →
    scanValue fl n (dumps fl v ++ (dumpsItems fl l ++ rest)) =
      some (v, dumpsItems fl l ++ rest) →
    scanItems fl (n + 1) (dumps fl v ++ (dumpsItems fl l ++ rest)) = some (v :: l, rest)
  | [], v, n, rest, _, _, hread => by
    rw [scanItems, hread]
    rfl
  | w :: l, v, n, rest, hl, hn, hread => by
    obtain ⟨hw, hl⟩ := hl
    simp only [dumpsItems, List.length_cons, List.length_append] at hn
    have hclose := length_dumpsItems_pos fl l
    obtain ⟨n, rfl⟩ : ∃ k, n = k + 1 := ⟨n - 1, by omega⟩
    have hnext := scanValue_dumps fl w n (dumpsItems fl l ++ rest) hw (by omega)
      (ended_dumpsItems fl l rest)
    have hitems := scanItems_dumps fl l w n rest hl (by omega) hnext
    rw [scanItems, hread]
    simp only [dumpsItems, List.append_assoc, Option.bind_eq_bind, Option.bind_some,
      scanMark_comma fl _ hw, if_true, hitems, Option.map_some]

theorem scanMembers_dumps (fl : Floats) : ∀ (l : List (Text × Json)) (key : Text) (v : Json)
    (n : Nat) (rest : Text), v.Plain → PlainMembers l → (dumpsMembers fl l).length ≤ n →
    scanValue fl n (dumps fl v ++ (dumpsMembers fl l ++ rest)) =
      some (v, dumpsMembers fl l ++ rest) →
    scanMembers fl (n + 1) (dumpsStr key ++ ([':', ' '] ++
      (dumps fl v ++ (dumpsMembers fl l ++ rest)))) = some ((key, v) :: l, rest)
  | [], key, v, n, rest, hv, _, _, hread => by
    rw [scanMembers, scanKey_dumpsStr fl key hv]
    simp only [Option.bind_eq_bind, Option.bind_some, hread]
    rfl
  | (next, w) :: l, key, v, n, rest, hv, hl, hn, hread => by
    obtain ⟨hw, hl⟩ := hl
    simp only [dumpsMembers, List.length_cons, List.length_append] at hn
    have hclose := length_dumpsMembers_pos fl l
    obtain ⟨n, rfl⟩ : ∃ k, n = k + 1 := ⟨n - 1, by omega⟩
    have hnext := scanValue_dumps fl w n (dumpsMembers fl l ++ rest) hw (by omega)
      (ended_dumpsMembers fl l rest)
    have hmembers := scanMembers_dumps fl l next w n rest hw hl (by omega) hnext
    rw [scanMembers, scanKey_dumpsStr fl key hv]
    simp only [Option.bind_eq_bind, Option.bind_some, hread]
    simp only [dumpsMembers, List.append_assoc, scanMark_comma_key, Option.bind_some, if_true,
      hmembers, Option.map_some]

end

/-- A written value is read back, also with a line break behind it. -/
theorem loads_dumps_append (fl : Floats) {v : Json} (h : v.Plain) {white : Text}
    (hwhite : ∀ c ∈ white, isWhite c = true) : loads fl (dumps fl v ++ white) = some v := by
  have hended : Ended white := by
    intro c hc
    have hw := hwhite c (List.mem_of_mem_head? hc)
    simp only [isWhite, decide_eq_true_eq] at hw
    rcases hw with rfl | rfl | rfl | rfl <;> decide
  have hread := scanValue_dumps fl v ((dumps fl v ++ white).length + 1) white h
    (by rw [List.length_append]; omega) hended
  have hskip : skipWhite white = [] := List.dropWhile_eq_nil_iff.mpr hwhite
  rw [loads, skipWhite_dumps fl h, hread]
  simp [hskip]

/-- `json.loads(json.dumps(value))` is the value. -/
theorem loads_dumps (fl : Floats) {v : Json} (h : v.Plain) : loads fl (dumps fl v) = some v := by
  have hnil := loads_dumps_append fl h (List.forall_mem_nil (isWhite · = true))
  rwa [List.append_nil] at hnil

/-! ## Bytes -/

theorem digitChar_printable : ∀ d, d < 16 →
    32 ≤ (Nat.digitChar d).toNat ∧ (Nat.digitChar d).toNat ≤ 126 := by decide

theorem unicodeEscape_printable (n : Nat) : Printable (unicodeEscape n) := by
  have h : ∀ k, 32 ≤ (Nat.digitChar (k % 16)).toNat ∧ (Nat.digitChar (k % 16)).toNat ≤ 126 :=
    fun k => digitChar_printable _ (Nat.mod_lt _ (by decide))
  exact .cons (by decide) (.cons (by decide) (.cons (h _) (.cons (h _) (.cons (h _)
    (.cons (h _) nofun)))))

theorem escapeChar_printable (c : Char) : Printable (escapeChar c) := by
  have hescapes : ∀ e ∈ escapes, 32 ≤ e.2.toNat ∧ e.2.toNat ≤ 126 := by decide
  unfold escapeChar
  split
  · next e he =>
    exact .cons (by decide) (.cons (hescapes e (List.mem_of_find?_eq_some he)) nofun)
  · split
    · next h => exact .cons h nofun
    · split
      · exact unicodeEscape_printable _
      · exact (unicodeEscape_printable _).append (unicodeEscape_printable _)

theorem dumpsStr_printable (t : Text) : Printable (dumpsStr t) := by
  refine .cons (by decide) (Printable.append ?_ (.cons (by decide) nofun))
  intro c hc
  obtain ⟨a, -, hca⟩ := List.mem_flatMap.mp hc
  exact escapeChar_printable a c hca

theorem dumpsInt_printable (n : Int) : Printable (dumpsInt n) := by
  have hdigits : Printable (Nat.toDigits 10 n.natAbs) := .of_digits isDigit_toDigits
  unfold dumpsInt
  split
  · exact .cons (by decide) hdigits
  · exact hdigits

mutual

theorem dumps_printable (fl : Floats) : ∀ v : Json, Printable (dumps fl v)
  | .null => show Printable "null".toList by unfold Printable; decide
  | .bool true => show Printable "true".toList by unfold Printable; decide
  | .bool false => show Printable "false".toList by unfold Printable; decide
  | .int i => dumpsInt_printable i
  | .float q => fl.printable q
  | .str t => dumpsStr_printable t
  | .arr [] => .cons (by decide) (.cons (by decide) nofun)
  | .arr (v :: l) => .cons (by decide) ((dumps_printable fl v).append (dumpsItems_printable fl l))
  | .obj [] => .cons (by decide) (.cons (by decide) nofun)
  | .obj ((key, v) :: l) => .cons (by decide) ((dumpsStr_printable key).append
      (.cons (by decide) (.cons (by decide)
        ((dumps_printable fl v).append (dumpsMembers_printable fl l)))))

theorem dumpsItems_printable (fl : Floats) : ∀ l : List Json, Printable (dumpsItems fl l)
  | [] => .cons (by decide) nofun
  | v :: l => .cons (by decide) (.cons (by decide)
      ((dumps_printable fl v).append (dumpsItems_printable fl l)))

theorem dumpsMembers_printable (fl : Floats) : ∀ l : List (Text × Json),
    Printable (dumpsMembers fl l)
  | [] => .cons (by decide) nofun
  | (key, v) :: l => .cons (by decide) (.cons (by decide) ((dumpsStr_printable key).append
      (.cons (by decide) (.cons (by decide)
        ((dumps_printable fl v).append (dumpsMembers_printable fl l))))))

end

/-- A printable character is one byte. -/
theorem mem_encode_of_printable {t : Text} (h : Printable t) {b : UInt8} (hb : b ∈ t.encode) :
    32 ≤ b.toNat ∧ b.toNat ≤ 126 := by
  obtain ⟨c, hc, hbc⟩ := List.mem_flatMap.mp hb
  obtain ⟨hlo, hhi⟩ := h c hc
  have hsize : c.utf8Size = 1 := Char.utf8Size_eq_one_iff.mpr (by
    rw [UInt32.le_iff_toNat_le]
    exact Nat.le_trans hhi (by decide))
  rw [String.utf8EncodeChar_eq_singleton hsize, List.mem_singleton] at hbc
  have hval : b.toNat = c.toNat % 256 := by
    rw [hbc, UInt32.toNat_toUInt8]
    rfl
  omega

theorem mem_encode_dumps (fl : Floats) {v : Json} {b : UInt8} (hb : b ∈ (dumps fl v).encode) :
    32 ≤ b.toNat ∧ b.toNat ≤ 126 :=
  mem_encode_of_printable (dumps_printable fl v) hb

end Json
