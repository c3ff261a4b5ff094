import Mathlib.Data.List.Basic
import Mathlib.Data.List.DropRight
import Mathlib.Data.List.Infix
import Mathlib.Data.List.Dedup
import Mathlib.Data.List.Lex
import Mathlib.Data.List.Sort
import Mathlib.Data.Char

/-!
# Texts as lists of code points

Python's `str` operations on lists of characters: stripping, splitting and joining at one
character, and the suffix test that a dotted name is *under* another one.

## Main results

* `Text.splitOn_join`: splitting a joined list of pieces splits every piece.
* `Text.under_iff_suffix`: `d` is `r` or ends with `"." ++ r` exactly when the pieces of
  `r` are a suffix of the pieces of `d`.
-/

/-- A Python `str`: its code points in order. -/
abbrev Text := List Char

/-- String literals stand for the texts they spell. -/
instance Text.instCoeString : Coe String Text := ⟨String.toList⟩

namespace Text

/-! ## Characters -/

/-- A property of all characters of a text is checked along the text, not along `Char`. -/
instance (priority := 2000) decidableForallMem (p : Char → Prop) [DecidablePred p] (t : Text) :
    Decidable (∀ c ∈ t, p c) :=
  List.decidableBAll p t

instance (priority := 2000) decidableMem (t : Text) (l : List Text) : Decidable (t ∈ l) :=
  List.instDecidableMemOfLawfulBEq t l

def isAsciiChar (c : Char) : Bool := c.toNat < 128

def isAscii (t : Text) : Bool := t.all isAsciiChar

/-- Lower-casing adds 32 to an upper-case letter. -/
theorem toNat_toLower (c : Char) :
    c.toLower.toNat = if 65 ≤ c.toNat ∧ c.toNat ≤ 90 then c.toNat + 32 else c.toNat := by
  have hcase : (c.val ≥ 'A'.val ∧ c.val ≤ 'Z'.val) ↔ 65 ≤ c.toNat ∧ c.toNat ≤ 90 := Iff.rfl
  unfold Char.toLower
  split
  · next hu =>
    rw [if_pos (hcase.mp hu)]
    have hdiff : ('a'.val - 'A'.val).toNat = 32 := rfl
    have hhi := (hcase.mp hu).2
    simp only [Char.toNat, UInt32.toNat_add, hdiff] at hhi ⊢
    omega
  · next hu => rw [if_neg (mt hcase.mpr hu)]

theorem toLower_cases (c : Char) :
    c.toLower = c ∨ (65 ≤ c.toNat ∧ c.toNat ≤ 90 ∧ c.toLower.toNat = c.toNat + 32) := by
  have hlower := toNat_toLower c
  by_cases h : 65 ≤ c.toNat ∧ c.toNat ≤ 90
  · rw [if_pos h] at hlower
    exact .inr ⟨h.1, h.2, hlower⟩
  · rw [if_neg h] at hlower
    exact .inl (Char.toNat_inj.mp hlower)

theorem toLower_toLower (c : Char) : c.toLower.toLower = c.toLower := by
  rcases toLower_cases c.toLower with h | ⟨h1, h2, -⟩
  · exact h
  · rcases toLower_cases c with h | ⟨h3, h4, h5⟩
    · rw [h, h]
    · omega

/-- The white space that `str.strip()` removes. -/
def isSpace (c : Char) : Bool :=
  (9 ≤ c.toNat ∧ c.toNat ≤ 13) ∨ (28 ≤ c.toNat ∧ c.toNat ≤ 32) ∨
    c.toNat ∈ [0x85, 0xA0, 0x1680, 0x2028, 0x2029, 0x202F, 0x205F, 0x3000] ∨
    (0x2000 ≤ c.toNat ∧ c.toNat ≤ 0x200A)

/-- The replacement character, which lossy decoding puts for an undecodable byte. -/
def replacement : Char := Char.ofNat 0xFFFD

/-! ## Stripping -/

/-- `t.strip(chars)`, for the elements that satisfy `p`. -/
def stripBy {α : Type} (p : α → Bool) (t : List α) : List α := (t.dropWhile p).rdropWhile p

def strip (t : Text) : Text := stripBy isSpace t

section Strip

variable {α : Type} {p : α → Bool} {t : List α}

theorem stripBy_eq_self (hhead : ∀ c ∈ t.head?, ¬ p c)
    (hlast : ∀ c ∈ t.getLast?, ¬ p c) : stripBy p t = t := by
  have hd : t.dropWhile p = t := by
    cases t with
    | nil => rfl
    | cons c t => rw [List.dropWhile_cons_of_neg (hhead c rfl)]
  rw [stripBy, hd, List.rdropWhile_eq_self_iff]
  intro hl
  exact hlast _ (List.getLast?_eq_some_getLast hl)

/-- Stripping only removes characters from the two ends. -/
theorem stripBy_isInfix (p : α → Bool) (t : List α) : stripBy p t <:+: t :=
  (List.rdropWhile_prefix p _).isInfix.trans (List.dropWhile_suffix p).isInfix

theorem mem_of_mem_stripBy {c : α} (h : c ∈ stripBy p t) :
    c ∈ t :=
  (stripBy_isInfix p t).subset h

/-- What stripping would not remove, it keeps wherever it stands. -/
theorem mem_stripBy_of_not {c : α} (h : c ∈ t) (hc : ¬ p c) : c ∈ stripBy p t := by
  have hdrop : ∀ u : List α, c ∈ u → c ∈ u.dropWhile p := by
    intro u hu
    rw [← List.takeWhile_append_dropWhile (p := p) (l := u), List.mem_append] at hu
    rcases hu with hu | hu
    · exact absurd (List.mem_takeWhile_imp hu) hc
    · exact hu
  have hr := hdrop _ (List.mem_reverse.mpr (hdrop t h))
  exact List.mem_reverse.mpr hr

theorem head?_stripBy {c : α}
    (h : c ∈ (stripBy p t).head?) : ¬ p c := by
  have hpre : stripBy p t <+: t.dropWhile p := List.rdropWhile_prefix p _
  have hc : c ∈ (t.dropWhile p).head? := by
    obtain ⟨r, hr⟩ := hpre
    rw [← hr]
    cases hs : stripBy p t with
    | nil => simp [hs] at h
    | cons a l =>
      rw [hs] at h
      simpa using h
  cases hd : t.dropWhile p with
  | nil => simp [hd] at hc
  | cons a l =>
    have ha : a = c := by simpa [hd] using hc
    have := List.head_dropWhile_not p (l := t) (by simp [hd])
    simp only [hd, List.head_cons] at this
    rw [← ha, this]
    simp

theorem getLast?_stripBy {c : α}
    (h : c ∈ (stripBy p t).getLast?) : ¬ p c := by
  have hne : (t.dropWhile p).rdropWhile p ≠ [] := by
    rintro hnil
    simp [stripBy, hnil] at h
  have hc : ((t.dropWhile p).rdropWhile p).getLast hne = c := by
    have := List.getLast?_eq_some_getLast hne
    rw [stripBy, this] at h
    simpa using h
  rw [← hc]
  exact List.rdropWhile_last_not p _ hne

theorem stripBy_idem (p : α → Bool) (t : List α) :
    stripBy p (stripBy p t) = stripBy p t :=
  stripBy_eq_self (fun _ h => head?_stripBy h) (fun _ h => getLast?_stripBy h)

/-- A tail whose ends are kept survives stripping: only what precedes it is shortened. -/
theorem stripBy_append {x r : List α} (hr : r ≠ [])
    (hhead : ∀ c ∈ r.head?, ¬ p c) (hlast : ∀ c ∈ r.getLast?, ¬ p c) :
    stripBy p (x ++ r) = x.dropWhile p ++ r := by
  have hd : (x ++ r).dropWhile p = x.dropWhile p ++ r := by
    rw [List.dropWhile_append]
    split
    · next h =>
      have hx : x.dropWhile p = [] := by simpa using h
      rw [hx, List.nil_append]
      cases r with
      | nil => exact absurd rfl hr
      | cons c r => rw [List.dropWhile_cons_of_neg (hhead c rfl)]
    · rfl
  rw [stripBy, hd, List.rdropWhile_eq_self_iff]
  intro hl
  rw [List.getLast_append_of_ne_nil _ hr]
  exact hlast _ (List.getLast?_eq_some_getLast hr)

/-- Stripping changes a list exactly when one of its ends is stripped. -/
theorem stripBy_eq_self_iff :
    stripBy p t = t ↔ (∀ c ∈ t.head?, ¬ p c) ∧ (∀ c ∈ t.getLast?, ¬ p c) := by
  refine ⟨fun h => ⟨fun c hc => ?_, fun c hc => ?_⟩, fun h => stripBy_eq_self h.1 h.2⟩
  · exact head?_stripBy (h.symm ▸ hc)
  · exact getLast?_stripBy (h.symm ▸ hc)

theorem length_stripBy_lt (h : stripBy p t ≠ t) : (stripBy p t).length < t.length :=
  lt_of_le_of_ne (stripBy_isInfix p t).length_le fun hl => h ((stripBy_isInfix p t).eq_of_length hl)

/-- A prefix that ends in a kept element keeps all of itself when the right end is stripped. -/
theorem rdropWhile_append {l : List α} (hlast : ∀ c ∈ l.getLast?, ¬ p c) :
    (l ++ t).rdropWhile p = l ++ t.rdropWhile p := by
  induction t using List.reverseRecOn with
  | nil =>
    rw [List.append_nil, List.rdropWhile_nil, List.append_nil, List.rdropWhile_eq_self_iff]
    exact fun hl => hlast _ (List.getLast?_eq_some_getLast hl)
  | append_singleton t c ih =>
    rw [← List.append_assoc, List.rdropWhile_concat, List.rdropWhile_concat]
    split
    · exact ih
    · exact List.append_assoc l t [c]

theorem rdropWhile_append_of_pos {l : List α} (hall : ∀ c ∈ t, p c = true) :
    (l ++ t).rdropWhile p = l.rdropWhile p := by
  induction t using List.reverseRecOn with
  | nil => rw [List.append_nil]
  | append_singleton t c ih =>
    rw [← List.append_assoc, List.rdropWhile_concat_pos _ _ _ (hall c (by simp))]
    exact ih fun b hb => hall b (by simp [hb])

/-- Stripped elements around a list are stripped with it. -/
theorem stripBy_padded {before after : List α} (hb : ∀ c ∈ before, p c = true)
    (ha : ∀ c ∈ after, p c = true) : stripBy p (before ++ t ++ after) = stripBy p t := by
  rw [stripBy, List.append_assoc, List.dropWhile_append_of_pos hb, List.dropWhile_append]
  split
  · next h =>
    have ht : t.dropWhile p = [] := by simpa using h
    have hd : after.dropWhile p = [] := List.dropWhile_eq_nil_iff.mpr ha
    rw [stripBy, ht, hd]
  · exact rdropWhile_append_of_pos ha

end Strip

/-- What is taken of a text ends in front of the first character that fails the test. -/
theorem takeWhile_append_stop {α : Type} {p : α → Bool} {l t : List α}
    (hall : ∀ c ∈ l, p c = true) (hstop : ∀ c ∈ t.head?, ¬ p c) : (l ++ t).takeWhile p = l := by
  rw [List.takeWhile_append_of_pos hall]
  cases t with
  | nil => exact List.append_nil l
  | cons c t => rw [List.takeWhile_cons_of_neg (hstop c rfl), List.append_nil]

/-! ## Splitting and joining -/

/-- `sep.join(pieces)`. -/
def join (sep : Char) (pieces : List Text) : Text := [sep].intercalate pieces

@[simp] theorem join_nil (sep : Char) : join sep [] = [] := rfl

@[simp] theorem join_singleton (sep : Char) (t : Text) : join sep [t] = t := by
  simp [join, List.intercalate]

theorem join_cons_cons (sep : Char) (a b : Text) (l : List Text) :
    join sep (a :: b :: l) = a ++ sep :: join sep (b :: l) := by
  simp [join, List.intercalate]

theorem join_append {sep : Char} {a b : List Text} (ha : a ≠ []) (hb : b ≠ []) :
    join sep (a ++ b) = join sep a ++ sep :: join sep b := by
  induction a with
  | nil => exact absurd rfl ha
  | cons x a ih =>
    cases a with
    | nil =>
      cases b with
      | nil => exact absurd rfl hb
      | cons y b => rw [List.singleton_append, join_cons_cons, join_singleton]
    | cons y a =>
      have := ih (by simp)
      rw [List.cons_append, List.cons_append, join_cons_cons, ← List.cons_append, this,
        join_cons_cons, List.append_assoc, List.cons_append]

theorem join_splitOn (sep : Char) (t : Text) : join sep (t.splitOn sep) = t :=
  List.intercalate_splitOn sep

theorem splitOn_join_of_notMem {sep : Char} {l : List Text} (h : ∀ t ∈ l, sep ∉ t)
    (hl : l ≠ []) : (join sep l).splitOn sep = l :=
  List.splitOn_intercalate sep h hl

theorem splitOn_append_cons (sep : Char) (x y : Text) :
    (x ++ sep :: y).splitOn sep = x.splitOn sep ++ y.splitOn sep :=
  List.splitOn_append_cons_self x y

theorem notMem_of_mem_splitOn {sep : Char} {t piece : Text} (h : piece ∈ t.splitOn sep) :
    sep ∉ piece := by
  induction t generalizing piece with
  | nil => simp_all
  | cons c t ih =>
    rw [List.splitOn_cons_eq_if_modifyHead] at h
    split at h
    · rcases List.mem_cons.mp h with rfl | h
      · simp
      · exact ih h
    · next hc =>
      cases hs : t.splitOn sep with
      | nil => exact absurd hs (List.splitOn_ne_nil sep t)
      | cons a l =>
        rw [hs, List.modifyHead_cons, List.mem_cons] at h
        rcases h with rfl | h
        · have ha := ih (show a ∈ t.splitOn sep by simp [hs])
          simp only [List.mem_cons, not_or]
          exact ⟨fun hcs => hc (by simp [hcs]), ha⟩
        · exact ih (by simp [hs, h])

theorem mem_of_mem_splitOn {sep c : Char} {t piece : Text} (h : piece ∈ t.splitOn sep)
    (hc : c ∈ piece) : c ∈ t := by
  rw [← join_splitOn sep t, join, List.intercalate]
  refine List.mem_flatten.mpr ⟨piece, ?_, hc⟩
  have : ∀ l : List Text, piece ∈ l → piece ∈ List.intersperse [sep] l := by
    intro l
    induction l with
    | nil => simp
    | cons a l ih =>
      cases l with
      | nil => simp
      | cons b l =>
        intro hm
        rw [List.intersperse_cons_cons]
        rcases List.mem_cons.mp hm with rfl | hm
        · simp
        · exact List.mem_cons_of_mem _ (List.mem_cons_of_mem _ (ih hm))
  exact this _ h

theorem mem_join {sep c : Char} {l : List Text} (h : c ∈ join sep l) :
    c = sep ∨ ∃ piece ∈ l, c ∈ piece := by
  induction l with
  | nil => cases h
  | cons a l ih =>
    cases l with
    | nil =>
      rw [join_singleton] at h
      exact .inr ⟨a, List.mem_cons_self, h⟩
    | cons b l =>
      rw [join_cons_cons, List.mem_append, List.mem_cons] at h
      rcases h with h | h | h
      · exact .inr ⟨a, List.mem_cons_self, h⟩
      · exact .inl h
      · rcases ih h with hs | ⟨piece, hp, hc⟩
        · exact .inl hs
        · exact .inr ⟨piece, List.mem_cons_of_mem _ hp, hc⟩

theorem mem_join_of_mem {sep c : Char} {l : List Text} {piece : Text} (hp : piece ∈ l)
    (hc : c ∈ piece) : c ∈ join sep l := by
  induction l with
  | nil => cases hp
  | cons a l ih =>
    cases l with
    | nil =>
      obtain rfl := List.mem_singleton.mp hp
      rwa [join_singleton]
    | cons b l =>
      rw [join_cons_cons, List.mem_append, List.mem_cons]
      rcases List.mem_cons.mp hp with rfl | hp
      · exact .inl hc
      · exact .inr (.inr (ih hp))

/-- Pieces of the same lengths are told by the text they are joined to. -/
theorem join_inj_of_length {sep : Char} {l l' : List Text} (h : join sep l = join sep l')
    (hlen : l.map List.length = l'.map List.length) : l = l' := by
  induction l generalizing l' with
  | nil => exact (List.map_eq_nil_iff.mp hlen.symm).symm
  | cons a l ih =>
    cases l' with
    | nil => simp at hlen
    | cons a' l' =>
      simp only [List.map_cons, List.cons.injEq] at hlen
      obtain ⟨hhead, htail⟩ := hlen
      cases l with
      | nil =>
        obtain rfl := List.map_eq_nil_iff.mp htail.symm
        rw [join_singleton, join_singleton] at h
        rw [h]
      | cons b l =>
        cases l' with
        | nil => simp at htail
        | cons b' l' =>
          rw [join_cons_cons, join_cons_cons] at h
          obtain ⟨rfl, hrest⟩ := List.append_inj h hhead
          rw [ih (List.cons.inj hrest).2 htail]

/-- Splitting a joined list of pieces splits every piece. -/
theorem splitOn_join {sep : Char} {l : List Text} (hl : l ≠ []) :
    (join sep l).splitOn sep = l.flatMap (·.splitOn sep) := by
  induction l with
  | nil => exact absurd rfl hl
  | cons a l ih =>
    cases l with
    | nil => simp
    | cons b l =>
      rw [join_cons_cons, splitOn_append_cons, ih (by simp), List.flatMap_cons (x := a)]

theorem length_le_of_mem_splitOn {sep : Char} {t piece : Text} (h : piece ∈ t.splitOn sep) :
    piece.length ≤ t.length := by
  induction t generalizing piece with
  | nil => simp_all
  | cons c t ih =>
    rw [List.splitOn_cons_eq_if_modifyHead] at h
    split at h
    · rcases List.mem_cons.mp h with rfl | h
      · simp
      · have := ih h
        simp only [List.length_cons]
        omega
    · cases hs : t.splitOn sep with
      | nil => exact absurd hs (List.splitOn_ne_nil sep t)
      | cons a l =>
        rw [hs, List.modifyHead_cons, List.mem_cons] at h
        rcases h with rfl | h
        · have := ih (show a ∈ t.splitOn sep by simp [hs])
          simp only [List.length_cons]
          omega
        · have := ih (show piece ∈ t.splitOn sep by simp [hs, h])
          simp only [List.length_cons]
          omega

theorem mem_splitOn_dropWhile {sep : Char} {t piece : Text}
    (h : piece ∈ (t.dropWhile (· = sep)).splitOn sep) : piece ∈ t.splitOn sep := by
  induction t with
  | nil => exact h
  | cons c t ih =>
    rw [List.dropWhile_cons] at h
    split at h
    · next hc =>
      obtain rfl : c = sep := by simpa using hc
      have hsplit : (c :: t).splitOn c = [] :: t.splitOn c := splitOn_append_cons c [] t
      rw [hsplit]
      exact List.mem_cons_of_mem _ (ih h)
    · exact h

/-- Stripping the separator removes empty pieces and nothing else. -/
theorem mem_splitOn_stripBy {sep : Char} {t piece : Text}
    (h : piece ∈ (stripBy (· = sep) t).splitOn sep) : piece ∈ t.splitOn sep := by
  have hr : ∀ u : Text, piece ∈ (u.rdropWhile (· = sep)).splitOn sep → piece ∈ u.splitOn sep := by
    intro u
    induction u using List.reverseRecOn with
    | nil => exact id
    | append_singleton u c ih =>
      intro hu
      rw [List.rdropWhile_concat] at hu
      split at hu
      · next hc =>
        obtain rfl : c = sep := by simpa using hc
        rw [splitOn_append_cons c u []]
        exact List.mem_append_left _ (ih hu)
      · exact hu
  exact mem_splitOn_dropWhile (hr _ h)

/-! ## Names under a name -/

/-- `d == r or d.endswith("." + r)`. -/
def under (d r : Text) : Bool := d = r ∨ ('.' :: r) <:+ d

/-- A dotted name is under another one exactly when it ends with its pieces. -/
theorem under_iff_suffix (d r : Text) :
    under d r = true ↔ r.splitOn '.' <:+ d.splitOn '.' := by
  simp only [under, decide_eq_true_eq]
  constructor
  · rintro (rfl | ⟨x, rfl⟩)
    · exact List.suffix_refl _
    · rw [splitOn_append_cons]
      exact List.suffix_append _ _
  · rintro ⟨p, hp⟩
    have hd : d = join '.' (p ++ r.splitOn '.') := by rw [hp, join_splitOn]
    by_cases hpn : p = []
    · left
      rw [hd, hpn, List.nil_append, join_splitOn]
    · right
      rw [hd, join_append hpn (List.splitOn_ne_nil _ _), join_splitOn]
      exact List.suffix_append _ _

theorem under_refl (d : Text) : under d d = true := by simp [under]

theorem under_trans {d m r : Text} (h : under d m = true) (h' : under m r = true) :
    under d r = true := by
  rw [under_iff_suffix] at h h' ⊢
  exact h'.trans h

/-! ## Sorting -/

/-- `sorted(s)` for a set of texts. -/
def sorted (s : List Text) : List Text := s.dedup.insertionSort (· ≤ ·)

@[simp] theorem mem_sorted {t : Text} {s : List Text} : t ∈ sorted s ↔ t ∈ s := by
  simp [sorted]

end Text
