import FocusGuard.Lib.Calendar

/-!
# The order of ISO 8601 texts

The texts of instants are compared character by character. They come in two lengths, with and
without a fraction of a second, and are nevertheless ordered as the instants are: where one text
ends its seconds and the other goes on, `'+'` is in front of `'.'`.

## Main results

* `Calendar.civilFromDays_lt`: a later day has a later date.
* `Calendar.isoformat_lt_iff`: a later instant has a later text.
* `Calendar.sortReverse_newest`: sorting by the texts, backwards, puts the last instants first.
-/

namespace Calendar

/-! ## Dates -/

/-- Year, month and day, compared in this order. -/
def Civil.Before (c d : Civil) : Prop :=
  c.year < d.year ∨ c.year = d.year ∧ (c.month < d.month ∨ c.month = d.month ∧ c.day < d.day)

/-- Each part of the split fits below the next step of the part in front of it, so that a later day
of the era is later in the first part that differs. -/
theorem splitEra_lt {doe doe' c q y doy c' q' y' doy' : Int} (h0 : 0 ≤ doe) (h : doe < doe')
    (h1 : doe' < 146097) (hsplit : splitEra doe = (c, q, y, doy))
    (hsplit' : splitEra doe' = (c', q', y', doy')) :
    100 * c + 4 * q + y < 100 * c' + 4 * q' + y' ∨
      100 * c + 4 * q + y = 100 * c' + 4 * q' + y' ∧ doy < doy' := by
  simp only [splitEra, Prod.mk.injEq] at hsplit hsplit'
  obtain ⟨rfl, rfl, rfl, rfl⟩ := hsplit
  obtain ⟨rfl, rfl, rfl, rfl⟩ := hsplit'
  have hc : min (doe / 36524) 3 ≤ min (doe' / 36524) 3 := by omega
  have hrest : 0 ≤ doe - min (doe / 36524) 3 * 36524 ∧
      doe - min (doe / 36524) 3 * 36524 ≤ 36524 := by omega
  have hrest' : 0 ≤ doe' - min (doe' / 36524) 3 * 36524 ∧
      doe' - min (doe' / 36524) 3 * 36524 ≤ 36524 := by omega
  have hlater : min (doe / 36524) 3 < min (doe' / 36524) 3 →
      doe - min (doe / 36524) 3 * 36524 < 36524 := by omega
  generalize min (doe / 36524) 3 = c at *
  generalize min (doe' / 36524) 3 = c' at *
  generalize hr : doe - c * 36524 = r at *
  generalize hr' : doe' - c' * 36524 = r' at *
  omega

/-- Months counted from January are as many as those counted from March. -/
theorem fromMarch_spec (year : Int) {mp : Int} (h0 : 0 ≤ mp) (h11 : mp ≤ 11) :
    let m := if mp < 10 then mp + 3 else mp - 9
    12 * (year + (if m ≤ 2 then 1 else 0)) + m = 12 * year + mp + 3 ∧ 1 ≤ m ∧ m ≤ 12 := by
  dsimp only
  split
  · rw [if_neg (by omega)]
    omega
  · rw [if_pos (by omega)]
    omega

theorem civilFromDays_lt {z z' : Int} (h : z < z') :
    (civilFromDays z).Before (civilFromDays z') := by
  unfold civilFromDays Civil.Before
  obtain ⟨c, q, y, doy, hsplit⟩ : ∃ c q y doy,
      splitEra ((z + 719468) % 146097) = (c, q, y, doy) := ⟨_, _, _, _, rfl⟩
  obtain ⟨c', q', y', doy', hsplit'⟩ : ∃ c q y doy,
      splitEra ((z' + 719468) % 146097) = (c, q, y, doy) := ⟨_, _, _, _, rfl⟩
  have hspec := splitEra_spec (by omega) (by omega) hsplit
  have hspec' := splitEra_spec (by omega) (by omega) hsplit'
  have hera : (z + 719468) / 146097 < (z' + 719468) / 146097 ∨
      (z + 719468) / 146097 = (z' + 719468) / 146097 ∧
        (z + 719468) % 146097 < (z' + 719468) % 146097 := by omega
  simp only [hsplit, hsplit']
  generalize (z + 719468) / 146097 = era at hera ⊢
  generalize (z' + 719468) / 146097 = era' at hera ⊢
  -- years that start in March, and the day of such a year
  have hyear : 400 * era + 100 * c + 4 * q + y < 400 * era' + 100 * c' + 4 * q' + y' ∨
      400 * era + 100 * c + 4 * q + y = 400 * era' + 100 * c' + 4 * q' + y' ∧ doy < doy' := by
    rcases hera with hera | ⟨hera, hday⟩
    · omega
    · have hlt := splitEra_lt (by omega) hday (by omega) hsplit hsplit'
      omega
  generalize 400 * era + 100 * c + 4 * q + y = year at hyear ⊢
  generalize 400 * era' + 100 * c' + 4 * q' + y' = year' at hyear ⊢
  obtain ⟨-, -, -, -, -, -, -, hd, hd'⟩ := hspec
  obtain ⟨-, -, -, -, -, -, -, he, he'⟩ := hspec'
  have hmonth : (5 * doy + 2) / 153 ≤ 11 ∧ (5 * doy' + 2) / 153 ≤ 11 := by omega
  have hday : doy < doy' → (5 * doy + 2) / 153 ≤ (5 * doy' + 2) / 153 := by omega
  have hpos : 0 ≤ (5 * doy + 2) / 153 ∧ 0 ≤ (5 * doy' + 2) / 153 := by omega
  generalize (5 * doy + 2) / 153 = mp at hmonth hday hpos ⊢
  generalize (5 * doy' + 2) / 153 = mp' at hmonth hday hpos ⊢
  have hcount := fromMarch_spec year hpos.1 hmonth.1
  have hcount' := fromMarch_spec year' hpos.2 hmonth.2
  dsimp only at hcount hcount'
  generalize (if mp < 10 then mp + 3 else mp - 9) = m at hcount ⊢
  generalize (if mp' < 10 then mp' + 3 else mp' - 9) = m' at hcount' ⊢
  generalize year + (if m ≤ 2 then 1 else 0) = civilYear at hcount ⊢
  generalize year' + (if m' ≤ 2 then 1 else 0) = civilYear' at hcount' ⊢
  omega

/-! ## Digits -/

theorem digitChar_lt {a b : Nat} (h : a < b) (hb : b < 10) : Nat.digitChar a < Nat.digitChar b := by
  interval_cases b <;> interval_cases a <;> decide

/-- Numbers of the same width are ordered as their texts, whatever follows. -/
theorem pad_lt {w a b : Nat} (h : a < b) (hb : b < 10 ^ w) (x y : Text) :
    pad w a ++ x < pad w b ++ y := by
  induction w generalizing a b with
  | zero => omega
  | succ w ih =>
    have hpos : 0 < 10 ^ w := by positivity
    rw [pad, pad, List.cons_append, List.cons_append, List.cons_lt_cons_iff]
    have hle : a / 10 ^ w ≤ b / 10 ^ w := Nat.div_le_div_right (Nat.le_of_lt h)
    rcases Nat.lt_or_eq_of_le hle with hlt | heq
    · refine .inl (digitChar_lt hlt ?_)
      rw [Nat.div_lt_iff_lt_mul hpos]
      rwa [Nat.pow_succ, Nat.mul_comm] at hb
    · refine .inr ⟨congrArg _ heq, ih ?_ (Nat.mod_lt _ hpos)⟩
      have ha := Nat.div_add_mod a (10 ^ w)
      have hb := Nat.div_add_mod b (10 ^ w)
      rw [heq] at ha
      omega

/-! ## Texts -/

theorem dateText_lt {z z' : Int} {c d : Civil} (hc : civilFromDays z = c)
    (hd : civilFromDays z' = d) (hy : 1 ≤ c.year) (hy' : d.year ≤ 9999) (h : z < z') (x y : Text) :
    dateText c ++ x < dateText d ++ y := by
  have hbefore := civilFromDays_lt h
  obtain ⟨hm, -, hday, -⟩ := civilFromDays_bounds z
  obtain ⟨-, hm', -, hday'⟩ := civilFromDays_bounds z'
  rw [hc] at hbefore hm hday
  rw [hd] at hbefore hm' hday'
  unfold dateText
  simp only [List.append_assoc, List.cons_append]
  rcases hbefore with hyear | ⟨hyear, hmonth | ⟨hmonth, hdays⟩⟩
  · exact pad_lt (by omega) (by omega) _ _
  · rw [hyear]
    refine List.append_left_lt (List.cons_lt_cons_self.mpr ?_)
    exact pad_lt (by omega) (by omega) _ _
  · rw [hyear, hmonth]
    refine List.append_left_lt (List.cons_lt_cons_self.mpr (List.append_left_lt
      (List.cons_lt_cons_self.mpr ?_)))
    exact pad_lt (by omega) (by omega) _ _

/-- In the same second, the text without a fraction comes first. -/
theorem fraction_lt {f f' : Nat} (h : f < f') (hf : f' < 1000000) {x : Text}
    (hx : ∀ c ∈ x.head?, c < '.') :
    (if f = 0 then [] else '.' :: pad 6 f) ++ x <
      (if f' = 0 then [] else '.' :: pad 6 f') ++ x := by
  rw [if_neg (by omega : ¬ f' = 0)]
  split
  · rw [List.nil_append, List.cons_append]
    cases x with
    | nil => exact List.nil_lt_cons _ _
    | cons c x => exact List.cons_lt_cons_iff.mpr (.inl (hx c rfl))
  · rw [List.cons_append, List.cons_append]
    exact List.cons_lt_cons_self.mpr (pad_lt h hf _ _)

theorem clockText_lt {r r' : Nat} (h : r < r') (hr : r' < 86400000000) {x : Text}
    (hx : ∀ c ∈ x.head?, c < '.') : clockText r ++ x < clockText r' ++ x := by
  have hparts : r / 3600000000 < r' / 3600000000 ∨ r / 3600000000 = r' / 3600000000 ∧
      (r / 60000000 % 60 < r' / 60000000 % 60 ∨ r / 60000000 % 60 = r' / 60000000 % 60 ∧
        (r / 1000000 % 60 < r' / 1000000 % 60 ∨ r / 1000000 % 60 = r' / 1000000 % 60 ∧
          r % 1000000 < r' % 1000000)) := by omega
  unfold clockText
  simp only [List.append_assoc, List.cons_append]
  rcases hparts with hhour | ⟨hhour, hminute | ⟨hminute, hsecond | ⟨hsecond, hfraction⟩⟩⟩
  · exact pad_lt hhour (by omega) _ _
  · rw [hhour]
    refine List.append_left_lt (List.cons_lt_cons_self.mpr ?_)
    exact pad_lt hminute (by omega) _ _
  · rw [hhour, hminute]
    refine List.append_left_lt (List.cons_lt_cons_self.mpr (List.append_left_lt
      (List.cons_lt_cons_self.mpr ?_)))
    exact pad_lt hsecond (by omega) _ _
  · rw [hhour, hminute, hsecond]
    refine List.append_left_lt (List.cons_lt_cons_self.mpr (List.append_left_lt
      (List.cons_lt_cons_self.mpr (List.append_left_lt ?_))))
    exact fraction_lt hfraction (by omega) hx

/-- A later instant has a later text. -/
theorem isoformat_lt {s t : Instant} (h : s.micros < t.micros) : isoformat s < isoformat t := by
  have hs := s.inRange
  have ht := t.inRange
  simp only [representable, decide_eq_true_eq] at hs ht
  have hparts : s.micros / microsPerDay < t.micros / microsPerDay ∨
      s.micros / microsPerDay = t.micros / microsPerDay ∧
        (s.micros % microsPerDay).toNat < (t.micros % microsPerDay).toNat ∧
        (t.micros % microsPerDay).toNat < 86400000000 := by
    unfold microsPerDay
    omega
  unfold isoformat
  rcases hparts with hday | ⟨hday, hclock, hrange⟩
  · exact dateText_lt rfl rfl hs.1 ht.2 hday _ _
  · have hzone : ∀ c ∈ ("+00:00" : Text).head?, c < '.' := by
      rintro _ ⟨⟩
      decide
    rw [hday]
    exact List.append_left_lt (List.cons_lt_cons_self.mpr (clockText_lt hclock hrange hzone))

theorem isoformat_lt_iff {s t : Instant} : isoformat s < isoformat t ↔ s.micros < t.micros := by
  refine ⟨fun h => ?_, isoformat_lt⟩
  by_contra hnot
  rcases Int.lt_or_eq_of_le (not_lt.mp hnot) with hlt | heq
  · exact lt_asymm h (isoformat_lt hlt)
  · have hsame : s = t := by
      cases s
      cases t
      cases heq
      rfl
    exact lt_irrefl _ (hsame ▸ h)

/-! ## Sorting -/

variable {α : Type} {key : α → Text} {seen : α → Instant} {l : List α}

/-- `sorted(l, key=key, reverse=True)`. Elements with the same key keep their order. -/
def sortReverse (key : α → Text) (l : List α) : List α := l.mergeSort fun a b => ¬ key a < key b

theorem map_sortReverse {β : Type} (f : α → β) (key : β → Text) (l : List α) :
    (sortReverse (fun a => key (f a)) l).map f = sortReverse key (l.map f) :=
  List.map_mergeSort fun _ _ _ _ => rfl

/-- `order` is an arrangement of `l` in which the instants do not increase. -/
structure NewestFirst (seen : α → Instant) (order l : List α) : Prop where
  perm : order.Perm l
  pairwise : order.Pairwise fun a b => (seen b).micros ≤ (seen a).micros

theorem sortReverse_newest (h : ∀ a ∈ l, key a = isoformat (seen a)) :
    NewestFirst seen (sortReverse key l) l := by
  have hperm : (sortReverse key l).Perm l := List.mergeSort_perm _ _
  have hsorted : (sortReverse key l).Pairwise fun a b => decide (¬ key a < key b) = true := by
    refine List.pairwise_mergeSort (fun a b c hab hbc => ?_) (fun a b => ?_) l
    · simp only [decide_eq_true_eq, not_lt] at hab hbc ⊢
      exact le_trans hbc hab
    · simp only [Bool.or_eq_true, decide_eq_true_eq, not_lt]
      exact le_total (key b) (key a)
  refine ⟨hperm, hsorted.imp_of_mem fun {a b} ha hb hab => ?_⟩
  have hnot := of_decide_eq_true hab
  rw [h a (hperm.mem_iff.mp ha), h b (hperm.mem_iff.mp hb), isoformat_lt_iff] at hnot
  exact not_lt.mp hnot

end Calendar
