import FocusGuard.Lib.JsonRoundTrip

/-!
# Indented JSON

What `json.dump(value, file, indent=2, sort_keys=True)` writes: every item on a line of its own, and
the members of a dictionary in the order of their keys. `json.loads` reads it as the value with its
members in that order.

## Main definitions

* `Json.sortKeys`, `Json.dumpIndent`: the order of the members and the layout.
* `Json.Held`: the values an interpreter can hold.

## Main results

* `Json.loads_dumpIndent`: the round trip.
* `Json.lookup_sortMembers`: what is found under a key in the sorted dictionary.
-/

namespace Json

open Text (Printable)

/-! ## Writing -/

mutual

/-- The value with the members of every dictionary in the order of their keys. -/
def sortKeys : Json → Json
  | .arr l => .arr (sortItems l)
  | .obj l => .obj ((sortMembers l).insertionSort fun a b => a.1 ≤ b.1)
  | v => v

def sortItems : List Json → List Json
  | [] => []
  | v :: l => sortKeys v :: sortItems l

/-- The values under the keys are sorted, the keys stay where they are. -/
def sortMembers : List (Text × Json) → List (Text × Json)
  | [] => []
  | (key, v) :: l => (key, sortKeys v) :: sortMembers l

end

/-- A line break and the indentation of a level. -/
def lineBreak (level : Nat) : Text := '\n' :: List.replicate (2 * level) ' '

variable (fl : Floats)

mutual

/-- `json.dumps(value, indent=2)` at a level. -/
def dumpIndent : Nat → Json → Text
  | _, .arr [] => ['[', ']']
  | level, .arr (v :: l) =>
    '[' :: (lineBreak (level + 1) ++ (dumpIndent (level + 1) v ++ dumpItems level l))
  | _, .obj [] => ['{', '}']
  | level, .obj ((key, v) :: l) =>
    '{' :: (lineBreak (level + 1) ++ (dumpsStr key ++ ([':', ' '] ++
      (dumpIndent (level + 1) v ++ dumpMembers level l))))
  | _, v => dumps fl v

/-- The items behind the first, and the end of the array. -/
def dumpItems : Nat → List Json → Text
  | level, [] => lineBreak level ++ [']']
  | level, v :: l =>
    ',' :: (lineBreak (level + 1) ++ (dumpIndent (level + 1) v ++ dumpItems level l))

def dumpMembers : Nat → List (Text × Json) → Text
  | level, [] => lineBreak level ++ ['}']
  | level, (key, v) :: l =>
    ',' :: (lineBreak (level + 1) ++ (dumpsStr key ++ ([':', ' '] ++
      (dumpIndent (level + 1) v ++ dumpMembers level l))))

end

/-! ## Values -/

/-- A rational that is a float: it is read back from what is written for it. -/
def FloatReads (q : ℚ) : Prop :=
  ∀ rest, Ended rest → scanNumber fl (fl.repr q ++ rest) = some (.float q, rest)

mutual

/-- A value that the interpreter can hold: its numbers are integers or floats, and no dictionary has
a key twice. -/
def Held : Json → Prop
  | .float q => FloatReads fl q
  | .arr l => HeldItems l
  | .obj l => (l.map Prod.fst).Nodup ∧ HeldMembers l
  | _ => True

def HeldItems : List Json → Prop
  | [] => True
  | v :: l => Held v ∧ HeldItems l

def HeldMembers : List (Text × Json) → Prop
  | [] => True
  | (_, v) :: l => Held v ∧ HeldMembers l

end

variable {fl}

/-- A float is written with a sign or a digit in front. -/
theorem FloatReads.repr_cons {q : ℚ} (h : FloatReads fl q) :
    ∃ c t, fl.repr q = c :: t ∧ (c = '-' ∨ c.isDigit = true) := by
  have hread := h [] .nil
  rw [List.append_nil] at hread
  cases hq : fl.repr q with
  | nil =>
    rw [hq] at hread
    cases hread
  | cons c t =>
    refine ⟨c, t, rfl, ?_⟩
    by_cases hc : c = '-'
    · exact .inl hc
    · right
      have hsign : scanSign ['-'] (c :: t) = ([], c :: t) := if_neg (by simpa using hc)
      by_contra hdigit
      have hzero : c ≠ '0' := by
        rintro rfl
        exact hdigit rfl
      have hwhole : scanWhole (c :: t) = none := by
        rw [scanWhole, if_neg hzero, if_neg hdigit]
      rw [hq] at hread
      simp [scanNumber, hsign, hwhole] at hread

/-- A written value begins with its first character. -/
theorem dumpIndent_cons (level : Nat) {v : Json} (h : v.Held fl) :
    ∃ c t, dumpIndent fl level v = c :: t ∧ isWhite c = false ∧ c ≠ ']' := by
  cases v with
  | null => exact dumps_cons fl (v := .null) trivial
  | bool b => exact dumps_cons fl (v := .bool b) trivial
  | int n => exact dumps_cons fl (v := .int n) trivial
  | str t => exact dumps_cons fl (v := .str t) trivial
  | float q =>
    obtain ⟨c, t, hq, hc⟩ := FloatReads.repr_cons h
    refine ⟨c, t, hq, ?_⟩
    rcases hc with rfl | hc
    · exact ⟨by decide, by decide⟩
    · exact ⟨isWhite_of_isDigit hc, isDigit_ne hc (by decide)⟩
  | arr l => cases l with
    | nil => exact ⟨'[', _, rfl, by decide, by decide⟩
    | cons v l => exact ⟨'[', _, rfl, by decide, by decide⟩
  | obj l => cases l with
    | nil => exact ⟨'{', _, rfl, by decide, by decide⟩
    | cons m l => exact ⟨'{', _, rfl, by decide, by decide⟩

theorem length_dumpIndent_pos (level : Nat) {v : Json} (h : v.Held fl) :
    0 < (dumpIndent fl level v).length := by
  obtain ⟨c, t, hc, -⟩ := dumpIndent_cons level h
  rw [hc]
  exact Nat.succ_pos _

/-! ## Reading -/

theorem skipWhite_lineBreak (level : Nat) (t : Text) :
    skipWhite (lineBreak level ++ t) = skipWhite t := by
  refine List.dropWhile_append_of_pos fun c hc => ?_
  rcases List.mem_cons.mp hc with rfl | hc
  · rfl
  · rw [List.eq_of_mem_replicate hc]
    rfl

theorem skipWhite_dumpIndent (level : Nat) {v : Json} (h : v.Held fl) (rest : Text) :
    skipWhite (dumpIndent fl level v ++ rest) = dumpIndent fl level v ++ rest := by
  obtain ⟨c, t, hc, hwhite, -⟩ := dumpIndent_cons level h
  rw [hc, List.cons_append, skipWhite_cons hwhite]

/-- What stands behind a value is a comma or the line break in front of the end. -/
theorem ended_dumpItems (level : Nat) (l : List Json) (rest : Text) :
    Ended (dumpItems fl level l ++ rest) := by
  cases l with
  | nil => exact .cons (by decide)
  | cons v l => exact .cons (by decide)

theorem ended_dumpMembers (level : Nat) (l : List (Text × Json)) (rest : Text) :
    Ended (dumpMembers fl level l ++ rest) := by
  cases l with
  | nil => exact .cons (by decide)
  | cons m l => exact .cons (by decide)

theorem scanMark_close (close : Char) (level : Nat) (rest : Text) (hclose : close ≠ ',')
    (hwhite : isWhite close = false) :
    scanMark close (lineBreak level ++ close :: rest) = some (false, rest) := by
  rw [scanMark, skipWhite_lineBreak, skipWhite_cons hwhite]
  simp only [if_neg hclose, if_true]

/-- A comma and the next line. -/
theorem scanMark_next (close : Char) (level : Nat) {t : Text} (h : skipWhite t = t) :
    scanMark close (',' :: (lineBreak level ++ t)) = some (true, t) := by
  have hskip : skipWhite (lineBreak level ++ t) = t := (skipWhite_lineBreak level t).trans h
  rw [scanMark, skipWhite_cons (by decide)]
  simp only [if_true, hskip]

theorem scanKey_colon (key : Text) {t : Text} (h : skipWhite t = t) :
    scanKey (dumpsStr key ++ ([':', ' '] ++ t)) = some (key, t) := by
  have hkey := scanString_dumpsStr key ([':', ' '] ++ t)
  have hcolon : scanColon ([':', ' '] ++ t) = some t := congrArg some h
  simp only [dumpsStr, List.tail_cons] at hkey
  rw [dumpsStr, List.cons_append, scanKey, if_pos rfl, hkey]
  simp only [Option.bind_eq_bind, Option.bind_some, hcolon]

theorem scanValue_float {q : ℚ} (h : FloatReads fl q) (n : Nat) {rest : Text}
    (hrest : Ended rest) : scanValue fl (n + 1) (fl.repr q ++ rest) = some (.float q, rest) := by
  obtain ⟨c, t, hq, hc⟩ := h.repr_cons
  have hread := h rest hrest
  have hne : ∀ d : Char, d.isDigit = false → d ≠ '-' → c ≠ d := by
    intro d hd hminus
    rcases hc with rfl | hc
    · exact hminus.symm
    · exact isDigit_ne hc hd
  rw [hq, List.cons_append] at hread ⊢
  rw [scanValue_scalar fl n _ (hne _ (by decide) (by decide)) (hne _ (by decide) (by decide))
    (hne _ (by decide) (by decide)), hread]
  rfl

mutual

/-- A written value is read back, whatever stands behind it. -/
theorem scanValue_dumpIndent : ∀ (v : Json) (level n : Nat) (rest : Text), v.Held fl →
    (dumpIndent fl level v).length ≤ n → Ended rest →
    scanValue fl n (dumpIndent fl level v ++ rest) = some (v, rest)
  | v, level, 0, _, hv, hn, _ => absurd (length_dumpIndent_pos level hv) (by omega)
  | .null, _, _ + 1, _, _, _, _ => rfl
  | .bool true, _, _ + 1, _, _, _, _ => rfl
  | .bool false, _, _ + 1, _, _, _, _ => rfl
  | .int i, _, n + 1, _, _, _, h => scanValue_int fl i n h
  | .float _, _, n + 1, _, hv, _, h => scanValue_float hv n h
  | .str t, _, n + 1, rest, _, _, _ => scanValue_str fl t n rest
  | .arr [], _, _ + 1, _, _, _, _ => rfl
  | .arr (v :: l), level, n + 1, rest, hv, hn, _ => by
    obtain ⟨hv, hl⟩ := hv
    simp only [dumpIndent, List.length_cons, List.length_append] at hn
    have hpos := length_dumpIndent_pos (level + 1) hv
    have hbreak : 0 < (lineBreak (level + 1)).length := Nat.succ_pos _
    obtain ⟨n, rfl⟩ : ∃ k, n = k + 1 := ⟨n - 1, by omega⟩
    have hfirst := scanValue_dumpIndent v (level + 1) n (dumpItems fl level l ++ rest) hv
      (by omega) (ended_dumpItems level l rest)
    have hitems := scanItems_dumpItems l v level n rest hl (by omega) hfirst
    have hopen : (dumpIndent fl (level + 1) v ++ (dumpItems fl level l ++ rest)).head? ≠
        some ']' := by
      obtain ⟨c, t, hc, -, hclose⟩ := dumpIndent_cons (level + 1) hv
      simpa [hc] using hclose
    rw [dumpIndent, List.cons_append, List.append_assoc, List.append_assoc, scanValue,
      if_neg (by decide), if_pos rfl, skipWhite_lineBreak, skipWhite_dumpIndent _ hv,
      if_neg hopen, hitems]
    rfl
  | .obj [], _, _ + 1, _, _, _, _ => rfl
  | .obj ((key, v) :: l), level, n + 1, rest, hv, hn, _ => by
    obtain ⟨hnodup, hv, hl⟩ := hv
    simp only [dumpIndent, List.length_cons, List.length_append] at hn
    have hpos := length_dumpIndent_pos (level + 1) hv
    have hbreak : 0 < (lineBreak (level + 1)).length := Nat.succ_pos _
    obtain ⟨n, rfl⟩ : ∃ k, n = k + 1 := ⟨n - 1, by omega⟩
    have hfirst := scanValue_dumpIndent v (level + 1) n (dumpMembers fl level l ++ rest) hv
      (by omega) (ended_dumpMembers level l rest)
    have hmembers := scanMembers_dumpMembers l key v level n rest hv hl (by omega) hfirst
    have hskip : ∀ t, skipWhite (dumpsStr key ++ t) = dumpsStr key ++ t := fun _ => rfl
    have hopen : ∀ t, (dumpsStr key ++ t).head? ≠ some '}' := by
      intro t
      simp [dumpsStr]
    simp only [dumpIndent, List.cons_append, List.append_assoc, List.nil_append] at hmembers ⊢
    rw [scanValue, if_neg (by decide), if_neg (by decide), if_pos rfl, skipWhite_lineBreak, hskip,
      if_neg (hopen _), hmembers, Option.map_some, ofMembers_of_nodup hnodup]

theorem scanItems_dumpItems : ∀ (l : List Json) (v : Json) (level n : Nat) (rest : Text),
    HeldItems fl l → (dumpItems fl level l).length ≤ n →
    scanValue fl n (dumpIndent fl (level + 1) v ++ (dumpItems fl level l ++ rest)) =
      some (v, dumpItems fl level l ++ rest) →
    scanItems fl (n + 1) (dumpIndent fl (level + 1) v ++ (dumpItems fl level l ++ rest)) =
      some (v :: l, rest)
  | [], v, level, n, rest, _, _, hread => by
    have hclose := scanMark_close ']' level rest (by decide) (by decide)
    rw [scanItems, hread]
    simp only [dumpItems, List.append_assoc, List.cons_append, List.nil_append,
      Option.bind_eq_bind, Option.bind_some, hclose]
    rfl
  | w :: l, v, level, n, rest, hl, hn, hread => by
    obtain ⟨hw, hl⟩ := hl
    simp only [dumpItems, List.length_cons, List.length_append] at hn
    have hpos := length_dumpIndent_pos (level + 1) hw
    obtain ⟨n, rfl⟩ : ∃ k, n = k + 1 := ⟨n - 1, by omega⟩
    have hfirst := scanValue_dumpIndent w (level + 1) n (dumpItems fl level l ++ rest) hw
      (by omega) (ended_dumpItems level l rest)
    have hitems := scanItems_dumpItems l w level n rest hl (by omega) hfirst
    have hnext := scanMark_next ']' (level + 1)
      (skipWhite_dumpIndent (level + 1) hw (dumpItems fl level l ++ rest))
    rw [scanItems, hread]
    simp only [dumpItems, List.append_assoc, List.cons_append, Option.bind_eq_bind,
      Option.bind_some, hnext, if_true, hitems, Option.map_some]

theorem scanMembers_dumpMembers : ∀ (l : List (Text × Json)) (key : Text) (v : Json)
    (level n : Nat) (rest : Text), v.Held fl → HeldMembers fl l →
    (dumpMembers fl level l).length ≤ n →
    scanValue fl n (dumpIndent fl (level + 1) v ++ (dumpMembers fl level l ++ rest)) =
      some (v, dumpMembers fl level l ++ rest) →
    scanMembers fl (n + 1) (dumpsStr key ++ ([':', ' '] ++
      (dumpIndent fl (level + 1) v ++ (dumpMembers fl level l ++ rest)))) =
      some ((key, v) :: l, rest)
  | [], key, v, level, n, rest, hv, _, _, hread => by
    have hclose := scanMark_close '}' level rest (by decide) (by decide)
    rw [scanMembers, scanKey_colon key (skipWhite_dumpIndent _ hv _)]
    simp only [Option.bind_eq_bind, Option.bind_some, hread]
    simp only [dumpMembers, List.append_assoc, List.cons_append, List.nil_append,
      Option.bind_some, hclose]
    rfl
  | (next, w) :: l, key, v, level, n, rest, hv, hl, hn, hread => by
    obtain ⟨hw, hl⟩ := hl
    simp only [dumpMembers, List.length_cons, List.length_append] at hn
    have hpos := length_dumpIndent_pos (level + 1) hw
    obtain ⟨n, rfl⟩ : ∃ k, n = k + 1 := ⟨n - 1, by omega⟩
    have hfirst := scanValue_dumpIndent w (level + 1) n (dumpMembers fl level l ++ rest) hw
      (by omega) (ended_dumpMembers level l rest)
    have hmembers := scanMembers_dumpMembers l next w level n rest hw hl (by omega) hfirst
    have hskip : ∀ t, skipWhite (dumpsStr next ++ t) = dumpsStr next ++ t := fun _ => rfl
    have hnext : ∀ t, scanMark '}' (',' :: (lineBreak (level + 1) ++ (dumpsStr next ++ t))) =
        some (true, dumpsStr next ++ t) := fun t => scanMark_next '}' (level + 1) (hskip t)
    rw [scanMembers, scanKey_colon key (skipWhite_dumpIndent _ hv _)]
    simp only [Option.bind_eq_bind, Option.bind_some, hread]
    simp only [dumpMembers, List.append_assoc, List.cons_append, Option.bind_some, hnext,
      if_true]
    simp only [List.cons_append, List.nil_append] at hmembers ⊢
    simp only [hmembers, Option.map_some]

end

/-- `json.loads(json.dumps(value, indent=2))` is the value. -/
theorem loads_dumpIndent {v : Json} (h : v.Held fl) : loads fl (dumpIndent fl 0 v) = some v := by
  have hread := scanValue_dumpIndent v 0 ((dumpIndent fl 0 v).length + 1) [] h (by omega) .nil
  have hskip := skipWhite_dumpIndent 0 h []
  rw [List.append_nil] at hread hskip
  rw [loads, hskip, hread]
  rfl

/-! ## The order of the keys -/

theorem keys_sortMembers (l : List (Text × Json)) :
    (sortMembers l).map Prod.fst = l.map Prod.fst := by
  induction l with
  | nil => rfl
  | cons m l ih => exact congrArg (m.1 :: ·) ih

theorem perm_sorted (l : List (Text × Json)) :
    ((sortMembers l).insertionSort fun a b => a.1 ≤ b.1).Perm (sortMembers l) :=
  List.perm_insertionSort _ _

theorem heldMembers_iff {l : List (Text × Json)} :
    HeldMembers fl l ↔ ∀ m ∈ l, m.2.Held fl := by
  induction l with
  | nil => simp [HeldMembers]
  | cons m l ih => simp [HeldMembers, ih]

mutual

theorem Held.sortKeys : ∀ v : Json, v.Held fl → v.sortKeys.Held fl
  | .null, h => h
  | .bool _, h => h
  | .int _, h => h
  | .float _, h => h
  | .str _, h => h
  | .arr l, h => HeldItems.sortItems l h
  | .obj l, h => by
    have hperm := perm_sorted l
    refine ⟨?_, ?_⟩
    · rw [(hperm.map Prod.fst).nodup_iff, keys_sortMembers]
      exact h.1
    · have hmembers := heldMembers_iff.mp (HeldMembers.sortMembers l h.2)
      exact heldMembers_iff.mpr fun m hm => hmembers m (hperm.mem_iff.mp hm)

theorem HeldItems.sortItems : ∀ l : List Json, HeldItems fl l → HeldItems fl (sortItems l)
  | [], h => h
  | v :: l, h => ⟨Held.sortKeys v h.1, HeldItems.sortItems l h.2⟩

theorem HeldMembers.sortMembers : ∀ l : List (Text × Json), HeldMembers fl l →
    HeldMembers fl (sortMembers l)
  | [], h => h
  | (_, v) :: l, h => ⟨Held.sortKeys v h.1, HeldMembers.sortMembers l h.2⟩

end

theorem lookup_sortMembers (l : List (Text × Json)) (key : Text) :
    lookup (sortMembers l) key = (lookup l key).map sortKeys := by
  induction l with
  | nil => rfl
  | cons m l ih =>
    by_cases h : m.1 = key
    · simp [lookup, sortMembers, List.find?, h]
    · simpa [lookup, sortMembers, List.find?, h] using ih

/-- Where no key comes twice, the order of the members is of no account. -/
theorem lookup_perm {l l' : List (Text × Json)} (hperm : l.Perm l')
    (h : (l.map Prod.fst).Nodup) (key : Text) : lookup l key = lookup l' key := by
  have h' : (l'.map Prod.fst).Nodup := (hperm.map Prod.fst).nodup_iff.mp h
  refine Option.ext fun v => ?_
  have hl : (key, v) ∈ l ↔ lookup l key = some v := Dict.mem_items_iff (d := ⟨l, h⟩)
  have hl' : (key, v) ∈ l' ↔ lookup l' key = some v := Dict.mem_items_iff (d := ⟨l', h'⟩)
  rw [← hl, ← hl', hperm.mem_iff]

/-- What is found under a key in a sorted dictionary is the sorted value. -/
theorem lookup_sorted {l : List (Text × Json)} (h : (l.map Prod.fst).Nodup) (key : Text) :
    lookup ((sortMembers l).insertionSort fun a b => a.1 ≤ b.1) key =
      (lookup l key).map sortKeys := by
  rw [← lookup_sortMembers]
  refine lookup_perm (perm_sorted l) ?_ key
  rwa [((perm_sorted l).map Prod.fst).nodup_iff, keys_sortMembers]

/-! ## What is written -/

/-- Lines of printable ASCII. -/
def Lines (t : Text) : Prop := ∀ c ∈ t, c = '\n' ∨ (32 ≤ c.toNat ∧ c.toNat ≤ 126)

theorem Lines.of_printable {t : Text} (h : Printable t) : Lines t := fun c hc => .inr (h c hc)

theorem Lines.append {t u : Text} (ht : Lines t) (hu : Lines u) : Lines (t ++ u) := by
  intro c hc
  exact (List.mem_append.mp hc).elim (ht c) (hu c)

theorem Lines.cons {c : Char} {t : Text} (hc : 32 ≤ c.toNat ∧ c.toNat ≤ 126) (ht : Lines t) :
    Lines (c :: t) :=
  List.forall_mem_cons.mpr ⟨.inr hc, ht⟩

theorem lines_lineBreak (level : Nat) : Lines (lineBreak level) := by
  refine List.forall_mem_cons.mpr ⟨.inl rfl, fun c hc => ?_⟩
  rw [List.eq_of_mem_replicate hc]
  exact .inr (by decide)

/-- A key, its colon and what follows. -/
theorem Lines.member {key t : Text} (h : Lines t) :
    Lines (dumpsStr key ++ ([':', ' '] ++ t)) :=
  (Lines.of_printable (dumpsStr_printable key)).append
    (.cons (by decide) (.cons (by decide) h))

mutual

theorem lines_dumpIndent (fl : Floats) : ∀ (v : Json) (level : Nat),
    Lines (dumpIndent fl level v)
  | .null, _ => .of_printable (dumps_printable fl .null)
  | .bool b, _ => .of_printable (dumps_printable fl (.bool b))
  | .int i, _ => .of_printable (dumps_printable fl (.int i))
  | .float q, _ => .of_printable (dumps_printable fl (.float q))
  | .str t, _ => .of_printable (dumps_printable fl (.str t))
  | .arr [], _ => .of_printable (dumps_printable fl (.arr []))
  | .arr (v :: l), level => .cons (by decide) ((lines_lineBreak _).append
      ((lines_dumpIndent fl v (level + 1)).append (lines_dumpItems fl l level)))
  | .obj [], _ => .of_printable (dumps_printable fl (.obj []))
  | .obj ((_, v) :: l), level => .cons (by decide) ((lines_lineBreak _).append
      (.member ((lines_dumpIndent fl v (level + 1)).append (lines_dumpMembers fl l level))))

theorem lines_dumpItems (fl : Floats) : ∀ (l : List Json) (level : Nat),
    Lines (dumpItems fl level l)
  | [], level => (lines_lineBreak level).append (.cons (by decide) nofun)
  | v :: l, level => .cons (by decide) ((lines_lineBreak _).append
      ((lines_dumpIndent fl v (level + 1)).append (lines_dumpItems fl l level)))

theorem lines_dumpMembers (fl : Floats) : ∀ (l : List (Text × Json)) (level : Nat),
    Lines (dumpMembers fl level l)
  | [], level => (lines_lineBreak level).append (.cons (by decide) nofun)
  | (_, v) :: l, level => .cons (by decide) ((lines_lineBreak _).append
      (.member ((lines_dumpIndent fl v (level + 1)).append (lines_dumpMembers fl l level))))

end

end Json
