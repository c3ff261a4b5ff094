import FocusGuard.Lib.Json
import Mathlib.Data.List.Dedup
import Mathlib.Data.List.Sort
import Mathlib.Data.Rat.Lemmas

/-!
# Sets of JSON values

Of the values that `json.loads` produces only scalars can be hashed. In a set a truth value is the
number it stands for. A set can be sorted when its values can be compared with one another: when
they are all texts, or all numbers, or when there is at most one.

## Main results

* `Scalar.sorted?_isSome_iff`: which sets can be sorted.
* `Scalar.mem_sorted?`: sorting keeps the values.
-/

/-- A value that can be hashed, up to `==`. -/
inductive Scalar where
  | null
  | num (q : ℚ)
  | str (t : Text)
  deriving DecidableEq

/-- Where only one value is taken for `b`, a filter finds `b` when it finds that value. -/
theorem mem_filterMap_of_iff {α β : Type} {f : α → Option β} {a : α} {b : β} {l : List α}
    (h : ∀ v, f v = some b ↔ v = a) : b ∈ l.filterMap f ↔ a ∈ l := by
  simp [List.mem_filterMap, h]

namespace Scalar

def text? : Scalar → Option Text
  | .str t => some t
  | _ => none

def num? : Scalar → Option ℚ
  | .num q => some q
  | _ => none

/-- All texts, all numbers, or nothing but `None`. -/
def OneKind (s : List Scalar) : Prop :=
  (∀ v ∈ s, ∃ t, v = .str t) ∨ (∀ v ∈ s, ∃ q, v = .num q) ∨ ∀ v ∈ s, v = .null

/-- `sorted(s)` for the set of the values; `none` is a `TypeError`. -/
def sorted? (s : List Scalar) : Option (List Scalar) :=
  if s.all fun v => v.text?.isSome then some ((Text.sorted (s.filterMap text?)).map .str)
  else if s.all fun v => v.num?.isSome then
    some (((s.filterMap num?).dedup.insertionSort (· ≤ ·)).map .num)
  else if s.dedup.length ≤ 1 then some s.dedup
  else none

variable {s l : List Scalar} {v : Scalar}

theorem text?_isSome_iff : v.text?.isSome = true ↔ ∃ t, v = .str t := by
  cases v <;> simp [text?]

theorem num?_isSome_iff : v.num?.isSome = true ↔ ∃ q, v = .num q := by
  cases v <;> simp [num?]

theorem mem_filterMap_text? {t : Text} : t ∈ s.filterMap text? ↔ .str t ∈ s :=
  mem_filterMap_of_iff fun v => by cases v <;> simp [text?]

theorem mem_filterMap_num? {q : ℚ} : q ∈ s.filterMap num? ↔ .num q ∈ s :=
  mem_filterMap_of_iff fun v => by cases v <;> simp [num?]

@[simp] theorem filterMap_text?_map (l : List Text) : (l.map Scalar.str).filterMap text? = l := by
  simp [List.filterMap_map, Function.comp_def, text?]

/-- Sorting keeps the values. -/
theorem mem_sorted? (h : sorted? s = some l) : v ∈ l ↔ v ∈ s := by
  unfold sorted? at h
  split at h
  · next htext =>
    simp only [List.all_eq_true, text?_isSome_iff] at htext
    cases h
    simp only [List.mem_map, Text.mem_sorted, mem_filterMap_text?]
    constructor
    · rintro ⟨t, ht, rfl⟩
      exact ht
    · intro hv
      obtain ⟨t, rfl⟩ := htext v hv
      exact ⟨t, hv, rfl⟩
  · split at h
    · next hnum =>
      simp only [List.all_eq_true, num?_isSome_iff] at hnum
      cases h
      simp only [List.mem_map, List.mem_insertionSort, List.mem_dedup, mem_filterMap_num?]
      constructor
      · rintro ⟨q, hq, rfl⟩
        exact hq
      · intro hv
        obtain ⟨q, rfl⟩ := hnum v hv
        exact ⟨q, hv, rfl⟩
    · split at h
      · cases h
        exact List.mem_dedup
      · cases h

/-- A set with at most one value. -/
theorem length_dedup_le_one_iff : s.dedup.length ≤ 1 ↔ ∀ v ∈ s, ∀ w ∈ s, v = w := by
  constructor
  · intro hlen v hv w hw
    rw [← List.mem_dedup] at hv hw
    generalize s.dedup = l at hlen hv hw
    match l with
    | [] => cases hv
    | [a] => rw [List.mem_singleton.mp hv, List.mem_singleton.mp hw]
    | a :: b :: l => simp at hlen
  · intro hall
    have hnodup := List.nodup_dedup s
    have hmem : ∀ v ∈ s.dedup, v ∈ s := fun v => List.mem_dedup.mp
    generalize s.dedup = l at hnodup hmem
    match l with
    | [] => simp
    | [a] => simp
    | a :: b :: l =>
      have heq := hall a (hmem a (by simp)) b (hmem b (by simp))
      simp [heq] at hnodup

/-- Sets of one kind can be sorted, and no others. -/
theorem sorted?_isSome_iff : (∃ l, sorted? s = some l) ↔ OneKind s := by
  unfold sorted?
  by_cases htext : ∀ v ∈ s, ∃ t, v = .str t
  · rw [if_pos (by simpa [text?_isSome_iff] using htext)]
    exact ⟨fun _ => .inl htext, fun _ => ⟨_, rfl⟩⟩
  rw [if_neg (by simpa [text?_isSome_iff] using htext)]
  by_cases hnum : ∀ v ∈ s, ∃ q, v = .num q
  · rw [if_pos (by simpa [num?_isSome_iff] using hnum)]
    exact ⟨fun _ => .inr (.inl hnum), fun _ => ⟨_, rfl⟩⟩
  rw [if_neg (by simpa [num?_isSome_iff] using hnum)]
  by_cases hone : s.dedup.length ≤ 1
  · rw [if_pos hone]
    refine ⟨fun _ => .inr (.inr fun v hv => ?_), fun _ => ⟨_, rfl⟩⟩
    -- the one value is neither a text nor a number
    have hall := fun w hw => length_dedup_le_one_iff.mp hone w hw v hv
    cases v with
    | null => rfl
    | num q => exact absurd (fun w hw => ⟨q, hall w hw⟩) hnum
    | str t => exact absurd (fun w hw => ⟨t, hall w hw⟩) htext
  · rw [if_neg hone]
    refine ⟨fun ⟨_, h⟩ => (Option.some_ne_none _ h.symm).elim, ?_⟩
    rintro (h | h | h)
    · exact absurd h htext
    · exact absurd h hnum
    · exact absurd (length_dedup_le_one_iff.mpr fun v hv w hw => by rw [h v hv, h w hw]) hone

theorem sorted?_map_str (l : List Text) :
    sorted? (l.map .str) = some ((Text.sorted l).map .str) := by
  have htext : (l.map Scalar.str).all fun v => v.text?.isSome := by simp [text?]
  rw [sorted?, if_pos htext, filterMap_text?_map]

end Scalar

namespace Json

/-- The value as a member of a set; `none` is the `TypeError` of an unhashable one. -/
def scalar? : Json → Option Scalar
  | .null => some .null
  | .bool b => some (.num (if b then 1 else 0))
  | .int n => some (.num n)
  | .float q => some (.num q)
  | .str t => some (.str t)
  | _ => none

/-- `set(x)`; `none` is a `TypeError`. -/
def set? (x : Json) : Option (List Scalar) := x.elements?.bind fun l => l.mapM scalar?

/-- The elements of a value that a loop visits and takes for texts. -/
def names? (x : Json) : Option (List Text) := x.elements?.bind fun l => l.mapM text?

/-- `len(x)`; `none` is a `TypeError`. -/
def len? (x : Json) : Option Nat := x.elements?.map List.length

@[simp] theorem set?_ofTexts (l : List Text) : (ofTexts l).set? = some (l.map .str) := by
  have h : (l.map Json.str).mapM scalar? = some (l.map .str) := by
    induction l with
    | nil => rfl
    | cons a l ih => simp [List.mapM_cons, ih, scalar?]
  simpa [set?, ofTexts, elements?] using h

@[simp] theorem names?_ofTexts (l : List Text) : (ofTexts l).names? = some l :=
  texts?_ofTexts l

@[simp] theorem len?_ofTexts (l : List Text) : (ofTexts l).len? = some l.length := by
  simp [len?, ofTexts, elements?]

@[simp] theorem filterMap_text?_map (l : List Text) : (l.map str).filterMap text? = l := by
  simp [List.filterMap_map, Function.comp_def, text?]

theorem mem_filterMap_text? {l : List Json} {t : Text} : t ∈ l.filterMap text? ↔ .str t ∈ l :=
  mem_filterMap_of_iff fun v => by cases v <;> simp [text?]

end Json
