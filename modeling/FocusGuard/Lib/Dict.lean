import Mathlib.Algebra.GroupWithZero.Nat
import Mathlib.Data.List.Nodup
import Mathlib.Data.List.Perm.Basic

/-!
# Dictionaries in insertion order

A dictionary keeps its items in the order in which their keys were first set. Setting a key that is
there replaces its value in place; a key that was removed and is set again comes last.
-/

/-- Items with distinct keys. -/
structure Dict (K V : Type) where
  items : List (K × V)
  nodup : (items.map Prod.fst).Nodup

namespace Dict

variable {K V : Type} [DecidableEq K]

def empty : Dict K V := ⟨[], List.nodup_nil⟩

def keys (d : Dict K V) : List K := d.items.map Prod.fst

/-- `d.get(k)`. -/
def get? (d : Dict K V) (k : K) : Option V := (d.items.find? fun item => item.1 = k).map Prod.snd

/-- The item under its key, in its place or behind the others. -/
def put (k : K) (v : V) : List (K × V) → List (K × V)
  | [] => [(k, v)]
  | item :: items => if item.1 = k then (k, v) :: items else item :: put k v items

/-- The keys that `p` does not hold of are deleted. -/
def filter (p : K → Bool) (d : Dict K V) : Dict K V where
  items := d.items.filter fun item => p item.1
  nodup := d.nodup.sublist (List.filter_sublist.map Prod.fst)

variable {d : Dict K V} {k k' : K} {v : V} {items : List (K × V)} {p : K → Bool}

theorem keys_put : (put k v items).map Prod.fst =
    if k ∈ items.map Prod.fst then items.map Prod.fst else items.map Prod.fst ++ [k] := by
  induction items with
  | nil => simp [put]
  | cons item items ih =>
    by_cases h : item.1 = k
    · simp [put, h]
    · have h' : k ≠ item.1 := Ne.symm h
      simp only [put, if_neg h, List.map_cons, ih, List.mem_cons, h', false_or]
      split
      · rfl
      · rfl

theorem nodup_put (h : (items.map Prod.fst).Nodup) : ((put k v items).map Prod.fst).Nodup := by
  rw [keys_put]
  split
  · exact h
  · next hk => exact List.nodup_append.mpr ⟨h, List.nodup_singleton k, by grind⟩

/-- `d[k] = v`. -/
def set (d : Dict K V) (k : K) (v : V) : Dict K V := ⟨put k v d.items, nodup_put d.nodup⟩

/-! ## Lookups -/

@[simp] theorem get?_empty : (empty : Dict K V).get? k = none := rfl

theorem mem_items_iff : (k, v) ∈ d.items ↔ d.get? k = some v := by
  obtain ⟨items, hnodup⟩ := d
  induction items with
  | nil => simp [get?]
  | cons item items ih =>
    obtain ⟨hnot, hrest⟩ := List.nodup_cons.mp hnodup
    have hih := ih hrest
    simp only [get?] at hih ⊢
    by_cases h : item.1 = k
    · rw [List.find?_cons_of_pos (by simpa using h), Option.map_some, Option.some.injEq]
      constructor
      · intro hm
        rcases List.mem_cons.mp hm with rfl | hm
        · rfl
        · exact absurd (h ▸ List.mem_map_of_mem hm : item.1 ∈ _) hnot
      · rintro rfl
        rw [← h]
        exact List.mem_cons_self
    · have hne : (k, v) ≠ item := fun heq => h (by rw [← heq])
      rw [List.find?_cons_of_neg (by simpa using h), List.mem_cons, or_iff_right hne]
      exact hih

theorem get?_put : ((put k v items).find? fun item => item.1 = k').map Prod.snd =
    if k' = k then some v else (items.find? fun item => item.1 = k').map Prod.snd := by
  induction items with
  | nil =>
    simp only [put, List.find?_cons]
    grind
  | cons item items ih =>
    by_cases h : item.1 = k
    · simp only [put, if_pos h, List.find?_cons]
      grind
    · simp only [put, if_neg h, List.find?_cons]
      grind

theorem get?_set : (d.set k v).get? k' = if k' = k then some v else d.get? k' := get?_put

@[simp] theorem get?_set_self : (d.set k v).get? k = some v := by
  rw [get?_set, if_pos rfl]

theorem get?_filter : (d.filter p).get? k = if p k then d.get? k else none := by
  obtain ⟨items, hnodup⟩ := d
  simp only [get?, filter, List.find?_filter]
  by_cases h : p k = true
  · rw [if_pos h]
    congr 2
    funext item
    by_cases hk : item.1 = k
    · simp [hk, h]
    · simp [hk]
  · rw [if_neg h, Option.map_eq_none_iff, List.find?_eq_none]
    grind

omit [DecidableEq K] in
theorem keys_filter : (d.filter p).keys = d.keys.filter p := by
  simp [keys, filter, List.filter_map, Function.comp_def]

omit [DecidableEq K] in
theorem ext_items {d' : Dict K V} (h : d.items = d'.items) : d = d' := by
  cases d
  cases d'
  congr

omit [DecidableEq K] in
theorem filter_filter {q : K → Bool} : (d.filter p).filter q = d.filter fun k => q k && p k :=
  ext_items List.filter_filter

omit [DecidableEq K] in
theorem filter_eq_self (h : ∀ k ∈ d.keys, p k = true) : d.filter p = d :=
  ext_items (List.filter_eq_self.mpr fun _ hm => h _ (List.mem_map_of_mem hm))

/-! ## Sums over the values -/

/-- Setting a new key adds its value; setting one that is there exchanges it. -/
theorem sum_set (f : V → Nat) : ((d.set k v).items.map fun item => f item.2).sum +
    ((d.get? k).map f).getD 0 = (d.items.map fun item => f item.2).sum + f v := by
  obtain ⟨items, hnodup⟩ := d
  simp only [set, get?]
  clear hnodup
  induction items with
  | nil => simp [put]
  | cons item items ih =>
    by_cases h : item.1 = k
    · simp [put, h]
      omega
    · simp only [put, if_neg h, List.map_cons, List.sum_cons]
      rw [List.find?_cons_of_neg (by simpa using h)]
      omega

end Dict
