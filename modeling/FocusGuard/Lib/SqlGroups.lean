import Mathlib.Algebra.BigOperators.Group.List.Basic
import Mathlib.Algebra.GroupWithZero.Nat
import Mathlib.Data.List.Dedup

/-!
# Grouped rows

What a database answers to `SELECT k, COUNT(*) GROUP BY k ORDER BY COUNT(*) DESC LIMIT n`. In
which order it visits the groups, and so which of several groups of one size come first, is its own
choice.

## Main definitions

* `groupsBy`, `largest`: the groups, and the largest ones of them.
* `Ranking`: a list of the most frequent keys, whatever it was computed with.

## Main results

* `ranking_largest`: the largest groups are such a list.
* `sum_groupsBy`: what is counted group by group is counted over all rows.
-/

namespace SqlGroups

/-- The order in which a database visits groups, given their keys. -/
structure GroupOrder (K : Type) where
  visit : List K → List K
  perm : ∀ keys, (visit keys).Perm keys

variable {R K : Type} [DecidableEq K]

/-- `GROUP BY key`. -/
def groupsBy (order : GroupOrder K) (key : R → K) (rows : List R) : List (K × List R) :=
  (order.visit (rows.map key).dedup).map fun k => (k, rows.filter fun r => key r = k)

/-- `ORDER BY COUNT(*) DESC LIMIT n`. -/
def largest (n : Nat) (groups : List (K × List R)) : List (K × List R) :=
  (groups.mergeSort fun g h => h.2.length ≤ g.2.length).take n

/-- The most frequent keys with their counts, at most `n` and the most frequent ones first. -/
structure Ranking (n : Nat) (count : K → Nat) (top : List (K × Nat)) : Prop where
  nodup : (top.map Prod.fst).Nodup
  counted : ∀ entry ∈ top, entry.2 = count entry.1 ∧ 0 < entry.2
  sorted : top.Pairwise fun entry later => later.2 ≤ entry.2
  length_le : top.length ≤ n
  /-- A key is missing only where all `n` places are taken, by keys not less frequent. -/
  missing : ∀ k, k ∉ top.map Prod.fst → 0 < count k →
    top.length = n ∧ ∀ entry ∈ top, count k ≤ entry.2

variable {order : GroupOrder K} {key : R → K} {rows : List R} {n : Nat} {g : K × List R}

/-! ## Groups -/

theorem mem_groupsBy : g ∈ groupsBy order key rows ↔
    g.1 ∈ rows.map key ∧ g.2 = rows.filter fun r => key r = g.1 := by
  obtain ⟨k, group⟩ := g
  simp only [groupsBy, List.mem_map, (order.perm _).mem_iff, List.mem_dedup, Prod.mk.injEq]
  constructor
  · rintro ⟨k', hk', rfl, hgroup⟩
    exact ⟨hk', hgroup.symm⟩
  · rintro ⟨hk, hgroup⟩
    exact ⟨k, hk, rfl, hgroup.symm⟩

theorem nodup_groupsBy (order : GroupOrder K) (key : R → K) (rows : List R) :
    ((groupsBy order key rows).map Prod.fst).Nodup := by
  have hkeys : (groupsBy order key rows).map Prod.fst = order.visit (rows.map key).dedup := by
    simp [groupsBy, Function.comp_def]
  rw [hkeys]
  exact (order.perm _).nodup_iff.mpr (List.nodup_dedup _)

/-- Rows with distinct keys `keys` are counted key by key. -/
theorem sum_countP {keys : List K} (hkeys : keys.Nodup) (p : R → Bool) :
    (keys.map fun k => rows.countP fun r => key r = k ∧ p r).sum =
      rows.countP fun r => key r ∈ keys ∧ p r := by
  induction keys with
  | nil => simp
  | cons k keys ih =>
    obtain ⟨hk, hkeys⟩ := List.nodup_cons.mp hkeys
    rw [List.map_cons, List.sum_cons, ih hkeys]
    clear ih hkeys
    induction rows with
    | nil => rfl
    | cons r rows ih =>
      simp only [List.countP_cons]
      have hapart : ¬ (key r = k ∧ key r ∈ keys) := fun h => hk (h.1 ▸ h.2)
      grind

theorem length_groupsBy (order : GroupOrder K) (key : R → K) (rows : List R) :
    (groupsBy order key rows).length = (rows.map key).dedup.length := by
  rw [groupsBy, List.length_map, (order.perm _).length_eq]

/-- Every row is in one group. -/
theorem sum_groupsBy (order : GroupOrder K) (key : R → K) (rows : List R) (p : R → Bool) :
    ((groupsBy order key rows).map fun g => g.2.countP p).sum = rows.countP p := by
  have hkeys : (order.visit (rows.map key).dedup).Nodup :=
    (order.perm _).nodup_iff.mpr (List.nodup_dedup _)
  rw [groupsBy, List.map_map]
  calc
    _ = ((order.visit (rows.map key).dedup).map fun k =>
          rows.countP fun r => key r = k ∧ p r).sum := by
        congr 1
        refine List.map_congr_left fun k _ => ?_
        simp [List.countP_filter, Bool.and_comm]
    _ = rows.countP fun r => key r ∈ order.visit (rows.map key).dedup ∧ p r := sum_countP hkeys p
    _ = rows.countP p := by
        refine List.countP_congr fun r hr => ?_
        have hkey : key r ∈ order.visit (rows.map key).dedup :=
          (order.perm _).mem_iff.mpr (List.mem_dedup.mpr (List.mem_map_of_mem hr))
        simp [hkey]

/-! ## The largest groups -/

section Largest

omit [DecidableEq K]

theorem largest_sublist (n : Nat) (groups : List (K × List R)) :
    ∃ rest, (largest n groups ++ rest).Perm groups ∧
      (largest n groups ++ rest).Pairwise fun g h => h.2.length ≤ g.2.length := by
  refine ⟨(groups.mergeSort fun g h => h.2.length ≤ g.2.length).drop n, ?_, ?_⟩
  · rw [largest, List.take_append_drop]
    exact List.mergeSort_perm _ _
  · rw [largest, List.take_append_drop]
    have hsorted : (groups.mergeSort fun g h => h.2.length ≤ g.2.length).Pairwise
        fun g h => decide (h.2.length ≤ g.2.length) = true := by
      refine List.pairwise_mergeSort (fun a b c hab hbc => ?_) (fun a b => ?_) groups
      · simp only [decide_eq_true_eq] at hab hbc ⊢
        exact Nat.le_trans hbc hab
      · simp only [Bool.or_eq_true, decide_eq_true_eq]
        exact Nat.le_total _ _
    exact hsorted.imp of_decide_eq_true

theorem mem_of_mem_largest {groups : List (K × List R)} (h : g ∈ largest n groups) : g ∈ groups :=
  List.mem_mergeSort.mp (List.mem_of_mem_take h)

theorem length_largest (groups : List (K × List R)) :
    (largest n groups).length = min n groups.length := by
  rw [largest, List.length_take, List.length_mergeSort]

/-- Where there are not more than `n` groups, all of them are listed. -/
theorem largest_perm {groups : List (K × List R)} (h : groups.length ≤ n) :
    (largest n groups).Perm groups := by
  rw [largest, List.take_of_length_le (by rwa [List.length_mergeSort])]
  exact List.mergeSort_perm _ _

end Largest

theorem ranking_largest (order : GroupOrder K) (key : R → K) (rows : List R) (n : Nat) :
    Ranking n (fun k => rows.countP fun r => key r = k)
      ((largest n (groupsBy order key rows)).map fun g => (g.1, g.2.length)) := by
  obtain ⟨rest, hperm, hsorted⟩ := largest_sublist n (groupsBy order key rows)
  obtain ⟨htop, -, hrest⟩ := List.pairwise_append.mp hsorted
  refine ⟨?_, ?_, List.pairwise_map.mpr htop, ?_, ?_⟩
  · have hnodup := ((hperm.map Prod.fst).nodup_iff).mpr (nodup_groupsBy order key rows)
    rw [List.map_append] at hnodup
    simpa [Function.comp_def] using hnodup.of_append_left
  · intro entry hentry
    obtain ⟨g, hg, rfl⟩ := List.mem_map.mp hentry
    obtain ⟨hkey, hgroup⟩ := mem_groupsBy.mp (mem_of_mem_largest hg)
    have hcount : g.2.length = rows.countP fun r => key r = g.1 := by
      rw [hgroup, List.countP_eq_length_filter]
    obtain ⟨r, hr, hk⟩ := List.mem_map.mp hkey
    exact ⟨hcount, hcount ▸ List.countP_pos_iff.mpr ⟨r, hr, decide_eq_true hk⟩⟩
  · rw [List.length_map, length_largest]
    exact Nat.min_le_left _ _
  · intro k hk hpos
    obtain ⟨r, hr, hkey⟩ := List.countP_pos_iff.mp hpos
    let g : K × List R := (k, rows.filter fun r => key r = k)
    have hg : g ∈ groupsBy order key rows :=
      mem_groupsBy.mpr ⟨List.mem_map.mpr ⟨r, hr, of_decide_eq_true hkey⟩, rfl⟩
    have hnot : g ∉ largest n (groupsBy order key rows) := fun h =>
      hk (List.mem_map.mpr ⟨_, List.mem_map.mpr ⟨g, h, rfl⟩, rfl⟩)
    have hdropped : g ∈ rest := (List.mem_append.mp (hperm.symm.subset hg)).resolve_left hnot
    constructor
    · have hlen := hperm.length_eq
      have hpos := List.length_pos_of_mem hdropped
      rw [List.length_append] at hlen
      rw [List.length_map]
      have := length_largest (n := n) (groupsBy order key rows)
      omega
    · intro entry hentry
      obtain ⟨h, hh, rfl⟩ := List.mem_map.mp hentry
      have hle := hrest h hh g hdropped
      rwa [List.countP_eq_length_filter]

end SqlGroups
