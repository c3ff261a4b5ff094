import FocusGuard.Lib.Dict
import Mathlib.Order.Lattice

/-!
# Evicting the first of a dictionary

A bounded table makes room by dropping the entries that come first in some order of their values,
such as the time of their last use.

## Main results

* `Dict.length_dropFirst`: how many entries are left.
* `Dict.rank_le_of_dropped`: no entry that is dropped comes after one that is kept.
-/

namespace Dict

variable {K V R : Type} [DecidableEq K] [LinearOrder R] {d : Dict K V} {rank : V → R} {n : Nat}
  {k k' : K} {v v' : V}

/-! ## Keys -/

omit [LinearOrder R] in
theorem mem_keys_iff : k ∈ d.keys ↔ ∃ v, d.get? k = some v := by
  constructor
  · intro h
    obtain ⟨item, hitem, rfl⟩ := List.mem_map.mp h
    exact ⟨item.2, mem_items_iff.mp hitem⟩
  · rintro ⟨v, h⟩
    exact List.mem_map_of_mem (mem_items_iff.mpr h)

theorem length_set :
    (d.set k v).items.length = if k ∈ d.keys then d.items.length else d.items.length + 1 := by
  have hkeys : ((put k v d.items).map Prod.fst).length = _ := congrArg List.length keys_put
  rw [List.length_map] at hkeys
  refine hkeys.trans ?_
  rw [keys]
  split
  · exact List.length_map _
  · simp

omit [DecidableEq K] in
theorem length_filter_le (p : K → Bool) : (d.filter p).items.length ≤ d.items.length :=
  List.length_filter_le _ _

omit [DecidableEq K] in
/-- A dictionary that loses a key gets shorter. -/
theorem length_filter_lt {p : K → Bool} (hk : k ∈ d.keys) (hp : p k = false) :
    (d.filter p).items.length < d.items.length := by
  obtain ⟨item, hitem, rfl⟩ := List.mem_map.mp hk
  exact List.length_filter_lt_length_iff_exists.mpr ⟨item, hitem, by simpa using hp⟩

/-! ## Dropping the first -/

/-- The items in the order of their values; where two have the same rank they stay in their
order. -/
def ranked (rank : V → R) (d : Dict K V) : List (K × V) :=
  d.items.mergeSort fun a b => rank a.2 ≤ rank b.2

/-- The dictionary without the first `n` items in the order of their values. -/
def dropFirst (rank : V → R) (n : Nat) (d : Dict K V) : Dict K V :=
  d.filter fun k => k ∉ ((d.ranked rank).map Prod.fst).take n

omit [DecidableEq K] in
theorem ranked_perm (rank : V → R) (d : Dict K V) : (d.ranked rank).Perm d.items :=
  List.mergeSort_perm _ _

omit [DecidableEq K] in
theorem ranked_pairwise (rank : V → R) (d : Dict K V) :
    (d.ranked rank).Pairwise fun a b => rank a.2 ≤ rank b.2 := by
  have htrans : ∀ a b c : K × V, decide (rank a.2 ≤ rank b.2) = true →
      decide (rank b.2 ≤ rank c.2) = true → decide (rank a.2 ≤ rank c.2) = true := by
    intro a b c hab hbc
    rw [decide_eq_true_eq] at hab hbc ⊢
    exact hab.trans hbc
  have htotal : ∀ a b : K × V,
      (decide (rank a.2 ≤ rank b.2) || decide (rank b.2 ≤ rank a.2)) = true := by
    intro a b
    simpa using le_total (rank a.2) (rank b.2)
  exact (List.pairwise_mergeSort htrans htotal d.items).imp fun h => by simpa using h

omit [DecidableEq K] in
theorem nodup_ranked : ((d.ranked rank).map Prod.fst).Nodup :=
  ((ranked_perm rank d).map Prod.fst).nodup_iff.mpr d.nodup

/-- Without the first `n` keys the items behind them are left. -/
theorem filter_notMem_take {items : List (K × V)} (h : (items.map Prod.fst).Nodup) (n : Nat) :
    (items.filter fun item => item.1 ∉ (items.map Prod.fst).take n) = items.drop n := by
  induction items generalizing n with
  | nil => simp
  | cons item items ih =>
    obtain ⟨hnot, hrest⟩ := List.nodup_cons.mp h
    cases n with
    | zero => simp
    | succ n =>
      rw [List.drop_succ_cons, ← ih hrest, List.map_cons, List.take_succ_cons,
        List.filter_cons_of_neg (by simp)]
      refine List.filter_congr fun other hother => ?_
      have hne : other.1 ≠ item.1 := fun heq => hnot (heq ▸ List.mem_map_of_mem hother)
      simp [hne]

/-- What is kept are the items behind the first `n`. -/
theorem dropFirst_perm : (d.dropFirst rank n).items.Perm ((d.ranked rank).drop n) := by
  rw [← filter_notMem_take nodup_ranked n]
  exact ((ranked_perm rank d).filter _).symm

theorem length_dropFirst (h : n ≤ d.items.length) :
    (d.dropFirst rank n).items.length + n = d.items.length := by
  have hlength := (ranked_perm rank d).length_eq
  rw [dropFirst_perm.length_eq, List.length_drop]
  omega

/-- No item that is dropped comes after one that is kept. -/
theorem rank_le_of_dropped (hk : d.get? k = some v) (hdropped : (d.dropFirst rank n).get? k = none)
    (hk' : (d.dropFirst rank n).get? k' = some v') : rank v ≤ rank v' := by
  have hmem : (k, v) ∈ (d.ranked rank).take n ++ (d.ranked rank).drop n := by
    rw [List.take_append_drop]
    exact (ranked_perm rank d).mem_iff.mpr (mem_items_iff.mpr hk)
  have hnot : (k, v) ∉ (d.ranked rank).drop n := by
    intro h
    rw [mem_items_iff.mp (dropFirst_perm.mem_iff.mpr h)] at hdropped
    cases hdropped
  have hmem' := dropFirst_perm.mem_iff.mp (mem_items_iff.mpr hk')
  have hsorted := ranked_pairwise rank d
  rw [← List.take_append_drop n (d.ranked rank)] at hsorted
  exact (List.pairwise_append.mp hsorted).2.2 _ ((List.mem_append.mp hmem).resolve_right hnot) _
    hmem'

end Dict
