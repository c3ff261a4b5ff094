import FocusGuard.Lib.Eviction
import FocusGuard.Lib.Exec
import Mathlib.Data.List.DropRight

/-!
# Tables with automatic ids

A table of a relational database whose rows carry an id of their own. An id that was ever given is
not given again, so the order of the ids is the order in which the rows were inserted, also after
rows were deleted.

## Main results

* `SqlTable.selectDesc_eq`: a query by descending ids reads the rows backwards.
* `SqlTable.rows_keepNewest`: deleting what such a query returns from an offset on leaves the last
  rows.
-/

/-- A transaction: what is raised in it undoes it. -/
def Exec.transaction {ε σ α : Type} (m : Exec ε σ α) : Exec ε σ α := fun s => match m s with
  | (.ok a, t) => (.ok a, t)
  | (.error e, _) => (.error e, s)

/-- A table with an `INTEGER PRIMARY KEY AUTOINCREMENT`, and the last id it gave. -/
structure SqlTable (R : Type) where
  rows : List (Nat × R)
  lastId : Nat
  increasing : rows.Pairwise fun a b => a.1 < b.1
  bounded : ∀ row ∈ rows, row.1 ≤ lastId

namespace SqlTable

variable {R : Type}

def empty : SqlTable R := ⟨[], 0, .nil, nofun⟩

/-- `INSERT`. -/
def insert (r : R) (t : SqlTable R) : SqlTable R where
  rows := t.rows ++ [(t.lastId + 1, r)]
  lastId := t.lastId + 1
  increasing := by
    refine List.pairwise_append.mpr ⟨t.increasing, List.pairwise_singleton _ _, ?_⟩
    intro row hrow new hnew
    rw [List.mem_singleton.mp hnew]
    exact Nat.lt_succ_of_le (t.bounded row hrow)
  bounded := by
    intro row hrow
    rcases List.mem_append.mp hrow with hrow | hrow
    · exact Nat.le_succ_of_le (t.bounded row hrow)
    · rw [List.mem_singleton.mp hrow]

/-- `DELETE`, of the rows that satisfy `p`. -/
def delete (p : Nat × R → Bool) (t : SqlTable R) : SqlTable R where
  rows := t.rows.filter fun row => ¬ p row
  lastId := t.lastId
  increasing := t.increasing.sublist List.filter_sublist
  bounded row hrow := t.bounded row (List.mem_of_mem_filter hrow)

/-- `LIMIT limit`, where a negative limit is none. -/
def upTo {α : Type} (limit : Int) (l : List α) : List α :=
  if limit < 0 then l else l.take limit.toNat

/-- `SELECT`, of the rows that satisfy `p`, with `ORDER BY id DESC LIMIT limit OFFSET offset`, where
a negative offset is zero. -/
def selectDesc (p : R → Bool) (limit offset : Int) (t : SqlTable R) : List (Nat × R) :=
  let selected := (t.rows.filter fun row => p row.2).mergeSort fun a b => b.1 ≤ a.1
  upTo limit (selected.drop offset.toNat)

/-- `DELETE ... WHERE id IN (SELECT id ... ORDER BY id DESC LIMIT -1 OFFSET offset)`. -/
def keepNewest (offset : Int) (t : SqlTable R) : SqlTable R :=
  t.delete fun row => row.1 ∈ (t.selectDesc (fun _ => true) (-1) offset).map Prod.fst

/-- The rows without their ids, in the order in which they were inserted. -/
def values (t : SqlTable R) : List R := t.rows.map Prod.snd

variable {t : SqlTable R}

/-! ## Queries -/

theorem nodup_ids (t : SqlTable R) : (t.rows.map Prod.fst).Nodup :=
  List.pairwise_map.mpr (t.increasing.imp fun h => Nat.ne_of_lt h)

/-- Sorting the rows by descending ids reverses them. -/
theorem mergeSort_filter (p : Nat × R → Bool) :
    (t.rows.filter p).mergeSort (fun a b => b.1 ≤ a.1) = (t.rows.filter p).reverse := by
  have hsub : (t.rows.filter p).Sublist t.rows := List.filter_sublist
  have hperm := List.mergeSort_perm (t.rows.filter p) fun a b => decide (b.1 ≤ a.1)
  have hsorted : ((t.rows.filter p).mergeSort fun a b => b.1 ≤ a.1).Pairwise
      fun a b => decide (b.1 ≤ a.1) = true := by
    refine List.pairwise_mergeSort (fun a b c hab hbc => ?_) (fun a b => ?_) _
    · simp only [decide_eq_true_eq] at hab hbc ⊢
      exact Nat.le_trans hbc hab
    · simp only [Bool.or_eq_true, decide_eq_true_eq]
      exact Nat.le_total b.1 a.1
  have hreverse : (t.rows.filter p).reverse.Pairwise fun a b => decide (b.1 ≤ a.1) = true :=
    List.pairwise_reverse.mpr ((t.increasing.sublist hsub).imp fun h =>
      decide_eq_true (Nat.le_of_lt h))
  refine (hperm.trans (List.reverse_perm _).symm).eq_of_pairwise (fun a b ha hb hab hba => ?_)
    hsorted hreverse
  refine List.inj_on_of_nodup_map t.nodup_ids (hsub.subset (hperm.mem_iff.mp ha))
    (hsub.subset (List.mem_reverse.mp hb)) (Nat.le_antisymm ?_ ?_)
  · exact of_decide_eq_true hba
  · exact of_decide_eq_true hab

theorem map_upTo {α β : Type} (f : α → β) (limit : Int) (l : List α) :
    (upTo limit l).map f = upTo limit (l.map f) := by
  unfold upTo
  split
  · rfl
  · exact List.map_take

/-- The values of a query without an offset: those of the table that satisfy `p`, backwards. -/
theorem selectDesc_eq (p : R → Bool) (limit : Int) (t : SqlTable R) :
    (t.selectDesc p limit 0).map Prod.snd = upTo limit (t.values.filter p).reverse := by
  unfold selectDesc
  dsimp only
  rw [mergeSort_filter, map_upTo, Int.toNat_zero, List.drop_zero, List.map_reverse, values,
    List.filter_map]
  rfl

/-! ## Keeping the newest rows -/

theorem rows_keepNewest (offset : Int) (t : SqlTable R) :
    (t.keepNewest offset).rows = t.rows.rtake offset.toNat := by
  have hselect : t.selectDesc (fun _ => true) (-1) offset =
      (t.rows.take (t.rows.length - offset.toNat)).reverse := by
    unfold selectDesc
    dsimp only
    rw [mergeSort_filter, List.filter_true, List.drop_reverse]
    exact if_pos (by decide)
  unfold keepNewest delete
  dsimp only
  rw [hselect, List.rtake, ← Dict.filter_notMem_take t.nodup_ids]
  refine List.filter_congr fun row _ => ?_
  simp [List.map_take]

theorem values_insert (r : R) (t : SqlTable R) : (t.insert r).values = t.values ++ [r] := by
  simp [values, insert]

theorem values_keepNewest (offset : Int) (t : SqlTable R) :
    (t.keepNewest offset).values = t.values.rtake offset.toNat := by
  rw [values, rows_keepNewest, values, List.rtake, List.rtake, List.map_drop, List.length_map]

/-- What is dropped once does not come back: only the last `n` of the old elements can be among the
last `n` of the new list. -/
theorem rtake_rtake_append {α : Type} (l : List α) (a : α) (n : Nat) :
    (l.rtake n ++ [a]).rtake n = (l ++ [a]).rtake n := by
  cases n with
  | zero => simp
  | succ n =>
    rw [List.rtake_concat_succ, List.rtake_concat_succ, List.rtake, List.rtake, List.rtake,
      List.length_drop, List.drop_drop]
    congr 2
    omega

/-- What is kept with another row are the last values of all. -/
theorem values_insert_keepNewest {l : List R} {offset : Int}
    (h : t.values = l.rtake offset.toNat) (r : R) :
    ((t.insert r).keepNewest offset).values = (l ++ [r]).rtake offset.toNat := by
  rw [values_keepNewest, values_insert, h, rtake_rtake_append]

theorem values_delete_all (t : SqlTable R) : (t.delete fun _ => true).values = [] := by
  simp [values, delete]

end SqlTable
