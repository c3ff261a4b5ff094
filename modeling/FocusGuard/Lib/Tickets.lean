import Mathlib.Data.List.Nodup
import Mathlib.Logic.Function.Basic

/-!
# Tickets

Parties take tickets and hand them in. A ticket that has been issued is in at most one hand, and one
that has been handed in is in none and does not come in twice.
-/

/-- The tickets `issued` so far, those `done`, and the one that each party holds. -/
structure Tickets {P I : Type} (held : P → Option I) (issued done : List I) : Prop where
  distinct : done.Nodup
  issued_of_done : ∀ i ∈ done, i ∈ issued
  issued_of_held : ∀ p i, held p = some i → i ∈ issued
  not_done : ∀ p i, held p = some i → i ∉ done
  alone : ∀ p p' i, held p = some i → held p' = some i → p = p'

namespace Tickets

variable {P I : Type} [DecidableEq P] {held held' : P → Option I} {issued done : List I} {p : P}
  {i : I}

omit [DecidableEq P] in
/-- Nobody holds a ticket. -/
theorem of_none (hnone : ∀ p, held p = none) (hnodup : done.Nodup) (hdone : ∀ i ∈ done, i ∈ issued) :
    Tickets held issued done := by
  have hnot : ∀ p i, held p ≠ some i := by
    intro p i hi
    rw [hnone p] at hi
    cases hi
  exact ⟨hnodup, hdone, fun p i hi => absurd hi (hnot p i), fun p i hi => absurd hi (hnot p i),
    fun p _ i hi => absurd hi (hnot p i)⟩

omit [DecidableEq P] in
/-- A party may keep its ticket or throw it away. -/
theorem keep (h : Tickets held issued done) (hheld : ∀ q j, held' q = some j → held q = some j) :
    Tickets held' issued done where
  distinct := h.distinct
  issued_of_done := h.issued_of_done
  issued_of_held q j hj := h.issued_of_held q j (hheld q j hj)
  not_done q j hj := h.not_done q j (hheld q j hj)
  alone q q' j hj hj' := h.alone q q' j (hheld q j hj) (hheld q' j hj')

/-- A new ticket is taken. -/
theorem take (h : Tickets held issued done) (hi : i ∉ issued) :
    Tickets (Function.update held p (some i)) (issued ++ [i]) done := by
  have hcases : ∀ q j, Function.update held p (some i) q = some j →
      (q = p ∧ j = i) ∨ (q ≠ p ∧ held q = some j) := by
    intro q j hj
    by_cases hq : q = p
    · subst hq
      rw [Function.update_self, Option.some.injEq] at hj
      exact .inl ⟨rfl, hj.symm⟩
    · rw [Function.update_of_ne hq] at hj
      exact .inr ⟨hq, hj⟩
  refine ⟨h.distinct, fun j hj => ?_, fun q j hj => ?_, fun q j hj => ?_, fun q q' j hj hj' => ?_⟩
  · exact List.mem_append_left _ (h.issued_of_done j hj)
  · rcases hcases q j hj with ⟨-, rfl⟩ | ⟨-, hq⟩
    · exact List.mem_concat_self
    · exact List.mem_append_left _ (h.issued_of_held q j hq)
  · rcases hcases q j hj with ⟨-, rfl⟩ | ⟨-, hq⟩
    · exact fun hdone => hi (h.issued_of_done j hdone)
    · exact h.not_done q j hq
  · rcases hcases q j hj with ⟨rfl, rfl⟩ | ⟨-, hq⟩
    · rcases hcases q' j hj' with ⟨rfl, -⟩ | ⟨-, hq'⟩
      · rfl
      · exact absurd (h.issued_of_held q' j hq') hi
    · rcases hcases q' j hj' with ⟨-, rfl⟩ | ⟨-, hq'⟩
      · exact absurd (h.issued_of_held q j hq) hi
      · exact h.alone q q' j hq hq'

/-- A ticket is handed in. -/
theorem finish (h : Tickets held issued done) (hp : held p = some i) :
    Tickets (Function.update held p none) issued (done ++ [i]) := by
  have hother : ∀ q j, Function.update held p none q = some j → q ≠ p ∧ held q = some j := by
    intro q j hj
    by_cases hq : q = p
    · subst hq
      rw [Function.update_self] at hj
      cases hj
    · rw [Function.update_of_ne hq] at hj
      exact ⟨hq, hj⟩
  refine ⟨?_, fun j hj => ?_, fun q j hj => ?_, fun q j hj => ?_, fun q q' j hj hj' => ?_⟩
  · exact List.Nodup.append h.distinct (List.nodup_singleton i) (by simpa using h.not_done p i hp)
  · rcases List.mem_append.mp hj with hj | hj
    · exact h.issued_of_done j hj
    · obtain rfl := List.mem_singleton.mp hj
      exact h.issued_of_held p j hp
  · exact h.issued_of_held q j (hother q j hj).2
  · obtain ⟨hq, hq'⟩ := hother q j hj
    rw [List.mem_append, List.mem_singleton, not_or]
    refine ⟨h.not_done q j hq', ?_⟩
    rintro rfl
    exact hq (h.alone q p j hq' hp)
  · exact h.alone q q' j (hother q j hj).2 (hother q' j hj').2

end Tickets
