import Mathlib.Data.List.DropRight

/-!
# Bounded queues

`asyncio.Queue` without its waiting: items leave in the order in which they came, and a queue that
holds `maxsize` of them takes no more.

## Main definitions

* `AsyncQueue.putNowait`, `AsyncQueue.getNowait`; `none` is `QueueFull`, or `QueueEmpty`.
* `AsyncQueue.putNewest`: a full queue loses its oldest item for the new one.
-/

/-- A queue of size 0 or less has no bound. -/
structure AsyncQueue (α : Type) where
  maxsize : Int
  items : List α
  fits : 0 < maxsize → (items.length : Int) ≤ maxsize

namespace AsyncQueue

variable {α : Type} {q q' : AsyncQueue α} {a b : α}

/-- `asyncio.Queue(maxsize=maxsize)`. -/
def new (maxsize : Int) : AsyncQueue α := ⟨maxsize, [], Int.le_of_lt⟩

def Full (q : AsyncQueue α) : Prop := 0 < q.maxsize ∧ q.maxsize ≤ q.items.length

instance : Decidable q.Full := inferInstanceAs (Decidable (_ ∧ _))

/-- The oldest item is gone. -/
def rest (q : AsyncQueue α) : AsyncQueue α where
  maxsize := q.maxsize
  items := q.items.tail
  fits hpos := by
    have hfits := q.fits hpos
    rw [List.length_tail]
    omega

def getNowait (q : AsyncQueue α) : Option (α × AsyncQueue α) :=
  q.items.head?.map fun a => (a, q.rest)

def putNowait (q : AsyncQueue α) (a : α) : Option (AsyncQueue α) :=
  if h : q.Full then none
  else some {
    maxsize := q.maxsize
    items := q.items ++ [a]
    fits := by
      intro hpos
      unfold Full at h
      rw [List.length_append, List.length_singleton]
      omega }

/-- The item is put; a queue that is full gives up its oldest item, and the put is tried again. -/
def putNewest (q : AsyncQueue α) (a : α) : AsyncQueue α :=
  match q.putNowait a with
  | some q' => q'
  | none =>
    match q.getNowait with
    | some (_, q') => (q'.putNowait a).getD q'
    | none => q

@[simp] theorem maxsize_rest : q.rest.maxsize = q.maxsize := rfl

@[simp] theorem items_rest : q.rest.items = q.items.tail := rfl

theorem getNowait_eq_some (h : q.getNowait = some (a, q')) :
    q.items = a :: q'.items ∧ q'.maxsize = q.maxsize := by
  obtain ⟨b, hhead, heq⟩ := Option.map_eq_some_iff.mp h
  cases heq
  exact ⟨(List.head?_eq_some_iff.mp hhead).elim fun rest hrest => by rw [items_rest, hrest]; rfl,
    rfl⟩

theorem putNowait_of_not_full (h : ¬ q.Full) :
    ∃ q', q.putNowait a = some q' ∧ q'.maxsize = q.maxsize ∧ q'.items = q.items ++ [a] :=
  ⟨_, dif_neg h, rfl, rfl⟩

/-- A bounded queue that is full has as many items as it may have. -/
theorem Full.length_eq (h : q.Full) : (q.items.length : Int) = q.maxsize :=
  Int.le_antisymm (q.fits h.1) h.2

theorem putNewest_of_not_full (h : ¬ q.Full) :
    (q.putNewest a).maxsize = q.maxsize ∧ (q.putNewest a).items = q.items ++ [a] := by
  obtain ⟨q', hput, hsize, hitems⟩ := putNowait_of_not_full (a := a) h
  rw [putNewest, hput]
  exact ⟨hsize, hitems⟩

theorem putNewest_of_full (h : q.Full) :
    (q.putNewest a).maxsize = q.maxsize ∧ (q.putNewest a).items = q.items.tail ++ [a] := by
  have hlength := h.length_eq
  have hpos := h.1
  obtain ⟨b, items, hitems⟩ : ∃ b items, q.items = b :: items := by
    refine List.exists_cons_of_ne_nil fun hnil => ?_
    rw [hnil, List.length_nil] at hlength
    omega
  have hget : q.getNowait = some (b, q.rest) := by
    rw [getNowait, hitems]
    rfl
  have hroom : ¬ q.rest.Full := by
    intro hfull
    have hrest := hfull.length_eq
    rw [maxsize_rest, items_rest, List.length_tail] at hrest
    omega
  obtain ⟨q', hput, hsize, hitems'⟩ := putNowait_of_not_full (a := a) hroom
  have hnew : q.putNewest a = q' := by
    rw [putNewest, putNowait, dif_pos h, hget]
    dsimp only
    rw [hput, Option.getD_some]
  rw [hnew]
  exact ⟨hsize, hitems'⟩

@[simp] theorem maxsize_putNewest : (q.putNewest a).maxsize = q.maxsize := by
  by_cases h : q.Full
  · exact (putNewest_of_full h).1
  · exact (putNewest_of_not_full h).1

/-- The item goes behind what is kept, which is everything unless the queue is full. -/
theorem putNewest_spec : ∃ kept, (q.putNewest a).items = kept ++ [a] ∧ kept <:+ q.items ∧
    (kept = q.items ∨ q.Full) := by
  by_cases h : q.Full
  · exact ⟨q.items.tail, (putNewest_of_full h).2, List.tail_suffix _, .inr h⟩
  · exact ⟨q.items, (putNewest_of_not_full h).2, List.suffix_rfl, .inl rfl⟩

/-- The newest items stay. -/
theorem items_putNewest (h : 0 < q.maxsize) :
    (q.putNewest a).items = (q.items ++ [a]).rtake q.maxsize.toNat := by
  unfold List.rtake
  rw [List.length_append, List.length_singleton]
  by_cases hfull : q.Full
  · have hlength := hfull.length_eq
    have hdrop : q.items.length + 1 - q.maxsize.toNat = 1 := by omega
    have hone : 1 ≤ q.items.length := by omega
    rw [(putNewest_of_full hfull).2, hdrop, List.drop_append_of_le_length hone, List.drop_one]
  · have hdrop : q.items.length + 1 - q.maxsize.toNat = 0 := by
      unfold Full at hfull
      omega
    rw [(putNewest_of_not_full hfull).2, hdrop, List.drop_zero]

end AsyncQueue
