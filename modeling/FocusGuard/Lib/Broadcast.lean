import Mathlib.Data.Finset.Insert
import Mathlib.Data.Finset.Erase
import Mathlib.Data.List.DropRight
import Mathlib.Logic.Function.Basic

/-!
# Broadcasting into queues

Every item that is published goes into the queue of every subscriber; a queue that is full loses its
oldest item. A queue is made by subscribing, and no two subscriptions share one.

## Main definitions

* `Broadcast.subscribe`, `Broadcast.unsubscribe`, `Broadcast.publish`, `Broadcast.pop`.
-/

/-- The queues of the subscribers are among those made so far. -/
structure Broadcast (α : Type) where
  subscribers : Finset Nat
  queue : Nat → List α
  /-- The next queue to be made. -/
  next : Nat
  made : ∀ q ∈ subscribers, q < next

namespace Broadcast

variable {α : Type} {b : Broadcast α} {q q' size : Nat} {item : α}

theorem made_none : ∀ q ∈ (∅ : Finset Nat), q < 0 := nofun

def empty : Broadcast α where
  subscribers := ∅
  queue _ := []
  next := 0
  made := made_none

/-- A queue of one's own. -/
def subscribe (b : Broadcast α) : Broadcast α where
  subscribers := insert b.next b.subscribers
  queue := Function.update b.queue b.next []
  next := b.next + 1
  made q hq := by
    rcases Finset.mem_insert.mp hq with rfl | hq
    · exact Nat.lt_succ_self _
    · exact Nat.lt_succ_of_lt (b.made q hq)

def unsubscribe (b : Broadcast α) (q : Nat) : Broadcast α where
  subscribers := b.subscribers.erase q
  queue := b.queue
  next := b.next
  made q hq := b.made q (Finset.mem_of_mem_erase hq)

/-- The item goes to all subscribers, whose queues hold at most `size` items. -/
def publish (b : Broadcast α) (size : Nat) (item : α) : Broadcast α :=
  { b with
    queue := fun q => if q ∈ b.subscribers then (b.queue q ++ [item]).rtake size else b.queue q }

/-- The oldest item is taken out of a queue. -/
def pop (b : Broadcast α) (q : Nat) : Broadcast α :=
  { b with queue := Function.update b.queue q (b.queue q).tail }

theorem mem_subscribe : q ∈ b.subscribe.subscribers ↔ q = b.next ∨ q ∈ b.subscribers :=
  Finset.mem_insert

theorem mem_subscribe_of_lt (h : q < b.next) :
    q ∈ b.subscribe.subscribers ↔ q ∈ b.subscribers := by
  rw [mem_subscribe]
  exact or_iff_right h.ne

theorem mem_unsubscribe : q' ∈ (b.unsubscribe q).subscribers ↔ q' ≠ q ∧ q' ∈ b.subscribers :=
  Finset.mem_erase

theorem queue_subscribe : b.subscribe.queue = Function.update b.queue b.next [] := rfl

theorem queue_pop : (b.pop q).queue = Function.update b.queue q (b.queue q).tail := rfl

@[simp] theorem queue_unsubscribe : (b.unsubscribe q).queue = b.queue := rfl

@[simp] theorem next_unsubscribe : (b.unsubscribe q).next = b.next := rfl

@[simp] theorem subscribers_publish : (b.publish size item).subscribers = b.subscribers := rfl

@[simp] theorem next_publish : (b.publish size item).next = b.next := rfl

@[simp] theorem subscribers_pop : (b.pop q).subscribers = b.subscribers := rfl

@[simp] theorem next_pop : (b.pop q).next = b.next := rfl

end Broadcast
