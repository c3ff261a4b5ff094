import FocusGuard.Lib.Bytes
import Mathlib.Data.List.Forall2

/-!
# Payloads behind their length

A stream of payloads, each behind two bytes that hold its length. A payload is taken from the stream
when all of it is there.

## Main results

* `split_flatMap`: the payloads of a stream are those that were written to it.
* `split_append`: what is complete is taken first, whatever comes behind it.
-/

namespace LengthPrefix

open Bytes

/-- A payload of less than 2^16 bytes behind its length. -/
def frame (payload : Bytes) : Bytes := word16 payload.length ++ payload

/-- The first payload and what stands behind it; `none` when it is not complete. -/
def take (buffer : Bytes) : Option (Bytes × Bytes) :=
  match get16 buffer 0 with
  | none => none
  | some n =>
    if n ≤ (buffer.drop 2).length then some ((buffer.drop 2).take n, (buffer.drop 2).drop n)
    else none

variable {buffer payload rest : Bytes} {payloads : List Bytes}

theorem take_frame (h : payload.length < 65536) (rest : Bytes) :
    take (frame payload ++ rest) = some (payload, rest) := by
  have hframe : (frame payload ++ rest).drop 0 = word16 payload.length ++ (payload ++ rest) := by
    simp [frame]
  have hget : get16 (frame payload ++ rest) 0 = some payload.length := get16_of_drop h hframe
  have hdrop : (frame payload ++ rest).drop 2 = payload ++ rest := by
    simp [frame, word16]
  simp [take, hget, hdrop]

/-- What is taken was written. -/
theorem eq_of_take (h : take buffer = some (payload, rest)) :
    buffer = frame payload ++ rest ∧ payload.length < 65536 := by
  unfold take at h
  cases hget : get16 buffer 0 with
  | none => simp [hget] at h
  | some n =>
    rw [hget] at h
    dsimp only at h
    split at h
    · next hn =>
      obtain ⟨rfl, rfl⟩ := Prod.mk.inj (Option.some.inj h)
      have hlen : ((buffer.drop 2).take n).length = n := List.length_take_of_le hn
      refine ⟨?_, by rw [hlen]; exact get16_lt hget⟩
      rw [frame, hlen, List.append_assoc, List.take_append_drop]
      exact drop_of_get16 hget
    · cases h

theorem length_of_take (h : take buffer = some (payload, rest)) : rest.length < buffer.length := by
  obtain ⟨rfl, -⟩ := eq_of_take h
  simp only [frame, List.length_append, length_word16]
  omega

/-! ## All payloads -/

/-- The complete payloads of a stream, and the rest of it. -/
def split (buffer : Bytes) : List Bytes × Bytes :=
  match h : take buffer with
  | none => ([], buffer)
  | some (payload, rest) =>
    have : rest.length < buffer.length := length_of_take h
    let later := split rest
    (payload :: later.1, later.2)
termination_by buffer.length

theorem split_of_none (h : take buffer = none) : split buffer = ([], buffer) := by
  rw [split]
  split
  · rfl
  · next heq => rw [h] at heq; cases heq

theorem split_of_some (h : take buffer = some (payload, rest)) :
    split buffer = (payload :: (split rest).1, (split rest).2) := by
  rw [split]
  split
  · next heq => rw [h] at heq; cases heq
  · next heq => rw [h] at heq; cases heq; rfl

theorem split_frame (h : payload.length < 65536) (rest : Bytes) :
    split (frame payload ++ rest) = (payload :: (split rest).1, (split rest).2) :=
  split_of_some (take_frame h rest)

/-- The payloads that were written come first. -/
theorem split_flatMap_append (h : ∀ p ∈ payloads, p.length < 65536) (rest : Bytes) :
    split (payloads.flatMap frame ++ rest) = (payloads ++ (split rest).1, (split rest).2) := by
  induction payloads with
  | nil => rfl
  | cons p payloads ih =>
    obtain ⟨hp, hpayloads⟩ := List.forall_mem_cons.mp h
    rw [List.flatMap_cons, List.append_assoc, split_frame hp, ih hpayloads]
    rfl

/-- The payloads of a stream are those that were written to it. -/
theorem split_flatMap (h : ∀ p ∈ payloads, p.length < 65536) :
    split (payloads.flatMap frame) = (payloads, []) := by
  have hsplit := split_flatMap_append h []
  have hnil : split [] = ([], []) := split_of_none rfl
  rwa [List.append_nil, hnil, List.append_nil] at hsplit

/-- A stream is its payloads and a rest that holds no complete one. -/
theorem split_spec (buffer : Bytes) :
    buffer = (split buffer).1.flatMap frame ++ (split buffer).2 ∧
      (∀ p ∈ (split buffer).1, p.length < 65536) ∧ take (split buffer).2 = none := by
  fun_induction split buffer with
  | case1 buffer h => exact ⟨rfl, by simp, h⟩
  | case2 buffer payload rest h _ later ih =>
    obtain ⟨heq, hlen⟩ := eq_of_take h
    obtain ⟨hrest, hpayloads, hnone⟩ := ih
    refine ⟨?_, List.forall_mem_cons.mpr ⟨hlen, hpayloads⟩, hnone⟩
    rw [List.flatMap_cons, List.append_assoc, ← hrest]
    exact heq

/-- However a stream is cut, its payloads are the same. -/
theorem split_append (buffer more : Bytes) :
    split (buffer ++ more) = ((split buffer).1 ++ (split ((split buffer).2 ++ more)).1,
      (split ((split buffer).2 ++ more)).2) := by
  obtain ⟨heq, hlen, -⟩ := split_spec buffer
  conv_lhs => rw [heq, List.append_assoc]
  exact split_flatMap_append hlen _

end LengthPrefix
