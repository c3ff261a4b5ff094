import FocusGuard.Lib.Exec
import Mathlib.Data.List.Basic

/-!
# Buffered reading of lines

A program that reads a stream in chunks keeps what it has read in a buffer, takes every complete
line out of the buffer and handles it, and keeps the incomplete rest for the next chunk. A line is
what a separator closes.

## Main results

* `Lines.drain_append`: a buffer is drained in two goes as in one.
* `Lines.receive_eq_drain`: chunks are handled as their concatenation is.
-/

namespace Lines

variable {α ε σ : Type} [DecidableEq α] (sep : α)

/-- The first line and what stands behind its separator; `none` without a separator. -/
def takeLine : List α → Option (List α × List α)
  | [] => none
  | a :: l => if a = sep then some ([], l) else (takeLine l).map fun p => (a :: p.1, p.2)

variable {sep} {l m line rest residue : List α}

theorem takeLine_of_line (h : sep ∉ line) :
    takeLine sep (line ++ sep :: rest) = some (line, rest) := by
  induction line with
  | nil => simp [takeLine]
  | cons a line ih =>
    obtain ⟨ha, hline⟩ := not_or.mp (mt List.mem_cons.mpr h)
    simp [takeLine, Ne.symm ha, ih hline]

theorem takeLine_of_notMem (h : sep ∉ l) : takeLine sep l = none := by
  induction l with
  | nil => rfl
  | cons a l ih =>
    obtain ⟨ha, hl⟩ := not_or.mp (mt List.mem_cons.mpr h)
    simp [takeLine, Ne.symm ha, ih hl]

theorem eq_of_takeLine (h : takeLine sep l = some (line, rest)) :
    l = line ++ sep :: rest ∧ sep ∉ line := by
  fun_induction takeLine sep l generalizing line with
  | case1 => cases h
  | case2 l => cases h; exact ⟨rfl, List.not_mem_nil⟩
  | case3 a l ha ih =>
    obtain ⟨⟨line', rest'⟩, hl, heq⟩ := Option.map_eq_some_iff.mp h
    cases heq
    obtain ⟨rfl, hnot⟩ := ih hl
    exact ⟨rfl, mt List.mem_cons.mp (not_or.mpr ⟨Ne.symm ha, hnot⟩)⟩

theorem length_of_takeLine (h : takeLine sep l = some (line, rest)) : rest.length < l.length := by
  obtain ⟨rfl, -⟩ := eq_of_takeLine h
  simp only [List.length_append, List.length_cons]
  omega

/-! ## The loops -/

variable (sep) (handle : List α → Exec ε σ Unit)

/-- Handle the complete lines of a buffer, and return the rest of it. -/
def drain (buffer : List α) : Exec ε σ (List α) :=
  match h : takeLine sep buffer with
  | none => pure buffer
  | some (line, rest) =>
    have : rest.length < buffer.length := length_of_takeLine h
    do
      handle line
      drain rest
termination_by buffer.length

/-- Handle the lines that are complete with each chunk. An empty chunk is the end of the stream. -/
def receive : List (List α) → List α → Exec ε σ (List α)
  | [], buffer => pure buffer
  | chunk :: chunks, buffer =>
    if chunk = [] then pure buffer
    else do
      let buffer ← drain sep handle (buffer ++ chunk)
      receive chunks buffer

variable {sep handle}

theorem drain_of_none (h : takeLine sep l = none) : drain sep handle l = pure l := by
  rw [drain]
  split
  · rfl
  · next heq => rw [h] at heq; cases heq

theorem drain_of_some (h : takeLine sep l = some (line, rest)) :
    drain sep handle l = handle line >>= fun _ => drain sep handle rest := by
  rw [drain]
  split
  · next heq => rw [h] at heq; cases heq
  · next heq => rw [h] at heq; cases heq; rfl

theorem drain_of_notMem (h : sep ∉ l) : drain sep handle l = pure l :=
  drain_of_none (takeLine_of_notMem h)

theorem drain_of_line (h : sep ∉ line) : drain sep handle (line ++ sep :: rest) =
    handle line >>= fun _ => drain sep handle rest :=
  drain_of_some (takeLine_of_line h)

/-- Lines that are complete are handled first, whatever comes behind them. -/
theorem drain_append (l m : List α) : drain sep handle (l ++ m) =
    drain sep handle l >>= fun residue => drain sep handle (residue ++ m) := by
  induction hn : l.length using Nat.strongRecOn generalizing l with
  | _ n ih =>
    cases h : takeLine sep l with
    | none => rw [drain_of_none h]; rfl
    | some p =>
      obtain ⟨line, rest⟩ := p
      have hlen := length_of_takeLine h
      obtain ⟨rfl, hline⟩ := eq_of_takeLine h
      rw [List.append_assoc, List.cons_append, drain_of_line hline, drain_of_line hline,
        Exec.bind_assoc]
      congr 1
      funext _
      exact ih rest.length (hn ▸ hlen) rest rfl

theorem drain_receive {chunks : List (List α)} (h : ∀ chunk ∈ chunks, chunk ≠ []) (l : List α) :
    (drain sep handle l >>= fun buffer => receive sep handle chunks buffer) =
      drain sep handle (l ++ chunks.flatten) := by
  induction chunks generalizing l with
  | nil =>
    rw [List.flatten_nil, List.append_nil]
    exact Exec.bind_pure _
  | cons chunk chunks ih =>
    obtain ⟨hchunk, hrest⟩ := List.forall_mem_cons.mp h
    rw [List.flatten_cons, ← List.append_assoc, ← ih hrest, drain_append, Exec.bind_assoc]
    simp only [receive, if_neg hchunk]

/-- However a stream is cut into chunks, its lines are handled as if it came in one. -/
theorem receive_eq_drain {chunks : List (List α)} (h : ∀ chunk ∈ chunks, chunk ≠ []) :
    receive sep handle chunks [] = drain sep handle chunks.flatten := by
  have hnil : drain sep handle ([] : List α) = pure [] := drain_of_notMem List.not_mem_nil
  rw [← List.nil_append chunks.flatten, ← drain_receive h, hnil]
  rfl

end Lines
