import FocusGuard.Lib.Reader

/-!
# Loops in rounds

A loop does one round after the other until a round ends it or raises. `loop` does so many rounds
and gives up when they run out, so a loop ends exactly if enough rounds are not given up.

## Main definitions

* `Limited`: a program that may be given up, or raise.
* `loop`: a `while True` loop, for so many rounds.

## Main results

* `loop_eq`: a loop whose rounds decrease a measure computes what its rounds preserve.
* `readMany_lift`: a reader that always ends does so when it is repeated.
-/

/-- A program that may raise, and that is `none` where its rounds run out. -/
abbrev Limited (ε α : Type) := ExceptT ε Option α

/-- A round goes on with another one, or ends the loop. -/
inductive Round (S A : Type) where
  | again (s : S)
  | stop (a : A)

namespace Limited

variable {ε ε' α β S A : Type}

/-- A program that needs no rounds, with what it raises. -/
def lift (f : ε' → ε) (m : Except ε' α) : Limited ε α :=
  ExceptT.mk (some (m.mapError f))

def loop (body : S → Limited ε (Round S A)) : Nat → S → Limited ε A
  | 0, _ => ExceptT.mk none
  | rounds + 1, s => do
    match ← body s with
    | .again s => loop body rounds s
    | .stop a => pure a

/-- Repeat a reader `count` times. -/
def readMany (read : Nat → Limited ε (α × Nat)) : Nat → Nat → Limited ε (List α × Nat)
  | 0, offset => pure ([], offset)
  | count + 1, offset => do
    let (a, offset) ← read offset
    let (rest, offset) ← readMany read count offset
    pure (a :: rest, offset)

/-! ## Programs that need no rounds -/

variable {f : ε' → ε}

@[simp] theorem lift_ok (a : α) : lift f (.ok a) = pure a := rfl

@[simp] theorem lift_error (e : ε') : (lift f (.error e) : Limited ε α) = throw (f e) := rfl

@[simp] theorem throw_bind (e : ε) (g : α → Limited ε β) :
    ((throw e : Limited ε α) >>= g) = throw e := rfl

/-- A program whose parts need no rounds needs none. -/
theorem lift_bind {m : Except ε' α} {g : α → Except ε' β} {g' : α → Limited ε β}
    (h : ∀ a, g' a = lift f (g a)) : (lift f m >>= g') = lift f (m >>= g) := by
  cases m with
  | ok a => exact h a
  | error e => rfl

/-! ## Loops -/

/-- A round of a loop decreases the measure and preserves what is computed, or it ends the loop
with it. -/
inductive Computes (body : S → Limited ε (Round S A)) (result : S → Limited ε A) (μ : S → Nat)
    (s : S) : Prop where
  | again (s' : S) : body s = pure (.again s') → μ s' < μ s → result s = result s' →
      Computes body result μ s
  | stop (a : A) : body s = pure (.stop a) → result s = pure a → Computes body result μ s
  | throw (e : ε) : body s = throw e → result s = throw e → Computes body result μ s

theorem loop_eq {body : S → Limited ε (Round S A)} {result : S → Limited ε A} {μ : S → Nat}
    (h : ∀ s, Computes body result μ s) {rounds : Nat} {s : S} (hs : μ s < rounds) :
    loop body rounds s = result s := by
  induction rounds generalizing s with
  | zero => exact absurd hs (Nat.not_lt_zero _)
  | succ rounds ih =>
    rw [loop]
    cases h s with
    | again s' hbody hlt hsame =>
      rw [hbody, pure_bind, hsame]
      exact ih (by omega)
    | stop a hbody hresult =>
      rw [hbody, pure_bind, hresult]
    | throw e hbody hresult =>
      rw [hbody, hresult]
      rfl

theorem readMany_lift {read : Reader ε' α} {read' : Nat → Limited ε (α × Nat)}
    (h : ∀ offset, read' offset = lift f (read offset)) (count offset : Nat) :
    readMany read' count offset = lift f (Reader.readMany read count offset) := by
  induction count generalizing offset with
  | zero => rfl
  | succ count ih =>
    rw [readMany, Reader.readMany, h]
    refine lift_bind ?_
    rintro ⟨a, next⟩
    dsimp only
    rw [ih]
    refine lift_bind ?_
    rintro ⟨rest, stop⟩
    rfl

end Limited
