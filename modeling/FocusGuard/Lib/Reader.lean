import FocusGuard.Lib.Bytes
import Mathlib.Logic.Basic

/-!
# Readers of byte strings

A reader takes an offset into a byte string to a value and the offset after it, or raises. A
format that has back references needs the whole byte string, so a reader is not a function
of what remains. `readMany` repeats a reader; `ReadsBack` says that a reader recovers a value
from a piece of text wherever the piece stands.

## Main results

* `ReadsBack.many`: a list of values is read back from the pieces of its members.
* `ReadsTo.append`: reading in two goes.
-/

/-- From an offset to a value and the offset after it. -/
abbrev Reader (ε α : Type) := Nat → Except ε (α × Nat)

namespace Except

variable {ε α β : Type}

theorem ok_bind (a : α) (f : α → Except ε β) : (Except.ok a >>= f) = f a := rfl

/-- A computation that ends normally does so in every part. -/
theorem bind_eq_ok {m : Except ε α} {f : α → Except ε β} {b : β} :
    (m >>= f) = .ok b ↔ ∃ a, m = .ok a ∧ f a = .ok b := by
  constructor
  · intro h
    cases m with
    | ok a => exact ⟨a, rfl, h⟩
    | error e => cases h
  · rintro ⟨a, rfl, h⟩
    exact h

/-- A normal result satisfies `P`. -/
def Ensures (P : α → Prop) (m : Except ε α) : Prop := ∀ a, m = .ok a → P a

namespace Ensures

variable {P : α → Prop} {Q : β → Prop} {m : Except ε α} {f : α → Except ε β}

theorem ok {a : α} (h : P a) : Ensures P (.ok a : Except ε α) := by
  rintro _ ⟨⟩
  exact h

theorem bind (hm : Ensures P m) (hf : ∀ a, P a → Ensures Q (f a)) : Ensures Q (m >>= f) := by
  intro b hb
  obtain ⟨a, ha, hfa⟩ := bind_eq_ok.mp hb
  exact hf a (hm a ha) b hfa

/-- Where nothing of the first part matters. -/
theorem seq (hf : ∀ a, Ensures Q (f a)) : Ensures Q (m >>= f) :=
  bind (P := fun _ => True) (fun _ _ => trivial) fun a _ => hf a

theorem ite {c : Prop} [Decidable c] {m' : Except ε α} (hm : c → Ensures P m)
    (hm' : ¬ c → Ensures P m') : Ensures P (if c then m else m') := by
  split
  · next h => exact hm h
  · next h => exact hm' h

end Ensures

/-- What is raised satisfies `E`. -/
def RaisesOnly (E : ε → Prop) (m : Except ε α) : Prop := ∀ e, m = .error e → E e

namespace RaisesOnly

variable {E : ε → Prop} {m : Except ε α} {f : α → Except ε β}

theorem ok {a : α} : RaisesOnly E (.ok a) := nofun

theorem error {e : ε} (h : E e) : RaisesOnly E (.error e : Except ε α) := by
  rintro _ ⟨⟩
  exact h

theorem bind (hm : RaisesOnly E m) (hf : ∀ a, RaisesOnly E (f a)) : RaisesOnly E (m >>= f) := by
  intro e he
  cases m with
  | ok a => exact hf a e he
  | error e' =>
    cases he
    exact hm e rfl

theorem ite {c : Prop} [Decidable c] {m' : Except ε α} (hm : RaisesOnly E m)
    (hm' : RaisesOnly E m') : RaisesOnly E (if c then m else m') := by
  split
  · exact hm
  · exact hm'

end RaisesOnly

end Except

namespace Reader

variable {ε α : Type} {read : Reader ε α}

/-- Repeat a reader `count` times. -/
def readMany (read : Reader ε α) : Nat → Reader ε (List α)
  | 0, offset => .ok ([], offset)
  | count + 1, offset => do
    let (a, offset) ← read offset
    let (rest, offset) ← readMany read count offset
    .ok (a :: rest, offset)

/-- `read`, repeated from the first offset on, gives the values and ends at the second. -/
inductive ReadsTo (read : Reader ε α) : Nat → List α → Nat → Prop where
  | nil (offset : Nat) : ReadsTo read offset [] offset
  | cons {offset next stop : Nat} {a : α} {rest : List α} :
      read offset = .ok (a, next) → ReadsTo read next rest stop →
      ReadsTo read offset (a :: rest) stop

theorem readMany_eq_ok_iff {count offset stop : Nat} {l : List α} :
    readMany read count offset = .ok (l, stop) ↔ l.length = count ∧ ReadsTo read offset l stop := by
  induction count generalizing offset l with
  | zero =>
    constructor
    · rintro h
      cases h
      exact ⟨rfl, .nil _⟩
    · rintro ⟨hl, h⟩
      obtain rfl := List.length_eq_zero_iff.mp hl
      cases h
      rfl
  | succ count ih =>
    simp only [readMany, Except.bind_eq_ok, Prod.exists]
    constructor
    · rintro ⟨a, next, ha, rest, stop', hr, h⟩
      cases h
      obtain ⟨hl, hr⟩ := ih.mp hr
      exact ⟨by rw [List.length_cons, hl], .cons ha hr⟩
    · rintro ⟨hl, h⟩
      cases h with
      | nil => simp at hl
      | cons ha hr =>
        have hrest := ih.mpr ⟨by simpa using hl, hr⟩
        exact ⟨_, _, ha, _, _, hrest, rfl⟩

theorem raisesOnly_readMany {E : ε → Prop} (h : ∀ offset, (read offset).RaisesOnly E)
    (count offset : Nat) : (readMany read count offset).RaisesOnly E := by
  induction count generalizing offset with
  | zero => exact .ok
  | succ count ih => exact .bind (h offset) fun (_, next) => .bind (ih next) fun _ => .ok

/-- The offsets at which a repeated reader starts. -/
def starts (read : Reader ε α) : Nat → Nat → List Nat
  | 0, _ => []
  | count + 1, offset => offset ::
    match read offset with
    | .ok (_, next) => starts read count next
    | .error _ => []

theorem starts_one (o : Nat) : starts read 1 o = [o] := by
  rw [starts]
  split <;> rfl

namespace ReadsTo

variable {o p q : Nat} {l l' : List α}

theorem append (h : ReadsTo read o l p) (h' : ReadsTo read p l' q) :
    ReadsTo read o (l ++ l') q := by
  induction h with
  | nil => exact h'
  | cons ha _ ih => exact .cons ha (ih h')

/-- A reader that does not go back does not do so when it is repeated. -/
theorem le_of_mono (h : ReadsTo read o l p)
    (hread : ∀ offset a next, read offset = .ok (a, next) → offset ≤ next) : o ≤ p := by
  induction h with
  | nil => exact le_rfl
  | cons ha _ ih => exact (hread _ _ _ ha).trans ih

/-- Nor does it start anywhere before the first offset. -/
theorem le_of_mem_starts (hread : ∀ offset a next, read offset = .ok (a, next) → offset ≤ next)
    {count offset : Nat} (h : offset ∈ starts read count o) : o ≤ offset := by
  induction count generalizing o with
  | zero => cases h
  | succ count ih =>
    rcases List.mem_cons.mp h with rfl | h
    · exact le_rfl
    · split at h
      · next ha => exact (hread _ _ _ ha).trans (ih h)
      · cases h

/-- A reader that stays inside a bound does so when it is repeated. -/
theorem le_bound {bound : Nat} (h : ReadsTo read o l p) (ho : o ≤ bound)
    (hread : ∀ offset a next, read offset = .ok (a, next) → next ≤ bound) : p ≤ bound := by
  induction h with
  | nil => exact ho
  | cons ha _ ih => exact ih (hread _ _ _ ha)

/-- What holds of every value that the reader returns holds of every value of the list. -/
theorem forall_mem {P : α → Prop} (h : ReadsTo read o l p)
    (hread : ∀ offset a next, read offset = .ok (a, next) → P a) : ∀ a ∈ l, P a := by
  induction h with
  | nil => simp
  | cons ha _ ih => exact List.forall_mem_cons.mpr ⟨hread _ _ _ ha, ih⟩

end ReadsTo

/-! ## Reading back -/

/-- The reader for a byte string recovers `a` wherever `piece` stands in it. -/
def ReadsBack (read : Bytes → Reader ε α) (piece : Bytes) (a : α) : Prop :=
  ∀ data offset rest, data.drop offset = piece ++ rest →
    read data offset = .ok (a, offset + piece.length)

/-- A list of values is read back from the pieces of its members. -/
theorem ReadsBack.many {read : Bytes → Reader ε α} {pieces : List Bytes} {l : List α}
    (h : List.Forall₂ (ReadsBack read) pieces l) {data rest : Bytes} {offset : Nat}
    (hd : data.drop offset = pieces.flatten ++ rest) :
    ReadsTo (read data) offset l (offset + pieces.flatten.length) := by
  induction h generalizing offset with
  | nil => exact .nil offset
  | @cons piece a pieces l ha _ ih =>
    rw [List.flatten_cons, List.append_assoc] at hd
    have hrest := ih (Bytes.drop_add_length hd)
    rw [Nat.add_assoc] at hrest
    rw [List.flatten_cons, List.length_append]
    exact .cons (ha data offset _ hd) hrest

end Reader
