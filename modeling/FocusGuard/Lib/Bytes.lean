import Mathlib.Data.List.Basic
import Mathlib.Data.Nat.Bitwise
import Mathlib.Tactic.IntervalCases

/-!
# Big-endian words in byte strings

Reading and writing of unsigned 16- and 32-bit integers in network order, at an offset into
a byte string. Reads are stated on `data.drop offset`, so that a read past a known prefix
only looks at what follows the prefix.
-/

abbrev Bytes := List UInt8

namespace Bytes

/-- The byte `n mod 256`. -/
def byte (n : Nat) : UInt8 := UInt8.ofNat n

@[simp] theorem toNat_byte (n : Nat) : (byte n).toNat = n % 256 := by
  simp [byte]

theorem toNat_lt (b : UInt8) : b.toNat < 256 := b.toNat_lt

/-- `struct.pack("!H", n)` for `n` below 2^16. -/
def word16 (n : Nat) : Bytes := [byte (n / 256), byte n]

/-- `struct.pack("!I", n)` for `n` below 2^32. -/
def word32 (n : Nat) : Bytes := word16 (n / 65536) ++ word16 (n % 65536)

/-- `struct.unpack("!H", data[offset:offset + 2])`, where two bytes are there. -/
def get16 (data : Bytes) (offset : Nat) : Option Nat :=
  match data.drop offset with
  | a :: b :: _ => some (a.toNat * 256 + b.toNat)
  | _ => none

def get32 (data : Bytes) (offset : Nat) : Option Nat :=
  match data.drop offset with
  | a :: b :: c :: d :: _ =>
    some (((a.toNat * 256 + b.toNat) * 256 + c.toNat) * 256 + d.toNat)
  | _ => none

@[simp] theorem length_word16 (n : Nat) : (word16 n).length = 2 := rfl

@[simp] theorem length_word32 (n : Nat) : (word32 n).length = 4 := rfl

/-- What stands behind a known piece. -/
theorem drop_add_length {data piece rest : Bytes} {offset : Nat}
    (h : data.drop offset = piece ++ rest) : data.drop (offset + piece.length) = rest := by
  rw [← List.drop_drop, h, List.drop_left]

theorem get16_of_drop {data rest : Bytes} {offset n : Nat} (hn : n < 65536)
    (h : data.drop offset = word16 n ++ rest) : get16 data offset = some n := by
  rw [get16, h]
  simp only [word16, List.cons_append, List.nil_append, toNat_byte, Option.some.injEq]
  omega

theorem get32_of_drop {data rest : Bytes} {offset n : Nat} (hn : n < 4294967296)
    (h : data.drop offset = word32 n ++ rest) : get32 data offset = some n := by
  rw [get32, h]
  simp only [word32, word16, List.cons_append, List.nil_append, toNat_byte, Option.some.injEq]
  omega

theorem byte_toNat (b : UInt8) : byte b.toNat = b := by simp [byte]

/-- What is read is there. -/
theorem drop_of_get16 {data : Bytes} {offset n : Nat} (h : get16 data offset = some n) :
    data.drop offset = word16 n ++ data.drop (offset + 2) := by
  rw [← List.drop_drop]
  unfold get16 at h
  split at h
  · next a b rest hd =>
    cases h
    have ha := toNat_lt a
    have hb := toNat_lt b
    have hhigh : byte ((a.toNat * 256 + b.toNat) / 256) = a :=
      UInt8.toNat_inj.mp (by rw [toNat_byte]; omega)
    have hlow : byte (a.toNat * 256 + b.toNat) = b :=
      UInt8.toNat_inj.mp (by rw [toNat_byte]; omega)
    rw [hd, word16, hhigh, hlow]
    rfl
  · cases h

theorem le_length_of_get16 {data : Bytes} {offset n : Nat} (h : get16 data offset = some n) :
    offset + 2 ≤ data.length := by
  have hd := congrArg List.length (drop_of_get16 h)
  rw [List.length_append, length_word16, List.length_drop, List.length_drop] at hd
  omega

theorem drop_of_get32 {data : Bytes} {offset n : Nat} (h : get32 data offset = some n) :
    data.drop offset = word32 n ++ data.drop (offset + 4) := by
  rw [← List.drop_drop]
  unfold get32 at h
  split at h
  · next a b c d rest hd =>
    cases h
    have ha := toNat_lt a
    have hb := toNat_lt b
    have hc := toNat_lt c
    have hd' := toNat_lt d
    generalize hn : ((a.toNat * 256 + b.toNat) * 256 + c.toNat) * 256 + d.toNat = n
    have h1 : byte (n / 65536 / 256) = a := UInt8.toNat_inj.mp (by rw [toNat_byte]; omega)
    have h2 : byte (n / 65536) = b := UInt8.toNat_inj.mp (by rw [toNat_byte]; omega)
    have h3 : byte (n % 65536 / 256) = c := UInt8.toNat_inj.mp (by rw [toNat_byte]; omega)
    have h4 : byte (n % 65536) = d := UInt8.toNat_inj.mp (by rw [toNat_byte]; omega)
    rw [hd, word32, word16, word16, h1, h2, h3, h4]
    rfl
  · cases h

theorem get16_lt {data : Bytes} {offset n : Nat} (h : get16 data offset = some n) :
    n < 65536 := by
  unfold get16 at h
  split at h
  · next a b _ _ =>
    have := toNat_lt a
    have := toNat_lt b
    cases h
    omega
  · cases h

theorem get32_lt {data : Bytes} {offset n : Nat} (h : get32 data offset = some n) :
    n < 4294967296 := by
  unfold get32 at h
  split at h
  · next a b c d _ _ =>
    have := toNat_lt a
    have := toNat_lt b
    have := toNat_lt c
    have := toNat_lt d
    cases h
    omega
  · cases h

/-- Two bytes are there exactly when the offset leaves room for them. -/
theorem get16_isSome {data : Bytes} {offset : Nat} (h : offset + 2 ≤ data.length) :
    ∃ n, get16 data offset = some n := by
  have hl : 2 ≤ (data.drop offset).length := by rw [List.length_drop]; omega
  unfold get16
  match hd : data.drop offset with
  | [] => simp [hd] at hl
  | [_] => simp [hd] at hl
  | a :: b :: _ => exact ⟨_, rfl⟩

theorem get32_isSome {data : Bytes} {offset : Nat} (h : offset + 4 ≤ data.length) :
    ∃ n, get32 data offset = some n := by
  have hl : 4 ≤ (data.drop offset).length := by rw [List.length_drop]; omega
  unfold get32
  match hd : data.drop offset with
  | [] => simp [hd] at hl
  | [_] => simp [hd] at hl
  | [_, _] => simp [hd] at hl
  | [_, _, _] => simp [hd] at hl
  | a :: b :: c :: d :: _ => exact ⟨_, rfl⟩

/-! ## Bit fields -/

/-- Fields that do not overlap are joined by adding them. -/
theorem or_eq_add {x y : Nat} (k : Nat) (hx : 2 ^ k ∣ x) (hy : y < 2 ^ k) : x ||| y = x + y := by
  obtain ⟨a, rfl⟩ := hx
  have h := Nat.shiftLeft_add_eq_or_of_lt hy a
  rw [Nat.shiftLeft_eq, Nat.mul_comm] at h
  exact h.symm

end Bytes
