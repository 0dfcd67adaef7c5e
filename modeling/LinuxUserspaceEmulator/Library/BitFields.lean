import Mathlib.Algebra.Group.Nat.Defs
import Mathlib.Tactic.Common

/-!
# Bit fields of words

A field of a word is a run of its bits.  Reading a field shifts it down, writing it replaces its
bits and no others.

Main results:

- Theorems `getLsbD_get` and `getLsbD_set`: the bits of a field that was read, and those of a
  word whose field was written.
- Theorems `get_set`, `set_get` and `set_set`: the laws of a lens.
-/

namespace BitField

variable {w start length i : Nat} {word value value' : BitVec w}

/-- The word whose lowest bits are set. -/
def mask (w length : Nat) : BitVec w :=
  BitVec.ofNat w (2 ^ length - 1)

/-- The field of a word, shifted down. -/
def get (word : BitVec w) (start length : Nat) : BitVec w :=
  word >>> start &&& mask w length

/-- The word with the lowest bits of a value in its field. -/
def set (word : BitVec w) (start length : Nat) (value : BitVec w) : BitVec w :=
  word &&& ~~~(mask w length <<< start) ||| (value &&& mask w length) <<< start

@[simp]
theorem getLsbD_mask : (mask w length).getLsbD i = (decide (i < w) && decide (i < length)) := by
  rw [mask, BitVec.getLsbD_ofNat, Nat.testBit_two_pow_sub_one]

theorem getLsbD_get (h : start + length ≤ w) :
    (get word start length).getLsbD i = (decide (i < length) && word.getLsbD (start + i)) := by
  rw [get, BitVec.getLsbD_and, BitVec.getLsbD_ushiftRight, getLsbD_mask]
  by_cases hinside : i < length
  · have hi : i < w := by omega
    simp [hinside, hi]
  · simp [hinside]

theorem getLsbD_set (h : start + length ≤ w) :
    (set word start length value).getLsbD i =
      if start ≤ i ∧ i < start + length then value.getLsbD (i - start) else word.getLsbD i := by
  simp only [set, BitVec.getLsbD_or, BitVec.getLsbD_and, BitVec.getLsbD_not,
    BitVec.getLsbD_shiftLeft, getLsbD_mask]
  by_cases hi : i < w
  · by_cases hstart : start ≤ i
    · have hshifted : i - start < w := by omega
      have hinside : i - start < length ↔ i < start + length := by omega
      by_cases hend : i < start + length
      · simp [hi, hshifted, hinside, hend, Nat.not_lt.mpr hstart, hstart]
      · simp [hi, hinside, hend]
    · simp [hi, Nat.lt_of_not_le hstart, hstart]
  · have houtside : ¬(start ≤ i ∧ i < start + length) := by omega
    simp [hi, houtside, BitVec.getLsbD_of_ge word i (Nat.le_of_not_lt hi)]

/-- Only the lowest bits of the value count. -/
theorem set_and_mask (word value : BitVec w) :
    set word start length (value &&& mask w length) = set word start length value := by
  rw [set, set, BitVec.and_assoc, BitVec.and_self]

/-- The lowest bits of a word are replaced in place. -/
theorem set_zero (word value : BitVec w) :
    set word 0 length value = word &&& ~~~mask w length ||| value &&& mask w length := by
  rw [set, BitVec.shiftLeft_zero, BitVec.shiftLeft_zero]

/-- The field that is the whole word. -/
theorem set_whole (word value : BitVec w) : set word 0 w value = value := by
  apply BitVec.eq_of_getLsbD_eq
  intro i hi
  rw [getLsbD_set (by omega), if_pos (by omega), Nat.sub_zero]

/-- Reading a field that was written. -/
theorem get_set (h : start + length ≤ w) :
    get (set word start length value) start length = value &&& mask w length := by
  apply BitVec.eq_of_getLsbD_eq
  intro i hi
  rw [getLsbD_get h, getLsbD_set h, BitVec.getLsbD_and, getLsbD_mask]
  by_cases hinside : i < length
  · simp [hinside, hi]
  · simp [hinside]

/-- Writing what was read. -/
theorem set_get (h : start + length ≤ w) :
    set word start length (get word start length) = word := by
  apply BitVec.eq_of_getLsbD_eq
  intro i _
  rw [getLsbD_set h, getLsbD_get h]
  split
  next hinside =>
    have hoffset : i - start < length := by omega
    have hindex : start + (i - start) = i := by omega
    simp [hoffset, hindex]
  next => rfl

/-- The second of two writes wins. -/
theorem set_set (h : start + length ≤ w) :
    set (set word start length value) start length value' = set word start length value' := by
  apply BitVec.eq_of_getLsbD_eq
  intro i _
  rw [getLsbD_set h, getLsbD_set h, getLsbD_set h]
  split
  · rfl
  · rfl

end BitField
