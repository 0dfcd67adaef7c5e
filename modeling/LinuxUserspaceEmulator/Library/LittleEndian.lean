import Mathlib.Tactic.Common

/-!
# Little-endian words

A 64-bit word as a sequence of bytes, lowest byte first, and the word that the first bytes
of a sequence make up.  A machine that stores words byte by byte and assembles them with
shifts and disjunctions computes these two functions.

Main results:

- Theorem `getLsbD_assemble`: the bits of an assembled word.
- Theorem `assemble_byte`: assembling all bytes of a word gives the word.
- Theorem `byte_assemble`: the bytes of an assembled word.
-/

namespace LittleEndian

/-- The byte of a word at a position. -/
def byte (value : BitVec 64) (i : Nat) : BitVec 8 :=
  (value >>> (i * 8)).setWidth 8

/-- The eight bytes of a word, lowest first. -/
def bytes (value : BitVec 64) : List (BitVec 8) :=
  (List.range 8).map (byte value)

theorem length_bytes (value : BitVec 64) : (bytes value).length = 8 := by
  simp [bytes]

/-- The word whose low bytes are the first `count` bytes of a sequence. -/
def assemble (bytes : Nat → BitVec 8) : Nat → BitVec 64
  | 0 => 0
  | count + 1 => assemble bytes count ||| (bytes count).setWidth 64 <<< (count * 8)

variable {bytes bytes' : Nat → BitVec 8} {count : Nat}

/-- The first bytes decide the word. -/
theorem assemble_congr (h : ∀ i < count, bytes i = bytes' i) :
    assemble bytes count = assemble bytes' count := by
  induction count with
  | zero => rfl
  | succ count ih =>
      rw [assemble, assemble, ih fun i hi => h i (Nat.lt_succ_of_lt hi),
        h count (Nat.lt_succ_self count)]

/-- The bits of an assembled word are those of its bytes. -/
theorem getLsbD_assemble (hcount : count ≤ 8) (i : Nat) :
    (assemble bytes count).getLsbD i =
      (decide (i < count * 8) && (bytes (i / 8)).getLsbD (i % 8)) := by
  induction count with
  | zero => simp [assemble]
  | succ count ih =>
      rw [assemble, BitVec.getLsbD_or, ih (by omega), BitVec.getLsbD_shiftLeft,
        BitVec.getLsbD_setWidth]
      by_cases hlow : i < count * 8
      · have hnext : i < (count + 1) * 8 := by omega
        simp [hlow, hnext]
      · by_cases hnext : i < (count + 1) * 8
        · have hquotient : i / 8 = count := by omega
          have hremainder : i - count * 8 = i % 8 := by omega
          have hsmall : i % 8 < 64 := by omega
          have hbit : i < 64 := by omega
          simp [hlow, hnext, hquotient, hremainder, hsmall, hbit]
        · have hout : 8 ≤ i - count * 8 := by omega
          simp [hlow, hnext, BitVec.getLsbD_of_ge _ _ hout]

/-- Assembling all bytes of a word gives the word. -/
@[simp]
theorem assemble_byte (value : BitVec 64) : assemble (byte value) 8 = value := by
  apply BitVec.eq_of_getLsbD_eq
  intro i hi
  have hindex : i / 8 * 8 + i % 8 = i := by omega
  have hlow : i % 8 < 8 := by omega
  rw [getLsbD_assemble (Nat.le_refl 8), byte, BitVec.getLsbD_setWidth, BitVec.getLsbD_ushiftRight,
    hindex]
  simp [hi, hlow]

/-- Assembling the low bytes of a word that has no others gives the word. -/
theorem assemble_byte_setWidth (hcount : count ≤ 8) (value : BitVec (count * 8)) :
    assemble (byte (value.setWidth 64)) count = value.setWidth 64 := by
  apply BitVec.eq_of_getLsbD_eq
  intro i hi
  have hindex : i / 8 * 8 + i % 8 = i := by omega
  have hlow : i % 8 < 8 := by omega
  rw [getLsbD_assemble hcount, byte, BitVec.getLsbD_setWidth, BitVec.getLsbD_ushiftRight, hindex,
    BitVec.getLsbD_setWidth]
  by_cases hinside : i < count * 8
  · simp [hinside, hlow]
  · simp [hinside, BitVec.getLsbD_of_ge value i (Nat.le_of_not_lt hinside)]

/-- The bytes of an assembled word are the bytes it was assembled from. -/
theorem byte_assemble (hcount : count ≤ 8) {i : Nat} (hi : i < count) :
    byte (assemble bytes count) i = bytes i := by
  apply BitVec.eq_of_getLsbD_eq
  intro j hj
  have hindex : i * 8 + j < count * 8 := by omega
  have hquotient : (i * 8 + j) / 8 = i := by omega
  have hremainder : (i * 8 + j) % 8 = j := by omega
  rw [byte, BitVec.getLsbD_setWidth, BitVec.getLsbD_ushiftRight, getLsbD_assemble hcount,
    hquotient, hremainder]
  simp [hj, hindex]

/-- An assembled word has no bytes above those it was assembled from. -/
theorem byte_assemble_of_le (hcount : count ≤ 8) {i : Nat} (hi : count ≤ i) :
    byte (assemble bytes count) i = 0 := by
  apply BitVec.eq_of_getLsbD_eq
  intro j _
  have hindex : ¬i * 8 + j < count * 8 := by omega
  rw [byte, BitVec.getLsbD_setWidth, BitVec.getLsbD_ushiftRight, getLsbD_assemble hcount]
  simp [hindex]

/-- Words that are assembled from bytes are equal when the bytes are. -/
theorem assemble_eq_iff (hcount : count ≤ 8) :
    assemble bytes count = assemble bytes' count ↔ ∀ i < count, bytes i = bytes' i := by
  constructor
  · intro h i hi
    have hbyte : byte (assemble bytes count) i = bytes i := byte_assemble hcount hi
    rw [← hbyte, h, byte_assemble hcount hi]
  · exact assemble_congr

/-- Assembling the low bytes of a word gives its low bits. -/
theorem setWidth_assemble_byte (hcount : count ≤ 8) (value : BitVec 64) :
    (assemble (byte value) count).setWidth (count * 8) = value.setWidth (count * 8) := by
  apply BitVec.eq_of_getLsbD_eq
  intro i hi
  have hindex : i / 8 * 8 + i % 8 = i := by omega
  have hlow : i % 8 < 8 := by omega
  rw [BitVec.getLsbD_setWidth, BitVec.getLsbD_setWidth, getLsbD_assemble hcount, byte,
    BitVec.getLsbD_setWidth, BitVec.getLsbD_ushiftRight, hindex]
  simp [hi, hlow]

/-- A word assembled from bytes has no bits above them. -/
theorem setWidth_assemble_inj (hcount : count ≤ 8) :
    (assemble bytes count).setWidth (count * 8) = (assemble bytes' count).setWidth (count * 8) ↔
      assemble bytes count = assemble bytes' count := by
  constructor
  · intro h
    apply BitVec.eq_of_getLsbD_eq
    intro i _
    by_cases hi : i < count * 8
    · have hbit := congrArg (fun word => word.getLsbD i) h
      simpa [BitVec.getLsbD_setWidth, hi] using hbit
    · rw [getLsbD_assemble hcount, getLsbD_assemble hcount, decide_eq_false hi]
      rfl
  · intro h
    rw [h]

end LittleEndian
