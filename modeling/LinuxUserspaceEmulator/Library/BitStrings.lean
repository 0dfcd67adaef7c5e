import LinuxUserspaceEmulator.Library.LittleEndian

/-!
# Bit strings in memory

Memory around an address as a string of bits, indexed by integers: eight bits a byte, lowest bit
first.  A machine finds a bit in a word of several bytes; where its division truncates, it steps
back to the word before.

Main results:

- Theorems `floor_quotient` and `floor_remainder`: the floor from a division that truncates.
- Theorem `bitAt_of_holds`: the bit of a word is that bit of the string.
- Theorem `bitAt_of_stored`: a word stored with one bit changed changes that bit of the string.
-/

namespace BitStrings

/-! ## Division -/

/-- A truncated quotient, stepped back when the remainder is negative. -/
theorem floor_quotient (s : Int) {n : Nat} (hn : 0 < n) :
    (if s.tmod n < 0 then s.tdiv n - 1 else s.tdiv n) = s / n := by
  have hdvd : (n : Int) ∣ s ↔ s % n = 0 := Int.dvd_iff_emod_eq_zero
  have hlow := Int.emod_nonneg s (Int.natCast_ne_zero.mpr (Nat.pos_iff_ne_zero.mp hn))
  have hhigh := Int.emod_lt_of_pos s (Int.natCast_pos.mpr hn)
  have hsign : (n : Int).sign = 1 := Int.sign_eq_one_of_pos (Int.natCast_pos.mpr hn)
  rw [Int.tmod_eq_emod, Int.tdiv_eq_ediv, hsign, Int.natAbs_natCast]
  by_cases hexact : 0 ≤ s ∨ (n : Int) ∣ s
  · rw [if_pos hexact, if_pos hexact]
    split <;> omega
  · rw [if_neg hexact, if_neg hexact]
    split <;> omega

/-- A truncated remainder, made positive. -/
theorem floor_remainder (s : Int) {n : Nat} (hn : 0 < n) :
    (if s.tmod n < 0 then s.tmod n + n else s.tmod n) = s % n := by
  have hlow := Int.emod_nonneg s (Int.natCast_ne_zero.mpr (Nat.pos_iff_ne_zero.mp hn))
  have hhigh := Int.emod_lt_of_pos s (Int.natCast_pos.mpr hn)
  rw [Int.tmod_eq_emod, Int.natAbs_natCast]
  by_cases hexact : 0 ≤ s ∨ (n : Int) ∣ s
  · rw [if_pos hexact]
    split <;> omega
  · rw [if_neg hexact]
    split <;> omega

/-! ## Positions -/

/-- The byte of a bit. -/
def byteOf (base : BitVec 64) (s : Int) : BitVec 64 :=
  base + BitVec.ofInt 64 (s / 8)

/-- The position of a bit in its byte. -/
def indexOf (s : Int) : Nat :=
  (s % 8).toNat

/-- The word of a bit, for words of `count` bytes. -/
def wordOf (count : Nat) (base : BitVec 64) (s : Int) : BitVec 64 :=
  base + BitVec.ofInt 64 (s / (count * 8 : Nat) * count)

/-- The position of a bit in its word. -/
def wordIndexOf (count : Nat) (s : Int) : Nat :=
  (s % (count * 8 : Nat)).toNat

variable {count : Nat} {base address : BitVec 64} {s : Int}
  {memory memory' : BitVec 64 → Option (BitVec 8)} {bytes : Nat → BitVec 8}
  {word word' : BitVec 64}

theorem wordIndexOf_lt (hcount : 0 < count) (s : Int) : wordIndexOf count s < count * 8 := by
  have hpos : (0 : Int) < (count * 8 : Nat) := Int.natCast_pos.mpr (Nat.mul_pos hcount (by decide))
  have hlow := Int.emod_nonneg s (Int.ne_of_gt hpos)
  have hhigh := Int.emod_lt_of_pos s hpos
  rw [wordIndexOf]
  omega

/-- The position in the byte is that in the word. -/
theorem wordIndexOf_mod (hcount : 0 < count) (s : Int) :
    wordIndexOf count s % 8 = indexOf s := by
  have hpos : (0 : Int) < (count * 8 : Nat) := Int.natCast_pos.mpr (Nat.mul_pos hcount (by decide))
  have hlow := Int.emod_nonneg s (Int.ne_of_gt hpos)
  have hmod : s % (count * 8 : Nat) % 8 = s % 8 :=
    Int.emod_emod_of_dvd s ⟨count, by push_cast; exact Int.mul_comm _ _⟩
  rw [wordIndexOf, indexOf, ← hmod]
  omega

/-- The byte of a bit is a byte of its word. -/
theorem byteOf_eq (hcount : 0 < count) (base : BitVec 64) (s : Int) :
    byteOf base s = wordOf count base s + BitVec.ofNat 64 (wordIndexOf count s / 8) := by
  have hpos : (0 : Int) < (count * 8 : Nat) := Int.natCast_pos.mpr (Nat.mul_pos hcount (by decide))
  have hlow := Int.emod_nonneg s (Int.ne_of_gt hpos)
  have hdivision := Int.mul_ediv_add_emod s (count * 8 : Nat)
  have hquotient : s / 8 = s / (count * 8 : Nat) * count + (wordIndexOf count s / 8 : Nat) := by
    have hscale : ((count * 8 : Nat) : Int) * (s / (count * 8 : Nat)) =
        8 * (s / (count * 8 : Nat) * count) := by
      rw [Int.natCast_mul, Int.mul_comm (count : Int), Int.mul_assoc, Int.mul_comm (count : Int)]
      rfl
    rw [wordIndexOf]
    omega
  rw [byteOf, wordOf, hquotient, BitVec.ofInt_add, BitVec.ofInt_natCast, BitVec.add_assoc]

/-! ## Words -/

/-- A bit of the byte at an address. -/
def bitAt (memory : BitVec 64 → Option (BitVec 8)) (address : BitVec 64) (i : Nat) :
    Option Bool :=
  (memory address).map fun byte => byte.getLsbD i

/-- The bytes are in memory from an address on. -/
def Holds (memory : BitVec 64 → Option (BitVec 8)) (address : BitVec 64)
    (bytes : Nat → BitVec 8) (count : Nat) : Prop :=
  ∀ i < count, memory (address + BitVec.ofNat 64 i) = some (bytes i)

/-- The memory after a word was stored. -/
def Stored (memory memory' : BitVec 64 → Option (BitVec 8)) (address word : BitVec 64)
    (count : Nat) : Prop :=
  ∀ other, memory' other =
    if (other - address).toNat < count then
      some (LittleEndian.byte word (other - address).toNat)
    else memory other

theorem add_offset (address other : BitVec 64) :
    address + BitVec.ofNat 64 (other - address).toNat = other := by
  rw [BitVec.ofNat_toNat, BitVec.setWidth_eq, BitVec.add_comm, BitVec.sub_add_cancel]

/-- Storing the word that is there changes nothing. -/
theorem stored_of_holds (hcount : count ≤ 8) (hholds : Holds memory address bytes count) :
    Stored memory memory address (LittleEndian.assemble bytes count) count := by
  intro other
  by_cases hinside : (other - address).toNat < count
  · rw [if_pos hinside, LittleEndian.byte_assemble hcount hinside, ← hholds _ hinside, add_offset]
  · rw [if_neg hinside]

/-- The bits of a word are bits of its bytes. -/
theorem getLsbD_of_holds (hcount : count ≤ 8) (hholds : Holds memory address bytes count)
    {j : Nat} (hj : j < count * 8) :
    bitAt memory (address + BitVec.ofNat 64 (j / 8)) (j % 8) =
      some ((LittleEndian.assemble bytes count).getLsbD j) := by
  rw [bitAt, hholds _ (by omega), LittleEndian.getLsbD_assemble hcount, decide_eq_true hj,
    Bool.true_and]
  rfl

/-- The bit of a word is that bit of the string. -/
theorem bitAt_of_holds (hpos : 0 < count) (hcount : count ≤ 8)
    (hholds : Holds memory (wordOf count base s) bytes count) :
    bitAt memory (byteOf base s) (indexOf s) =
      some ((LittleEndian.assemble bytes count).getLsbD (wordIndexOf count s)) := by
  rw [byteOf_eq hpos, ← wordIndexOf_mod hpos]
  exact getLsbD_of_holds hcount hholds (wordIndexOf_lt hpos s)

/-- A word stored with one bit changed changes that bit of the string. -/
theorem bitAt_of_stored (hpos : 0 < count) (hcount : count ≤ 8)
    (hholds : Holds memory (wordOf count base s) bytes count)
    (hstored : Stored memory memory' (wordOf count base s) word' count)
    (hothers : ∀ j < count * 8, j ≠ wordIndexOf count s →
      word'.getLsbD j = (LittleEndian.assemble bytes count).getLsbD j)
    (other : BitVec 64) {i : Nat} (hi : i < 8) :
    bitAt memory' other i =
      if other = byteOf base s ∧ i = indexOf s then some (word'.getLsbD (wordIndexOf count s))
      else bitAt memory other i := by
  have hlt := wordIndexOf_lt hpos s
  by_cases hinside : (other - wordOf count base s).toNat < count
  · -- the address is a byte of the word
    generalize hoffset : (other - wordOf count base s).toNat = k at hinside
    have hother : wordOf count base s + BitVec.ofNat 64 k = other := by
      rw [← hoffset, add_offset]
    have hquotient : (k * 8 + i) / 8 = k := by omega
    have hremainder : (k * 8 + i) % 8 = i := by omega
    have hafter : bitAt memory' other i = some (word'.getLsbD (k * 8 + i)) := by
      rw [bitAt, hstored other, hoffset, if_pos hinside, Option.map_some, LittleEndian.byte,
        BitVec.getLsbD_setWidth, BitVec.getLsbD_ushiftRight, decide_eq_true hi, Bool.true_and]
    have hbefore := getLsbD_of_holds hcount hholds (show k * 8 + i < count * 8 by omega)
    rw [hquotient, hremainder, hother] at hbefore
    rw [hafter, hbefore]
    have hsame : other = byteOf base s ∧ i = indexOf s ↔ k * 8 + i = wordIndexOf count s := by
      rw [byteOf_eq hpos, ← wordIndexOf_mod hpos, ← hother, BitVec.add_right_inj]
      constructor
      · rintro ⟨hbyte, hindex⟩
        have hk := congrArg BitVec.toNat hbyte
        rw [BitVec.toNat_ofNat, BitVec.toNat_ofNat, Nat.mod_eq_of_lt (by omega),
          Nat.mod_eq_of_lt (by omega)] at hk
        omega
      · intro hposition
        rw [← hposition, hquotient, hremainder]
        exact ⟨rfl, rfl⟩
    by_cases hposition : k * 8 + i = wordIndexOf count s
    · rw [if_pos (hsame.mpr hposition), hposition]
    · rw [if_neg (mt hsame.mp hposition), hothers _ (by omega) hposition]
  · have hother : other ≠ byteOf base s := by
      rintro rfl
      apply hinside
      rw [byteOf_eq hpos, BitVec.add_comm, BitVec.add_sub_cancel, BitVec.toNat_ofNat]
      omega
    rw [if_neg fun h => hother h.1, bitAt, hstored other, if_neg hinside]
    rfl

end BitStrings
