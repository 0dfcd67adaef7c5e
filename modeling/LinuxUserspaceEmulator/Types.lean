import Mathlib.Algebra.Group.Int.Defs
import Mathlib.Algebra.Group.Nat.Defs
import Mathlib.Tactic.Common

/-!
# Fixed-width integers, page rounding and exceptions

The emulator computes with fixed-width unsigned integers that wrap, rounds guest
addresses to pages with bit masks, and reports guest faults by throwing.  This file
embeds those basics (`Types.h`, `ValueWithShadow.h`).

Main results:

- Theorem `toNat_pageAlignDown`: rounding down is division by the page size.
- Theorem `toNat_pageAlignUp`: rounding up wraps, so the last page rounds to zero.
- Theorem `toNat_pageAlignUp_of_le`: below the last page rounding up is exact.
-/

namespace LUE

/-! ## Integers -/

abbrev U8 := BitVec 8
abbrev U16 := BitVec 16
abbrev U32 := BitVec 32
abbrev U64 := BitVec 64

/-! Membership in the opcode lists and in the address sets is decided by these instances. -/

instance lawfulBEq_U8 : LawfulBEq U8 := inferInstance
instance lawfulBEq_U64 : LawfulBEq U64 := inferInstance

/-- `std::max`. -/
def stdMax (a b : U64) : U64 :=
  if a < b then b else a

/-- `std::min`. -/
def stdMin (a b : U64) : U64 :=
  if b < a then b else a

theorem toNat_stdMax (a b : U64) : (stdMax a b).toNat = max a.toNat b.toNat := by
  unfold stdMax
  split <;> rename_i h <;> rw [BitVec.lt_def] at h <;> omega

theorem toNat_stdMin (a b : U64) : (stdMin a b).toNat = min a.toNat b.toNat := by
  unfold stdMin
  split <;> rename_i h <;> rw [BitVec.lt_def] at h <;> omega

theorem stdMax_self (a : U64) : stdMax a a = a := by
  simp [stdMax]

/-! ## Exceptions -/

/-- The ways in which emulator code stops before its normal end. -/
inductive Raise where
  /-- `EmulatorError`, with its message. -/
  | emulatorError (what : String)
  /-- `GuestExit`, with the status the guest ended with. -/
  | guestExit (status : Int)
  /-- An access outside a host container: the C++ standard leaves the behaviour undefined
  or the container throws an exception the emulator does not handle. -/
  | hostFault
  /-- A loop of the emulator that never ends. -/
  | divergence
deriving DecidableEq, Repr

/-- `hex`: hexadecimal digits after `0x`, padded with zeros to the width. -/
def hex (value : U64) (width : Nat := 0) : String :=
  let digits := Nat.toDigits 16 value.toNat
  String.ofList ("0x".toList ++ List.replicate (width - digits.length) '0' ++ digits)

/-! ## Pages -/

def pageSize : U64 := 4096

/-- Round down to the start of the containing page. -/
def pageAlignDown (value : U64) : U64 :=
  value &&& ~~~(pageSize - 1)

/-- Round up to the next page boundary, leaving aligned values unchanged. -/
def pageAlignUp (value : U64) : U64 :=
  (value + pageSize - 1) &&& ~~~(pageSize - 1)

/-- Rounding up to pages computed without wrapping. -/
def roundUpToPage (n : Nat) : Nat :=
  (n + 4095) / 4096 * 4096

theorem roundUpToPage_mod (n : Nat) : roundUpToPage n % 4096 = 0 := by
  simp [roundUpToPage]

theorem le_roundUpToPage (n : Nat) : n ≤ roundUpToPage n := by
  unfold roundUpToPage
  omega

theorem roundUpToPage_lt (n : Nat) : roundUpToPage n < n + 4096 := by
  unfold roundUpToPage
  omega

theorem roundUpToPage_of_mod {n : Nat} (h : n % 4096 = 0) : roundUpToPage n = n := by
  unfold roundUpToPage
  omega

/-- Masking out the low bits of an integer rounds it down to a multiple of their weight. -/
theorem toNat_and_not_lowMask {mask : U64} {k : Nat}
    (hmask : ∀ i : Fin 64, mask.getLsbD i.val = decide (i.val < k)) (value : U64) :
    (value &&& ~~~mask).toNat = value.toNat / 2 ^ k * 2 ^ k := by
  have hshift : value &&& ~~~mask = value >>> k <<< k := by
    apply BitVec.eq_of_getLsbD_eq
    intro i hi
    have hbit := hmask ⟨i, hi⟩
    simp only at hbit
    rw [BitVec.getLsbD_and, BitVec.getLsbD_not, hbit, BitVec.getLsbD_shiftLeft,
      BitVec.getLsbD_ushiftRight]
    by_cases hlow : i < k
    · simp [hlow]
    · have hsum : k + (i - k) = i := by omega
      simp [hlow, hi, hsum]
  rw [hshift, BitVec.toNat_shiftLeft, BitVec.toNat_ushiftRight, Nat.shiftRight_eq_div_pow,
    Nat.shiftLeft_eq]
  apply Nat.mod_eq_of_lt
  have hle := Nat.div_mul_le_self value.toNat (2 ^ k)
  have hlt := value.isLt
  omega

theorem toNat_and_not_pageMask (value : U64) :
    (value &&& ~~~(pageSize - 1)).toNat = value.toNat / 4096 * 4096 :=
  toNat_and_not_lowMask (k := 12) (by decide) value

/-- Rounding down keeps the quotient by the page size. -/
@[simp]
theorem toNat_pageAlignDown (value : U64) :
    (pageAlignDown value).toNat = value.toNat / 4096 * 4096 :=
  toNat_and_not_pageMask value

/-- Rounding up adds the page mask first, and that sum wraps. -/
theorem toNat_pageAlignUp (value : U64) :
    (pageAlignUp value).toNat = (value.toNat + 4095) % 2 ^ 64 / 4096 * 4096 := by
  have hsum : (value + pageSize - 1).toNat = (value.toNat + 4095) % 2 ^ 64 := by
    simp only [pageSize, BitVec.toNat_sub, BitVec.toNat_add, BitVec.ofNat_eq_ofNat,
      BitVec.toNat_ofNat]
    omega
  rw [pageAlignUp, toNat_and_not_pageMask, hsum]

/-- Up to the last page boundary nothing wraps. -/
theorem toNat_pageAlignUp_of_le {value : U64} (h : value.toNat ≤ 2 ^ 64 - 4096) :
    (pageAlignUp value).toNat = roundUpToPage value.toNat := by
  rw [toNat_pageAlignUp, roundUpToPage, Nat.mod_eq_of_lt (by omega)]

/-- Past the last page boundary the rounded value wraps to zero. -/
theorem toNat_pageAlignUp_of_gt {value : U64} (h : 2 ^ 64 - 4096 < value.toNat) :
    (pageAlignUp value).toNat = 0 := by
  have hlt := value.isLt
  rw [toNat_pageAlignUp]
  omega

theorem pageAlignDown_mod (value : U64) : (pageAlignDown value).toNat % 4096 = 0 := by
  simp

theorem pageAlignUp_mod (value : U64) : (pageAlignUp value).toNat % 4096 = 0 := by
  simp [toNat_pageAlignUp]

theorem pageAlignDown_of_mod {value : U64} (h : value.toNat % 4096 = 0) :
    pageAlignDown value = value := by
  apply BitVec.eq_of_toNat_eq
  rw [toNat_pageAlignDown]
  omega

theorem pageAlignUp_of_mod {value : U64} (h : value.toNat % 4096 = 0) :
    pageAlignUp value = value := by
  have hlt := value.isLt
  apply BitVec.eq_of_toNat_eq
  rw [toNat_pageAlignUp]
  omega

/-! ## Values with shadow -/

/-- A value together with its shadow word: a zero shadow means initialized. -/
structure ValueWithShadow (w : Nat) where
  value : BitVec w
  shadow : BitVec w
deriving DecidableEq, Repr

namespace ValueWithShadow

variable {w : Nat}

def initialized (value : BitVec w) : ValueWithShadow w :=
  ⟨value, 0⟩

def uninitialized (value : BitVec w) : ValueWithShadow w :=
  ⟨value, BitVec.allOnes w⟩

def isInitialized (v : ValueWithShadow w) : Bool :=
  v.shadow == 0

def isUninitialized (v : ValueWithShadow w) : Bool :=
  v.shadow != 0

end ValueWithShadow

end LUE
