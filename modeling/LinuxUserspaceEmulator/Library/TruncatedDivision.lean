import Mathlib.Algebra.Group.Int.Defs
import Mathlib.Algebra.Group.Nat.Defs
import Mathlib.Data.Int.Order.Basic
import Mathlib.Tactic.Common

/-!
# Truncated division of machine words

A word of `w` bits stands for an unsigned or a signed integer.  A machine divides the integer of
a word twice as wide by that of a word, truncates the quotient and puts both results into words,
which is possible exactly when the quotient fits.

Main results:

- Theorem `divisionLaw_iff`: the division law determines quotient and remainder.
- Theorem `wordValue_ofInt`: a word holds every integer that fits.
- Theorem `fits_tmod`: the remainder always fits.
- Theorem `wordValue_append`: the integer of a double word.
-/

namespace TruncatedDivision

/-! ## The division law -/

/-- Division with a remainder that is smaller than the divisor and has the sign of the
dividend. -/
structure DivisionLaw (dividend divisor quotient remainder : Int) : Prop where
  law : dividend = quotient * divisor + remainder
  small : remainder.natAbs < divisor.natAbs
  sign : remainder = 0 ∨ remainder.sign = dividend.sign

variable {dividend divisor quotient remainder : Int}

/-- The law determines the quotient and the remainder: division truncates. -/
theorem divisionLaw_iff (hdivisor : divisor ≠ 0) :
    DivisionLaw dividend divisor quotient remainder ↔
      dividend.tdiv divisor = quotient ∧ dividend.tmod divisor = remainder := by
  constructor
  · rintro ⟨hlaw, hsmall, hsign⟩
    have hsum : remainder + divisor * quotient = dividend := by
      rw [hlaw, Int.mul_comm, Int.add_comm]
    rcases Int.le_total 0 dividend with hpos | hneg
    · have hnonneg : 0 ≤ remainder := by
        rcases hsign with rfl | hsign
        · exact Int.le_refl 0
        · rwa [← Int.sign_nonneg_iff, hsign, Int.sign_nonneg_iff]
      refine (Int.tdiv_tmod_unique hpos hdivisor).mpr ⟨hsum, hnonneg, ?_⟩
      omega
    · have hnonpos : remainder ≤ 0 := by
        rcases hsign with rfl | hsign
        · exact Int.le_refl 0
        · by_contra hlt
          have hone := Int.sign_eq_one_iff_pos.mpr (Int.not_le.mp hlt)
          rw [hsign, Int.sign_eq_one_iff_pos] at hone
          omega
      refine (Int.tdiv_tmod_unique' hneg hdivisor).mpr ⟨hsum, ?_, hnonpos⟩
      omega
  · rintro ⟨rfl, rfl⟩
    refine ⟨(Int.tdiv_mul_add_tmod dividend divisor).symm, ?_, ?_⟩
    · rw [Int.natAbs_tmod]
      exact Nat.mod_lt _ (Int.natAbs_pos.mpr hdivisor)
    · by_cases hdvd : divisor ∣ dividend
      · exact Or.inl (Int.tmod_eq_zero_of_dvd hdvd)
      · exact Or.inr (by rw [Int.sign_tmod, if_neg hdvd])

/-! ## Words -/

/-- The integer that a word stands for. -/
def wordValue {w : Nat} (signed : Bool) (word : BitVec w) : Int :=
  if signed then word.toInt else word.toNat

/-- The integers that words stand for. -/
def Fits (signed : Bool) (w : Nat) (value : Int) : Prop :=
  if signed then -2 ^ (w - 1) ≤ value ∧ value < 2 ^ (w - 1) else 0 ≤ value ∧ value < 2 ^ w

variable {w : Nat} {signed : Bool}

theorem fits_wordValue (word : BitVec w) : Fits signed w (wordValue signed word) := by
  cases signed with
  | true => exact ⟨BitVec.le_toInt word, BitVec.toInt_lt⟩
  | false =>
      have hlt : ((word.toNat : Nat) : Int) < ((2 ^ w : Nat) : Int) := Int.ofNat_lt.mpr word.isLt
      rw [Int.natCast_pow] at hlt
      exact ⟨Int.natCast_nonneg _, hlt⟩

/-- A word holds every integer that fits. -/
theorem wordValue_ofInt (hw : 0 < w) {value : Int} (h : Fits signed w value) :
    wordValue signed (BitVec.ofInt w value) = value := by
  cases signed with
  | true => exact BitVec.toInt_ofInt_eq_self hw h.1 h.2
  | false =>
      have hlt : value < 2 ^ w := h.2
      have hmod : value % 2 ^ w = value := Int.emod_eq_of_lt h.1 hlt
      have hcast : ((2 ^ w : Nat) : Int) = 2 ^ w := Int.natCast_pow 2 w
      rw [wordValue, if_neg Bool.false_ne_true, BitVec.toNat_ofInt, hcast, hmod,
        Int.toNat_of_nonneg h.1]

/-- The remainder fits whenever the divisor does. -/
theorem fits_tmod (hfits : Fits signed w divisor) (hdivisor : divisor ≠ 0)
    (hdividend : signed = false → 0 ≤ dividend) : Fits signed w (dividend.tmod divisor) := by
  have hsmall : (dividend.tmod divisor).natAbs < divisor.natAbs :=
    ((divisionLaw_iff hdivisor).mpr ⟨rfl, rfl⟩).small
  cases signed with
  | true =>
      rcases hfits with ⟨hlow, hhigh⟩
      constructor <;> omega
  | false =>
      rcases hfits with ⟨hlow, hhigh⟩
      have hnonneg := Int.tmod_nonneg divisor (hdividend rfl)
      refine ⟨hnonneg, Int.lt_of_lt_of_le (b := divisor) ?_ (Int.le_of_lt hhigh)⟩
      omega

/-- The quotient of two words fits, but for that of the most negative word by minus one. -/
theorem fits_tdiv (hfits : Fits true w dividend) (hdivisor : divisor ≠ 0)
    (hcorner : ¬(dividend = -2 ^ (w - 1) ∧ divisor = -1)) :
    Fits true w (dividend.tdiv divisor) := by
  rcases hfits with ⟨hlow, hhigh⟩
  have hle := Int.natAbs_tdiv_le_natAbs dividend divisor
  by_cases hmost : dividend = -2 ^ (w - 1)
  · rcases Int.lt_or_gt_of_ne hdivisor with hneg | hpos
    · -- the divisor is at most minus two and halves the dividend
      have htwo : 2 ≤ divisor.natAbs := by
        have hne : divisor ≠ -1 := fun h => hcorner ⟨hmost, h⟩
        omega
      have hhalf : (dividend.tdiv divisor).natAbs ≤ dividend.natAbs / 2 := by
        rw [Int.natAbs_tdiv]
        exact Nat.div_le_div_left htwo (by decide)
      constructor <;> omega
    · have hnonpos : dividend.tdiv divisor ≤ 0 := by
        rw [← Int.neg_nonneg, ← Int.neg_tdiv]
        exact Int.tdiv_nonneg (by omega) (Int.le_of_lt hpos)
      constructor <;> omega
  · constructor <;> omega

/-- The integer of a double word. -/
theorem wordValue_append (hw : 0 < w) (high low : BitVec w) :
    wordValue signed (high ++ low) = wordValue signed high * 2 ^ w + low.toNat := by
  cases signed with
  | true =>
      have hne : (w == 0) = false := beq_eq_false_iff_ne.mpr (Nat.pos_iff_ne_zero.mp hw)
      rw [wordValue, wordValue, if_pos rfl, if_pos rfl, BitVec.toInt_append, hne, Int.mul_comm]
      rfl
  | false =>
      have hsum : (high ++ low).toNat = high.toNat * 2 ^ w + low.toNat := by
        rw [BitVec.toNat_append, ← Nat.shiftLeft_add_eq_or_of_lt low.isLt, Nat.shiftLeft_eq]
      rw [wordValue, wordValue, if_neg Bool.false_ne_true, if_neg Bool.false_ne_true, hsum,
        Int.natCast_add, Int.natCast_mul, Int.natCast_pow]
      rfl

end TruncatedDivision
