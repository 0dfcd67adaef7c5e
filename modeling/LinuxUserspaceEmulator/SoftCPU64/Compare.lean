import LinuxUserspaceEmulator.SoftCPU64.Flags

/-!
# Comparing with flags

`CMP` subtracts and keeps only the flags; a conditional instruction then reads an ordering
off them.  The operands may have bits above the width, as sign-extended immediates do, and
the sign and overflow flags come from single bits of the unmasked operands.

Main results:

- Theorem `getLsbD_signBit`: the sign bit in terms of the value modulo the width.
- Theorem `flag_SF_ne_OF_sub`: sign and overflow together give the signed order.
- Theorem `condition_after_sub`: the ten ordering conditions after a comparison.
-/

namespace LUE

namespace SoftCPU64

variable {width : Width} {cpu : SoftCPU64} {lhs rhs : U64}

/-- The two's-complement value of the low bits of an operand. -/
def signedValue (value : U64) (width : Width) : Int :=
  (value.setWidth width.bits).toInt

theorem signedValue_eq (value : U64) (width : Width) :
    signedValue value width =
      if 2 ^ (width.bits - 1) ≤ value.toNat % 2 ^ width.bits then
        ((value.toNat % 2 ^ width.bits : Nat) : Int) - (2 ^ width.bits : Nat)
      else ((value.toNat % 2 ^ width.bits : Nat) : Int) := by
  have hlow : 2 * (value.toNat % 2 ^ width.bits) < 2 ^ width.bits ↔
      ¬2 ^ (width.bits - 1) ≤ value.toNat % 2 ^ width.bits := by
    cases width <;> simp only [Width.bits] <;> omega
  rw [signedValue, BitVec.toInt_eq_toNat_cond, BitVec.toNat_setWidth]
  simp only [hlow, ite_not]

/-- Operands with one signed value agree at the width. -/
theorem signedValue_inj : signedValue lhs width = signedValue rhs width ↔
    lhs.toNat % 2 ^ width.bits = rhs.toNat % 2 ^ width.bits := by
  rw [signedValue, signedValue, BitVec.toInt_inj, ← BitVec.toNat_inj, BitVec.toNat_setWidth,
    BitVec.toNat_setWidth]

/-- The sign bit of an operand. -/
theorem getLsbD_signBit (value : U64) (width : Width) :
    value.getLsbD (width.bits - 1) =
      decide (2 ^ (width.bits - 1) ≤ value.toNat % 2 ^ width.bits) := by
  have hlt := value.isLt
  rw [← BitVec.testBit_toNat, Nat.testBit_eq_decide_div_mod_eq, decide_eq_decide]
  cases width <;> simp only [Width.bits] <;> omega

/-! ## The flags of a comparison -/

/-- The difference of a comparison, modulo the width. -/
theorem toNat_sub_fst : (cpu.sub lhs rhs width false).1.toNat =
    (2 ^ width.bits - rhs.toNat % 2 ^ width.bits + lhs.toNat % 2 ^ width.bits) %
      2 ^ width.bits := by
  have hzero : (0 : U64).toNat = 0 := rfl
  rw [sub_fst, toNat_and_maskForWidth, BitVec.toNat_sub, BitVec.toNat_add, carryIn,
    Bool.false_and, if_neg Bool.false_ne_true, toNat_and_maskForWidth,
    toNat_and_maskForWidth, hzero]
  cases width <;> simp only [Width.bits] <;> omega

theorem flag_CF_sub_false : (cpu.sub lhs rhs width false).2.flag CF =
    decide (lhs.toNat % 2 ^ width.bits < rhs.toNat % 2 ^ width.bits) := by
  have hzero : (rhs &&& maskForWidth width) + 0 = rhs &&& maskForWidth width := by simp
  rw [flag_CF_sub, decide_eq_decide, carryIn, Bool.false_and, if_neg Bool.false_ne_true, hzero,
    BitVec.lt_def, toNat_and_maskForWidth, toNat_and_maskForWidth]

theorem flag_ZF_sub_false : (cpu.sub lhs rhs width false).2.flag ZF =
    decide (lhs.toNat % 2 ^ width.bits = rhs.toNat % 2 ^ width.bits) := by
  have hzero : (cpu.sub lhs rhs width false).1 = 0 ↔
      lhs.toNat % 2 ^ width.bits = rhs.toNat % 2 ^ width.bits := by
    rw [← BitVec.toNat_inj, toNat_sub_fst]
    cases width <;> simp only [Width.bits, BitVec.ofNat_eq_ofNat, BitVec.toNat_ofNat] <;> omega
  rw [flag_ZF_sub, Bool.eq_iff_iff, beq_iff_eq, decide_eq_true_iff, hzero]

/-- The sign and overflow flags differ exactly when the signed values are in order. -/
theorem flag_SF_ne_OF_sub :
    ((cpu.sub lhs rhs width false).2.flag SF != (cpu.sub lhs rhs width false).2.flag OF) =
      decide (signedValue lhs width < signedValue rhs width) := by
  rw [flag_SF_sub, flag_OF_sub, and_signBitForWidth_ne_zero, and_signBitForWidth_ne_zero,
    BitVec.getLsbD_and, BitVec.getLsbD_xor, BitVec.getLsbD_xor, getLsbD_signBit,
    getLsbD_signBit, getLsbD_signBit, toNat_sub_fst, signedValue_eq, signedValue_eq,
    Nat.mod_mod]
  -- the four overflow quadrants: both signs, and the sign of the difference
  by_cases hl : 2 ^ (width.bits - 1) ≤ lhs.toNat % 2 ^ width.bits <;>
    by_cases hr : 2 ^ (width.bits - 1) ≤ rhs.toNat % 2 ^ width.bits <;>
    by_cases hd : 2 ^ (width.bits - 1) ≤ (2 ^ width.bits - rhs.toNat % 2 ^ width.bits +
      lhs.toNat % 2 ^ width.bits) % 2 ^ width.bits <;>
    simp only [hl, hr, hd, if_true, if_false, decide_true, decide_false, Bool.xor_false,
      Bool.false_xor, Bool.and_true, Bool.and_false, bne_self_eq_false] <;>
    cases width <;> simp only [Width.bits] at * <;> first
      | exact (decide_eq_true (by omega)).symm
      | exact (decide_eq_false (by omega)).symm

/-! ## Conditions -/

/-- After a comparison each ordering condition decides its order, unsigned or signed, of
the operands at the width. -/
theorem condition_after_sub (cpu : SoftCPU64) (lhs rhs : U64) (width : Width) :
    let after := (cpu.sub lhs rhs width false).2
    let l := lhs.toNat % 2 ^ width.bits
    let r := rhs.toNat % 2 ^ width.bits
    -- B, AE, E, NE, BE, A
    (after.condition 0x2 = decide (l < r) ∧ after.condition 0x3 = !decide (l < r) ∧
      after.condition 0x4 = decide (l = r) ∧ after.condition 0x5 = !decide (l = r) ∧
      after.condition 0x6 = decide (l ≤ r) ∧ after.condition 0x7 = !decide (l ≤ r)) ∧
    -- L, GE, LE, G
    (after.condition 0xc = decide (signedValue lhs width < signedValue rhs width) ∧
      after.condition 0xd = !decide (signedValue lhs width < signedValue rhs width) ∧
      after.condition 0xe = decide (signedValue lhs width ≤ signedValue rhs width) ∧
      after.condition 0xf = !decide (signedValue lhs width ≤ signedValue rhs width)) := by
  intro after l r
  have hcf : after.flag CF = decide (l < r) := flag_CF_sub_false
  have hzf : after.flag ZF = decide (l = r) := flag_ZF_sub_false
  have hsf : (after.flag SF != after.flag OF) =
      decide (signedValue lhs width < signedValue rhs width) := flag_SF_ne_OF_sub
  have hle : (after.flag CF || after.flag ZF) = decide (l ≤ r) := by
    rw [hcf, hzf, ← Bool.decide_or, decide_eq_decide]
    omega
  have hsle : (after.flag ZF || (after.flag SF != after.flag OF)) =
      decide (signedValue lhs width ≤ signedValue rhs width) := by
    have hzf' : after.flag ZF = decide (signedValue lhs width = signedValue rhs width) := by
      rw [hzf, decide_eq_decide]
      exact signedValue_inj.symm
    rw [hzf', hsf, ← Bool.decide_or, decide_eq_decide]
    omega
  have hge : (after.flag SF == after.flag OF) = !(after.flag SF != after.flag OF) :=
    (Bool.not_not _).symm
  refine ⟨⟨hcf, congrArg Bool.not hcf, hzf, congrArg Bool.not hzf, hle, ?_⟩, hsf, ?_, hsle, ?_⟩
  · rw [← hle, Bool.not_or]
    rfl
  · rw [← hsf, ← hge]
    rfl
  · rw [← hsle, Bool.not_or, ← hge]
    rfl

end SoftCPU64

end LUE
