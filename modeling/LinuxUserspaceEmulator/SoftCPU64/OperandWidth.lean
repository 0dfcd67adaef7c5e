import LinuxUserspaceEmulator.SoftCPU64.Step

/-!
# Values at an operand width

An instruction looks at the low bits of its operands.  Two values agree at a width when
those bits are the same; the arithmetic, the logic and the register and memory writes give
equal results on values that agree, flags included.  Sign-extended and plain immediates of
one encoding are such values.

Main results:

- Theorem `signExtend_eq`: the code's sign extension is that of two's complement.
- Theorems `add_congr` and `sub_congr`: results and flags depend on the width alone.
- Theorem `executeOperation_congr`: so do the eight two-operand operations.
-/

namespace LUE

open StateExcept

namespace SoftCPU64

/-- The two values have the same bits at the width. -/
def AgreeAt (width : Width) (a b : U64) : Prop :=
  a &&& maskForWidth width = b &&& maskForWidth width

instance (width : Width) (a b : U64) : Decidable (AgreeAt width a b) :=
  inferInstanceAs (Decidable (_ = _))

namespace AgreeAt

variable {width : Width} {a b c a' b' : U64}

theorem refl (a : U64) : AgreeAt width a a :=
  rfl

theorem symm (h : AgreeAt width a b) : AgreeAt width b a :=
  Eq.symm h

theorem trans (h : AgreeAt width a b) (h' : AgreeAt width b c) : AgreeAt width a c :=
  Eq.trans h h'

/-- Bits below the width are selected by the mask. -/
theorem getLsbD_maskForWidth (width : Width) (i : Nat) :
    (maskForWidth width).getLsbD i = decide (i < width.bits) := by
  rw [← BitVec.testBit_toNat, toNat_maskForWidth, Nat.testBit_two_pow_sub_one]

theorem getLsbD (h : AgreeAt width a b) {i : Nat} (hi : i < width.bits) :
    a.getLsbD i = b.getLsbD i := by
  have hbit := congrArg (fun value => value.getLsbD i) h
  simpa [BitVec.getLsbD_and, getLsbD_maskForWidth, hi] using hbit

theorem of_getLsbD (h : ∀ i < width.bits, a.getLsbD i = b.getLsbD i) : AgreeAt width a b := by
  apply BitVec.eq_of_getLsbD_eq
  intro i _
  rw [BitVec.getLsbD_and, BitVec.getLsbD_and, getLsbD_maskForWidth]
  by_cases hi : i < width.bits
  · rw [h i hi]
  · simp [hi]

/-- A value agrees with what the mask leaves of it. -/
theorem and_mask (a : U64) : AgreeAt width (a &&& maskForWidth width) a := by
  rw [AgreeAt, BitVec.and_assoc, BitVec.and_self]

theorem and (h : AgreeAt width a b) (h' : AgreeAt width a' b') :
    AgreeAt width (a &&& a') (b &&& b') := by
  refine of_getLsbD fun i hi => ?_
  rw [BitVec.getLsbD_and, BitVec.getLsbD_and, h.getLsbD hi, h'.getLsbD hi]

theorem or (h : AgreeAt width a b) (h' : AgreeAt width a' b') :
    AgreeAt width (a ||| a') (b ||| b') := by
  refine of_getLsbD fun i hi => ?_
  rw [BitVec.getLsbD_or, BitVec.getLsbD_or, h.getLsbD hi, h'.getLsbD hi]

theorem xor (h : AgreeAt width a b) (h' : AgreeAt width a' b') :
    AgreeAt width (a ^^^ a') (b ^^^ b') := by
  refine of_getLsbD fun i hi => ?_
  rw [BitVec.getLsbD_xor, BitVec.getLsbD_xor, h.getLsbD hi, h'.getLsbD hi]

theorem not (h : AgreeAt width a b) : AgreeAt width (~~~a) (~~~b) := by
  refine of_getLsbD fun i hi => ?_
  rw [BitVec.getLsbD_not, BitVec.getLsbD_not, h.getLsbD hi]

/-- A test of one bit below the width. -/
theorem testBit (h : AgreeAt width a b) {i : Nat} (hi : i < width.bits) :
    (a &&& (1 : U64) <<< i != 0) = (b &&& (1 : U64) <<< i != 0) := by
  have hlt : i < 64 := Nat.lt_of_lt_of_le hi width.bits_le
  rw [and_one_shiftLeft_ne_zero _ hlt, and_one_shiftLeft_ne_zero _ hlt, h.getLsbD hi]

/-- A test of the sign bit. -/
theorem testSign (h : AgreeAt width a b) :
    (a &&& signBitForWidth width != 0) = (b &&& signBitForWidth width != 0) :=
  h.testBit (Nat.sub_lt width.bits_pos Nat.one_pos)

/-- The test of the auxiliary carry. -/
theorem testAdjust (h : AgreeAt width a b) : (a &&& 0x10 != 0) = (b &&& 0x10 != 0) := by
  have hfour : 4 < width.bits := by cases width <;> decide
  have hbit := h.testBit hfour
  exact hbit

end AgreeAt

variable {width : Width} {lhs lhs' rhs rhs' result result' : U64} {cpu : SoftCPU64}

/-! ## Operands as words -/

/-- A masked value is the word in its low bits. -/
theorem and_maskForWidth_eq_setWidth (value : U64) (width : Width) :
    value &&& maskForWidth width = (value.setWidth width.bits).setWidth 64 := by
  apply BitVec.eq_of_toNat_eq
  rw [toNat_and_maskForWidth, BitVec.toNat_setWidth_of_le width.bits_le, BitVec.toNat_setWidth]

theorem setWidth_and_maskForWidth (value : U64) (width : Width) :
    (value &&& maskForWidth width).setWidth width.bits = value.setWidth width.bits := by
  rw [and_maskForWidth_eq_setWidth, BitVec.setWidth_setWidth_of_le _ width.bits_le,
    BitVec.setWidth_eq]

/-! ## Sign extension -/

/-- Adding a bit that is clear sets it. -/
theorem add_one_shiftLeft {value : U64} {i : Nat} (hi : i < 64) (hclear : value.getLsbD i = false) :
    value + (1 : U64) <<< i = value ^^^ (1 : U64) <<< i := by
  have hbit : ∀ j, (value &&& (1 : U64) <<< i).getLsbD j = false := by
    intro j
    rw [BitVec.getLsbD_and, getLsbD_one_shiftLeft hi]
    by_cases hij : i = j
    · rw [← hij, hclear, Bool.false_and]
    · simp [hij]
  have hzero : value &&& (1 : U64) <<< i = 0#64 :=
    BitVec.eq_of_getLsbD_eq fun j _ => by rw [hbit j, BitVec.getLsbD_zero]
  rw [BitVec.add_eq_or_of_and_eq_zero _ _ hzero]
  apply BitVec.eq_of_getLsbD_eq
  intro j _
  have hboth := hbit j
  rw [BitVec.getLsbD_and] at hboth
  rw [BitVec.getLsbD_or, BitVec.getLsbD_xor]
  revert hboth
  cases value.getLsbD j <;> cases ((1 : U64) <<< i).getLsbD j <;> simp

/-- `sign_extend` is sign extension of the low bits. -/
theorem signExtend_eq (value : U64) (width : Width) :
    signExtend value width = (value.setWidth width.bits).signExtend 64 := by
  have hi : width.bits - 1 < 64 := by cases width <;> decide
  have hlow := toNat_and_maskForWidth value width
  have hsign : (signBitForWidth width).toNat = 2 ^ (width.bits - 1) := by cases width <;> decide
  have hmsb : (value.setWidth width.bits).msb =
      (value &&& maskForWidth width).getLsbD (width.bits - 1) := by
    rw [BitVec.msb_eq_getLsbD_last, BitVec.getLsbD_setWidth, BitVec.getLsbD_and,
      ← BitVec.testBit_toNat (maskForWidth width), toNat_maskForWidth,
      Nat.testBit_two_pow_sub_one, Bool.and_comm]
  have hlt := value.isLt
  apply BitVec.eq_of_toNat_eq
  rw [BitVec.toNat_signExtend, BitVec.toNat_setWidth, BitVec.toNat_setWidth, hmsb]
  cases hbit : (value &&& maskForWidth width).getLsbD (width.bits - 1) with
  | false =>
      have hsum := add_one_shiftLeft hi hbit
      have hextended : signExtend value width = value &&& maskForWidth width := by
        rw [signExtend, signBitForWidth, ← hsum, BitVec.add_sub_cancel]
      rw [hextended, hlow, if_neg Bool.false_ne_true]
      cases width <;> simp only [Width.bits] <;> omega
  | true =>
      -- without its sign bit the value is smaller by one weight, and the code subtracts another
      have hclear : ((value &&& maskForWidth width) ^^^ signBitForWidth width).getLsbD
          (width.bits - 1) = false := by
        rw [BitVec.getLsbD_xor, hbit, signBitForWidth, getLsbD_one_shiftLeft hi]
        simp
      have hsum := add_one_shiftLeft hi hclear
      rw [← signBitForWidth, BitVec.xor_assoc, BitVec.xor_self, BitVec.xor_zero] at hsum
      have hnat := congrArg BitVec.toNat hsum
      rw [BitVec.toNat_add, hsign, hlow] at hnat
      have hxorlt := ((value &&& maskForWidth width) ^^^ signBitForWidth width).isLt
      rw [signExtend, BitVec.toNat_sub, hsign, if_pos rfl]
      cases width <;> simp only [Width.bits] at * <;> omega

/-- A sign extension keeps the bits of the width. -/
theorem agreeAt_signExtend (value : U64) (width : Width) :
    AgreeAt width (signExtend value width) value := by
  refine AgreeAt.of_getLsbD fun i hi => ?_
  have hlt : i < 64 := Nat.lt_of_lt_of_le hi width.bits_le
  rw [signExtend_eq, BitVec.getLsbD_signExtend, if_pos hi, BitVec.getLsbD_setWidth]
  simp [hi, hlt]

/-! ## Arithmetic and flags -/

theorem add_congr (hlhs : AgreeAt width lhs lhs') (hrhs : AgreeAt width rhs rhs')
    (withCarry : Bool) : cpu.add lhs rhs width withCarry = cpu.add lhs' rhs' width withCarry := by
  have hmask : lhs &&& maskForWidth width = lhs' &&& maskForWidth width := hlhs
  have hmask' : rhs &&& maskForWidth width = rhs' &&& maskForWidth width := hrhs
  have hxor := hlhs.xor hrhs
  simp only [add, hmask, hmask']
  rw [(hxor.xor (AgreeAt.refl _)).testAdjust,
    (hxor.not.and (hlhs.xor (AgreeAt.refl _))).testSign]

theorem sub_congr (hlhs : AgreeAt width lhs lhs') (hrhs : AgreeAt width rhs rhs')
    (withBorrow : Bool) :
    cpu.sub lhs rhs width withBorrow = cpu.sub lhs' rhs' width withBorrow := by
  have hmask : lhs &&& maskForWidth width = lhs' &&& maskForWidth width := hlhs
  have hmask' : rhs &&& maskForWidth width = rhs' &&& maskForWidth width := hrhs
  have hxor := hlhs.xor hrhs
  simp only [sub, hmask, hmask']
  rw [(hxor.xor (AgreeAt.refl _)).testAdjust,
    (hxor.and (hlhs.xor (AgreeAt.refl _))).testSign]

theorem setLogicFlags_congr (h : AgreeAt width result result') :
    cpu.setLogicFlags result width = cpu.setLogicFlags result' width := by
  have hmask : result &&& maskForWidth width = result' &&& maskForWidth width := h
  simp only [setLogicFlags, hmask]

/-! ## Operands -/

theorem writeLane_congr (h : AgreeAt width result result') (file : Register → U64)
    (register : Register) (prefixes : Prefixes) :
    writeLane file register width prefixes result =
      writeLane file register width prefixes result' := by
  have hmask : result &&& maskForWidth width = result' &&& maskForWidth width := h
  simp only [writeLane, hmask]

theorem writeGpr_congr (h : AgreeAt width result result') (register : Register)
    (prefixes : Prefixes) :
    writeGpr register width result prefixes = writeGpr register width result' prefixes := by
  simp only [writeGpr, withGpr, writeLane_congr h]

theorem writeOperand_congr (h : AgreeAt width result result') (operand : Operand)
    (prefixes : Prefixes) :
    writeOperand operand width result prefixes = writeOperand operand width result' prefixes := by
  have hmask : result &&& maskForWidth width = result' &&& maskForWidth width := h
  simp only [writeOperand, hmask]

/-- A register operand is written as a register: its value is masked either way. -/
theorem writeOperand_register (register : Register) (value : U64) (prefixes : Prefixes) :
    writeOperand (.register register) width value prefixes =
      writeGpr register width value prefixes :=
  writeGpr_congr (AgreeAt.and_mask value) register prefixes

/-- The eight operations look at their operands at the width, and so do their writes. -/
theorem executeOperation_congr {mask mask' : U64} {write write' : U64 → EmulatorProgram Unit}
    (hlhs : AgreeAt width lhs lhs') (hrhs : AgreeAt width rhs rhs')
    (hmask : AgreeAt width mask mask')
    (hwrite : ∀ value value', AgreeAt width value value' → write value = write' value')
    (operation : Nat) :
    executeOperation operation lhs rhs width mask write =
      executeOperation operation lhs' rhs' width mask' write' := by
  have hsame : write = write' := funext fun value => hwrite value value (AgreeAt.refl value)
  have hor := (hlhs.or hrhs).and hmask
  have hand := (hlhs.and hrhs).and hmask
  have hxor := (hlhs.xor hrhs).and hmask
  unfold executeOperation
  split
  · simp only [add_congr hlhs hrhs, hsame]
  · simp only [setLogicFlags_congr hor, hwrite _ _ hor]
  · simp only [add_congr hlhs hrhs, hsame]
  · simp only [sub_congr hlhs hrhs, hsame]
  · simp only [setLogicFlags_congr hand, hwrite _ _ hand]
  · simp only [sub_congr hlhs hrhs, hsame]
  · simp only [setLogicFlags_congr hxor, hwrite _ _ hxor]
  · simp only [sub_congr hlhs hrhs]
  · rfl

end SoftCPU64

end LUE
