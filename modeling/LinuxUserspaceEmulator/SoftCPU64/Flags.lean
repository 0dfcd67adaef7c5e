import LinuxUserspaceEmulator.SoftCPU64.State

/-!
# Widths, arithmetic and flags

The arithmetic that all integer instructions share: masks for the four operand widths,
sign extension, `add` and `sub` with their flags, the flags of a logical result, and the
sixteen conditions.

Main results:

- Theorem `toNat_and_maskForWidth`: masking is reduction modulo the width.
- Theorem `flag_setFlag`: a flag after another flag was set.
- Theorem `flag_setArithmeticFlags`: the six status flags after an addition or subtraction.
- Theorem `and_signBitForWidth_ne_zero`: a test of the sign bit.
-/

namespace LUE

/-! ## Widths -/

/-- The operand widths of the integer instructions. -/
inductive Width where
  | w8
  | w16
  | w32
  | w64
deriving DecidableEq, Repr

namespace Width

def bits : Width → Nat
  | w8 => 8
  | w16 => 16
  | w32 => 32
  | w64 => 64

/-- The number of bytes of a memory operand. -/
def bytes (width : Width) : Nat :=
  width.bits / 8

theorem bits_pos (width : Width) : 0 < width.bits := by
  cases width <;> decide

theorem bits_le (width : Width) : width.bits ≤ 64 := by
  cases width <;> decide

theorem bits_eq (width : Width) : width.bits = width.bytes * 8 := by
  cases width <;> rfl

theorem bytes_pos (width : Width) : 0 < width.bytes := by
  cases width <;> decide

theorem bytes_le (width : Width) : width.bytes ≤ 8 := by
  cases width <;> decide

end Width

namespace SoftCPU64

/-- `mask_for_width`. -/
def maskForWidth (width : Width) : U64 :=
  if width = .w64 then ~~~0 else ((1 : U64) <<< width.bits) - 1

/-- `sign_bit_for_width`. -/
def signBitForWidth (width : Width) : U64 :=
  (1 : U64) <<< (width.bits - 1)

/-- `sign_extend`. -/
def signExtend (value : U64) (width : Width) : U64 :=
  let sign := signBitForWidth width
  let value := value &&& maskForWidth width
  (value ^^^ sign) - sign

theorem toNat_maskForWidth (width : Width) :
    (maskForWidth width).toNat = 2 ^ width.bits - 1 := by
  cases width <;> decide

/-- Masking reduces modulo the width. -/
theorem toNat_and_maskForWidth (value : U64) (width : Width) :
    (value &&& maskForWidth width).toNat = value.toNat % 2 ^ width.bits := by
  rw [BitVec.toNat_and, toNat_maskForWidth, Nat.and_two_pow_sub_one_eq_mod]

/-- Sign extension of a byte is that of two's complement. -/
example : signExtend 0x80 .w8 = 0xffffffffffffff80 := by decide

theorem getLsbD_one_shiftLeft {i : Nat} (hi : i < 64) (j : Nat) :
    ((1 : U64) <<< i).getLsbD j = decide (i = j) := by
  have htwo : (1 : U64) <<< i = BitVec.twoPow 64 i := (BitVec.twoPow_eq 64 i).symm
  rw [htwo, BitVec.getLsbD_twoPow]
  simp [hi]

/-- A bit test with a shifted one. -/
theorem and_one_shiftLeft_ne_zero (value : U64) {i : Nat} (hi : i < 64) :
    (value &&& (1 : U64) <<< i != 0) = value.getLsbD i := by
  have htwo : (1 : U64) <<< i = BitVec.twoPow 64 i := (BitVec.twoPow_eq 64 i).symm
  have hnonzero : (1 : U64) <<< i ≠ 0#64 := by
    intro hzero
    have hbit := getLsbD_one_shiftLeft hi i
    rw [hzero] at hbit
    simp at hbit
  rw [htwo] at hnonzero ⊢
  rw [BitVec.and_twoPow]
  cases value.getLsbD i <;> simp [hnonzero]

/-- A test of the sign bit looks at one bit of the value. -/
theorem and_signBitForWidth_ne_zero (value : U64) (width : Width) :
    (value &&& signBitForWidth width != 0) = value.getLsbD (width.bits - 1) :=
  and_one_shiftLeft_ne_zero value (by have h := width.bits_le; have hpos := width.bits_pos; omega)

/-! ## Flags -/

/-- `parity_even`. -/
def parityEven (value : U8) : Bool :=
  let value := value ^^^ value >>> 4
  let value := value &&& 0xf
  (0x6996 : U16) >>> value.toNat &&& 1 != 0

variable (cpu : SoftCPU64)

/-- `update_flags_taint`. -/
def updateFlagsTaint : SoftCPU64 :=
  { cpu with flagsTainted := cpu.currentTaint }

/-- The six status flags, set in the order of `add` and `sub`. -/
def setArithmeticFlags (carry adjust sign zero parity overflow : Bool) : SoftCPU64 :=
  (((((cpu.setFlag CF carry).setFlag AF adjust).setFlag SF sign).setFlag ZF zero).setFlag PF
    parity).setFlag OF overflow

/-- `set_logic_flags`. -/
def setLogicFlags (result : U64) (width : Width) : SoftCPU64 :=
  let result := result &&& maskForWidth width
  (((((cpu.setFlag CF false).setFlag OF false).setFlag SF
    (result &&& signBitForWidth width != 0)).setFlag ZF (result == 0)).setFlag PF
    (parityEven (result.setWidth 8))).updateFlagsTaint

/-- `add`: the result, and the CPU with the flags of the addition. -/
def add (lhs rhs : U64) (width : Width) (carry : Bool) : U64 × SoftCPU64 :=
  let mask := maskForWidth width
  let carryValue : U64 := if carry && cpu.flag CF then 1 else 0
  let full := (lhs &&& mask) + (rhs &&& mask) + carryValue
  let result := full &&& mask
  (result, (cpu.setArithmeticFlags (full > mask)
    ((lhs ^^^ rhs ^^^ result) &&& 0x10 != 0)
    (result &&& signBitForWidth width != 0)
    (result == 0)
    (parityEven (result.setWidth 8))
    (~~~(lhs ^^^ rhs) &&& (lhs ^^^ result) &&& signBitForWidth width != 0)).updateFlagsTaint)

/-- `sub`: the result, and the CPU with the flags of the subtraction. -/
def sub (lhs rhs : U64) (width : Width) (borrow : Bool) : U64 × SoftCPU64 :=
  let mask := maskForWidth width
  let borrowValue : U64 := if borrow && cpu.flag CF then 1 else 0
  let rhsWithBorrow := (rhs &&& mask) + borrowValue
  let result := (lhs &&& mask) - rhsWithBorrow &&& mask
  (result, (cpu.setArithmeticFlags ((lhs &&& mask) < rhsWithBorrow)
    ((lhs ^^^ rhs ^^^ result) &&& 0x10 != 0)
    (result &&& signBitForWidth width != 0)
    (result == 0)
    (parityEven (result.setWidth 8))
    ((lhs ^^^ rhs) &&& (lhs ^^^ result) &&& signBitForWidth width != 0)).updateFlagsTaint)

/-- `condition`: the sixteen conditions on the flags. -/
def condition (cc : U8) : Bool :=
  match (cc &&& 0xf).toNat with
  | 0x0 => cpu.flag OF
  | 0x1 => !cpu.flag OF
  | 0x2 => cpu.flag CF
  | 0x3 => !cpu.flag CF
  | 0x4 => cpu.flag ZF
  | 0x5 => !cpu.flag ZF
  | 0x6 => cpu.flag CF || cpu.flag ZF
  | 0x7 => !cpu.flag CF && !cpu.flag ZF
  | 0x8 => cpu.flag SF
  | 0x9 => !cpu.flag SF
  | 0xa => cpu.flag PF
  | 0xb => !cpu.flag PF
  | 0xc => cpu.flag SF != cpu.flag OF
  | 0xd => cpu.flag SF == cpu.flag OF
  | 0xe => cpu.flag ZF || (cpu.flag SF != cpu.flag OF)
  | 0xf => !cpu.flag ZF && (cpu.flag SF == cpu.flag OF)
  | _ => false

/-! ## Flags after updates -/

variable {cpu}

/-- The flags the CPU knows. -/
def flags : List U64 :=
  [CF, PF, AF, ZF, SF, DF, OF]

/-- Every flag is one bit of the flags register. -/
theorem eq_one_shiftLeft_of_mem_flags :
    ∀ flagValue ∈ flags, ∃ i : Fin 64, flagValue = (1 : U64) <<< i.val := by
  intro flagValue h
  simp only [flags, List.mem_cons, List.not_mem_nil, or_false] at h
  rcases h with rfl | rfl | rfl | rfl | rfl | rfl | rfl
  exacts [⟨0, rfl⟩, ⟨2, rfl⟩, ⟨4, rfl⟩, ⟨6, rfl⟩, ⟨7, rfl⟩, ⟨10, rfl⟩, ⟨11, rfl⟩]

/-- Flags and conditions depend on the flags register alone. -/
theorem flag_congr {cpu' : SoftCPU64} (h : cpu'.rflags = cpu.rflags) (flagValue : U64) :
    cpu'.flag flagValue = cpu.flag flagValue := by
  rw [flag, flag, h]

theorem condition_congr {cpu' : SoftCPU64} (h : cpu'.rflags = cpu.rflags) (cc : U8) :
    cpu'.condition cc = cpu.condition cc := by
  simp only [condition, flag_congr h]

/-- A flag after a flag was set. -/
theorem flag_setFlag {set get : U64} (hset : set ∈ flags) (hget : get ∈ flags) (value : Bool) :
    (cpu.setFlag set value).flag get = if set = get then value else cpu.flag get := by
  obtain ⟨i, rfl⟩ := eq_one_shiftLeft_of_mem_flags set hset
  obtain ⟨j, rfl⟩ := eq_one_shiftLeft_of_mem_flags get hget
  have hsame : (1 : U64) <<< i.val = (1 : U64) <<< j.val ↔ i.val = j.val := by
    constructor
    · intro h
      have hbit := getLsbD_one_shiftLeft j.isLt i.val
      rw [← h, getLsbD_one_shiftLeft i.isLt] at hbit
      exact (by simpa using hbit : j.val = i.val).symm
    · intro h
      rw [h]
  simp only [hsame]
  rw [flag, flag, and_one_shiftLeft_ne_zero _ j.isLt, and_one_shiftLeft_ne_zero _ j.isLt, setFlag]
  cases value with
  | true =>
      rw [if_pos rfl, BitVec.getLsbD_or, getLsbD_one_shiftLeft i.isLt]
      by_cases hij : i.val = j.val <;> simp [hij]
  | false =>
      rw [if_neg Bool.false_ne_true, BitVec.getLsbD_and, BitVec.getLsbD_not,
        getLsbD_one_shiftLeft i.isLt]
      by_cases hij : i.val = j.val <;> simp [hij]

/-- The flags register of an addition or a subtraction holds the six given values. -/
theorem flag_setArithmeticFlags (carry adjust sign zero parity overflow : Bool) :
    let cpu' := cpu.setArithmeticFlags carry adjust sign zero parity overflow
    cpu'.flag CF = carry ∧ cpu'.flag AF = adjust ∧ cpu'.flag SF = sign ∧ cpu'.flag ZF = zero ∧
      cpu'.flag PF = parity ∧ cpu'.flag OF = overflow := by
  simp only [setArithmeticFlags]
  refine ⟨?_, ?_, ?_, ?_, ?_, ?_⟩ <;> simp (disch := decide) only [flag_setFlag] <;> rfl

/-- A carry flag that is set last, with the taint of the flags. -/
theorem flag_setCarry (cpu : SoftCPU64) (carry : Bool) :
    ({ cpu.setFlag CF carry with flagsTainted := cpu.currentTaint } : SoftCPU64).flag CF =
      carry := by
  change (cpu.setFlag CF carry).flag CF = carry
  rw [flag_setFlag (by decide) (by decide)]
  rfl

@[simp]
theorem flag_updateFlagsTaint (flagValue : U64) :
    cpu.updateFlagsTaint.flag flagValue = cpu.flag flagValue :=
  rfl

variable (lhs rhs : U64) (width : Width) (withCarry : Bool)

/-- The carry an operation takes in. -/
def carryIn (cpu : SoftCPU64) (withCarry : Bool) : Bool :=
  withCarry && cpu.flag CF

/-- The result of a subtraction, before the flags. -/
theorem sub_fst : (cpu.sub lhs rhs width withCarry).1 =
    ((lhs &&& maskForWidth width) - ((rhs &&& maskForWidth width) +
      if carryIn cpu withCarry then 1 else 0)) &&& maskForWidth width :=
  rfl

/-- The result of an addition, before the flags. -/
theorem add_fst : (cpu.add lhs rhs width withCarry).1 =
    ((lhs &&& maskForWidth width) + (rhs &&& maskForWidth width) +
      if carryIn cpu withCarry then 1 else 0) &&& maskForWidth width :=
  rfl

theorem flag_CF_add : (cpu.add lhs rhs width withCarry).2.flag CF =
    decide (maskForWidth width < (lhs &&& maskForWidth width) + (rhs &&& maskForWidth width) +
      if carryIn cpu withCarry then 1 else 0) := by
  rw [add, flag_updateFlagsTaint]
  exact (flag_setArithmeticFlags _ _ _ _ _ _).1

theorem flag_CF_sub : (cpu.sub lhs rhs width withCarry).2.flag CF =
    decide (lhs &&& maskForWidth width < (rhs &&& maskForWidth width) +
      if carryIn cpu withCarry then 1 else 0) := by
  rw [sub, flag_updateFlagsTaint]
  exact (flag_setArithmeticFlags _ _ _ _ _ _).1

theorem flag_SF_sub : (cpu.sub lhs rhs width withCarry).2.flag SF =
    ((cpu.sub lhs rhs width withCarry).1 &&& signBitForWidth width != 0) := by
  rw [sub, flag_updateFlagsTaint]
  exact (flag_setArithmeticFlags _ _ _ _ _ _).2.2.1

theorem flag_ZF_sub : (cpu.sub lhs rhs width withCarry).2.flag ZF =
    ((cpu.sub lhs rhs width withCarry).1 == 0) := by
  rw [sub, flag_updateFlagsTaint]
  exact (flag_setArithmeticFlags _ _ _ _ _ _).2.2.2.1

theorem flag_OF_sub : (cpu.sub lhs rhs width withCarry).2.flag OF =
    ((lhs ^^^ rhs) &&& (lhs ^^^ (cpu.sub lhs rhs width withCarry).1) &&&
      signBitForWidth width != 0) := by
  rw [sub, flag_updateFlagsTaint]
  exact (flag_setArithmeticFlags _ _ _ _ _ _).2.2.2.2.2

end SoftCPU64

end LUE
