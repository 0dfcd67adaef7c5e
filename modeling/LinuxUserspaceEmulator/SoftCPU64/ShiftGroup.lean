import LinuxUserspaceEmulator.SoftCPU64.OperandWidth
import LinuxUserspaceEmulator.SoftCPU64.Reading

/-!
# The shift group

`execute_shift_group` decodes an operand and a count byte, shifts or rotates the operand in
host words, sets the flags of a logical result and writes the operand back.  This file takes
the group apart at its operand and compares the host words with shifts of the operand.

Main results:

- Theorem `executeShiftGroup_eq`: the group as a decoder followed by its execution.
- Theorem `shiftResult_eq`: a host word is computed exactly when every host shift is defined.
- Theorems `shiftWord_left` to `shiftWord_arithmetic`: the host word is the architecture's shift.
- Theorem `executeShiftGroup_of_read`: the group writes that word.
-/

namespace LUE

open StateExcept

namespace SoftCPU64

/-! ## The group as decoding and execution -/

/-- What the group knows before it reads its operand. -/
structure ShiftInstruction where
  width : Width
  operation : Nat
  operand : Operand
  countByte : U8
deriving DecidableEq

/-- The part of `execute_shift_group` that decodes. -/
def decodeShiftGroup (opcode : U8) (prefixes : Prefixes) : EmulatorProgram ShiftInstruction := do
  let width :=
    if opcode = 0xc0 ∨ opcode = 0xd0 ∨ opcode = 0xd2 then .w8 else operandWidth prefixes
  let modrm ← fetchModrm prefixes
  let operand ← decodeRmOperand prefixes modrm
  let countByte ←
    if opcode = 0xc0 ∨ opcode = 0xc1 then fetch8
    else if opcode = 0xd0 ∨ opcode = 0xd1 then pure 1
    else do
      let cpu ← getCPU
      pure ((cpu.reg .rcx).setWidth 8)
  return ⟨width, modrm.operation, operand, countByte⟩

/-- The end of `execute_shift_group`: set the flags and write the result. -/
def writeShifted (operand : Operand) (width : Width) (prefixes : Prefixes) (result : U64) :
    EmulatorProgram Unit := do
  modifyCPU fun cpu => cpu.setLogicFlags result width
  writeOperand operand width result prefixes

namespace ShiftInstruction

variable (shift : ShiftInstruction)

/-- The count the code shifts by. -/
def count : Nat :=
  (shift.countByte &&& 0x3f).toNat

/-- The part of `execute_shift_group` after decoding. -/
def execute (prefixes : Prefixes) : EmulatorProgram Unit := do
  if shift.count ≠ 0 then
    let value ← readOperand shift.operand shift.width prefixes
    let result ← shiftResult shift.operation value shift.count shift.width
    writeShifted shift.operand shift.width prefixes result

theorem count_eq_mod : shift.count = shift.countByte.toNat % 64 := by
  rw [count, BitVec.toNat_and]
  exact Nat.and_two_pow_sub_one_eq_mod _ 6

theorem count_lt : shift.count < 64 := by
  rw [count_eq_mod]
  exact Nat.mod_lt _ (by decide)

end ShiftInstruction

/-- The group decodes and then executes. -/
theorem executeShiftGroup_eq (opcode : U8) (prefixes : Prefixes) :
    executeShiftGroup opcode prefixes =
      decodeShiftGroup opcode prefixes >>= fun shift => shift.execute prefixes := by
  unfold executeShiftGroup decodeShiftGroup
  simp only [bind_assoc, pure_bind]
  congr 1
  funext modrm
  congr 1
  funext operand
  by_cases himmediate : opcode = 0xc0 ∨ opcode = 0xc1
  · simp only [if_pos himmediate, bind_assoc, pure_bind]
    rfl
  · by_cases hone : opcode = 0xd0 ∨ opcode = 0xd1
    · have hcount : ((1 : U8) &&& 0x3f).toNat = 1 := rfl
      simp only [if_neg himmediate, if_pos hone, pure_bind, ShiftInstruction.execute,
        ShiftInstruction.count, hcount]
      rfl
    · simp only [if_neg himmediate, if_neg hone, bind_assoc, pure_bind]
      rfl

section Runs

variable {opcode : U8} {prefixes : Prefixes} {emulator decoded : Emulator}
  {shift : ShiftInstruction}

theorem executeShiftGroup_of_decoded
    (hdecode : decodeShiftGroup opcode prefixes emulator = .ok shift decoded) :
    executeShiftGroup opcode prefixes emulator = shift.execute prefixes decoded := by
  rw [executeShiftGroup_eq, bind_of_ok hdecode]

/-- A count of zero ends the instruction. -/
theorem ShiftInstruction.execute_of_zero (hzero : shift.count = 0) :
    shift.execute prefixes decoded = .ok () decoded := by
  rw [ShiftInstruction.execute, if_neg (fun hne => hne hzero)]
  rfl

/-- Any other count reads the operand, shifts it and writes it. -/
theorem ShiftInstruction.execute_of_read {value : U64} {read : Emulator}
    (hcount : shift.count ≠ 0)
    (hread : readOperand shift.operand shift.width prefixes decoded = .ok value read) :
    shift.execute prefixes decoded =
      (shiftResult shift.operation value shift.count shift.width >>=
        writeShifted shift.operand shift.width prefixes) read := by
  rw [ShiftInstruction.execute, if_pos hcount, bind_of_ok hread]

end Runs

/-! ## Host words -/

/-- The word `execute_shift_group` computes when every host shift is defined. -/
def shiftWord (operation : Nat) (value : U64) (count : Nat) (width : Width) : U64 :=
  let mask := maskForWidth width
  match operation with
  | 0 => (value <<< count ||| value >>> (width.bits - count)) &&& mask
  | 1 => (value >>> count ||| value <<< (width.bits - count)) &&& mask
  | 5 => (value >>> count) &&& mask
  | 7 => (signExtend value width >>> count) &&& mask
  | _ => (value <<< count) &&& mask

/-- The amounts of the host shifts the switch evaluates. -/
def hostShiftAmounts (operation count : Nat) (width : Width) : List Int :=
  match operation with
  | 0 | 1 => [count, width.bits - count]
  | _ => [count]

/-- Every host shift is defined by the C++ standard. -/
def HostShiftsDefined (operation count : Nat) (width : Width) : Prop :=
  ∀ amount ∈ hostShiftAmounts operation count width, 0 ≤ amount ∧ amount < 64

instance (operation count : Nat) (width : Width) :
    Decidable (HostShiftsDefined operation count width) :=
  inferInstanceAs (Decidable (∀ amount ∈ _, _))

/-- The operations of the group that the switch knows: all but the rotations through carry. -/
def IsShiftOperation (operation : Nat) : Prop :=
  operation = 0 ∨ operation = 1 ∨ operation = 4 ∨ operation = 5 ∨ operation = 6 ∨ operation = 7

instance (operation : Nat) : Decidable (IsShiftOperation operation) :=
  inferInstanceAs (Decidable (_ ∨ _))

theorem hostShiftLeft_of_defined {value : U64} {count : Nat} (hcount : count < 64) :
    hostShiftLeft value count = pure (value <<< count) := by
  rw [hostShiftLeft, if_pos ⟨by omega, by omega⟩, Int.toNat_natCast]

theorem hostShiftRight_of_defined {value : U64} {count : Nat} (hcount : count < 64) :
    hostShiftRight value count = pure (value >>> count) := by
  rw [hostShiftRight, if_pos ⟨by omega, by omega⟩, Int.toNat_natCast]

/-- A shift evaluates one host shift, by the count. -/
theorem hostShiftsDefined_of_shift {operation count : Nat} (hshift : 2 ≤ operation)
    (hcount : count < 64) (width : Width) : HostShiftsDefined operation count width := by
  have hamounts : hostShiftAmounts operation count width = [(count : Int)] :=
    match operation, hshift with
    | _ + 2, _ => rfl
  rw [HostShiftsDefined, hamounts, List.forall_mem_singleton]
  exact ⟨by omega, by omega⟩

/-- A rotation also shifts by what remains of the width. -/
theorem hostShiftsDefined_of_rotation {operation count : Nat} (hrotation : operation < 2)
    (hcount : count < 64) (width : Width) :
    HostShiftsDefined operation count width ↔
      0 ≤ (width.bits - count : Int) ∧ (width.bits - count : Int) < 64 := by
  have hamounts : hostShiftAmounts operation count width =
      [(count : Int), width.bits - count] :=
    match operation, hrotation with
    | 0, _ => rfl
    | 1, _ => rfl
  have hrange : 0 ≤ (count : Int) ∧ (count : Int) < 64 := ⟨by omega, by omega⟩
  rw [HostShiftsDefined, hamounts, List.forall_mem_cons, List.forall_mem_singleton]
  exact and_iff_right hrange

/-- The switch hands on a word exactly when its host shifts are defined. -/
theorem shiftResult_eq {operation count : Nat} (hoperation : IsShiftOperation operation)
    (hcount : count < 64) (value : U64) (width : Width) :
    shiftResult operation value count width =
      if HostShiftsDefined operation count width then
        pure (shiftWord operation value count width)
      else throw .hostFault := by
  have hleft := @hostShiftLeft_of_defined value _ hcount
  have hright := @hostShiftRight_of_defined value _ hcount
  have hsigned := @hostShiftRight_of_defined (signExtend value width) _ hcount
  have hrest : (width.bits - count : Int).toNat = width.bits - count := by omega
  rcases hoperation with rfl | rfl | rfl | rfl | rfl | rfl
  · have hiff := hostShiftsDefined_of_rotation (show 0 < 2 by decide) hcount width
    simp only [shiftResult, hleft, pure_bind, hostShiftRight, hiff]
    split
    · simp only [pure_bind, hrest]
      rfl
    · rfl
  · have hiff := hostShiftsDefined_of_rotation (show 1 < 2 by decide) hcount width
    simp only [shiftResult, hright, pure_bind, hostShiftLeft, hiff]
    split
    · simp only [pure_bind, hrest]
      rfl
    · rfl
  · rw [if_pos (hostShiftsDefined_of_shift (by decide) hcount width)]
    simp only [shiftResult, hleft, pure_bind]
    rfl
  · rw [if_pos (hostShiftsDefined_of_shift (by decide) hcount width)]
    simp only [shiftResult, hright, pure_bind]
    rfl
  · rw [if_pos (hostShiftsDefined_of_shift (by decide) hcount width)]
    simp only [shiftResult, hleft, pure_bind]
    rfl
  · rw [if_pos (hostShiftsDefined_of_shift (by decide) hcount width)]
    simp only [shiftResult, hsigned, pure_bind]
    rfl

/-! ## The architecture's shifts -/

/-- The shift or rotation of an operand as the architecture defines it. -/
def shiftedOperand {w : Nat} (operation : Nat) (operand : BitVec w) (count : Nat) : BitVec w :=
  match operation with
  | 0 => operand.rotateLeft count
  | 1 => operand.rotateRight count
  | 5 => operand >>> count
  | 7 => operand.sshiftRight count
  | _ => operand <<< count

variable {value : U64} {count : Nat} {width : Width}

/-- A masked word with the bits of an operand is that operand. -/
theorem and_maskForWidth_eq {operand : BitVec width.bits}
    (hbits : ∀ i < width.bits, value.getLsbD i = operand.getLsbD i) :
    value &&& maskForWidth width = operand.setWidth 64 := by
  apply BitVec.eq_of_getLsbD_eq
  intro i hi
  rw [BitVec.getLsbD_and, AgreeAt.getLsbD_maskForWidth, BitVec.getLsbD_setWidth]
  by_cases hin : i < width.bits
  · rw [hbits i hin, decide_eq_true hin, decide_eq_true hi, Bool.and_true, Bool.true_and]
  · simp [hin, BitVec.getLsbD_of_ge operand i (Nat.le_of_not_lt hin)]

/-- The bits of the operand in a host word. -/
theorem getLsbD_operand (value : U64) {i : Nat} (hi : i < width.bits) :
    (value.setWidth width.bits).getLsbD i = value.getLsbD i := by
  rw [BitVec.getLsbD_setWidth, decide_eq_true hi, Bool.true_and]

theorem getLsbD_of_width_le (hvalue : value.toNat < 2 ^ width.bits) {i : Nat}
    (hi : width.bits ≤ i) : value.getLsbD i = false :=
  Nat.testBit_lt_two_pow (Nat.lt_of_lt_of_le hvalue (Nat.pow_le_pow_right (by decide) hi))

/-- A left shift of the host word is one of the operand. -/
theorem shiftWord_left {operation : Nat} (hoperation : operation = 4 ∨ operation = 6) :
    shiftWord operation value count width =
      (shiftedOperand operation (value.setWidth width.bits) count).setWidth 64 := by
  have hword : (value <<< count) &&& maskForWidth width =
      (value.setWidth width.bits <<< count).setWidth 64 := by
    refine and_maskForWidth_eq fun i hi => ?_
    have hlt : i < 64 := Nat.lt_of_lt_of_le hi width.bits_le
    have hlow : i - count < width.bits := Nat.lt_of_le_of_lt (Nat.sub_le i count) hi
    rw [BitVec.getLsbD_shiftLeft, BitVec.getLsbD_shiftLeft, getLsbD_operand value hlow]
    simp [hi, hlt]
  rcases hoperation with rfl | rfl
  · exact hword
  · exact hword

/-- A right shift of an operand without bits above its width. -/
theorem shiftWord_right (hvalue : value.toNat < 2 ^ width.bits) :
    shiftWord 5 value count width =
      (shiftedOperand 5 (value.setWidth width.bits) count).setWidth 64 := by
  refine and_maskForWidth_eq fun i _ => ?_
  rw [shiftedOperand, BitVec.getLsbD_ushiftRight, BitVec.getLsbD_ushiftRight]
  by_cases hin : count + i < width.bits
  · rw [getLsbD_operand value hin]
  · rw [getLsbD_of_width_le hvalue (Nat.le_of_not_lt hin),
      BitVec.getLsbD_of_ge _ _ (Nat.le_of_not_lt hin)]

/-- A rotation to the left by at most the width. -/
theorem shiftWord_rotateLeft (hvalue : value.toNat < 2 ^ width.bits) (hpos : 0 < count)
    (hcount : count ≤ width.bits) :
    shiftWord 0 value count width =
      (shiftedOperand 0 (value.setWidth width.bits) count).setWidth 64 := by
  refine and_maskForWidth_eq fun i hi => ?_
  have hlt : i < 64 := Nat.lt_of_lt_of_le hi width.bits_le
  rw [shiftedOperand, BitVec.getLsbD_rotateLeft, BitVec.getLsbD_or, BitVec.getLsbD_shiftLeft,
    BitVec.getLsbD_ushiftRight]
  rcases Nat.lt_or_eq_of_le hcount with hproper | rfl
  · rw [Nat.mod_eq_of_lt hproper]
    by_cases hlow : i < count
    · rw [getLsbD_operand value (i := width.bits - count + i) (by omega)]
      simp [hlow]
    · rw [getLsbD_operand value (i := i - count) (by omega),
        getLsbD_of_width_le hvalue (i := width.bits - count + i) (by omega)]
      simp [hlow, hi, hlt]
  · rw [Nat.mod_self, Nat.sub_self, Nat.sub_zero, Nat.zero_add, Nat.sub_zero,
      getLsbD_operand value hi]
    simp [hi]

/-- A rotation to the right by at most the width. -/
theorem shiftWord_rotateRight (hvalue : value.toNat < 2 ^ width.bits) (hpos : 0 < count)
    (hcount : count ≤ width.bits) :
    shiftWord 1 value count width =
      (shiftedOperand 1 (value.setWidth width.bits) count).setWidth 64 := by
  refine and_maskForWidth_eq fun i hi => ?_
  have hlt : i < 64 := Nat.lt_of_lt_of_le hi width.bits_le
  rw [shiftedOperand, BitVec.getLsbD_rotateRight, BitVec.getLsbD_or, BitVec.getLsbD_shiftLeft,
    BitVec.getLsbD_ushiftRight]
  rcases Nat.lt_or_eq_of_le hcount with hproper | rfl
  · rw [Nat.mod_eq_of_lt hproper]
    by_cases hlow : i < width.bits - count
    · rw [getLsbD_operand value (i := count + i) (by omega)]
      simp [hlow]
    · rw [getLsbD_operand value (i := i - (width.bits - count)) (by omega),
        getLsbD_of_width_le hvalue (i := count + i) (by omega)]
      simp [hlow, hi, hlt]
  · rw [Nat.mod_self, Nat.sub_self, Nat.sub_zero, Nat.zero_add, getLsbD_operand value hi,
      getLsbD_of_width_le hvalue (i := width.bits + i) (by omega)]
    simp [hi, hlt]

/-- The sign extension to a host word has room for the shift, except at the full width. -/
theorem shiftWord_arithmetic (hcount : count + width.bits ≤ 64) :
    shiftWord 7 value count width =
      (shiftedOperand 7 (value.setWidth width.bits) count).setWidth 64 := by
  refine and_maskForWidth_eq fun i hi => ?_
  have hin : count + i < 64 := by omega
  have hout : ¬width.bits ≤ i := by omega
  rw [shiftedOperand, BitVec.getLsbD_ushiftRight, signExtend_eq, BitVec.getLsbD_signExtend,
    BitVec.getLsbD_sshiftRight]
  simp [hin, hout]

/-- An operand in a host word. -/
theorem toNat_setWidth_operand (operand : BitVec width.bits) :
    (operand.setWidth 64).toNat = operand.toNat :=
  BitVec.toNat_setWidth_of_le width.bits_le

/-! ## The whole group -/

/-- A group whose host shifts are defined writes its word. -/
theorem executeShiftGroup_of_read {opcode : U8} {prefixes : Prefixes}
    {emulator decoded read : Emulator} {shift : ShiftInstruction}
    (hdecode : decodeShiftGroup opcode prefixes emulator = .ok shift decoded)
    (hoperation : IsShiftOperation shift.operation) (hcount : shift.count ≠ 0)
    (hread : readOperand shift.operand shift.width prefixes decoded = .ok value read) :
    executeShiftGroup opcode prefixes emulator =
      if HostShiftsDefined shift.operation shift.count shift.width then
        writeShifted shift.operand shift.width prefixes
          (shiftWord shift.operation value shift.count shift.width) read
      else .error .hostFault read := by
  rw [executeShiftGroup_of_decoded hdecode, ShiftInstruction.execute_of_read hcount hread,
    shiftResult_eq hoperation shift.count_lt]
  split
  · rfl
  · rfl

end SoftCPU64

end LUE
