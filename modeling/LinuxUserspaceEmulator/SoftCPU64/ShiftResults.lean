import LinuxUserspaceEmulator.SoftCPU64.Immediates
import LinuxUserspaceEmulator.SoftCPU64.ShiftGroup

/-!
# Results and counts of shifts

What the shift group writes, beside what the architecture asks for.  The arithmetic shift
extends the sign to a host word and shifts that as an unsigned word, so a quadword loses its
sign.  Every count is reduced modulo 64, and a rotation shifts by the operand width less the
count, so the narrow operands have counts that the architecture reduces further.

Main results:

- Theorem `executeShiftGroup_sar`: the arithmetic shift is one except for negative quadwords.
- Theorem `executeShiftGroup_counts`: which counts are reduced as the architecture does.
-/

namespace LUE

open StateExcept

namespace SoftCPU64

section Results

variable {opcode : U8} {prefixes : Prefixes} {emulator decoded read : Emulator}
  {shift : ShiftInstruction} {value : U64} {count : Nat} {width : Width}

/-! ## The arithmetic shift -/

/-- The arithmetic shift divides the signed operand and rounds down. -/
theorem toNat_shiftedOperand_arithmetic {w : Nat} (operand : BitVec w) (count : Nat) :
    ((shiftedOperand 7 operand count).toNat : Int) = operand.toInt / 2 ^ count % 2 ^ w := by
  have hpos : (2 ^ w : Int) ≠ 0 := Int.ne_of_gt (Int.pow_pos (by decide))
  have hnonneg := Int.emod_nonneg (operand.toInt / 2 ^ count) hpos
  rw [shiftedOperand, BitVec.sshiftRight, BitVec.toNat_ofInt, Int.shiftRight_eq_div_pow]
  push_cast
  exact Int.toNat_of_nonneg hnonneg

/-- A quadword that is not negative is shifted as an unsigned one. -/
theorem shiftWord_arithmetic_of_msb_false (hmsb : value.msb = false) :
    shiftWord 7 value count .w64 =
      (shiftedOperand 7 (value.setWidth Width.w64.bits) count).setWidth 64 := by
  have hextended : signExtend value .w64 = value := by
    rw [signExtend_eq, Width.bits, BitVec.setWidth_eq, BitVec.signExtend_eq]
  refine and_maskForWidth_eq fun i _ => ?_
  rw [hextended, shiftedOperand, Width.bits, BitVec.setWidth_eq,
    BitVec.sshiftRight_eq_of_msb_false hmsb]

/-- A quadword has no wider word to extend into: the top bit of the host word is clear after
the shift. -/
theorem shiftWord_arithmetic_ne (hpos : 1 ≤ count) (hmsb : value.msb = true) :
    shiftWord 7 value count .w64 ≠
      (shiftedOperand 7 (value.setWidth Width.w64.bits) count).setWidth 64 := by
  intro hword
  have hbit := congrArg (fun word : U64 => word.getLsbD 63) hword
  have hout : ¬count + 63 < 64 := by omega
  simp only [shiftWord, shiftedOperand, BitVec.getLsbD_and, BitVec.getLsbD_ushiftRight,
    Width.bits, BitVec.setWidth_eq, BitVec.getLsbD_sshiftRight, if_neg hout, hmsb,
    BitVec.getLsbD_of_ge _ _ (Nat.le_of_not_lt hout)] at hbit
  simp at hbit

/-- `SAR`: the word that is written is the signed operand divided by a power of two and rounded
down, except for a negative quadword. -/
theorem executeShiftGroup_sar
    (hdecode : decodeShiftGroup opcode prefixes emulator = .ok shift decoded)
    (hsar : shift.operation = 7) (hpos : 1 ≤ shift.count)
    (hlt : shift.count < shift.width.bits)
    (hread : readOperand shift.operand shift.width prefixes decoded = .ok value read) :
    executeShiftGroup opcode prefixes emulator =
        writeShifted shift.operand shift.width prefixes
          (shiftWord 7 value shift.count shift.width) read ∧
      (((shiftWord 7 value shift.count shift.width).toNat : Int) =
          (value.setWidth shift.width.bits).toInt / 2 ^ shift.count % 2 ^ shift.width.bits ↔
        (shift.width = .w64 → value.msb = false)) := by
  constructor
  · have hshift : 2 ≤ shift.operation := by
      rw [hsar]
      decide
    have hdefined := hostShiftsDefined_of_shift hshift shift.count_lt shift.width
    rw [executeShiftGroup_of_read hdecode (by rw [hsar]; decide) (by omega) hread,
      if_pos hdefined, hsar]
  · rw [← toNat_shiftedOperand_arithmetic, Int.natCast_inj,
      ← toNat_setWidth_operand, BitVec.toNat_inj]
    cases hwidth : shift.width with
    | w64 =>
        constructor
        · intro hword _
          rw [← Bool.not_eq_true]
          exact fun hmsb => shiftWord_arithmetic_ne hpos hmsb hword
        · exact fun hmsb => shiftWord_arithmetic_of_msb_false (hmsb rfl)
    | w8 | w16 | w32 =>
        rw [hwidth] at hlt
        have hroom := @shiftWord_arithmetic value _ _
          (show shift.count + shift.width.bits ≤ 64 by rw [hwidth]; simp [Width.bits] at *; omega)
        rw [hwidth] at hroom
        exact ⟨fun _ hwide => absurd hwide (by decide), fun _ => hroom⟩

end Results

section Examples

/-- An emulator whose decoder is behind the opcode of a shift of `%rax`. -/
def shiftingRax (code : List U8) (value : U64) : Emulator :=
  { startingAt code with
    cpu := {
      rip := 0x1000
      decodePc := 0x1000
      gpr := fun register => if register = .rax then value else 0 } }

/-- `sar $4, %eax` -/
def sarDoubleword : Emulator :=
  shiftingRax [0xf8, 0x04] 0xf0000000

/-- A negative doubleword is divided and rounded down. -/
theorem executeShiftGroup_sar_doubleword :
    ((shiftWord 7 0xf0000000 4 .w32).toNat : Int) =
      ((0xf0000000 : U64).setWidth 32).toInt / 2 ^ 4 % 2 ^ 32 := by
  have hdecode : decodeShiftGroup 0xc1 {} sarDoubleword =
      .ok ⟨.w32, 7, .register .rax, 4⟩ (finalState (decodeShiftGroup 0xc1 {} sarDoubleword)) :=
    eq_ok_of_returned (by decide)
  have hread : readOperand (.register .rax) .w32 {}
      (finalState (decodeShiftGroup 0xc1 {} sarDoubleword)) =
        .ok 0xf0000000 (finalState (readOperand (.register .rax) .w32 {}
          (finalState (decodeShiftGroup 0xc1 {} sarDoubleword)))) :=
    eq_ok_of_returned (by decide)
  exact (executeShiftGroup_sar hdecode rfl (by decide) (by decide) hread).2.mpr nofun

/-- `sar $1, %rax` of the most negative quadword. -/
def sarQuadword : Emulator :=
  { startingAt [0x48, 0xd1, 0xf8] with
    cpu := {
      rip := 0x1000
      gpr := fun register => if register = .rax then 0x8000000000000000 else 0 } }

/-- The sign of the quadword is shifted out of the host word. -/
theorem sar_quadword :
    returned (step Emulator.quietHost sarQuadword) = some () ∧
      (finalState (step Emulator.quietHost sarQuadword)).cpu.reg .rax = 0x4000000000000000 ∧
      ((0x4000000000000000 : U64).toNat : Int) ≠
        (0x8000000000000000 : U64).toInt / 2 ^ 1 % 2 ^ 64 := by
  refine ⟨by decide, by decide, by decide⟩

end Examples

section Counts

variable {opcode : U8} {prefixes : Prefixes} {emulator decoded read : Emulator}
  {shift : ShiftInstruction} {value : U64}

/-! ## Counts -/

namespace ShiftInstruction

variable (shift)

/-- The count as the architecture reduces it. -/
def effectiveCount : Nat :=
  shift.countByte.toNat % if shift.width = .w64 then 64 else 32

/-- The host shifts that executing the instruction evaluates. -/
def hostShifts : List Int :=
  if shift.count = 0 then [] else hostShiftAmounts shift.operation shift.count shift.width

/-- The result of a shift or a rotation, as the architecture defines it. -/
def architecturalResult (value : U64) : Nat :=
  match shift.operation with
  | 0 => ((value.setWidth shift.width.bits).rotateLeft
      (shift.effectiveCount % shift.width.bits)).toNat
  | 1 => ((value.setWidth shift.width.bits).rotateRight
      (shift.effectiveCount % shift.width.bits)).toNat
  | 5 => value.toNat / 2 ^ shift.effectiveCount
  | _ => value.toNat * 2 ^ shift.effectiveCount % 2 ^ shift.width.bits

/-- The code shifts by the architecture's count, without an undefined host shift, and writes
the architecture's result; the result of `SAR` is left aside. -/
structure ReducesCount (value : U64) : Prop where
  count : shift.count = shift.effectiveCount
  hostShifts : ∀ amount ∈ shift.hostShifts, 0 ≤ amount ∧ amount < 64
  word : shift.count ≠ 0 → shift.operation ≠ 7 →
    (shiftWord shift.operation value shift.count shift.width).toNat =
      shift.architecturalResult value

variable {shift}

theorem count_eq_effectiveCount_iff :
    shift.count = shift.effectiveCount ↔
      shift.width = .w64 ∨ shift.countByte.toNat % 64 < 32 := by
  rw [count_eq_mod, effectiveCount]
  by_cases hwide : shift.width = .w64
  · simp [hwide]
  · rw [if_neg hwide]
    constructor
    · intro h
      exact Or.inr (by omega)
    · rintro (h | h)
      · contradiction
      · omega

/-- The word is the architecture's result where the code shifts by the architecture's count. -/
theorem toNat_shiftWord (hoperation : IsShiftOperation shift.operation)
    (hsar : shift.operation ≠ 7) (hvalue : value.toNat < 2 ^ shift.width.bits)
    (heffective : shift.count = shift.effectiveCount) (hpos : 0 < shift.count)
    (hrotation : shift.operation < 2 → shift.count ≤ shift.width.bits) :
    (shiftWord shift.operation value shift.count shift.width).toNat =
      shift.architecturalResult value := by
  have hnat : (value.setWidth shift.width.bits).toNat = value.toNat := by
    rw [BitVec.toNat_setWidth, Nat.mod_eq_of_lt hvalue]
  unfold architecturalResult
  rcases hoperation with hop | hop | hop | hop | hop | hop
  · rw [hop, shiftWord_rotateLeft hvalue hpos (hrotation (by omega)), toNat_setWidth_operand,
      shiftedOperand, heffective, BitVec.rotateLeft_mod_eq_rotateLeft]
    rfl
  · rw [hop, shiftWord_rotateRight hvalue hpos (hrotation (by omega)), toNat_setWidth_operand,
      shiftedOperand, heffective, BitVec.rotateRight_mod_eq_rotateRight]
    rfl
  · rw [hop, shiftWord_left (Or.inl rfl), toNat_setWidth_operand, heffective]
    simp only [shiftedOperand, BitVec.toNat_shiftLeft, Nat.shiftLeft_eq, hnat]
  · rw [hop, shiftWord_right hvalue, toNat_setWidth_operand, heffective]
    simp only [shiftedOperand, BitVec.toNat_ushiftRight, Nat.shiftRight_eq_div_pow, hnat]
  · rw [hop, shiftWord_left (Or.inr rfl), toNat_setWidth_operand, heffective]
    simp only [shiftedOperand, BitVec.toNat_shiftLeft, Nat.shiftLeft_eq, hnat]
  · contradiction

end ShiftInstruction

/-- The shift group reduces its count as the architecture does exactly for quadwords and for
counts below 32, and for a rotation only up to the operand width. -/
theorem executeShiftGroup_counts
    (hdecode : decodeShiftGroup opcode prefixes emulator = .ok shift decoded)
    (hoperation : IsShiftOperation shift.operation)
    (hread : shift.count ≠ 0 →
      readOperand shift.operand shift.width prefixes decoded = .ok value read) :
    executeShiftGroup opcode prefixes emulator =
        (if shift.count = 0 then .ok () decoded
        else if HostShiftsDefined shift.operation shift.count shift.width then
          writeShifted shift.operand shift.width prefixes
            (shiftWord shift.operation value shift.count shift.width) read
        else .error .hostFault read) ∧
      (shift.ReducesCount value ↔
        (shift.width = .w64 ∨ shift.countByte.toNat % 64 < 32) ∧
          (shift.operation < 2 → shift.countByte.toNat % 64 ≤ shift.width.bits)) := by
  constructor
  · by_cases hzero : shift.count = 0
    · rw [if_pos hzero, executeShiftGroup_of_decoded hdecode,
        ShiftInstruction.execute_of_zero hzero]
    · rw [if_neg hzero, executeShiftGroup_of_read hdecode hoperation hzero (hread hzero)]
  · have hcount := shift.count_lt
    rw [← ShiftInstruction.count_eq_effectiveCount_iff, ← shift.count_eq_mod]
    constructor
    · intro h
      refine ⟨h.count, fun hrotation => ?_⟩
      by_cases hzero : shift.count = 0
      · omega
      · have hdefined : HostShiftsDefined shift.operation shift.count shift.width := by
          have hshifts := h.hostShifts
          rwa [ShiftInstruction.hostShifts, if_neg hzero] at hshifts
        have hrange := (hostShiftsDefined_of_rotation hrotation hcount shift.width).mp hdefined
        omega
    · rintro ⟨heffective, hrotation⟩
      refine ⟨heffective, ?_, fun hne hsar => ?_⟩
      · rw [ShiftInstruction.hostShifts]
        split <;> rename_i hzero
        · simp
        · by_cases hop : shift.operation < 2
          · have hle := hrotation hop
            have hbits := shift.width.bits_le
            exact (hostShiftsDefined_of_rotation hop hcount shift.width).mpr
              ⟨by omega, by omega⟩
          · exact hostShiftsDefined_of_shift (Nat.le_of_not_lt hop) hcount shift.width
      · exact ShiftInstruction.toNat_shiftWord hoperation hsar (readOperand_lt (hread hne))
          heffective (Nat.pos_of_ne_zero hne) hrotation

end Counts

section Examples

/-- A rotation of a byte by three, by the count byte `0x43`. -/
def rolByte : Emulator :=
  shiftingRax [0xc0, 0x43] 0x81

/-- The count byte is reduced to three. -/
theorem executeShiftGroup_counts_rolByte :
    (ShiftInstruction.mk .w8 0 (.register .rax) 0x43).ReducesCount 0x81 := by
  have hdecode : decodeShiftGroup 0xc0 {} rolByte =
      .ok ⟨.w8, 0, .register .rax, 0x43⟩ (finalState (decodeShiftGroup 0xc0 {} rolByte)) :=
    eq_ok_of_returned (by decide)
  have hread : readOperand (.register .rax) .w8 {}
      (finalState (decodeShiftGroup 0xc0 {} rolByte)) =
        .ok 0x81 (finalState (readOperand (.register .rax) .w8 {}
          (finalState (decodeShiftGroup 0xc0 {} rolByte)))) :=
    eq_ok_of_returned (by decide)
  exact (executeShiftGroup_counts hdecode (by decide) fun _ => hread).2.mpr
    ⟨Or.inr (by decide), fun _ => by decide⟩

/-- `shl $32, %eax` -/
def shlByWidth : Emulator :=
  { startingAt [0xc1, 0xe0, 0x20] with
    cpu := { rip := 0x1000, gpr := fun register => if register = .rax then 1 else 0 } }

/-- `rol $9, %al` -/
def rolByNine : Emulator :=
  { startingAt [0xc0, 0xc0, 0x09] with
    cpu := { rip := 0x1000, gpr := fun register => if register = .rax then 1 else 0 } }

/-- A doubleword is shifted by 32 where the architecture shifts by zero, and a byte is rotated
by nine with a host shift by minus one. -/
theorem shift_counts_not_reduced :
    returned (step Emulator.quietHost shlByWidth) = some () ∧
      (finalState (step Emulator.quietHost shlByWidth)).cpu.reg .rax = 0 ∧
      raised (step Emulator.quietHost rolByNine) = some .hostFault ∧
      ¬(ShiftInstruction.mk .w8 0 (.register .rax) 9).ReducesCount 1 := by
  refine ⟨by decide, by decide, by decide, fun h => ?_⟩
  exact absurd (h.hostShifts (-1) (by decide)) (by decide)

end Examples

end SoftCPU64

end LUE
