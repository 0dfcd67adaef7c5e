import LinuxUserspaceEmulator.SoftCPU64.MultiPrecision
import LinuxUserspaceEmulator.SoftCPU64.Reading
import LinuxUserspaceEmulator.SoftCPU64.ShiftResults

/-!
# Flags after shifts

The shift group sets the flags of a logical result after every operation: it clears the carry
and overflow flags and takes the others from the result.  The architecture puts the last bit
that leaves the operand into the carry flag and lets a rotation keep the sign, zero and parity
flags.

Main results:

- Theorem `flags_after_executeShiftGroup`: the flags the group leaves.
- Theorem `executeShiftGroup_flags`: when they are the flags of the architecture.
-/

namespace LUE

open StateExcept

namespace SoftCPU64

section FlagsAfter

variable {opcode : U8} {prefixes : Prefixes} {emulator decoded read : Emulator}
  {shift : ShiftInstruction} {value : U64} {width : Width}

/-! ## Flags -/

/-- The flags of a logical result; the others stay. -/
theorem flag_setLogicFlags (cpu : SoftCPU64) (result : U64) (width : Width) :
    let after := cpu.setLogicFlags result width
    let masked := result &&& maskForWidth width
    after.flag CF = false ∧ after.flag OF = false ∧
      after.flag SF = (masked &&& signBitForWidth width != 0) ∧
      after.flag ZF = (masked == 0) ∧ after.flag PF = parityEven (masked.setWidth 8) ∧
      after.flag AF = cpu.flag AF ∧ after.flag DF = cpu.flag DF := by
  simp only [setLogicFlags, flag_updateFlagsTaint]
  refine ⟨?_, ?_, ?_, ?_, ?_, ?_, ?_⟩ <;> simp (disch := decide) only [flag_setFlag] <;> rfl

/-- A part of the instruction that leaves the flags register alone. -/
def KeepsRflags {α : Type} (program : EmulatorProgram α) : Prop :=
  ∀ rflags, Preserves (fun emulator => emulator.cpu.rflags = rflags) program

namespace KeepsRflags

variable {α β : Type}

theorem pure (a : α) : KeepsRflags (pure a) :=
  fun _ => Preserves.pure a

theorem bind {x : EmulatorProgram α} {f : α → EmulatorProgram β} (hx : KeepsRflags x)
    (hf : ∀ a, KeepsRflags (f a)) : KeepsRflags (x >>= f) :=
  fun rflags => (hx rflags).bind fun a => hf a rflags

theorem getCPU : KeepsRflags getCPU :=
  fun _ _ h => h

theorem onMMU (program : MMUProgram α) : KeepsRflags (onMMU program) := by
  intro rflags emulator h
  unfold LUE.onMMU onPart
  cases program emulator.mmu <;> exact h

theorem modifyCPU {f : SoftCPU64 → SoftCPU64} (hf : ∀ cpu, (f cpu).rflags = cpu.rflags) :
    KeepsRflags (modifyCPU f) :=
  fun _ _ h => (hf _).trans h

theorem eq_of_ok {program : EmulatorProgram α} (hkeeps : KeepsRflags program)
    {before after : Emulator} {a : α} (h : program before = .ok a after) :
    after.cpu.rflags = before.cpu.rflags := by
  have hfinal := hkeeps _ before rfl
  rwa [h] at hfinal

theorem writeOperand (operand : Operand) (width : Width) (value : U64) (prefixes : Prefixes) :
    KeepsRflags (writeOperand operand width value prefixes) := by
  cases operand with
  | register register => exact modifyCPU fun _ => rfl
  | memory decoded =>
      exact (getCPU.bind fun _ => pure _).bind fun _ => getCPU.bind fun _ => onMMU _

end KeepsRflags

theorem ReadsOnly.decodeShiftGroup (opcode : U8) (prefixes : Prefixes) :
    ReadsOnly (decodeShiftGroup opcode prefixes) := by
  refine (fetchModrm prefixes).bind fun modrm =>
    (decodeRmOperand prefixes modrm).bind fun operand => ?_
  exact ite (fetch8.bind fun _ => pure _)
    (ite ((pure _).bind fun _ => pure _) (getCPU.bind fun _ => pure _))

/-- The sign, zero and parity flags are those of a result. -/
structure HasResultFlags {w : Nat} (cpu : SoftCPU64) (result : BitVec w) : Prop where
  sign : cpu.flag SF = result.msb
  zero : cpu.flag ZF = (result == 0)
  parity : cpu.flag PF = parityEven (result.setWidth 8)

/-- Flags that are taken from the register value of a result are the flags of the result. -/
theorem hasResultFlags_of_value {cpu : SoftCPU64} {result : BitVec width.bits} {value : U64}
    (hvalue : value = result.setWidth 64)
    (hsign : cpu.flag SF = (value &&& signBitForWidth width != 0))
    (hzero : cpu.flag ZF = (value == 0))
    (hparity : cpu.flag PF = parityEven (value.setWidth 8)) : HasResultFlags cpu result := by
  subst hvalue
  have hle := width.bits_le
  refine ⟨?_, ?_, ?_⟩
  · have hpos := width.bits_pos
    have hlast : width.bits - 1 < 64 := by omega
    rw [hsign, and_signBitForWidth_ne_zero, BitVec.getLsbD_setWidth, decide_eq_true hlast,
      Bool.true_and, BitVec.msb_eq_getLsbD_last]
  · rw [hzero, Bool.eq_iff_iff, beq_iff_eq, beq_iff_eq, ← BitVec.toNat_inj, ← BitVec.toNat_inj,
      toNat_setWidth_operand]
    rfl
  · rw [hparity, BitVec.setWidth_setWidth_of_le _ (by decide)]

/-- The flags after a logical operation are those of its result. -/
theorem hasResultFlags_setLogicFlags (cpu : SoftCPU64) (result : BitVec width.bits) :
    HasResultFlags (cpu.setLogicFlags (result.setWidth 64) width) result := by
  rcases flag_setLogicFlags cpu (result.setWidth 64) width with
    ⟨-, -, hsign, hzero, hparity, -, -⟩
  have hmask : result.setWidth 64 &&& maskForWidth width = result.setWidth 64 := by
    refine and_maskForWidth_eq fun i hi => ?_
    have hlt : i < 64 := Nat.lt_of_lt_of_le hi width.bits_le
    rw [BitVec.getLsbD_setWidth, decide_eq_true hlt, Bool.true_and]
  rw [hmask] at hsign hzero hparity
  exact hasResultFlags_of_value rfl hsign hzero hparity

/-- Two CPUs agree on the flags of a result exactly when one has them. -/
theorem hasResultFlags_iff {w : Nat} {cpu cpu' : SoftCPU64} {result : BitVec w}
    (h : HasResultFlags cpu result) :
    HasResultFlags cpu' result ↔
      ∀ flagValue ∈ [SF, ZF, PF], cpu.flag flagValue = cpu'.flag flagValue := by
  constructor
  · intro h'
    simp only [List.forall_mem_cons]
    exact ⟨h.sign.trans h'.sign.symm, h.zero.trans h'.zero.symm,
      h.parity.trans h'.parity.symm, nofun⟩
  · intro hsame
    exact ⟨(hsame SF (by simp)).symm.trans h.sign, (hsame ZF (by simp)).symm.trans h.zero,
      (hsame PF (by simp)).symm.trans h.parity⟩

namespace ShiftInstruction

variable (shift)

/-- The last bit that leaves the operand: at its low end to the right, at its high end to the
left. -/
def lastBitOut (value : U64) : Bool :=
  if shift.operation = 1 ∨ shift.operation = 5 ∨ shift.operation = 7 then
    value.getLsbD (shift.effectiveCount - 1)
  else value.getLsbD (shift.width.bits - shift.effectiveCount)

/-- The flags the architecture asks for after a shift or a rotation that has written a word. -/
structure FlagsFollow (value word : U64) (before after : SoftCPU64) : Prop where
  zero : shift.effectiveCount = 0 →
    ∀ flagValue ∈ flags, after.flag flagValue = before.flag flagValue
  rotated : 1 ≤ shift.effectiveCount → shift.effectiveCount < shift.width.bits →
    shift.operation < 2 →
      after.flag CF = word.getLsbD (if shift.operation = 0 then 0 else shift.width.bits - 1) ∧
        ∀ flagValue ∈ [SF, ZF, PF], after.flag flagValue = before.flag flagValue
  shifted : 1 ≤ shift.effectiveCount → shift.effectiveCount < shift.width.bits →
    2 ≤ shift.operation →
      after.flag CF = shift.lastBitOut value ∧
        after.flag SF = word.getLsbD (shift.width.bits - 1) ∧ after.flag ZF = (word == 0)

/-- When the code's flags are those: the last bit out is clear, a rotation leaves the flags of
its result unchanged because the CPU had them, and a count of zero either ends the instruction or
finds the CPU with the flags it sets. -/
structure FlagsFit (value : U64) (before : SoftCPU64) : Prop where
  zero : shift.effectiveCount = 0 → shift.count ≠ 0 →
    before.flag CF = false ∧ before.flag OF = false ∧
      HasResultFlags before
        (shiftedOperand shift.operation (value.setWidth shift.width.bits) shift.count)
  clear : 1 ≤ shift.effectiveCount → shift.effectiveCount < shift.width.bits →
    shift.lastBitOut value = false
  rotated : 1 ≤ shift.effectiveCount → shift.effectiveCount < shift.width.bits →
    shift.operation < 2 →
      HasResultFlags before
        (shiftedOperand shift.operation (value.setWidth shift.width.bits) shift.count)

variable {shift}

/-- The word is the architecture's, apart from a quadword `SAR`. -/
theorem shiftWord_eq (hoperation : IsShiftOperation shift.operation)
    (hvalue : value.toNat < 2 ^ shift.width.bits)
    (hdefined : HostShiftsDefined shift.operation shift.count shift.width)
    (hpos : 0 < shift.count)
    (hroom : shift.operation = 7 → shift.count + shift.width.bits ≤ 64) :
    shiftWord shift.operation value shift.count shift.width =
      (shiftedOperand shift.operation (value.setWidth shift.width.bits) shift.count).setWidth
        64 := by
  have hrotation : shift.operation < 2 → shift.count ≤ shift.width.bits := fun hop => by
    have hrange := (hostShiftsDefined_of_rotation hop shift.count_lt shift.width).mp hdefined
    omega
  rcases hoperation with hop | hop | hop | hop | hop | hop
  · rw [hop]
    exact shiftWord_rotateLeft hvalue hpos (hrotation (by omega))
  · rw [hop]
    exact shiftWord_rotateRight hvalue hpos (hrotation (by omega))
  · rw [hop]
    exact shiftWord_left (Or.inl rfl)
  · rw [hop]
    exact shiftWord_right hvalue
  · rw [hop]
    exact shiftWord_left (Or.inr rfl)
  · rw [hop]
    exact shiftWord_arithmetic (hroom hop)

/-- A count that the architecture takes for zero and the code does not. -/
theorem room_of_effectiveCount_zero (hzero : shift.effectiveCount = 0) (hpos : 0 < shift.count) :
    shift.count + shift.width.bits ≤ 64 := by
  have hmod := shift.count_eq_mod
  rw [effectiveCount] at hzero
  by_cases hwide : shift.width = .w64
  · rw [if_pos hwide] at hzero
    omega
  · rw [if_neg hwide] at hzero
    have hbits : shift.width.bits ≤ 32 := by
      cases hwidth : shift.width with
      | w64 => contradiction
      | w8 | w16 | w32 => decide
    omega

/-- A rotation with a defined host shift has the architecture's count, unless that is zero. -/
theorem count_eq_of_rotation (hrotation : shift.operation < 2)
    (hdefined : HostShiftsDefined shift.operation shift.count shift.width)
    (heffective : 1 ≤ shift.effectiveCount) : shift.count = shift.effectiveCount := by
  have hrange := (hostShiftsDefined_of_rotation hrotation shift.count_lt shift.width).mp hdefined
  have hmod := shift.count_eq_mod
  rw [count_eq_effectiveCount_iff]
  by_cases hwide : shift.width = .w64
  · exact Or.inl hwide
  · have hbits : shift.width.bits ≤ 32 := by
      cases hwidth : shift.width with
      | w64 => contradiction
      | w8 | w16 | w32 => decide
    rw [effectiveCount, if_neg hwide] at heffective
    exact Or.inr (by omega)

/-- A rotation puts the last bit that leaves the operand at the other end. -/
theorem getLsbD_rotated (hrotation : shift.operation < 2)
    (heffective : shift.count = shift.effectiveCount) (hpos : 1 ≤ shift.count)
    (hlt : shift.count < shift.width.bits) :
    (shiftedOperand shift.operation (value.setWidth shift.width.bits) shift.count).getLsbD
        (if shift.operation = 0 then 0 else shift.width.bits - 1) =
      shift.lastBitOut value := by
  have hop : shift.operation = 0 ∨ shift.operation = 1 := by omega
  rcases hop with hop | hop
  · simp only [hop, shiftedOperand, lastBitOut, ← heffective, BitVec.getLsbD_rotateLeft,
      Nat.mod_eq_of_lt hlt, if_pos]
    rw [decide_eq_true (show 0 < shift.count from hpos), cond_true, Nat.add_zero,
      getLsbD_operand value (by omega)]
    simp
  · have hhigh : ¬shift.width.bits - 1 < shift.width.bits - shift.count := by omega
    have hin : shift.width.bits - 1 < shift.width.bits := by omega
    have hindex : shift.width.bits - 1 - (shift.width.bits - shift.count) = shift.count - 1 := by
      omega
    simp only [hop, shiftedOperand, lastBitOut, ← heffective, BitVec.getLsbD_rotateRight,
      Nat.mod_eq_of_lt hlt]
    simp only [Nat.one_ne_zero, if_false, decide_eq_false hhigh, decide_eq_true hin, cond_false,
      hindex, Bool.true_and, true_or, if_true]
    rw [getLsbD_operand value (by omega)]

end ShiftInstruction

theorem shiftWord_and_mask (operation : Nat) (value : U64) (count : Nat) (width : Width) :
    shiftWord operation value count width &&& maskForWidth width =
      shiftWord operation value count width := by
  unfold shiftWord
  split <;> rw [BitVec.and_assoc, BitVec.and_self]

/-- A shift that has written its operand leaves the flags of a logical result. -/
theorem flags_after_executeShiftGroup {final : Emulator}
    (hdecode : decodeShiftGroup opcode prefixes emulator = .ok shift decoded)
    (hoperation : IsShiftOperation shift.operation) (hcount : shift.count ≠ 0)
    (hread : readOperand shift.operand shift.width prefixes decoded = .ok value read)
    (hrun : executeShiftGroup opcode prefixes emulator = .ok () final) :
    HostShiftsDefined shift.operation shift.count shift.width ∧
      read.cpu.rflags = emulator.cpu.rflags ∧
      final.cpu.rflags = (read.cpu.setLogicFlags
        (shiftWord shift.operation value shift.count shift.width) shift.width).rflags := by
  rw [executeShiftGroup_of_read hdecode hoperation hcount hread] at hrun
  split at hrun
  case isFalse => cases hrun
  case isTrue hdefined =>
    rw [writeShifted, bind_of_ok (modifyCPU_apply _ read)] at hrun
    have hbefore := ((ReadsOnly.decodeShiftGroup opcode prefixes).of_ok hdecode).rflags
    have hsame := ((ReadsOnly.readOperand _ _ _).of_ok hread).rflags
    have hafter := (KeepsRflags.writeOperand _ _ _ _).eq_of_ok hrun
    exact ⟨hdefined, hsame.trans hbefore, hafter⟩

/-- What the flags are after a shift has written a word. -/
structure LeavesLogicFlags (shift : ShiftInstruction) (value word : U64)
    (before after : SoftCPU64) : Prop where
  carry : after.flag CF = false
  overflow : after.flag OF = false
  sign : after.flag SF = word.getLsbD (shift.width.bits - 1)
  zero : after.flag ZF = (word == 0)
  adjust : after.flag AF = before.flag AF
  direction : after.flag DF = before.flag DF
  result : (shift.operation = 7 → shift.count + shift.width.bits ≤ 64) →
    HasResultFlags after
      (shiftedOperand shift.operation (value.setWidth shift.width.bits) shift.count)
  rotated : 1 ≤ shift.effectiveCount → shift.effectiveCount < shift.width.bits →
    shift.operation < 2 →
      word.getLsbD (if shift.operation = 0 then 0 else shift.width.bits - 1) =
        shift.lastBitOut value

theorem leavesLogicFlags_executeShiftGroup {final : Emulator}
    (hdecode : decodeShiftGroup opcode prefixes emulator = .ok shift decoded)
    (hoperation : IsShiftOperation shift.operation) (hcount : shift.count ≠ 0)
    (hread : readOperand shift.operand shift.width prefixes decoded = .ok value read)
    (hrun : executeShiftGroup opcode prefixes emulator = .ok () final) :
    LeavesLogicFlags shift value (shiftWord shift.operation value shift.count shift.width)
      emulator.cpu final.cpu := by
  have hvalue := readOperand_lt hread
  have hpos : 0 < shift.count := Nat.pos_of_ne_zero hcount
  rcases flags_after_executeShiftGroup hdecode hoperation hcount hread hrun with
    ⟨hdefined, hbefore, hafter⟩
  have hfinal := flag_congr hafter
  have hold := flag_congr hbefore
  rcases flag_setLogicFlags read.cpu (shiftWord shift.operation value shift.count shift.width)
    shift.width with ⟨hcarry, hoverflow, hsign, hzero, -, hadjust, hdirection⟩
  rw [shiftWord_and_mask] at hsign hzero
  rw [and_signBitForWidth_ne_zero] at hsign
  refine ⟨?_, ?_, ?_, ?_, ?_, ?_, fun hroom => ?_, fun heffective hlt hop => ?_⟩
  · rw [hfinal, hcarry]
  · rw [hfinal, hoverflow]
  · rw [hfinal, hsign]
  · rw [hfinal, hzero]
  · rw [hfinal, hadjust, hold]
  · rw [hfinal, hdirection, hold]
  · have heq := ShiftInstruction.shiftWord_eq hoperation hvalue hdefined hpos hroom
    rw [heq] at hfinal
    exact (hasResultFlags_iff (hasResultFlags_setLogicFlags read.cpu _)).mpr
      fun flagValue _ => (hfinal flagValue).symm
  · have hcount := ShiftInstruction.count_eq_of_rotation hop hdefined heffective
    have hbits := shift.width.bits_le
    have heq := ShiftInstruction.shiftWord_eq hoperation hvalue hdefined hpos (by omega)
    have hindex : (if shift.operation = 0 then 0 else shift.width.bits - 1) < 64 := by
      split <;> omega
    rw [heq, BitVec.getLsbD_setWidth,
      ShiftInstruction.getLsbD_rotated hop hcount (by omega) (by omega), decide_eq_true hindex,
      Bool.true_and]

namespace LeavesLogicFlags

variable {word : U64} {before after : SoftCPU64}

/-- Flags that follow the architecture were fitting ones. -/
theorem flagsFit (hleaves : LeavesLogicFlags shift value word before after)
    (hpos : 0 < shift.count) (h : shift.FlagsFollow value word before after) :
    shift.FlagsFit value before := by
  refine ⟨fun heffective _ => ?_, fun heffective hlt => ?_, fun heffective hlt hop => ?_⟩
  · have hsame := h.zero heffective
    have hroom := ShiftInstruction.room_of_effectiveCount_zero heffective hpos
    refine ⟨?_, ?_, ?_⟩
    · rw [← hsame CF (by simp [flags]), hleaves.carry]
    · rw [← hsame OF (by simp [flags]), hleaves.overflow]
    · refine (hasResultFlags_iff (hleaves.result fun _ => hroom)).mpr fun flagValue hflag =>
        hsame flagValue ?_
      simp only [flags, List.mem_cons, List.not_mem_nil, or_false] at hflag ⊢
      tauto
  · by_cases hop : shift.operation < 2
    · rw [← hleaves.rotated heffective hlt hop, ← (h.rotated heffective hlt hop).1,
        hleaves.carry]
    · rw [← (h.shifted heffective hlt (Nat.le_of_not_lt hop)).1, hleaves.carry]
  · exact (hasResultFlags_iff (hleaves.result (by omega))).mpr (h.rotated heffective hlt hop).2

/-- Fitting flags follow the architecture. -/
theorem flagsFollow (hleaves : LeavesLogicFlags shift value word before after)
    (hpos : 0 < shift.count) (h : shift.FlagsFit value before) :
    shift.FlagsFollow value word before after := by
  refine ⟨fun heffective flagValue hflag => ?_, fun heffective hlt hop => ?_,
    fun heffective hlt hop => ?_⟩
  · rcases h.zero heffective (Nat.ne_of_gt hpos) with ⟨hcarry, hoverflow, hbefore⟩
    have hroom := ShiftInstruction.room_of_effectiveCount_zero heffective hpos
    have hsame := (hasResultFlags_iff (hleaves.result fun _ => hroom)).mp hbefore
    simp only [flags, List.mem_cons, List.not_mem_nil, or_false] at hflag
    rcases hflag with rfl | rfl | rfl | rfl | rfl | rfl | rfl
    · rw [hleaves.carry, hcarry]
    · exact hsame PF (by simp)
    · exact hleaves.adjust
    · exact hsame ZF (by simp)
    · exact hsame SF (by simp)
    · exact hleaves.direction
    · rw [hleaves.overflow, hoverflow]
  · refine ⟨?_, (hasResultFlags_iff (hleaves.result (by omega))).mp
      (h.rotated heffective hlt hop)⟩
    rw [hleaves.carry, hleaves.rotated heffective hlt hop, h.clear heffective hlt]
  · exact ⟨hleaves.carry.trans (h.clear heffective hlt).symm, hleaves.sign, hleaves.zero⟩

end LeavesLogicFlags

/-- The flags after a shift or a rotation are the architecture's exactly when they happen to fit:
the code clears the carry flag and sets the others from the result, for every operation and for
every count it does not take for zero. -/
theorem executeShiftGroup_flags {final : Emulator}
    (hdecode : decodeShiftGroup opcode prefixes emulator = .ok shift decoded)
    (hoperation : IsShiftOperation shift.operation)
    (hread : shift.count ≠ 0 →
      readOperand shift.operand shift.width prefixes decoded = .ok value read)
    (hrun : executeShiftGroup opcode prefixes emulator = .ok () final) :
    shift.FlagsFollow value (shiftWord shift.operation value shift.count shift.width)
        emulator.cpu final.cpu ↔
      shift.FlagsFit value emulator.cpu := by
  by_cases hcount : shift.count = 0
  · have heffective : shift.effectiveCount = 0 := by
      have hmod := shift.count_eq_mod
      rw [ShiftInstruction.effectiveCount]
      split <;> omega
    have hfinal : final = decoded := by
      rw [executeShiftGroup_of_decoded hdecode, ShiftInstruction.execute_of_zero hcount] at hrun
      cases hrun
      rfl
    have hsame := ((ReadsOnly.decodeShiftGroup opcode prefixes).of_ok hdecode).rflags
    constructor
    · exact fun _ => ⟨fun _ hne => absurd hcount hne, fun _ _ => by omega, fun _ _ => by omega⟩
    · intro _
      refine ⟨fun _ flagValue _ => ?_, fun _ _ => by omega, fun _ _ => by omega⟩
      rw [hfinal]
      exact flag_congr hsame flagValue
  · have hpos : 0 < shift.count := Nat.pos_of_ne_zero hcount
    have hleaves := leavesLogicFlags_executeShiftGroup hdecode hoperation hcount (hread hcount) hrun
    exact ⟨hleaves.flagsFit hpos, hleaves.flagsFollow hpos⟩

end FlagsAfter

section Examples

/-- `shl $1, %eax` in the encoding with an immediate. -/
def shlDoubleword : Emulator :=
  shiftingRax [0xe0, 0x01] 0x40000000

/-- A shift to the left of an operand whose top bit is clear. -/
theorem executeShiftGroup_flags_shlDoubleword :
    (ShiftInstruction.mk .w32 4 (.register .rax) 1).FlagsFollow 0x40000000
      (shiftWord 4 0x40000000 1 .w32) shlDoubleword.cpu
      (finalState (executeShiftGroup 0xc1 {} shlDoubleword)).cpu := by
  have hdecode : decodeShiftGroup 0xc1 {} shlDoubleword =
      .ok ⟨.w32, 4, .register .rax, 1⟩ (finalState (decodeShiftGroup 0xc1 {} shlDoubleword)) :=
    eq_ok_of_returned (by decide)
  have hread : readOperand (.register .rax) .w32 {}
      (finalState (decodeShiftGroup 0xc1 {} shlDoubleword)) =
        .ok 0x40000000 (finalState (readOperand (.register .rax) .w32 {}
          (finalState (decodeShiftGroup 0xc1 {} shlDoubleword)))) :=
    eq_ok_of_returned (by decide)
  have hrun : executeShiftGroup 0xc1 {} shlDoubleword =
      .ok () (finalState (executeShiftGroup 0xc1 {} shlDoubleword)) :=
    eq_ok_of_returned (by decide)
  refine (executeShiftGroup_flags hdecode (by decide) (fun _ => hread) hrun).mpr ⟨?_, ?_, ?_⟩
  · exact fun heffective => absurd heffective (by decide)
  · exact fun _ _ => by decide
  · exact fun _ _ hrotation => absurd hrotation (by decide)

/-- `shl $1, %eax` of an operand whose top bit is set. -/
def shlNegative : Emulator :=
  { startingAt [0xd1, 0xe0] with
    cpu := { rip := 0x1000, gpr := fun register => if register = .rax then 0x80000000 else 0 } }

/-- The bit that leaves the operand is lost: the carry flag is clear. -/
theorem shl_clears_carry :
    returned (step Emulator.quietHost shlNegative) = some () ∧
      (finalState (step Emulator.quietHost shlNegative)).cpu.flag CF = false ∧
      (0x80000000 : U64).getLsbD (Width.w32.bits - 1) = true := by
  refine ⟨by decide, by decide, by decide⟩

end Examples

end SoftCPU64

end LUE
