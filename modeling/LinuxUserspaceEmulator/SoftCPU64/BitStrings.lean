import LinuxUserspaceEmulator.Library.BitStrings
import LinuxUserspaceEmulator.SoftCPU64.Division
import LinuxUserspaceEmulator.SoftCPU64.OperandForms
import LinuxUserspaceEmulator.SoftMMU.Words

/-!
# Bit strings as operands

A bit instruction with an operand in memory takes the memory around the operand for a string of
bits, and the signed register operand for the position of a bit.

Main results:

- Theorem `BitOperation.getLsbD_apply`: a bit operation changes one bit of its word.
- Theorem `executeBitString_of_memory`: the word that is accessed.
- Theorem `step_bitString`: a bit instruction tests and changes one bit of the string.
-/

namespace LUE

open StateExcept BitStrings

namespace SoftCPU64

/-! ## Operations on one bit -/

/-- A bit after a bit operation. -/
def BitOperation.onBit (operation : BitOperation) (bit : Bool) : Bool :=
  match operation with
  | test => bit
  | set => true
  | reset => false
  | complement => !bit

/-- A bit operation changes one bit of its word. -/
theorem BitOperation.getLsbD_apply (operation : BitOperation) (value : U64) {index j : Nat}
    (hindex : index < 64) (hj : j < 64) :
    (operation.apply value ((1 : U64) <<< index)).getLsbD j =
      if j = index then operation.onBit (value.getLsbD j) else value.getLsbD j := by
  have hbit := getLsbD_one_shiftLeft hindex j
  by_cases hsame : j = index
  · rw [decide_eq_true hsame.symm] at hbit
    rw [if_pos hsame]
    cases operation with
    | test => rfl
    | set => rw [apply, BitVec.getLsbD_or, hbit, Bool.or_true, onBit]
    | reset => rw [apply, BitVec.getLsbD_and, BitVec.getLsbD_not, hbit, Bool.not_true,
        Bool.and_false, Bool.and_false, onBit]
    | complement => rw [apply, BitVec.getLsbD_xor, hbit, Bool.xor_true, onBit]
  · rw [decide_eq_false (Ne.symm hsame)] at hbit
    rw [if_neg hsame]
    cases operation with
    | test => rfl
    | set => rw [apply, BitVec.getLsbD_or, hbit, Bool.or_false]
    | reset => rw [apply, BitVec.getLsbD_and, BitVec.getLsbD_not, hbit, decide_eq_true hj,
        Bool.not_false, Bool.and_true, Bool.and_true]
    | complement => rw [apply, BitVec.getLsbD_xor, hbit, Bool.xor_false]

/-- The flag of a bit instruction is the bit. -/
theorem flag_setBitFlag (value : U64) (index : Nat) (cpu : SoftCPU64) :
    (setBitFlag value index cpu).flag CF = value.getLsbD index := by
  have hbit : (value >>> index &&& 1 != 0) = value.getLsbD index := by
    have hfirst := and_one_shiftLeft_ne_zero (value >>> index) (by decide : 0 < 64)
    rwa [BitVec.getLsbD_ushiftRight, Nat.add_zero] at hfirst
  rw [← hbit]
  exact flag_setCarry cpu _

/-! ## The word that is accessed -/

/-- A bit instruction has tested one bit of the string and changed this bit alone. -/
structure ChangesBit (operation : BitOperation) (base : U64) (offset : Int)
    (before after : Emulator) : Prop where
  tested : bitAt before.mmu.guestByte (byteOf base offset) (indexOf offset) =
    some (after.cpu.flag CF)
  changed : bitAt after.mmu.guestByte (byteOf base offset) (indexOf offset) =
    some (operation.onBit (after.cpu.flag CF))
  others : ∀ address i, i < 8 → ¬(address = byteOf base offset ∧ i = indexOf offset) →
    bitAt after.mmu.guestByte address i = bitAt before.mmu.guestByte address i

variable {host : Host} {prefixes : Prefixes} {opcode : U8} {emulator selected located : Emulator}
  {modrm : ModRM} {address : DecodedAddress} {base : U64}

/-- The position that a register gives to a bit instruction. -/
def bitOffset (cpu : SoftCPU64) (register : Register) (width : Width) : Int :=
  ((cpu.reg register).setWidth width.bits).toInt

theorem signedOperand_readLane (cpu : SoftCPU64) (register : Register) {width : Width}
    (hwidth : width ≠ .w8) (prefixes : Prefixes) :
    signedOperand (readLane cpu.gpr register width prefixes) width =
      bitOffset cpu register width := by
  rw [signedOperand_eq, readLane_of_not_isHighByte _ (isHighByte_of_ne hwidth _ _),
    setWidth_and_maskForWidth]
  rfl

/-- A word is read and tested, and stored when it has changed. -/
theorem changesBit_of_permits (operation : BitOperation) (width : Width) (base : U64)
    (offset : Int) (hwf : RegionsWellFormed emulator.mmu.regions)
    (hpermits : ∀ i < width.bytes,
      Permits emulator.mmu (wordOf width.bytes base offset + BitVec.ofNat 64 i) protRead ∧
      Permits emulator.mmu (wordOf width.bytes base offset + BitVec.ofNat 64 i) protWrite) :
    ∃ final, (do
        let value ← readMMU fun mmu => mmu.readInteger (wordOf width.bytes base offset) width.bytes
        modifyCPU (setBitFlag value (wordIndexOf width.bytes offset))
        let newValue := operation.apply value ((1 : U64) <<< wordIndexOf width.bytes offset)
        if operation ≠ .test ∧ newValue ≠ value then
          onMMU (SoftMMU.writeInteger (wordOf width.bytes base offset) newValue width.bytes) :
        EmulatorProgram Unit) emulator = .ok () final ∧
      ChangesBit operation base offset emulator final := by
  rcases readInteger_of_permits hwf fun i hi => (hpermits i hi).1 with ⟨bytes, hvalue, hholds⟩
  generalize hword : LittleEndian.assemble bytes width.bytes = value at hvalue
  have hindex : wordIndexOf width.bytes offset < 64 :=
    Nat.lt_of_lt_of_le (wordIndexOf_lt width.bytes_pos offset)
      (Nat.mul_le_mul_right 8 width.bytes_le)
  have htested : bitAt emulator.mmu.guestByte (byteOf base offset) (indexOf offset) =
      some (value.getLsbD (wordIndexOf width.bytes offset)) := by
    rw [bitAt_of_holds width.bytes_pos width.bytes_le hholds, hword]
  have hchanges : ∀ final : Emulator,
      final.cpu.flag CF = value.getLsbD (wordIndexOf width.bytes offset) →
      Stored emulator.mmu.guestByte final.mmu.guestByte (wordOf width.bytes base offset)
        (operation.apply value ((1 : U64) <<< wordIndexOf width.bytes offset)) width.bytes →
      ChangesBit operation base offset emulator final := by
    intro final hcarry hstored
    have hafter := bitAt_of_stored width.bytes_pos width.bytes_le hholds hstored
      fun j hj hne => by
        have hlt : j < 64 := Nat.lt_of_lt_of_le hj (Nat.mul_le_mul_right 8 width.bytes_le)
        rw [operation.getLsbD_apply value hindex hlt, if_neg hne, hword]
    refine ⟨htested.trans (congrArg some hcarry.symm), ?_, fun other i hi hother => ?_⟩
    · have hlt : indexOf offset < 8 := by
        rw [← wordIndexOf_mod width.bytes_pos offset]
        exact Nat.mod_lt _ (by decide)
      rw [hafter _ hlt, if_pos ⟨rfl, rfl⟩, operation.getLsbD_apply value hindex hindex, if_pos rfl,
        hcarry]
    · rw [hafter other hi, if_neg hother]
  have hread : readMMU (fun mmu => mmu.readInteger (wordOf width.bytes base offset) width.bytes)
      emulator = .ok value emulator := readMMU_eq_ok_iff.mpr ⟨hvalue, rfl⟩
  rw [bind_of_ok hread, bind_of_ok (modifyCPU_apply _ emulator)]
  by_cases hwrites : operation ≠ .test ∧
      operation.apply value ((1 : U64) <<< wordIndexOf width.bytes offset) ≠ value
  · rcases writeBytes_of_permits hwf fun i hi => (hpermits i hi).2 with ⟨mmu', hwritten, -⟩
    rw [if_pos hwrites]
    refine ⟨_, onMMU_eq_ok_iff.mpr ⟨mmu', hwritten, rfl⟩, hchanges _ (flag_setBitFlag _ _ _) ?_⟩
    have hcount := width.bytes_le
    exact SoftMMU.guestByte_of_writeBytes (by omega) hwritten
  · have hsame : operation.apply value ((1 : U64) <<< wordIndexOf width.bytes offset) = value := by
      cases operation with
      | test => rfl
      | set | reset | complement => simpa using hwrites
    rw [if_neg hwrites]
    refine ⟨_, rfl, hchanges _ (flag_setBitFlag _ _ _) ?_⟩
    rw [hsame, ← hword]
    exact stored_of_holds width.bytes_le hholds

/-- A bit instruction on memory reads the word of its bit, and stores it when it has changed. -/
theorem executeBitString_of_memory (opcode : U8) {offset : Int}
    (hmodrm : fetchModrm prefixes emulator = .ok modrm selected)
    (hoperand : decodeRmOperand prefixes modrm selected = .ok (.memory address) located)
    (hbase : effectiveAddress address located = .ok base located)
    (hoffset : bitOffset emulator.cpu modrm.reg (operandWidth prefixes) = offset)
    (hwf : RegionsWellFormed emulator.mmu.regions)
    (hpermits : ∀ i < (operandWidth prefixes).bytes,
      Permits emulator.mmu (wordOf (operandWidth prefixes).bytes base offset + BitVec.ofNat 64 i)
        protRead ∧
      Permits emulator.mmu (wordOf (operandWidth prefixes).bytes base offset + BitVec.ofNat 64 i)
        protWrite) :
    ∃ final, executeBitString opcode prefixes emulator = .ok () final ∧
      ChangesBit (bitOperationOf opcode) base offset emulator final := by
  have hlocated : SameMachine emulator located :=
    ((ReadsOnly.fetchModrm prefixes).of_ok hmodrm).trans
      ((ReadsOnly.decodeRmOperand prefixes modrm).of_ok hoperand)
  rcases readGpr_eq_ok modrm.reg (operandWidth prefixes) prefixes located with
    ⟨read, hread, hmachine⟩
  have hposition := (keepsPosition_readGpr modrm.reg (operandWidth prefixes) prefixes).eq_of_ok
    hread
  have hbase' : effectiveAddress address read = .ok base read := by
    have htarget : (if address.ripRelative then located.cpu.decodePc + address.ripDisplacement
        else address.address) = base := by
      cases hbase
      rfl
    rw [← hposition] at htarget
    rw [← htarget]
    rfl
  have hsigned : signedOperand (readLane located.cpu.gpr modrm.reg (operandWidth prefixes)
      prefixes) (operandWidth prefixes) = offset := by
    rw [hlocated.gpr, signedOperand_readLane _ _ (operandWidth_ne_w8 prefixes), hoffset]
  rw [executeBitString, bind_of_ok hmodrm, bind_of_ok hoperand, bind_of_ok hread]
  dsimp only
  rw [bind_of_ok hbase', hsigned]
  simp only [floor_quotient _ (operandWidth prefixes).bits_pos,
    floor_remainder _ (operandWidth prefixes).bits_pos]
  simp only [Width.bits_eq]
  have hregions : read.mmu.regions = emulator.mmu.regions := (hlocated.trans hmachine).regions
  have hprotections : SoftMMU.protections read.mmu = SoftMMU.protections emulator.mmu := by
    funext other
    simp only [SoftMMU.protections, SoftMMU.addressMap, hregions]
  have hwf' : RegionsWellFormed read.mmu.regions := by
    rw [hregions]
    exact hwf
  rcases changesBit_of_permits (bitOperationOf opcode) (operandWidth prefixes) base offset hwf'
    (fun i hi => ⟨(permits_congr hprotections).mpr (hpermits i hi).1,
      (permits_congr hprotections).mpr (hpermits i hi).2⟩) with ⟨final, hrun, hchanges⟩
  have hbytes := SoftMMU.guestByte_congr hregions
  refine ⟨final, hrun, ?_, hchanges.changed, ?_⟩
  · rw [← hbytes]
    exact hchanges.tested
  · rw [← hbytes]
    exact hchanges.others

/-! ## Steps -/

/-- The instruction at the instruction pointer is a bit instruction on the bit string around an
address, at a position from a register. -/
def AtBitString (emulator : Emulator) (opcode : U8) (width : Width) (base : U64) (offset : Int) :
    Prop :=
  ∃ prefixes decoded modrm selected address located,
    decodeInstruction emulator = .ok (prefixes, .twoByte opcode) decoded ∧
    operandWidth prefixes = width ∧
    fetchModrm prefixes decoded = .ok modrm selected ∧
    decodeRmOperand prefixes modrm selected = .ok (.memory address) located ∧
    effectiveAddress address located = .ok base located ∧
    bitOffset emulator.cpu modrm.reg width = offset

/-- A bit instruction with an operand in memory tests and changes one bit of the string. -/
theorem step_bitString {width : Width} {offset : Int} (host : Host)
    (hat : AtBitString emulator opcode width base offset)
    (hopcode : opcode ∈ ([0xa3, 0xab, 0xb3, 0xbb] : List U8))
    (hwf : RegionsWellFormed emulator.mmu.regions)
    (hpermits : ∀ i < width.bytes,
      Permits emulator.mmu (wordOf width.bytes base offset + BitVec.ofNat 64 i) protRead ∧
      Permits emulator.mmu (wordOf width.bytes base offset + BitVec.ofNat 64 i) protWrite) :
    ∃ final, step host emulator = .ok () final ∧
      ChangesBit (bitOperationOf opcode) base offset emulator final := by
  rcases hat with ⟨prefixes, decoded, modrm, selected, address, located, hdecode, rfl, hmodrm,
    hoperand, hbase, rfl⟩
  rcases decodeInstruction_eq_ok hdecode with ⟨pc, rfl⟩
  rcases executeBitString_of_memory opcode hmodrm hoperand hbase rfl hwf hpermits with
    ⟨executed, hexecuted, hchanges⟩
  have hexecute : (Opcode.twoByte opcode).execute host prefixes (afterDecoding emulator pc) =
      .ok () executed := by
    rw [← hexecuted]
    simp only [List.mem_cons, List.not_mem_nil, or_false] at hopcode
    rcases hopcode with rfl | rfl | rfl | rfl <;> rfl
  rw [step_of_decodedInstruction hdecode, bind_of_ok hexecute, modifyCPU_apply]
  exact ⟨_, rfl, hchanges.tested, hchanges.changed, hchanges.others⟩

section Examples

/-- `bts %eax, (%rbx)` in a page that is writable. -/
def settingBit : Emulator where
  mmu := { regions := [Emulator.pageOf 0x1000 (protRead ||| protWrite ||| protExecute)
    [0x0f, 0xab, 0x03]] }
  cpu := { rip := 0x1000, gpr := fun register =>
    if register = .rax then 0xffffffff
    else if register = .rbx then 0x1108
    else 0 }

/-- The bit before the operand is the highest one of the byte before it. -/
theorem step_bitString_negative :
    ∃ final, step Emulator.quietHost settingBit = .ok () final ∧
      ChangesBit .set 0x1108 (-1) settingBit final := by
  have hdecode : decodeInstruction settingBit =
      .ok ({}, .twoByte 0xab) (finalState (decodeInstruction settingBit)) :=
    eq_ok_of_returned (by decide)
  let decoded := finalState (decodeInstruction settingBit)
  let selected := finalState (fetchModrm {} decoded)
  have hmodrm : fetchModrm {} decoded = .ok ⟨3, 0, .rax, .rbx⟩ selected :=
    eq_ok_of_returned (by decide)
  have hoperand : decodeRmOperand {} ⟨3, 0, .rax, .rbx⟩ selected =
      .ok (.memory ⟨0x1108, false, 0⟩)
        (finalState (decodeRmOperand {} ⟨3, 0, .rax, .rbx⟩ selected)) :=
    eq_ok_of_returned (by decide)
  have hat : AtBitString settingBit 0xab .w32 0x1108 (-1) :=
    ⟨_, _, _, _, _, _, hdecode, rfl, hmodrm, hoperand, rfl, by decide⟩
  have hwf : RegionsWellFormed settingBit.mmu.regions :=
    Emulator.regionsWellFormed_pageOf (by decide) (by decide) (by decide)
  have hmapped : ∀ i < 4, SoftMMU.protections settingBit.mmu (0x1104 + BitVec.ofNat 64 i) =
      some (protRead ||| protWrite ||| protExecute) :=
    fun i hi => Emulator.protections_pageOf (by bv_omega) (by bv_omega)
  refine step_bitString Emulator.quietHost hat (by decide) hwf fun i hi => ?_
  exact ⟨⟨_, hmapped i hi, by decide⟩, _, hmapped i hi, by decide⟩

end Examples

end SoftCPU64

end LUE
