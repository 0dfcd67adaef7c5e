import LinuxUserspaceEmulator.SoftCPU64.DoubleShift
import LinuxUserspaceEmulator.SoftCPU64.Products

/-!
# Doubleword destinations

A write to a 32-bit register clears the upper half of its 64-bit register.  Every handler has a
write of its own, and the conditional move has none when its condition fails: the upper half then
stays as it was.

Main results:

- Theorem `ensures_writeGpr`: a doubleword write clears the upper half.
- Theorem `upperZero_of_execute`: every unconditional instruction ends with such a write.
- Theorem `step_upperZero_iff`: when a step leaves a zero upper half.
-/

namespace LUE

open StateExcept

namespace SoftCPU64

/-- Bits 32 to 63 of a register are zero. -/
def UpperZero (register : Register) (emulator : Emulator) : Prop :=
  emulator.cpu.reg register >>> 32 = 0

instance (register : Register) (emulator : Emulator) : Decidable (UpperZero register emulator) :=
  inferInstanceAs (Decidable (_ = _))

/-- The general registers that an instruction with doubleword operands writes. -/
inductive Destination (prefixes : Prefixes) (decoded : Emulator) : Opcode → Register → Prop
  | aluRm {byte : U8} {modrm : ModRM} {selected : Emulator}
      (hopcode : byte ≤ 0x3d ∧ byte &&& 7 = 1 ∧ (byte >>> 3).toNat ≠ 7)
      (hmodrm : fetchModrm prefixes decoded = .ok modrm selected)
      (hregister : modrm.isRegister = true) :
      Destination prefixes decoded (.oneByte byte) modrm.rm
  | aluReg {byte : U8} {modrm : ModRM} {selected : Emulator}
      (hopcode : byte ≤ 0x3d ∧ byte &&& 7 = 3 ∧ (byte >>> 3).toNat ≠ 7)
      (hmodrm : fetchModrm prefixes decoded = .ok modrm selected) :
      Destination prefixes decoded (.oneByte byte) modrm.reg
  | aluAccumulator {byte : U8}
      (hopcode : byte ≤ 0x3d ∧ byte &&& 7 = 5 ∧ (byte >>> 3).toNat ≠ 7) :
      Destination prefixes decoded (.oneByte byte) .rax
  | aluImm {byte : U8} {modrm : ModRM} {selected : Emulator}
      (hopcode : byte = 0x81 ∨ byte = 0x83)
      (hmodrm : fetchModrm prefixes decoded = .ok modrm selected)
      (hoperation : modrm.operation ≠ 7) (hregister : modrm.isRegister = true) :
      Destination prefixes decoded (.oneByte byte) modrm.rm
  | increment {modrm : ModRM} {selected : Emulator}
      (hmodrm : fetchModrm prefixes decoded = .ok modrm selected)
      (hoperation : modrm.operation = 0 ∨ modrm.operation = 1)
      (hregister : modrm.isRegister = true) :
      Destination prefixes decoded (.oneByte 0xff) modrm.rm
  | negate {modrm : ModRM} {selected : Emulator}
      (hmodrm : fetchModrm prefixes decoded = .ok modrm selected)
      (hoperation : modrm.operation = 2 ∨ modrm.operation = 3)
      (hregister : modrm.isRegister = true) :
      Destination prefixes decoded (.oneByte 0xf7) modrm.rm
  | shift {byte : U8} {shift : ShiftInstruction} {addressed : Emulator} {register : Register}
      (hopcode : byte = 0xc1 ∨ byte = 0xd1 ∨ byte = 0xd3)
      (hshift : decodeShiftGroup byte prefixes decoded = .ok shift addressed)
      (hregister : shift.operand = .register register) (hcount : shift.count ≠ 0) :
      Destination prefixes decoded (.oneByte byte) register
  | doubleShift {byte : U8} {shift : DoubleShift} {read : Emulator} {register : Register}
      (hopcode : byte ∈ ([0xa4, 0xa5, 0xac, 0xad] : List U8))
      (hshift : decodeDoubleShift byte prefixes decoded = .ok shift read)
      (hregister : shift.operand = .register register) (hcount : shift.countRead % 32 ≠ 0) :
      Destination prefixes decoded (.twoByte byte) register
  | multiply {form : ImulForm} {factors : Factors} {read : Emulator}
      (hselected : form.Selected prefixes decoded)
      (hread : form.readFactors prefixes decoded = .ok factors read) :
      Destination prefixes decoded form.opcode factors.destination
  | multiplyHigh {factors : Factors} {read : Emulator}
      (hselected : ImulForm.accumulator.Selected prefixes decoded)
      (hread : ImulForm.accumulator.readFactors prefixes decoded = .ok factors read) :
      Destination prefixes decoded ImulForm.accumulator.opcode .rdx
  | xaddReg {modrm : ModRM} {selected : Emulator}
      (hmodrm : fetchModrm prefixes decoded = .ok modrm selected) :
      Destination prefixes decoded (.twoByte 0xc1) modrm.reg
  | xaddRm {modrm : ModRM} {selected : Emulator}
      (hmodrm : fetchModrm prefixes decoded = .ok modrm selected)
      (hregister : modrm.isRegister = true) :
      Destination prefixes decoded (.twoByte 0xc1) modrm.rm
  | swapBytes {byte : U8} (hopcode : 0xc8 ≤ byte ∧ byte ≤ 0xcf) :
      Destination prefixes decoded (.twoByte byte) (registerAt (byte - 0xc8) prefixes.rexB)
  | moveImmediate {byte : U8} (hopcode : 0xb8 ≤ byte ∧ byte ≤ 0xbf) :
      Destination prefixes decoded (.oneByte byte) (registerAt byte prefixes.rexB)
  | moveStore {modrm : ModRM} {selected : Emulator}
      (hmodrm : fetchModrm prefixes decoded = .ok modrm selected)
      (hregister : modrm.isRegister = true) :
      Destination prefixes decoded (.oneByte 0x89) modrm.rm
  | moveLoad {modrm : ModRM} {selected : Emulator}
      (hmodrm : fetchModrm prefixes decoded = .ok modrm selected) :
      Destination prefixes decoded (.oneByte 0x8b) modrm.reg
  | moveOperandImmediate {modrm : ModRM} {selected : Emulator}
      (hmodrm : fetchModrm prefixes decoded = .ok modrm selected)
      (hregister : modrm.isRegister = true) :
      Destination prefixes decoded (.oneByte 0xc7) modrm.rm
  | extend {byte : U8} {modrm : ModRM} {selected : Emulator}
      (hopcode : byte ∈ ([0xb6, 0xb7, 0xbe, 0xbf] : List U8))
      (hmodrm : fetchModrm prefixes decoded = .ok modrm selected) :
      Destination prefixes decoded (.twoByte byte) modrm.reg
  | extendDoubleword {modrm : ModRM} {selected : Emulator}
      (hmodrm : fetchModrm prefixes decoded = .ok modrm selected) :
      Destination prefixes decoded (.oneByte 0x63) modrm.reg
  | lea {modrm : ModRM} {selected : Emulator}
      (hmodrm : fetchModrm prefixes decoded = .ok modrm selected) :
      Destination prefixes decoded (.oneByte 0x8d) modrm.reg
  | conditionalMove {byte : U8} {modrm : ModRM} {selected : Emulator}
      (hopcode : 0x40 ≤ byte ∧ byte ≤ 0x4f)
      (hmodrm : fetchModrm prefixes decoded = .ok modrm selected) :
      Destination prefixes decoded (.twoByte byte) modrm.reg

/-- The conditional moves. -/
def Opcode.IsConditionalMove : Opcode → Prop
  | .oneByte _ => False
  | .twoByte byte => 0x40 ≤ byte ∧ byte ≤ 0x4f

instance (opcode : Opcode) : Decidable opcode.IsConditionalMove :=
  match opcode with
  | .oneByte _ => inferInstanceAs (Decidable False)
  | .twoByte _ => inferInstanceAs (Decidable (_ ∧ _))

/-- The last four bits of an opcode, which name a condition. -/
def Opcode.condition : Opcode → U8
  | .oneByte byte => byte &&& 0xf
  | .twoByte byte => byte &&& 0xf

section Writes

variable {prefixes : Prefixes} {register : Register} {width : Width} {value : U64}
  {emulator decoded selected final : Emulator} {modrm : ModRM}

/-- A masked word has no bits above its doubleword. -/
theorem and_maskForWidth_shift (value : U64) : (value &&& maskForWidth .w32) >>> 32 = 0 := by
  apply BitVec.eq_of_toNat_eq
  rw [BitVec.toNat_ushiftRight, toNat_and_maskForWidth, Nat.shiftRight_eq_div_pow]
  exact Nat.div_eq_of_lt (Nat.mod_lt _ (by decide))

/-- The registers after a doubleword write. -/
theorem writeLane_w32 (file : Register → U64) (register : Register) (prefixes : Prefixes)
    (value : U64) :
    writeLane file register .w32 prefixes value =
      Function.update file register (value &&& maskForWidth .w32) := by
  rw [writeLane, isHighByte_of_ne (by decide)]
  rfl

/-- A doubleword write clears the upper half. -/
theorem ensures_writeGpr (hwidth : width = .w32) (register : Register) (value : U64)
    (prefixes : Prefixes) :
    Ensures (UpperZero register) (writeGpr register width value prefixes) := by
  subst hwidth
  intro s a t hrun
  cases hrun
  change writeLane s.cpu.gpr register .w32 prefixes value register >>> 32 = 0
  rw [writeLane_w32, Function.update_self, and_maskForWidth_shift]

/-- A doubleword write to any register keeps a zero upper half. -/
theorem preserves_writeGpr (hwidth : width = .w32) (other register : Register) (value : U64)
    (prefixes : Prefixes) :
    Preserves (UpperZero register) (writeGpr other width value prefixes) := by
  subst hwidth
  intro s hs
  change writeLane s.cpu.gpr other .w32 prefixes value register >>> 32 = 0
  rw [writeLane_w32]
  by_cases hsame : register = other
  · rw [hsame, Function.update_self, and_maskForWidth_shift]
  · rw [Function.update_of_ne hsame]
    exact hs

/-- What leaves the registers keeps a zero upper half. -/
theorem preserves_modifyCPU {f : SoftCPU64 → SoftCPU64} (hf : ∀ cpu, (f cpu).gpr = cpu.gpr)
    (register : Register) : Preserves (UpperZero register) (modifyCPU f) := by
  intro s hs
  change (f s.cpu).gpr register >>> 32 = 0
  rw [hf]
  exact hs

theorem preserves_of_readsOnly {α : Type} {program : EmulatorProgram α} (hreads : ReadsOnly program)
    (register : Register) : Preserves (UpperZero register) program := by
  intro s hs
  have hgpr := (hreads.sameMachine s).gpr
  rw [UpperZero, reg, hgpr]
  exact hs

theorem preserves_writeOperand (hwidth : width = .w32) (operand : Operand) (register : Register)
    (value : U64) (prefixes : Prefixes) :
    Preserves (UpperZero register) (writeOperand operand width value prefixes) := by
  cases operand with
  | register other => exact preserves_writeGpr hwidth other register _ prefixes
  | memory address =>
      have haddress : ReadsOnly (effectiveAddress address) :=
        ReadsOnly.getCPU.bind fun _ => ReadsOnly.pure _
      refine (preserves_of_readsOnly haddress register).bind fun _ =>
        (preserves_of_readsOnly ReadsOnly.getCPU register).bind fun _ => ?_
      intro s hs
      unfold onMMU onPart
      cases writeMemoryOperand _ _ _ _ s.mmu with
      | ok a mmu => exact hs
      | error e mmu => exact hs

theorem ensures_writeOperand (hwidth : width = .w32) (register : Register) (value : U64)
    (prefixes : Prefixes) :
    Ensures (UpperZero register) (writeOperand (.register register) width value prefixes) :=
  ensures_writeGpr hwidth register _ prefixes

theorem ensures_unsupported {P : Emulator → Prop} (message : String) :
    Ensures P (unsupported message : EmulatorProgram Unit) :=
  fun _ _ _ hrun => absurd hrun (unsupported_ne_ok message)

/-- Every operation but the comparison hands its result on. -/
theorem ensures_executeOperation {P : Emulator → Prop} {operation : Nat} (hcompare : operation ≠ 7)
    {lhs rhs mask : U64} {write : U64 → EmulatorProgram Unit} (hwrite : ∀ v, Ensures P (write v)) :
    Ensures P (executeOperation operation lhs rhs width mask write) := by
  unfold executeOperation
  split
  all_goals first
    | exact absurd rfl hcompare
    | exact Ensures.bind fun _ => hwrite _
    | exact ensures_unsupported _

/-- What an instruction ensures after its operand. -/
theorem ensured_of_sequence {P : Emulator → Prop} (rest : ModRM → Operand → EmulatorProgram Unit)
    (hmodrm : fetchModrm prefixes decoded = .ok modrm selected)
    (hrest : ∀ operand, (modrm.isRegister = true → operand = .register modrm.rm) →
      Ensures P (rest modrm operand))
    (hrun : (do
      let modrm ← fetchModrm prefixes
      let operand ← decodeRmOperand prefixes modrm
      rest modrm operand : EmulatorProgram Unit) decoded = .ok () final) : P final := by
  rw [bind_of_ok hmodrm] at hrun
  rcases bind_eq_ok_iff.mp hrun with ⟨operand, addressed, hoperand, hlast⟩
  refine hrest operand ?_ addressed () final hlast
  intro hregister
  rw [decodeRmOperand, if_pos hregister] at hoperand
  cases hoperand
  rfl

end Writes

/-! ## Instructions -/

section Instructions

variable {host : Host} {prefixes : Prefixes} {opcode : Opcode} {register : Register}
  {emulator decoded final : Emulator}

theorem upperZero_of_alu {byte : U8} {modrm : ModRM} {selected : Emulator}
    (hwidth : operandWidth prefixes = .w32) (hmap : byte ≤ 0x3d)
    (hform : byte &&& 7 = 1 ∨ byte &&& 7 = 3) (hcompare : (byte >>> 3).toNat ≠ 7)
    (hmodrm : fetchModrm prefixes decoded = .ok modrm selected)
    (hregister : if byte &&& 7 = 3 then modrm.reg = register
      else modrm.rm = register ∧ modrm.isRegister = true)
    (hrun : (Opcode.oneByte byte).execute host prefixes decoded = .ok () final) :
    UpperZero register final := by
  have hearly : byte &&& 7 ≤ 3 := by
    rcases hform with h | h <;> rw [h] <;> decide
  have hexecute : (Opcode.oneByte byte).execute host prefixes = executeAluRmReg byte prefixes :=
    execute_of_aluRmReg ⟨hmap, hearly⟩
  rw [hexecute] at hrun
  refine ensured_of_sequence (aluRmRegForm byte prefixes).rest hmodrm ?_ hrun
  intro operand hoperand
  have hwide : (if (byte &&& 7).toNat = 0 ∨ (byte &&& 7).toNat = 2 then .w8
      else operandWidth prefixes) = Width.w32 := by
    rcases hform with h | h <;> rw [h] <;> exact hwidth
  have htarget : (if (byte &&& 7).toNat = 2 ∨ (byte &&& 7).toNat = 3 then
      Operand.register modrm.reg else operand) = .register register := by
    rcases hform with h | h
    · rw [if_neg (by rw [h]; decide)] at hregister
      rw [h, hoperand hregister.2, hregister.1]
      rfl
    · rw [if_pos h] at hregister
      rw [h, hregister]
      rfl
  simp only [aluRmRegForm, OperandForm.ofSequence, hwide, htarget]
  refine Ensures.bind fun _ => Ensures.bind fun _ => Ensures.ite (fun _ => Ensures.bind fun _ => ?_)
    fun _ => ?_
  · exact ensures_executeOperation hcompare fun _ => ensures_writeOperand rfl _ _ _
  · exact ensures_executeOperation hcompare fun _ => ensures_writeOperand rfl _ _ _

theorem upperZero_of_aluAccumulator {byte : U8} (hwidth : operandWidth prefixes = .w32)
    (hopcode : byte ≤ 0x3d ∧ byte &&& 7 = 5 ∧ (byte >>> 3).toNat ≠ 7)
    (hrun : (Opcode.oneByte byte).execute host prefixes decoded = .ok () final) :
    UpperZero .rax final := by
  rcases hopcode with ⟨hmap, hform, hcompare⟩
  have hexecute : (Opcode.oneByte byte).execute host prefixes =
      executeAluAccumulator byte prefixes :=
    execute_of_aluAccumulator ⟨hmap, by rw [hform]; decide⟩ (by rw [hform]; decide)
  have himmediate : ¬(byte &&& 7).toNat = 4 := by
    rw [hform]
    decide
  have hfull : ¬operandWidth prefixes = .w16 := by
    rw [hwidth]
    decide
  rw [hexecute, executeAluAccumulator] at hrun
  simp only [if_neg himmediate, if_neg hfull] at hrun
  refine (Ensures.bind fun _ => Ensures.bind fun _ => ?_) _ _ _ hrun
  exact ensures_executeOperation hcompare fun _ => ensures_writeGpr hwidth _ _ _

/-- The factors of a multiplication go to the registers that it names. -/
theorem ensures_multiply (form : ImulForm) (factors : Factors)
    (hwidth : operandWidth prefixes = .w32)
    (hdestination : form = .accumulator → factors.destination = .rax) :
    Ensures (UpperZero factors.destination) (form.multiply prefixes factors) := by
  cases form with
  | accumulator =>
      rw [hdestination rfl]
      simp only [ImulForm.multiply, writeProduct, if_neg (operandWidth_ne_w8 prefixes)]
      exact (ensures_writeGpr hwidth _ _ _).bind_preserves fun _ =>
        (preserves_writeGpr hwidth _ _ _ _).bind fun _ => preserves_modifyCPU (fun _ => rfl) _
  | register =>
      exact Ensures.ite (fun _ => Ensures.throw _) fun _ => ensures_writeGpr hwidth _ _ _
  | immediate =>
      exact (ensures_writeGpr hwidth _ _ _).bind_preserves fun _ =>
        preserves_modifyCPU (fun _ => rfl) _
  | byteImmediate =>
      exact (ensures_writeGpr hwidth _ _ _).bind_preserves fun _ =>
        preserves_modifyCPU (fun _ => rfl) _

theorem gpr_setLogicFlags (cpu : SoftCPU64) (result : U64) (width : Width) :
    (cpu.setLogicFlags result width).gpr = cpu.gpr := by
  unfold setLogicFlags updateFlagsTaint
  rfl

theorem ensures_doubleShift (byte : U8) {shift : DoubleShift}
    (hwidth : operandWidth prefixes = .w32) (hregister : shift.operand = .register register)
    (hcount : shift.countRead % (operandWidth prefixes).bits ≠ 0) :
    Ensures (UpperZero register) (shift.execute byte prefixes) := by
  simp only [DoubleShift.execute, if_pos hcount, hregister]
  refine (ensures_writeOperand hwidth _ _ _).bind_preserves fun _ => Preserves.bind ?_ fun _ => ?_
  · exact preserves_modifyCPU (fun cpu => gpr_setLogicFlags cpu _ _) _
  · exact preserves_modifyCPU (fun _ => rfl) _

/-- The shift group with operands of the full size. -/
theorem width_of_decodeShiftGroup {byte : U8} {shift : ShiftInstruction}
    (hopcode : byte = 0xc1 ∨ byte = 0xd1 ∨ byte = 0xd3)
    (hshift : decodeShiftGroup byte prefixes decoded = .ok shift final) :
    shift.width = operandWidth prefixes := by
  have hsize : ¬(byte = 0xc0 ∨ byte = 0xd0 ∨ byte = 0xd2) := by
    rcases hopcode with rfl | rfl | rfl <;> decide
  rw [decodeShiftGroup, if_neg hsize] at hshift
  rcases bind_eq_ok_iff.mp hshift with ⟨modrm, selected, hmodrm, hrest⟩
  rcases bind_eq_ok_iff.mp hrest with ⟨operand, addressed, hoperand, hrest⟩
  exact Yields.ite (R := fun shift => shift.width = operandWidth prefixes)
    (Yields.bind fun _ => Yields.pure rfl)
    (Yields.ite (Yields.bind fun _ => Yields.pure rfl)
      (Yields.bind fun _ => Yields.bind fun _ => Yields.pure rfl)) _ _ _ hrest

/-- Every unconditional instruction ends with a doubleword write. -/
theorem upperZero_of_execute (hwidth : operandWidth prefixes = .w32)
    (hdestination : Destination prefixes decoded opcode register)
    (hconditional : ¬opcode.IsConditionalMove)
    (hrun : opcode.execute host prefixes decoded = .ok () final) : UpperZero register final := by
  cases hdestination with
  | aluRm hopcode hmodrm hregister =>
      refine upperZero_of_alu hwidth hopcode.1 (Or.inl hopcode.2.1) hopcode.2.2 hmodrm ?_ hrun
      rw [if_neg (by rw [hopcode.2.1]; decide)]
      exact ⟨rfl, hregister⟩
  | aluReg hopcode hmodrm =>
      refine upperZero_of_alu hwidth hopcode.1 (Or.inr hopcode.2.1) hopcode.2.2 hmodrm ?_ hrun
      rw [if_pos hopcode.2.1]
  | aluAccumulator hopcode => exact upperZero_of_aluAccumulator hwidth hopcode hrun
  | aluImm hopcode hmodrm hoperation hregister =>
      rcases hopcode with rfl | rfl
      · refine ensured_of_sequence (aluImmForm 0x81 prefixes).rest hmodrm
          (fun operand hrm => ?_) hrun
        rw [hrm hregister]
        exact Ensures.bind fun _ => Ensures.bind fun _ =>
          ensures_executeOperation hoperation fun _ => ensures_writeOperand hwidth _ _ _
      · refine ensured_of_sequence (aluImmForm 0x83 prefixes).rest hmodrm
          (fun operand hrm => ?_) hrun
        rw [hrm hregister]
        exact Ensures.bind fun _ => Ensures.bind fun _ => Ensures.bind fun _ =>
          ensures_executeOperation hoperation fun _ => ensures_writeOperand hwidth _ _ _
  | increment hmodrm hoperation hregister =>
      refine ensured_of_sequence (groupFfForm prefixes).rest hmodrm (fun operand hrm => ?_) hrun
      rw [hrm hregister]
      rcases hoperation with h | h
      · simp only [groupFfForm, OperandForm.ofSequence, h]
        exact Ensures.bind fun _ => Ensures.bind fun _ => Ensures.bind fun _ =>
          Ensures.bind fun _ => ensures_writeOperand hwidth _ _ _
      · simp only [groupFfForm, OperandForm.ofSequence, h]
        exact Ensures.bind fun _ => Ensures.bind fun _ => Ensures.bind fun _ =>
          Ensures.bind fun _ => ensures_writeOperand hwidth _ _ _
  | negate hmodrm hoperation hregister =>
      refine ensured_of_sequence (groupF6F7Form 0xf7 prefixes).rest hmodrm (fun operand hrm => ?_)
        hrun
      rw [hrm hregister]
      rcases hoperation with h | h
      · simp only [groupF6F7Form, OperandForm.ofSequence, h]
        exact Ensures.bind fun _ => ensures_writeOperand hwidth _ _ _
      · simp only [groupF6F7Form, OperandForm.ofSequence, h]
        exact Ensures.bind fun _ => Ensures.bind fun _ => ensures_writeOperand hwidth _ _ _
  | shift hopcode hshift hregister hcount =>
      rename_i byte shift addressed
      have hexecute : (Opcode.oneByte byte).execute host prefixes =
          executeShiftGroup byte prefixes := by
        rcases hopcode with rfl | rfl | rfl <;> rfl
      rw [hexecute, executeShiftGroup_of_decoded hshift, ShiftInstruction.execute, if_pos hcount,
        hregister] at hrun
      have hsize := (width_of_decodeShiftGroup hopcode hshift).trans hwidth
      refine (Ensures.bind fun _ => Ensures.bind fun _ => ?_) _ _ _ hrun
      exact Ensures.bind fun _ => ensures_writeOperand hsize _ _ _
  | doubleShift hopcode hshift hregister hcount =>
      rename_i byte shift read
      have hexecute : (Opcode.twoByte byte).execute host prefixes =
          executeDoubleShift byte prefixes := by
        simp only [List.mem_cons, List.not_mem_nil, or_false] at hopcode
        rcases hopcode with rfl | rfl | rfl | rfl <;> rfl
      rw [hexecute, executeDoubleShift_eq, bind_of_ok hshift] at hrun
      refine ensures_doubleShift byte hwidth hregister ?_ _ _ _ hrun
      rw [hwidth]
      exact hcount
  | multiply hselected hread =>
      rename_i form factors read
      rw [execute_imul host hselected hread] at hrun
      refine ensures_multiply form factors hwidth ?_ _ _ _ hrun
      rintro rfl
      exact destination_of_readFactors hread
  | multiplyHigh hselected hread =>
      rw [execute_imul host hselected hread] at hrun
      simp only [ImulForm.multiply, writeProduct, if_neg (operandWidth_ne_w8 prefixes)] at hrun
      refine (Ensures.bind fun _ => (ensures_writeGpr hwidth _ _ _).bind_preserves fun _ => ?_)
        _ _ _ hrun
      exact preserves_modifyCPU (fun _ => rfl) _
  | xaddReg hmodrm =>
      refine ensured_of_sequence (xaddForm 0xc1 prefixes).rest hmodrm (fun operand _ => ?_) hrun
      exact Ensures.bind fun _ => Ensures.bind fun _ => Ensures.bind fun _ =>
        (ensures_writeGpr hwidth _ _ _).bind_preserves fun _ =>
          preserves_writeOperand hwidth _ _ _ _
  | xaddRm hmodrm hregister =>
      refine ensured_of_sequence (xaddForm 0xc1 prefixes).rest hmodrm (fun operand hrm => ?_) hrun
      rw [hrm hregister]
      exact Ensures.bind fun _ => Ensures.bind fun _ => Ensures.bind fun _ => Ensures.bind fun _ =>
        ensures_writeOperand hwidth _ _ _
  | swapBytes hopcode =>
      rename_i byte
      have hexecute : (Opcode.twoByte byte).execute host prefixes = executeBswap byte prefixes :=
        executeTwoByte_of_bswap hopcode
      have hsize : (if prefixes.rexW then .w64 else .w32) = Width.w32 := by
        refine if_neg fun h => ?_
        rw [rexW_iff.mp h] at hwidth
        cases hwidth
      rw [hexecute, executeBswap, hsize] at hrun
      exact (Ensures.bind fun _ => ensures_writeGpr rfl _ _ _) _ _ _ hrun
  | moveImmediate hopcode =>
      rename_i byte
      have hmove : 0xb0 ≤ byte ∧ byte ≤ 0xbf := by bv_omega
      have hexecute : (Opcode.oneByte byte).execute host prefixes =
          executeMovImmediate byte prefixes :=
        execute_of_movImmediate hmove
      have hlate : ¬byte ≤ 0xb7 := by bv_omega
      rw [hexecute, executeMovImmediate, if_neg hlate] at hrun
      exact (Ensures.bind fun _ => ensures_writeGpr hwidth _ _ _) _ _ _ hrun
  | moveStore hmodrm hregister =>
      refine ensured_of_sequence (movStoreForm 0x89 prefixes).rest hmodrm (fun operand hrm => ?_)
        hrun
      rw [hrm hregister]
      exact Ensures.bind fun _ => ensures_writeOperand hwidth _ _ _
  | moveLoad hmodrm =>
      refine ensured_of_sequence (movLoadForm 0x8b prefixes).rest hmodrm (fun operand _ => ?_) hrun
      exact Ensures.bind fun _ => ensures_writeGpr hwidth _ _ _
  | moveOperandImmediate hmodrm hregister =>
      rw [show (Opcode.oneByte 0xc7).execute host prefixes =
        executeMovOperandImmediate 0xc7 prefixes from rfl, executeMovOperandImmediate,
        bind_of_ok hmodrm] at hrun
      refine Ensures.ite (fun _ => ensures_unsupported _) (fun _ => ?_) _ _ _ hrun
      rw [decodeRmOperand, if_pos hregister, pure_bind]
      exact Ensures.bind fun _ => ensures_writeOperand hwidth _ _ _
  | extend hopcode hmodrm =>
      simp only [List.mem_cons, List.not_mem_nil, or_false] at hopcode
      rcases hopcode with rfl | rfl | rfl | rfl
      all_goals
        refine ensured_of_sequence (extendForm _ prefixes).rest hmodrm (fun operand _ => ?_) hrun
        exact Ensures.bind fun _ => ensures_writeGpr hwidth _ _ _
  | extendDoubleword hmodrm =>
      refine ensured_of_sequence (movsxdForm prefixes).rest hmodrm (fun operand _ => ?_) hrun
      exact Ensures.bind fun _ => ensures_writeGpr hwidth _ _ _
  | lea hmodrm =>
      rw [show (Opcode.oneByte 0x8d).execute host prefixes = executeLea prefixes from rfl,
        executeLea, bind_of_ok hmodrm] at hrun
      refine Ensures.ite (fun _ => ensures_unsupported _) (fun _ => ?_) _ _ _ hrun
      exact Ensures.bind fun _ => ensures_writeGpr hwidth _ _ _
  | conditionalMove hopcode hmodrm => exact absurd hopcode hconditional

theorem ReadsOnly.taintFromFlags : ReadsOnly taintFromFlags := by
  refine ReadsOnly.modifyCPU fun cpu => ?_
  split
  · rfl
  · rfl

/-- A conditional move writes its register when its condition holds. -/
theorem upperZero_of_cmovcc {byte : U8} {modrm : ModRM} {selected : Emulator}
    (hwidth : operandWidth prefixes = .w32) (hopcode : 0x40 ≤ byte ∧ byte ≤ 0x4f)
    (hmodrm : fetchModrm prefixes decoded = .ok modrm selected)
    (hrun : (Opcode.twoByte byte).execute host prefixes decoded = .ok () final) :
    UpperZero modrm.reg final ↔
      decoded.cpu.condition (byte &&& 0xf) = true ∨ UpperZero modrm.reg decoded := by
  have hexecute : (Opcode.twoByte byte).execute host prefixes = executeCmovcc byte prefixes :=
    executeTwoByte_of_cmovcc hopcode
  rw [hexecute, executeCmovcc, bind_of_ok hmodrm] at hrun
  rcases bind_eq_ok_iff.mp hrun with ⟨operand, addressed, hoperand, hrest⟩
  rcases bind_eq_ok_iff.mp hrest with ⟨_, tainted, htainted, hmove⟩
  have hsame : SameMachine decoded tainted :=
    (((ReadsOnly.fetchModrm prefixes).of_ok hmodrm).trans
      ((ReadsOnly.decodeRmOperand prefixes modrm).of_ok hoperand)).trans
      (ReadsOnly.taintFromFlags.of_ok htainted)
  have hcondition := condition_congr hsame.rflags (byte &&& 0xf)
  rw [bind_of_ok (getCPU_apply tainted)] at hmove
  by_cases htaken : tainted.cpu.condition (byte &&& 0xf) = true
  · rw [if_pos htaken] at hmove
    have hmoved : UpperZero modrm.reg final :=
      (Ensures.bind fun _ => ensures_writeGpr hwidth _ _ _) _ _ _ hmove
    exact iff_of_true hmoved (Or.inl (hcondition.symm.trans htaken))
  · rw [if_neg htaken] at hmove
    cases hmove
    rw [hcondition] at htaken
    rw [or_iff_right htaken, UpperZero, UpperZero, reg, hsame.gpr]
    rfl

/-- When a step leaves a zero upper half: always, but for a conditional move whose condition does
not hold, which leaves the register. -/
theorem step_upperZero_iff (host : Host)
    (hdecode : decodeInstruction emulator = .ok (prefixes, opcode) decoded)
    (hwidth : operandWidth prefixes = .w32)
    (hdestination : Destination prefixes decoded opcode register)
    (hstep : step host emulator = .ok () final) :
    UpperZero register final ↔
      (opcode.IsConditionalMove → emulator.cpu.condition opcode.condition = true ∨
        UpperZero register emulator) := by
  rcases decodeInstruction_eq_ok hdecode with ⟨pc, hdecoded⟩
  rw [step_of_decodedInstruction hdecode] at hstep
  rcases bind_eq_ok_iff.mp hstep with ⟨_, last, hrun, hfinish⟩
  cases hfinish
  by_cases hconditional : opcode.IsConditionalMove
  · cases hdestination with
    | conditionalMove hopcode hmodrm =>
        have hmoved := upperZero_of_cmovcc hwidth hopcode hmodrm hrun
        subst hdecoded
        exact hmoved.trans ⟨fun h _ => h, fun h => h hopcode⟩
    | doubleShift hopcode =>
        simp only [List.mem_cons, List.not_mem_nil, or_false] at hopcode
        rcases hopcode with rfl | rfl | rfl | rfl
        all_goals exact absurd hconditional (by decide)
    | extend hopcode =>
        simp only [List.mem_cons, List.not_mem_nil, or_false] at hopcode
        rcases hopcode with rfl | rfl | rfl | rfl
        all_goals exact absurd hconditional (by decide)
    | @multiply form => cases form <;> exact absurd hconditional (by decide)
    | multiplyHigh => exact hconditional.elim
    | @swapBytes byte hopcode =>
        have hlow : ¬(0x40 ≤ byte ∧ byte ≤ 0x4f) := fun h => by bv_omega
        exact absurd hconditional hlow
    | xaddReg => exact absurd hconditional (by decide)
    | xaddRm => exact absurd hconditional (by decide)
    | _ => exact hconditional.elim
  · have hzero := upperZero_of_execute hwidth hdestination hconditional hrun
    exact iff_of_true hzero fun h => absurd h hconditional

end Instructions

section Examples

/-- `mov` or `cmove` of `%ecx` to `%eax`, by its opcode bytes. -/
def movingCounter (code : List U8) : Emulator :=
  let emulator := startingAt code
  emulator.withCPU ((emulator.cpu.setReg .rax (-1)).setReg .rcx 5)

/-- `mov %ecx, %eax` clears the upper half of `%rax`. -/
theorem step_upperZero_mov :
    UpperZero .rax (finalState (step Emulator.quietHost (movingCounter [0x8b, 0xc1]))) := by
  let decoded := finalState (decodeInstruction (movingCounter [0x8b, 0xc1]))
  have hdecode : decodeInstruction (movingCounter [0x8b, 0xc1]) =
      .ok ({}, .oneByte 0x8b) decoded :=
    eq_ok_of_returned (by decide)
  have hmodrm : fetchModrm {} decoded = .ok { byte := 0xc1, mod := 3, rm := .rcx }
      (finalState (fetchModrm {} decoded)) :=
    eq_ok_of_returned (by decide)
  have hstep : step Emulator.quietHost (movingCounter [0x8b, 0xc1]) =
      .ok () (finalState (step Emulator.quietHost (movingCounter [0x8b, 0xc1]))) :=
    eq_ok_of_returned (by decide)
  exact (step_upperZero_iff Emulator.quietHost hdecode (by decide) (.moveLoad hmodrm) hstep).mpr
    fun h => h.elim

/-- `cmove %ecx, %eax` with the zero flag clear keeps the upper half of `%rax`. -/
theorem step_upperZero_cmove :
    ∃ final, step Emulator.quietHost (movingCounter [0x0f, 0x44, 0xc1]) = .ok () final ∧
      final.cpu.reg .rax = -1 ∧ ¬UpperZero .rax final := by
  have hrun : returned (step Emulator.quietHost (movingCounter [0x0f, 0x44, 0xc1])) = some () ∧
      (finalState (step Emulator.quietHost (movingCounter [0x0f, 0x44, 0xc1]))).cpu.reg .rax =
        -1 := by
    decide
  refine ⟨_, eq_ok_of_returned hrun.1, hrun.2, ?_⟩
  rw [UpperZero, hrun.2]
  decide

end Examples

end SoftCPU64

end LUE
