import LinuxUserspaceEmulator.SoftCPU64.AluEncodings
import LinuxUserspaceEmulator.SoftCPU64.OperandForms
import LinuxUserspaceEmulator.SoftCPU64.ShiftFlags

/-!
# Flags of a result

The eight two-operand operations set the sign, zero and parity flags from their result.  The
constant in which `parity_even` looks up the parity of a byte has its bits the other way round,
so the parity flag is set when the number of ones is odd.

Main results:

- Theorem `parityEven_eq`: what the lookup gives.
- Theorem `execute_alu`: every encoding reads its operands and then executes the operation.
- Theorem `step_resultFlags`: the sign and zero flags describe the result, the parity flag is
  wrong for every operation, encoding, width and operand.
-/

namespace LUE

open StateExcept

namespace SoftCPU64

/-! ## Parity -/

/-- A byte has an even number of one bits. -/
def evenParity (byte : U8) : Bool :=
  (List.range 8).countP (fun i => byte.getLsbD i) % 2 == 0

/-- The lookup answers the opposite. -/
theorem parityEven_eq : ∀ byte : U8, parityEven byte = !evenParity byte := by
  decide

/-- The sign, zero and parity flags describe a result. -/
structure DescribesResult {w : Nat} (cpu : SoftCPU64) (result : BitVec w) : Prop where
  sign : cpu.flag SF = result.getLsbD (w - 1)
  zero : cpu.flag ZF = true ↔ result = 0
  parity : cpu.flag PF = true ↔ evenParity (result.setWidth 8) = true

/-- The flags that the code sets never describe the result. -/
theorem HasResultFlags.not_describesResult {w : Nat} {cpu : SoftCPU64} {result : BitVec w}
    (h : HasResultFlags cpu result) : ¬DescribesResult cpu result := by
  intro hdescribes
  have hparity := hdescribes.parity
  rw [h.parity, parityEven_eq] at hparity
  cases hbyte : evenParity (result.setWidth 8) <;> simp [hbyte] at hparity

/-! ## Results -/

/-- The result of an operation on words, with the carry flag it takes in. -/
def operationResult {w : Nat} (operation : Nat) (lhs rhs : BitVec w) (carry : Bool) : BitVec w :=
  match operation with
  | 0 => lhs + rhs
  | 1 => lhs ||| rhs
  | 2 => lhs + rhs + BitVec.ofNat w carry.toNat
  | 3 => lhs - rhs - BitVec.ofNat w carry.toNat
  | 4 => lhs &&& rhs
  | 6 => lhs ^^^ rhs
  | _ => lhs - rhs

variable {width : Width} {lhs rhs : U64} {cpu : SoftCPU64} {withCarry : Bool}

theorem add_fst_eq_setWidth : (cpu.add lhs rhs width withCarry).1 =
    (lhs.setWidth width.bits + rhs.setWidth width.bits +
      BitVec.ofNat width.bits (carryIn cpu withCarry).toNat).setWidth 64 := by
  rw [add_fst, and_maskForWidth_eq_setWidth]
  apply congrArg (BitVec.setWidth 64)
  apply BitVec.eq_of_toNat_eq
  have hcarry := toNat_carryValue (carryIn cpu withCarry)
  simp only [BitVec.toNat_setWidth, BitVec.toNat_add, toNat_and_maskForWidth, hcarry,
    BitVec.toNat_ofNat]
  cases width <;> simp only [Width.bits] <;> omega

theorem sub_fst_eq_setWidth : (cpu.sub lhs rhs width withCarry).1 =
    (lhs.setWidth width.bits - rhs.setWidth width.bits -
      BitVec.ofNat width.bits (carryIn cpu withCarry).toNat).setWidth 64 := by
  rw [sub_fst, and_maskForWidth_eq_setWidth]
  apply congrArg (BitVec.setWidth 64)
  apply BitVec.eq_of_toNat_eq
  have hcarry := toNat_carryValue (carryIn cpu withCarry)
  have hbit := Bool.toNat_le (carryIn cpu withCarry)
  simp only [BitVec.toNat_setWidth, BitVec.toNat_sub, BitVec.toNat_add, toNat_and_maskForWidth,
    hcarry, BitVec.toNat_ofNat]
  cases width <;> simp only [Width.bits] <;> omega

theorem hasResultFlags_add (cpu : SoftCPU64) (lhs rhs : U64) (width : Width) (withCarry : Bool) :
    HasResultFlags (cpu.add lhs rhs width withCarry).2
      (lhs.setWidth width.bits + rhs.setWidth width.bits +
        BitVec.ofNat width.bits (carryIn cpu withCarry).toNat) := by
  refine hasResultFlags_of_value add_fst_eq_setWidth ?_ ?_ ?_ <;>
    rw [add, flag_updateFlagsTaint]
  · exact (flag_setArithmeticFlags _ _ _ _ _ _).2.2.1
  · exact (flag_setArithmeticFlags _ _ _ _ _ _).2.2.2.1
  · exact (flag_setArithmeticFlags _ _ _ _ _ _).2.2.2.2.1

theorem hasResultFlags_sub (cpu : SoftCPU64) (lhs rhs : U64) (width : Width) (withCarry : Bool) :
    HasResultFlags (cpu.sub lhs rhs width withCarry).2
      (lhs.setWidth width.bits - rhs.setWidth width.bits -
        BitVec.ofNat width.bits (carryIn cpu withCarry).toNat) := by
  refine hasResultFlags_of_value sub_fst_eq_setWidth ?_ ?_ ?_ <;>
    rw [sub, flag_updateFlagsTaint]
  · exact (flag_setArithmeticFlags _ _ _ _ _ _).2.2.1
  · exact (flag_setArithmeticFlags _ _ _ _ _ _).2.2.2.1
  · exact (flag_setArithmeticFlags _ _ _ _ _ _).2.2.2.2.1

/-- The flags of a logical result that has been masked or not. -/
theorem hasResultFlags_logic {result mask : U64}
    (hmask : AgreeAt width mask (BitVec.allOnes 64)) :
    HasResultFlags (cpu.setLogicFlags (result &&& mask) width) (result.setWidth width.bits) := by
  have hagree : AgreeAt width (result &&& mask) result := by
    have hand := (AgreeAt.refl result).and hmask
    rwa [BitVec.and_allOnes] at hand
  have hsame : cpu.setLogicFlags (result &&& mask) width =
      cpu.setLogicFlags ((result.setWidth width.bits).setWidth 64) width := by
    have hmasked : (result &&& mask) &&& maskForWidth width =
        ((result.setWidth width.bits).setWidth 64) &&& maskForWidth width := by
      rw [hagree, ← and_maskForWidth_eq_setWidth, BitVec.and_assoc, BitVec.and_self]
    simp only [setLogicFlags, hmasked]
  rw [hsame]
  exact hasResultFlags_setLogicFlags cpu _

theorem HasResultFlags.congr {w : Nat} {cpu' : SoftCPU64} {result : BitVec w}
    (h : HasResultFlags cpu result) (hrflags : cpu'.rflags = cpu.rflags) :
    HasResultFlags cpu' result := by
  have hflag : ∀ flagValue, cpu'.flag flagValue = cpu.flag flagValue := by
    intro flagValue
    rw [flag, flag, hrflags]
  exact ⟨(hflag SF).trans h.sign, (hflag ZF).trans h.zero, (hflag PF).trans h.parity⟩

/-- An operation that returns leaves the flags of its result. -/
theorem hasResultFlags_executeOperation {operation : Nat} {mask : U64}
    {write : U64 → EmulatorProgram Unit} {emulator final : Emulator}
    (hmask : AgreeAt width mask (BitVec.allOnes 64)) (hwrite : ∀ value, KeepsRflags (write value))
    (h : executeOperation operation lhs rhs width mask write emulator = .ok () final) :
    HasResultFlags final.cpu (operationResult operation (lhs.setWidth width.bits)
      (rhs.setWidth width.bits) (emulator.cpu.flag CF)) := by
  -- the write that ends the operation keeps the flags
  have hafter : ∀ {value} {cpu : SoftCPU64} {result : BitVec width.bits},
      write value (emulator.withCPU cpu) = .ok () final → HasResultFlags cpu result →
      HasResultFlags final.cpu result := by
    intro value cpu result hrun hflags
    exact hflags.congr ((hwrite value).eq_of_ok hrun)
  have hsub : HasResultFlags (emulator.cpu.sub lhs rhs width false).2
      (lhs.setWidth width.bits - rhs.setWidth width.bits) := by
    simpa [carryIn] using hasResultFlags_sub emulator.cpu lhs rhs width false
  rcases operation with _ | _ | _ | _ | _ | _ | _ | _ | operation
  · refine hafter h ?_
    simpa [carryIn, operationResult] using hasResultFlags_add emulator.cpu lhs rhs width false
  · refine hafter h ?_
    rw [operationResult, ← BitVec.setWidth_or]
    exact hasResultFlags_logic hmask
  · exact hafter h (hasResultFlags_add emulator.cpu lhs rhs width true)
  · exact hafter h (hasResultFlags_sub emulator.cpu lhs rhs width true)
  · refine hafter h ?_
    rw [operationResult, ← BitVec.setWidth_and]
    exact hasResultFlags_logic hmask
  · exact hafter h hsub
  · refine hafter h ?_
    rw [operationResult, ← BitVec.setWidth_xor]
    exact hasResultFlags_logic hmask
  · cases h
    exact hsub
  · exact absurd h (unsupported_ne_ok _)

/-! ## Encodings -/

/-- The opcodes of the eight operations: register and accumulator forms, and the group with an
immediate. -/
def IsAluOpcode (opcode : U8) : Prop :=
  (opcode ≤ 0x3d ∧ opcode &&& 7 ≤ 5) ∨ opcode = 0x80 ∨ opcode = 0x81 ∨ opcode = 0x83

/-- What an instruction has read before it executes its operation. -/
structure AluOperands where
  operation : Nat
  width : Width
  destination : Operand
  lhs : U64
  rhs : U64
  /-- What the logical operations mask their result with. -/
  mask : U64

/-- The result of the operation, as a word of the operand width. -/
def AluOperands.result (operands : AluOperands) (carry : Bool) : BitVec operands.width.bits :=
  operationResult operands.operation (operands.lhs.setWidth operands.width.bits)
    (operands.rhs.setWidth operands.width.bits) carry

/-- The part of `execute_alu_rm_reg` before the switch. -/
def readRmRegOperands (opcode : U8) (prefixes : Prefixes) : EmulatorProgram AluOperands := do
  let operation := (opcode >>> 3).toNat
  let form := (opcode &&& 7).toNat
  let width := if form = 0 ∨ form = 2 then .w8 else operandWidth prefixes
  let modrm ← fetchModrm prefixes
  let rm ← decodeRmOperand prefixes modrm
  let regOperand := Operand.register modrm.reg
  let destination := if form = 2 ∨ form = 3 then regOperand else rm
  let source := if form = 2 ∨ form = 3 then rm else regOperand
  let lhs ← readOperand destination width prefixes
  let rhs ← readOperand source width prefixes
  if rm = regOperand ∧ (operation = 5 ∨ operation = 6 ∨ operation = 7) then
    modifyCPU fun cpu => { cpu with currentTaint := false }
  return ⟨operation, width, destination, lhs, rhs, maskForWidth width⟩

/-- The part of the accumulator forms before the switch. -/
def readAccumulatorOperands (opcode : U8) (prefixes : Prefixes) : EmulatorProgram AluOperands := do
  let form := (opcode &&& 7).toNat
  let width := if form = 4 then .w8 else operandWidth prefixes
  let lhs ← readGpr .rax width prefixes
  let imm ←
    if form = 4 then do
      let byte ← fetch8
      pure (byte.setWidth 64)
    else if width = .w16 then fetch16
    else do
      let value ← fetch32
      pure (if prefixes.rexW then signExtend value .w32 else value)
  return ⟨(opcode >>> 3).toNat, width, .register .rax, lhs, imm, BitVec.allOnes 64⟩

/-- The part of `execute_alu_imm` before the switch. -/
def readImmOperands (opcode : U8) (prefixes : Prefixes) : EmulatorProgram AluOperands := do
  let width := if opcode = 0x80 then .w8 else operandWidth prefixes
  let modrm ← fetchModrm prefixes
  let destination ← decodeRmOperand prefixes modrm
  let imm ←
    if opcode = 0x83 then do
      let byte ← fetch8
      pure (signExtend (byte.setWidth 64) .w8)
    else fetchImmediate width
  let lhs ← readOperand destination width prefixes
  return ⟨modrm.operation, width, destination, lhs, imm, maskForWidth width⟩

/-- What an instruction of the eight operations reads. -/
def readAluOperands (opcode : U8) (prefixes : Prefixes) : EmulatorProgram AluOperands :=
  if opcode ≤ 0x3d ∧ opcode &&& 7 ≤ 5 then
    if opcode &&& 7 ≤ 3 then readRmRegOperands opcode prefixes
    else readAccumulatorOperands opcode prefixes
  else readImmOperands opcode prefixes

/-- Every encoding reads its operands and then executes the operation. -/
theorem execute_alu {opcode : U8} (hopcode : IsAluOpcode opcode) (host : Host)
    (prefixes : Prefixes) :
    execute host prefixes opcode = (do
      let operands ← readAluOperands opcode prefixes
      executeOperation operands.operation operands.lhs operands.rhs operands.width operands.mask
        fun result => writeOperand operands.destination operands.width result prefixes) := by
  unfold readAluOperands
  by_cases hmap : opcode ≤ 0x3d ∧ opcode &&& 7 ≤ 5
  · rw [execute, if_pos hmap, if_pos hmap]
    split
    · simp only [executeAluRmReg, readRmRegOperands, bind_assoc]
      refine bind_congr fun modrm => bind_congr fun rm => bind_congr fun lhs =>
        bind_congr fun rhs => ?_
      split
      · rw [bind_assoc]
        rfl
      · rfl
    · simp only [executeAluAccumulator, readAccumulatorOperands, bind_assoc, pure_bind]
      refine bind_congr fun lhs => ?_
      split
      · simp only [bind_assoc, pure_bind, writeOperand_register]
      · split <;> simp only [bind_assoc, pure_bind, writeOperand_register]
  · have hexecute : execute host prefixes opcode = executeAluImm opcode prefixes := by
      rcases hopcode with hopcode | rfl | rfl | rfl
      · exact absurd hopcode hmap
      · rfl
      · rfl
      · rfl
    rw [hexecute, if_neg hmap]
    simp only [executeAluImm, readImmOperands, bind_assoc]
    refine bind_congr fun modrm => bind_congr fun destination => ?_
    split <;> simp only [bind_assoc, pure_bind]

/-! ## Reading the operands -/

section Reading

variable {opcode : U8} {prefixes : Prefixes}

namespace ReadsOnly

theorem readRmRegOperands (opcode : U8) (prefixes : Prefixes) :
    ReadsOnly (readRmRegOperands opcode prefixes) := by
  refine (fetchModrm prefixes).bind fun modrm => (decodeRmOperand prefixes modrm).bind fun rm =>
    (readOperand _ _ _).bind fun lhs => (readOperand _ _ _).bind fun rhs => ?_
  exact ite (bind (modifyCPU fun _ => rfl) fun _ => pure _) (pure _)

theorem readAccumulatorOperands (opcode : U8) (prefixes : Prefixes) :
    ReadsOnly (readAccumulatorOperands opcode prefixes) := by
  refine (readGpr .rax _ _).bind fun lhs => ?_
  refine ite (fetch8.bind fun _ => (pure _).bind fun _ => pure _)
    (ite ((fetchInteger 2).bind fun _ => pure _) ?_)
  exact (fetchInteger 4).bind fun _ => (pure _).bind fun _ => pure _

theorem readImmOperands (opcode : U8) (prefixes : Prefixes) :
    ReadsOnly (readImmOperands opcode prefixes) := by
  refine (fetchModrm prefixes).bind fun modrm =>
    (decodeRmOperand prefixes modrm).bind fun destination => ?_
  refine ite (fetch8.bind fun byte => (pure _).bind fun imm => ?_)
    ((fetchImmediate _).bind fun imm => ?_)
  all_goals
    exact (readOperand _ _ _).bind fun _ => pure _

theorem readAluOperands (opcode : U8) (prefixes : Prefixes) :
    ReadsOnly (readAluOperands opcode prefixes) :=
  ite (ite (readRmRegOperands opcode prefixes) (readAccumulatorOperands opcode prefixes))
    (readImmOperands opcode prefixes)

end ReadsOnly

/-- The mask of an encoding keeps the whole operand. -/
theorem agreeAt_of_readAluOperands (opcode : U8) (prefixes : Prefixes) :
    Yields (fun operands => AgreeAt operands.width operands.mask (BitVec.allOnes 64))
      (readAluOperands opcode prefixes) := by
  refine .ite (.ite ?_ ?_) ?_
  · refine .bind fun modrm => .bind fun rm => .bind fun lhs => .bind fun rhs => ?_
    exact .ite (.bind fun _ => .pure (agreeAt_mask _)) (.pure (agreeAt_mask _))
  · refine .bind fun lhs => .ite (.bind fun byte => .bind fun imm => .pure (.refl _)) (.ite ?_ ?_)
    · exact .bind fun imm => .pure (.refl _)
    · exact .bind fun value => .bind fun imm => .pure (.refl _)
  · refine .bind fun modrm => .bind fun destination => .ite (.bind fun byte => ?_) ?_
    · exact .bind fun imm => .bind fun lhs => .pure (agreeAt_mask _)
    · exact .bind fun imm => .bind fun lhs => .pure (agreeAt_mask _)

end Reading

/-! ## Steps -/

/-- After a step of an operation the sign and zero flags describe its result and the parity
flag does not. -/
theorem step_resultFlags {opcode : U8} {prefixes : Prefixes} {emulator decoded final : Emulator}
    (host : Host) (hdecode : decodeOpcode emulator = .ok (prefixes, opcode) decoded)
    (hopcode : IsAluOpcode opcode) (hstep : step host emulator = .ok () final) :
    ∃ operands read, readAluOperands opcode prefixes decoded = .ok operands read ∧
      final.cpu.flag SF = (operands.result (emulator.cpu.flag CF)).getLsbD
        (operands.width.bits - 1) ∧
      (final.cpu.flag ZF = true ↔ operands.result (emulator.cpu.flag CF) = 0) ∧
      ¬DescribesResult final.cpu (operands.result (emulator.cpu.flag CF)) := by
  obtain ⟨pc, rfl⟩ := decodeOpcode_eq_ok hdecode
  obtain ⟨executed, hexecute, rfl⟩ := execute_of_step hdecode hstep
  rw [execute_alu hopcode] at hexecute
  obtain ⟨operands, read, hread, hoperate⟩ := bind_eq_ok_iff.mp hexecute
  have hkept := ((ReadsOnly.readAluOperands opcode prefixes).of_ok hread).rflags
  have hmask := agreeAt_of_readAluOperands opcode prefixes _ _ _ hread
  have hflags := hasResultFlags_executeOperation hmask
    (fun value => KeepsRflags.writeOperand _ _ value _) hoperate
  have hcarry : read.cpu.flag CF = emulator.cpu.flag CF :=
    congrArg (fun rflags => rflags &&& CF != 0) hkept
  rw [hcarry] at hflags
  have hfinal : HasResultFlags (finishInstruction executed.cpu)
      (operands.result (emulator.cpu.flag CF)) := hflags.congr rfl
  refine ⟨operands, read, hread, ?_, ?_, hfinal.not_describesResult⟩
  · exact hfinal.sign.trans (BitVec.msb_eq_getLsbD_last _)
  · exact Bool.eq_iff_iff.mp hfinal.zero |>.trans beq_iff_eq

/-- The theorem about `add $-1, %rax`. -/
theorem step_resultFlags_add :
    ∃ decoded final operands read,
      decodeOpcode addAccumulator = .ok ({ rexPresent := true, rex := 8 }, 0x05) decoded ∧
      step Emulator.quietHost addAccumulator = .ok () final ∧
      readAluOperands 0x05 { rexPresent := true, rex := 8 } decoded = .ok operands read ∧
      ¬DescribesResult final.cpu (operands.result (addAccumulator.cpu.flag CF)) := by
  have hdecode : decodeOpcode addAccumulator =
      .ok ({ rexPresent := true, rex := 8 }, 0x05) (finalState (decodeOpcode addAccumulator)) :=
    eq_ok_of_returned (by decide)
  have hstep : step Emulator.quietHost addAccumulator =
      .ok () (finalState (step Emulator.quietHost addAccumulator)) :=
    eq_ok_of_returned (by decide)
  rcases step_resultFlags Emulator.quietHost hdecode (Or.inl (by decide)) hstep with
    ⟨operands, read, hread, -, -, hflags⟩
  exact ⟨_, _, operands, read, hdecode, hstep, hread, hflags⟩

/-- `add $-1, %rax` of zero: the low byte of the result has eight ones, and the parity flag is
clear. -/
theorem parity_addAccumulator :
    ∃ final, step Emulator.quietHost addAccumulator = .ok () final ∧ final.cpu.reg .rax = -1 ∧
      evenParity ((final.cpu.reg .rax).setWidth 8) = true ∧ final.cpu.flag PF = false := by
  have hrun : returned (step Emulator.quietHost addAccumulator) = some () ∧
      (finalState (step Emulator.quietHost addAccumulator)).cpu.reg .rax = -1 ∧
      (finalState (step Emulator.quietHost addAccumulator)).cpu.flag PF = false := by
    decide
  rcases hrun with ⟨hreturned, hrax, hparity⟩
  refine ⟨_, eq_ok_of_returned hreturned, hrax, ?_, hparity⟩
  rw [hrax]
  decide

end SoftCPU64

end LUE
