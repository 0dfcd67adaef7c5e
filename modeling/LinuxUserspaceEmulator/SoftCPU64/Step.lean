import LinuxUserspaceEmulator.SoftCPU64.TwoByte
import LinuxUserspaceEmulator.SoftCPU64.X87

/-!
# One instruction

`step` decodes the prefixes and the opcode at the instruction pointer and executes the
instruction; the decoder position it ends with is the next instruction pointer.
-/

namespace LUE

open StateExcept

namespace SoftCPU64

/-! ## One-byte instructions -/

/-- `70` to `7F`. -/
def executeJccShort (opcode : U8) : EmulatorProgram Unit := do
  let rel ← fetchI8
  let take ← branchCondition (opcode &&& 0xf)
  if take then
    modifyCPU fun cpu => cpu.setDecodePc (cpu.decodePc + rel)

/-- `90` to `97`: whole registers are exchanged, whatever the operand width. -/
def executeXchgShort (opcode : U8) (prefixes : Prefixes) : EmulatorProgram Unit :=
  let other := registerAt opcode prefixes.rexB
  if other = .rax then return ()
  else
    modifyCPU fun cpu =>
      { cpu with
        gpr := Function.update (Function.update cpu.gpr .rax (cpu.gpr other)) other
          (cpu.gpr .rax)
        gprShadow := Function.update
          (Function.update cpu.gprShadow .rax (cpu.gprShadow other)) other
          (cpu.gprShadow .rax) }

/-- `B0` to `BF`. -/
def executeMovImmediate (opcode : U8) (prefixes : Prefixes) : EmulatorProgram Unit := do
  let target := registerAt opcode prefixes.rexB
  if opcode ≤ 0xb7 then
    let imm ← fetch8
    writeGpr target .w8 (imm.setWidth 64) prefixes
  else
    let width := operandWidth prefixes
    let imm ← fetchInteger width.bytes
    writeGpr target width imm prefixes

/-- `50` to `57`. -/
def executePush (opcode : U8) (prefixes : Prefixes) : EmulatorProgram Unit := do
  let cpu ← getCPU
  let source := registerAt opcode prefixes.rexB
  push64 (cpu.gpr source) (cpu.gprShadow source)

/-- A popped value in a register, with its shadow. -/
def popInto (target : Register) : EmulatorProgram Unit := do
  let value ← pop64WithShadow
  modifyCPU fun cpu =>
    (cpu.setReg target value.value).setRegShadow target
      (if value.isUninitialized then BitVec.allOnes 64 else 0)

/-- `63`. -/
def executeMovsxd (prefixes : Prefixes) : EmulatorProgram Unit := do
  let modrm ← fetchModrm prefixes
  let source ← decodeRmOperand prefixes modrm
  let value ← readOperand source .w32 prefixes
  writeGpr modrm.reg (operandWidth prefixes) (signExtend value .w32) prefixes

/-- `69` and `6B`: the immediate is fetched after the source is read. -/
def executeImulImmediate (opcode : U8) (prefixes : Prefixes) : EmulatorProgram Unit := do
  let width := operandWidth prefixes
  let modrm ← fetchModrm prefixes
  let source ← decodeRmOperand prefixes modrm
  let lhs ← readOperand source width prefixes
  let imm ←
    if opcode = 0x6b then do
      let byte ← fetch8
      pure (signedOperand (byte.setWidth 64) .w8)
    else do
      let value ← fetch32
      pure (signedOperand value .w32)
  let product := signedOperand lhs width * imm
  writeGpr modrm.reg width (BitVec.ofInt 64 product) prefixes
  let overflow := product != signedOperand (BitVec.ofInt 64 product) width
  modifyCPU fun cpu => (cpu.setFlag CF overflow).setFlag OF overflow

/-- `84` and `85`. -/
def executeTest (opcode : U8) (prefixes : Prefixes) : EmulatorProgram Unit := do
  let width := if opcode = 0x84 then .w8 else operandWidth prefixes
  let modrm ← fetchModrm prefixes
  let rm ← decodeRmOperand prefixes modrm
  let lhs ← readOperand rm width prefixes
  let rhs ← readGpr modrm.reg width prefixes
  modifyCPU fun cpu => cpu.setLogicFlags (lhs &&& rhs) width

/-- `87`. -/
def executeXchg (prefixes : Prefixes) : EmulatorProgram Unit := do
  let modrm ← fetchModrm prefixes
  let rm ← decodeRmOperand prefixes modrm
  let width := operandWidth prefixes
  let lhs ← readOperand rm width prefixes
  let rhs ← readGpr modrm.reg width prefixes
  writeOperand rm width rhs prefixes
  writeGpr modrm.reg width lhs prefixes

/-- `88` and `89`. -/
def executeMovStore (opcode : U8) (prefixes : Prefixes) : EmulatorProgram Unit := do
  let width := if opcode = 0x88 then .w8 else operandWidth prefixes
  let modrm ← fetchModrm prefixes
  let destination ← decodeRmOperand prefixes modrm
  let value ← readGpr modrm.reg width prefixes
  writeOperand destination width value prefixes

/-- `8A` and `8B`. -/
def executeMovLoad (opcode : U8) (prefixes : Prefixes) : EmulatorProgram Unit := do
  let width := if opcode = 0x8a then .w8 else operandWidth prefixes
  let modrm ← fetchModrm prefixes
  let source ← decodeRmOperand prefixes modrm
  let value ← readOperand source width prefixes
  writeGpr modrm.reg width value prefixes

/-- `8D`. -/
def executeLea (prefixes : Prefixes) : EmulatorProgram Unit := do
  let modrm ← fetchModrm prefixes
  if modrm.isRegister then unsupported "lea with register source"
  else
    let decoded ← decodeMemoryAddress prefixes modrm
    writeGpr modrm.reg (operandWidth prefixes) decoded.address prefixes

/-- `8F`. -/
def executePopOperand (prefixes : Prefixes) : EmulatorProgram Unit := do
  let modrm ← fetchModrm prefixes
  if modrm.operation ≠ 0 then unsupported "unsupported 8F group operation"
  else
    let destination ← decodeRmOperand prefixes modrm
    let value ← pop64WithShadow
    if value.isUninitialized then
      modifyCPU taint
    writeOperand destination .w64 value.value prefixes

/-- `98`. -/
def executeCdqe (prefixes : Prefixes) : EmulatorProgram Unit :=
  if prefixes.rexW then do
    let value ← readGpr .rax .w32 prefixes
    modifyCPU fun cpu =>
      (cpu.setReg .rax (signExtend value .w32)).setRegShadow .rax
        (if cpu.currentTaint then BitVec.allOnes 64 else 0)
  else do
    let value ← readGpr .rax .w16 prefixes
    writeGpr .rax .w32 (signExtend value .w16) prefixes

/-- `99`. -/
def executeCqo (prefixes : Prefixes) : EmulatorProgram Unit :=
  if prefixes.rexW then do
    let value ← readGpr .rax .w64 prefixes
    modifyCPU fun cpu =>
      (cpu.setReg .rdx (if value.msb then BitVec.allOnes 64 else 0)).setRegShadow .rdx
        (if cpu.currentTaint then BitVec.allOnes 64 else 0)
  else do
    let value ← readGpr .rax .w32 prefixes
    writeGpr .rdx .w32 (if value.getLsbD 31 then 0xffffffff else 0) prefixes

/-- `A8` and `A9`. -/
def executeTestAccumulator (opcode : U8) (prefixes : Prefixes) : EmulatorProgram Unit := do
  let width := if opcode = 0xa8 then .w8 else operandWidth prefixes
  let value ← readGpr .rax width prefixes
  let imm ←
    if opcode = 0xa8 then do
      let byte ← fetch8
      pure (byte.setWidth 64)
    else do
      let imm ← fetch32
      pure (if prefixes.rexW then signExtend imm .w32 else imm)
  modifyCPU fun cpu => cpu.setLogicFlags (value &&& imm) width

/-- The end of a return: the synthetic call stack loses its last entry. -/
def returnTo (target : U64) : EmulatorProgram Unit :=
  modifyCPU fun cpu =>
    { cpu.setDecodePc target with callStack := cpu.callStack.dropLast }

/-- `C2`. -/
def executeRetImmediate : EmulatorProgram Unit := do
  let bytes ← fetch16
  let target ← pop64
  modifyCPU fun cpu => cpu.setReg .rsp (cpu.reg .rsp + bytes)
  returnTo target

/-- `C3`. -/
def executeRet : EmulatorProgram Unit := do
  let target ← pop64
  returnTo target

/-- `C6` and `C7`. -/
def executeMovOperandImmediate (opcode : U8) (prefixes : Prefixes) : EmulatorProgram Unit := do
  let width := if opcode = 0xc6 then .w8 else operandWidth prefixes
  let modrm ← fetchModrm prefixes
  if modrm.operation ≠ 0 then unsupported "unsupported C6/C7 group operation"
  else
    let destination ← decodeRmOperand prefixes modrm
    let value ← fetchImmediate width
    writeOperand destination width value prefixes

/-- `C9`. -/
def executeLeave : EmulatorProgram Unit := do
  modifyCPU fun cpu =>
    (cpu.setReg .rsp (cpu.reg .rbp)).setRegShadow .rsp (cpu.gprShadow .rbp)
  popInto .rbp

/-- `E0`, `E1` and `E2`. -/
def executeLoop (opcode : U8) : EmulatorProgram Unit := do
  let rel ← fetchI8
  modifyCPU fun cpu => cpu.setReg .rcx (cpu.reg .rcx - 1)
  let cpu ← getCPU
  let take :=
    if opcode = 0xe2 then cpu.reg .rcx != 0
    else if opcode = 0xe1 then cpu.reg .rcx != 0 && cpu.flag ZF
    else cpu.reg .rcx != 0 && !cpu.flag ZF
  if take then
    modifyCPU fun cpu => cpu.setDecodePc (cpu.decodePc + rel)

/-- `E3`. -/
def executeJrcxz : EmulatorProgram Unit := do
  let rel ← fetchI8
  let cpu ← getCPU
  if cpu.reg .rcx = 0 then
    modifyCPU fun cpu => cpu.setDecodePc (cpu.decodePc + rel)

/-- `E8`. -/
def executeCall : EmulatorProgram Unit := do
  let rel ← fetchI32
  let cpu ← getCPU
  push64 cpu.decodePc 0
  modifyCPU fun cpu =>
    (cpu.pushSyntheticReturn cpu.decodePc).setDecodePc (cpu.decodePc + rel)

/-- `E9` and `EB`. -/
def executeJmp (opcode : U8) : EmulatorProgram Unit := do
  let rel ← if opcode = 0xe9 then fetchI32 else fetchI8
  modifyCPU fun cpu => cpu.setDecodePc (cpu.decodePc + rel)

/-- `68` and `6A`. -/
def executePushImmediate (opcode : U8) : EmulatorProgram Unit := do
  let imm ←
    if opcode = 0x68 then do
      let value ← fetch32
      pure (signExtend value .w32)
    else do
      let byte ← fetch8
      pure (signExtend (byte.setWidth 64) .w8)
  push64 imm 0

/-! ## The opcode map -/

/-- The final switch of `step`. -/
def executeOpcode (host : Host) (opcode : U8) (prefixes : Prefixes) : EmulatorProgram Unit :=
  match opcode.toNat with
  | 0x0f => execute0f host prefixes
  | 0x63 => executeMovsxd prefixes
  | 0x68 | 0x6a => executePushImmediate opcode
  | 0x69 | 0x6b => executeImulImmediate opcode prefixes
  | 0x80 | 0x81 | 0x83 => executeAluImm opcode prefixes
  | 0x84 | 0x85 => executeTest opcode prefixes
  | 0x87 => executeXchg prefixes
  | 0x88 | 0x89 => executeMovStore opcode prefixes
  | 0x8a | 0x8b => executeMovLoad opcode prefixes
  | 0x8d => executeLea prefixes
  | 0x8f => executePopOperand prefixes
  | 0x98 => executeCdqe prefixes
  | 0x99 => executeCqo prefixes
  | 0xa4 | 0xa5 | 0xaa | 0xab => executeStringInstruction opcode prefixes
  | 0xa8 | 0xa9 => executeTestAccumulator opcode prefixes
  | 0xc0 | 0xc1 | 0xd0 | 0xd1 | 0xd2 | 0xd3 => executeShiftGroup opcode prefixes
  | 0xc2 => executeRetImmediate
  | 0xc3 => executeRet
  | 0xc6 | 0xc7 => executeMovOperandImmediate opcode prefixes
  | 0xc9 => executeLeave
  | 0xd8 | 0xd9 | 0xda | 0xdb | 0xdc | 0xdd | 0xde | 0xdf =>
      executeX87 host.float opcode prefixes
  | 0xe0 | 0xe1 | 0xe2 => executeLoop opcode
  | 0xe3 => executeJrcxz
  | 0xe8 => executeCall
  | 0xe9 | 0xeb => executeJmp opcode
  | 0xf6 | 0xf7 => executeGroupF6F7 opcode prefixes
  | 0xf8 => modifyCPU fun cpu => cpu.setFlag CF false
  | 0xfc => modifyCPU fun cpu => cpu.setFlag DF false
  | 0xfd => modifyCPU fun cpu => cpu.setFlag DF true
  | 0xff => executeGroupFf prefixes
  | _ => unsupported ("unsupported opcode " ++ hex (opcode.setWidth 64) 2)

/-- The part of `step` after the opcode byte. -/
def execute (host : Host) (prefixes : Prefixes) (opcode : U8) : EmulatorProgram Unit :=
  if opcode ≤ 0x3d ∧ opcode &&& 7 ≤ 5 then
    if opcode &&& 7 ≤ 3 then executeAluRmReg opcode prefixes
    else executeAluAccumulator opcode prefixes
  else if 0x70 ≤ opcode ∧ opcode ≤ 0x7f then executeJccShort opcode
  else if 0x90 ≤ opcode ∧ opcode ≤ 0x97 then executeXchgShort opcode prefixes
  else if 0xb0 ≤ opcode ∧ opcode ≤ 0xbf then executeMovImmediate opcode prefixes
  else if 0x50 ≤ opcode ∧ opcode ≤ 0x57 then executePush opcode prefixes
  else if 0x58 ≤ opcode ∧ opcode ≤ 0x5f then popInto (registerAt opcode prefixes.rexB)
  else executeOpcode host opcode prefixes

section Execute

variable {host : Host} {prefixes : Prefixes} {opcode : U8}

/-- The ranges behind the arithmetic opcodes have none of these. -/
theorem not_arithmetic (h : 0x40 ≤ opcode) : ¬(opcode ≤ 0x3d ∧ opcode &&& 7 ≤ 5) :=
  fun hle => by bv_omega

theorem execute_of_aluRmReg (h : opcode ≤ 0x3d ∧ opcode &&& 7 ≤ 3) :
    execute host prefixes opcode = executeAluRmReg opcode prefixes := by
  have hmap : opcode ≤ 0x3d ∧ opcode &&& 7 ≤ 5 := ⟨h.1, BitVec.le_trans h.2 (by decide)⟩
  rw [execute, if_pos hmap, if_pos h.2]

theorem execute_of_aluAccumulator (h : opcode ≤ 0x3d ∧ opcode &&& 7 ≤ 5)
    (hform : ¬opcode &&& 7 ≤ 3) :
    execute host prefixes opcode = executeAluAccumulator opcode prefixes := by
  rw [execute, if_pos h, if_neg hform]

theorem execute_of_jccShort (h : 0x70 ≤ opcode ∧ opcode ≤ 0x7f) :
    execute host prefixes opcode = executeJccShort opcode := by
  rw [execute, if_neg (not_arithmetic (by bv_omega)), if_pos h]

theorem execute_of_xchgShort (h : 0x90 ≤ opcode ∧ opcode ≤ 0x97) :
    execute host prefixes opcode = executeXchgShort opcode prefixes := by
  have hjcc : ¬(0x70 ≤ opcode ∧ opcode ≤ 0x7f) := by bv_omega
  rw [execute, if_neg (not_arithmetic (by bv_omega)), if_neg hjcc, if_pos h]

theorem execute_of_movImmediate (h : 0xb0 ≤ opcode ∧ opcode ≤ 0xbf) :
    execute host prefixes opcode = executeMovImmediate opcode prefixes := by
  have hjcc : ¬(0x70 ≤ opcode ∧ opcode ≤ 0x7f) := by bv_omega
  have hxchg : ¬(0x90 ≤ opcode ∧ opcode ≤ 0x97) := by bv_omega
  rw [execute, if_neg (not_arithmetic (by bv_omega)), if_neg hjcc, if_neg hxchg, if_pos h]

theorem execute_of_push (h : 0x50 ≤ opcode ∧ opcode ≤ 0x57) :
    execute host prefixes opcode = executePush opcode prefixes := by
  have hjcc : ¬(0x70 ≤ opcode ∧ opcode ≤ 0x7f) := by bv_omega
  have hxchg : ¬(0x90 ≤ opcode ∧ opcode ≤ 0x97) := by bv_omega
  have hmov : ¬(0xb0 ≤ opcode ∧ opcode ≤ 0xbf) := by bv_omega
  rw [execute, if_neg (not_arithmetic (by bv_omega)), if_neg hjcc, if_neg hxchg, if_neg hmov,
    if_pos h]

theorem execute_of_pop (h : 0x58 ≤ opcode ∧ opcode ≤ 0x5f) :
    execute host prefixes opcode = popInto (registerAt opcode prefixes.rexB) := by
  have hjcc : ¬(0x70 ≤ opcode ∧ opcode ≤ 0x7f) := by bv_omega
  have hxchg : ¬(0x90 ≤ opcode ∧ opcode ≤ 0x97) := by bv_omega
  have hmov : ¬(0xb0 ≤ opcode ∧ opcode ≤ 0xbf) := by bv_omega
  have hpush : ¬(0x50 ≤ opcode ∧ opcode ≤ 0x57) := by bv_omega
  rw [execute, if_neg (not_arithmetic (by bv_omega)), if_neg hjcc, if_neg hxchg, if_neg hmov,
    if_neg hpush, if_pos h]

end Execute

/-- The start of `step`: the instruction begins at the instruction pointer, untainted. -/
def beginInstruction (cpu : SoftCPU64) : SoftCPU64 :=
  { cpu with instructionStart := cpu.rip, decodePc := cpu.rip, currentTaint := false }

/-- The prefixes and the opcode of the instruction at the instruction pointer. -/
def decodeOpcode : EmulatorProgram (Prefixes × U8) := do
  modifyCPU beginInstruction
  let prefixes ← readPrefixes
  let opcode ← fetch8
  return (prefixes, opcode)

/-- `m_rip = m_decode_pc`. -/
def finishInstruction (cpu : SoftCPU64) : SoftCPU64 :=
  { cpu with rip := cpu.decodePc }

/-- `step`. -/
def step (host : Host) : EmulatorProgram Unit := do
  let (prefixes, opcode) ← decodeOpcode
  execute host prefixes opcode
  modifyCPU finishInstruction

/-! ## Decoded instructions -/

section Decoded

variable {emulator emulator' emulator'' : Emulator} {host : Host} {prefixes : Prefixes}
  {opcode : U8}

/-- The emulator after decoding prefixes and opcode, with the decoder at a position. -/
def afterDecoding (emulator : Emulator) (pc : U64) : Emulator :=
  atDecodePc (emulator.withCPU (beginInstruction emulator.cpu)) pc

/-- Decoding begins an instruction and moves the decoder, nothing else. -/
theorem decodeOpcode_eq_ok (h : decodeOpcode emulator = .ok (prefixes, opcode) emulator') :
    ∃ pc, emulator' = afterDecoding emulator pc := by
  rw [decodeOpcode, bind_of_ok (modifyCPU_apply _ emulator)] at h
  obtain ⟨prefixes', emulator₁, hprefixes, hrest⟩ := bind_eq_ok_iff.mp h
  obtain ⟨opcode', emulator₂, hopcode, hreturn⟩ := bind_eq_ok_iff.mp hrest
  obtain ⟨pc, rfl⟩ := readPrefixesLoop_eq_ok hprefixes
  have hmoved := fetch8_eq_ok hopcode
  cases hreturn
  exact ⟨_, hmoved⟩

theorem fetch8_afterDecoding {pc : U64} {byte : U8} (h : emulator.mmu.read8 pc = .ok byte) :
    fetch8 (afterDecoding emulator pc) = .ok byte (afterDecoding emulator (pc + 1)) :=
  fetch8_of_read h

theorem fetchInteger_afterDecoding {pc : U64} {bytes : Nat → U8} {count : Nat}
    (h : ∀ i < count, emulator.mmu.read8 (pc + BitVec.ofNat 64 i) = .ok (bytes i)) :
    fetchInteger count (afterDecoding emulator pc) = .ok (LittleEndian.assemble bytes count)
      (afterDecoding emulator (pc + BitVec.ofNat 64 count)) :=
  fetchInteger_of_bytes h

/-- Decoding an opcode without prefixes. -/
theorem decodeOpcode_of_byte (hread : emulator.mmu.read8 emulator.cpu.rip = .ok opcode)
    (hopcode : addPrefix opcode {} = none) :
    decodeOpcode emulator =
      .ok ({}, opcode) (afterDecoding emulator (emulator.cpu.rip + 1)) := by
  obtain ⟨fuel, hfuel⟩ := readPrefixes_eq
  rw [decodeOpcode, bind_of_ok (modifyCPU_apply _ emulator), hfuel,
    bind_of_ok (readPrefixesLoop_of_opcode hread hopcode _), bind_of_ok (fetch8_of_read hread)]
  rfl

/-- Decoding an opcode after one prefix. -/
theorem decodeOpcode_of_prefixByte {byte : U8}
    (hfirst : emulator.mmu.read8 emulator.cpu.rip = .ok byte)
    (hprefixed : addPrefix byte {} = some prefixes)
    (hread : emulator.mmu.read8 (emulator.cpu.rip + 1) = .ok opcode)
    (hopcode : addPrefix opcode prefixes = none) :
    decodeOpcode emulator =
      .ok (prefixes, opcode) (afterDecoding emulator (emulator.cpu.rip + 1 + 1)) := by
  obtain ⟨fuel, hfuel⟩ := readPrefixes_eq
  have hloop : readPrefixesLoop (fuel + 1 + 1) {}
      (emulator.withCPU (beginInstruction emulator.cpu)) =
        .ok prefixes (afterDecoding emulator (emulator.cpu.rip + 1)) := by
    have hsecond : (afterDecoding emulator (emulator.cpu.rip + 1)).mmu.read8
        (afterDecoding emulator (emulator.cpu.rip + 1)).cpu.decodePc = .ok opcode := hread
    exact (readPrefixesLoop_of_prefixByte hfirst hprefixed (fuel + 1)).trans
      (readPrefixesLoop_of_opcode hsecond hopcode fuel)
  have hfetch : fetch8 (afterDecoding emulator (emulator.cpu.rip + 1)) =
      .ok opcode (afterDecoding emulator (emulator.cpu.rip + 1 + 1)) :=
    fetch8_of_read hread
  rw [decodeOpcode, bind_of_ok (modifyCPU_apply _ emulator), hfuel, bind_of_ok hloop,
    bind_of_ok hfetch]
  rfl

/-- A step of a decoded instruction. -/
theorem step_of_decoded (h : decodeOpcode emulator = .ok (prefixes, opcode) emulator') :
    step host emulator =
      (do execute host prefixes opcode; modifyCPU finishInstruction : EmulatorProgram Unit)
        emulator' := by
  rw [step, bind_of_ok h]

/-- A step that returns has executed its instruction. -/
theorem execute_of_step (hdecode : decodeOpcode emulator = .ok (prefixes, opcode) emulator')
    (h : step host emulator = .ok () emulator'') :
    ∃ final, execute host prefixes opcode emulator' = .ok () final ∧
      emulator'' = final.withCPU (finishInstruction final.cpu) := by
  rw [step_of_decoded hdecode] at h
  obtain ⟨_, final, hexecute, hfinish⟩ := bind_eq_ok_iff.mp h
  cases hfinish
  exact ⟨final, hexecute, rfl⟩

/-- A return takes its target from the top of the stack. -/
theorem step_ret (hdecode : decodeOpcode emulator = .ok (prefixes, 0xc3) emulator')
    (h : step host emulator = .ok () emulator'') :
    emulator.mmu.read64 (emulator.cpu.reg .rsp) = .ok emulator''.cpu.rip ∧
      emulator''.cpu.reg .rsp = emulator.cpu.reg .rsp + 8 := by
  obtain ⟨pc, rfl⟩ := decodeOpcode_eq_ok hdecode
  obtain ⟨final, hexecute, rfl⟩ := execute_of_step hdecode h
  obtain ⟨target, emulator₁, hpop, hreturn⟩ := bind_eq_ok_iff.mp hexecute
  obtain ⟨value, emulator₂, hpopped, hvalue⟩ := bind_eq_ok_iff.mp hpop
  rw [pop64WithShadow, bind_of_ok (getCPU_apply _)] at hpopped
  obtain ⟨read, emulator₃, hread, hmove⟩ := bind_eq_ok_iff.mp hpopped
  obtain ⟨mmu, hmmu, rfl⟩ := onMMU_eq_ok_iff.mp hread
  have hplain := (SoftMMU.readIntegerWithShadow_eq_ok hmmu).1
  cases hmove
  cases hvalue
  cases hreturn
  exact ⟨hplain, rfl⟩

end Decoded

end SoftCPU64

end LUE
