import LinuxUserspaceEmulator.SoftCPU64.Decode

/-!
# Integer instruction groups

The instruction groups that `step` hands to members of their own: the eight two-operand
operations in their three encodings, the shift group, the unary and division group, the
increment and call group, and the string instructions.  Host arithmetic that the C++
standard leaves undefined is a host fault.
-/

namespace LUE

open StateExcept

namespace SoftCPU64

/-! ## Host arithmetic -/

/-- A host shift count that may be out of range. -/
def hostShiftRight (value : U64) (count : Int) : EmulatorProgram U64 :=
  if 0 ≤ count ∧ count < 64 then return value >>> count.toNat else throw .hostFault

def hostShiftLeft (value : U64) (count : Int) : EmulatorProgram U64 :=
  if 0 ≤ count ∧ count < 64 then return value <<< count.toNat else throw .hostFault

/-- The signed value that the code computes with after a sign extension. -/
def signedOperand (value : U64) (width : Width) : Int :=
  (signExtend value width).toInt

/-- A fault of the guest program at the running instruction. -/
def guestFault {α : Type} (what : String) : EmulatorProgram α := do
  let cpu ← getCPU
  throw (.emulatorError (what ++ " at " ++ hex cpu.instructionStart))

/-! ## Two-operand operations -/

/-- The switch over the eight operations.  The logical operations mask their result before
they set flags and hand it on; the comparison hands nothing on. -/
def executeOperation (operation : Nat) (lhs rhs : U64) (width : Width) (mask : U64)
    (write : U64 → EmulatorProgram Unit) : EmulatorProgram Unit :=
  match operation with
  | 0 => do
      let result ← onCPU fun cpu => cpu.add lhs rhs width false
      write result
  | 1 => do
      modifyCPU fun cpu => cpu.setLogicFlags ((lhs ||| rhs) &&& mask) width
      write ((lhs ||| rhs) &&& mask)
  | 2 => do
      let result ← onCPU fun cpu => cpu.add lhs rhs width true
      write result
  | 3 => do
      let result ← onCPU fun cpu => cpu.sub lhs rhs width true
      write result
  | 4 => do
      modifyCPU fun cpu => cpu.setLogicFlags (lhs &&& rhs &&& mask) width
      write (lhs &&& rhs &&& mask)
  | 5 => do
      let result ← onCPU fun cpu => cpu.sub lhs rhs width false
      write result
  | 6 => do
      modifyCPU fun cpu => cpu.setLogicFlags ((lhs ^^^ rhs) &&& mask) width
      write ((lhs ^^^ rhs) &&& mask)
  | 7 => do
      let _ ← onCPU fun cpu => cpu.sub lhs rhs width false
      return ()
  | _ => unsupported "unknown ALU operation"

/-- `execute_alu_rm_reg`.  An operation of a register with itself whose result does not
depend on the register is not tainted by it. -/
def executeAluRmReg (opcode : U8) (prefixes : Prefixes) : EmulatorProgram Unit := do
  let operation := (opcode >>> 3).toNat
  let form := (opcode &&& 7).toNat
  let width := if form = 0 ∨ form = 2 then .w8 else operandWidth prefixes
  let modrm ← fetchModrm prefixes
  let rm ← decodeRmOperand prefixes modrm
  let regOperand := Operand.register modrm.reg
  let destination := if form = 2 ∨ form = 3 then regOperand else rm
  let source := if form = 2 ∨ form = 3 then rm else regOperand
  let lhs ← readOperand destination width prefixes
  let rhs ← readOperand source width prefixes
  if rm = regOperand ∧ (operation = 5 ∨ operation = 6 ∨ operation = 7) then
    modifyCPU fun cpu => { cpu with currentTaint := false }
  executeOperation operation lhs rhs width (maskForWidth width) fun result =>
    writeOperand destination width result prefixes

/-- The immediate of a sign-extended full-size form. -/
def fetchImmediate (width : Width) : EmulatorProgram U64 :=
  match width with
  | .w8 => do
      let byte ← fetch8
      return byte.setWidth 64
  | .w16 => fetch16
  | _ => do
      let value ← fetch32
      return signExtend value .w32

/-- `execute_alu_imm`. -/
def executeAluImm (opcode : U8) (prefixes : Prefixes) : EmulatorProgram Unit := do
  let width := if opcode = 0x80 then .w8 else operandWidth prefixes
  let modrm ← fetchModrm prefixes
  let destination ← decodeRmOperand prefixes modrm
  let imm ←
    if opcode = 0x83 then do
      let byte ← fetch8
      pure (signExtend (byte.setWidth 64) .w8)
    else fetchImmediate width
  let lhs ← readOperand destination width prefixes
  executeOperation modrm.operation lhs imm width (maskForWidth width) fun result =>
    writeOperand destination width result prefixes

/-- The accumulator forms of the eight operations, as `step` executes them: the immediate is
sign-extended with REX.W only, and the logical results are not masked. -/
def executeAluAccumulator (opcode : U8) (prefixes : Prefixes) : EmulatorProgram Unit := do
  let operation := (opcode >>> 3).toNat
  let form := (opcode &&& 7).toNat
  let width := if form = 4 then .w8 else operandWidth prefixes
  let lhs ← readGpr .rax width prefixes
  let imm ←
    if form = 4 then do
      let byte ← fetch8
      pure (byte.setWidth 64)
    else if width = .w16 then fetch16
    else do
      let value ← fetch32
      pure (if prefixes.rexW then signExtend value .w32 else value)
  executeOperation operation lhs imm width (BitVec.allOnes 64) fun result =>
    writeGpr .rax width result prefixes

/-! ## Increment and call group -/

/-- `execute_group_ff`. -/
def executeGroupFf (prefixes : Prefixes) : EmulatorProgram Unit := do
  let modrm ← fetchModrm prefixes
  let operand ← decodeRmOperand prefixes modrm
  match modrm.operation with
  | 0 | 1 => do
      let width := operandWidth prefixes
      let value ← readOperand operand width prefixes
      let cpu ← getCPU
      let result ← onCPU fun cpu =>
        if modrm.operation = 0 then cpu.add value 1 width false else cpu.sub value 1 width false
      modifyCPU fun after => after.setFlag CF (cpu.flag CF)
      writeOperand operand width result prefixes
  | 2 => do
      let target ← readOperand operand .w64 prefixes
      let cpu ← getCPU
      push64 cpu.decodePc 0
      modifyCPU fun cpu => (cpu.pushSyntheticReturn cpu.decodePc).setDecodePc target
  | 4 => do
      let target ← readOperand operand .w64 prefixes
      modifyCPU fun cpu => cpu.setDecodePc target
  | 6 => do
      let value ← readOperand operand .w64 prefixes
      let cpu ← getCPU
      push64 value (if cpu.currentTaint then BitVec.allOnes 64 else 0)
  | _ => unsupported "unsupported FF group operation"

/-! ## Unary and division group -/

/-- `m_gpr[RAX]` and `m_gpr[RDX]` after a widening multiplication, with its overflow. -/
def writeProduct (product : BitVec 128) (overflow : Bool) (width : Width)
    (prefixes : Prefixes) : EmulatorProgram Unit := do
  if width = .w8 then
    writeGpr .rax .w16 (product.setWidth 64) prefixes
  else
    writeGpr .rax width (product.setWidth 64) prefixes
    writeGpr .rdx width ((product >>> width.bits).setWidth 64) prefixes
  modifyCPU fun cpu => (cpu.setFlag CF overflow).setFlag OF overflow

/-- Unsigned multiplication. -/
def executeMul (operand : Operand) (width : Width) (prefixes : Prefixes) :
    EmulatorProgram Unit := do
  let value ← readOperand operand width prefixes
  let accumulator ← readGpr .rax width prefixes
  let product := accumulator.setWidth 128 * value.setWidth 128
  writeProduct product (product >>> width.bits != 0) width prefixes

/-- Signed multiplication. -/
def executeImul (operand : Operand) (width : Width) (prefixes : Prefixes) :
    EmulatorProgram Unit := do
  let value ← readOperand operand width prefixes
  let accumulator ← readGpr .rax width prefixes
  let product := signedOperand accumulator width * signedOperand value width
  let narrowed := signedOperand (BitVec.ofInt 64 product) width
  writeProduct (BitVec.ofInt 128 product) (product != narrowed) width prefixes

/-- Unsigned division. -/
def executeDiv (operand : Operand) (width : Width) (prefixes : Prefixes) :
    EmulatorProgram Unit := do
  let value ← readOperand operand width prefixes
  if value = 0 then guestFault "guest divide by zero"
  else if width = .w8 then
    let dividend ← readGpr .rax .w16 prefixes
    let quotient := dividend.toNat / value.toNat
    let remainder := dividend.toNat % value.toNat
    if quotient > 0xff then guestFault "guest divide overflow"
    else writeGpr .rax .w16 (BitVec.ofNat 64 (remainder * 256 + quotient)) prefixes
  else
    let high ← readGpr .rdx width prefixes
    let low ← readGpr .rax width prefixes
    let dividend := high.toNat * 2 ^ width.bits + low.toNat
    let quotient := dividend / value.toNat
    let remainder := dividend % value.toNat
    if quotient > (maskForWidth width).toNat then guestFault "guest divide overflow"
    else
      writeGpr .rax width (BitVec.ofNat 64 quotient) prefixes
      writeGpr .rdx width (BitVec.ofNat 64 remainder) prefixes

/-- Signed division.  The byte form narrows its quotient to 16 bits before the check, and the
most negative 128-bit dividend has no quotient by minus one. -/
def executeIdiv (operand : Operand) (width : Width) (prefixes : Prefixes) :
    EmulatorProgram Unit := do
  let value ← readOperand operand width prefixes
  let divisor := signedOperand value width
  if divisor = 0 then guestFault "guest divide by zero"
  else if width = .w8 then
    let accumulator ← readGpr .rax .w16 prefixes
    let dividend := (accumulator.setWidth 16).toInt
    let quotient := BitVec.ofInt 16 (dividend.tdiv divisor)
    let remainder := BitVec.ofInt 16 (dividend.tmod divisor)
    if quotient.toInt < -128 ∨ 127 < quotient.toInt then guestFault "guest divide overflow"
    else
      writeGpr .rax .w16 ((remainder.setWidth 8).setWidth 64 <<< 8 |||
        (quotient.setWidth 8).setWidth 64) prefixes
  else
    let high ← readGpr .rdx width prefixes
    let low ← readGpr .rax width prefixes
    let dividend := signedOperand high width * 2 ^ width.bits + low.toNat
    if dividend = -2 ^ 127 ∧ divisor = -1 then throw .hostFault
    else
      let quotient := dividend.tdiv divisor
      let remainder := dividend.tmod divisor
      if quotient < -2 ^ (width.bits - 1) ∨ 2 ^ (width.bits - 1) - 1 < quotient then
        guestFault "guest divide overflow"
      else
        writeGpr .rax width (BitVec.ofInt 64 quotient) prefixes
        writeGpr .rdx width (BitVec.ofInt 64 remainder) prefixes

/-- `execute_group_f6_f7`. -/
def executeGroupF6F7 (opcode : U8) (prefixes : Prefixes) : EmulatorProgram Unit := do
  let width := if opcode = 0xf6 then .w8 else operandWidth prefixes
  let modrm ← fetchModrm prefixes
  let operand ← decodeRmOperand prefixes modrm
  match modrm.operation with
  | 0 => do
      -- the immediate of TEST is not sign-extended
      let imm ←
        if width = .w8 then do
          let byte ← fetch8
          pure (byte.setWidth 64)
        else fetchInteger (if width = .w16 then 2 else 4)
      let value ← readOperand operand width prefixes
      modifyCPU fun cpu => cpu.setLogicFlags (value &&& imm) width
  | 2 => do
      let value ← readOperand operand width prefixes
      writeOperand operand width (~~~value) prefixes
  | 3 => do
      let value ← readOperand operand width prefixes
      let result ← onCPU fun cpu => cpu.sub 0 value width false
      writeOperand operand width result prefixes
  | 4 => executeMul operand width prefixes
  | 5 => executeImul operand width prefixes
  | 6 => executeDiv operand width prefixes
  | 7 => executeIdiv operand width prefixes
  | _ => unsupported "unsupported F6/F7 group operation"

/-! ## Shift group -/

/-- The value a shift or rotation writes. -/
def shiftResult (operation : Nat) (value : U64) (count : Nat) (width : Width) :
    EmulatorProgram U64 :=
  let mask := maskForWidth width
  match operation with
  | 0 => do
      let left ← hostShiftLeft value count
      let right ← hostShiftRight value (width.bits - count)
      return (left ||| right) &&& mask
  | 1 => do
      let right ← hostShiftRight value count
      let left ← hostShiftLeft value (width.bits - count)
      return (right ||| left) &&& mask
  | 4 | 6 => do
      let left ← hostShiftLeft value count
      return left &&& mask
  | 5 => do
      let right ← hostShiftRight value count
      return right &&& mask
  | 7 => do
      let right ← hostShiftRight (signExtend value width) count
      return right &&& mask
  | _ => unsupported "unsupported shift group operation"

/-- `execute_shift_group`: a count of zero leaves everything as it is. -/
def executeShiftGroup (opcode : U8) (prefixes : Prefixes) : EmulatorProgram Unit := do
  let width :=
    if opcode = 0xc0 ∨ opcode = 0xd0 ∨ opcode = 0xd2 then .w8 else operandWidth prefixes
  let modrm ← fetchModrm prefixes
  let operand ← decodeRmOperand prefixes modrm
  let count ←
    if opcode = 0xc0 ∨ opcode = 0xc1 then do
      let byte ← fetch8
      pure (byte &&& 0x3f).toNat
    else if opcode = 0xd0 ∨ opcode = 0xd1 then pure 1
    else do
      let cpu ← getCPU
      pure ((cpu.reg .rcx).setWidth 8 &&& (0x3f : U8)).toNat
  if count ≠ 0 then
    let value ← readOperand operand width prefixes
    let result ← shiftResult modrm.operation value count width
    modifyCPU fun cpu => cpu.setLogicFlags result width
    writeOperand operand width result prefixes

/-! ## String instructions -/

/-- The segment base that an override adds to an address. -/
def segmentBase (cpu : SoftCPU64) (prefixes : Prefixes) : U64 :=
  match prefixes.segment with
  | .fs => cpu.fsBase
  | .gs => cpu.gsBase
  | _ => 0

/-- One element of `MOVS`. -/
def moveElement (width : Nat) (step : U64) (prefixes : Prefixes) : EmulatorProgram Unit := do
  let cpu ← getCPU
  let source := cpu.reg .rsi + cpu.segmentBase prefixes
  onMMU (forOffsets (fun b => do
    let byte ← observe fun mmu => mmu.read8 (source + BitVec.ofNat 64 b)
    SoftMMU.write8 (cpu.reg .rdi + BitVec.ofNat 64 b) byte) width)
  modifyCPU fun cpu => cpu.setReg .rsi (cpu.reg .rsi + step)
  modifyCPU fun cpu => cpu.setReg .rdi (cpu.reg .rdi + step)

/-- One element of `STOS`. -/
def storeElement (width : Nat) (step : U64) : EmulatorProgram Unit := do
  let cpu ← getCPU
  onMMU (forOffsets (fun b =>
    SoftMMU.write8 (cpu.reg .rdi + BitVec.ofNat 64 b)
      ((cpu.reg .rax >>> (b * 8)).setWidth 8)) width)
  modifyCPU fun cpu => cpu.setReg .rdi (cpu.reg .rdi + step)

/-- `execute_string_instruction`: a repeated instruction runs over all its elements in one
step. -/
def executeStringInstruction (opcode : U8) (prefixes : Prefixes) : EmulatorProgram Unit := do
  let width :=
    if opcode = 0xa5 ∨ opcode = 0xab then
      if prefixes.rexW then 8 else if prefixes.operand16 then 2 else 4
    else 1
  let cpu ← getCPU
  let count := if prefixes.repz then (cpu.reg .rcx).toNat else 1
  let step := if cpu.flag DF then -BitVec.ofNat 64 width else BitVec.ofNat 64 width
  forOffsets (fun _ =>
    if opcode = 0xa4 ∨ opcode = 0xa5 then moveElement width step prefixes
    else storeElement width step) count
  if prefixes.repz then
    modifyCPU fun cpu => (cpu.setReg .rcx 0).setRegShadow .rcx 0

end SoftCPU64

end LUE
