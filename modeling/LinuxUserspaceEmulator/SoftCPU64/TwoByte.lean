import LinuxUserspaceEmulator.LinuxSyscalls.Dispatch
import LinuxUserspaceEmulator.SoftCPU64.Integer
import LinuxUserspaceEmulator.SoftCPU64.SseFloat

/-!
# Two-byte instructions

The instructions after the byte `0F`: conditional jumps, sets and moves, `SYSCALL`, the
bit instructions, double shifts, the locked read-modify-write instructions, extensions and
scans, and the SSE opcodes, which are executed by their own definitions.
-/

namespace LUE

open StateExcept

namespace SoftCPU64

/-! ## Conditional instructions -/

/-- `0F 80` to `0F 8F`. -/
def executeJccNear (opcode : U8) : EmulatorProgram Unit := do
  let rel ← fetchI32
  let take ← branchCondition (opcode &&& 0xf)
  if take then
    modifyCPU fun cpu => cpu.setDecodePc (cpu.decodePc + rel)

/-- Instructions that compute with the flags take over their taint. -/
def taintFromFlags : EmulatorProgram Unit :=
  modifyCPU fun cpu => if cpu.flagsTainted then cpu.taint else cpu

/-- `0F 90` to `0F 9F`. -/
def executeSetcc (opcode : U8) (prefixes : Prefixes) : EmulatorProgram Unit := do
  let modrm ← fetchModrm prefixes
  let operand ← decodeRmOperand prefixes modrm
  taintFromFlags
  let cpu ← getCPU
  writeOperand operand .w8 (if cpu.condition (opcode &&& 0xf) then 1 else 0) prefixes

/-- `0F 40` to `0F 4F`: the source is read when the condition holds. -/
def executeCmovcc (opcode : U8) (prefixes : Prefixes) : EmulatorProgram Unit := do
  let modrm ← fetchModrm prefixes
  let source ← decodeRmOperand prefixes modrm
  let width := operandWidth prefixes
  taintFromFlags
  let cpu ← getCPU
  if cpu.condition (opcode &&& 0xf) then
    let value ← readOperand source width prefixes
    writeGpr modrm.reg width value prefixes

/-- The bytes of a value in reverse order. -/
def swapBytes (value : U64) (bytes : Nat) : U64 :=
  (List.range bytes).foldl
    (fun swapped i => swapped ||| (value >>> (i * 8) &&& 0xff) <<< ((bytes - 1 - i) * 8)) 0

/-- `0F C8` to `0F CF`. -/
def executeBswap (opcode : U8) (prefixes : Prefixes) : EmulatorProgram Unit := do
  let register := registerAt (opcode - 0xc8) prefixes.rexB
  let width := if prefixes.rexW then .w64 else .w32
  let value ← readGpr register width prefixes
  writeGpr register width (swapBytes value width.bytes) prefixes

/-! ## SYSCALL -/

/-- Assign to a general register and clear its shadow. -/
def setInitialized (cpu : SoftCPU64) (register : Register) (value : U64) : SoftCPU64 :=
  (cpu.setReg register value).setRegShadow register 0

/-- `0F 05`.  After `rt_sigreturn` the restored context is left as it is. -/
def executeSyscall (host : Host) : EmulatorProgram Unit := do
  let cpu ← getCPU
  let nextRip := cpu.decodePc
  modifyCPU fun cpu => (cpu.setInitialized .rcx nextRip).setInitialized .r11 cpu.rflags
  let result ← handleSyscall host (cpu.reg .rax)
  let restored ← Emulator.consumeRestoredContextFromSigreturn
  if restored then
    modifyCPU fun cpu => cpu.setDecodePc cpu.rip
  else
    modifyCPU fun cpu => (cpu.setInitialized .rax result).setDecodePc nextRip

/-! ## Hints, counters, identification -/

/-- The multi-byte `NOP` and the prefetch hints: the operand bytes are consumed. -/
def executeHint (prefixes : Prefixes) : EmulatorProgram Unit := do
  let modrm ← fetchModrm prefixes
  if !modrm.isRegister then
    let _ ← decodeMemoryAddress prefixes modrm
    return ()

/-- `0F 31`. -/
def executeRdtsc (now : U64) : EmulatorProgram Unit :=
  modifyCPU fun cpu =>
    (cpu.setInitialized .rax (now &&& 0xffffffff)).setInitialized .rdx (now >>> 32)

/-- `0F A2`. -/
def executeCpuid : EmulatorProgram Unit :=
  modifyCPU fun cpu =>
    let leaf := cpu.reg .rax &&& 0xffffffff
    let (rax, rbx, rcx, rdx) : U64 × U64 × U64 × U64 :=
      if leaf = 0 then (1, 0x756e6547, 0x6c65746e, 0x49656e69)
      else if leaf = 1 then (0x663, 0, 1, 0x7808111)
      else if leaf = 0x80000000 then (0x80000001, 0, 0, 0)
      else if leaf = 0x80000001 then (0, 0, 1, 0x20100800)
      else (0, 0, 0, 0)
    (((cpu.setInitialized .rax rax).setInitialized .rbx rbx).setInitialized .rcx
      rcx).setInitialized .rdx rdx

/-! ## Saving and restoring the SSE state -/

/-- `FXSAVE`: the area is cleared, then MXCSR, its mask and the XMM registers are stored.
The x87 state is not. -/
def fxsave (address : U64) : EmulatorProgram Unit := do
  let cpu ← getCPU
  onMMU do
    forOffsets (fun i => SoftMMU.write8 (address + BitVec.ofNat 64 i) 0) 512
    SoftMMU.write32 (address + 24) (cpu.mxcsr.setWidth 64)
    SoftMMU.write32 (address + 28) 0xffff
    forOffsets (fun i =>
      SoftMMU.write8 (address + 160 + BitVec.ofNat 64 i)
        ((cpu.xmm (Fin.ofNat 16 (i / 16))).byte (i % 16))) 256

/-- One XMM register of `FXRSTOR`, byte by byte. -/
def fxrstorRegister (address : U64) (register : Nat) : EmulatorProgram Unit :=
  forOffsets (fun b => do
    let byte ← readMMU fun mmu =>
      mmu.read8 (address + 160 + BitVec.ofNat 64 (register * 16 + b))
    modifyXmm (Fin.ofNat 16 register) fun v => Function.update v (Fin.ofNat 16 b) byte) 16

/-- `LDMXCSR`. -/
def loadMxcsr (address : U64) : EmulatorProgram Unit := do
  let value ← readMMU fun mmu => mmu.read32 address
  modifyCPU fun cpu => { cpu with mxcsr := value.setWidth 32 }

/-- `FXRSTOR`. -/
def fxrstor (address : U64) : EmulatorProgram Unit := do
  loadMxcsr (address + 24)
  forOffsets (fxrstorRegister address) 16

/-- `0F AE`: the fences have no effect. -/
def executeGroupAe (prefixes : Prefixes) : EmulatorProgram Unit := do
  let modrm ← fetchModrm prefixes
  if modrm.isRegister then
    if 5 ≤ modrm.operation then return ()
    else unsupported "unsupported register 0F AE operation"
  else
    let decoded ← decodeMemoryAddress prefixes modrm
    let address ← effectiveAddress decoded
    match modrm.operation with
    | 0 => fxsave address
    | 1 => fxrstor address
    | 2 => do
        let cpu ← getCPU
        onMMU (SoftMMU.write32 address (cpu.mxcsr.setWidth 64))
    | 3 => loadMxcsr address
    | _ => unsupported "unsupported 0F AE operation"

/-! ## Bit instructions -/

/-- The operations of the bit instructions: test, set, reset, complement. -/
inductive BitOperation where
  | test
  | set
  | reset
  | complement
deriving DecidableEq, Repr

/-- The word after a bit operation. -/
def BitOperation.apply (operation : BitOperation) (value bit : U64) : U64 :=
  match operation with
  | test => value
  | set => value ||| bit
  | reset => value &&& ~~~bit
  | complement => value ^^^ bit

/-- The flag of a bit instruction. -/
def setBitFlag (value : U64) (index : Nat) (cpu : SoftCPU64) : SoftCPU64 :=
  { cpu.setFlag CF (value >>> index &&& 1 != 0) with flagsTainted := cpu.currentTaint }

/-- `0F BA`: the bit offset is an immediate modulo the width. -/
def executeGroupBa (prefixes : Prefixes) : EmulatorProgram Unit := do
  let modrm ← fetchModrm prefixes
  let bitBase ← decodeRmOperand prefixes modrm
  let width := operandWidth prefixes
  let immediate ← fetch8
  let index := immediate.toNat % width.bits
  let value ← readOperand bitBase width prefixes
  modifyCPU (setBitFlag value index)
  let operation : BitOperation := match modrm.operation with
    | 5 => .set
    | 6 => .reset
    | 7 => .complement
    | _ => .test
  let newValue := operation.apply value ((1 : U64) <<< index)
  if modrm.operation ≠ 4 ∧ newValue ≠ value then
    writeOperand bitBase width newValue prefixes

/-- The operation of a bit instruction with a register offset. -/
def bitOperationOf (opcode : U8) : BitOperation :=
  if opcode = 0xab then .set
  else if opcode = 0xb3 then .reset
  else if opcode = 0xbb then .complement
  else .test

/-- `0F A3`, `AB`, `B3`, `BB`: a memory operand is a bit string around its address, and the
word of the bit is read without shadow. -/
def executeBitString (opcode : U8) (prefixes : Prefixes) : EmulatorProgram Unit := do
  let operation := bitOperationOf opcode
  let modrm ← fetchModrm prefixes
  let bitBase ← decodeRmOperand prefixes modrm
  let width := operandWidth prefixes
  let bitOffset ← readGpr modrm.reg width prefixes
  match bitBase with
  | .register _ => do
      let value ← readOperand bitBase width prefixes
      let index := bitOffset.toNat % width.bits
      modifyCPU (setBitFlag value index)
      let newValue := operation.apply value ((1 : U64) <<< index)
      if operation ≠ .test ∧ newValue ≠ value then
        writeOperand bitBase width newValue prefixes
  | .memory decoded => do
      -- division truncates, and a negative remainder moves to the word before
      let signedOffset := signedOperand bitOffset width
      let quotient := signedOffset.tdiv width.bits
      let remainder := signedOffset.tmod width.bits
      let elementOffset := if remainder < 0 then quotient - 1 else quotient
      let index := (if remainder < 0 then remainder + width.bits else remainder).toNat
      let base ← effectiveAddress decoded
      let address := base + BitVec.ofInt 64 (elementOffset * width.bytes)
      let value ← readMMU fun mmu => mmu.readInteger address width.bytes
      modifyCPU (setBitFlag value index)
      let newValue := operation.apply value ((1 : U64) <<< index)
      if operation ≠ .test ∧ newValue ≠ value then
        onMMU (SoftMMU.writeInteger address newValue width.bytes)

/-- `0F BC` and `0F BD`: the position of the lowest or highest set bit. -/
def executeBitScan (opcode : U8) (prefixes : Prefixes) : EmulatorProgram Unit := do
  let modrm ← fetchModrm prefixes
  let source ← decodeRmOperand prefixes modrm
  let width := operandWidth prefixes
  let read ← readOperand source width prefixes
  let value := read &&& maskForWidth width
  let positions := List.range width.bits
  let found :=
    if opcode = 0xbc then positions.find? value.getLsbD
    else positions.reverse.find? value.getLsbD
  match found with
  | none => modifyCPU fun cpu => cpu.setFlag ZF true
  | some index => do
      modifyCPU fun cpu => cpu.setFlag ZF false
      writeGpr modrm.reg width (BitVec.ofNat 64 index) prefixes
  modifyCPU fun cpu => { cpu with flagsTainted := cpu.currentTaint }

/-! ## Double shifts, products, exchanges -/

/-- `0F A4`, `A5`, `AC`, `AD`: `SHLD` and `SHRD`. -/
def executeDoubleShift (opcode : U8) (prefixes : Prefixes) : EmulatorProgram Unit := do
  let modrm ← fetchModrm prefixes
  let destination ← decodeRmOperand prefixes modrm
  let width := operandWidth prefixes
  let mask := maskForWidth width
  let destRead ← readOperand destination width prefixes
  let srcRead ← readGpr modrm.reg width prefixes
  let destValue := destRead &&& mask
  let srcValue := srcRead &&& mask
  let countRead ←
    if opcode = 0xa4 ∨ opcode = 0xac then do
      let byte ← fetch8
      pure byte.toNat
    else do
      let value ← readGpr .rcx .w8 prefixes
      pure value.toNat
  let count := countRead % width.bits
  if count ≠ 0 then
    let isLeft := opcode = 0xa4 ∨ opcode = 0xa5
    let carry :=
      if isLeft then destValue.getLsbD (width.bits - count) else destValue.getLsbD (count - 1)
    let result :=
      if isLeft then (destValue <<< count ||| srcValue >>> (width.bits - count)) &&& mask
      else (destValue >>> count ||| srcValue <<< (width.bits - count)) &&& mask
    writeOperand destination width result prefixes
    modifyCPU fun cpu => cpu.setLogicFlags result width
    modifyCPU fun cpu => { cpu.setFlag CF carry with flagsTainted := cpu.currentTaint }

/-- `0F AF`: the product of two host integers that may overflow is undefined. -/
def executeImulRegister (prefixes : Prefixes) : EmulatorProgram Unit := do
  let modrm ← fetchModrm prefixes
  let source ← decodeRmOperand prefixes modrm
  let width := operandWidth prefixes
  let lhsRead ← readGpr modrm.reg width prefixes
  let rhsRead ← readOperand source width prefixes
  let product := signedOperand lhsRead width * signedOperand rhsRead width
  if product < -2 ^ 63 ∨ 2 ^ 63 ≤ product then throw .hostFault
  else writeGpr modrm.reg width (BitVec.ofInt 64 product) prefixes

/-- `0F B0` and `0F B1`. -/
def executeCmpxchg (opcode : U8) (prefixes : Prefixes) : EmulatorProgram Unit := do
  let width := if opcode = 0xb0 then .w8 else operandWidth prefixes
  let modrm ← fetchModrm prefixes
  let destination ← decodeRmOperand prefixes modrm
  let destValue ← readOperand destination width prefixes
  let accumulator ← readGpr .rax width prefixes
  if destValue &&& maskForWidth width = accumulator &&& maskForWidth width then
    let value ← readGpr modrm.reg width prefixes
    writeOperand destination width value prefixes
    modifyCPU fun cpu => cpu.setFlag ZF true
  else
    writeGpr .rax width destValue prefixes
    modifyCPU fun cpu => cpu.setFlag ZF false
  modifyCPU fun cpu => { cpu with flagsTainted := cpu.currentTaint }

/-- `0F C0` and `0F C1`. -/
def executeXadd (opcode : U8) (prefixes : Prefixes) : EmulatorProgram Unit := do
  let width := if opcode = 0xc0 then .w8 else operandWidth prefixes
  let modrm ← fetchModrm prefixes
  let destination ← decodeRmOperand prefixes modrm
  let destValue ← readOperand destination width prefixes
  let regValue ← readGpr modrm.reg width prefixes
  let sum ← onCPU fun cpu => cpu.add destValue regValue width false
  writeGpr modrm.reg width destValue prefixes
  writeOperand destination width sum prefixes

/-- `0F B6`, `B7`, `BE`, `BF`: zero and sign extension. -/
def executeExtend (opcode : U8) (prefixes : Prefixes) : EmulatorProgram Unit := do
  let modrm ← fetchModrm prefixes
  let source ← decodeRmOperand prefixes modrm
  let sourceWidth : Width := if opcode = 0xb6 ∨ opcode = 0xbe then .w8 else .w16
  let value ← readOperand source sourceWidth prefixes
  let value := if opcode = 0xbe ∨ opcode = 0xbf then signExtend value sourceWidth else value
  writeGpr modrm.reg (operandWidth prefixes) value prefixes

/-- `0F C3`. -/
def executeMovnti (prefixes : Prefixes) : EmulatorProgram Unit := do
  let modrm ← fetchModrm prefixes
  let destination ← decodeRmOperand prefixes modrm
  let width := operandWidth prefixes
  let value ← readGpr modrm.reg width prefixes
  writeOperand destination width value prefixes

/-! ## Dispatch -/

/-- The SSE opcodes of `execute_0f`. -/
def executeSse (host : Host) (opcode : U8) (prefixes : Prefixes) : EmulatorProgram Unit :=
  match packedInteger opcode prefixes with
  | some program => program
  | none =>
      if isSseFloat opcode then executeSseFloat host.float opcode prefixes
      else unsupported ("unsupported 0F opcode " ++ hex (opcode.setWidth 64) 2)

/-- `execute_0f` after its opcode. -/
def executeTwoByte (host : Host) (opcode : U8) (prefixes : Prefixes) : EmulatorProgram Unit :=
  if 0x80 ≤ opcode ∧ opcode ≤ 0x8f then executeJccNear opcode
  else if 0x90 ≤ opcode ∧ opcode ≤ 0x9f then executeSetcc opcode prefixes
  else if 0x40 ≤ opcode ∧ opcode ≤ 0x4f then executeCmovcc opcode prefixes
  else if 0xc8 ≤ opcode ∧ opcode ≤ 0xcf then executeBswap opcode prefixes
  else
    match opcode.toNat with
    | 0x05 => executeSyscall host
    | 0x18 | 0x19 | 0x1a | 0x1b | 0x1c | 0x1d | 0x1f => executeHint prefixes
    | 0x1e => do
        let _ ← fetch8
        return ()
    | 0x31 => executeRdtsc host.steadyClock
    | 0xa2 => executeCpuid
    | 0xa3 | 0xab | 0xb3 | 0xbb => executeBitString opcode prefixes
    | 0xa4 | 0xa5 | 0xac | 0xad => executeDoubleShift opcode prefixes
    | 0xae => executeGroupAe prefixes
    | 0xaf => executeImulRegister prefixes
    | 0xb0 | 0xb1 => executeCmpxchg opcode prefixes
    | 0xb6 | 0xb7 | 0xbe | 0xbf => executeExtend opcode prefixes
    | 0xba => executeGroupBa prefixes
    | 0xbc | 0xbd => executeBitScan opcode prefixes
    | 0xc0 | 0xc1 => executeXadd opcode prefixes
    | 0xc3 => executeMovnti prefixes
    | _ => executeSse host opcode prefixes

section TwoByte

variable {host : Host} {opcode : U8} {prefixes : Prefixes}

theorem executeTwoByte_of_jccNear (h : 0x80 ≤ opcode ∧ opcode ≤ 0x8f) :
    executeTwoByte host opcode prefixes = executeJccNear opcode := by
  rw [executeTwoByte, if_pos h]

theorem executeTwoByte_of_setcc (h : 0x90 ≤ opcode ∧ opcode ≤ 0x9f) :
    executeTwoByte host opcode prefixes = executeSetcc opcode prefixes := by
  have hjcc : ¬(0x80 ≤ opcode ∧ opcode ≤ 0x8f) := by bv_omega
  rw [executeTwoByte, if_neg hjcc, if_pos h]

theorem executeTwoByte_of_cmovcc (h : 0x40 ≤ opcode ∧ opcode ≤ 0x4f) :
    executeTwoByte host opcode prefixes = executeCmovcc opcode prefixes := by
  have hjcc : ¬(0x80 ≤ opcode ∧ opcode ≤ 0x8f) := by bv_omega
  have hsetcc : ¬(0x90 ≤ opcode ∧ opcode ≤ 0x9f) := by bv_omega
  rw [executeTwoByte, if_neg hjcc, if_neg hsetcc, if_pos h]

theorem executeTwoByte_of_bswap (h : 0xc8 ≤ opcode ∧ opcode ≤ 0xcf) :
    executeTwoByte host opcode prefixes = executeBswap opcode prefixes := by
  have hjcc : ¬(0x80 ≤ opcode ∧ opcode ≤ 0x8f) := by bv_omega
  have hsetcc : ¬(0x90 ≤ opcode ∧ opcode ≤ 0x9f) := by bv_omega
  have hcmovcc : ¬(0x40 ≤ opcode ∧ opcode ≤ 0x4f) := by bv_omega
  rw [executeTwoByte, if_neg hjcc, if_neg hsetcc, if_neg hcmovcc, if_pos h]

end TwoByte

/-- `execute_0f`. -/
def execute0f (host : Host) (prefixes : Prefixes) : EmulatorProgram Unit := do
  let opcode ← fetch8
  executeTwoByte host opcode prefixes

end SoftCPU64

end LUE
