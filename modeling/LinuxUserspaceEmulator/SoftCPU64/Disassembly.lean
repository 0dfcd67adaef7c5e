import LinuxUserspaceEmulator.SoftCPU64.Decode

/-!
# The disassembler of the tracer

`describe_current_instruction` decodes the instruction at the instruction pointer a second time,
with a cursor of its own over guest memory.  It gives a line of text that ends with the bytes the
cursor has passed over.  It executes nothing: the text of an instruction it does not know is its
opcode.
-/

namespace LUE

open StateExcept

/-! ## Names -/

/-- `register_name`. -/
def registerName (register : Register) : String :=
  ["rax", "rcx", "rdx", "rbx", "rsp", "rbp", "rsi", "rdi", "r8", "r9", "r10", "r11", "r12", "r13",
    "r14", "r15"].getD register.val ""

/-- `register_name_for_width`. -/
def registerNameForWidth (register : Register) (width : Nat) : String :=
  if width = 8 then
    ["al", "cl", "dl", "bl", "spl", "bpl", "sil", "dil", "r8b", "r9b", "r10b", "r11b", "r12b",
      "r13b", "r14b", "r15b"].getD register.val ""
  else if width = 16 then
    ["ax", "cx", "dx", "bx", "sp", "bp", "si", "di", "r8w", "r9w", "r10w", "r11w", "r12w", "r13w",
      "r14w", "r15w"].getD register.val ""
  else if width = 32 then
    ["eax", "ecx", "edx", "ebx", "esp", "ebp", "esi", "edi", "r8d", "r9d", "r10d", "r11d", "r12d",
      "r13d", "r14d", "r15d"].getD register.val ""
  else registerName register

/-- `condition_name`. -/
def conditionName (cc : U8) : String :=
  ["o", "no", "b", "ae", "e", "ne", "be", "a", "s", "ns", "p", "np", "l", "ge", "le", "g"].getD
    (cc &&& 15).toNat ""

/-- `reg_text`. -/
def regText (register : Register) (width : Nat) : String :=
  "%" ++ registerNameForWidth register width

/-! ## The cursor -/

/-- `Cursor`. -/
structure Cursor where
  mmu : SoftMMU
  pc : U64
  start : U64

/-- A piece of the disassembler, which moves the cursor and may fail to read. -/
abbrev CursorProgram :=
  EStateM Raise Cursor

namespace Cursor

/-- The cursor after so many bytes. -/
def advance (cursor : Cursor) (count : Nat) : Cursor :=
  { cursor with pc := cursor.pc + BitVec.ofNat 64 count }

/-- `read8`, and `read_i8` when its uses take the signed value. -/
def read8 : CursorProgram U8 := do
  let cursor ← get
  set (cursor.advance 1)
  observe fun _ => cursor.mmu.read8 cursor.pc

/-- `read16`, `read32` and `read64`. -/
def readInteger (count : Nat) : CursorProgram U64 := do
  let value ← observe fun cursor => cursor.mmu.readInteger cursor.pc count
  modify fun cursor => cursor.advance count
  return value

end Cursor

/-- `imm_text`: the negation of the smallest number overflows, which C++ leaves undefined. -/
def immText (value : Int) : CursorProgram String :=
  if value < 0 then
    if value = -2 ^ 63 then throw .hostFault
    else return "$-" ++ hex (BitVec.ofInt 64 (-value))
  else return "$" ++ hex (BitVec.ofInt 64 value)

/-- A signed byte. -/
def imm8Text : CursorProgram String := do
  let byte ← Cursor.read8
  immText byte.toInt

/-- An unsigned byte. -/
def byteText : CursorProgram String := do
  let byte ← Cursor.read8
  immText byte.toNat

/-- An unsigned number of 16 bits. -/
def imm16Text : CursorProgram String := do
  let value ← Cursor.readInteger 2
  immText (value.setWidth 16).toNat

/-- A signed number of 32 bits. -/
def imm32Text : CursorProgram String := do
  let value ← Cursor.readInteger 4
  immText (value.setWidth 32).toInt

/-- An immediate that goes with operands of the width. -/
def immediateText (width : Nat) : CursorProgram String :=
  if width = 8 then imm8Text else if width = 16 then imm16Text else imm32Text

/-- The target of a relative jump, relative to the byte after it. -/
def targetText (offset : U64) : CursorProgram String := do
  let cursor ← get
  return hex (cursor.pc + offset)

/-- The target of a jump by a signed byte. -/
def shortTargetText : CursorProgram String := do
  let offset ← Cursor.read8
  targetText (offset.signExtend 64)

/-- The target of a jump by a signed number of 32 bits. -/
def nearTargetText : CursorProgram String := do
  let offset ← Cursor.readInteger 4
  targetText ((offset.setWidth 32).signExtend 64)

/-! ## Prefixes -/

/-- `PrefixState`. -/
structure PrefixState where
  operand16 : Bool := false
  address32 : Bool := false
  repz : Bool := false
  repnz : Bool := false
  lock : Bool := false
  /-- The last segment override; `-1` of the source is `none`. -/
  segment : Option U8 := none
  rexPresent : Bool := false
  rex : U8 := 0
deriving DecidableEq, Repr

namespace PrefixState

variable (state : PrefixState)

def rexW : Bool :=
  state.rex &&& 0x8 != 0

def rexR : Bool :=
  state.rex &&& 0x4 != 0

def rexX : Bool :=
  state.rex &&& 0x2 != 0

def rexB : Bool :=
  state.rex &&& 0x1 != 0

/-- `operand_width`. -/
def operandWidth : Nat :=
  if state.rexW then 64 else if state.operand16 then 16 else 32

/-- The effect of one byte; `none` when it is no prefix. -/
def add (byte : U8) : Option PrefixState :=
  if byte = 0x66 then some { state with operand16 := true }
  else if byte = 0x67 then some { state with address32 := true }
  else if byte = 0xf0 then some { state with lock := true }
  else if byte = 0xf2 then some { state with repnz := true }
  else if byte = 0xf3 then some { state with repz := true }
  else if byte = 0x26 ∨ byte = 0x2e ∨ byte = 0x36 ∨ byte = 0x3e ∨ byte = 0x64 ∨ byte = 0x65 then
    some { state with segment := some byte }
  else if 0x40 ≤ byte ∧ byte ≤ 0x4f then
    some { state with rexPresent := true, rex := byte - 0x40 }
  else none

/-- The words that `with_prefixes` puts before the text. -/
def words : String :=
  (if state.lock then "lock " else "") ++ (if state.repz then "rep " else "") ++
    if state.repnz then "repnz " else ""

/-- The segment override of a memory operand. -/
def segmentText : String :=
  if state.segment = some 0x64 then "%fs:"
  else if state.segment = some 0x65 then "%gs:"
  else ""

end PrefixState

/-- The loop over the prefixes, over as many bytes as the fuel allows. -/
def describePrefixes : Nat → PrefixState → CursorProgram PrefixState
  | 0, _ => throw .divergence
  | fuel + 1, state => do
      let byte ← observe fun cursor => cursor.mmu.read8 cursor.pc
      match state.add byte with
      | some state =>
          modify fun cursor => cursor.advance 1
          describePrefixes fuel state
      | none => return state

/-! ## Operands -/

/-- `read_modrm`; `DecodedModRM` has the fields of `ModRM`. -/
def readModrm (state : PrefixState) : CursorProgram ModRM := do
  let byte ← Cursor.read8
  return {
    byte := byte
    mod := byte >>> 6 &&& 3
    reg := registerAt (byte >>> 3) state.rexR
    rm := registerAt byte state.rexB }

/-- The names in a memory operand, and its displacement. -/
structure AddressText where
  base : String := ""
  index : String := ""
  scale : Nat := 1
  displacement : Int := 0
  hasBase : Bool := true
  ripRelative : Bool := false

/-- The part of `memory_text` that reads the SIB byte. -/
def sibText (state : PrefixState) (modrm : ModRM) : CursorProgram AddressText := do
  let sib ← Cursor.read8
  let scale := 2 ^ (sib >>> 6 &&& 3).toNat
  let indexLow := sib >>> 3 &&& 7
  let baseLow := sib &&& 7
  let index := if indexLow ≠ 4 then registerName (registerAt indexLow state.rexX) else ""
  if modrm.mod = 0 ∧ baseLow = 5 then
    let displacement ← Cursor.readInteger 4
    return {
      index := index, scale := scale, hasBase := false
      displacement := (displacement.setWidth 32).toInt }
  else
    return { base := registerName (registerAt baseLow state.rexB), index := index, scale := scale }

/-- The part of `memory_text` before the displacement of the ModRM byte. -/
def addressText (state : PrefixState) (modrm : ModRM) : CursorProgram AddressText :=
  let rmLow := modrm.byte &&& 7
  if rmLow = 4 then sibText state modrm
  else if modrm.mod = 0 ∧ rmLow = 5 then do
    let displacement ← Cursor.readInteger 4
    return { displacement := (displacement.setWidth 32).toInt, ripRelative := true }
  else return { base := registerName (registerAt rmLow state.rexB) }

/-- The displacement that the mode of the ModRM byte asks for. -/
def displacementText (modrm : ModRM) (parts : AddressText) : CursorProgram Int :=
  if modrm.mod = 1 then do
    let byte ← Cursor.read8
    return byte.toInt
  else if modrm.mod = 2 then do
    let value ← Cursor.readInteger 4
    return (value.setWidth 32).toInt
  else return parts.displacement

/-- `memory_text`. -/
def memoryText (state : PrefixState) (modrm : ModRM) (trailingBytes : Nat) :
    CursorProgram String := do
  let parts ← addressText state modrm
  let displacement ← displacementText modrm parts
  let cursor ← get
  return state.segmentText ++
    if parts.ripRelative then
      hex (cursor.pc + BitVec.ofInt 64 displacement + BitVec.ofNat 64 trailingBytes) ++ "(%rip)"
    else if !parts.hasBase && parts.index.isEmpty then hex (BitVec.ofInt 64 displacement)
    else
      (if displacement < 0 then "-" ++ hex (BitVec.ofInt 64 (-displacement))
        else if displacement = 0 then "" else hex (BitVec.ofInt 64 displacement)) ++
      "(" ++ (if parts.base.isEmpty then "" else "%" ++ parts.base) ++
      (if parts.index.isEmpty then ""
        else ",%" ++ parts.index ++
          if parts.scale = 1 then "" else "," ++ toString parts.scale) ++ ")"

/-- `rm_text`. -/
def rmText (state : PrefixState) (modrm : ModRM) (width trailingBytes : Nat) :
    CursorProgram String :=
  if modrm.mod = 3 then return "%" ++ registerNameForWidth modrm.rm width
  else memoryText state modrm trailingBytes

/-! ## One-byte opcodes -/

/-- The mnemonics of the eight two-operand operations. -/
def aluNames : List String :=
  ["add", "or", "adc", "sbb", "and", "sub", "xor", "cmp"]

/-- `00` to `3D`. -/
def describeAlu (state : PrefixState) (opcode : U8) : CursorProgram String := do
  let name := aluNames.getD (opcode >>> 3).toNat ""
  let form := (opcode &&& 7).toNat
  let width := if form = 0 ∨ form = 2 ∨ form = 4 then 8 else state.operandWidth
  if form ≤ 3 then
    let modrm ← readModrm state
    let operand ← rmText state modrm width 0
    return name ++ " " ++
      if form = 0 ∨ form = 1 then regText modrm.reg width ++ ", " ++ operand
      else operand ++ ", " ++ regText modrm.reg width
  else
    let imm ← immediateText width
    return name ++ " " ++ imm ++ ", " ++ regText .rax width

/-- `70` to `7F`. -/
def describeJccShort (opcode : U8) : CursorProgram String := do
  let target ← shortTargetText
  return "j" ++ conditionName (opcode &&& 15) ++ " " ++ target

/-- `90` to `97`. -/
def describeXchgShort (state : PrefixState) (opcode : U8) : String :=
  if opcode = 0x90 ∧ state.rexB = false then "nop"
  else "xchg " ++ regText .rax 64 ++ ", " ++ regText (registerAt opcode state.rexB) 64

/-- `B0` to `B7`. -/
def describeMovByte (state : PrefixState) (opcode : U8) : CursorProgram String := do
  let imm ← byteText
  return "mov " ++ imm ++ ", " ++ regText (registerAt opcode state.rexB) 8

/-- `B8` to `BF`: the number is taken as signed when it has 64 bits. -/
def describeMovImmediate (state : PrefixState) (opcode : U8) : CursorProgram String := do
  let width := if state.rexW then 64 else if state.operand16 then 16 else 32
  let value ← Cursor.readInteger (width / 8)
  let imm ← immText value.toInt
  return "mov " ++ imm ++ ", " ++ regText (registerAt opcode state.rexB) width

/-- `69` and `6B`. -/
def describeImul (state : PrefixState) (opcode : U8) : CursorProgram String := do
  let modrm ← readModrm state
  let width := state.operandWidth
  let source ← rmText state modrm width (if opcode = 0x6b then 1 else 4)
  let imm ← if opcode = 0x6b then imm8Text else imm32Text
  return "imul " ++ imm ++ ", " ++ source ++ ", " ++ regText modrm.reg width

/-- `80`, `81` and `83`. -/
def describeAluImm (state : PrefixState) (opcode : U8) : CursorProgram String := do
  let modrm ← readModrm state
  let width := if opcode = 0x80 then 8 else state.operandWidth
  let isByte := opcode = 0x80 ∨ opcode = 0x83
  let operand ← rmText state modrm width (if isByte then 1 else if width = 16 then 2 else 4)
  let imm ← if isByte then imm8Text else if width = 16 then imm16Text else imm32Text
  return aluNames.getD modrm.operation "" ++ " " ++ imm ++ ", " ++ operand

/-- An instruction with a register and an operand of the width, in this order or the other. -/
def describeRegister (state : PrefixState) (name : String) (width operandWidth : Nat)
    (registerFirst : Bool) : CursorProgram String := do
  let modrm ← readModrm state
  let operand ← rmText state modrm operandWidth 0
  return name ++ " " ++
    if registerFirst then regText modrm.reg width ++ ", " ++ operand
    else operand ++ ", " ++ regText modrm.reg width

/-- `63`. -/
def describeMovsxd (state : PrefixState) : CursorProgram String :=
  describeRegister state "movsxd" state.operandWidth 32 false

/-- `84` and `85`. -/
def describeTest (state : PrefixState) (opcode : U8) : CursorProgram String :=
  let width := if opcode = 0x84 then 8 else state.operandWidth
  describeRegister state "test" width width true

/-- `87`. -/
def describeXchg (state : PrefixState) : CursorProgram String :=
  describeRegister state "xchg" state.operandWidth state.operandWidth true

/-- `88` to `8B`. -/
def describeMov (state : PrefixState) (opcode : U8) : CursorProgram String :=
  let width := if opcode = 0x88 ∨ opcode = 0x8a then 8 else state.operandWidth
  describeRegister state "mov" width width (opcode = 0x88 ∨ opcode = 0x89)

/-- `8D`. -/
def describeLea (state : PrefixState) : CursorProgram String :=
  describeRegister state "lea" state.operandWidth 64 false

/-- `8F`. -/
def describePopOperand (state : PrefixState) : CursorProgram String := do
  let modrm ← readModrm state
  let operand ← rmText state modrm 64 0
  return "pop " ++ operand

/-- `A8` and `A9`. -/
def describeTestAccumulator (state : PrefixState) (opcode : U8) : CursorProgram String :=
  if opcode = 0xa8 then do
    let imm ← byteText
    return "test " ++ imm ++ ", %al"
  else do
    let imm ← imm32Text
    return "test " ++ imm ++ ", " ++ regText .rax state.operandWidth

/-- `C0`, `C1` and `D0` to `D3`. -/
def describeShiftGroup (state : PrefixState) (opcode : U8) : CursorProgram String := do
  let modrm ← readModrm state
  let hasCount := opcode = 0xc0 ∨ opcode = 0xc1
  let operand ← rmText state modrm
    (if opcode = 0xc0 ∨ opcode = 0xd0 ∨ opcode = 0xd2 then 8 else state.operandWidth)
    (if hasCount then 1 else 0)
  if hasCount then
    let _ ← Cursor.read8
  return ["rol", "ror", "rcl", "rcr", "shl", "shr", "shl", "sar"].getD modrm.operation "" ++ " " ++
    operand

/-- `C6` and `C7`. -/
def describeMovOperandImmediate (state : PrefixState) (opcode : U8) : CursorProgram String := do
  let modrm ← readModrm state
  let width := if opcode = 0xc6 then 8 else state.operandWidth
  let operand ← rmText state modrm width (if width = 8 then 1 else if width = 16 then 2 else 4)
  let imm ← immediateText width
  return "mov " ++ imm ++ ", " ++ operand

/-- `E0` to `E3`. -/
def describeLoop (opcode : U8) : CursorProgram String := do
  let target ← shortTargetText
  return (if opcode = 0xe0 then "loopne" else if opcode = 0xe1 then "loope"
    else if opcode = 0xe2 then "loop" else "jrcxz") ++ " " ++ target

/-- `F6` and `F7`: the immediate of `TEST` counts for the address of the operand, and is not
read. -/
def describeGroupF6F7 (state : PrefixState) (opcode : U8) : CursorProgram String := do
  let modrm ← readModrm state
  let trailingBytes :=
    if modrm.operation ≤ 1 then
      if opcode = 0xf6 then 1 else if state.operandWidth = 16 then 2 else 4
    else 0
  let operand ← rmText state modrm (if opcode = 0xf6 then 8 else state.operandWidth) trailingBytes
  return ["test", "test", "not", "neg", "mul", "imul", "div", "idiv"].getD modrm.operation "" ++
    " " ++ operand

/-- `D8` to `DF`: the operand bytes are consumed so that the traced length is right. -/
def describeX87 (state : PrefixState) (opcode : U8) : CursorProgram String := do
  let modrm ← readModrm state
  let operand ←
    if modrm.mod ≠ 3 then memoryText state modrm 0
    else pure ("/" ++ hex (modrm.byte.setWidth 64) 2)
  return "x87." ++ hex (opcode.setWidth 64) 2 ++ " " ++ operand

/-- `FF`. -/
def describeGroupFf (state : PrefixState) : CursorProgram String := do
  let modrm ← readModrm state
  let operand ← rmText state modrm 64 0
  return ["inc", "dec", "call", "callf", "jmp", "jmpf", "push", "groupff"].getD modrm.operation ""
    ++ " " ++ operand

/-! ## Two-byte opcodes -/

/-- `0F 1F`. -/
def describeHint (state : PrefixState) : CursorProgram String := do
  let modrm ← readModrm state
  if modrm.mod ≠ 3 then
    let _ ← memoryText state modrm 0
  return "nop"

/-- The opcodes behind `0F` with an operand and a name of their own. -/
def namedOpcodes : List U8 :=
  [0xa3, 0xaf, 0xb0, 0xb1, 0xc0, 0xc1, 0xbc, 0xbd, 0xb6, 0xb7, 0xbe, 0xbf]

/-- The instructions of `namedOpcodes`. -/
def describeNamed (state : PrefixState) (op2 : U8) : CursorProgram String :=
  let name :=
    if op2 = 0xa3 then "bt" else if op2 = 0xaf then "imul"
    else if op2 = 0xb0 ∨ op2 = 0xb1 then "cmpxchg" else if op2 = 0xc0 ∨ op2 = 0xc1 then "xadd"
    else if op2 = 0xbc then "bsf" else if op2 = 0xbd then "bsr"
    else if op2 = 0xb6 ∨ op2 = 0xb7 then "movzx" else "movsx"
  describeRegister state name state.operandWidth state.operandWidth false

/-- `0F A4`, `A5`, `AC`, `AD`. -/
def describeDoubleShift (state : PrefixState) (op2 : U8) : CursorProgram String := do
  let modrm ← readModrm state
  let hasImm := op2 = 0xa4 ∨ op2 = 0xac
  let operand ← rmText state modrm state.operandWidth (if hasImm then 1 else 0)
  let count ← if hasImm then byteText else pure "%cl"
  return (if op2 = 0xa4 ∨ op2 = 0xa5 then "shld" else "shrd") ++ " " ++ count ++ ", " ++
    regText modrm.reg state.operandWidth ++ ", " ++ operand

/-- `0F BA`. -/
def describeGroupBa (state : PrefixState) : CursorProgram String := do
  let modrm ← readModrm state
  let operand ← rmText state modrm state.operandWidth 1
  let imm ← byteText
  return ["bt?", "bt?", "bt?", "bt?", "bt", "bts", "btr", "btc"].getD modrm.operation "" ++ " " ++
    imm ++ ", " ++ operand

/-- The SSE opcodes the disassembler knows. -/
def sseTextOpcodes : List U8 :=
  [0x10, 0x11, 0x12, 0x13, 0x14, 0x15, 0x16, 0x17, 0x28, 0x29, 0x2a, 0x2c, 0x2d, 0x2e, 0x2f, 0x51,
    0x54, 0x55, 0x56, 0x57, 0x58, 0x59, 0x5a, 0x5b, 0x5c, 0x5d, 0x5e, 0x5f, 0x6e, 0x6f, 0x7e, 0x7f,
    0xd6, 0xd7, 0xe6, 0xef, 0xdb, 0xdf, 0xeb, 0xd4, 0xf8, 0xf9, 0xfa, 0x60, 0x61, 0x62, 0x6c, 0x70,
    0x73, 0x74, 0x75, 0x76, 0xc6]

/-- The name of an SSE opcode. -/
def sseName (op2 : U8) : String :=
  if op2 = 0x57 ∨ op2 = 0xef then "pxor/xorps"
  else if op2 = 0x74 ∨ op2 = 0x75 ∨ op2 = 0x76 then "pcmpeq"
  else if op2 = 0xd7 then "pmovmskb"
  else if op2 = 0xdb then "pand"
  else if op2 = 0xeb then "por"
  else if op2 = 0xd4 then "paddq"
  else if op2 = 0xf8 ∨ op2 = 0xf9 ∨ op2 = 0xfa then "psub"
  else if op2 = 0xc6 then "shufpd"
  else if op2 = 0x58 then "add[ps]"
  else if op2 = 0x59 then "mul[ps]"
  else if op2 = 0x5c then "sub[ps]"
  else if op2 = 0x5e then "div[ps]"
  else if op2 = 0x51 then "sqrt[ps]"
  else if op2 = 0x5d then "min[ps]"
  else if op2 = 0x5f then "max[ps]"
  else if op2 = 0x54 ∨ op2 = 0x55 ∨ op2 = 0x56 then "andorps"
  else if op2 ∈ ([0x2a, 0x2c, 0x2d, 0x5a, 0x5b, 0xe6] : List U8) then "cvt"
  else if op2 = 0x2e ∨ op2 = 0x2f then "comis"
  else if op2 = 0x14 ∨ op2 = 0x15 then "unpckps"
  else "sse"

/-- The instructions of `sseTextOpcodes`. -/
def describeSse (state : PrefixState) (op2 : U8) : CursorProgram String := do
  let modrm ← readModrm state
  let hasSelector := op2 = 0x70 ∨ op2 = 0x73 ∨ op2 = 0xc6
  let operand ← rmText state modrm 128 (if hasSelector then 1 else 0)
  if hasSelector then
    let _ ← Cursor.read8
  return sseName op2 ++ " " ++ operand ++ ", %xmm" ++ toString modrm.reg.val

/-- The instructions behind `0F`. -/
def describeTwoByte (state : PrefixState) (op2 : U8) : CursorProgram String :=
  if op2 = 0x05 then return "syscall"
  else if 0x80 ≤ op2 ∧ op2 ≤ 0x8f then do
    let target ← nearTargetText
    return "j" ++ conditionName (op2 &&& 15) ++ " " ++ target
  else if 0x90 ≤ op2 ∧ op2 ≤ 0x9f then do
    let modrm ← readModrm state
    let operand ← rmText state modrm 8 0
    return "set" ++ conditionName (op2 &&& 15) ++ " " ++ operand
  else if 0x40 ≤ op2 ∧ op2 ≤ 0x4f then
    describeRegister state ("cmov" ++ conditionName (op2 &&& 15)) state.operandWidth
      state.operandWidth false
  else if op2 = 0x1f then describeHint state
  else if op2 = 0x31 then return "rdtsc"
  else if op2 = 0xa2 then return "cpuid"
  else if op2 ∈ namedOpcodes then describeNamed state op2
  else if op2 = 0xa4 ∨ op2 = 0xa5 ∨ op2 = 0xac ∨ op2 = 0xad then describeDoubleShift state op2
  else if op2 = 0xba then describeGroupBa state
  else if op2 ∈ sseTextOpcodes then describeSse state op2
  else return "0f " ++ hex (op2.setWidth 64) 2

/-! ## The whole instruction -/

/-- The switch over the remaining one-byte opcodes. -/
def describeOpcode (state : PrefixState) (opcode : U8) : CursorProgram String :=
  match opcode.toNat with
  | 0x0f => do
      let op2 ← Cursor.read8
      describeTwoByte state op2
  | 0x63 => describeMovsxd state
  | 0x69 | 0x6b => describeImul state opcode
  | 0x68 => do
      let imm ← imm32Text
      return "push " ++ imm
  | 0x6a => do
      let imm ← imm8Text
      return "push " ++ imm
  | 0x80 | 0x81 | 0x83 => describeAluImm state opcode
  | 0x84 | 0x85 => describeTest state opcode
  | 0x87 => describeXchg state
  | 0x88 | 0x89 | 0x8a | 0x8b => describeMov state opcode
  | 0x8d => describeLea state
  | 0x8f => describePopOperand state
  | 0x98 => return if state.rexW then "cdqe" else "cwde"
  | 0x99 => return if state.rexW then "cqo" else "cdq"
  | 0xa4 => return "movsb"
  | 0xa5 => return "movs"
  | 0xaa => return "stosb"
  | 0xab => return "stos"
  | 0xa8 | 0xa9 => describeTestAccumulator state opcode
  | 0xc0 | 0xc1 | 0xd0 | 0xd1 | 0xd2 | 0xd3 => describeShiftGroup state opcode
  | 0xc2 => do
      let imm ← imm16Text
      return "ret " ++ imm
  | 0xc3 => return "ret"
  | 0xc6 | 0xc7 => describeMovOperandImmediate state opcode
  | 0xc9 => return "leave"
  | 0xe0 | 0xe1 | 0xe2 | 0xe3 => describeLoop opcode
  | 0xe8 => do
      let target ← nearTargetText
      return "call " ++ target
  | 0xe9 => do
      let target ← nearTargetText
      return "jmp " ++ target
  | 0xeb => do
      let target ← shortTargetText
      return "jmp " ++ target
  | 0xf6 | 0xf7 => describeGroupF6F7 state opcode
  | 0xd8 | 0xd9 | 0xda | 0xdb | 0xdc | 0xdd | 0xde | 0xdf => describeX87 state opcode
  | 0xfc => return "cld"
  | 0xfd => return "std"
  | 0xf8 => return "clc"
  | 0xff => describeGroupFf state
  | _ => return "db " ++ hex (opcode.setWidth 64) 2

/-- The instruction of a one-byte opcode. -/
def describeOneByte (state : PrefixState) (opcode : U8) : CursorProgram String :=
  if opcode ≤ 0x3d ∧ opcode &&& 7 ≤ 5 then describeAlu state opcode
  else if 0x50 ≤ opcode ∧ opcode ≤ 0x57 then
    return "push " ++ regText (registerAt opcode state.rexB) 64
  else if 0x58 ≤ opcode ∧ opcode ≤ 0x5f then
    return "pop " ++ regText (registerAt opcode state.rexB) 64
  else if 0x70 ≤ opcode ∧ opcode ≤ 0x7f then describeJccShort opcode
  else if 0x90 ≤ opcode ∧ opcode ≤ 0x97 then return describeXchgShort state opcode
  else if 0xb0 ≤ opcode ∧ opcode ≤ 0xb7 then describeMovByte state opcode
  else if 0xb8 ≤ opcode ∧ opcode ≤ 0xbf then describeMovImmediate state opcode
  else describeOpcode state opcode

/-- The text of the instruction at the cursor, with the words of its prefixes. -/
def describeInstruction : CursorProgram String := do
  let state ← describePrefixes (2 ^ 64) {}
  let opcode ← Cursor.read8
  let text ← describeOneByte state opcode
  return state.words ++ text

/-- The text of an instruction and the bytes that are printed behind it. -/
structure InstructionText where
  text : String
  bytes : List U8
deriving DecidableEq

/-- The printed line, with the bytes of `format_hex_bytes`. -/
def InstructionText.line (description : InstructionText) : String :=
  description.text ++ "    ; bytes: " ++
    String.intercalate " " (description.bytes.map fun byte => hex (byte.setWidth 64) 2)

namespace SoftCPU64

/-- `describe_current_instruction`: the bytes are read once more, from the instruction pointer to
the cursor. -/
def describeCurrentInstruction (cpu : SoftCPU64) (mmu : SoftMMU) :
    Except Raise InstructionText :=
  match describeInstruction ⟨mmu, cpu.rip, cpu.rip⟩ with
  | .ok text cursor => do
      let bytes ← (List.range (cursor.pc - cursor.start).toNat).mapM fun i =>
        mmu.read8 (cursor.start + BitVec.ofNat 64 i)
      return ⟨text, bytes⟩
  | .error e _ => .error e

end SoftCPU64

end LUE
