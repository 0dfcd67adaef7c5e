import LinuxUserspaceEmulator.SoftCPU64.Sse

/-!
# SSE floating point

`execute_sse_float`: moves, conversions, comparisons and arithmetic on singles and doubles.
The legacy prefix selects the data kind: F3 a scalar single, F2 a scalar double, 66 packed
doubles, none packed singles.
-/

namespace LUE

open StateExcept

namespace Xmm

def loadF32 (v : Xmm) (lane : Nat) : U32 :=
  (v.load (lane * 4) 4).setWidth 32

def loadF64 (v : Xmm) (lane : Nat) : U64 :=
  v.load (lane * 8) 8

def storeF32 (v : Xmm) (lane : Nat) (value : U32) : Xmm :=
  v.store (lane * 4) 4 (value.setWidth 64)

def storeF64 (v : Xmm) (lane : Nat) (value : U64) : Xmm :=
  v.store (lane * 8) 8 value

end Xmm

namespace SoftCPU64

variable (float : HostFloat)

/-- `set_eflags_from_float_compare`: ZF, PF and CF of an ordered comparison. -/
def setEflagsFromFloatCompare (a b : LongDouble) (cpu : SoftCPU64) : SoftCPU64 :=
  let set (zero parity carry : Bool) (cpu : SoftCPU64) :=
    ((cpu.setFlag ZF zero).setFlag PF parity).setFlag CF carry
  let cpu := ((cpu.setFlag OF false).setFlag SF false).setFlag AF false
  let cpu :=
    if float.double.isNaN (float.extendedToDouble a) ||
        float.double.isNaN (float.extendedToDouble b) then set true true true cpu
    else if float.extended.lt b a then set false false false cpu
    else if float.extended.lt a b then set false false true cpu
    else set true false false cpu
  { cpu with flagsTainted := false }

/-- The data kind of an SSE instruction. -/
structure SseKind where
  isScalar : Bool
  isDouble : Bool
deriving DecidableEq, Repr

namespace SseKind

def ofPrefixes (prefixes : Prefixes) : SseKind where
  isScalar := prefixes.repz || prefixes.repnz
  isDouble := prefixes.operand16 || prefixes.repnz

def lanes (kind : SseKind) : Nat :=
  if kind.isScalar then 1 else if kind.isDouble then 2 else 4

/-- The bytes of one element. -/
def elementSize (kind : SseKind) : Nat :=
  if kind.isDouble then 8 else 4

/-- The bytes of a memory operand. -/
def sourceBytes (kind : SseKind) : Nat :=
  if kind.isScalar then kind.elementSize else 16

end SseKind

/-- `load_scalar`: the low single or double of an operand as a host long double. -/
def loadScalar (operand : Operand) (isDouble : Bool) : EmulatorProgram LongDouble :=
  match operand with
  | .register register => do
      let cpu ← getCPU
      let source := cpu.xmm register
      return if isDouble then float.doubleToExtended (source.loadF64 0)
        else float.singleToExtended (source.loadF32 0)
  | .memory decoded => do
      let address ← effectiveAddress decoded
      if isDouble then
        let bits ← readMMU fun mmu => mmu.read64 address
        return float.doubleToExtended bits
      else
        let bits ← readMMU fun mmu => mmu.read32 address
        return float.singleToExtended (bits.setWidth 32)

/-! ## Moves -/

/-- `0F 10`: a scalar load from memory clears the rest of the register. -/
def sseLoad (kind : SseKind) (reg : Register) (operand : Operand) : EmulatorProgram Unit :=
  if kind.isScalar then do
    let source ← readXmmLow operand kind.elementSize
    modifyXmm reg fun destination =>
      (if operand.isRegister then destination else Xmm.zero).copyBytes source 0 0
        kind.elementSize
  else do
    let value ← readXmmFromOperand operand
    modifyXmm reg fun _ => value

/-- `0F 11`. -/
def sseStore (kind : SseKind) (reg : Register) (operand : Operand) : EmulatorProgram Unit := do
  let cpu ← getCPU
  let source := cpu.xmm reg
  if kind.isScalar then
    match operand with
    | .register register =>
        modifyXmm register fun destination =>
          destination.copyBytes source 0 0 kind.elementSize
    | .memory decoded => storeXmmBytes decoded source 0 kind.elementSize
  else writeXmmToOperand operand source

/-- `0F 12`: `MOVDDUP` with F2, else `MOVHLPS` between registers or a low load. -/
def sseLoadLow (prefixes : Prefixes) (reg : Register) (operand : Operand) :
    EmulatorProgram Unit := do
  let source ← readXmmLow operand 8
  modifyXmm reg fun destination =>
    if prefixes.repnz then (destination.copyBytes source 0 0 8).copyBytes source 8 0 8
    else if operand.isRegister then destination.copyBytes source 0 8 8
    else destination.copyBytes source 0 0 8

/-- `0F 16`: `MOVLHPS` between registers or a high load. -/
def sseLoadHigh (reg : Register) (operand : Operand) : EmulatorProgram Unit := do
  let source ← readXmmLow operand 8
  modifyXmm reg fun destination => destination.copyBytes source 8 0 8

/-- `0F 13` and `0F 17`: a quadword of the register to memory.  Of a register operand the code
takes the address field, which is zero. -/
def sseStoreQuadword (reg : Register) (operand : Operand) (offset : Nat) :
    EmulatorProgram Unit := do
  let cpu ← getCPU
  match operand with
  | .memory decoded => storeXmmBytes decoded (cpu.xmm reg) offset 8
  | .register _ => storeXmmBytes {} (cpu.xmm reg) offset 8

/-! ## Arithmetic and conversions -/

/-- The arithmetic operation of an opcode on one format. -/
def sseArithmetic {w : Nat} (ops : FloatOps w) (opcode : U8) (a b : BitVec w) : BitVec w :=
  match opcode.toNat with
  | 0x51 => ops.sqrt b
  | 0x58 => ops.add a b
  | 0x59 => ops.mul a b
  | 0x5c => ops.sub a b
  | 0x5d => if ops.lt a b then a else b
  | 0x5e => ops.div a b
  | 0x5f => if ops.lt b a then a else b
  | _ => 0

/-- The arithmetic instructions, lane by lane. -/
def sseArithmeticLanes (kind : SseKind) (opcode : U8) (source destination : Xmm) : Xmm :=
  (List.range kind.lanes).foldl
    (fun v lane =>
      if kind.isDouble then
        v.storeF64 lane (sseArithmetic float.double opcode (v.loadF64 lane) (source.loadF64 lane))
      else
        v.storeF32 lane (sseArithmetic float.single opcode (v.loadF32 lane) (source.loadF32 lane)))
    destination

/-- `0F 54` to `0F 56`: the logical operations on bytes. -/
def sseLogic (opcode : U8) (l r : U8) : U8 :=
  if opcode = 0x54 then l &&& r else if opcode = 0x55 then ~~~l &&& r else l ||| r

/-- `0F 2A`: integer to scalar. -/
def sseFromInteger (prefixes : Prefixes) (reg : Register) (operand : Operand) :
    EmulatorProgram Unit := do
  let width := if prefixes.rexW then .w64 else .w32
  let value ← readOperand operand width prefixes
  let integer := (signExtend value width).toInt
  modifyXmm reg fun destination =>
    if prefixes.repnz then destination.storeF64 0 (float.intToDouble integer)
    else destination.storeF32 0 (float.intToSingle integer)

/-- `0F 2C` truncates and `0F 2D` rounds a scalar to an integer. -/
def sseToInteger (opcode : U8) (prefixes : Prefixes) (reg : Register) (operand : Operand) :
    EmulatorProgram Unit := do
  let width := if prefixes.rexW then .w64 else .w32
  let value ← loadScalar float operand prefixes.repnz
  let result := if opcode = 0x2c then float.extendedToI64 value else float.extendedRintI64 value
  writeGpr reg width result prefixes

/-- `0F 2E` and `0F 2F`. -/
def sseCompare (prefixes : Prefixes) (reg : Register) (operand : Operand) :
    EmulatorProgram Unit := do
  let cpu ← getCPU
  let destination := cpu.xmm reg
  let a :=
    if prefixes.operand16 then float.doubleToExtended (destination.loadF64 0)
    else float.singleToExtended (destination.loadF32 0)
  let b ← loadScalar float operand prefixes.operand16
  modifyCPU fun cpu => cpu.setEflagsFromFloatCompare float a b

/-- `0F 5A`: conversions between singles and doubles. -/
def sseConvertFormat (prefixes : Prefixes) (reg : Register) (operand : Operand) :
    EmulatorProgram Unit := do
  if prefixes.repz then
    let value ← loadScalar float operand false
    modifyXmm reg fun destination => destination.storeF64 0 (float.extendedToDouble value)
  else if prefixes.repnz then
    let value ← loadScalar float operand true
    modifyXmm reg fun destination => destination.storeF32 0 (float.extendedToSingle value)
  else
    let source ← readXmmFromOperand operand
    modifyXmm reg fun destination =>
      if prefixes.operand16 then
        (Xmm.zero.storeF32 0 (float.doubleToSingle (source.loadF64 0))).storeF32 1
          (float.doubleToSingle (source.loadF64 1))
      else
        (destination.storeF64 0 (float.singleToDouble (source.loadF32 0))).storeF64 1
          (float.singleToDouble (source.loadF32 1))

/-- `0F 5B`: conversions between four integers and four singles. -/
def sseConvertSingles (prefixes : Prefixes) (source destination : Xmm) : Xmm :=
  (List.range 4).foldl
    (fun v lane =>
      let value := source.loadF32 lane
      if !prefixes.operand16 && !prefixes.repz then
        v.storeF32 lane (float.intToSingle value.toInt)
      else if prefixes.repz then v.storeF32 lane (float.singleToI32 value)
      else v.storeF32 lane (float.singleRintI32 value))
    destination

/-- `0F E6`: conversions between two integers and two doubles. -/
def sseConvertDoubles (prefixes : Prefixes) (source destination : Xmm) : Xmm :=
  if prefixes.repz then
    (destination.storeF64 0 (float.intToDouble (source.loadF32 0).toInt)).storeF64 1
      (float.intToDouble (source.loadF32 1).toInt)
  else
    let convert (value : U64) :=
      if prefixes.operand16 then float.doubleToI32 value else float.doubleRintI32 value
    (Xmm.zero.storeF32 0 (convert (source.loadF64 0))).storeF32 1 (convert (source.loadF64 1))

/-- `execute_sse_float`. -/
def executeSseFloat (opcode : U8) (prefixes : Prefixes) : EmulatorProgram Unit := do
  let kind := SseKind.ofPrefixes prefixes
  let modrm ← fetchModrm prefixes
  let operand ← decodeRmOperand prefixes modrm
  match opcode.toNat with
  | 0x10 => sseLoad kind modrm.reg operand
  | 0x11 => sseStore kind modrm.reg operand
  | 0x12 => sseLoadLow prefixes modrm.reg operand
  | 0x13 => sseStoreQuadword modrm.reg operand 0
  | 0x14 | 0x15 => do
      let source ← readXmmFromOperand operand
      modifyXmm modrm.reg fun destination =>
        destination.unpack source kind.elementSize (if opcode = 0x15 then 8 else 0)
  | 0x16 => sseLoadHigh modrm.reg operand
  | 0x17 => sseStoreQuadword modrm.reg operand 8
  | 0x2a => sseFromInteger float prefixes modrm.reg operand
  | 0x2c | 0x2d => sseToInteger float opcode prefixes modrm.reg operand
  | 0x2e | 0x2f => sseCompare float prefixes modrm.reg operand
  | 0x54 | 0x55 | 0x56 => do
      let source ← readXmmFromOperand operand
      modifyXmm modrm.reg fun destination => destination.mapBytes source (sseLogic opcode)
  | 0x51 | 0x58 | 0x59 | 0x5c | 0x5d | 0x5e | 0x5f => do
      let source ← readXmmLow operand kind.sourceBytes
      modifyXmm modrm.reg (sseArithmeticLanes float kind opcode source)
  | 0x5a => sseConvertFormat float prefixes modrm.reg operand
  | 0x5b => do
      let source ← readXmmFromOperand operand
      modifyXmm modrm.reg (sseConvertSingles float prefixes source)
  | 0xe6 => do
      let source ← readXmmFromOperand operand
      modifyXmm modrm.reg (sseConvertDoubles float prefixes source)
  | _ => unsupported ("unsupported SSE float opcode 0F " ++ hex (opcode.setWidth 64) 2)

/-- The opcodes that `execute_0f` hands to `execute_sse_float`. -/
def isSseFloat (opcode : U8) : Bool :=
  opcode ∈ ([0x10, 0x11, 0x12, 0x13, 0x14, 0x15, 0x16, 0x17, 0x2a, 0x2c, 0x2d, 0x2e, 0x2f,
    0x51, 0x54, 0x55, 0x56, 0x58, 0x59, 0x5a, 0x5b, 0x5c, 0x5d, 0x5e, 0x5f, 0xe6] : List U8)

end SoftCPU64

end LUE
