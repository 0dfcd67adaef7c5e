import LinuxUserspaceEmulator.SoftCPU64.Decode
import LinuxUserspaceEmulator.SoftCPU64.HostFloat

/-!
# SSE instructions

The packed integer operations are functions on the bytes of XMM registers; the floating
point operations run lane by lane on the host's arithmetic.  Memory operands are plain
reads and writes of bytes.
-/

namespace LUE

open StateExcept

/-! ## Bytes and lanes of a register -/

namespace Xmm

/-- The byte at an index that is below sixteen. -/
def byte (v : Xmm) (i : Nat) : U8 :=
  v (Fin.ofNat 16 i)

/-- Little-endian bytes as an integer. -/
def load (v : Xmm) (offset : Nat) : Nat → U64
  | 0 => 0
  | count + 1 => load v offset count ||| (v.byte (offset + count)).setWidth 64 <<< (count * 8)

/-- Replace some bytes by those of an integer. -/
def store (v : Xmm) (offset count : Nat) (value : U64) : Xmm := fun i =>
  if offset ≤ i.val ∧ i.val < offset + count then
    (value >>> ((i.val - offset) * 8)).setWidth 8
  else v i

/-- `fill(0)`. -/
def zero : Xmm := fun _ => 0

/-- Replace some bytes by the bytes of another register from an offset on. -/
def copyBytes (v source : Xmm) (offset sourceOffset count : Nat) : Xmm := fun i =>
  if offset ≤ i.val ∧ i.val < offset + count then source.byte (sourceOffset + (i.val - offset))
  else v i

/-- Interleave elements of two registers from an offset on. -/
def unpack (lhs rhs : Xmm) (elementSize startOffset : Nat) : Xmm := fun i =>
  let lane := i.val / (elementSize * 2)
  let within := i.val % (elementSize * 2)
  if within < elementSize then lhs.byte (startOffset + lane * elementSize + within)
  else rhs.byte (startOffset + lane * elementSize + (within - elementSize))

/-- Four doublewords picked by a selector byte. -/
def shuffle (input : Xmm) (selector : U8) : Xmm := fun i =>
  input.byte ((selector >>> (i.val / 4 * 2) &&& 3).toNat * 4 + i.val % 4)

/-- One quadword of each operand, picked by the two low bits of a selector byte. -/
def shufflePd (lhs rhs : Xmm) (selector : U8) : Xmm := fun i =>
  if i.val < 8 then lhs.byte ((selector &&& 1).toNat * 8 + i.val)
  else rhs.byte ((selector >>> 1 &&& 1).toNat * 8 + (i.val - 8))

/-- An operation on the elements of two registers. -/
def mapLanes (lhs rhs : Xmm) (elementSize : Nat) (f : U64 → U64 → U64) : Xmm := fun i =>
  let offset := i.val / elementSize * elementSize
  (f (lhs.load offset elementSize) (rhs.load offset elementSize) >>>
    ((i.val - offset) * 8)).setWidth 8

/-- An operation on the bytes of two registers. -/
def mapBytes (lhs rhs : Xmm) (f : U8 → U8 → U8) : Xmm := fun i =>
  f (lhs i) (rhs i)

/-- The sign-extended value of an element of so many bytes. -/
def signedElement (value : U64) (elementSize : Nat) : Int :=
  (value.setWidth (elementSize * 8)).toInt

/-- A byte shift of the whole register, right or left. -/
def shiftBytes (original : Xmm) (right : Bool) (count : Nat) : Xmm := fun i =>
  if right then if i.val + count < 16 then original.byte (i.val + count) else 0
  else if count ≤ i.val then original.byte (i.val - count) else 0

/-- The sign bits of the bytes. -/
def signMask (input : Xmm) : U64 :=
  (List.range 16).foldl
    (fun mask i => if input.byte i &&& 0x80 ≠ 0 then mask ||| (1 : U64) <<< i else mask) 0

end Xmm

namespace SoftCPU64

/-- Assign to an XMM register. -/
def setXmm (cpu : SoftCPU64) (register : Register) (value : Xmm) : SoftCPU64 :=
  { cpu with xmm := Function.update cpu.xmm register value }

/-- Consecutive plain byte reads. -/
def readBytes (address : U64) (count : Nat) (mmu : SoftMMU) : Except Raise (List U8) :=
  (List.range count).mapM fun i => mmu.read8 (address + BitVec.ofNat 64 i)

/-- Bytes as the low part of a register. -/
def xmmOfBytes (bytes : List U8) : Xmm := fun i =>
  bytes.getD i.val 0

/-- The low bytes of an operand: all of a register, or so many bytes of memory. -/
def readXmmLow (operand : Operand) (count : Nat) : EmulatorProgram Xmm :=
  match operand with
  | .register register => do
      let cpu ← getCPU
      return cpu.xmm register
  | .memory decoded => do
      let address ← effectiveAddress decoded
      let bytes ← readMMU (readBytes address count)
      return xmmOfBytes bytes

/-- `read_xmm_from_operand`. -/
def readXmmFromOperand (operand : Operand) : EmulatorProgram Xmm :=
  readXmmLow operand 16

/-- Write some bytes of a register to memory. -/
def storeXmmBytes (decoded : DecodedAddress) (value : Xmm) (offset count : Nat) :
    EmulatorProgram Unit := do
  let address ← effectiveAddress decoded
  onMMU (forOffsets (fun i =>
    SoftMMU.write8 (address + BitVec.ofNat 64 i) (value.byte (offset + i))) count)

/-- `write_xmm_to_operand`. -/
def writeXmmToOperand (operand : Operand) (value : Xmm) : EmulatorProgram Unit :=
  match operand with
  | .register register => modifyCPU fun cpu => cpu.setXmm register value
  | .memory decoded => storeXmmBytes decoded value 0 16

/-- Change the destination register of an instruction. -/
def modifyXmm (register : Register) (f : Xmm → Xmm) : EmulatorProgram Unit :=
  modifyCPU fun cpu => cpu.setXmm register (f (cpu.xmm register))

/-! ## Packed integer instructions -/

/-- The shape of the packed operations: ModRM, source, and a function of destination and
source. -/
def packedOperation (prefixes : Prefixes) (f : Xmm → Xmm → Xmm) : EmulatorProgram Unit := do
  let modrm ← fetchModrm prefixes
  let source ← decodeRmOperand prefixes modrm
  let rhs ← readXmmFromOperand source
  modifyXmm modrm.reg fun lhs => f lhs rhs

/-- The same with a selector byte after the operand. -/
def selectedOperation (prefixes : Prefixes) (f : U8 → Xmm → Xmm → Xmm) :
    EmulatorProgram Unit := do
  let modrm ← fetchModrm prefixes
  let source ← decodeRmOperand prefixes modrm
  let selector ← fetch8
  let rhs ← readXmmFromOperand source
  modifyXmm modrm.reg fun lhs => f selector lhs rhs

/-- The element size that the two low bits of an opcode select. -/
def elementSizeOf (low : Nat) : Nat :=
  if low = 0 then 1 else if low = 1 then 2 else 4

/-- The stores of a whole register. -/
def storeXmm (prefixes : Prefixes) : EmulatorProgram Unit := do
  let modrm ← fetchModrm prefixes
  let destination ← decodeRmOperand prefixes modrm
  let cpu ← getCPU
  writeXmmToOperand destination (cpu.xmm modrm.reg)

/-- `MOVD` and `MOVQ` from a general register or memory. -/
def loadXmmFromGpr (prefixes : Prefixes) : EmulatorProgram Unit := do
  let modrm ← fetchModrm prefixes
  let source ← decodeRmOperand prefixes modrm
  let width := if prefixes.rexW then .w64 else .w32
  let value ← readOperand source width prefixes
  modifyXmm modrm.reg fun _ => Xmm.zero.store 0 width.bytes value

/-- `0F 7E`: `MOVQ` between XMM registers, or `MOVD` and `MOVQ` to a general register. -/
def executeMovq (prefixes : Prefixes) : EmulatorProgram Unit := do
  let modrm ← fetchModrm prefixes
  let operand ← decodeRmOperand prefixes modrm
  if prefixes.repz then
    let value ← readOperand operand .w64 prefixes
    modifyXmm modrm.reg fun _ => Xmm.zero.store 0 8 value
  else
    let width := if prefixes.rexW then .w64 else .w32
    let cpu ← getCPU
    writeOperand operand width ((cpu.xmm modrm.reg).load 0 width.bytes) prefixes

/-- `0F D6`: store the low quadword. -/
def storeLowQuadword (prefixes : Prefixes) : EmulatorProgram Unit := do
  let modrm ← fetchModrm prefixes
  let destination ← decodeRmOperand prefixes modrm
  let cpu ← getCPU
  writeOperand destination .w64 ((cpu.xmm modrm.reg).load 0 8) prefixes

/-- `0F D7`. -/
def executePmovmskb (prefixes : Prefixes) : EmulatorProgram Unit := do
  let modrm ← fetchModrm prefixes
  let source ← decodeRmOperand prefixes modrm
  let input ← readXmmFromOperand source
  writeGpr modrm.reg .w32 input.signMask prefixes

/-- `0F 73`: byte shifts of a register. -/
def executeByteShift (prefixes : Prefixes) : EmulatorProgram Unit := do
  let modrm ← fetchModrm prefixes
  let operand ← decodeRmOperand prefixes modrm
  let count ← fetch8
  match operand with
  | .memory _ => unsupported "SSE byte-shift with memory destination"
  | .register register =>
      if modrm.operation = 3 ∨ modrm.operation = 7 then
        modifyXmm register fun original =>
          original.shiftBytes (modrm.operation = 3) count.toNat
      else unsupported "unsupported 0F 73 SSE shift operation"

/-- The packed integer opcodes after `0F`; `none` when the opcode is not one of them. -/
def packedInteger (opcode : U8) (prefixes : Prefixes) : Option (EmulatorProgram Unit) :=
  let subtract (elementSize : Nat) := packedOperation prefixes fun lhs rhs =>
    lhs.mapLanes rhs elementSize fun l r => l - r
  let equal (elementSize : Nat) := packedOperation prefixes fun lhs rhs =>
    lhs.mapLanes rhs elementSize fun l r => if l = r then BitVec.allOnes 64 else 0
  let greater (elementSize : Nat) := packedOperation prefixes fun lhs rhs =>
    lhs.mapLanes rhs elementSize fun l r =>
      if Xmm.signedElement l elementSize > Xmm.signedElement r elementSize then
        BitVec.allOnes 64
      else 0
  match opcode.toNat with
  | 0x28 | 0x6f => some (packedOperation prefixes fun _ rhs => rhs)
  | 0x29 | 0x7f | 0xe7 => some (storeXmm prefixes)
  | 0x57 | 0xef => some (packedOperation prefixes fun lhs rhs =>
      lhs.mapBytes rhs fun l r => l ^^^ r)
  | 0x60 | 0x61 | 0x62 | 0x68 | 0x69 | 0x6a => some (packedOperation prefixes fun lhs rhs =>
      lhs.unpack rhs (elementSizeOf (opcode &&& 3).toNat)
        (if opcode &&& 8 ≠ 0 then 8 else 0))
  | 0x64 => some (greater 1)
  | 0x65 => some (greater 2)
  | 0x66 => some (greater 4)
  | 0x6c => some (packedOperation prefixes fun lhs rhs => lhs.unpack rhs 8 0)
  | 0x6d => some (packedOperation prefixes fun lhs rhs => lhs.unpack rhs 8 8)
  | 0x6e => some (loadXmmFromGpr prefixes)
  | 0x70 => some (selectedOperation prefixes fun selector _ rhs => rhs.shuffle selector)
  | 0x73 => some (executeByteShift prefixes)
  | 0x74 => some (equal 1)
  | 0x75 => some (equal 2)
  | 0x76 => some (equal 4)
  | 0x7e => some (executeMovq prefixes)
  | 0xc6 => some (selectedOperation prefixes fun selector lhs rhs => lhs.shufflePd rhs selector)
  | 0xd4 => some (packedOperation prefixes fun lhs rhs =>
      lhs.mapLanes rhs 8 fun l r => l + r)
  | 0xd6 => some (storeLowQuadword prefixes)
  | 0xd7 => some (executePmovmskb prefixes)
  | 0xda => some (packedOperation prefixes fun lhs rhs =>
      lhs.mapBytes rhs fun l r => if r < l then r else l)
  | 0xdb => some (packedOperation prefixes fun lhs rhs =>
      lhs.mapBytes rhs fun l r => l &&& r)
  | 0xde => some (packedOperation prefixes fun lhs rhs =>
      lhs.mapBytes rhs fun l r => if l < r then r else l)
  | 0xdf => some (packedOperation prefixes fun lhs rhs =>
      lhs.mapBytes rhs fun l r => ~~~l &&& r)
  | 0xeb => some (packedOperation prefixes fun lhs rhs =>
      lhs.mapBytes rhs fun l r => l ||| r)
  | 0xf8 => some (subtract 1)
  | 0xf9 => some (subtract 2)
  | 0xfa => some (subtract 4)
  | _ => none

end SoftCPU64

end LUE
