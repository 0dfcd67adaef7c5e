import LinuxUserspaceEmulator.Emulator.State
import LinuxUserspaceEmulator.SoftCPU64.Flags
import LinuxUserspaceEmulator.SoftMMU.GuestBytes

/-!
# Instruction decoding and operands

Fetching instruction bytes, prefixes, ModRM and SIB bytes, and reading and writing the
operands they name.  Fetches are plain reads at the decoder position; operand accesses go
through the shadow memory and collect the taint of the running instruction.

Main results:

- Theorems `fetch8_of_read` and `fetchInteger_of_bytes`: fetching readable bytes.
- Theorem `readPrefixesLoop_of_opcode`: prefix decoding stops at the first other byte.
- Theorem `readPrefixesLoop_eq_ok`: prefix decoding only moves the decoder.
-/

namespace LUE

open StateExcept

/-! ## Prefixes and ModRM -/

/-- The segment override of an instruction: none, one without effect, or FS or GS. -/
inductive Segment where
  | unset
  | legacy (byte : U8)
  | fs
  | gs
deriving DecidableEq, Repr

/-- `Prefixes`. -/
structure Prefixes where
  operand16 : Bool := false
  address32 : Bool := false
  repz : Bool := false
  repnz : Bool := false
  lock : Bool := false
  segment : Segment := .unset
  rexPresent : Bool := false
  rex : U8 := 0
deriving DecidableEq, Repr

namespace Prefixes

variable (prefixes : Prefixes)

def rexW : Bool :=
  prefixes.rex &&& 0x8 != 0

/-- `rex_r`, as the bit that adds eight to a register number. -/
def rexR : Bool :=
  prefixes.rex &&& 0x4 != 0

def rexX : Bool :=
  prefixes.rex &&& 0x2 != 0

def rexB : Bool :=
  prefixes.rex &&& 0x1 != 0

end Prefixes

/-- A register number from its three low bits and its REX bit. -/
def registerAt (low : U8) (rexBit : Bool) : Register :=
  ⟨low.toNat % 8 + if rexBit then 8 else 0, by split <;> omega⟩

/-- `ModRM`: the byte and its fields, with the REX bits in the register numbers. -/
structure ModRM where
  byte : U8 := 0
  mod : U8 := 0
  reg : Register := 0
  rm : Register := 0
deriving DecidableEq, Repr

namespace ModRM

def isRegister (modrm : ModRM) : Bool :=
  modrm.mod == 3

/-- The middle field as it selects the operation of a group. -/
def operation (modrm : ModRM) : Nat :=
  (modrm.byte >>> 3 &&& 7).toNat

end ModRM

/-- `DecodedAddress`. -/
structure DecodedAddress where
  address : U64 := 0
  ripRelative : Bool := false
  ripDisplacement : U64 := 0
deriving DecidableEq, Repr

/-- `Operand`. -/
inductive Operand where
  | register (reg : Register)
  | memory (address : DecodedAddress)
deriving DecidableEq, Repr

namespace Operand

def isRegister : Operand → Bool
  | register _ => true
  | memory _ => false

end Operand

namespace SoftCPU64

/-! ## Diagnostics -/

/-- `warn_uninitialized_read`: one report for an instruction. -/
def warnUninitializedRead (cpu : SoftCPU64) : SoftCPU64 :=
  if cpu.instructionStart ∈ cpu.reportedUninitReads then cpu
  else { cpu with reportedUninitReads := cpu.instructionStart :: cpu.reportedUninitReads }

/-- `warn_uninitialized_pointer`. -/
def warnUninitializedPointer (cpu : SoftCPU64) : SoftCPU64 :=
  if cpu.instructionStart ∈ cpu.reportedUninitPointers then cpu
  else
    { cpu with reportedUninitPointers := cpu.instructionStart :: cpu.reportedUninitPointers }

/-- `warn_uninitialized_branch`. -/
def warnUninitializedBranch (cpu : SoftCPU64) : SoftCPU64 :=
  if cpu.instructionStart ∈ cpu.reportedUninitBranches then cpu
  else
    { cpu with reportedUninitBranches := cpu.instructionStart :: cpu.reportedUninitBranches }

/-- `m_current_taint = true`. -/
def taint (cpu : SoftCPU64) : SoftCPU64 :=
  { cpu with currentTaint := true }

/-- `unsupported`: the message, the address and up to fifteen bytes of the instruction. -/
def unsupported {α : Type} (message : String) : EmulatorProgram α := do
  let cpu ← getCPU
  let last := stdMin cpu.decodePc (cpu.instructionStart + 15)
  let bytes ← readMMU fun mmu =>
    (List.range (last.toNat - cpu.instructionStart.toNat)).mapM fun i =>
      mmu.read8 (cpu.instructionStart + BitVec.ofNat 64 i)
  throw (.emulatorError (message ++ " at " ++ hex cpu.instructionStart 12 ++ " bytes:" ++
    String.join (bytes.map fun byte => " " ++ hex (byte.setWidth 64) 2)))

/-! ## Fetching -/

def setDecodePc (cpu : SoftCPU64) (value : U64) : SoftCPU64 :=
  { cpu with decodePc := value }

/-- `fetch8`. -/
def fetch8 : EmulatorProgram U8 := do
  let cpu ← getCPU
  modifyCPU fun cpu => cpu.setDecodePc (cpu.decodePc + 1)
  readMMU fun mmu => mmu.read8 cpu.decodePc

/-- `fetch16`, `fetch32` and `fetch64`: a little-endian immediate of so many bytes. -/
def fetchInteger (count : Nat) : EmulatorProgram U64 := do
  let cpu ← getCPU
  let value ← readMMU fun mmu => mmu.readInteger cpu.decodePc count
  modifyCPU fun cpu => cpu.setDecodePc (cpu.decodePc + BitVec.ofNat 64 count)
  return value

def fetch16 : EmulatorProgram U64 :=
  fetchInteger 2

def fetch32 : EmulatorProgram U64 :=
  fetchInteger 4

def fetch64 : EmulatorProgram U64 :=
  fetchInteger 8

/-- `fetch_i8`, extended to 64 bits as its uses extend it. -/
def fetchI8 : EmulatorProgram U64 := do
  let byte ← fetch8
  return byte.signExtend 64

/-- `fetch_i32`, extended to 64 bits as its uses extend it. -/
def fetchI32 : EmulatorProgram U64 := do
  let value ← fetch32
  return (value.setWidth 32).signExtend 64

/-- The effect of one byte on the prefixes; `none` when it is no prefix. -/
def addPrefix (byte : U8) (prefixes : Prefixes) : Option Prefixes :=
  if byte = 0x66 then some { prefixes with operand16 := true }
  else if byte = 0x67 then some { prefixes with address32 := true }
  else if byte = 0x26 ∨ byte = 0x2e ∨ byte = 0x36 ∨ byte = 0x3e then
    some { prefixes with segment := .legacy byte }
  else if byte = 0xf0 then some { prefixes with lock := true }
  else if byte = 0xf2 then some { prefixes with repnz := true }
  else if byte = 0xf3 then some { prefixes with repz := true }
  else if byte = 0x64 then some { prefixes with segment := .fs }
  else if byte = 0x65 then some { prefixes with segment := .gs }
  else if 0x40 ≤ byte ∧ byte ≤ 0x4f then
    some { prefixes with rexPresent := true, rex := byte - 0x40 }
  else none

/-- The loop of `read_prefixes`, over as many bytes as the fuel allows. -/
def readPrefixesLoop : Nat → Prefixes → EmulatorProgram Prefixes
  | 0, _ => throw .divergence
  | fuel + 1, prefixes => do
      let cpu ← getCPU
      let byte ← readMMU fun mmu => mmu.read8 cpu.decodePc
      match addPrefix byte prefixes with
      | some prefixes =>
          modifyCPU fun cpu => cpu.setDecodePc (cpu.decodePc + 1)
          readPrefixesLoop fuel prefixes
      | none => return prefixes

/-- `read_prefixes`.  After 2^64 prefixes the decoder is back where it started, so the loop
never ends. -/
def readPrefixes : EmulatorProgram Prefixes :=
  readPrefixesLoop (2 ^ 64) {}

/-- The emulator with the decoder at another position. -/
def atDecodePc (emulator : Emulator) (pc : U64) : Emulator :=
  emulator.withCPU (emulator.cpu.setDecodePc pc)

section Fetching

variable {emulator emulator' : Emulator} {byte : U8} {prefixes prefixes' : Prefixes}

theorem fetch8_of_read (h : emulator.mmu.read8 emulator.cpu.decodePc = .ok byte) :
    fetch8 emulator = .ok byte (atDecodePc emulator (emulator.cpu.decodePc + 1)) := by
  rw [fetch8, bind_of_ok (getCPU_apply emulator), bind_of_ok (modifyCPU_apply _ emulator)]
  exact readMMU_eq_ok_iff.mpr ⟨h, rfl⟩

/-- A fetch that returns has moved the decoder. -/
theorem fetch8_eq_ok (h : fetch8 emulator = .ok byte emulator') :
    emulator' = atDecodePc emulator (emulator.cpu.decodePc + 1) := by
  rw [fetch8, bind_of_ok (getCPU_apply emulator), bind_of_ok (modifyCPU_apply _ emulator)] at h
  exact (readMMU_eq_ok_iff.mp h).2.symm

theorem fetchInteger_of_bytes {bytes : Nat → U8} {count : Nat}
    (h : ∀ i < count,
      emulator.mmu.read8 (emulator.cpu.decodePc + BitVec.ofNat 64 i) = .ok (bytes i)) :
    fetchInteger count emulator = .ok (LittleEndian.assemble bytes count)
      (atDecodePc emulator (emulator.cpu.decodePc + BitVec.ofNat 64 count)) := by
  rw [fetchInteger, bind_of_ok (getCPU_apply emulator),
    bind_of_ok (readMMU_eq_ok_iff.mpr ⟨SoftMMU.readInteger_of_bytes h, rfl⟩)]
  rfl

/-- A prefix byte moves the decoder to the next byte. -/
theorem readPrefixesLoop_of_prefixByte (hread : emulator.mmu.read8 emulator.cpu.decodePc = .ok byte)
    (hprefixed : addPrefix byte prefixes = some prefixes') (fuel : Nat) :
    readPrefixesLoop (fuel + 1) prefixes emulator =
      readPrefixesLoop fuel prefixes'
        (atDecodePc emulator (emulator.cpu.decodePc + 1)) := by
  rw [readPrefixesLoop, bind_of_ok (getCPU_apply emulator),
    bind_of_ok (readMMU_eq_ok_iff.mpr ⟨hread, rfl⟩), hprefixed]
  rfl

/-- Any other byte ends the prefixes. -/
theorem readPrefixesLoop_of_opcode (hread : emulator.mmu.read8 emulator.cpu.decodePc = .ok byte)
    (hopcode : addPrefix byte prefixes = none) (fuel : Nat) :
    readPrefixesLoop (fuel + 1) prefixes emulator = .ok prefixes emulator := by
  rw [readPrefixesLoop, bind_of_ok (getCPU_apply emulator),
    bind_of_ok (readMMU_eq_ok_iff.mpr ⟨hread, rfl⟩), hopcode]
  rfl

/-- Decoding prefixes only moves the decoder. -/
theorem readPrefixesLoop_eq_ok {fuel : Nat}
    (h : readPrefixesLoop fuel prefixes emulator = .ok prefixes' emulator') :
    ∃ pc, emulator' = atDecodePc emulator pc := by
  induction fuel generalizing prefixes emulator with
  | zero => cases h
  | succ fuel ih =>
      rw [readPrefixesLoop, bind_of_ok (getCPU_apply emulator)] at h
      obtain ⟨byte, emulator₁, hread, hrest⟩ := bind_eq_ok_iff.mp h
      obtain ⟨-, rfl⟩ := readMMU_eq_ok_iff.mp hread
      cases hprefixed : addPrefix byte prefixes with
      | none =>
          rw [hprefixed] at hrest
          cases hrest
          exact ⟨_, rfl⟩
      | some next =>
          rw [hprefixed] at hrest
          obtain ⟨pc, rfl⟩ := ih hrest
          exact ⟨pc, rfl⟩

end Fetching

/-- Prefix decoding has fuel for more than one byte. -/
theorem readPrefixes_eq : ∃ fuel, readPrefixes = readPrefixesLoop (fuel + 1 + 1) {} := by
  have hfuel : (2 : Nat) ^ 64 = 2 ^ 64 - 2 + 1 + 1 := by omega
  exact ⟨2 ^ 64 - 2, congrArg (fun fuel => readPrefixesLoop fuel {}) hfuel⟩

/-- `fetch_modrm`. -/
def fetchModrm (prefixes : Prefixes) : EmulatorProgram ModRM := do
  let byte ← fetch8
  return {
    byte := byte
    mod := byte >>> 6 &&& 3
    reg := registerAt (byte >>> 3) prefixes.rexR
    rm := registerAt byte prefixes.rexB }

/-! ## Addresses -/

/-- The base, index and displacement of a memory operand, and whether a register among them
is uninitialized. -/
structure AddressParts where
  base : U64 := 0
  index : U64 := 0
  scale : U64 := 1
  displacement : U64 := 0
  ripRelative : Bool := false
  tainted : Bool := false

/-- A register that feeds an address, with its taint. -/
def addressRegister (register : Register) : EmulatorProgram (U64 × Bool) := do
  let cpu ← getCPU
  return (cpu.reg register, cpu.gprShadow register != 0)

/-- The part of `decode_memory_address` that reads the SIB byte. -/
def decodeSib (prefixes : Prefixes) (modrm : ModRM) : EmulatorProgram AddressParts := do
  let sib ← fetch8
  let scale := (1 : U64) <<< (sib >>> 6 &&& 3).toNat
  let indexLow := sib >>> 3 &&& 7
  let baseLow := sib &&& 7
  let index ←
    if indexLow ≠ 4 || prefixes.rexX then addressRegister (registerAt indexLow prefixes.rexX)
    else pure (0, false)
  if modrm.mod = 0 && baseLow = 5 then
    let displacement ← fetchI32
    return {
      index := index.1, scale := scale, displacement := displacement, tainted := index.2 }
  else
    let base ← addressRegister (registerAt baseLow prefixes.rexB)
    return {
      base := base.1, index := index.1, scale := scale, tainted := index.2 || base.2 }

/-- The part of `decode_memory_address` before the displacement of the ModRM byte. -/
def decodeAddressParts (prefixes : Prefixes) (modrm : ModRM) : EmulatorProgram AddressParts :=
  let rmLow := modrm.byte &&& 7
  if rmLow = 4 then decodeSib prefixes modrm
  else if modrm.mod = 0 && rmLow = 5 then do
    let displacement ← fetchI32
    return { displacement := displacement, ripRelative := true }
  else do
    let base ← addressRegister (registerAt rmLow prefixes.rexB)
    return { base := base.1, tainted := base.2 }

/-- `decode_memory_address`. -/
def decodeMemoryAddress (prefixes : Prefixes) (modrm : ModRM) :
    EmulatorProgram DecodedAddress := do
  let parts ← decodeAddressParts prefixes modrm
  let displacement ←
    if modrm.mod = 1 then fetchI8
    else if modrm.mod = 2 then fetchI32
    else pure parts.displacement
  let cpu ← getCPU
  let address :=
    if parts.ripRelative then cpu.decodePc + displacement
    else parts.base + parts.index * parts.scale + displacement
  let address := if prefixes.address32 then address &&& 0xffffffff else address
  let address :=
    match prefixes.segment with
    | .fs => address + cpu.fsBase
    | .gs => address + cpu.gsBase
    | _ => address
  if parts.tainted then
    modifyCPU fun cpu => cpu.warnUninitializedPointer.taint
  return ⟨address, parts.ripRelative, displacement⟩

/-- `decode_rm_operand`. -/
def decodeRmOperand (prefixes : Prefixes) (modrm : ModRM) : EmulatorProgram Operand :=
  if modrm.isRegister then return .register modrm.rm
  else do
    let address ← decodeMemoryAddress prefixes modrm
    return .memory address

/-- `operand_width`. -/
def operandWidth (prefixes : Prefixes) : Width :=
  if prefixes.rexW then .w64 else if prefixes.operand16 then .w16 else .w32

/-- `effective_address`: a RIP-relative operand is relative to the decoder position at the
access. -/
def effectiveAddress (address : DecodedAddress) : EmulatorProgram U64 := do
  let cpu ← getCPU
  return if address.ripRelative then cpu.decodePc + address.ripDisplacement else address.address

/-! ## Register operands -/

/-- Whether a byte register is the second byte of one of the first four registers. -/
def isHighByte (register : Register) (width : Width) (prefixes : Prefixes) : Bool :=
  width = .w8 && !prefixes.rexPresent && 4 ≤ register.val && register.val ≤ 7

/-- The register that holds a high byte. -/
def highByteHome (register : Register) : Register :=
  ⟨register.val - 4, by omega⟩

/-- Read a lane of one of the two register files. -/
def readLane (file : Register → U64) (register : Register) (width : Width)
    (prefixes : Prefixes) : U64 :=
  if isHighByte register width prefixes then file (highByteHome register) >>> 8 &&& 0xff
  else file register &&& maskForWidth width

/-- Write a lane of one of the two register files; a 32-bit write clears the upper half. -/
def writeLane (file : Register → U64) (register : Register) (width : Width)
    (prefixes : Prefixes) (value : U64) : Register → U64 :=
  let value := value &&& maskForWidth width
  if isHighByte register width prefixes then
    let home := highByteHome register
    Function.update file home (file home &&& ~~~(0xff00 : U64) ||| value <<< 8)
  else
    match width with
    | .w8 => Function.update file register (file register &&& ~~~(0xff : U64) ||| value)
    | .w16 => Function.update file register (file register &&& ~~~(0xffff : U64) ||| value)
    | .w32 => Function.update file register value
    | .w64 => Function.update file register value

/-- `read_gpr`: reading an uninitialized lane taints the instruction. -/
def readGpr (register : Register) (width : Width) (prefixes : Prefixes) :
    EmulatorProgram U64 := do
  let cpu ← getCPU
  if readLane cpu.gprShadow register width prefixes ≠ 0 then
    modifyCPU taint
  return readLane cpu.gpr register width prefixes

/-- The register file after `write_gpr`: the shadow lane takes the taint of the
instruction. -/
def withGpr (cpu : SoftCPU64) (register : Register) (width : Width) (value : U64)
    (prefixes : Prefixes) : SoftCPU64 :=
  { cpu with
    gpr := writeLane cpu.gpr register width prefixes value
    gprShadow := writeLane cpu.gprShadow register width prefixes
      (if cpu.currentTaint then maskForWidth width else 0) }

/-- `write_gpr`. -/
def writeGpr (register : Register) (width : Width) (value : U64) (prefixes : Prefixes) :
    EmulatorProgram Unit :=
  modifyCPU fun cpu => cpu.withGpr register width value prefixes

/-! ## Operands -/

/-- The shadowed read of a memory operand. -/
def readMemoryOperand (address : U64) (width : Width) :
    MMUProgram (ValueWithShadow 64) :=
  match width with
  | .w8 => do
      let byte ← SoftMMU.read8WithShadow address
      return ⟨byte.value.setWidth 64, if byte.isUninitialized then 0xff else 0⟩
  | _ => SoftMMU.readIntegerWithShadow address width.bytes

/-- The shadowed write of a memory operand. -/
def writeMemoryOperand (address : U64) (width : Width) (value : U64) (tainted : Bool) :
    MMUProgram Unit :=
  match width with
  | .w8 => SoftMMU.write8WithShadow address
      ⟨value.setWidth 8, if tainted then 0xff else 0⟩
  | _ => SoftMMU.writeIntegerWithShadow address
      ⟨value, if tainted then maskForWidth width else 0⟩ width.bytes

/-- `read_operand`. -/
def readOperand (operand : Operand) (width : Width) (prefixes : Prefixes) :
    EmulatorProgram U64 :=
  match operand with
  | .register register => readGpr register width prefixes
  | .memory decoded => do
      let address ← effectiveAddress decoded
      let read ← onMMU (readMemoryOperand address width)
      if read.isUninitialized then
        modifyCPU fun cpu => cpu.taint.warnUninitializedRead
      return read.value

/-- `write_operand`. -/
def writeOperand (operand : Operand) (width : Width) (value : U64) (prefixes : Prefixes) :
    EmulatorProgram Unit :=
  let value := value &&& maskForWidth width
  match operand with
  | .register register => writeGpr register width value prefixes
  | .memory decoded => do
      let address ← effectiveAddress decoded
      let cpu ← getCPU
      onMMU (writeMemoryOperand address width value cpu.currentTaint)

/-- `push64`. -/
def push64 (value shadow : U64) : EmulatorProgram Unit := do
  modifyCPU fun cpu => cpu.setReg .rsp (cpu.reg .rsp - 8)
  let cpu ← getCPU
  onMMU (SoftMMU.writeIntegerWithShadow (cpu.reg .rsp) ⟨value, shadow⟩ 8)

/-- `pop64_with_shadow`. -/
def pop64WithShadow : EmulatorProgram (ValueWithShadow 64) := do
  let cpu ← getCPU
  let value ← onMMU (SoftMMU.readIntegerWithShadow (cpu.reg .rsp) 8)
  modifyCPU fun cpu => cpu.setReg .rsp (cpu.reg .rsp + 8)
  return value

/-- `pop64`. -/
def pop64 : EmulatorProgram U64 := do
  let value ← pop64WithShadow
  return value.value

/-- Run an operation that returns a result and the CPU with its flags. -/
def onCPU (operation : SoftCPU64 → U64 × SoftCPU64) : EmulatorProgram U64 := do
  let cpu ← getCPU
  let outcome := operation cpu
  modifyCPU fun _ => outcome.2
  return outcome.1

/-- `branch_condition`: a branch on uninitialized flags is reported. -/
def branchCondition (cc : U8) : EmulatorProgram Bool := do
  let cpu ← getCPU
  if cpu.flagsTainted then
    modifyCPU warnUninitializedBranch
  return cpu.condition cc

end SoftCPU64

end LUE
