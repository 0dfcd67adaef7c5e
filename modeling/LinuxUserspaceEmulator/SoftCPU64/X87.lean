import LinuxUserspaceEmulator.SoftCPU64.SseFloat

/-!
# x87 instructions

The register stack of the floating-point unit and `execute_x87`.  Values are host long
doubles; the condition bits of the status word follow comparisons, and memory forms move
4, 8 or 10 bytes.
-/

namespace LUE

open StateExcept

namespace SoftCPU64

variable (float : HostFloat)

/-! ## The register stack -/

/-- The slot of `ST(i)`. -/
def fpuSlot (cpu : SoftCPU64) (i : Nat) : Fin 8 :=
  Fin.ofNat 8 (cpu.fpuTop.val + i)

/-- `fst`. -/
def fst (cpu : SoftCPU64) (i : Nat) : LongDouble :=
  cpu.fpuSt (cpu.fpuSlot i)

def setFst (cpu : SoftCPU64) (i : Nat) (value : LongDouble) : SoftCPU64 :=
  { cpu with fpuSt := Function.update cpu.fpuSt (cpu.fpuSlot i) value }

/-- `fst_empty`. -/
def fstEmpty (cpu : SoftCPU64) (i : Nat) : Bool :=
  cpu.fpuEmpty (cpu.fpuSlot i)

/-- `fpu_push`. -/
def fpuPush (cpu : SoftCPU64) (value : LongDouble) : SoftCPU64 :=
  let top := cpu.fpuTop - 1
  { cpu with
    fpuTop := top
    fpuSt := Function.update cpu.fpuSt top value
    fpuEmpty := Function.update cpu.fpuEmpty top false }

/-- `fpu_pop`. -/
def fpuPop (cpu : SoftCPU64) : SoftCPU64 :=
  { cpu with
    fpuEmpty := Function.update cpu.fpuEmpty cpu.fpuTop true
    fpuTop := cpu.fpuTop + 1 }

/-- `fpu_status_word`. -/
def fpuStatusWord (cpu : SoftCPU64) : U16 :=
  cpu.fpuStatus &&& ~~~(7 <<< 11 : U16) ||| BitVec.ofNat 16 cpu.fpuTop.val <<< 11

/-- The condition bits C0, C1, C2 and C3 of the status word. -/
def fpuC0 : U16 := 0x100
def fpuC1 : U16 := 0x200
def fpuC2 : U16 := 0x400
def fpuC3 : U16 := 0x4000

/-- `fpu_compare`. -/
def fpuCompare (a b : LongDouble) (cpu : SoftCPU64) : SoftCPU64 :=
  let status := cpu.fpuStatus &&& ~~~(fpuC3 ||| fpuC2 ||| fpuC0)
  { cpu with
    fpuStatus :=
      if float.extended.isNaN a || float.extended.isNaN b then
        status ||| fpuC3 ||| fpuC2 ||| fpuC0
      else if float.extended.lt b a then status
      else if float.extended.lt a b then status ||| fpuC0
      else status ||| fpuC3 }

/-! ## Memory transfers -/

def readM32 (address : U64) : EmulatorProgram LongDouble := do
  let bits ← readMMU fun mmu => mmu.read32 address
  return float.singleToExtended (bits.setWidth 32)

def readM64 (address : U64) : EmulatorProgram LongDouble := do
  let bits ← readMMU fun mmu => mmu.read64 address
  return float.doubleToExtended bits

/-- Ten bytes as a long double. -/
def readM80 (address : U64) : EmulatorProgram LongDouble := do
  let bytes ← readMMU (readBytes address 10)
  return bytes.foldr (fun byte value => value <<< 8 ||| byte.setWidth 80) 0

def writeM32 (address : U64) (value : LongDouble) : EmulatorProgram Unit :=
  onMMU (SoftMMU.write32 address ((float.extendedToSingle value).setWidth 64))

def writeM64 (address : U64) (value : LongDouble) : EmulatorProgram Unit :=
  onMMU (SoftMMU.write64 address (float.extendedToDouble value))

def writeM80 (address : U64) (value : LongDouble) : EmulatorProgram Unit :=
  onMMU (forOffsets (fun k =>
    SoftMMU.write8 (address + BitVec.ofNat 64 k) ((value >>> (k * 8)).setWidth 8)) 10)

/-- A signed integer of so many bytes. -/
def readMInt (address : U64) (bytes : Nat) : EmulatorProgram LongDouble := do
  let value ← readMMU fun mmu => mmu.readInteger address bytes
  return float.intToExtended (value.setWidth (bytes * 8)).toInt

/-- `store_int`. -/
def storeInt (address : U64) (value : LongDouble) (bytes : Nat) (truncate : Bool) :
    EmulatorProgram Unit :=
  let result := if truncate then float.extendedToI64 value else float.extendedRintI64 value
  onMMU (SoftMMU.writeInteger address result bytes)

/-! ## Arithmetic -/

/-- `arith_into_st0`, and the register forms with the same destination. -/
def arithIntoSt0 (operation : Nat) (b : LongDouble) (cpu : SoftCPU64) : SoftCPU64 :=
  let ops := float.extended
  let st0 := cpu.fst 0
  match operation with
  | 0 => cpu.setFst 0 (ops.add st0 b)
  | 1 => cpu.setFst 0 (ops.mul st0 b)
  | 2 => cpu.fpuCompare float st0 b
  | 3 => (cpu.fpuCompare float st0 b).fpuPop
  | 4 => cpu.setFst 0 (ops.sub st0 b)
  | 5 => cpu.setFst 0 (ops.sub b st0)
  | 6 => cpu.setFst 0 (ops.div st0 b)
  | _ => cpu.setFst 0 (ops.div b st0)

/-- The register forms with destination `ST(i)`; `none` for the comparisons, which they do
not have. -/
def arithIntoSti (operation : Nat) (a d : LongDouble) : Option LongDouble :=
  let ops := float.extended
  match operation with
  | 0 => some (ops.add d a)
  | 1 => some (ops.mul d a)
  | 4 => some (ops.sub a d)
  | 5 => some (ops.sub d a)
  | 6 => some (ops.div a d)
  | 7 => some (ops.div d a)
  | _ => none

/-- `FXAM`: the class of `ST(0)` in the condition bits. -/
def fxam (cpu : SoftCPU64) : SoftCPU64 :=
  let value := cpu.fst 0
  let status := cpu.fpuStatus &&& ~~~(fpuC3 ||| fpuC2 ||| fpuC1 ||| fpuC0)
  let status := if (float.extendedToDouble value).msb then status ||| fpuC1 else status
  { cpu with
    fpuStatus :=
      if cpu.fstEmpty 0 then status ||| fpuC3 ||| fpuC0
      else if float.double.isNaN (float.extendedToDouble value) then status ||| fpuC0
      else if float.double.isInf (float.extendedToDouble value) then status ||| fpuC2 ||| fpuC0
      else if LongDouble.isZero value then status ||| fpuC3
      else status ||| fpuC2 }

/-- The unary and constant operations of `D9`; `none` for the unsupported ones. -/
def executeD9Unary (rb : U8) (cpu : SoftCPU64) : Option SoftCPU64 :=
  let math := float.math
  let ops := float.extended
  match rb.toNat with
  | 0xd0 => some cpu
  | 0xe0 => some (cpu.setFst 0 (LongDouble.neg (cpu.fst 0)))
  | 0xe1 => some (cpu.setFst 0 (LongDouble.abs (cpu.fst 0)))
  | 0xe4 => some (cpu.fpuCompare float (cpu.fst 0) LongDouble.zero)
  | 0xe5 => some (cpu.fxam float)
  | 0xe8 => some (cpu.fpuPush LongDouble.one)
  | 0xe9 => some (cpu.fpuPush (math.log2 LongDouble.ten))
  | 0xea => some (cpu.fpuPush (math.log2 LongDouble.e))
  | 0xeb => some (cpu.fpuPush LongDouble.pi)
  | 0xec => some (cpu.fpuPush (math.log10 LongDouble.two))
  | 0xed => some (cpu.fpuPush (math.log LongDouble.two))
  | 0xee => some (cpu.fpuPush LongDouble.zero)
  | 0xf0 => some (cpu.setFst 0 (ops.sub (math.exp2 (cpu.fst 0)) LongDouble.one))
  | 0xf1 => some (cpu.setFst 1 (ops.mul (cpu.fst 1) (math.log2 (cpu.fst 0)))).fpuPop
  | 0xf2 => some ((cpu.setFst 0 (math.tan (cpu.fst 0))).fpuPush LongDouble.one)
  | 0xf3 => some (cpu.setFst 1 (math.atan2 (cpu.fst 1) (cpu.fst 0))).fpuPop
  | 0xf4 =>
      let parts := math.frexp (cpu.fst 0)
      some ((cpu.setFst 0 (float.intToExtended (parts.2 - 1))).fpuPush
        (ops.mul parts.1 LongDouble.two))
  | 0xf5 => some (cpu.setFst 0 (math.remainder (cpu.fst 0) (cpu.fst 1)))
  | 0xf6 => some { cpu with fpuTop := cpu.fpuTop + 1 }
  | 0xf7 => some { cpu with fpuTop := cpu.fpuTop - 1 }
  | 0xf8 => some (cpu.setFst 0 (math.fmod (cpu.fst 0) (cpu.fst 1)))
  | 0xf9 =>
      some (cpu.setFst 1 (ops.mul (cpu.fst 1)
        (math.log2 (ops.add (cpu.fst 0) LongDouble.one)))).fpuPop
  | 0xfa => some (cpu.setFst 0 (ops.sqrt (cpu.fst 0)))
  | 0xfb => some ((cpu.setFst 0 (math.sin (cpu.fst 0))).fpuPush (math.cos (cpu.fst 0)))
  | 0xfc => some (cpu.setFst 0 (math.rint (cpu.fst 0)))
  | 0xfd => some (cpu.setFst 0 (math.ldexp (cpu.fst 0) (float.extendedToI32 (cpu.fst 1))))
  | 0xfe => some (cpu.setFst 0 (math.sin (cpu.fst 0)))
  | 0xff => some (cpu.setFst 0 (math.cos (cpu.fst 0)))
  | _ => none

/-! ## Memory forms -/

/-- Store and pop. -/
def thenPop (store : EmulatorProgram Unit) : EmulatorProgram Unit := do
  store
  modifyCPU fpuPop

/-- Load a value and push it. -/
def pushFrom (load : EmulatorProgram LongDouble) : EmulatorProgram Unit := do
  let value ← load
  modifyCPU fun cpu => cpu.fpuPush value

/-- Load a value and combine it with `ST(0)`. -/
def arithFrom (operation : Nat) (load : EmulatorProgram LongDouble) : EmulatorProgram Unit := do
  let value ← load
  modifyCPU (arithIntoSt0 float operation value)

/-- The memory forms of `execute_x87`. -/
def executeX87Memory (opcode : U8) (operation : Nat) (address : U64) : EmulatorProgram Unit := do
  let cpu ← getCPU
  let st0 := cpu.fst 0
  let unsupportedForm (name : String) : EmulatorProgram Unit :=
    unsupported ("unsupported x87 " ++ name ++ " /" ++ toString operation)
  match opcode.toNat, operation with
  | 0xd8, _ => arithFrom float operation (readM32 float address)
  | 0xdc, _ => arithFrom float operation (readM64 float address)
  | 0xda, _ => arithFrom float operation (readMInt float address 4)
  | 0xde, _ => arithFrom float operation (readMInt float address 2)
  | 0xd9, 0 => pushFrom (readM32 float address)
  | 0xd9, 2 => writeM32 float address st0
  | 0xd9, 3 => thenPop (writeM32 float address st0)
  | 0xd9, 5 => do
      let control ← readMMU fun mmu => mmu.read16 address
      modifyCPU fun cpu => { cpu with fpuControl := control.setWidth 16 }
  | 0xd9, 7 => onMMU (SoftMMU.write16 address (cpu.fpuControl.setWidth 64))
  | 0xd9, _ => unsupportedForm "D9"
  | 0xdd, 0 => pushFrom (readM64 float address)
  | 0xdd, 2 => writeM64 float address st0
  | 0xdd, 3 => thenPop (writeM64 float address st0)
  | 0xdd, 7 => onMMU (SoftMMU.write16 address (cpu.fpuStatusWord.setWidth 64))
  | 0xdd, _ => unsupportedForm "DD"
  | 0xdb, 0 => pushFrom (readMInt float address 4)
  | 0xdb, 1 => thenPop (storeInt float address st0 4 true)
  | 0xdb, 2 => storeInt float address st0 4 false
  | 0xdb, 3 => thenPop (storeInt float address st0 4 false)
  | 0xdb, 5 => pushFrom (readM80 address)
  | 0xdb, 7 => thenPop (writeM80 address st0)
  | 0xdb, _ => unsupportedForm "DB"
  | 0xdf, 0 => pushFrom (readMInt float address 2)
  | 0xdf, 1 => thenPop (storeInt float address st0 2 true)
  | 0xdf, 2 => storeInt float address st0 2 false
  | 0xdf, 3 => thenPop (storeInt float address st0 2 false)
  | 0xdf, 5 => pushFrom (readMInt float address 8)
  | 0xdf, 7 => thenPop (storeInt float address st0 8 false)
  | 0xdf, _ => unsupportedForm "DF"
  | _, _ => unsupported ("unsupported x87 memory opcode " ++ hex (opcode.setWidth 64) 2)

/-! ## Register forms -/

/-- A conditional move of `ST(i)` to `ST(0)`. -/
def fcmov (take : Bool) (sti : Nat) : EmulatorProgram Unit :=
  modifyCPU fun cpu => if take then cpu.setFst 0 (cpu.fst sti) else cpu

/-- The register forms of `DA`: conditional moves and `FUCOMPP`. -/
def executeDaRegister (rb : U8) (sti : Nat) : EmulatorProgram Unit := do
  let cpu ← getCPU
  if rb = 0xe9 then
    modifyCPU fun cpu => (cpu.fpuCompare float (cpu.fst 0) (cpu.fst 1)).fpuPop.fpuPop
  else
    match (rb >>> 3).toNat with
    | 0x18 => fcmov (cpu.flag CF) sti
    | 0x19 => fcmov (cpu.flag ZF) sti
    | 0x1a => fcmov (cpu.flag CF || cpu.flag ZF) sti
    | 0x1b => fcmov (cpu.flag PF) sti
    | _ => unsupported ("unsupported x87 DA register op " ++ hex (rb.setWidth 64) 2)

/-- The register forms of `DB`: negated conditional moves, control and comparisons. -/
def executeDbRegister (rb : U8) (sti : Nat) : EmulatorProgram Unit := do
  let cpu ← getCPU
  if rb = 0xe2 then
    modifyCPU fun cpu => { cpu with fpuStatus := cpu.fpuStatus &&& ~~~(0x80ff : U16) }
  else if rb = 0xe3 then
    modifyCPU fun cpu =>
      { cpu with fpuControl := 0x037f, fpuStatus := 0, fpuTop := 0, fpuEmpty := fun _ => true }
  else
    match (rb >>> 3).toNat with
    | 0x18 => fcmov (!cpu.flag CF) sti
    | 0x19 => fcmov (!cpu.flag ZF) sti
    | 0x1a => fcmov (!(cpu.flag CF || cpu.flag ZF)) sti
    | 0x1b => fcmov (!cpu.flag PF) sti
    | 0x1d | 0x1e =>
        modifyCPU fun cpu => cpu.setEflagsFromFloatCompare float (cpu.fst 0) (cpu.fst sti)
    | _ => unsupported ("unsupported x87 DB register op " ++ hex (rb.setWidth 64) 2)

/-- The register forms of `DD`: `FFREE`, stores and unordered comparisons. -/
def executeDdRegister (rb : U8) (sti : Nat) : EmulatorProgram Unit :=
  match (rb >>> 3).toNat with
  | 0x18 => modifyCPU fun cpu =>
      { cpu with fpuEmpty := Function.update cpu.fpuEmpty (cpu.fpuSlot sti) true }
  | 0x1a => modifyCPU fun cpu => cpu.setFst sti (cpu.fst 0)
  | 0x1b => modifyCPU fun cpu => (cpu.setFst sti (cpu.fst 0)).fpuPop
  | 0x1c => modifyCPU fun cpu => cpu.fpuCompare float (cpu.fst 0) (cpu.fst sti)
  | 0x1d => modifyCPU fun cpu => (cpu.fpuCompare float (cpu.fst 0) (cpu.fst sti)).fpuPop
  | _ => unsupported ("unsupported x87 DD register op " ++ hex (rb.setWidth 64) 2)

/-- The register forms of `DF`: the status word and comparisons that pop. -/
def executeDfRegister (rb : U8) (sti : Nat) : EmulatorProgram Unit :=
  if rb = 0xe0 then
    modifyCPU fun cpu =>
      (cpu.setReg .rax (cpu.reg .rax &&& ~~~(0xffff : U64) |||
        cpu.fpuStatusWord.setWidth 64)).setRegShadow .rax
          (cpu.gprShadow .rax &&& ~~~(0xffff : U64))
  else
    match (rb >>> 3).toNat with
    | 0x1d | 0x1e => modifyCPU fun cpu =>
        (cpu.setEflagsFromFloatCompare float (cpu.fst 0) (cpu.fst sti)).fpuPop
    | _ => unsupported ("unsupported x87 DF register op " ++ hex (rb.setWidth 64) 2)

/-- The register forms of `execute_x87`. -/
def executeX87Register (opcode rb : U8) : EmulatorProgram Unit := do
  let sti := (rb &&& 7).toNat
  let operation := (rb >>> 3 &&& 7).toNat
  let cpu ← getCPU
  match opcode.toNat with
  | 0xd8 => modifyCPU fun cpu => arithIntoSt0 float operation (cpu.fst sti) cpu
  | 0xdc =>
      match arithIntoSti float operation (cpu.fst 0) (cpu.fst sti) with
      | some value => modifyCPU fun cpu => cpu.setFst sti value
      | none => unsupported ("unsupported x87 DC register op " ++ hex (rb.setWidth 64) 2)
  | 0xde =>
      if rb = 0xd9 then
        modifyCPU fun cpu => (cpu.fpuCompare float (cpu.fst 0) (cpu.fst 1)).fpuPop.fpuPop
      else
        match arithIntoSti float operation (cpu.fst 0) (cpu.fst sti) with
        | some value => modifyCPU fun cpu => (cpu.setFst sti value).fpuPop
        | none => unsupported ("unsupported x87 DE register op " ++ hex (rb.setWidth 64) 2)
  | 0xd9 =>
      match (rb >>> 3).toNat with
      | 0x18 => modifyCPU fun cpu => cpu.fpuPush (cpu.fst sti)
      | 0x19 => modifyCPU fun after => (after.setFst 0 (cpu.fst sti)).setFst sti (cpu.fst 0)
      | _ =>
          match cpu.executeD9Unary float rb with
          | some after => modifyCPU fun _ => after
          | none => unsupported ("unsupported x87 D9 register op " ++ hex (rb.setWidth 64) 2)
  | 0xda => executeDaRegister float rb sti
  | 0xdb => executeDbRegister float rb sti
  | 0xdd => executeDdRegister float rb sti
  | 0xdf => executeDfRegister float rb sti
  | _ => unsupported ("unsupported x87 register opcode " ++ hex (opcode.setWidth 64) 2)

/-- `execute_x87`. -/
def executeX87 (opcode : U8) (prefixes : Prefixes) : EmulatorProgram Unit := do
  let modrm ← fetchModrm prefixes
  match ← decodeRmOperand prefixes modrm with
  | .memory decoded => do
      let address ← effectiveAddress decoded
      executeX87Memory float opcode modrm.operation address
  | .register _ => executeX87Register float opcode modrm.byte

end SoftCPU64

end LUE
