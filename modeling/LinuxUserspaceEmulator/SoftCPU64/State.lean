import LinuxUserspaceEmulator.Types
import Mathlib.Algebra.GroupWithZero.Nat
import Mathlib.Logic.Function.Basic

/-!
# The state of the emulated CPU

The register files of `SoftCPU64` with their shadows, the x87 and SSE state, the decoder
position, and the synthetic call stack.  This file has the state and the updates the
instruction bodies are made of; each update comes with the fields it changes and the
fields it keeps.
-/

namespace LUE

/-! ## Registers -/

/-- An index into the general register file. -/
abbrev Register := Fin 16

/-! Registers and slots of the FPU stack are written as numerals. -/

instance neZero_sixteen : NeZero 16 := ⟨by decide⟩
instance neZero_eight : NeZero 8 := ⟨by decide⟩

namespace Register

def rax : Register := 0
def rcx : Register := 1
def rdx : Register := 2
def rbx : Register := 3
def rsp : Register := 4
def rbp : Register := 5
def rsi : Register := 6
def rdi : Register := 7
def r8 : Register := 8
def r9 : Register := 9
def r10 : Register := 10
def r11 : Register := 11

end Register

/-- `std::array<u8, 16>`: the bytes of an XMM register. -/
abbrev Xmm := Fin 16 → U8

/-- A host `long double`, by its ten bytes in memory. -/
abbrev LongDouble := BitVec 80

/-- The state of `SoftCPU64`. -/
structure SoftCPU64 where
  gpr : Register → U64 := fun _ => 0
  gprShadow : Register → U64 := fun _ => 0
  xmm : Fin 16 → Xmm := fun _ _ => 0
  mxcsr : U32 := 0x1f80
  rip : U64 := 0
  rflags : U64 := 0x202
  fsBase : U64 := 0
  gsBase : U64 := 0
  fpuSt : Fin 8 → LongDouble := fun _ => 0
  fpuEmpty : Fin 8 → Bool := fun _ => false
  fpuTop : Fin 8 := 0
  fpuStatus : U16 := 0
  fpuControl : U16 := 0x037f
  instructionStart : U64 := 0
  decodePc : U64 := 0
  callStack : List U64 := []
  currentTaint : Bool := false
  flagsTainted : Bool := false
  reportedUninitReads : List U64 := []
  reportedUninitPointers : List U64 := []
  reportedUninitBranches : List U64 := []

/-! ## Flags -/

def CF : U64 := (1 : U64) <<< 0
def PF : U64 := (1 : U64) <<< 2
def AF : U64 := (1 : U64) <<< 4
def ZF : U64 := (1 : U64) <<< 6
def SF : U64 := (1 : U64) <<< 7
def DF : U64 := (1 : U64) <<< 10
def OF : U64 := (1 : U64) <<< 11

namespace SoftCPU64

variable (cpu : SoftCPU64)

/-- `reg`. -/
def reg (register : Register) : U64 :=
  cpu.gpr register

/-- `set_reg`. -/
def setReg (register : Register) (value : U64) : SoftCPU64 :=
  { cpu with gpr := Function.update cpu.gpr register value }

/-- Assign to one entry of the shadow file. -/
def setRegShadow (register : Register) (shadow : U64) : SoftCPU64 :=
  { cpu with gprShadow := Function.update cpu.gprShadow register shadow }

/-- `set_rip`. -/
def setRip (value : U64) : SoftCPU64 :=
  { cpu with rip := value }

/-- `set_rflags`. -/
def setRflags (value : U64) : SoftCPU64 :=
  { cpu with rflags := value }

/-- `set_fs_base`. -/
def setFsBase (value : U64) : SoftCPU64 :=
  { cpu with fsBase := value }

/-- `set_gs_base`. -/
def setGsBase (value : U64) : SoftCPU64 :=
  { cpu with gsBase := value }

/-- `push_synthetic_return`. -/
def pushSyntheticReturn (returnAddress : U64) : SoftCPU64 :=
  { cpu with callStack := cpu.callStack ++ [returnAddress] }

/-- `flag`. -/
def flag (flagValue : U64) : Bool :=
  cpu.rflags &&& flagValue != 0

/-- `set_flag`. -/
def setFlag (flagValue : U64) (value : Bool) : SoftCPU64 :=
  { cpu with
    rflags := if value then cpu.rflags ||| flagValue else cpu.rflags &&& ~~~flagValue }

/-! ## The integer context and the floating-point context -/

/-- The part of the state that a signal frame holds: the general registers, the
instruction pointer, the flags and the segment bases. -/
structure IntegerContext where
  gpr : Register → U64
  rip : U64
  rflags : U64
  fsBase : U64
  gsBase : U64

def integerContext : IntegerContext where
  gpr := cpu.gpr
  rip := cpu.rip
  rflags := cpu.rflags
  fsBase := cpu.fsBase
  gsBase := cpu.gsBase

/-- The SSE registers and the x87 unit. -/
structure FloatContext where
  xmm : Fin 16 → Xmm
  mxcsr : U32
  fpuSt : Fin 8 → LongDouble
  fpuEmpty : Fin 8 → Bool
  fpuTop : Fin 8
  fpuStatus : U16
  fpuControl : U16

def floatContext : FloatContext where
  xmm := cpu.xmm
  mxcsr := cpu.mxcsr
  fpuSt := cpu.fpuSt
  fpuEmpty := cpu.fpuEmpty
  fpuTop := cpu.fpuTop
  fpuStatus := cpu.fpuStatus
  fpuControl := cpu.fpuControl

/-! ## Fields after updates -/

variable {cpu}

@[simp]
theorem floatContext_setReg (register : Register) (value : U64) :
    (cpu.setReg register value).floatContext = cpu.floatContext :=
  rfl

@[simp]
theorem floatContext_setRegShadow (register : Register) (shadow : U64) :
    (cpu.setRegShadow register shadow).floatContext = cpu.floatContext :=
  rfl

end SoftCPU64

end LUE
