import LinuxUserspaceEmulator.SoftCPU64.DecodePosition
import Mathlib.Tactic.FinCases

/-!
# Instructions with an operand

An instruction with a ModRM byte fetches the byte, decodes the operand it names, and goes on
with both.  This file cuts every such instruction after the operand: what it does from there
on is a program of the ModRM byte and the operand, which can be run with another operand.

Main results:

- Theorem `OperandRest.execute`: what a returning instruction did after its operand.
- Theorem `exists_operandRest`: every opcode that takes an operand is covered.
-/

namespace LUE

open StateExcept

namespace SoftCPU64

/-! ## Opcodes -/

/-- An opcode of the one-byte map, or of the map behind `0F`. -/
inductive Opcode where
  | oneByte (byte : U8)
  | twoByte (byte : U8)
deriving DecidableEq, Repr

/-- The instruction of an opcode. -/
def Opcode.execute (host : Host) (prefixes : Prefixes) : Opcode → EmulatorProgram Unit
  | oneByte byte => SoftCPU64.execute host prefixes byte
  | twoByte byte => executeTwoByte host byte prefixes

/-- The prefixes and the whole opcode of the instruction at the instruction pointer. -/
def decodeInstruction : EmulatorProgram (Prefixes × Opcode) := do
  let (prefixes, byte) ← decodeOpcode
  if byte = 0x0f then
    let second ← fetch8
    return (prefixes, .twoByte second)
  else return (prefixes, .oneByte byte)

/-! ## The rest of an instruction -/

/-- An instruction that has an operand in memory, cut after the decoding of the operand. -/
structure OperandForm (prefixes : Prefixes) (handler : EmulatorProgram Unit) where
  rest : ModRM → Operand → EmulatorProgram Unit
  /-- What a returning instruction with an operand in memory has done. -/
  handler_eq : ∀ {emulator selected decoded after : Emulator} {modrm : ModRM}
    {address : DecodedAddress}, fetchModrm prefixes emulator = .ok modrm selected →
      decodeMemoryAddress prefixes modrm selected = .ok address decoded →
      modrm.isRegister = false → handler emulator = .ok () after →
      rest modrm (.memory address) decoded = .ok () after

/-- An unsupported instruction raises. -/
theorem unsupported_ne_ok {α : Type} (message : String) {a : α} {emulator emulator' : Emulator} :
    unsupported message emulator ≠ .ok a emulator' := by
  intro h
  rw [unsupported, bind_of_ok (getCPU_apply emulator)] at h
  rcases bind_eq_ok_iff.mp h with ⟨bytes, middle, -, hthrow⟩
  cases hthrow

namespace OperandForm

variable {prefixes : Prefixes} {handler : EmulatorProgram Unit} {modrm : ModRM}

theorem decodeRmOperand_memory (hmemory : modrm.isRegister = false) :
    decodeRmOperand prefixes modrm = (do
      let address ← decodeMemoryAddress prefixes modrm
      return .memory address) := by
  rw [decodeRmOperand, if_neg (Bool.not_eq_true _ ▸ hmemory)]

/-- Most instructions decode their operand right after the ModRM byte. -/
def ofSequence (rest : ModRM → Operand → EmulatorProgram Unit)
    (h : handler = do
      let modrm ← fetchModrm prefixes
      let operand ← decodeRmOperand prefixes modrm
      rest modrm operand) : OperandForm prefixes handler where
  rest := rest
  handler_eq := by
    intro emulator selected decoded after modrm address hmodrm haddress hmemory hrun
    have hoperand : decodeRmOperand prefixes modrm selected = .ok (.memory address) decoded := by
      rw [decodeRmOperand_memory hmemory, bind_of_ok haddress]
      rfl
    rw [h, bind_of_ok hmodrm, bind_of_ok hoperand] at hrun
    exact hrun

/-- Some look at the middle field of the ModRM byte first. -/
def ofGroup (message : String) (rest : ModRM → Operand → EmulatorProgram Unit)
    (h : handler = do
      let modrm ← fetchModrm prefixes
      if modrm.operation ≠ 0 then unsupported message
      else
        let operand ← decodeRmOperand prefixes modrm
        rest modrm operand) : OperandForm prefixes handler where
  rest := rest
  handler_eq := by
    intro emulator selected decoded after modrm address hmodrm haddress hmemory hrun
    have hoperand : decodeRmOperand prefixes modrm selected = .ok (.memory address) decoded := by
      rw [decodeRmOperand_memory hmemory, bind_of_ok haddress]
      rfl
    rw [h, bind_of_ok hmodrm] at hrun
    split at hrun
    · exact absurd hrun (unsupported_ne_ok message)
    · rw [bind_of_ok hoperand] at hrun
      exact hrun

/-- Some treat registers apart and then take the address. -/
def ofAddress (onRegister : ModRM → EmulatorProgram Unit)
    (rest : ModRM → DecodedAddress → EmulatorProgram Unit)
    (h : handler = do
      let modrm ← fetchModrm prefixes
      if modrm.isRegister then onRegister modrm
      else
        let address ← decodeMemoryAddress prefixes modrm
        rest modrm address) : OperandForm prefixes handler where
  rest := fun modrm operand =>
    match operand with
    | .register _ => onRegister modrm
    | .memory address => rest modrm address
  handler_eq := by
    intro emulator selected decoded after modrm address hmodrm haddress hmemory hrun
    rw [h, bind_of_ok hmodrm, if_neg (Bool.not_eq_true _ ▸ hmemory), bind_of_ok haddress] at hrun
    exact hrun

end OperandForm

section Forms

variable (host : Host) (opcode : U8) (prefixes : Prefixes)

def aluRmRegForm : OperandForm prefixes (executeAluRmReg opcode prefixes) :=
  .ofSequence _ rfl

def aluImmForm : OperandForm prefixes (executeAluImm opcode prefixes) :=
  .ofSequence _ rfl

def movsxdForm : OperandForm prefixes (executeMovsxd prefixes) :=
  .ofSequence _ rfl

def imulImmediateForm : OperandForm prefixes (executeImulImmediate opcode prefixes) :=
  .ofSequence _ rfl

def testForm : OperandForm prefixes (executeTest opcode prefixes) :=
  .ofSequence _ rfl

def xchgForm : OperandForm prefixes (executeXchg prefixes) :=
  .ofSequence _ rfl

def movStoreForm : OperandForm prefixes (executeMovStore opcode prefixes) :=
  .ofSequence _ rfl

def movLoadForm : OperandForm prefixes (executeMovLoad opcode prefixes) :=
  .ofSequence _ rfl

def leaForm : OperandForm prefixes (executeLea prefixes) :=
  .ofAddress _ _ rfl

def popOperandForm : OperandForm prefixes (executePopOperand prefixes) :=
  .ofGroup _ _ rfl

def shiftGroupForm : OperandForm prefixes (executeShiftGroup opcode prefixes) :=
  .ofSequence _ rfl

def movOperandImmediateForm : OperandForm prefixes (executeMovOperandImmediate opcode prefixes) :=
  .ofGroup _ _ rfl

def x87Form : OperandForm prefixes (executeX87 host.float opcode prefixes) :=
  .ofSequence _ rfl

def groupF6F7Form : OperandForm prefixes (executeGroupF6F7 opcode prefixes) :=
  .ofSequence _ rfl

def groupFfForm : OperandForm prefixes (executeGroupFf prefixes) :=
  .ofSequence _ rfl

def setccForm : OperandForm prefixes (executeSetcc opcode prefixes) :=
  .ofSequence _ rfl

def cmovccForm : OperandForm prefixes (executeCmovcc opcode prefixes) :=
  .ofSequence _ rfl

def bitStringForm : OperandForm prefixes (executeBitString opcode prefixes) :=
  .ofSequence _ rfl

def doubleShiftForm : OperandForm prefixes (executeDoubleShift opcode prefixes) :=
  .ofSequence _ rfl

def groupAeForm : OperandForm prefixes (executeGroupAe prefixes) :=
  .ofAddress _ _ rfl

def imulRegisterForm : OperandForm prefixes (executeImulRegister prefixes) :=
  .ofSequence _ rfl

def cmpxchgForm : OperandForm prefixes (executeCmpxchg opcode prefixes) :=
  .ofSequence _ rfl

def extendForm : OperandForm prefixes (executeExtend opcode prefixes) :=
  .ofSequence _ rfl

def groupBaForm : OperandForm prefixes (executeGroupBa prefixes) :=
  .ofSequence _ rfl

def bitScanForm : OperandForm prefixes (executeBitScan opcode prefixes) :=
  .ofSequence _ rfl

def xaddForm : OperandForm prefixes (executeXadd opcode prefixes) :=
  .ofSequence _ rfl

/-- The hints only consume their operand. -/
def hintForm : OperandForm prefixes (executeHint prefixes) where
  rest := fun _ _ => pure ()
  handler_eq := by
    intro emulator selected decoded after modrm address hmodrm haddress hmemory hrun
    have hnot : (!modrm.isRegister) = true := by rw [hmemory]; rfl
    rw [executeHint, bind_of_ok hmodrm, if_pos hnot, bind_of_ok haddress] at hrun
    exact hrun

def movntiForm : OperandForm prefixes (executeMovnti prefixes) :=
  .ofSequence _ rfl

def packedForm (f : Xmm → Xmm → Xmm) : OperandForm prefixes (packedOperation prefixes f) :=
  .ofSequence _ rfl

def selectedForm (f : U8 → Xmm → Xmm → Xmm) :
    OperandForm prefixes (selectedOperation prefixes f) :=
  .ofSequence _ rfl

def storeXmmForm : OperandForm prefixes (storeXmm prefixes) :=
  .ofSequence _ rfl

def loadXmmForm : OperandForm prefixes (loadXmmFromGpr prefixes) :=
  .ofSequence _ rfl

def movqForm : OperandForm prefixes (executeMovq prefixes) :=
  .ofSequence _ rfl

def storeLowForm : OperandForm prefixes (storeLowQuadword prefixes) :=
  .ofSequence _ rfl

def pmovmskbForm : OperandForm prefixes (executePmovmskb prefixes) :=
  .ofSequence _ rfl

def byteShiftForm : OperandForm prefixes (executeByteShift prefixes) :=
  .ofSequence _ rfl

def sseFloatForm : OperandForm prefixes (executeSseFloat host.float opcode prefixes) :=
  .ofSequence _ rfl

end Forms

/-! ## The table -/

/-- The opcodes behind `0F` with an immediate byte. -/
def selectorOpcodes : List U8 :=
  [0x70, 0x71, 0x72, 0x73, 0xa4, 0xac, 0xba, 0xc2, 0xc4, 0xc5, 0xc6]

/-- What the instruction of an opcode does after its operand. -/
inductive OperandRest (host : Host) (prefixes : Prefixes) :
    Opcode → (ModRM → Operand → EmulatorProgram Unit) → Prop
  | aluRmReg {byte : U8} (h : byte ≤ 0x3d ∧ byte &&& 7 ≤ 3) :
      OperandRest host prefixes (.oneByte byte) (aluRmRegForm byte prefixes).rest
  | movsxd : OperandRest host prefixes (.oneByte 0x63) (movsxdForm prefixes).rest
  | imulImmediate {byte : U8} (h : byte = 0x69 ∨ byte = 0x6b) :
      OperandRest host prefixes (.oneByte byte) (imulImmediateForm byte prefixes).rest
  | aluImm {byte : U8} (h : byte = 0x80 ∨ byte = 0x81 ∨ byte = 0x83) :
      OperandRest host prefixes (.oneByte byte) (aluImmForm byte prefixes).rest
  | test {byte : U8} (h : byte = 0x84 ∨ byte = 0x85) :
      OperandRest host prefixes (.oneByte byte) (testForm byte prefixes).rest
  | xchg : OperandRest host prefixes (.oneByte 0x87) (xchgForm prefixes).rest
  | movStore {byte : U8} (h : byte = 0x88 ∨ byte = 0x89) :
      OperandRest host prefixes (.oneByte byte) (movStoreForm byte prefixes).rest
  | movLoad {byte : U8} (h : byte = 0x8a ∨ byte = 0x8b) :
      OperandRest host prefixes (.oneByte byte) (movLoadForm byte prefixes).rest
  | lea : OperandRest host prefixes (.oneByte 0x8d) (leaForm prefixes).rest
  | popOperand : OperandRest host prefixes (.oneByte 0x8f) (popOperandForm prefixes).rest
  | shiftGroup {byte : U8} (h : byte ∈ ([0xc0, 0xc1, 0xd0, 0xd1, 0xd2, 0xd3] : List U8)) :
      OperandRest host prefixes (.oneByte byte) (shiftGroupForm byte prefixes).rest
  | movOperandImmediate {byte : U8} (h : byte = 0xc6 ∨ byte = 0xc7) :
      OperandRest host prefixes (.oneByte byte) (movOperandImmediateForm byte prefixes).rest
  | x87 {byte : U8}
      (h : byte ∈ ([0xd8, 0xd9, 0xda, 0xdb, 0xdc, 0xdd, 0xde, 0xdf] : List U8)) :
      OperandRest host prefixes (.oneByte byte) (x87Form host byte prefixes).rest
  | groupF6F7 {byte : U8} (h : byte = 0xf6 ∨ byte = 0xf7) :
      OperandRest host prefixes (.oneByte byte) (groupF6F7Form byte prefixes).rest
  | groupFf : OperandRest host prefixes (.oneByte 0xff) (groupFfForm prefixes).rest
  | setcc {byte : U8} (h : 0x90 ≤ byte ∧ byte ≤ 0x9f) :
      OperandRest host prefixes (.twoByte byte) (setccForm byte prefixes).rest
  | cmovcc {byte : U8} (h : 0x40 ≤ byte ∧ byte ≤ 0x4f) :
      OperandRest host prefixes (.twoByte byte) (cmovccForm byte prefixes).rest
  | hint {byte : U8} (h : byte ∈ ([0x18, 0x19, 0x1a, 0x1b, 0x1c, 0x1d, 0x1f] : List U8)) :
      OperandRest host prefixes (.twoByte byte) (hintForm prefixes).rest
  | bitString {byte : U8} (h : byte ∈ ([0xa3, 0xab, 0xb3, 0xbb] : List U8)) :
      OperandRest host prefixes (.twoByte byte) (bitStringForm byte prefixes).rest
  | doubleShift {byte : U8} (h : byte ∈ ([0xa4, 0xa5, 0xac, 0xad] : List U8)) :
      OperandRest host prefixes (.twoByte byte) (doubleShiftForm byte prefixes).rest
  | groupAe : OperandRest host prefixes (.twoByte 0xae) (groupAeForm prefixes).rest
  | imulRegister : OperandRest host prefixes (.twoByte 0xaf) (imulRegisterForm prefixes).rest
  | cmpxchg {byte : U8} (h : byte = 0xb0 ∨ byte = 0xb1) :
      OperandRest host prefixes (.twoByte byte) (cmpxchgForm byte prefixes).rest
  | extend {byte : U8} (h : byte ∈ ([0xb6, 0xb7, 0xbe, 0xbf] : List U8)) :
      OperandRest host prefixes (.twoByte byte) (extendForm byte prefixes).rest
  | groupBa : OperandRest host prefixes (.twoByte 0xba) (groupBaForm prefixes).rest
  | bitScan {byte : U8} (h : byte = 0xbc ∨ byte = 0xbd) :
      OperandRest host prefixes (.twoByte byte) (bitScanForm byte prefixes).rest
  | xadd {byte : U8} (h : byte = 0xc0 ∨ byte = 0xc1) :
      OperandRest host prefixes (.twoByte byte) (xaddForm byte prefixes).rest
  | movnti : OperandRest host prefixes (.twoByte 0xc3) (movntiForm prefixes).rest
  | packed {byte : U8} {f : Xmm → Xmm → Xmm}
      (h : packedInteger byte prefixes = some (packedOperation prefixes f))
      (hselector : byte ∉ selectorOpcodes) :
      OperandRest host prefixes (.twoByte byte) (packedForm prefixes f).rest
  | selected {byte : U8} {f : U8 → Xmm → Xmm → Xmm}
      (h : packedInteger byte prefixes = some (selectedOperation prefixes f))
      (hselector : byte ∈ selectorOpcodes) :
      OperandRest host prefixes (.twoByte byte) (selectedForm prefixes f).rest
  | storeXmm {byte : U8} (h : byte = 0x29 ∨ byte = 0x7f ∨ byte = 0xe7) :
      OperandRest host prefixes (.twoByte byte) (storeXmmForm prefixes).rest
  | loadXmm : OperandRest host prefixes (.twoByte 0x6e) (loadXmmForm prefixes).rest
  | byteShift : OperandRest host prefixes (.twoByte 0x73) (byteShiftForm prefixes).rest
  | movq : OperandRest host prefixes (.twoByte 0x7e) (movqForm prefixes).rest
  | storeLow : OperandRest host prefixes (.twoByte 0xd6) (storeLowForm prefixes).rest
  | pmovmskb : OperandRest host prefixes (.twoByte 0xd7) (pmovmskbForm prefixes).rest
  | sseFloat {byte : U8} (h : isSseFloat byte = true) :
      OperandRest host prefixes (.twoByte byte) (sseFloatForm host byte prefixes).rest

section Table

variable {host : Host} {prefixes : Prefixes} {opcode : Opcode} {byte : U8}
  {rest : ModRM → Operand → EmulatorProgram Unit}

/-- The packed integer opcodes are not opcodes of anything else. -/
theorem executeTwoByte_of_packedInteger {program : EmulatorProgram Unit}
    (h : packedInteger byte prefixes = some program) :
    executeTwoByte host byte prefixes = program := by
  have hself : byte = BitVec.ofNat 8 byte.toNat := by simp
  unfold packedInteger at h
  split at h
  all_goals first
    | cases h
      rename_i hbyte
      rw [hbyte] at hself
      subst hself
      rfl
    | cases h

/-- Neither are the floating-point ones. -/
theorem executeTwoByte_of_isSseFloat (h : isSseFloat byte = true) :
    executeTwoByte host byte prefixes = executeSseFloat host.float byte prefixes := by
  have hmem := of_decide_eq_true h
  fin_cases hmem <;> rfl

/-- The rest of a covered instruction is the rest of its handler. -/
theorem OperandRest.exists_form (h : OperandRest host prefixes opcode rest) :
    ∃ form : OperandForm prefixes (opcode.execute host prefixes), form.rest = rest := by
  cases h with
  | aluRmReg h =>
      rw [Opcode.execute, execute_of_aluRmReg h]
      exact ⟨aluRmRegForm _ prefixes, rfl⟩
  | movsxd => exact ⟨movsxdForm prefixes, rfl⟩
  | imulImmediate h => rcases h with rfl | rfl <;> exact ⟨imulImmediateForm _ prefixes, rfl⟩
  | aluImm h => rcases h with rfl | rfl | rfl <;> exact ⟨aluImmForm _ prefixes, rfl⟩
  | test h => rcases h with rfl | rfl <;> exact ⟨testForm _ prefixes, rfl⟩
  | xchg => exact ⟨xchgForm prefixes, rfl⟩
  | movStore h => rcases h with rfl | rfl <;> exact ⟨movStoreForm _ prefixes, rfl⟩
  | movLoad h => rcases h with rfl | rfl <;> exact ⟨movLoadForm _ prefixes, rfl⟩
  | lea => exact ⟨leaForm prefixes, rfl⟩
  | popOperand => exact ⟨popOperandForm prefixes, rfl⟩
  | shiftGroup h => fin_cases h <;> exact ⟨shiftGroupForm _ prefixes, rfl⟩
  | movOperandImmediate h =>
      rcases h with rfl | rfl <;> exact ⟨movOperandImmediateForm _ prefixes, rfl⟩
  | x87 h => fin_cases h <;> exact ⟨x87Form host _ prefixes, rfl⟩
  | groupF6F7 h => rcases h with rfl | rfl <;> exact ⟨groupF6F7Form _ prefixes, rfl⟩
  | groupFf => exact ⟨groupFfForm prefixes, rfl⟩
  | setcc h =>
      rw [Opcode.execute, executeTwoByte_of_setcc h]
      exact ⟨setccForm _ prefixes, rfl⟩
  | cmovcc h =>
      rw [Opcode.execute, executeTwoByte_of_cmovcc h]
      exact ⟨cmovccForm _ prefixes, rfl⟩
  | hint h => fin_cases h <;> exact ⟨hintForm prefixes, rfl⟩
  | bitString h => fin_cases h <;> exact ⟨bitStringForm _ prefixes, rfl⟩
  | doubleShift h => fin_cases h <;> exact ⟨doubleShiftForm _ prefixes, rfl⟩
  | groupAe => exact ⟨groupAeForm prefixes, rfl⟩
  | imulRegister => exact ⟨imulRegisterForm prefixes, rfl⟩
  | cmpxchg h => rcases h with rfl | rfl <;> exact ⟨cmpxchgForm _ prefixes, rfl⟩
  | extend h => fin_cases h <;> exact ⟨extendForm _ prefixes, rfl⟩
  | groupBa => exact ⟨groupBaForm prefixes, rfl⟩
  | bitScan h => rcases h with rfl | rfl <;> exact ⟨bitScanForm _ prefixes, rfl⟩
  | xadd h => rcases h with rfl | rfl <;> exact ⟨xaddForm _ prefixes, rfl⟩
  | movnti => exact ⟨movntiForm prefixes, rfl⟩
  | packed h _ =>
      rw [Opcode.execute, executeTwoByte_of_packedInteger h]
      exact ⟨packedForm prefixes _, rfl⟩
  | selected h _ =>
      rw [Opcode.execute, executeTwoByte_of_packedInteger h]
      exact ⟨selectedForm prefixes _, rfl⟩
  | storeXmm h => rcases h with rfl | rfl | rfl <;> exact ⟨storeXmmForm prefixes, rfl⟩
  | loadXmm => exact ⟨loadXmmForm prefixes, rfl⟩
  | byteShift => exact ⟨byteShiftForm prefixes, rfl⟩
  | movq => exact ⟨movqForm prefixes, rfl⟩
  | storeLow => exact ⟨storeLowForm prefixes, rfl⟩
  | pmovmskb => exact ⟨pmovmskbForm prefixes, rfl⟩
  | sseFloat h =>
      rw [Opcode.execute, executeTwoByte_of_isSseFloat h]
      exact ⟨sseFloatForm host _ prefixes, rfl⟩

/-- An instruction that returns has run what comes after its operand. -/
theorem OperandRest.execute (h : OperandRest host prefixes opcode rest)
    {emulator selected decoded after : Emulator} {modrm : ModRM} {address : DecodedAddress}
    (hmodrm : fetchModrm prefixes emulator = .ok modrm selected)
    (haddress : decodeMemoryAddress prefixes modrm selected = .ok address decoded)
    (hmemory : modrm.isRegister = false)
    (hrun : opcode.execute host prefixes emulator = .ok () after) :
    rest modrm (.memory address) decoded = .ok () after := by
  rcases h.exists_form with ⟨form, rfl⟩
  exact form.handler_eq hmodrm haddress hmemory hrun

/-! ## Coverage -/

/-- The supported opcodes that decode no operand: register and immediate forms, transfers,
string instructions, the escape byte, and the hint `0F 1E`, which passes over its ModRM byte. -/
def Opcode.WithoutOperand : Opcode → Bool
  | oneByte byte =>
      (byte ≤ 0x3d ∧ (byte &&& 7 = 4 ∨ byte &&& 7 = 5)) ∨ (0x50 ≤ byte ∧ byte ≤ 0x5f) ∨
        (0x70 ≤ byte ∧ byte ≤ 0x7f) ∨ (0x90 ≤ byte ∧ byte ≤ 0x97) ∨
        (0xb0 ≤ byte ∧ byte ≤ 0xbf) ∨
        byte ∈ ([0x0f, 0x68, 0x6a, 0x98, 0x99, 0xa4, 0xa5, 0xa8, 0xa9, 0xaa, 0xab, 0xc2, 0xc3,
          0xc9, 0xe0, 0xe1, 0xe2, 0xe3, 0xe8, 0xe9, 0xeb, 0xf8, 0xfc, 0xfd] : List U8)
  | twoByte byte =>
      (0x80 ≤ byte ∧ byte ≤ 0x8f) ∨ (0xc8 ≤ byte ∧ byte ≤ 0xcf) ∨
        byte ∈ ([0x05, 0x1e, 0x31, 0xa2] : List U8)

/-- Every other one-byte opcode that can return is in the table. -/
theorem exists_operandRest_oneByte {emulator after : Emulator}
    (hrun : (Opcode.oneByte byte).execute host prefixes emulator = .ok () after)
    (hoperand : (Opcode.oneByte byte).WithoutOperand = false) :
    ∃ rest, OperandRest host prefixes (.oneByte byte) rest := by
  have hself : byte = BitVec.ofNat 8 byte.toNat := by simp
  have hwithout := of_decide_eq_false hoperand
  change execute host prefixes byte emulator = _ at hrun
  rw [execute] at hrun
  by_cases harithmetic : byte ≤ 0x3d ∧ byte &&& 7 ≤ 5
  · by_cases hregister : byte &&& 7 ≤ 3
    · exact ⟨_, .aluRmReg ⟨harithmetic.1, hregister⟩⟩
    · have hlow : byte &&& 7 = 4 ∨ byte &&& 7 = 5 := by
        generalize byte &&& 7 = low at *
        bv_omega
      exact absurd (Or.inl ⟨harithmetic.1, hlow⟩) hwithout
  · have hpush : ¬(0x50 ≤ byte ∧ byte ≤ 0x57) := fun h =>
      hwithout (Or.inr (Or.inl ⟨h.1, BitVec.le_trans h.2 (by decide)⟩))
    have hpop : ¬(0x58 ≤ byte ∧ byte ≤ 0x5f) := fun h =>
      hwithout (Or.inr (Or.inl ⟨BitVec.le_trans (by decide) h.1, h.2⟩))
    have hjcc : ¬(0x70 ≤ byte ∧ byte ≤ 0x7f) := fun h => hwithout (Or.inr (Or.inr (Or.inl h)))
    have hxchg : ¬(0x90 ≤ byte ∧ byte ≤ 0x97) := fun h =>
      hwithout (Or.inr (Or.inr (Or.inr (Or.inl h))))
    have hmov : ¬(0xb0 ≤ byte ∧ byte ≤ 0xbf) := fun h =>
      hwithout (Or.inr (Or.inr (Or.inr (Or.inr (Or.inl h)))))
    rw [if_neg harithmetic, if_neg hjcc, if_neg hxchg, if_neg hmov, if_neg hpush,
      if_neg hpop] at hrun
    generalize hprogram : executeOpcode host byte prefixes = program at hrun
    unfold executeOpcode at hprogram
    split at hprogram
    all_goals subst hprogram
    all_goals first
      | exact absurd hrun (unsupported_ne_ok _)
      | rename_i hbyte
        rw [hbyte] at hself
        subst hself
        first
        | exact absurd (by decide) hwithout
        | exact ⟨_, .movsxd⟩
        | exact ⟨_, .imulImmediate (by decide)⟩
        | exact ⟨_, .aluImm (by decide)⟩
        | exact ⟨_, .test (by decide)⟩
        | exact ⟨_, .xchg⟩
        | exact ⟨_, .movStore (by decide)⟩
        | exact ⟨_, .movLoad (by decide)⟩
        | exact ⟨_, .lea⟩
        | exact ⟨_, .popOperand⟩
        | exact ⟨_, .shiftGroup (by decide)⟩
        | exact ⟨_, .movOperandImmediate (by decide)⟩
        | exact ⟨_, .x87 (by decide)⟩
        | exact ⟨_, .groupF6F7 (by decide)⟩
        | exact ⟨_, .groupFf⟩

/-- The packed integer opcodes are in the table. -/
theorem exists_operandRest_packed {program : EmulatorProgram Unit}
    (h : packedInteger byte prefixes = some program) :
    ∃ rest, OperandRest host prefixes (.twoByte byte) rest := by
  have hself : byte = BitVec.ofNat 8 byte.toNat := by simp
  unfold packedInteger at h
  split at h
  all_goals first
    | cases h
      rename_i hbyte
      rw [hbyte] at hself
      subst hself
      first
      | exact ⟨_, .storeXmm (by decide)⟩
      | exact ⟨_, .loadXmm⟩
      | exact ⟨_, .byteShift⟩
      | exact ⟨_, .movq⟩
      | exact ⟨_, .storeLow⟩
      | exact ⟨_, .pmovmskb⟩
      | exact ⟨_, .packed rfl (by decide)⟩
      | exact ⟨_, .selected rfl (by decide)⟩
    | cases h

/-- Every other opcode behind `0F` that can return is in the table. -/
theorem exists_operandRest_twoByte {emulator after : Emulator}
    (hrun : (Opcode.twoByte byte).execute host prefixes emulator = .ok () after)
    (hoperand : (Opcode.twoByte byte).WithoutOperand = false) :
    ∃ rest, OperandRest host prefixes (.twoByte byte) rest := by
  have hself : byte = BitVec.ofNat 8 byte.toNat := by simp
  have hwithout := of_decide_eq_false hoperand
  change executeTwoByte host byte prefixes emulator = _ at hrun
  have hjcc : ¬(0x80 ≤ byte ∧ byte ≤ 0x8f) := fun h => hwithout (Or.inl h)
  have hbswap : ¬(0xc8 ≤ byte ∧ byte ≤ 0xcf) := fun h => hwithout (Or.inr (Or.inl h))
  by_cases hsetcc : 0x90 ≤ byte ∧ byte ≤ 0x9f
  · exact ⟨_, .setcc hsetcc⟩
  by_cases hcmovcc : 0x40 ≤ byte ∧ byte ≤ 0x4f
  · exact ⟨_, .cmovcc hcmovcc⟩
  generalize hprogram : executeTwoByte host byte prefixes = program at hrun
  rw [executeTwoByte, if_neg hjcc, if_neg hsetcc, if_neg hcmovcc, if_neg hbswap] at hprogram
  split at hprogram
  all_goals subst hprogram
  all_goals first
    | rename_i hbyte
      rw [hbyte] at hself
      subst hself
      first
      | exact absurd (by decide) hwithout
      | exact ⟨_, .hint (by decide)⟩
      | exact ⟨_, .bitString (by decide)⟩
      | exact ⟨_, .doubleShift (by decide)⟩
      | exact ⟨_, .groupAe⟩
      | exact ⟨_, .imulRegister⟩
      | exact ⟨_, .cmpxchg (by decide)⟩
      | exact ⟨_, .extend (by decide)⟩
      | exact ⟨_, .groupBa⟩
      | exact ⟨_, .bitScan (by decide)⟩
      | exact ⟨_, .xadd (by decide)⟩
      | exact ⟨_, .movnti⟩
    | cases hpacked : packedInteger byte prefixes with
      | some program => exact exists_operandRest_packed hpacked
      | none =>
          by_cases hfloat : isSseFloat byte = true
          · exact ⟨_, .sseFloat hfloat⟩
          · simp only [executeSse, hpacked, if_neg hfloat] at hrun
            exact absurd hrun (unsupported_ne_ok _)

/-- Every opcode that returns and decodes an operand is in the table. -/
theorem exists_operandRest {emulator after : Emulator}
    (hrun : opcode.execute host prefixes emulator = .ok () after)
    (hoperand : opcode.WithoutOperand = false) :
    ∃ rest, OperandRest host prefixes opcode rest := by
  cases opcode with
  | oneByte byte => exact exists_operandRest_oneByte hrun hoperand
  | twoByte byte => exact exists_operandRest_twoByte hrun hoperand

/-! ## Steps -/

/-- Decoding an instruction moves the decoder, nothing else. -/
theorem decodeInstruction_eq_ok {emulator decoded : Emulator}
    (h : decodeInstruction emulator = .ok (prefixes, opcode) decoded) :
    ∃ pc, decoded = afterDecoding emulator pc := by
  rcases bind_eq_ok_iff.mp h with ⟨first, middle, hfirst, hrest⟩
  rcases decodeOpcode_eq_ok hfirst with ⟨pc, rfl⟩
  by_cases hescape : first.2 = 0x0f
  · simp only [if_pos hescape] at hrest
    rcases bind_eq_ok_iff.mp hrest with ⟨second, moved, hfetch, hreturn⟩
    rw [fetch8_eq_ok hfetch] at hreturn
    cases hreturn
    exact ⟨_, rfl⟩
  · simp only [if_neg hescape] at hrest
    cases hrest
    exact ⟨pc, rfl⟩

/-- A step of a decoded instruction. -/
theorem step_of_decodedInstruction {emulator decoded : Emulator}
    (h : decodeInstruction emulator = .ok (prefixes, opcode) decoded) :
    step host emulator =
      (do opcode.execute host prefixes; modifyCPU finishInstruction : EmulatorProgram Unit)
        decoded := by
  rcases bind_eq_ok_iff.mp h with ⟨⟨prefixes', first⟩, middle, hdecode, hrest⟩
  rw [step_of_decoded hdecode]
  by_cases hescape : first = 0x0f
  · subst hescape
    rcases bind_eq_ok_iff.mp hrest with ⟨second, last, hsecond, hreturn⟩
    cases hreturn
    have hexecute : execute host prefixes 0x0f middle =
        (Opcode.twoByte second).execute host prefixes decoded := bind_of_ok hsecond
    exact bind_congr_outcome hexecute _
  · have hreturn : (pure (prefixes', Opcode.oneByte first) : EmulatorProgram _) middle =
        .ok (prefixes, opcode) decoded := by
      rw [← hrest]
      exact (congrFun (if_neg hescape) middle).symm
    cases hreturn
    rfl

/-- A step that returns has decoded an instruction and executed it. -/
theorem exists_decodeInstruction {emulator after : Emulator}
    (h : step host emulator = .ok () after) :
    ∃ prefixes opcode decoded final, decodeInstruction emulator = .ok (prefixes, opcode) decoded ∧
      opcode.execute host prefixes decoded = .ok () final ∧
      after = final.withCPU (finishInstruction final.cpu) := by
  rcases bind_eq_ok_iff.mp h with ⟨⟨prefixes, byte⟩, middle, hopcode, hrest⟩
  rcases bind_eq_ok_iff.mp hrest with ⟨_, final, hexecute, hfinish⟩
  cases hfinish
  by_cases hescape : byte = 0x0f
  · subst hescape
    have hescaped : execute0f host prefixes middle = .ok () final := hexecute
    rcases bind_eq_ok_iff.mp hescaped with ⟨second, decoded, hsecond, hrun⟩
    refine ⟨prefixes, .twoByte second, decoded, final, ?_, hrun, rfl⟩
    rw [decodeInstruction, bind_of_ok hopcode]
    exact bind_of_ok hsecond
  · refine ⟨prefixes, .oneByte byte, middle, final, ?_, hexecute, rfl⟩
    rw [decodeInstruction, bind_of_ok hopcode]
    exact congrFun (if_neg hescape) middle

end Table

end SoftCPU64

end LUE
