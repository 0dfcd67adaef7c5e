import LinuxUserspaceEmulator.SoftCPU64.Immediates
import LinuxUserspaceEmulator.SoftCPU64.TwoDecodes

/-!
# Taint of explicit operands

The moves, the logical operations, addition, subtraction and the comparisons read what their
encodings name.  Two states that differ in uninitialized data only are taken to such states by
each of these instructions: what depends on uninitialized data is marked as such.

Main results:

- Theorem `ends_aluRmReg`: two-operand operations, a register with itself among them.
- Theorem `step_explicitOperands`: one step of two such states.
-/

namespace LUE

open StateExcept

namespace SoftCPU64

variable {last : Nat} {fetching : Bool} {P : Prop} {s t s' t' : Emulator} {prefixes : Prefixes}
  {α : Type}

/-! ## Programs at the end of an instruction -/

/-- From states in step the program ends in states in step. -/
def Ends (last : Nat) (program : EmulatorProgram Unit) : Prop :=
  TwoRuns last (InStep last true True) program program fun _ _ => InStep last false True

/-- A write that ends an instruction. -/
theorem twoRuns_writeLast (operand : Operand) (width : Width) (prefixes : Prefixes)
    {value value' : U64} (hvalue : P → value = value') :
    TwoRuns last (InStep last fetching P) (writeOperand operand width value prefixes)
      (writeOperand operand width value' prefixes) fun _ _ => InStep last false True :=
  (twoRuns_writeOperand operand width prefixes hvalue).weaken (fun _ _ hst => hst)
    fun _ _ _ _ hst => hst.mono fun _ => trivial

/-- A register write that ends an instruction. -/
theorem twoRuns_writeGprLast (register : Register) (width : Width) (prefixes : Prefixes)
    {value value' : U64} (hvalue : P → value = value') :
    TwoRuns last (InStep last fetching P) (writeGpr register width value prefixes)
      (writeGpr register width value' prefixes) fun _ _ => InStep last false True :=
  (twoRuns_writeGpr register width prefixes hvalue).weaken (fun _ _ hst => hst)
    fun _ _ _ _ hst => hst.fetched.mono fun _ => trivial

/-- Logical flags that end an instruction. -/
theorem twoRuns_setLogicFlagsLast (width : Width) {result result' : U64}
    (hresult : P → result = result') :
    TwoRuns last (InStep last fetching P)
      (modifyCPU fun cpu => cpu.setLogicFlags result width)
      (modifyCPU fun cpu => cpu.setLogicFlags result' width)
      fun _ _ => InStep last false True :=
  (twoRuns_setLogicFlags width hresult).weaken (fun _ _ hst => hst)
    fun _ _ _ _ hst => hst.fetched.mono fun _ => trivial

/-! ## Moves -/

theorem ends_movStore (opcode : U8) (modrm : ModRM) (operand : Operand) :
    Ends last ((movStoreForm opcode prefixes).rest modrm operand) :=
  (twoRuns_readGpr _ _ _).bind fun _ _ => twoRuns_writeLast _ _ _ And.right

theorem ends_movLoad (opcode : U8) (modrm : ModRM) (operand : Operand) :
    Ends last ((movLoadForm opcode prefixes).rest modrm operand) :=
  (twoRuns_readOperand _ _ _).bind fun _ _ => twoRuns_writeGprLast _ _ _ And.right

theorem ends_movsxd (modrm : ModRM) (operand : Operand) :
    Ends last ((movsxdForm prefixes).rest modrm operand) :=
  (twoRuns_readOperand _ _ _).bind fun _ _ => twoRuns_writeGprLast _ _ _ fun hP =>
    congrArg (fun value => signExtend value .w32) hP.2

theorem ends_extend (opcode : U8) (modrm : ModRM) (operand : Operand) :
    Ends last ((extendForm opcode prefixes).rest modrm operand) := by
  refine (twoRuns_readOperand _ _ _).bind fun value value' => twoRuns_writeGprLast _ _ _ ?_
  rintro ⟨-, rfl⟩
  rfl

theorem ends_movOperandImmediate (opcode : U8) (modrm : ModRM) (operand : Operand) :
    Ends last ((movOperandImmediateForm opcode prefixes).rest modrm operand) :=
  (twoRuns_fetchImmediate _).bindSame fun _ => twoRuns_writeLast _ _ _ fun _ => rfl

theorem ends_movImmediate (opcode : U8) : Ends last (executeMovImmediate opcode prefixes) := by
  refine Lockstep.ite (fun _ => ?_) fun _ => ?_
  · exact twoRuns_fetch8.bindSame fun _ => twoRuns_writeGprLast _ _ _ fun _ => rfl
  · exact (twoRuns_fetchInteger _).bindSame fun _ => twoRuns_writeGprLast _ _ _ fun _ => rfl

theorem ends_xchg (modrm : ModRM) (operand : Operand) :
    Ends last ((xchgForm prefixes).rest modrm operand) :=
  (twoRuns_readOperand _ _ _).bind fun _ _ => (twoRuns_readGpr _ _ _).bind fun _ _ =>
    (twoRuns_writeOperand _ _ _ And.right).bind fun _ _ =>
      twoRuns_writeGprLast _ _ _ fun hP => hP.1.2

/-! ## Tests -/

theorem ends_test (opcode : U8) (modrm : ModRM) (operand : Operand) :
    Ends last ((testForm opcode prefixes).rest modrm operand) :=
  (twoRuns_readOperand _ _ _).bind fun _ _ => (twoRuns_readGpr _ _ _).bind fun _ _ =>
    twoRuns_setLogicFlagsLast _ fun hP => congrArg₂ (· &&& ·) hP.1.2 hP.2

theorem ends_testAccumulator (opcode : U8) :
    Ends last (executeTestAccumulator opcode prefixes) := by
  refine (twoRuns_readGpr _ _ _).bind fun value value' => Lockstep.ite (fun _ => ?_) fun _ => ?_
  · exact twoRuns_fetch8.bindSame fun imm =>
      twoRuns_setLogicFlagsLast _ fun hP => congrArg (· &&& imm.setWidth 64) hP.2
  · exact (twoRuns_fetchInteger 4).bindSame fun imm =>
      twoRuns_setLogicFlagsLast _ fun hP => congrArg (· &&& _) hP.2

/-! ## Operations -/

/-- Programs in step, when those that take the carry in are left out. -/
theorem twoRuns_operation {operation : Nat} (hoperation : operation ≠ 2 ∧ operation ≠ 3)
    {lhs rhs lhs' rhs' mask : U64} {width : Width} {write : U64 → EmulatorProgram Unit}
    (hvalues : P → lhs = lhs' ∧ rhs = rhs')
    (hwrite : ∀ value value', TwoRuns last (InStep last fetching (P ∧ value = value'))
      (write value) (write value') fun _ _ => InStep last false True) :
    TwoRuns last (InStep last fetching P) (executeOperation operation lhs rhs width mask write)
      (executeOperation operation lhs' rhs' width mask write)
      fun _ _ => InStep last false True :=
  (twoRuns_executeOperation operation hvalues hwrite).weaken
    (fun _ _ hst => ⟨hst, fun hcarry => (hcarry.elim hoperation.1 hoperation.2).elim⟩)
    fun _ _ _ _ hst => hst

theorem ends_aluImm (opcode : U8) (modrm : ModRM) (operand : Operand)
    (hoperation : modrm.operation ≠ 2 ∧ modrm.operation ≠ 3) :
    Ends last ((aluImmForm opcode prefixes).rest modrm operand) := by
  have hrest : ∀ (width : Width) (imm : U64), TwoRuns last (InStep last true True)
      (do
        let lhs ← readOperand operand width prefixes
        executeOperation modrm.operation lhs imm width (maskForWidth width) fun result =>
          writeOperand operand width result prefixes)
      (do
        let lhs ← readOperand operand width prefixes
        executeOperation modrm.operation lhs imm width (maskForWidth width) fun result =>
          writeOperand operand width result prefixes)
      fun _ _ => InStep last false True := fun width imm =>
    (twoRuns_readOperand _ _ _).bind fun _ _ =>
      twoRuns_operation hoperation (fun hP => ⟨hP.2, rfl⟩) fun _ _ =>
        twoRuns_writeLast _ _ _ And.right
  refine Lockstep.ite (fun _ => ?_) fun _ => ?_
  · exact twoRuns_fetch8.bindSame fun imm => hrest _ _
  · exact (twoRuns_fetchImmediate _).bindSame fun imm => hrest _ imm

theorem ends_aluAccumulator (opcode : U8)
    (hoperation : (opcode >>> 3).toNat ≠ 2 ∧ (opcode >>> 3).toNat ≠ 3) :
    Ends last (executeAluAccumulator opcode prefixes) := by
  refine (twoRuns_readGpr _ _ _).bind fun lhs lhs' => ?_
  have hrest : ∀ (width : Width) (imm : U64), TwoRuns last (InStep last true (True ∧ lhs = lhs'))
      (executeOperation (opcode >>> 3).toNat lhs imm width (BitVec.allOnes 64) fun result =>
        writeGpr .rax width result prefixes)
      (executeOperation (opcode >>> 3).toNat lhs' imm width (BitVec.allOnes 64) fun result =>
        writeGpr .rax width result prefixes)
      fun _ _ => InStep last false True := fun width imm =>
    twoRuns_operation hoperation (fun hP => ⟨hP.2, rfl⟩) fun _ _ =>
      twoRuns_writeGprLast _ _ _ And.right
  refine Lockstep.ite (fun _ => ?_) fun _ => Lockstep.ite (fun _ => ?_) fun _ => ?_
  · exact twoRuns_fetch8.bindSame fun imm => hrest _ _
  · exact (twoRuns_fetchInteger 2).bindSame fun imm => hrest _ imm
  · exact (twoRuns_fetchInteger 4).bindSame fun imm => hrest _ _

/-- The unary and test operations of the group that divides. -/
theorem ends_groupF6F7 (opcode : U8) (modrm : ModRM) (operand : Operand)
    (hoperation : modrm.operation = 0 ∨ modrm.operation = 2 ∨ modrm.operation = 3) :
    Ends last ((groupF6F7Form opcode prefixes).rest modrm operand) := by
  unfold groupF6F7Form OperandForm.ofSequence
  dsimp only
  rcases hoperation with hzero | htwo | hthree
  · rw [hzero]
    have hrest : ∀ (width : Width) (imm : U64), TwoRuns last (InStep last true True)
        (do
          let value ← readOperand operand width prefixes
          modifyCPU fun cpu => cpu.setLogicFlags (value &&& imm) width)
        (do
          let value ← readOperand operand width prefixes
          modifyCPU fun cpu => cpu.setLogicFlags (value &&& imm) width)
        fun _ _ => InStep last false True := fun width imm =>
      (twoRuns_readOperand _ _ _).bind fun _ _ =>
        twoRuns_setLogicFlagsLast _ fun hP => congrArg (· &&& imm) hP.2
    refine Lockstep.ite (fun _ => ?_) fun _ => ?_
    · exact twoRuns_fetch8.bindSame fun imm => hrest _ _
    · exact (twoRuns_fetchInteger _).bindSame fun imm => hrest _ imm
  · rw [htwo]
    exact (twoRuns_readOperand _ _ _).bind fun _ _ =>
      twoRuns_writeLast _ _ _ fun hP => congrArg (~~~ ·) hP.2
  · rw [hthree]
    refine (twoRuns_readOperand _ _ _).bind fun value value' => ?_
    refine Lockstep.bind ((twoRuns_sub _ false fun hP => ⟨rfl, hP.2⟩).weaken
      (fun _ _ hst => ⟨hst, fun h => by cases h⟩) fun _ _ _ _ hst => hst) fun _ _ =>
        twoRuns_writeLast _ _ _ And.right

/-- The address of a memory operand is the value. -/
theorem ends_lea (modrm : ModRM) :
    TwoRuns last (InStep last true True)
      (do
        let decoded ← decodeMemoryAddress prefixes modrm
        writeGpr modrm.reg (operandWidth prefixes) decoded.address prefixes)
      (do
        let decoded ← decodeMemoryAddress prefixes modrm
        writeGpr modrm.reg (operandWidth prefixes) decoded.address prefixes)
      fun _ _ => InStep last false True :=
  (twoRuns_decodeMemoryAddress prefixes modrm).bind fun _ _ =>
    twoRuns_writeGprLast _ _ _ fun hP => congrArg DecodedAddress.address hP.2

/-! ## A register with itself -/

/-- Reading a register a second time gives the same value and changes nothing. -/
theorem readGpr_twice (register : Register) (width : Width) (f : U64 → U64 → EmulatorProgram α) :
    (do
      let lhs ← readGpr register width prefixes
      let rhs ← readGpr register width prefixes
      f lhs rhs) =
    (do
      let lhs ← readGpr register width prefixes
      f lhs lhs) := by
  funext emulator
  rw [bind_of_ok (readGpr_apply register width prefixes emulator),
    bind_of_ok (readGpr_apply register width prefixes emulator),
    bind_of_ok (readGpr_apply register width prefixes _)]
  have hagain : afterReadGpr register width prefixes
      (afterReadGpr register width prefixes emulator) =
        afterReadGpr register width prefixes emulator ∧
      (afterReadGpr register width prefixes emulator).cpu.gpr = emulator.cpu.gpr := by
    unfold afterReadGpr
    by_cases hclear : readLane emulator.cpu.gprShadow register width prefixes = 0
    · simp only [if_pos hclear, and_self]
    · rw [if_neg hclear]
      exact ⟨if_neg hclear, rfl⟩
  rw [hagain.1, hagain.2]

/-- A value minus itself does not depend on the value. -/
theorem sub_self_eq (cpu : SoftCPU64) (value : U64) (width : Width) :
    cpu.sub value value width false = cpu.sub 0 0 width false := by
  simp [sub]

/-- Subtraction, exclusive or and comparison of a value with itself do not depend on it. -/
theorem executeOperation_self {operation : Nat}
    (hoperation : operation = 5 ∨ operation = 6 ∨ operation = 7) (value : U64) (width : Width)
    (mask : U64) (write : U64 → EmulatorProgram Unit) :
    executeOperation operation value value width mask write =
      executeOperation operation 0 0 width mask write := by
  rcases hoperation with rfl | rfl | rfl
  · simp only [executeOperation, sub_self_eq _ value]
  · simp only [executeOperation, BitVec.xor_self]
  · simp only [executeOperation, sub_self_eq _ value]

/-- `m_current_taint = false`. -/
def untaint (cpu : SoftCPU64) : SoftCPU64 :=
  { cpu with currentTaint := false }

/-- The destination, the source and the width of a two-operand opcode. -/
def aluDestination (opcode : U8) (modrm : ModRM) (rm : Operand) : Operand :=
  if (opcode &&& 7).toNat = 2 ∨ (opcode &&& 7).toNat = 3 then .register modrm.reg else rm

def aluSource (opcode : U8) (modrm : ModRM) (rm : Operand) : Operand :=
  if (opcode &&& 7).toNat = 2 ∨ (opcode &&& 7).toNat = 3 then rm else .register modrm.reg

def aluWidth (opcode : U8) (prefixes : Prefixes) : Width :=
  if (opcode &&& 7).toNat = 0 ∨ (opcode &&& 7).toNat = 2 then .w8 else operandWidth prefixes

/-- The operation of a two-operand opcode on values, and the write of its result. -/
def operateOn (opcode : U8) (prefixes : Prefixes) (modrm : ModRM) (rm : Operand)
    (lhs rhs : U64) : EmulatorProgram Unit :=
  executeOperation (opcode >>> 3).toNat lhs rhs (aluWidth opcode prefixes)
    (maskForWidth (aluWidth opcode prefixes)) fun result =>
      writeOperand (aluDestination opcode modrm rm) (aluWidth opcode prefixes) result prefixes

/-- The operation is one whose result does not depend on equal operands. -/
def IsSelfOperation (opcode : U8) : Prop :=
  (opcode >>> 3).toNat = 5 ∨ (opcode >>> 3).toNat = 6 ∨ (opcode >>> 3).toNat = 7

instance (opcode : U8) : Decidable (IsSelfOperation opcode) :=
  inferInstanceAs (Decidable (_ ∨ _))

theorem aluRmReg_rest (opcode : U8) (modrm : ModRM) (rm : Operand) :
    (aluRmRegForm opcode prefixes).rest modrm rm = (do
      let lhs ← readOperand (aluDestination opcode modrm rm) (aluWidth opcode prefixes) prefixes
      let rhs ← readOperand (aluSource opcode modrm rm) (aluWidth opcode prefixes) prefixes
      if rm = .register modrm.reg ∧ IsSelfOperation opcode then modifyCPU untaint
      operateOn opcode prefixes modrm rm lhs rhs) :=
  rfl

/-- A register with itself: what the register holds does not matter. -/
theorem aluRmReg_self {opcode : U8} {modrm : ModRM} (hoperation : IsSelfOperation opcode) :
    (aluRmRegForm opcode prefixes).rest modrm (.register modrm.reg) = (do
      let _ ← readGpr modrm.reg (aluWidth opcode prefixes) prefixes
      modifyCPU untaint
      operateOn opcode prefixes modrm (.register modrm.reg) 0 0) := by
  rw [aluRmReg_rest]
  simp only [aluDestination, aluSource, ite_self, true_and, if_pos hoperation]
  refine (readGpr_twice modrm.reg _ _).trans ?_
  refine bind_congr fun lhs => bind_congr fun _ => ?_
  exact executeOperation_self hoperation lhs _ _ _

theorem twoRuns_operateOn {opcode : U8}
    (hoperation : (opcode >>> 3).toNat ≠ 2 ∧ (opcode >>> 3).toNat ≠ 3) (modrm : ModRM)
    (rm : Operand) {lhs rhs lhs' rhs' : U64} (hvalues : P → lhs = lhs' ∧ rhs = rhs') :
    TwoRuns last (InStep last true P) (operateOn opcode prefixes modrm rm lhs rhs)
      (operateOn opcode prefixes modrm rm lhs' rhs') fun _ _ => InStep last false True :=
  twoRuns_operation hoperation hvalues fun _ _ => twoRuns_writeLast _ _ _ And.right

/-- After the taint of an instruction was taken back nothing is known about its values. -/
theorem twoRuns_untaint :
    TwoRuns last (InStep last fetching P) (modifyCPU untaint) (modifyCPU untaint)
      fun _ _ => InStep last fetching True := by
  refine twoRuns_modifyCPU (fun _ => rfl) fun s t hst => ?_
  have hcpu : (untaint s.cpu).SameInitialized (untaint t.cpu) :=
    hst.same.cpu.map untaint (fun _ _ => rfl) rfl
  exact hst.withCPU hcpu rfl fun _ => trivial

/-- The two-operand operations, a register with itself among them. -/
theorem ends_aluRmReg {opcode : U8}
    (hoperation : (opcode >>> 3).toNat ≠ 2 ∧ (opcode >>> 3).toNat ≠ 3) (modrm : ModRM)
    (rm : Operand) : Ends last ((aluRmRegForm opcode prefixes).rest modrm rm) := by
  by_cases hself : rm = .register modrm.reg ∧ IsSelfOperation opcode
  · rcases hself with ⟨rfl, hidiom⟩
    rw [aluRmReg_self hidiom]
    exact (twoRuns_readGpr _ _ _).bind fun _ _ => twoRuns_untaint.bind fun _ _ =>
      twoRuns_operateOn hoperation modrm _ fun _ => ⟨rfl, rfl⟩
  · rw [aluRmReg_rest]
    simp only [if_neg hself]
    exact (twoRuns_readOperand _ _ _).bind fun _ _ => (twoRuns_readOperand _ _ _).bind fun _ _ =>
      twoRuns_operateOn hoperation modrm rm fun hP => ⟨hP.1.2, hP.2⟩

/-- The flags and the destination that an operation of a register with itself leaves. -/
structure Initialized (cpu : SoftCPU64) (register : Register) (width : Width)
    (prefixes : Prefixes) : Prop where
  flags : cpu.flagsTainted = false
  lane : readLane cpu.gprShadow register width prefixes = 0

theorem initialized_withGpr {cpu : SoftCPU64} (htaint : cpu.currentTaint = false)
    (hflags : cpu.flagsTainted = false) (register : Register) (width : Width) (value : U64) :
    Initialized (cpu.withGpr register width value prefixes) register width prefixes := by
  refine ⟨hflags, ?_⟩
  have hshadow : (cpu.withGpr register width value prefixes).gprShadow =
      writeLane cpu.gprShadow register width prefixes 0 := by
    rw [withGpr, htaint]
    rfl
  rw [hshadow, readLane_writeLane]
  exact BitVec.zero_and

/-- Subtraction and exclusive or of a register with itself give initialized registers and
flags, whatever the register held. -/
theorem initialized_aluRmReg_self {opcode : U8} {modrm : ModRM}
    (hoperation : (opcode >>> 3).toNat = 5 ∨ (opcode >>> 3).toNat = 6)
    (h : (aluRmRegForm opcode prefixes).rest modrm (.register modrm.reg) s = .ok () s') :
    Initialized s'.cpu modrm.reg (aluWidth opcode prefixes) prefixes := by
  rw [aluRmReg_self (hoperation.imp_right Or.inl), bind_of_ok (readGpr_apply _ _ _ s),
    bind_of_ok (modifyCPU_apply _ _)] at h
  have hdestination : aluDestination opcode modrm (.register modrm.reg) = .register modrm.reg :=
    ite_self _
  rw [operateOn, hdestination] at h
  rcases hoperation with hsub | hxor
  · rw [hsub] at h
    cases h
    exact initialized_withGpr rfl rfl _ _ _
  · rw [hxor] at h
    cases h
    exact initialized_withGpr rfl rfl _ _ _

/-- The comparison of a register with itself gives initialized flags. -/
theorem flagsTainted_cmp_self {opcode : U8} {modrm : ModRM} (hoperation : (opcode >>> 3).toNat = 7)
    (h : (aluRmRegForm opcode prefixes).rest modrm (.register modrm.reg) s = .ok () s') :
    s'.cpu.flagsTainted = false := by
  rw [aluRmReg_self (Or.inr (Or.inr hoperation)), bind_of_ok (readGpr_apply _ _ _ s),
    bind_of_ok (modifyCPU_apply _ _), operateOn, hoperation] at h
  cases h
  rfl

/-! ## Instructions -/

/-- `MOV`, `MOVZX`, `MOVSX`, `MOVSXD`, `LEA`, `XCHG`, `NOT`, `NEG`, `TEST`, `ADD`, `OR`, `AND`,
`SUB`, `XOR` and `CMP` in all their encodings, by the opcode and, in the groups, by the ModRM
byte at the decoder. -/
inductive ExplicitOperands (prefixes : Prefixes) (decoded : Emulator) : Opcode → Prop
  | alu {byte : U8} (h : byte ≤ 0x3d ∧ byte &&& 7 ≤ 5)
      (hoperation : (byte >>> 3).toNat ≠ 2 ∧ (byte >>> 3).toNat ≠ 3) :
      ExplicitOperands prefixes decoded (.oneByte byte)
  | aluImm {byte : U8} {modrm : ModRM} {selected : Emulator}
      (h : byte = 0x80 ∨ byte = 0x81 ∨ byte = 0x83)
      (hmodrm : fetchModrm prefixes decoded = .ok modrm selected)
      (hoperation : modrm.operation ≠ 2 ∧ modrm.operation ≠ 3) :
      ExplicitOperands prefixes decoded (.oneByte byte)
  | groupF6F7 {byte : U8} {modrm : ModRM} {selected : Emulator} (h : byte = 0xf6 ∨ byte = 0xf7)
      (hmodrm : fetchModrm prefixes decoded = .ok modrm selected)
      (hoperation : modrm.operation = 0 ∨ modrm.operation = 2 ∨ modrm.operation = 3) :
      ExplicitOperands prefixes decoded (.oneByte byte)
  | test {byte : U8} (h : byte = 0x84 ∨ byte = 0x85) :
      ExplicitOperands prefixes decoded (.oneByte byte)
  | testAccumulator {byte : U8} (h : byte = 0xa8 ∨ byte = 0xa9) :
      ExplicitOperands prefixes decoded (.oneByte byte)
  | xchg : ExplicitOperands prefixes decoded (.oneByte 0x87)
  | movStore {byte : U8} (h : byte = 0x88 ∨ byte = 0x89) :
      ExplicitOperands prefixes decoded (.oneByte byte)
  | movLoad {byte : U8} (h : byte = 0x8a ∨ byte = 0x8b) :
      ExplicitOperands prefixes decoded (.oneByte byte)
  | movImmediate {byte : U8} (h : 0xb0 ≤ byte ∧ byte ≤ 0xbf) :
      ExplicitOperands prefixes decoded (.oneByte byte)
  | movOperandImmediate {byte : U8} (h : byte = 0xc6 ∨ byte = 0xc7) :
      ExplicitOperands prefixes decoded (.oneByte byte)
  | lea : ExplicitOperands prefixes decoded (.oneByte 0x8d)
  | movsxd : ExplicitOperands prefixes decoded (.oneByte 0x63)
  | extend {byte : U8} (h : byte ∈ ([0xb6, 0xb7, 0xbe, 0xbf] : List U8)) :
      ExplicitOperands prefixes decoded (.twoByte byte)

/-- The operand that the ModRM byte at the decoder names has no uninitialized register in its
address. -/
def ClearOperand (prefixes : Prefixes) (decoded : Emulator) : Prop :=
  ∀ modrm selected, fetchModrm prefixes decoded = .ok modrm selected →
    ClearAddress prefixes modrm selected

section Instructions

variable {host : Host} {opcode : Opcode} {handler : EmulatorProgram Unit}

/-- From a decoded state the program leads states in step to states in step. -/
structure StepsFrom (decoded : Emulator) (program : EmulatorProgram Unit) : Prop where
  grows : ∀ {final}, program decoded = .ok () final → position decoded ≤ position final
  related : ∀ {last t final final'}, InStep last true True decoded t →
    program decoded = .ok () final → program t = .ok () final' → position final ≤ last →
      InStep last false True final final'

theorem StepsFrom.of_ends (h : ∀ last, Ends last handler) : StepsFrom s handler where
  grows := fun hrun => (h 0).grows hrun
  related := fun hst hrun hrun' hlast => (h _).related hst hrun hrun' hlast

/-- A program that goes on like another one when it returns. -/
theorem StepsFrom.of_eq_ok {program : EmulatorProgram Unit} (h : StepsFrom s program)
    (hruns : ∀ emulator final, handler emulator = .ok () final → program emulator = .ok () final) :
    StepsFrom s handler where
  grows := fun hrun => h.grows (hruns _ _ hrun)
  related := fun hst hrun hrun' hlast => h.related hst (hruns _ _ hrun) (hruns _ _ hrun') hlast

/-- An instruction with an operand whose address is clear: the operand is the same. -/
theorem StepsFrom.withOperand {rest : ModRM → Operand → EmulatorProgram Unit}
    (huntainted : s.cpu.currentTaint = false) (hclear : ClearOperand prefixes s)
    (hrest : ∀ last modrm selected operand, fetchModrm prefixes s = .ok modrm selected →
      Ends last (rest modrm operand)) :
    StepsFrom s (do
      let modrm ← fetchModrm prefixes
      let operand ← decodeRmOperand prefixes modrm
      rest modrm operand) where
  grows := by
    intro final h
    rcases bind_eq_ok_iff.mp h with ⟨modrm, selected, hmodrm, hoperand⟩
    rcases bind_eq_ok_iff.mp hoperand with ⟨operand, decoded, hdecode, hrun⟩
    have hfetch : TwoRuns 0 (InStep 0 true True) _ _ _ := twoRuns_fetchModrm prefixes
    have hoperands : TwoRuns 0 (InStep 0 true True) _ _ _ :=
      twoRuns_decodeRmOperand prefixes modrm
    have hfetched := hfetch.grows hmodrm
    have hdecoded := hoperands.grows hdecode
    have hended := (hrest 0 modrm selected operand hmodrm).grows hrun
    exact Nat.le_trans hfetched (Nat.le_trans hdecoded hended)
  related := by
    intro last t final final' hst h h' hlast
    rcases bind_eq_ok_iff.mp h with ⟨modrm, selected, hmodrm, hoperand⟩
    rcases bind_eq_ok_iff.mp hoperand with ⟨operand, decoded, hdecode, hrun⟩
    rcases bind_eq_ok_iff.mp h' with ⟨modrm', selected', hmodrm', hoperand'⟩
    rcases bind_eq_ok_iff.mp hoperand' with ⟨operand', decoded', hdecode', hrun'⟩
    have hends := hrest last modrm selected operand hmodrm
    have hoperands : TwoRuns last (InStep last true True) _ _ _ :=
      twoRuns_decodeRmOperand prefixes modrm
    have hdecoded := Nat.le_trans (hends.grows hrun) hlast
    have hselected := Nat.le_trans (hoperands.grows hdecode) hdecoded
    rcases (twoRuns_fetchModrm prefixes).related hst hmodrm hmodrm' hselected with ⟨rfl, hfetched⟩
    have hsame := hoperands.related hfetched hdecode hdecode' hdecoded
    have htaint : decoded.cpu.currentTaint = false := by
      rw [untainted_decodeRmOperand (hclear modrm selected hmodrm) hdecode,
        fetchModrm_eq_ok hmodrm]
      exact huntainted
    rcases (hsame.untainted htaint).2 with rfl
    exact hends.related (hsame.mono fun _ => trivial) hrun hrun' hlast

theorem ends_executeLea : Ends last (executeLea prefixes) :=
  (twoRuns_fetchModrm prefixes).bindSame fun modrm =>
    Lockstep.ite (fun _ => twoRuns_unsupported rfl) fun _ => ends_lea modrm

/-- The move of an immediate to an operand has passed its check of the ModRM byte. -/
theorem executeMovOperandImmediate_eq_ok {byte : U8}
    (h : executeMovOperandImmediate byte prefixes s = .ok () s') :
    (do
      let modrm ← fetchModrm prefixes
      let operand ← decodeRmOperand prefixes modrm
      (movOperandImmediateForm byte prefixes).rest modrm operand : EmulatorProgram Unit) s =
        .ok () s' := by
  rcases bind_eq_ok_iff.mp h with ⟨modrm, selected, hmodrm, hrest⟩
  rw [bind_of_ok hmodrm]
  by_cases hoperation : modrm.operation ≠ 0
  · rw [if_pos hoperation] at hrest
    exact absurd hrest (unsupported_ne_ok _)
  · rw [if_neg hoperation] at hrest
    exact hrest

theorem withoutOperand_aluRmReg : ∀ byte : U8, byte ≤ 0x3d ∧ byte &&& 7 ≤ 3 →
    (Opcode.oneByte byte).WithoutOperand = false := by
  decide

/-- Each of the instructions leads states in step to states in step. -/
theorem stepsFrom_explicitOperands (hexplicit : ExplicitOperands prefixes s opcode)
    (huntainted : s.cpu.currentTaint = false)
    (hclear : opcode.WithoutOperand = false → ClearOperand prefixes s) :
    StepsFrom s (opcode.execute host prefixes) := by
  cases hexplicit with
  | @alu byte hmap hoperation =>
      by_cases hform : byte &&& 7 ≤ 3
      · have hoperand := withoutOperand_aluRmReg byte ⟨hmap.1, hform⟩
        rw [Opcode.execute, execute_of_aluRmReg ⟨hmap.1, hform⟩]
        exact StepsFrom.withOperand huntainted (hclear hoperand)
          fun _ modrm _ operand _ => ends_aluRmReg hoperation modrm operand
      · rw [Opcode.execute, execute_of_aluAccumulator hmap hform]
        exact StepsFrom.of_ends fun _ => ends_aluAccumulator byte hoperation
  | @aluImm byte _ _ hbyte hmodrm hoperation =>
      have hcase : (Opcode.oneByte byte).execute host prefixes = executeAluImm byte prefixes ∧
          (Opcode.oneByte byte).WithoutOperand = false := by
        rcases hbyte with rfl | rfl | rfl <;> exact ⟨rfl, rfl⟩
      rw [hcase.1]
      refine StepsFrom.withOperand huntainted (hclear hcase.2)
        fun _ modrm _ operand hselected => ?_
      rw [hmodrm] at hselected
      cases hselected
      exact ends_aluImm byte _ operand hoperation
  | @groupF6F7 byte _ _ hbyte hmodrm hoperation =>
      have hcase : (Opcode.oneByte byte).execute host prefixes = executeGroupF6F7 byte prefixes ∧
          (Opcode.oneByte byte).WithoutOperand = false := by
        rcases hbyte with rfl | rfl <;> exact ⟨rfl, rfl⟩
      rw [hcase.1]
      refine StepsFrom.withOperand huntainted (hclear hcase.2)
        fun _ modrm _ operand hselected => ?_
      rw [hmodrm] at hselected
      cases hselected
      exact ends_groupF6F7 byte _ operand hoperation
  | @test byte hbyte =>
      have hcase : (Opcode.oneByte byte).execute host prefixes = executeTest byte prefixes ∧
          (Opcode.oneByte byte).WithoutOperand = false := by
        rcases hbyte with rfl | rfl <;> exact ⟨rfl, rfl⟩
      rw [hcase.1]
      exact StepsFrom.withOperand huntainted (hclear hcase.2)
        fun _ modrm _ operand _ => ends_test byte modrm operand
  | testAccumulator hbyte =>
      rcases hbyte with rfl | rfl <;> exact StepsFrom.of_ends fun _ => ends_testAccumulator _
  | xchg =>
      exact StepsFrom.withOperand huntainted (hclear rfl)
        fun _ modrm _ operand _ => ends_xchg modrm operand
  | @movStore byte hbyte =>
      have hcase : (Opcode.oneByte byte).execute host prefixes = executeMovStore byte prefixes ∧
          (Opcode.oneByte byte).WithoutOperand = false := by
        rcases hbyte with rfl | rfl <;> exact ⟨rfl, rfl⟩
      rw [hcase.1]
      exact StepsFrom.withOperand huntainted (hclear hcase.2)
        fun _ modrm _ operand _ => ends_movStore byte modrm operand
  | @movLoad byte hbyte =>
      have hcase : (Opcode.oneByte byte).execute host prefixes = executeMovLoad byte prefixes ∧
          (Opcode.oneByte byte).WithoutOperand = false := by
        rcases hbyte with rfl | rfl <;> exact ⟨rfl, rfl⟩
      rw [hcase.1]
      exact StepsFrom.withOperand huntainted (hclear hcase.2)
        fun _ modrm _ operand _ => ends_movLoad byte modrm operand
  | movImmediate hbyte =>
      rw [Opcode.execute, execute_of_movImmediate hbyte]
      exact StepsFrom.of_ends fun _ => ends_movImmediate _
  | @movOperandImmediate byte hbyte =>
      have hcase : (Opcode.oneByte byte).execute host prefixes =
            executeMovOperandImmediate byte prefixes ∧
          (Opcode.oneByte byte).WithoutOperand = false := by
        rcases hbyte with rfl | rfl <;> exact ⟨rfl, rfl⟩
      rw [hcase.1]
      exact (StepsFrom.withOperand huntainted (hclear hcase.2)
        fun _ modrm _ operand _ => ends_movOperandImmediate byte modrm operand).of_eq_ok
          fun _ _ hrun => executeMovOperandImmediate_eq_ok hrun
  | lea => exact StepsFrom.of_ends fun _ => ends_executeLea
  | movsxd =>
      exact StepsFrom.withOperand huntainted (hclear rfl)
        fun _ modrm _ operand _ => ends_movsxd modrm operand
  | @extend byte hbyte =>
      have hcase : (Opcode.twoByte byte).execute host prefixes = executeExtend byte prefixes ∧
          (Opcode.twoByte byte).WithoutOperand = false := by
        fin_cases hbyte <;> exact ⟨rfl, rfl⟩
      rw [hcase.1]
      exact StepsFrom.withOperand huntainted (hclear hcase.2)
        fun _ modrm _ operand _ => ends_extend byte modrm operand

/-! ## Steps -/

/-- The two states have the same code from an address up to another. -/
def SameCodeBetween (start stop : U64) (s t : Emulator) : Prop :=
  ∀ address byte byte', start.toNat ≤ address.toNat → address.toNat < stop.toNat →
    s.mmu.read8 address = .ok byte → t.mmu.read8 address = .ok byte' → byte = byte'

/-- A step from a state that differs in uninitialized data only decodes the same instruction;
when that leads states in step to states in step, so does the step. -/
theorem StepsFrom.step {decoded : Emulator}
    (hsteps : StepsFrom decoded (opcode.execute host prefixes))
    (hdecode : decodeInstruction s = .ok (prefixes, opcode) decoded)
    (hsame : s.SameInitialized t) (hcode : SameCodeBetween s.cpu.rip s'.cpu.rip s t)
    (h : SoftCPU64.step host s = .ok () s') (h' : SoftCPU64.step host t = .ok () t') :
    s'.SameInitialized t' := by
  rcases exists_decodeInstruction h with ⟨_, _, _, final, hdecoded, hexecute, rfl⟩
  rw [hdecode] at hdecoded
  cases hdecoded
  rcases exists_decodeInstruction h' with ⟨_, _, decoded', final', hdecode', hexecute', rfl⟩
  have hbegin := inStep_beginInstruction hsame hcode
  rcases decodeInstruction_same hbegin hdecode hdecode' (hsteps.grows hexecute) with
    ⟨⟨rfl, rfl⟩, hst⟩
  have hfinal := hsteps.related hst hexecute hexecute' (Nat.le_refl _)
  refine hfinal.same.withCPU ?_
  exact hfinal.same.cpu.map finishInstruction (fun _ _ => rfl) rfl

/-- What an operation of a register with itself leaves: `SUB` and `XOR` initialize the register
and the flags, `CMP` the flags. -/
def SelfRule (byte : U8) (prefixes : Prefixes) (register : Register) (cpu : SoftCPU64) : Prop :=
  ((byte >>> 3).toNat = 5 ∨ (byte >>> 3).toNat = 6 →
    Initialized cpu register (aluWidth byte prefixes) prefixes) ∧
  ((byte >>> 3).toNat = 7 → cpu.flagsTainted = false)

/-- The rule for a register with itself. -/
theorem selfRule_execute {byte : U8} {modrm : ModRM} {decoded selected final : Emulator}
    (hbyte : byte ≤ 0x3d ∧ byte &&& 7 ≤ 3)
    (hmodrm : fetchModrm prefixes decoded = .ok modrm selected)
    (hself : modrm.isRegister = true ∧ modrm.rm = modrm.reg)
    (h : execute host prefixes byte decoded = .ok () final) :
    SelfRule byte prefixes modrm.reg final.cpu := by
  have hoperand : decodeRmOperand prefixes modrm selected =
      .ok (.register modrm.reg) selected := by
    rw [decodeRmOperand, if_pos hself.1, hself.2]
    rfl
  rw [execute_of_aluRmReg hbyte] at h
  have hrest : (aluRmRegForm byte prefixes).rest modrm (.register modrm.reg) selected =
      .ok () final := by
    rw [← h]
    exact ((bind_of_ok hmodrm).trans (bind_of_ok hoperand)).symm
  exact ⟨fun hoperation => initialized_aluRmReg_self hoperation hrest,
    fun hoperation => flagsTainted_cmp_self hoperation hrest⟩

/-- One step of a move, a logical or arithmetic operation or a comparison, from two states that
differ in uninitialized data only and agree on the code and on clear address registers: the
steps end in two such states, with the same shadow maps.  An operation of a register with
itself is initialized. -/
theorem step_explicitOperands {decoded : Emulator}
    (hdecode : decodeInstruction s = .ok (prefixes, opcode) decoded)
    (hexplicit : ExplicitOperands prefixes decoded opcode)
    (hclear : opcode.WithoutOperand = false → ClearOperand prefixes decoded)
    (hsame : s.SameInitialized t) (hcode : SameCodeBetween s.cpu.rip s'.cpu.rip s t)
    (h : step host s = .ok () s') (h' : step host t = .ok () t') :
    s'.SameInitialized t' ∧
      ∀ byte modrm selected, opcode = .oneByte byte → byte ≤ 0x3d ∧ byte &&& 7 ≤ 3 →
        fetchModrm prefixes decoded = .ok modrm selected →
          modrm.isRegister = true ∧ modrm.rm = modrm.reg →
            SelfRule byte prefixes modrm.reg s'.cpu := by
  have huntainted := untainted_decodeInstruction hdecode
  have hsteps : StepsFrom decoded (opcode.execute host prefixes) :=
    stepsFrom_explicitOperands hexplicit huntainted hclear
  refine ⟨hsteps.step hdecode hsame hcode h h', ?_⟩
  rintro byte modrm selected rfl hbyte hmodrm hself
  rcases exists_decodeInstruction h with ⟨_, _, _, final, hdecoded, hexecute, rfl⟩
  rw [hdecode] at hdecoded
  cases hdecoded
  rcases selfRule_execute hbyte hmodrm hself hexecute with ⟨hinitialized, hflags⟩
  exact ⟨fun hoperation => ⟨(hinitialized hoperation).flags, (hinitialized hoperation).lane⟩,
    hflags⟩

end Instructions

section Examples

/-- `sub %eax, %eax`, with an uninitialized register. -/
def subSelf (value : U64) : Emulator :=
  let emulator := startingAt [0x29, 0xc0]
  emulator.withCPU ((emulator.cpu.setReg .rax value).setRegShadow .rax (BitVec.allOnes 64))

theorem sameInitialized_subSelf (value value' : U64) :
    (subSelf value).SameInitialized (subSelf value') where
  rest := rfl
  cpu := by
    refine ⟨rfl, ?_, fun _ _ _ _ => rfl⟩
    intro register i hi hclear
    by_cases hregister : register = .rax
    · subst hregister
      have hset : ∀ i < 8, LittleEndian.byte (BitVec.allOnes 64) i ≠ 0 := by decide
      exact absurd hclear (hset i hi)
    · have hother : ∀ value, (subSelf value).cpu.gpr register = 0 := fun value =>
        Function.update_of_ne hregister _ _
      rw [hother, hother]
  mmu := SoftMMU.SameInitialized.refl _

/-- Whatever the register held, the subtraction leaves the same initialized states. -/
theorem step_explicitOperands_subSelf :
    (finalState (step Emulator.quietHost (subSelf 1))).SameInitialized
        (finalState (step Emulator.quietHost (subSelf 2))) ∧
      SelfRule 0x29 {} .rax (finalState (step Emulator.quietHost (subSelf 1))).cpu := by
  have hdecode : decodeInstruction (subSelf 1) =
      .ok ({}, .oneByte 0x29) (finalState (decodeInstruction (subSelf 1))) :=
    eq_ok_of_returned (by decide)
  generalize hdecoded : finalState (decodeInstruction (subSelf 1)) = decoded at hdecode
  have hmodrm : fetchModrm {} decoded =
      .ok { byte := 0xc0, mod := 3 } (finalState (fetchModrm {} decoded)) := by
    rw [← hdecoded]
    exact eq_ok_of_returned (by decide)
  have hclear : ClearOperand {} decoded := by
    intro modrm selected hselected
    rw [hmodrm] at hselected
    cases hselected
    exact nofun
  have hstep : ∀ value, value = 1 ∨ value = 2 → step Emulator.quietHost (subSelf value) =
      .ok () (finalState (step Emulator.quietHost (subSelf value))) := by
    rintro value (rfl | rfl) <;> exact eq_ok_of_returned (by decide)
  have hcode : SameCodeBetween (subSelf 1).cpu.rip
      (finalState (step Emulator.quietHost (subSelf 1))).cpu.rip (subSelf 1) (subSelf 2) := by
    intro address byte byte' _ _ hread hread'
    exact Except.ok.inj (hread.symm.trans hread')
  rcases step_explicitOperands hdecode (.alu (by decide) (by decide)) (fun _ => hclear)
      (sameInitialized_subSelf 1 2) hcode (hstep 1 (Or.inl rfl)) (hstep 2 (Or.inr rfl)) with
    ⟨hsame, hself⟩
  exact ⟨hsame, hself _ _ _ rfl (by decide) hmodrm ⟨rfl, rfl⟩⟩

end Examples

end SoftCPU64

end LUE
