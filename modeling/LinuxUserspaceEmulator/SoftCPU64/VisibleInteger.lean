import LinuxUserspaceEmulator.SoftCPU64.Step
import LinuxUserspaceEmulator.SoftCPU64.Visible

/-!
# Integer instructions are blind to the shadows

Every integer instruction takes visibly the same CPUs and related memories to visibly the same
CPUs and related memories.  Taint goes into shadows and reports only: it never reaches a value,
a flag, an address or a branch.

Main results:

- Theorem `MemoryBisimulation.executeOperation`: the eight two-operand operations.
- Theorems `MemoryBisimulation.executeGroupF6F7` and `MemoryBisimulation.executeShiftGroup`:
  the groups with faults of their own.
- Theorem `MemoryBisimulation.executeStringInstruction`: the repeated string instructions.
-/

namespace LUE

open StateExcept

namespace MemoryBisimulation

variable {M : SoftMMU → SoftMMU → Prop} {Q : Emulator → Emulator → Prop} {α : Type}

/-! ## Two-operand operations -/

theorem guestFault (what : String) :
    Respects M Q (SoftCPU64.guestFault what : EmulatorProgram α) (SoftCPU64.guestFault what) :=
  Respects.getCPU_bind fun _ _ => .throw _

theorem executeOperation (hM : MemoryBisimulation M) (operation : Nat) (lhs rhs : U64)
    (width : Width) (mask : U64) {write : U64 → EmulatorProgram Unit}
    (hwrite : ∀ value, Respects M Q (write value) (write value)) :
    Respects M Q (SoftCPU64.executeOperation operation lhs rhs width mask write)
      (SoftCPU64.executeOperation operation lhs rhs width mask write) := by
  have hadd : ∀ carry, Respects M Q (SoftCPU64.onCPU fun cpu => cpu.add lhs rhs width carry)
      (SoftCPU64.onCPU fun cpu => cpu.add lhs rhs width carry) := fun _ =>
    Respects.onCPU (fun _ _ => rfl) fun _ _ => rfl
  have hsub : ∀ borrow, Respects M Q (SoftCPU64.onCPU fun cpu => cpu.sub lhs rhs width borrow)
      (SoftCPU64.onCPU fun cpu => cpu.sub lhs rhs width borrow) := fun _ =>
    Respects.onCPU (fun _ _ => rfl) fun _ _ => rfl
  have hlogic : ∀ result, Respects M Q (modifyCPU fun cpu => cpu.setLogicFlags result width)
      (modifyCPU fun cpu => cpu.setLogicFlags result width) := fun _ =>
    Respects.modifyCPU fun _ _ => rfl
  unfold SoftCPU64.executeOperation
  split
  · exact (hadd false).bindSame hwrite
  · exact (hlogic _).bindSame fun _ => hwrite _
  · exact (hadd true).bindSame hwrite
  · exact (hsub true).bindSame hwrite
  · exact (hlogic _).bindSame fun _ => hwrite _
  · exact (hsub false).bindSame hwrite
  · exact (hlogic _).bindSame fun _ => hwrite _
  · exact (hsub false).bindSame fun _ => .pure rfl
  · exact hM.unsupported _

theorem executeAluRmReg (hM : MemoryBisimulation M) (opcode : U8) (prefixes : Prefixes) :
    Respects M Q (SoftCPU64.executeAluRmReg opcode prefixes)
      (SoftCPU64.executeAluRmReg opcode prefixes) := by
  refine (hM.fetchModrm prefixes).bindSame fun modrm =>
    (hM.decodeRmOperand prefixes modrm).bindSame fun rm =>
      (hM.readOperand _ _ prefixes).bindSame fun lhs =>
        (hM.readOperand _ _ prefixes).bindSame fun rhs => ?_
  exact Respects.guarded (fun _ => rfl) (fun _ => rfl)
    (hM.executeOperation _ _ _ _ _ fun _ => hM.writeOperand _ _ _ prefixes)

theorem fetchImmediate (hM : MemoryBisimulation M) (width : Width) :
    Respects M Q (SoftCPU64.fetchImmediate width) (SoftCPU64.fetchImmediate width) := by
  cases width with
  | w8 => exact hM.fetch8.bindSame fun _ => .pure rfl
  | w16 => exact hM.fetchInteger 2
  | w32 => exact (hM.fetchInteger 4).bindSame fun _ => .pure rfl
  | w64 => exact (hM.fetchInteger 4).bindSame fun _ => .pure rfl

theorem executeAluImm (hM : MemoryBisimulation M) (opcode : U8) (prefixes : Prefixes) :
    Respects M Q (SoftCPU64.executeAluImm opcode prefixes)
      (SoftCPU64.executeAluImm opcode prefixes) := by
  refine (hM.fetchModrm prefixes).bindSame fun modrm =>
    (hM.decodeRmOperand prefixes modrm).bindSame fun destination => .ite
      (fun _ => hM.fetch8.bindSame fun _ => Bisimilar.bindSame (.pure rfl) fun imm => ?_)
      fun _ => (hM.fetchImmediate _).bindSame fun imm => ?_
  all_goals
    exact (hM.readOperand destination _ prefixes).bindSame fun lhs =>
      hM.executeOperation _ _ _ _ _ fun _ => hM.writeOperand destination _ _ prefixes

theorem executeAluAccumulator (hM : MemoryBisimulation M) (opcode : U8) (prefixes : Prefixes) :
    Respects M Q (SoftCPU64.executeAluAccumulator opcode prefixes)
      (SoftCPU64.executeAluAccumulator opcode prefixes) := by
  refine (Respects.readGpr _ _ prefixes).bindSame fun lhs => .ite (fun _ => ?_) fun _ =>
    .ite (fun _ => ?_) fun _ => ?_
  · exact hM.fetch8.bindSame fun _ => Bisimilar.bindSame (.pure rfl) fun _ =>
      hM.executeOperation _ _ _ _ _ fun _ => Respects.writeGpr _ _ _ _
  · exact (hM.fetchInteger 2).bindSame fun _ =>
      hM.executeOperation _ _ _ _ _ fun _ => Respects.writeGpr _ _ _ _
  · exact (hM.fetchInteger 4).bindSame fun _ => Bisimilar.bindSame (.pure rfl) fun _ =>
      hM.executeOperation _ _ _ _ _ fun _ => Respects.writeGpr _ _ _ _

/-! ## Increment and call group -/

theorem executeGroupFf (hM : MemoryBisimulation M) (prefixes : Prefixes) :
    Respects M Q (SoftCPU64.executeGroupFf prefixes) (SoftCPU64.executeGroupFf prefixes) := by
  refine (hM.fetchModrm prefixes).bindSame fun modrm =>
    (hM.decodeRmOperand prefixes modrm).bindSame fun operand => ?_
  have hcount : ∀ operation value width, Respects M Q
      (SoftCPU64.onCPU fun cpu =>
        if operation = 0 then cpu.add value 1 width false else cpu.sub value 1 width false)
      (SoftCPU64.onCPU fun cpu =>
        if operation = 0 then cpu.add value 1 width false else cpu.sub value 1 width false) := by
    intro operation value width
    refine Respects.onCPU (fun _ _ => ?_) fun _ _ => ?_ <;> split <;> rfl
  split
  · exact (hM.readOperand operand _ prefixes).bindSame fun value =>
      Respects.getCPU_bind fun _ _ => (hcount _ value _).bindSame fun _ =>
        (Respects.modifyCPU fun _ _ => rfl).bindSame fun _ => hM.writeOperand operand _ _ prefixes
  · exact (hM.readOperand operand _ prefixes).bindSame fun value =>
      Respects.getCPU_bind fun _ _ => (hcount _ value _).bindSame fun _ =>
        (Respects.modifyCPU fun _ _ => rfl).bindSame fun _ => hM.writeOperand operand _ _ prefixes
  · exact (hM.readOperand operand _ prefixes).bindSame fun _ => Respects.getCPU_bind fun _ _ =>
      (hM.push64 _ _ _).bindSame fun _ => Respects.modifyCPU fun _ _ => rfl
  · exact (hM.readOperand operand _ prefixes).bindSame fun _ => Respects.modifyCPU fun _ _ => rfl
  · exact (hM.readOperand operand _ prefixes).bindSame fun _ => Respects.getCPU_bind fun _ _ =>
      hM.push64 _ _ _
  · exact hM.unsupported _

/-! ## Unary and division group -/

theorem writeProduct (product : BitVec 128) (overflow : Bool) (width : Width)
    (prefixes : Prefixes) :
    Respects M Q (SoftCPU64.writeProduct product overflow width prefixes)
      (SoftCPU64.writeProduct product overflow width prefixes) := by
  refine .ite (fun _ => ?_) fun _ => ?_
  · exact (Respects.writeGpr _ _ _ _).bindSame fun _ => Respects.modifyCPU fun _ _ => rfl
  · exact (Respects.writeGpr _ _ _ _).bindSame fun _ => (Respects.writeGpr _ _ _ _).bindSame
      fun _ => Respects.modifyCPU fun _ _ => rfl

theorem executeMul (hM : MemoryBisimulation M) (operand : Operand) (width : Width)
    (prefixes : Prefixes) :
    Respects M Q (SoftCPU64.executeMul operand width prefixes)
      (SoftCPU64.executeMul operand width prefixes) :=
  (hM.readOperand operand width prefixes).bindSame fun _ =>
    (Respects.readGpr _ _ _).bindSame fun _ => writeProduct _ _ _ _

theorem executeImul (hM : MemoryBisimulation M) (operand : Operand) (width : Width)
    (prefixes : Prefixes) :
    Respects M Q (SoftCPU64.executeImul operand width prefixes)
      (SoftCPU64.executeImul operand width prefixes) :=
  (hM.readOperand operand width prefixes).bindSame fun _ =>
    (Respects.readGpr _ _ _).bindSame fun _ => writeProduct _ _ _ _

theorem executeDiv (hM : MemoryBisimulation M) (operand : Operand) (width : Width)
    (prefixes : Prefixes) :
    Respects M Q (SoftCPU64.executeDiv operand width prefixes)
      (SoftCPU64.executeDiv operand width prefixes) := by
  refine (hM.readOperand operand width prefixes).bindSame fun value =>
    .ite (fun _ => guestFault _) fun _ => .ite (fun _ => ?_) fun _ => ?_
  · exact (Respects.readGpr _ _ _).bindSame fun _ =>
      .ite (fun _ => guestFault _) fun _ => Respects.writeGpr _ _ _ _
  · exact (Respects.readGpr _ _ _).bindSame fun _ => (Respects.readGpr _ _ _).bindSame fun _ =>
      .ite (fun _ => guestFault _) fun _ =>
        (Respects.writeGpr _ _ _ _).bindSame fun _ => Respects.writeGpr _ _ _ _

theorem executeIdiv (hM : MemoryBisimulation M) (operand : Operand) (width : Width)
    (prefixes : Prefixes) :
    Respects M Q (SoftCPU64.executeIdiv operand width prefixes)
      (SoftCPU64.executeIdiv operand width prefixes) := by
  refine (hM.readOperand operand width prefixes).bindSame fun value =>
    .ite (fun _ => guestFault _) fun _ => .ite (fun _ => ?_) fun _ => ?_
  · exact (Respects.readGpr _ _ _).bindSame fun _ =>
      .ite (fun _ => guestFault _) fun _ => Respects.writeGpr _ _ _ _
  · exact (Respects.readGpr _ _ _).bindSame fun _ => (Respects.readGpr _ _ _).bindSame fun _ =>
      .ite (fun _ => .throw _) fun _ => .ite (fun _ => guestFault _) fun _ =>
        (Respects.writeGpr _ _ _ _).bindSame fun _ => Respects.writeGpr _ _ _ _

theorem executeGroupF6F7 (hM : MemoryBisimulation M) (opcode : U8) (prefixes : Prefixes) :
    Respects M Q (SoftCPU64.executeGroupF6F7 opcode prefixes)
      (SoftCPU64.executeGroupF6F7 opcode prefixes) := by
  refine (hM.fetchModrm prefixes).bindSame fun modrm =>
    (hM.decodeRmOperand prefixes modrm).bindSame fun operand => ?_
  split
  · refine .ite
      (fun _ => hM.fetch8.bindSame fun _ => Bisimilar.bindSame (.pure rfl) fun _ => ?_)
      fun _ => (hM.fetchInteger _).bindSame fun _ => ?_
    all_goals
      exact (hM.readOperand operand _ prefixes).bindSame fun _ =>
        Respects.modifyCPU fun _ _ => rfl
  · exact (hM.readOperand operand _ prefixes).bindSame fun _ =>
      hM.writeOperand operand _ _ prefixes
  · exact (hM.readOperand operand _ prefixes).bindSame fun _ =>
      (Respects.onCPU (fun _ _ => rfl) fun _ _ => rfl).bindSame fun _ =>
        hM.writeOperand operand _ _ prefixes
  · exact hM.executeMul operand _ prefixes
  · exact hM.executeImul operand _ prefixes
  · exact hM.executeDiv operand _ prefixes
  · exact hM.executeIdiv operand _ prefixes
  · exact hM.unsupported _

/-! ## Shift group -/

theorem shiftResult (hM : MemoryBisimulation M) (operation : Nat) (value : U64) (count : Nat)
    (width : Width) :
    Respects M Q (SoftCPU64.shiftResult operation value count width)
      (SoftCPU64.shiftResult operation value count width) := by
  have hleft : ∀ value count, Respects M Q (SoftCPU64.hostShiftLeft value count)
      (SoftCPU64.hostShiftLeft value count) := fun _ _ =>
    .ite (fun _ => .pure rfl) fun _ => .throw _
  have hright : ∀ value count, Respects M Q (SoftCPU64.hostShiftRight value count)
      (SoftCPU64.hostShiftRight value count) := fun _ _ =>
    .ite (fun _ => .pure rfl) fun _ => .throw _
  unfold SoftCPU64.shiftResult
  split
  · exact (hleft _ _).bindSame fun _ => (hright _ _).bindSame fun _ => .pure rfl
  · exact (hright _ _).bindSame fun _ => (hleft _ _).bindSame fun _ => .pure rfl
  · exact (hleft _ _).bindSame fun _ => .pure rfl
  · exact (hleft _ _).bindSame fun _ => .pure rfl
  · exact (hright _ _).bindSame fun _ => .pure rfl
  · exact (hright _ _).bindSame fun _ => .pure rfl
  · exact hM.unsupported _

theorem executeShiftGroup (hM : MemoryBisimulation M) (opcode : U8) (prefixes : Prefixes) :
    Respects M Q (SoftCPU64.executeShiftGroup opcode prefixes)
      (SoftCPU64.executeShiftGroup opcode prefixes) := by
  refine (hM.fetchModrm prefixes).bindSame fun modrm =>
    (hM.decodeRmOperand prefixes modrm).bindSame fun operand => .ite
      (fun _ => hM.fetch8.bindSame fun _ => Bisimilar.bindSame (.pure rfl) fun _ => ?_)
      fun _ => .ite (fun _ => Bisimilar.bindSame (.pure rfl) fun _ => ?_)
        fun _ => Respects.getCPU_bind fun _ _ => Bisimilar.bindSame (.pure rfl) fun _ => ?_
  all_goals
    exact .ite (fun _ => (hM.readOperand operand _ prefixes).bindSame fun _ =>
      (hM.shiftResult _ _ _ _).bindSame fun _ =>
        (Respects.modifyCPU fun _ _ => rfl).bindSame fun _ => hM.writeOperand operand _ _ prefixes)
      fun _ => .pure rfl

/-! ## String instructions -/

theorem moveElement (hM : MemoryBisimulation M) (width : Nat) (step : U64)
    (prefixes : Prefixes) :
    Respects M Q (SoftCPU64.moveElement width step prefixes)
      (SoftCPU64.moveElement width step prefixes) := by
  refine Respects.getCPU_bind fun cpu shadows => Bisimilar.bindSame (Respects.onMMU ?_) fun _ =>
    (Respects.modifyCPU fun _ _ => rfl).bindSame fun _ => Respects.modifyCPU fun _ _ => rfl
  exact .forOffsets fun _ _ =>
    (hM.observe_read8 _).bindSame fun _ => hM.write8 _ _

theorem storeElement (hM : MemoryBisimulation M) (width : Nat) (step : U64) :
    Respects M Q (SoftCPU64.storeElement width step) (SoftCPU64.storeElement width step) :=
  Respects.getCPU_bind fun _ _ =>
    (Respects.onMMU (.forOffsets fun _ _ => hM.write8 _ _)).bindSame fun _ =>
      Respects.modifyCPU fun _ _ => rfl

theorem executeStringInstruction (hM : MemoryBisimulation M) (opcode : U8)
    (prefixes : Prefixes) :
    Respects M Q (SoftCPU64.executeStringInstruction opcode prefixes)
      (SoftCPU64.executeStringInstruction opcode prefixes) := by
  refine Respects.getCPU_bind fun cpu shadows => Bisimilar.bindSame
    (.forOffsets fun _ _ => .ite (fun _ => hM.moveElement _ _ prefixes)
      fun _ => hM.storeElement _ _) fun _ => ?_
  exact .ite (fun _ => Respects.modifyCPU fun _ _ => rfl) fun _ => .pure rfl

end MemoryBisimulation

end LUE
