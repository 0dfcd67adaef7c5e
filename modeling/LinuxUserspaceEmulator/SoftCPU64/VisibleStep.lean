import LinuxUserspaceEmulator.SoftCPU64.VisibleFloat
import LinuxUserspaceEmulator.SoftCPU64.VisibleInteger

/-!
# A step is blind to the shadows

The remaining instructions and the dispatch of `step`.  Whatever relation of memories answers
byte accesses alike, an instruction other than `SYSCALL` takes emulators that are alike to
emulators that are alike, and both either complete or raise the same error.  `SYSCALL` does so
when the system calls do.

Main results:

- Theorem `MemoryBisimulation.executeTwoByte`: the two-byte instructions.
- Theorem `MemoryBisimulation.execute`: every instruction, given `SYSCALL`.
- Theorem `MemoryBisimulation.step`: one step, given `SYSCALL`.
- Theorem `MemoryBisimulation.step_of`: one step, given the system call it makes.
-/

namespace LUE

open StateExcept

/-- The instruction at the instruction pointer is `SYSCALL`. -/
def SoftCPU64.AtSyscall (emulator : Emulator) : Prop :=
  ∃ prefixes decoded fetched, decodeOpcode emulator = .ok (prefixes, 0x0f) decoded ∧
    fetch8 decoded = .ok 0x05 fetched

variable {M : SoftMMU → SoftMMU → Prop} {Q : Emulator → Emulator → Prop} {α : Type}

namespace Respects

theorem taintFromFlags : Respects M Q SoftCPU64.taintFromFlags SoftCPU64.taintFromFlags := by
  refine modifyCPU fun cpu shadows => ?_
  split <;> split <;> rfl

end Respects

namespace MemoryBisimulation

/-! ## Two-byte instructions -/

theorem branch (cc : U8) (rel : U64) :
    Respects M Q
      (do
        let take ← SoftCPU64.branchCondition cc
        if take then modifyCPU fun cpu => cpu.setDecodePc (cpu.decodePc + rel))
      (do
        let take ← SoftCPU64.branchCondition cc
        if take then modifyCPU fun cpu => cpu.setDecodePc (cpu.decodePc + rel)) :=
  (Respects.branchCondition cc).bindSame fun _ =>
    .ite (fun _ => Respects.modifyCPU fun _ _ => rfl) fun _ => .pure rfl

theorem executeJccNear (hM : MemoryBisimulation M) (opcode : U8) :
    Respects M Q (SoftCPU64.executeJccNear opcode) (SoftCPU64.executeJccNear opcode) :=
  hM.fetchI32.bindSame fun _ => branch _ _

theorem executeSetcc (hM : MemoryBisimulation M) (opcode : U8) (prefixes : Prefixes) :
    Respects M Q (SoftCPU64.executeSetcc opcode prefixes)
      (SoftCPU64.executeSetcc opcode prefixes) :=
  (hM.fetchModrm prefixes).bindSame fun modrm =>
    (hM.decodeRmOperand prefixes modrm).bindSame fun operand =>
      Respects.taintFromFlags.bindSame fun _ => Respects.getCPU_bind fun _ _ =>
        hM.writeOperand operand _ _ prefixes

theorem executeCmovcc (hM : MemoryBisimulation M) (opcode : U8) (prefixes : Prefixes) :
    Respects M Q (SoftCPU64.executeCmovcc opcode prefixes)
      (SoftCPU64.executeCmovcc opcode prefixes) :=
  (hM.fetchModrm prefixes).bindSame fun modrm =>
    (hM.decodeRmOperand prefixes modrm).bindSame fun source =>
      Respects.taintFromFlags.bindSame fun _ => Respects.getCPU_bind fun _ _ => .ite
        (fun _ => (hM.readOperand source _ prefixes).bindSame fun _ => Respects.writeGpr _ _ _ _)
        fun _ => .pure rfl

theorem executeBswap (opcode : U8) (prefixes : Prefixes) :
    Respects M Q (SoftCPU64.executeBswap opcode prefixes)
      (SoftCPU64.executeBswap opcode prefixes) :=
  (Respects.readGpr _ _ _).bindSame fun _ => Respects.writeGpr _ _ _ _

theorem executeHint (hM : MemoryBisimulation M) (prefixes : Prefixes) :
    Respects M Q (SoftCPU64.executeHint prefixes) (SoftCPU64.executeHint prefixes) :=
  (hM.fetchModrm prefixes).bindSame fun modrm => .ite
    (fun _ => (hM.decodeMemoryAddress prefixes modrm).bindSame fun _ => .pure rfl)
    fun _ => .pure rfl

theorem executeRdtsc (now : U64) :
    Respects M Q (SoftCPU64.executeRdtsc now) (SoftCPU64.executeRdtsc now) :=
  Respects.modifyCPU fun _ _ => rfl

theorem executeCpuid : Respects M Q SoftCPU64.executeCpuid SoftCPU64.executeCpuid :=
  Respects.modifyCPU fun _ _ => rfl

theorem fxsave (hM : MemoryBisimulation M) (address : U64) :
    Respects M Q (SoftCPU64.fxsave address) (SoftCPU64.fxsave address) := by
  refine Respects.getCPU_bind fun cpu shadows => Respects.onMMU ?_
  refine Bisimilar.bindSame (.forOffsets fun _ _ => hM.write8 _ _) fun _ =>
    Bisimilar.bindSame (hM.writeInteger _ _ 4) fun _ =>
      Bisimilar.bindSame (hM.writeInteger _ _ 4) fun _ => .forOffsets fun _ _ => hM.write8 _ _

theorem loadMxcsr (hM : MemoryBisimulation M) (address : U64) :
    Respects M Q (SoftCPU64.loadMxcsr address) (SoftCPU64.loadMxcsr address) :=
  (hM.readMMU_readInteger address 4).bindSame fun _ => Respects.modifyCPU fun _ _ => rfl

theorem fxrstor (hM : MemoryBisimulation M) (address : U64) :
    Respects M Q (SoftCPU64.fxrstor address) (SoftCPU64.fxrstor address) :=
  (hM.loadMxcsr _).bindSame fun _ => .forOffsets fun _ _ => .forOffsets fun _ _ =>
    (hM.readMMU_read8 _).bindSame fun _ => Respects.modifyXmm _ _

theorem executeGroupAe (hM : MemoryBisimulation M) (prefixes : Prefixes) :
    Respects M Q (SoftCPU64.executeGroupAe prefixes) (SoftCPU64.executeGroupAe prefixes) := by
  refine (hM.fetchModrm prefixes).bindSame fun modrm =>
    .ite (fun _ => .ite (fun _ => .pure rfl) fun _ => hM.unsupported _) fun _ =>
      (hM.decodeMemoryAddress prefixes modrm).bindSame fun decoded =>
        (Respects.effectiveAddress decoded).bindSame fun address => ?_
  split
  · exact hM.fxsave address
  · exact hM.fxrstor address
  · exact Respects.getCPU_bind fun _ _ => hM.onMMU_writeInteger address _ 4
  · exact hM.loadMxcsr address
  · exact hM.unsupported _

theorem setBitFlag (value : U64) (index : Nat) :
    Respects M Q (modifyCPU (SoftCPU64.setBitFlag value index))
      (modifyCPU (SoftCPU64.setBitFlag value index)) :=
  Respects.modifyCPU fun _ _ => rfl

theorem executeGroupBa (hM : MemoryBisimulation M) (prefixes : Prefixes) :
    Respects M Q (SoftCPU64.executeGroupBa prefixes) (SoftCPU64.executeGroupBa prefixes) :=
  (hM.fetchModrm prefixes).bindSame fun modrm =>
    (hM.decodeRmOperand prefixes modrm).bindSame fun bitBase => hM.fetch8.bindSame fun _ =>
      (hM.readOperand bitBase _ prefixes).bindSame fun value => (setBitFlag value _).bindSame
        fun _ => .ite (fun _ => hM.writeOperand bitBase _ _ prefixes) fun _ => .pure rfl

theorem executeBitString (hM : MemoryBisimulation M) (opcode : U8) (prefixes : Prefixes) :
    Respects M Q (SoftCPU64.executeBitString opcode prefixes)
      (SoftCPU64.executeBitString opcode prefixes) := by
  refine (hM.fetchModrm prefixes).bindSame fun modrm =>
    (hM.decodeRmOperand prefixes modrm).bindSame fun bitBase =>
      (Respects.readGpr _ _ prefixes).bindSame fun offset => ?_
  cases bitBase with
  | register register =>
      exact (hM.readOperand (.register register) _ prefixes).bindSame fun value =>
        (setBitFlag value _).bindSame fun _ =>
          .ite (fun _ => hM.writeOperand _ _ _ prefixes) fun _ => .pure rfl
  | memory decoded =>
      exact (Respects.effectiveAddress decoded).bindSame fun base =>
        (hM.readMMU_readInteger _ _).bindSame fun value => (setBitFlag value _).bindSame
          fun _ => .ite (fun _ => hM.onMMU_writeInteger _ _ _) fun _ => .pure rfl

theorem executeBitScan (hM : MemoryBisimulation M) (opcode : U8) (prefixes : Prefixes) :
    Respects M Q (SoftCPU64.executeBitScan opcode prefixes)
      (SoftCPU64.executeBitScan opcode prefixes) := by
  refine (hM.fetchModrm prefixes).bindSame fun modrm =>
    (hM.decodeRmOperand prefixes modrm).bindSame fun source =>
      (hM.readOperand source _ prefixes).bindSame fun read => ?_
  dsimp only
  split
  · exact (Respects.modifyCPU fun _ _ => rfl).bindSame fun _ => Respects.modifyCPU fun _ _ => rfl
  · exact (Respects.modifyCPU fun _ _ => rfl).bindSame fun _ =>
      (Respects.writeGpr _ _ _ _).bindSame fun _ => Respects.modifyCPU fun _ _ => rfl

theorem executeDoubleShift (hM : MemoryBisimulation M) (opcode : U8) (prefixes : Prefixes) :
    Respects M Q (SoftCPU64.executeDoubleShift opcode prefixes)
      (SoftCPU64.executeDoubleShift opcode prefixes) := by
  refine (hM.fetchModrm prefixes).bindSame fun modrm =>
    (hM.decodeRmOperand prefixes modrm).bindSame fun destination =>
      (hM.readOperand destination _ prefixes).bindSame fun destRead =>
        (Respects.readGpr _ _ prefixes).bindSame fun srcRead => .ite
          (fun _ => hM.fetch8.bindSame fun _ => Bisimilar.bindSame (.pure rfl) fun _ => ?_)
          fun _ => (Respects.readGpr _ _ prefixes).bindSame fun _ =>
            Bisimilar.bindSame (.pure rfl) fun _ => ?_
  all_goals
    exact .ite (fun _ => (hM.writeOperand destination _ _ prefixes).bindSame fun _ =>
      (Respects.modifyCPU fun _ _ => rfl).bindSame fun _ => Respects.modifyCPU fun _ _ => rfl)
      fun _ => .pure rfl

theorem executeImulRegister (hM : MemoryBisimulation M) (prefixes : Prefixes) :
    Respects M Q (SoftCPU64.executeImulRegister prefixes)
      (SoftCPU64.executeImulRegister prefixes) :=
  (hM.fetchModrm prefixes).bindSame fun modrm =>
    (hM.decodeRmOperand prefixes modrm).bindSame fun source =>
      (Respects.readGpr _ _ prefixes).bindSame fun _ =>
        (hM.readOperand source _ prefixes).bindSame fun _ =>
          .ite (fun _ => .throw _) fun _ => Respects.writeGpr _ _ _ _

theorem executeCmpxchg (hM : MemoryBisimulation M) (opcode : U8) (prefixes : Prefixes) :
    Respects M Q (SoftCPU64.executeCmpxchg opcode prefixes)
      (SoftCPU64.executeCmpxchg opcode prefixes) := by
  refine (hM.fetchModrm prefixes).bindSame fun modrm =>
    (hM.decodeRmOperand prefixes modrm).bindSame fun destination =>
      (hM.readOperand destination _ prefixes).bindSame fun destValue =>
        (Respects.readGpr _ _ prefixes).bindSame fun accumulator =>
          .ite (fun _ => ?_) fun _ => ?_
  · exact (Respects.readGpr _ _ prefixes).bindSame fun _ =>
      (hM.writeOperand destination _ _ prefixes).bindSame fun _ =>
        (Respects.modifyCPU fun _ _ => rfl).bindSame fun _ => Respects.modifyCPU fun _ _ => rfl
  · exact (Respects.writeGpr _ _ _ prefixes).bindSame fun _ =>
      (Respects.modifyCPU fun _ _ => rfl).bindSame fun _ => Respects.modifyCPU fun _ _ => rfl

theorem executeXadd (hM : MemoryBisimulation M) (opcode : U8) (prefixes : Prefixes) :
    Respects M Q (SoftCPU64.executeXadd opcode prefixes)
      (SoftCPU64.executeXadd opcode prefixes) :=
  (hM.fetchModrm prefixes).bindSame fun modrm =>
    (hM.decodeRmOperand prefixes modrm).bindSame fun destination =>
      (hM.readOperand destination _ prefixes).bindSame fun _ =>
        (Respects.readGpr _ _ prefixes).bindSame fun _ =>
          (Respects.onCPU (fun _ _ => rfl) fun _ _ => rfl).bindSame fun _ =>
            (Respects.writeGpr _ _ _ prefixes).bindSame fun _ =>
              hM.writeOperand destination _ _ prefixes

theorem executeExtend (hM : MemoryBisimulation M) (opcode : U8) (prefixes : Prefixes) :
    Respects M Q (SoftCPU64.executeExtend opcode prefixes)
      (SoftCPU64.executeExtend opcode prefixes) :=
  (hM.fetchModrm prefixes).bindSame fun modrm =>
    (hM.decodeRmOperand prefixes modrm).bindSame fun source =>
      (hM.readOperand source _ prefixes).bindSame fun _ => Respects.writeGpr _ _ _ _

theorem executeMovnti (hM : MemoryBisimulation M) (prefixes : Prefixes) :
    Respects M Q (SoftCPU64.executeMovnti prefixes) (SoftCPU64.executeMovnti prefixes) :=
  (hM.fetchModrm prefixes).bindSame fun modrm =>
    (hM.decodeRmOperand prefixes modrm).bindSame fun destination =>
      (Respects.readGpr _ _ prefixes).bindSame fun _ => hM.writeOperand destination _ _ prefixes

variable {host : Host}

theorem executeSse (hM : MemoryBisimulation M) (opcode : U8) (prefixes : Prefixes) :
    Respects M Q (SoftCPU64.executeSse host opcode prefixes)
      (SoftCPU64.executeSse host opcode prefixes) := by
  unfold SoftCPU64.executeSse
  split
  · rename_i program hprogram
    exact hM.packedInteger hprogram
  · exact .ite (fun _ => hM.executeSseFloat host.float opcode prefixes) fun _ => hM.unsupported _

/-- The two-byte instructions, `SYSCALL` aside. -/
theorem executeTwoByte (hM : MemoryBisimulation M) {opcode : U8} (prefixes : Prefixes)
    (hsyscall : opcode = 0x05 →
      Respects M Q (SoftCPU64.executeSyscall host) (SoftCPU64.executeSyscall host)) :
    Respects M Q (SoftCPU64.executeTwoByte host opcode prefixes)
      (SoftCPU64.executeTwoByte host opcode prefixes) := by
  refine .ite (fun _ => hM.executeJccNear opcode) fun _ =>
    .ite (fun _ => hM.executeSetcc opcode prefixes) fun _ =>
      .ite (fun _ => hM.executeCmovcc opcode prefixes) fun _ =>
        .ite (fun _ => executeBswap opcode prefixes) fun _ => ?_
  split
  -- the opcodes that share an instruction
  any_goals with_reducible exact hM.executeHint prefixes
  any_goals with_reducible exact hM.executeBitString opcode prefixes
  any_goals with_reducible exact hM.executeDoubleShift opcode prefixes
  any_goals with_reducible exact hM.executeCmpxchg opcode prefixes
  any_goals with_reducible exact hM.executeExtend opcode prefixes
  any_goals with_reducible exact hM.executeBitScan opcode prefixes
  any_goals with_reducible exact hM.executeXadd opcode prefixes
  · rename_i hbyte
    exact hsyscall (BitVec.eq_of_toNat_eq hbyte)
  · exact hM.fetch8.bindSame fun _ => .pure rfl
  · exact executeRdtsc _
  · exact executeCpuid
  · exact hM.executeGroupAe prefixes
  · exact hM.executeImulRegister prefixes
  · exact hM.executeGroupBa prefixes
  · exact hM.executeMovnti prefixes
  · exact hM.executeSse opcode prefixes

/-! ## One-byte instructions -/

theorem executeJccShort (hM : MemoryBisimulation M) (opcode : U8) :
    Respects M Q (SoftCPU64.executeJccShort opcode) (SoftCPU64.executeJccShort opcode) :=
  hM.fetchI8.bindSame fun _ => branch _ _

theorem executeXchgShort (opcode : U8) (prefixes : Prefixes) :
    Respects M Q (SoftCPU64.executeXchgShort opcode prefixes)
      (SoftCPU64.executeXchgShort opcode prefixes) :=
  .ite (fun _ => .pure rfl) fun _ => Respects.modifyCPU fun _ _ => rfl

theorem executeMovImmediate (hM : MemoryBisimulation M) (opcode : U8) (prefixes : Prefixes) :
    Respects M Q (SoftCPU64.executeMovImmediate opcode prefixes)
      (SoftCPU64.executeMovImmediate opcode prefixes) :=
  .ite (fun _ => hM.fetch8.bindSame fun _ => Respects.writeGpr _ _ _ _)
    fun _ => (hM.fetchInteger _).bindSame fun _ => Respects.writeGpr _ _ _ _

theorem executePush (hM : MemoryBisimulation M) (opcode : U8) (prefixes : Prefixes) :
    Respects M Q (SoftCPU64.executePush opcode prefixes)
      (SoftCPU64.executePush opcode prefixes) :=
  Respects.getCPU_bind fun _ _ => hM.push64 _ _ _

theorem popInto (hM : MemoryBisimulation M) (target : Register) :
    Respects M Q (SoftCPU64.popInto target) (SoftCPU64.popInto target) := by
  refine hM.pop64WithShadow.bind fun value value' hvalue => Respects.modifyCPU fun _ _ => ?_
  unfold SameValue at hvalue
  rw [hvalue]
  rfl

theorem executeMovsxd (hM : MemoryBisimulation M) (prefixes : Prefixes) :
    Respects M Q (SoftCPU64.executeMovsxd prefixes) (SoftCPU64.executeMovsxd prefixes) :=
  (hM.fetchModrm prefixes).bindSame fun modrm =>
    (hM.decodeRmOperand prefixes modrm).bindSame fun source =>
      (hM.readOperand source _ prefixes).bindSame fun _ => Respects.writeGpr _ _ _ _

theorem executeImulImmediate (hM : MemoryBisimulation M) (opcode : U8) (prefixes : Prefixes) :
    Respects M Q (SoftCPU64.executeImulImmediate opcode prefixes)
      (SoftCPU64.executeImulImmediate opcode prefixes) := by
  refine (hM.fetchModrm prefixes).bindSame fun modrm =>
    (hM.decodeRmOperand prefixes modrm).bindSame fun source =>
      (hM.readOperand source _ prefixes).bindSame fun lhs => .ite
        (fun _ => hM.fetch8.bindSame fun _ => Bisimilar.bindSame (.pure rfl) fun _ => ?_)
        fun _ => (hM.fetchInteger 4).bindSame fun _ => Bisimilar.bindSame (.pure rfl) fun _ => ?_
  all_goals
    exact (Respects.writeGpr _ _ _ _).bindSame fun _ => Respects.modifyCPU fun _ _ => rfl

theorem executeTest (hM : MemoryBisimulation M) (opcode : U8) (prefixes : Prefixes) :
    Respects M Q (SoftCPU64.executeTest opcode prefixes)
      (SoftCPU64.executeTest opcode prefixes) :=
  (hM.fetchModrm prefixes).bindSame fun modrm =>
    (hM.decodeRmOperand prefixes modrm).bindSame fun rm =>
      (hM.readOperand rm _ prefixes).bindSame fun _ =>
        (Respects.readGpr _ _ prefixes).bindSame fun _ => Respects.modifyCPU fun _ _ => rfl

theorem executeXchg (hM : MemoryBisimulation M) (prefixes : Prefixes) :
    Respects M Q (SoftCPU64.executeXchg prefixes) (SoftCPU64.executeXchg prefixes) :=
  (hM.fetchModrm prefixes).bindSame fun modrm =>
    (hM.decodeRmOperand prefixes modrm).bindSame fun rm =>
      (hM.readOperand rm _ prefixes).bindSame fun _ =>
        (Respects.readGpr _ _ prefixes).bindSame fun _ =>
          (hM.writeOperand rm _ _ prefixes).bindSame fun _ => Respects.writeGpr _ _ _ _

theorem executeMovStore (hM : MemoryBisimulation M) (opcode : U8) (prefixes : Prefixes) :
    Respects M Q (SoftCPU64.executeMovStore opcode prefixes)
      (SoftCPU64.executeMovStore opcode prefixes) :=
  (hM.fetchModrm prefixes).bindSame fun modrm =>
    (hM.decodeRmOperand prefixes modrm).bindSame fun destination =>
      (Respects.readGpr _ _ prefixes).bindSame fun _ => hM.writeOperand destination _ _ prefixes

theorem executeMovLoad (hM : MemoryBisimulation M) (opcode : U8) (prefixes : Prefixes) :
    Respects M Q (SoftCPU64.executeMovLoad opcode prefixes)
      (SoftCPU64.executeMovLoad opcode prefixes) :=
  (hM.fetchModrm prefixes).bindSame fun modrm =>
    (hM.decodeRmOperand prefixes modrm).bindSame fun source =>
      (hM.readOperand source _ prefixes).bindSame fun _ => Respects.writeGpr _ _ _ _

theorem executeLea (hM : MemoryBisimulation M) (prefixes : Prefixes) :
    Respects M Q (SoftCPU64.executeLea prefixes) (SoftCPU64.executeLea prefixes) :=
  (hM.fetchModrm prefixes).bindSame fun modrm => .ite (fun _ => hM.unsupported _)
    fun _ => (hM.decodeMemoryAddress prefixes modrm).bindSame fun _ => Respects.writeGpr _ _ _ _

theorem executePopOperand (hM : MemoryBisimulation M) (prefixes : Prefixes) :
    Respects M Q (SoftCPU64.executePopOperand prefixes)
      (SoftCPU64.executePopOperand prefixes) := by
  refine (hM.fetchModrm prefixes).bindSame fun modrm => .ite (fun _ => hM.unsupported _)
    fun _ => (hM.decodeRmOperand prefixes modrm).bindSame fun destination =>
      hM.pop64WithShadow.bind fun value value' hvalue => ?_
  unfold SameValue at hvalue
  rw [hvalue]
  exact Respects.guarded (fun _ => rfl) (fun _ => rfl)
    (hM.writeOperand destination _ _ prefixes)

theorem executeCdqe (prefixes : Prefixes) :
    Respects M Q (SoftCPU64.executeCdqe prefixes) (SoftCPU64.executeCdqe prefixes) :=
  .ite (fun _ => (Respects.readGpr _ _ prefixes).bindSame fun _ =>
    Respects.modifyCPU fun _ _ => rfl)
    fun _ => (Respects.readGpr _ _ prefixes).bindSame fun _ => Respects.writeGpr _ _ _ _

theorem executeCqo (prefixes : Prefixes) :
    Respects M Q (SoftCPU64.executeCqo prefixes) (SoftCPU64.executeCqo prefixes) :=
  .ite (fun _ => (Respects.readGpr _ _ prefixes).bindSame fun _ =>
    Respects.modifyCPU fun _ _ => rfl)
    fun _ => (Respects.readGpr _ _ prefixes).bindSame fun _ => Respects.writeGpr _ _ _ _

theorem executeTestAccumulator (hM : MemoryBisimulation M) (opcode : U8)
    (prefixes : Prefixes) :
    Respects M Q (SoftCPU64.executeTestAccumulator opcode prefixes)
      (SoftCPU64.executeTestAccumulator opcode prefixes) := by
  refine (Respects.readGpr _ _ prefixes).bindSame fun value => .ite
    (fun _ => hM.fetch8.bindSame fun _ => Bisimilar.bindSame (.pure rfl) fun _ => ?_)
    fun _ => (hM.fetchInteger 4).bindSame fun _ => Bisimilar.bindSame (.pure rfl) fun _ => ?_
  all_goals exact Respects.modifyCPU fun _ _ => rfl

theorem returnTo (target : U64) :
    Respects M Q (SoftCPU64.returnTo target) (SoftCPU64.returnTo target) :=
  Respects.modifyCPU fun _ _ => rfl

theorem executeRetImmediate (hM : MemoryBisimulation M) :
    Respects M Q SoftCPU64.executeRetImmediate SoftCPU64.executeRetImmediate :=
  (hM.fetchInteger 2).bindSame fun _ => hM.pop64.bindSame fun _ =>
    (Respects.modifyCPU fun _ _ => rfl).bindSame fun _ => returnTo _

theorem executeRet (hM : MemoryBisimulation M) :
    Respects M Q SoftCPU64.executeRet SoftCPU64.executeRet :=
  hM.pop64.bindSame fun _ => returnTo _

theorem executeMovOperandImmediate (hM : MemoryBisimulation M) (opcode : U8)
    (prefixes : Prefixes) :
    Respects M Q (SoftCPU64.executeMovOperandImmediate opcode prefixes)
      (SoftCPU64.executeMovOperandImmediate opcode prefixes) :=
  (hM.fetchModrm prefixes).bindSame fun modrm => .ite (fun _ => hM.unsupported _)
    fun _ => (hM.decodeRmOperand prefixes modrm).bindSame fun destination =>
      (hM.fetchImmediate _).bindSame fun _ => hM.writeOperand destination _ _ prefixes

theorem executeLeave (hM : MemoryBisimulation M) :
    Respects M Q SoftCPU64.executeLeave SoftCPU64.executeLeave :=
  (Respects.modifyCPU fun _ _ => rfl).bindSame fun _ => hM.popInto .rbp

theorem executeLoop (hM : MemoryBisimulation M) (opcode : U8) :
    Respects M Q (SoftCPU64.executeLoop opcode) (SoftCPU64.executeLoop opcode) :=
  hM.fetchI8.bindSame fun _ => (Respects.modifyCPU fun _ _ => rfl).bindSame fun _ =>
    Respects.getCPU_bind fun _ _ =>
      .ite (fun _ => Respects.modifyCPU fun _ _ => rfl) fun _ => .pure rfl

theorem executeJrcxz (hM : MemoryBisimulation M) :
    Respects M Q SoftCPU64.executeJrcxz SoftCPU64.executeJrcxz :=
  hM.fetchI8.bindSame fun _ => Respects.getCPU_bind fun _ _ =>
    .ite (fun _ => Respects.modifyCPU fun _ _ => rfl) fun _ => .pure rfl

theorem executeCall (hM : MemoryBisimulation M) :
    Respects M Q SoftCPU64.executeCall SoftCPU64.executeCall :=
  hM.fetchI32.bindSame fun _ => Respects.getCPU_bind fun _ _ =>
    (hM.push64 _ _ _).bindSame fun _ => Respects.modifyCPU fun _ _ => rfl

theorem executeJmp (hM : MemoryBisimulation M) (opcode : U8) :
    Respects M Q (SoftCPU64.executeJmp opcode) (SoftCPU64.executeJmp opcode) :=
  .ite (fun _ => hM.fetchI32.bindSame fun _ => Respects.modifyCPU fun _ _ => rfl)
    fun _ => hM.fetchI8.bindSame fun _ => Respects.modifyCPU fun _ _ => rfl

theorem executePushImmediate (hM : MemoryBisimulation M) (opcode : U8) :
    Respects M Q (SoftCPU64.executePushImmediate opcode)
      (SoftCPU64.executePushImmediate opcode) :=
  .ite (fun _ => (hM.fetchInteger 4).bindSame fun _ => Bisimilar.bindSame (.pure rfl) fun _ =>
    hM.push64 _ _ _)
    fun _ => hM.fetch8.bindSame fun _ => Bisimilar.bindSame (.pure rfl) fun _ => hM.push64 _ _ _

theorem setFlag (flagValue : U64) (value : Bool) :
    Respects M Q (modifyCPU fun cpu => cpu.setFlag flagValue value)
      (modifyCPU fun cpu => cpu.setFlag flagValue value) :=
  Respects.modifyCPU fun _ _ => rfl

/-! ## Dispatch -/

/-- The final switch, given `execute_0f`. -/
theorem executeOpcode (hM : MemoryBisimulation M) {opcode : U8} (prefixes : Prefixes)
    (htwoByte : opcode = 0x0f →
      Respects M Q (SoftCPU64.execute0f host prefixes) (SoftCPU64.execute0f host prefixes)) :
    Respects M Q (SoftCPU64.executeOpcode host opcode prefixes)
      (SoftCPU64.executeOpcode host opcode prefixes) := by
  unfold SoftCPU64.executeOpcode
  split
  -- the opcodes that share an instruction
  any_goals with_reducible exact hM.executePushImmediate opcode
  any_goals with_reducible exact hM.executeImulImmediate opcode prefixes
  any_goals with_reducible exact hM.executeAluImm opcode prefixes
  any_goals with_reducible exact hM.executeTest opcode prefixes
  any_goals with_reducible exact hM.executeMovStore opcode prefixes
  any_goals with_reducible exact hM.executeMovLoad opcode prefixes
  any_goals with_reducible exact hM.executeStringInstruction opcode prefixes
  any_goals with_reducible exact hM.executeTestAccumulator opcode prefixes
  any_goals with_reducible exact hM.executeShiftGroup opcode prefixes
  any_goals with_reducible exact hM.executeMovOperandImmediate opcode prefixes
  any_goals with_reducible exact hM.executeX87 host.float opcode prefixes
  any_goals with_reducible exact hM.executeLoop opcode
  any_goals with_reducible exact hM.executeJmp opcode
  any_goals with_reducible exact hM.executeGroupF6F7 opcode prefixes
  any_goals with_reducible exact setFlag _ _
  · rename_i hbyte
    exact htwoByte (BitVec.eq_of_toNat_eq hbyte)
  · exact hM.executeMovsxd prefixes
  · exact hM.executeXchg prefixes
  · exact hM.executeLea prefixes
  · exact hM.executePopOperand prefixes
  · exact executeCdqe prefixes
  · exact executeCqo prefixes
  · exact hM.executeRetImmediate
  · exact hM.executeRet
  · exact hM.executeLeave
  · exact hM.executeJrcxz
  · exact hM.executeCall
  · exact hM.executeGroupFf prefixes
  · exact hM.unsupported _

/-- Every instruction, given `execute_0f`. -/
theorem execute (hM : MemoryBisimulation M) {opcode : U8} (prefixes : Prefixes)
    (htwoByte : opcode = 0x0f →
      Respects M Q (SoftCPU64.execute0f host prefixes) (SoftCPU64.execute0f host prefixes)) :
    Respects M Q (SoftCPU64.execute host prefixes opcode)
      (SoftCPU64.execute host prefixes opcode) := by
  refine .ite (fun _ => .ite (fun _ => hM.executeAluRmReg opcode prefixes) fun _ =>
    hM.executeAluAccumulator opcode prefixes) fun _ => ?_
  refine .ite (fun _ => hM.executeJccShort opcode) fun _ => ?_
  refine .ite (fun _ => executeXchgShort opcode prefixes) fun _ => ?_
  refine .ite (fun _ => hM.executeMovImmediate opcode prefixes) fun _ => ?_
  refine .ite (fun _ => hM.executePush opcode prefixes) fun _ => ?_
  exact .ite (fun _ => hM.popInto _) fun _ => hM.executeOpcode prefixes htwoByte

theorem decodeOpcode (hM : MemoryBisimulation M) :
    Respects M Q SoftCPU64.decodeOpcode SoftCPU64.decodeOpcode :=
  (Respects.modifyCPU fun _ _ => rfl).bindSame fun _ =>
    (hM.readPrefixesLoop _ _).bindSame fun _ => hM.fetch8.bindSame fun _ => .pure rfl

/-- A step is blind to the shadows when `SYSCALL` is. -/
theorem step (hM : MemoryBisimulation M)
    (hsyscall : Respects M Q (SoftCPU64.executeSyscall host) (SoftCPU64.executeSyscall host)) :
    Respects M Q (SoftCPU64.step host) (SoftCPU64.step host) := by
  refine hM.decodeOpcode.bindSame fun decoded => Bisimilar.bindSame (hM.execute _ fun _ => ?_)
    fun _ => Respects.modifyCPU fun _ _ => rfl
  exact hM.fetch8.bindSame fun _ => hM.executeTwoByte _ fun _ => hsyscall

variable {emulator emulator' : Emulator}

/-- A two-byte instruction, given `SYSCALL` in the states that fetched its second byte. -/
theorem execute0f_of (hM : MemoryBisimulation M) (halike : Alike M Q emulator emulator')
    (prefixes : Prefixes)
    (hsyscall : ∀ fetched fetched', SoftCPU64.fetch8 emulator = .ok 0x05 fetched →
      Alike M Q fetched fetched' →
        Agree (Alike M Q) Eq (SoftCPU64.executeSyscall host fetched)
          (SoftCPU64.executeSyscall host fetched')) :
    Agree (Alike M Q) Eq (SoftCPU64.execute0f host prefixes emulator)
      (SoftCPU64.execute0f host prefixes emulator') := by
  refine (hM.fetch8 _ _ halike).bind fun opcode opcode' fetched fetched' hfetch hsame hfetched => ?_
  subst hsame
  by_cases hopcode : opcode = 0x05
  · subst hopcode
    exact hsyscall fetched fetched' hfetch hfetched
  · exact hM.executeTwoByte prefixes (fun h => absurd h hopcode) _ _ hfetched

/-- A step, given `SYSCALL` in the states in which this step executes it. -/
theorem step_of (hM : MemoryBisimulation M) (halike : Alike M Q emulator emulator')
    (hsyscall : SoftCPU64.AtSyscall emulator → ∀ pc fetched',
      Alike M Q (SoftCPU64.afterDecoding emulator pc) fetched' →
        Agree (Alike M Q) Eq (SoftCPU64.executeSyscall host (SoftCPU64.afterDecoding emulator pc))
          (SoftCPU64.executeSyscall host fetched')) :
    Agree (Alike M Q) Eq (SoftCPU64.step host emulator) (SoftCPU64.step host emulator') := by
  refine (hM.decodeOpcode _ _ halike).bind
    fun decoded decoded' after after' hdecode hsame hafter => ?_
  subst hsame
  refine Agree.bind (V := Eq) ?_ fun _ _ _ _ _ _ hexecuted =>
    Respects.modifyCPU (fun _ _ => rfl) _ _ hexecuted
  obtain ⟨prefixes, opcode⟩ := decoded
  by_cases hopcode : opcode = 0x0f
  · subst hopcode
    have hexecute : SoftCPU64.execute host prefixes 0x0f = SoftCPU64.execute0f host prefixes := rfl
    dsimp only
    rw [hexecute]
    refine hM.execute0f_of hafter prefixes fun fetched fetched' hfetch hfetched => ?_
    obtain ⟨pc, hpc⟩ := SoftCPU64.decodeOpcode_eq_ok hdecode
    have hmoved := SoftCPU64.fetch8_eq_ok hfetch
    rw [hpc] at hmoved
    subst hmoved
    exact hsyscall ⟨prefixes, after, _, hdecode, hfetch⟩ _ fetched' hfetched
  · exact hM.execute prefixes (fun h => absurd h hopcode) _ _ hafter

end MemoryBisimulation

end LUE
