import LinuxUserspaceEmulator.SoftCPU64.Step
import LinuxUserspaceEmulator.SoftCPU64.Visible

/-!
# SSE and x87 instructions are blind to the shadows

The floating-point and vector instructions move whole registers and plain bytes; their
registers have no shadow at all.  With the same host arithmetic they take visibly the same CPUs
and related memories to visibly the same CPUs and related memories.

Main results:

- Theorem `MemoryBisimulation.packedInteger`: the packed integer instructions.
- Theorem `MemoryBisimulation.executeSseFloat`: the floating-point SSE instructions.
- Theorem `MemoryBisimulation.executeX87`: the x87 instructions.
-/

namespace LUE

open StateExcept

variable {M : SoftMMU → SoftMMU → Prop} {Q : Emulator → Emulator → Prop} {α : Type}

namespace Respects

theorem modifyXmm (register : Register) (f : Xmm → Xmm) :
    Respects M Q (SoftCPU64.modifyXmm register f) (SoftCPU64.modifyXmm register f) :=
  modifyCPU fun _ _ => rfl

end Respects

namespace MemoryBisimulation

/-! ## Transfers -/

theorem readMMU_readBytes (hM : MemoryBisimulation M) (address : U64) (count : Nat) :
    Respects M Q (LUE.readMMU (SoftCPU64.readBytes address count))
      (LUE.readMMU (SoftCPU64.readBytes address count)) :=
  Respects.readMMU fun _ _ h => hM.mapM_read8 h _ _

theorem readXmmLow (hM : MemoryBisimulation M) (operand : Operand) (count : Nat) :
    Respects M Q (SoftCPU64.readXmmLow operand count) (SoftCPU64.readXmmLow operand count) := by
  cases operand with
  | register register => exact Respects.getCPU_bind fun _ _ => .pure rfl
  | memory decoded =>
      exact (Respects.effectiveAddress decoded).bindSame fun _ =>
        (hM.readMMU_readBytes _ count).bindSame fun _ => .pure rfl

theorem storeXmmBytes (hM : MemoryBisimulation M) (decoded : DecodedAddress) (value : Xmm)
    (offset count : Nat) :
    Respects M Q (SoftCPU64.storeXmmBytes decoded value offset count)
      (SoftCPU64.storeXmmBytes decoded value offset count) :=
  (Respects.effectiveAddress decoded).bindSame fun _ =>
    Respects.onMMU (.forOffsets fun _ _ => hM.write8 _ _)

theorem writeXmmToOperand (hM : MemoryBisimulation M) (operand : Operand) (value : Xmm) :
    Respects M Q (SoftCPU64.writeXmmToOperand operand value)
      (SoftCPU64.writeXmmToOperand operand value) := by
  cases operand with
  | register register => exact Respects.modifyXmm register fun _ => value
  | memory decoded => exact hM.storeXmmBytes decoded value 0 16

/-! ## Packed integer instructions -/

theorem packedOperation (hM : MemoryBisimulation M) (prefixes : Prefixes)
    (f : Xmm → Xmm → Xmm) :
    Respects M Q (SoftCPU64.packedOperation prefixes f) (SoftCPU64.packedOperation prefixes f) :=
  (hM.fetchModrm prefixes).bindSame fun modrm =>
    (hM.decodeRmOperand prefixes modrm).bindSame fun source =>
      (hM.readXmmLow source 16).bindSame fun _ => Respects.modifyXmm _ _

theorem selectedOperation (hM : MemoryBisimulation M) (prefixes : Prefixes)
    (f : U8 → Xmm → Xmm → Xmm) :
    Respects M Q (SoftCPU64.selectedOperation prefixes f)
      (SoftCPU64.selectedOperation prefixes f) :=
  (hM.fetchModrm prefixes).bindSame fun modrm =>
    (hM.decodeRmOperand prefixes modrm).bindSame fun source => hM.fetch8.bindSame fun _ =>
      (hM.readXmmLow source 16).bindSame fun _ => Respects.modifyXmm _ _

theorem storeXmm (hM : MemoryBisimulation M) (prefixes : Prefixes) :
    Respects M Q (SoftCPU64.storeXmm prefixes) (SoftCPU64.storeXmm prefixes) :=
  (hM.fetchModrm prefixes).bindSame fun modrm =>
    (hM.decodeRmOperand prefixes modrm).bindSame fun destination =>
      Respects.getCPU_bind fun _ _ => hM.writeXmmToOperand destination _

theorem loadXmmFromGpr (hM : MemoryBisimulation M) (prefixes : Prefixes) :
    Respects M Q (SoftCPU64.loadXmmFromGpr prefixes) (SoftCPU64.loadXmmFromGpr prefixes) :=
  (hM.fetchModrm prefixes).bindSame fun modrm =>
    (hM.decodeRmOperand prefixes modrm).bindSame fun source =>
      (hM.readOperand source _ prefixes).bindSame fun _ => Respects.modifyXmm _ _

theorem executeMovq (hM : MemoryBisimulation M) (prefixes : Prefixes) :
    Respects M Q (SoftCPU64.executeMovq prefixes) (SoftCPU64.executeMovq prefixes) := by
  refine (hM.fetchModrm prefixes).bindSame fun modrm =>
    (hM.decodeRmOperand prefixes modrm).bindSame fun operand => .ite (fun _ => ?_) fun _ => ?_
  · exact (hM.readOperand operand _ prefixes).bindSame fun _ => Respects.modifyXmm _ _
  · exact Respects.getCPU_bind fun _ _ => hM.writeOperand operand _ _ prefixes

theorem storeLowQuadword (hM : MemoryBisimulation M) (prefixes : Prefixes) :
    Respects M Q (SoftCPU64.storeLowQuadword prefixes) (SoftCPU64.storeLowQuadword prefixes) :=
  (hM.fetchModrm prefixes).bindSame fun modrm =>
    (hM.decodeRmOperand prefixes modrm).bindSame fun destination =>
      Respects.getCPU_bind fun _ _ => hM.writeOperand destination _ _ prefixes

theorem executePmovmskb (hM : MemoryBisimulation M) (prefixes : Prefixes) :
    Respects M Q (SoftCPU64.executePmovmskb prefixes) (SoftCPU64.executePmovmskb prefixes) :=
  (hM.fetchModrm prefixes).bindSame fun modrm =>
    (hM.decodeRmOperand prefixes modrm).bindSame fun source =>
      (hM.readXmmLow source 16).bindSame fun _ => Respects.writeGpr _ _ _ _

theorem executeByteShift (hM : MemoryBisimulation M) (prefixes : Prefixes) :
    Respects M Q (SoftCPU64.executeByteShift prefixes) (SoftCPU64.executeByteShift prefixes) := by
  refine (hM.fetchModrm prefixes).bindSame fun modrm =>
    (hM.decodeRmOperand prefixes modrm).bindSame fun operand => hM.fetch8.bindSame fun _ => ?_
  cases operand with
  | memory decoded => exact hM.unsupported _
  | register register =>
      exact .ite (fun _ => Respects.modifyXmm _ _) fun _ => hM.unsupported _

theorem packedInteger (hM : MemoryBisimulation M) {opcode : U8} {prefixes : Prefixes}
    {program : EmulatorProgram Unit}
    (h : SoftCPU64.packedInteger opcode prefixes = some program) :
    Respects M Q program program := by
  unfold SoftCPU64.packedInteger at h
  dsimp only at h
  split at h <;> cases h
  any_goals exact hM.packedOperation _ _
  any_goals exact hM.storeXmm _
  any_goals exact hM.selectedOperation _ _
  · exact hM.loadXmmFromGpr _
  · exact hM.executeByteShift _
  · exact hM.executeMovq _
  · exact hM.storeLowQuadword _
  · exact hM.executePmovmskb _

/-! ## SSE floating point -/

section Float

variable (float : HostFloat)

theorem loadScalar (hM : MemoryBisimulation M) (operand : Operand) (isDouble : Bool) :
    Respects M Q (SoftCPU64.loadScalar float operand isDouble)
      (SoftCPU64.loadScalar float operand isDouble) := by
  cases operand with
  | register register => exact Respects.getCPU_bind fun _ _ => .pure rfl
  | memory decoded =>
      exact (Respects.effectiveAddress decoded).bindSame fun address => .ite
        (fun _ => (hM.readMMU_readInteger address 8).bindSame fun _ => .pure rfl)
        fun _ => (hM.readMMU_readInteger address 4).bindSame fun _ => .pure rfl

theorem sseLoad (hM : MemoryBisimulation M) (kind : SoftCPU64.SseKind) (reg : Register)
    (operand : Operand) :
    Respects M Q (SoftCPU64.sseLoad kind reg operand) (SoftCPU64.sseLoad kind reg operand) :=
  .ite (fun _ => (hM.readXmmLow operand _).bindSame fun _ => Respects.modifyXmm _ _)
    fun _ => (hM.readXmmLow operand 16).bindSame fun _ => Respects.modifyXmm _ _

theorem sseStore (hM : MemoryBisimulation M) (kind : SoftCPU64.SseKind) (reg : Register)
    (operand : Operand) :
    Respects M Q (SoftCPU64.sseStore kind reg operand) (SoftCPU64.sseStore kind reg operand) := by
  refine Respects.getCPU_bind fun _ _ => .ite (fun _ => ?_) fun _ =>
    hM.writeXmmToOperand operand _
  cases operand with
  | register register => exact Respects.modifyXmm _ _
  | memory decoded => exact hM.storeXmmBytes decoded _ 0 _

theorem sseStoreQuadword (hM : MemoryBisimulation M) (reg : Register) (operand : Operand)
    (offset : Nat) :
    Respects M Q (SoftCPU64.sseStoreQuadword reg operand offset)
      (SoftCPU64.sseStoreQuadword reg operand offset) := by
  refine Respects.getCPU_bind fun _ _ => ?_
  cases operand with
  | register register => exact hM.storeXmmBytes {} _ offset 8
  | memory decoded => exact hM.storeXmmBytes decoded _ offset 8

theorem sseFromInteger (hM : MemoryBisimulation M) (prefixes : Prefixes) (reg : Register)
    (operand : Operand) :
    Respects M Q (SoftCPU64.sseFromInteger float prefixes reg operand)
      (SoftCPU64.sseFromInteger float prefixes reg operand) :=
  (hM.readOperand operand _ prefixes).bindSame fun _ => Respects.modifyXmm _ _

theorem sseToInteger (hM : MemoryBisimulation M) (opcode : U8) (prefixes : Prefixes)
    (reg : Register) (operand : Operand) :
    Respects M Q (SoftCPU64.sseToInteger float opcode prefixes reg operand)
      (SoftCPU64.sseToInteger float opcode prefixes reg operand) :=
  (hM.loadScalar float operand _).bindSame fun _ => Respects.writeGpr _ _ _ _

/-- The flags of a comparison depend on the two values only. -/
theorem visible_setEflagsFromFloatCompare (a b : LongDouble) (cpu : SoftCPU64)
    (shadows : SoftCPU64.Shadows) :
    (cpu.setEflagsFromFloatCompare float a b).visible =
      ((cpu.withShadows shadows).setEflagsFromFloatCompare float a b).visible := by
  unfold SoftCPU64.setEflagsFromFloatCompare
  dsimp only
  split
  · rfl
  · split
    · rfl
    · split <;> rfl

theorem sseCompare (hM : MemoryBisimulation M) (prefixes : Prefixes) (reg : Register)
    (operand : Operand) :
    Respects M Q (SoftCPU64.sseCompare float prefixes reg operand)
      (SoftCPU64.sseCompare float prefixes reg operand) :=
  Respects.getCPU_bind fun _ _ => (hM.loadScalar float operand _).bindSame fun _ =>
    Respects.modifyCPU fun _ _ => visible_setEflagsFromFloatCompare float _ _ _ _

theorem sseConvertFormat (hM : MemoryBisimulation M) (prefixes : Prefixes) (reg : Register)
    (operand : Operand) :
    Respects M Q (SoftCPU64.sseConvertFormat float prefixes reg operand)
      (SoftCPU64.sseConvertFormat float prefixes reg operand) :=
  .ite (fun _ => (hM.loadScalar float operand _).bindSame fun _ => Respects.modifyXmm _ _)
    fun _ => .ite (fun _ => (hM.loadScalar float operand _).bindSame fun _ =>
      Respects.modifyXmm _ _)
      fun _ => (hM.readXmmLow operand 16).bindSame fun _ => Respects.modifyXmm _ _

theorem executeSseFloat (hM : MemoryBisimulation M) (opcode : U8) (prefixes : Prefixes) :
    Respects M Q (SoftCPU64.executeSseFloat float opcode prefixes)
      (SoftCPU64.executeSseFloat float opcode prefixes) := by
  refine (hM.fetchModrm prefixes).bindSame fun modrm =>
    (hM.decodeRmOperand prefixes modrm).bindSame fun operand => ?_
  split
  -- a source, whole or in part, and a function of it
  any_goals exact (hM.readXmmLow operand _).bindSame fun _ => Respects.modifyXmm _ _
  · exact hM.sseLoad _ _ operand
  · exact hM.sseStore _ _ operand
  · exact hM.sseStoreQuadword _ operand 0
  · exact hM.sseStoreQuadword _ operand 8
  · exact hM.sseFromInteger float prefixes _ operand
  · exact hM.sseToInteger float opcode prefixes _ operand
  · exact hM.sseToInteger float opcode prefixes _ operand
  · exact hM.sseCompare float prefixes _ operand
  · exact hM.sseCompare float prefixes _ operand
  · exact hM.sseConvertFormat float prefixes _ operand
  · exact hM.unsupported _

/-! ## x87 -/

theorem thenPop {store : EmulatorProgram Unit} (h : Respects M Q store store) :
    Respects M Q (SoftCPU64.thenPop store) (SoftCPU64.thenPop store) :=
  h.bindSame fun _ => Respects.modifyCPU fun _ _ => rfl

theorem pushFrom {load : EmulatorProgram LongDouble} (h : Respects M Q load load) :
    Respects M Q (SoftCPU64.pushFrom load) (SoftCPU64.pushFrom load) :=
  h.bindSame fun _ => Respects.modifyCPU fun _ _ => rfl

theorem visible_arithIntoSt0 (operation : Nat) (b : LongDouble) (cpu : SoftCPU64)
    (shadows : SoftCPU64.Shadows) :
    (SoftCPU64.arithIntoSt0 float operation b cpu).visible =
      (SoftCPU64.arithIntoSt0 float operation b (cpu.withShadows shadows)).visible := by
  unfold SoftCPU64.arithIntoSt0
  dsimp only
  split <;> rfl

theorem arithFrom (operation : Nat) {load : EmulatorProgram LongDouble}
    (h : Respects M Q load load) :
    Respects M Q (SoftCPU64.arithFrom float operation load)
      (SoftCPU64.arithFrom float operation load) :=
  h.bindSame fun _ => Respects.modifyCPU fun _ _ => visible_arithIntoSt0 float _ _ _ _

theorem readM32 (hM : MemoryBisimulation M) (address : U64) :
    Respects M Q (SoftCPU64.readM32 float address) (SoftCPU64.readM32 float address) :=
  (hM.readMMU_readInteger address 4).bindSame fun _ => .pure rfl

theorem readM64 (hM : MemoryBisimulation M) (address : U64) :
    Respects M Q (SoftCPU64.readM64 float address) (SoftCPU64.readM64 float address) :=
  (hM.readMMU_readInteger address 8).bindSame fun _ => .pure rfl

theorem readM80 (hM : MemoryBisimulation M) (address : U64) :
    Respects M Q (SoftCPU64.readM80 address) (SoftCPU64.readM80 address) :=
  (hM.readMMU_readBytes address 10).bindSame fun _ => .pure rfl

theorem readMInt (hM : MemoryBisimulation M) (address : U64) (bytes : Nat) :
    Respects M Q (SoftCPU64.readMInt float address bytes)
      (SoftCPU64.readMInt float address bytes) :=
  (hM.readMMU_readInteger address bytes).bindSame fun _ => .pure rfl

theorem onMMU_writeInteger (hM : MemoryBisimulation M) (address value : U64) (count : Nat) :
    Respects M Q (onMMU (SoftMMU.writeInteger address value count))
      (onMMU (SoftMMU.writeInteger address value count)) :=
  Respects.onMMU (hM.writeInteger address value count)

theorem writeM80 (hM : MemoryBisimulation M) (address : U64) (value : LongDouble) :
    Respects M Q (SoftCPU64.writeM80 address value) (SoftCPU64.writeM80 address value) :=
  Respects.onMMU (.forOffsets fun _ _ => hM.write8 _ _)

theorem executeX87Memory (hM : MemoryBisimulation M) (opcode : U8) (operation : Nat)
    (address : U64) :
    Respects M Q (SoftCPU64.executeX87Memory float opcode operation address)
      (SoftCPU64.executeX87Memory float opcode operation address) := by
  refine Respects.getCPU_bind fun cpu shadows => ?_
  dsimp only
  have hstore : ∀ value count, Respects M Q (onMMU (SoftMMU.writeInteger address value count))
      (onMMU (SoftMMU.writeInteger address value count)) := hM.onMMU_writeInteger address
  split
  · exact arithFrom float _ (hM.readM32 float address)
  · exact arithFrom float _ (hM.readM64 float address)
  · exact arithFrom float _ (hM.readMInt float address 4)
  · exact arithFrom float _ (hM.readMInt float address 2)
  · exact pushFrom (hM.readM32 float address)
  · exact hstore _ 4
  · exact thenPop (hstore _ 4)
  · exact (hM.readMMU_readInteger address 2).bindSame fun _ => Respects.modifyCPU fun _ _ => rfl
  · exact hstore _ 2
  · exact hM.unsupported _
  · exact pushFrom (hM.readM64 float address)
  · exact hstore _ 8
  · exact thenPop (hstore _ 8)
  · exact hstore _ 2
  · exact hM.unsupported _
  · exact pushFrom (hM.readMInt float address 4)
  · exact thenPop (hstore _ 4)
  · exact hstore _ 4
  · exact thenPop (hstore _ 4)
  · exact pushFrom (hM.readM80 address)
  · exact thenPop (hM.writeM80 address _)
  · exact hM.unsupported _
  · exact pushFrom (hM.readMInt float address 2)
  · exact thenPop (hstore _ 2)
  · exact hstore _ 2
  · exact thenPop (hstore _ 2)
  · exact pushFrom (hM.readMInt float address 8)
  · exact thenPop (hstore _ 8)
  · exact hM.unsupported _
  · exact hM.unsupported _

theorem fcmov (take : Bool) (sti : Nat) :
    Respects M Q (SoftCPU64.fcmov take sti) (SoftCPU64.fcmov take sti) := by
  refine Respects.modifyCPU fun _ _ => ?_
  split <;> rfl

theorem compareEflags (sti : Nat) :
    Respects M Q
      (modifyCPU fun cpu => cpu.setEflagsFromFloatCompare float (cpu.fst 0) (cpu.fst sti))
      (modifyCPU fun cpu => cpu.setEflagsFromFloatCompare float (cpu.fst 0) (cpu.fst sti)) :=
  Respects.modifyCPU fun _ _ => visible_setEflagsFromFloatCompare float _ _ _ _

theorem executeDaRegister (hM : MemoryBisimulation M) (rb : U8) (sti : Nat) :
    Respects M Q (SoftCPU64.executeDaRegister float rb sti)
      (SoftCPU64.executeDaRegister float rb sti) := by
  refine Respects.getCPU_bind fun cpu shadows =>
    .ite (fun _ => Respects.modifyCPU fun _ _ => rfl) fun _ => ?_
  split
  · exact fcmov _ sti
  · exact fcmov _ sti
  · exact fcmov _ sti
  · exact fcmov _ sti
  · exact hM.unsupported _

theorem executeDbRegister (hM : MemoryBisimulation M) (rb : U8) (sti : Nat) :
    Respects M Q (SoftCPU64.executeDbRegister float rb sti)
      (SoftCPU64.executeDbRegister float rb sti) := by
  refine Respects.getCPU_bind fun cpu shadows =>
    .ite (fun _ => Respects.modifyCPU fun _ _ => rfl) fun _ =>
      .ite (fun _ => Respects.modifyCPU fun _ _ => rfl) fun _ => ?_
  split
  · exact fcmov _ sti
  · exact fcmov _ sti
  · exact fcmov _ sti
  · exact fcmov _ sti
  · exact compareEflags float sti
  · exact compareEflags float sti
  · exact hM.unsupported _

theorem executeDdRegister (hM : MemoryBisimulation M) (rb : U8) (sti : Nat) :
    Respects M Q (SoftCPU64.executeDdRegister float rb sti)
      (SoftCPU64.executeDdRegister float rb sti) := by
  unfold SoftCPU64.executeDdRegister
  split
  · exact Respects.modifyCPU fun _ _ => rfl
  · exact Respects.modifyCPU fun _ _ => rfl
  · exact Respects.modifyCPU fun _ _ => rfl
  · exact Respects.modifyCPU fun _ _ => rfl
  · exact Respects.modifyCPU fun _ _ => rfl
  · exact hM.unsupported _

theorem compareEflagsPop (sti : Nat) :
    Respects M Q
      (modifyCPU fun cpu =>
        (cpu.setEflagsFromFloatCompare float (cpu.fst 0) (cpu.fst sti)).fpuPop)
      (modifyCPU fun cpu =>
        (cpu.setEflagsFromFloatCompare float (cpu.fst 0) (cpu.fst sti)).fpuPop) := by
  refine Respects.modifyCPU fun cpu shadows => ?_
  exact congrArg SoftCPU64.fpuPop (visible_setEflagsFromFloatCompare float _ _ cpu shadows)

theorem executeDfRegister (hM : MemoryBisimulation M) (rb : U8) (sti : Nat) :
    Respects M Q (SoftCPU64.executeDfRegister float rb sti)
      (SoftCPU64.executeDfRegister float rb sti) := by
  refine .ite (fun _ => Respects.modifyCPU fun _ _ => rfl) fun _ => ?_
  split
  · exact compareEflagsPop float sti
  · exact compareEflagsPop float sti
  · exact hM.unsupported _

/-- The unary operations leave the shadows alone. -/
theorem executeD9Unary_withShadows (rb : U8) (cpu : SoftCPU64) (shadows : SoftCPU64.Shadows) :
    (cpu.withShadows shadows).executeD9Unary float rb =
      (cpu.executeD9Unary float rb).map (·.withShadows shadows) := by
  unfold SoftCPU64.executeD9Unary
  dsimp only
  split <;> rfl

theorem executeX87Register (hM : MemoryBisimulation M) (opcode rb : U8) :
    Respects M Q (SoftCPU64.executeX87Register float opcode rb)
      (SoftCPU64.executeX87Register float opcode rb) := by
  refine Respects.getCPU_bind fun cpu shadows => ?_
  have hfst : ∀ i, (cpu.withShadows shadows).fst i = cpu.fst i := fun _ => rfl
  split
  · exact Respects.modifyCPU fun _ _ => visible_arithIntoSt0 float _ _ _ _
  · rw [hfst, hfst]
    cases SoftCPU64.arithIntoSti float _ (cpu.fst 0) (cpu.fst _) with
    | some value => exact Respects.modifyCPU fun _ _ => rfl
    | none => exact hM.unsupported _
  · rw [hfst, hfst]
    refine .ite (fun _ => Respects.modifyCPU fun _ _ => rfl) fun _ => ?_
    cases SoftCPU64.arithIntoSti float _ (cpu.fst 0) (cpu.fst _) with
    | some value => exact Respects.modifyCPU fun _ _ => rfl
    | none => exact hM.unsupported _
  · split
    · exact Respects.modifyCPU fun _ _ => rfl
    · exact Respects.modifyCPU fun _ _ => rfl
    · rw [executeD9Unary_withShadows]
      cases cpu.executeD9Unary float rb with
      | some after => exact Respects.modifyCPU fun _ _ => rfl
      | none => exact hM.unsupported _
  · exact hM.executeDaRegister float rb _
  · exact hM.executeDbRegister float rb _
  · exact hM.executeDdRegister float rb _
  · exact hM.executeDfRegister float rb _
  · exact hM.unsupported _

theorem executeX87 (hM : MemoryBisimulation M) (opcode : U8) (prefixes : Prefixes) :
    Respects M Q (SoftCPU64.executeX87 float opcode prefixes)
      (SoftCPU64.executeX87 float opcode prefixes) := by
  refine (hM.fetchModrm prefixes).bindSame fun modrm =>
    (hM.decodeRmOperand prefixes modrm).bindSame fun operand => ?_
  cases operand with
  | register register => exact hM.executeX87Register float opcode _
  | memory decoded =>
      exact (Respects.effectiveAddress decoded).bindSame fun _ =>
        hM.executeX87Memory float opcode _ _

end Float

end MemoryBisimulation

end LUE
