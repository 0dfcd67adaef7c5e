import LinuxUserspaceEmulator.SoftCPU64.OperandForms

/-!
# Instructions behind their last fetch

Once it has fetched its last byte, an instruction that transfers no control leaves the decoder
where it is.  For most instructions with an operand the operand is the last thing they fetch, so
this is about everything they do with it.

Main results:

- Theorem `keepsPosition_x87`: the x87 instructions.
- Theorem `keepsPosition_sseFloat`: the SSE instructions on floating-point numbers.
- Theorem `keepsPosition_executeStringInstruction`: the string instructions, repeated or not.
-/

namespace LUE

open StateExcept

namespace SoftCPU64

namespace KeepsPosition

variable {α β : Type}

/-- A program may put back a CPU that it has read before. -/
theorem getCPU_bind {f : SoftCPU64 → EmulatorProgram β}
    (hf : ∀ cpu pc, cpu.decodePc = pc →
      Preserves (fun emulator => emulator.cpu.decodePc = pc) (f cpu)) :
    KeepsPosition (LUE.getCPU >>= f) :=
  fun pc emulator hpc => hf emulator.cpu pc hpc emulator hpc

theorem forOffsets {body : Nat → EmulatorProgram PUnit} (hbody : ∀ i, KeepsPosition (body i))
    (count : Nat) : KeepsPosition (forOffsets body count) :=
  fun pc => Preserves.forOffsets (fun i => hbody i pc) count

end KeepsPosition

variable {prefixes : Prefixes}

/-! ## Integer instructions -/

theorem keepsPosition_push64 (value shadow : U64) : KeepsPosition (push64 value shadow) :=
  KeepsPosition.bind (KeepsPosition.modifyCPU fun _ => rfl) fun _ =>
    KeepsPosition.getCPU.bind fun _ => KeepsPosition.onMMU _

theorem keepsPosition_popInto (target : Register) : KeepsPosition (popInto target) :=
  keepsPosition_pop64WithShadow.bind fun _ => KeepsPosition.modifyCPU fun _ => rfl

theorem keepsPosition_guestFault {α : Type} (what : String) :
    KeepsPosition (guestFault what : EmulatorProgram α) :=
  KeepsPosition.getCPU.bind fun _ => KeepsPosition.throw _

theorem keepsPosition_aluRmReg (opcode : U8) (modrm : ModRM) (operand : Operand) :
    KeepsPosition ((aluRmRegForm opcode prefixes).rest modrm operand) := by
  refine (keepsPosition_readOperand _ _ _).bind fun lhs =>
    (keepsPosition_readOperand _ _ _).bind fun rhs => KeepsPosition.ite (fun _ => ?_) fun _ => ?_
  · exact KeepsPosition.bind (KeepsPosition.modifyCPU fun _ => rfl) fun _ =>
      keepsPosition_executeOperation _ _ _ _ _ fun _ => keepsPosition_writeOperand _ _ _ _
  · exact keepsPosition_executeOperation _ _ _ _ _ fun _ => keepsPosition_writeOperand _ _ _ _

theorem keepsPosition_movsxd (modrm : ModRM) (operand : Operand) :
    KeepsPosition ((movsxdForm prefixes).rest modrm operand) :=
  (keepsPosition_readOperand _ _ _).bind fun _ => keepsPosition_writeGpr _ _ _ _

theorem keepsPosition_test (opcode : U8) (modrm : ModRM) (operand : Operand) :
    KeepsPosition ((testForm opcode prefixes).rest modrm operand) :=
  (keepsPosition_readOperand _ _ _).bind fun _ => (keepsPosition_readGpr _ _ _).bind fun _ =>
    keepsPosition_setLogicFlags _ _

theorem keepsPosition_xchg (modrm : ModRM) (operand : Operand) :
    KeepsPosition ((xchgForm prefixes).rest modrm operand) :=
  (keepsPosition_readOperand _ _ _).bind fun _ => (keepsPosition_readGpr _ _ _).bind fun _ =>
    (keepsPosition_writeOperand _ _ _ _).bind fun _ => keepsPosition_writeGpr _ _ _ _

theorem keepsPosition_movStore (opcode : U8) (modrm : ModRM) (operand : Operand) :
    KeepsPosition ((movStoreForm opcode prefixes).rest modrm operand) :=
  (keepsPosition_readGpr _ _ _).bind fun _ => keepsPosition_writeOperand _ _ _ _

theorem keepsPosition_movLoad (opcode : U8) (modrm : ModRM) (operand : Operand) :
    KeepsPosition ((movLoadForm opcode prefixes).rest modrm operand) :=
  (keepsPosition_readOperand _ _ _).bind fun _ => keepsPosition_writeGpr _ _ _ _

theorem keepsPosition_popOperand (modrm : ModRM) (operand : Operand) :
    KeepsPosition ((popOperandForm prefixes).rest modrm operand) := by
  refine keepsPosition_pop64WithShadow.bind fun value => KeepsPosition.ite (fun _ => ?_) fun _ => ?_
  · exact KeepsPosition.bind (KeepsPosition.modifyCPU fun _ => rfl) fun _ =>
      keepsPosition_writeOperand _ _ _ _
  · exact keepsPosition_writeOperand _ _ _ _

theorem keepsPosition_setcc (opcode : U8) (modrm : ModRM) (operand : Operand) :
    KeepsPosition ((setccForm opcode prefixes).rest modrm operand) :=
  keepsPosition_taintFromFlags.bind fun _ => KeepsPosition.getCPU.bind fun _ =>
    keepsPosition_writeOperand _ _ _ _

theorem keepsPosition_cmovcc (opcode : U8) (modrm : ModRM) (operand : Operand) :
    KeepsPosition ((cmovccForm opcode prefixes).rest modrm operand) :=
  keepsPosition_taintFromFlags.bind fun _ => KeepsPosition.getCPU.bind fun _ =>
    KeepsPosition.ite (fun _ => (keepsPosition_readOperand _ _ _).bind fun _ =>
      keepsPosition_writeGpr _ _ _ _) fun _ => KeepsPosition.pure _

/-! ### Products and quotients -/

theorem keepsPosition_writeProduct (product : BitVec 128) (overflow : Bool) (width : Width) :
    KeepsPosition (writeProduct product overflow width prefixes) := by
  refine KeepsPosition.ite (fun _ => ?_) fun _ => ?_
  · exact (keepsPosition_writeGpr _ _ _ _).bind fun _ => KeepsPosition.modifyCPU fun _ => rfl
  · exact (keepsPosition_writeGpr _ _ _ _).bind fun _ => (keepsPosition_writeGpr _ _ _ _).bind
      fun _ => KeepsPosition.modifyCPU fun _ => rfl

theorem keepsPosition_executeMul (operand : Operand) (width : Width) :
    KeepsPosition (executeMul operand width prefixes) :=
  (keepsPosition_readOperand _ _ _).bind fun _ => (keepsPosition_readGpr _ _ _).bind fun _ =>
    keepsPosition_writeProduct _ _ _

theorem keepsPosition_executeImul (operand : Operand) (width : Width) :
    KeepsPosition (executeImul operand width prefixes) :=
  (keepsPosition_readOperand _ _ _).bind fun _ => (keepsPosition_readGpr _ _ _).bind fun _ =>
    keepsPosition_writeProduct _ _ _

theorem keepsPosition_executeDiv (operand : Operand) (width : Width) :
    KeepsPosition (executeDiv operand width prefixes) := by
  refine (keepsPosition_readOperand _ _ _).bind fun value => KeepsPosition.ite
    (fun _ => keepsPosition_guestFault _) fun _ => KeepsPosition.ite (fun _ => ?_) fun _ => ?_
  · exact (keepsPosition_readGpr _ _ _).bind fun _ => KeepsPosition.ite
      (fun _ => keepsPosition_guestFault _) fun _ => keepsPosition_writeGpr _ _ _ _
  · exact (keepsPosition_readGpr _ _ _).bind fun _ => (keepsPosition_readGpr _ _ _).bind fun _ =>
      KeepsPosition.ite (fun _ => keepsPosition_guestFault _) fun _ =>
        (keepsPosition_writeGpr _ _ _ _).bind fun _ => keepsPosition_writeGpr _ _ _ _

theorem keepsPosition_executeIdiv (operand : Operand) (width : Width) :
    KeepsPosition (executeIdiv operand width prefixes) := by
  refine (keepsPosition_readOperand _ _ _).bind fun value => KeepsPosition.ite
    (fun _ => keepsPosition_guestFault _) fun _ => KeepsPosition.ite (fun _ => ?_) fun _ => ?_
  · exact (keepsPosition_readGpr _ _ _).bind fun _ => KeepsPosition.ite
      (fun _ => keepsPosition_guestFault _) fun _ => keepsPosition_writeGpr _ _ _ _
  · refine (keepsPosition_readGpr _ _ _).bind fun high => (keepsPosition_readGpr _ _ _).bind
      fun low => KeepsPosition.ite (fun _ => KeepsPosition.throw _) fun _ =>
        KeepsPosition.ite (fun _ => keepsPosition_guestFault _) fun _ => ?_
    exact (keepsPosition_writeGpr _ _ _ _).bind fun _ => keepsPosition_writeGpr _ _ _ _

theorem keepsPosition_imulRegister (modrm : ModRM) (operand : Operand) :
    KeepsPosition ((imulRegisterForm prefixes).rest modrm operand) :=
  (keepsPosition_readGpr _ _ _).bind fun _ => (keepsPosition_readOperand _ _ _).bind fun _ =>
    KeepsPosition.ite (fun _ => KeepsPosition.throw _) fun _ => keepsPosition_writeGpr _ _ _ _

/-! ### Bits, exchanges, extensions -/

theorem keepsPosition_setBitFlag (value : U64) (index : Nat) :
    KeepsPosition (modifyCPU (setBitFlag value index)) :=
  KeepsPosition.modifyCPU fun _ => rfl

theorem keepsPosition_bitString (opcode : U8) (modrm : ModRM) (operand : Operand) :
    KeepsPosition ((bitStringForm opcode prefixes).rest modrm operand) := by
  refine (keepsPosition_readGpr _ _ _).bind fun offset => ?_
  cases operand with
  | register register =>
      exact (keepsPosition_readGpr _ _ _).bind fun _ => (keepsPosition_setBitFlag _ _).bind fun _ =>
        KeepsPosition.ite (fun _ => keepsPosition_writeOperand _ _ _ _) fun _ =>
          KeepsPosition.pure _
  | memory decoded =>
      exact (keepsPosition_effectiveAddress _).bind fun _ => (KeepsPosition.readMMU _).bind fun _ =>
        (keepsPosition_setBitFlag _ _).bind fun _ => KeepsPosition.ite
          (fun _ => KeepsPosition.onMMU _) fun _ => KeepsPosition.pure _

theorem keepsPosition_bitScan (opcode : U8) (modrm : ModRM) (operand : Operand) :
    KeepsPosition ((bitScanForm opcode prefixes).rest modrm operand) := by
  refine (keepsPosition_readOperand _ _ _).bind fun read => ?_
  dsimp only
  split
  · exact KeepsPosition.bind (KeepsPosition.modifyCPU fun _ => rfl) fun _ =>
      KeepsPosition.modifyCPU fun _ => rfl
  · exact KeepsPosition.bind (KeepsPosition.modifyCPU fun _ => rfl) fun _ =>
      (keepsPosition_writeGpr _ _ _ _).bind fun _ => KeepsPosition.modifyCPU fun _ => rfl

theorem keepsPosition_cmpxchg (opcode : U8) (modrm : ModRM) (operand : Operand) :
    KeepsPosition ((cmpxchgForm opcode prefixes).rest modrm operand) := by
  refine (keepsPosition_readOperand _ _ _).bind fun destination =>
    (keepsPosition_readGpr _ _ _).bind fun accumulator => KeepsPosition.ite (fun _ => ?_)
      fun _ => ?_
  · exact (keepsPosition_readGpr _ _ _).bind fun _ => (keepsPosition_writeOperand _ _ _ _).bind
      fun _ => KeepsPosition.bind (KeepsPosition.modifyCPU fun _ => rfl) fun _ =>
        KeepsPosition.modifyCPU fun _ => rfl
  · exact (keepsPosition_writeGpr _ _ _ _).bind fun _ =>
      KeepsPosition.bind (KeepsPosition.modifyCPU fun _ => rfl) fun _ =>
        KeepsPosition.modifyCPU fun _ => rfl

theorem keepsPosition_xadd (opcode : U8) (modrm : ModRM) (operand : Operand) :
    KeepsPosition ((xaddForm opcode prefixes).rest modrm operand) :=
  (keepsPosition_readOperand _ _ _).bind fun _ => (keepsPosition_readGpr _ _ _).bind fun _ =>
    (keepsPosition_add _ _ _ _).bind fun _ => (keepsPosition_writeGpr _ _ _ _).bind fun _ =>
      keepsPosition_writeOperand _ _ _ _

theorem keepsPosition_extend (opcode : U8) (modrm : ModRM) (operand : Operand) :
    KeepsPosition ((extendForm opcode prefixes).rest modrm operand) :=
  (keepsPosition_readOperand _ _ _).bind fun _ => keepsPosition_writeGpr _ _ _ _

theorem keepsPosition_movnti (modrm : ModRM) (operand : Operand) :
    KeepsPosition ((movntiForm prefixes).rest modrm operand) :=
  (keepsPosition_readGpr _ _ _).bind fun _ => keepsPosition_writeOperand _ _ _ _

/-! ### String instructions -/

theorem keepsPosition_moveElement (width : Nat) (step : U64) :
    KeepsPosition (moveElement width step prefixes) :=
  KeepsPosition.getCPU.bind fun _ => (KeepsPosition.onMMU _).bind fun _ =>
    KeepsPosition.bind (KeepsPosition.modifyCPU fun _ => rfl) fun _ =>
      KeepsPosition.modifyCPU fun _ => rfl

theorem keepsPosition_storeElement (width : Nat) (step : U64) :
    KeepsPosition (storeElement width step) :=
  KeepsPosition.getCPU.bind fun _ => (KeepsPosition.onMMU _).bind fun _ =>
    KeepsPosition.modifyCPU fun _ => rfl

/-- A string instruction runs over all its elements at one position. -/
theorem keepsPosition_executeStringInstruction (opcode : U8) :
    KeepsPosition (executeStringInstruction opcode prefixes) := by
  refine KeepsPosition.getCPU.bind fun cpu => KeepsPosition.bind ?_ fun _ => KeepsPosition.ite
    (fun _ => KeepsPosition.modifyCPU fun _ => rfl) fun _ => KeepsPosition.pure _
  exact KeepsPosition.forOffsets (fun _ => KeepsPosition.ite
    (fun _ => keepsPosition_moveElement _ _) fun _ => keepsPosition_storeElement _ _) _

/-! ## SSE instructions -/

theorem keepsPosition_readXmmLow (operand : Operand) (count : Nat) :
    KeepsPosition (readXmmLow operand count) := by
  cases operand with
  | register register => exact KeepsPosition.getCPU.bind fun _ => KeepsPosition.pure _
  | memory decoded =>
      exact (keepsPosition_effectiveAddress _).bind fun _ => (KeepsPosition.readMMU _).bind fun _ =>
        KeepsPosition.pure _

theorem keepsPosition_modifyXmm (register : Register) (f : Xmm → Xmm) :
    KeepsPosition (modifyXmm register f) :=
  KeepsPosition.modifyCPU fun _ => rfl

theorem keepsPosition_storeXmmBytes (decoded : DecodedAddress) (value : Xmm) (offset count : Nat) :
    KeepsPosition (storeXmmBytes decoded value offset count) :=
  (keepsPosition_effectiveAddress _).bind fun _ => KeepsPosition.onMMU _

theorem keepsPosition_writeXmmToOperand (operand : Operand) (value : Xmm) :
    KeepsPosition (writeXmmToOperand operand value) := by
  cases operand with
  | register register => exact KeepsPosition.modifyCPU fun _ => rfl
  | memory decoded => exact keepsPosition_storeXmmBytes decoded value 0 16

theorem keepsPosition_packed (f : Xmm → Xmm → Xmm) (modrm : ModRM) (operand : Operand) :
    KeepsPosition ((packedForm prefixes f).rest modrm operand) :=
  (keepsPosition_readXmmLow _ _).bind fun _ => keepsPosition_modifyXmm _ _

theorem keepsPosition_storeXmm (modrm : ModRM) (operand : Operand) :
    KeepsPosition ((storeXmmForm prefixes).rest modrm operand) :=
  KeepsPosition.getCPU.bind fun _ => keepsPosition_writeXmmToOperand _ _

theorem keepsPosition_loadXmm (modrm : ModRM) (operand : Operand) :
    KeepsPosition ((loadXmmForm prefixes).rest modrm operand) :=
  (keepsPosition_readOperand _ _ _).bind fun _ => keepsPosition_modifyXmm _ _

theorem keepsPosition_movq (modrm : ModRM) (operand : Operand) :
    KeepsPosition ((movqForm prefixes).rest modrm operand) := by
  refine KeepsPosition.ite (fun _ => ?_) fun _ => ?_
  · exact (keepsPosition_readOperand _ _ _).bind fun _ => keepsPosition_modifyXmm _ _
  · exact KeepsPosition.getCPU.bind fun _ => keepsPosition_writeOperand _ _ _ _

theorem keepsPosition_storeLow (modrm : ModRM) (operand : Operand) :
    KeepsPosition ((storeLowForm prefixes).rest modrm operand) :=
  KeepsPosition.getCPU.bind fun _ => keepsPosition_writeOperand _ _ _ _

theorem keepsPosition_pmovmskb (modrm : ModRM) (operand : Operand) :
    KeepsPosition ((pmovmskbForm prefixes).rest modrm operand) :=
  (keepsPosition_readXmmLow _ _).bind fun _ => keepsPosition_writeGpr _ _ _ _

section SseFloat

variable (float : HostFloat)

theorem keepsPosition_loadScalar (operand : Operand) (isDouble : Bool) :
    KeepsPosition (loadScalar float operand isDouble) := by
  cases operand with
  | register register => exact KeepsPosition.getCPU.bind fun _ => KeepsPosition.pure _
  | memory decoded =>
      refine (keepsPosition_effectiveAddress _).bind fun _ => KeepsPosition.ite (fun _ => ?_)
        fun _ => ?_
      · exact (KeepsPosition.readMMU _).bind fun _ => KeepsPosition.pure _
      · exact (KeepsPosition.readMMU _).bind fun _ => KeepsPosition.pure _

theorem decodePc_setEflagsFromFloatCompare (a b : LongDouble) (cpu : SoftCPU64) :
    (cpu.setEflagsFromFloatCompare float a b).decodePc = cpu.decodePc := by
  simp only [setEflagsFromFloatCompare]
  split
  · simp only [decodePc_setFlag]
  · split
    · simp only [decodePc_setFlag]
    · split <;> simp only [decodePc_setFlag]

theorem keepsPosition_setEflags (a b : LongDouble) :
    KeepsPosition (modifyCPU fun cpu => cpu.setEflagsFromFloatCompare float a b) :=
  KeepsPosition.modifyCPU (decodePc_setEflagsFromFloatCompare float a b)

theorem keepsPosition_sseLoad (kind : SseKind) (reg : Register) (operand : Operand) :
    KeepsPosition (sseLoad kind reg operand) :=
  KeepsPosition.ite (fun _ => (keepsPosition_readXmmLow _ _).bind fun _ =>
    keepsPosition_modifyXmm _ _) fun _ => (keepsPosition_readXmmLow _ _).bind fun _ =>
      keepsPosition_modifyXmm _ _

theorem keepsPosition_sseStore (kind : SseKind) (reg : Register) (operand : Operand) :
    KeepsPosition (sseStore kind reg operand) := by
  refine KeepsPosition.getCPU.bind fun cpu => KeepsPosition.ite (fun _ => ?_)
    fun _ => keepsPosition_writeXmmToOperand _ _
  cases operand with
  | register register => exact keepsPosition_modifyXmm _ _
  | memory decoded => exact keepsPosition_storeXmmBytes decoded _ 0 _

theorem keepsPosition_sseStoreQuadword (reg : Register) (operand : Operand) (offset : Nat) :
    KeepsPosition (sseStoreQuadword reg operand offset) := by
  refine KeepsPosition.getCPU.bind fun cpu => ?_
  cases operand with
  | register register => exact keepsPosition_storeXmmBytes {} _ offset 8
  | memory decoded => exact keepsPosition_storeXmmBytes decoded _ offset 8

theorem keepsPosition_sseConvertFormat (reg : Register) (operand : Operand) :
    KeepsPosition (sseConvertFormat float prefixes reg operand) := by
  have hscalar : ∀ (isDouble : Bool) (f : LongDouble → Xmm → Xmm),
      KeepsPosition (loadScalar float operand isDouble >>= fun value =>
        modifyXmm reg (f value)) := fun isDouble f =>
    (keepsPosition_loadScalar float operand isDouble).bind fun _ => keepsPosition_modifyXmm _ _
  refine KeepsPosition.ite (fun _ => ?_) fun _ => KeepsPosition.ite (fun _ => ?_) fun _ => ?_
  · exact hscalar false fun value destination =>
      destination.storeF64 0 (float.extendedToDouble value)
  · exact hscalar true fun value destination =>
      destination.storeF32 0 (float.extendedToSingle value)
  · exact (keepsPosition_readXmmLow operand 16).bind fun _ => keepsPosition_modifyXmm _ _

/-- The SSE instructions on floating-point numbers fetch nothing after their operand. -/
theorem keepsPosition_sseFloat (host : Host) (opcode : U8) (modrm : ModRM) (operand : Operand) :
    KeepsPosition ((sseFloatForm host opcode prefixes).rest modrm operand) := by
  dsimp only [sseFloatForm, OperandForm.ofSequence]
  split
  -- a source, whole or in part, and a function of it
  any_goals exact (keepsPosition_readXmmLow operand _).bind fun _ => keepsPosition_modifyXmm _ _
  · exact keepsPosition_sseLoad _ _ operand
  · exact keepsPosition_sseStore _ _ operand
  · exact keepsPosition_sseStoreQuadword _ operand 0
  · exact keepsPosition_sseStoreQuadword _ operand 8
  · exact (keepsPosition_readOperand _ _ _).bind fun _ => keepsPosition_modifyXmm _ _
  · exact (keepsPosition_loadScalar _ operand _).bind fun _ => keepsPosition_writeGpr _ _ _ _
  · exact (keepsPosition_loadScalar _ operand _).bind fun _ => keepsPosition_writeGpr _ _ _ _
  · exact KeepsPosition.getCPU.bind fun _ => (keepsPosition_loadScalar _ operand _).bind fun _ =>
      keepsPosition_setEflags _ _ _
  · exact KeepsPosition.getCPU.bind fun _ => (keepsPosition_loadScalar _ operand _).bind fun _ =>
      keepsPosition_setEflags _ _ _
  · exact keepsPosition_sseConvertFormat _ _ operand
  · exact keepsPosition_unsupported _

end SseFloat

/-! ## x87 instructions -/

section X87

variable (float : HostFloat)

theorem decodePc_arithIntoSt0 (operation : Nat) (b : LongDouble) (cpu : SoftCPU64) :
    (cpu.arithIntoSt0 float operation b).decodePc = cpu.decodePc := by
  unfold arithIntoSt0
  split <;> rfl

theorem decodePc_executeD9Unary {rb : U8} {cpu after : SoftCPU64}
    (h : cpu.executeD9Unary float rb = some after) : after.decodePc = cpu.decodePc := by
  unfold executeD9Unary at h
  split at h
  all_goals cases h
  all_goals rfl

theorem keepsPosition_fpuPop : KeepsPosition (modifyCPU fpuPop) :=
  KeepsPosition.modifyCPU fun _ => rfl

theorem keepsPosition_thenPop {store : EmulatorProgram Unit} (h : KeepsPosition store) :
    KeepsPosition (thenPop store) :=
  h.bind fun _ => keepsPosition_fpuPop

theorem keepsPosition_pushFrom {load : EmulatorProgram LongDouble} (h : KeepsPosition load) :
    KeepsPosition (pushFrom load) :=
  h.bind fun _ => KeepsPosition.modifyCPU fun _ => rfl

theorem keepsPosition_arithFrom (operation : Nat) {load : EmulatorProgram LongDouble}
    (h : KeepsPosition load) : KeepsPosition (arithFrom float operation load) :=
  h.bind fun value => KeepsPosition.modifyCPU (decodePc_arithIntoSt0 float operation value)

/-! ### Memory forms -/

theorem keepsPosition_readM32 (address : U64) : KeepsPosition (readM32 float address) :=
  (KeepsPosition.readMMU _).bind fun _ => KeepsPosition.pure _

theorem keepsPosition_readM64 (address : U64) : KeepsPosition (readM64 float address) :=
  (KeepsPosition.readMMU _).bind fun _ => KeepsPosition.pure _

theorem keepsPosition_readM80 (address : U64) : KeepsPosition (readM80 address) :=
  (KeepsPosition.readMMU _).bind fun _ => KeepsPosition.pure _

theorem keepsPosition_readMInt (address : U64) (bytes : Nat) :
    KeepsPosition (readMInt float address bytes) :=
  (KeepsPosition.readMMU _).bind fun _ => KeepsPosition.pure _

theorem keepsPosition_storeInt (address : U64) (value : LongDouble) (bytes : Nat)
    (truncate : Bool) : KeepsPosition (storeInt float address value bytes truncate) :=
  KeepsPosition.onMMU _

theorem keepsPosition_executeX87Memory (opcode : U8) (operation : Nat) (address : U64) :
    KeepsPosition (executeX87Memory float opcode operation address) := by
  refine KeepsPosition.getCPU.bind fun cpu => ?_
  dsimp only
  split
  · exact keepsPosition_arithFrom float _ (keepsPosition_readM32 float address)
  · exact keepsPosition_arithFrom float _ (keepsPosition_readM64 float address)
  · exact keepsPosition_arithFrom float _ (keepsPosition_readMInt float address 4)
  · exact keepsPosition_arithFrom float _ (keepsPosition_readMInt float address 2)
  · exact keepsPosition_pushFrom (keepsPosition_readM32 float address)
  · exact KeepsPosition.onMMU _
  · exact keepsPosition_thenPop (KeepsPosition.onMMU _)
  · exact (KeepsPosition.readMMU _).bind fun _ => KeepsPosition.modifyCPU fun _ => rfl
  · exact KeepsPosition.onMMU _
  · exact keepsPosition_unsupported _
  · exact keepsPosition_pushFrom (keepsPosition_readM64 float address)
  · exact KeepsPosition.onMMU _
  · exact keepsPosition_thenPop (KeepsPosition.onMMU _)
  · exact KeepsPosition.onMMU _
  · exact keepsPosition_unsupported _
  · exact keepsPosition_pushFrom (keepsPosition_readMInt float address 4)
  · exact keepsPosition_thenPop (keepsPosition_storeInt float address _ 4 true)
  · exact keepsPosition_storeInt float address _ 4 false
  · exact keepsPosition_thenPop (keepsPosition_storeInt float address _ 4 false)
  · exact keepsPosition_pushFrom (keepsPosition_readM80 address)
  · exact keepsPosition_thenPop (KeepsPosition.onMMU _)
  · exact keepsPosition_unsupported _
  · exact keepsPosition_pushFrom (keepsPosition_readMInt float address 2)
  · exact keepsPosition_thenPop (keepsPosition_storeInt float address _ 2 true)
  · exact keepsPosition_storeInt float address _ 2 false
  · exact keepsPosition_thenPop (keepsPosition_storeInt float address _ 2 false)
  · exact keepsPosition_pushFrom (keepsPosition_readMInt float address 8)
  · exact keepsPosition_thenPop (keepsPosition_storeInt float address _ 8 false)
  · exact keepsPosition_unsupported _
  · exact keepsPosition_unsupported _

theorem keepsPosition_fcmov (take : Bool) (sti : Nat) : KeepsPosition (fcmov take sti) := by
  refine KeepsPosition.modifyCPU fun cpu => ?_
  split <;> rfl

/-! ### Register forms -/

theorem keepsPosition_executeDaRegister (rb : U8) (sti : Nat) :
    KeepsPosition (executeDaRegister float rb sti) := by
  refine KeepsPosition.getCPU.bind fun cpu => KeepsPosition.ite
    (fun _ => KeepsPosition.modifyCPU fun _ => rfl) fun _ => ?_
  split
  · exact keepsPosition_fcmov _ sti
  · exact keepsPosition_fcmov _ sti
  · exact keepsPosition_fcmov _ sti
  · exact keepsPosition_fcmov _ sti
  · exact keepsPosition_unsupported _

theorem keepsPosition_executeDbRegister (rb : U8) (sti : Nat) :
    KeepsPosition (executeDbRegister float rb sti) := by
  refine KeepsPosition.getCPU.bind fun cpu => KeepsPosition.ite
    (fun _ => KeepsPosition.modifyCPU fun _ => rfl) fun _ => KeepsPosition.ite
      (fun _ => KeepsPosition.modifyCPU fun _ => rfl) fun _ => ?_
  split
  · exact keepsPosition_fcmov _ sti
  · exact keepsPosition_fcmov _ sti
  · exact keepsPosition_fcmov _ sti
  · exact keepsPosition_fcmov _ sti
  · exact KeepsPosition.modifyCPU fun cpu => decodePc_setEflagsFromFloatCompare float _ _ cpu
  · exact KeepsPosition.modifyCPU fun cpu => decodePc_setEflagsFromFloatCompare float _ _ cpu
  · exact keepsPosition_unsupported _

theorem keepsPosition_executeDdRegister (rb : U8) (sti : Nat) :
    KeepsPosition (executeDdRegister float rb sti) := by
  unfold executeDdRegister
  split
  · exact KeepsPosition.modifyCPU fun _ => rfl
  · exact KeepsPosition.modifyCPU fun _ => rfl
  · exact KeepsPosition.modifyCPU fun _ => rfl
  · exact KeepsPosition.modifyCPU fun _ => rfl
  · exact KeepsPosition.modifyCPU fun _ => rfl
  · exact keepsPosition_unsupported _

theorem keepsPosition_executeDfRegister (rb : U8) (sti : Nat) :
    KeepsPosition (executeDfRegister float rb sti) := by
  refine KeepsPosition.ite (fun _ => KeepsPosition.modifyCPU fun _ => rfl) fun _ => ?_
  split
  · exact KeepsPosition.modifyCPU fun cpu => decodePc_setEflagsFromFloatCompare float _ _ cpu
  · exact KeepsPosition.modifyCPU fun cpu => decodePc_setEflagsFromFloatCompare float _ _ cpu
  · exact keepsPosition_unsupported _

theorem keepsPosition_executeX87Register (opcode rb : U8) :
    KeepsPosition (executeX87Register float opcode rb) := by
  refine KeepsPosition.getCPU_bind fun cpu pc hcpu => ?_
  split
  · exact KeepsPosition.modifyCPU (fun cpu => decodePc_arithIntoSt0 float _ _ cpu) pc
  · split
    · exact KeepsPosition.modifyCPU (fun _ => rfl) pc
    · exact keepsPosition_unsupported _ pc
  · refine Preserves.ite (fun _ => KeepsPosition.modifyCPU (fun _ => rfl) pc) fun _ => ?_
    split
    · exact KeepsPosition.modifyCPU (fun _ => rfl) pc
    · exact keepsPosition_unsupported _ pc
  · split
    · exact KeepsPosition.modifyCPU (fun _ => rfl) pc
    · exact KeepsPosition.modifyCPU (fun _ => rfl) pc
    · split
      · rename_i after hunary
        exact fun _ _ => (decodePc_executeD9Unary float hunary).trans hcpu
      · exact keepsPosition_unsupported _ pc
  · exact keepsPosition_executeDaRegister float rb _ pc
  · exact keepsPosition_executeDbRegister float rb _ pc
  · exact keepsPosition_executeDdRegister float rb _ pc
  · exact keepsPosition_executeDfRegister float rb _ pc
  · exact keepsPosition_unsupported _ pc

/-- The x87 instructions fetch nothing after their operand. -/
theorem keepsPosition_x87 (host : Host) (opcode : U8) (modrm : ModRM) (operand : Operand) :
    KeepsPosition ((x87Form host opcode prefixes).rest modrm operand) := by
  cases operand with
  | register register => exact keepsPosition_executeX87Register _ opcode _
  | memory decoded =>
      exact (keepsPosition_effectiveAddress _).bind fun _ =>
        keepsPosition_executeX87Memory _ opcode _ _

end X87

end SoftCPU64

end LUE
