import LinuxUserspaceEmulator.SoftCPU64.RipRelative

/-!
# Programs without observed reads

Only shadowed reads call the read observer.  Everything else an instruction is made of keeps
the read log as it is: fetches, register accesses, writes, and the plain reads of the string,
bit-string, SSE and x87 instructions.

Main results:

- Theorem `KeepsReads.decodeRmOperand`: decoding an operand reads nothing.
- Theorems `KeepsReads.executeX87` and `KeepsReads.executeStringInstruction`: whole
  instructions whose loads are not observed.
-/

namespace LUE

open StateExcept

namespace SoftMMU

variable (reads : Option (List U64)) (address : U64)

theorem preserves_readObserver_writeInteger (value : U64) (count : Nat) :
    Preserves (fun mmu => mmu.readObserver = reads) (writeInteger address value count) :=
  Preserves.forOffsets (fun _ => preserves_readObserver_write8WithShadow reads _ _) _

theorem preserves_readObserver_writeIntegerWithShadow (value : ValueWithShadow 64)
    (count : Nat) :
    Preserves (fun mmu => mmu.readObserver = reads)
      (writeIntegerWithShadow address value count) :=
  Preserves.forOffsets (fun _ => preserves_readObserver_write8WithShadow reads _ _) _

end SoftMMU

namespace SoftCPU64

namespace KeepsReads

variable {α β : Type}

/-! ## Decoding -/

theorem onMMU {program : MMUProgram α}
    (h : ∀ reads, Preserves (fun mmu => mmu.readObserver = reads) program) :
    KeepsReads (onMMU program) := by
  intro reads emulator hreads
  have hkept := h reads emulator.mmu hreads
  unfold LUE.onMMU onPart
  cases hrun : program emulator.mmu <;> rwa [hrun] at hkept

theorem onCPU (operation : SoftCPU64 → U64 × SoftCPU64) : KeepsReads (onCPU operation) :=
  fun _ _ hreads => hreads

theorem unsupported (message : String) : KeepsReads (unsupported message : EmulatorProgram α) :=
  getCPU.bind fun _ => (readMMU _).bind fun _ => throw _

theorem guestFault (what : String) : KeepsReads (guestFault what : EmulatorProgram α) :=
  getCPU.bind fun _ => throw _

theorem fetchI8 : KeepsReads fetchI8 :=
  fetch8.bind fun _ => pure _

theorem fetchI32 : KeepsReads fetchI32 :=
  (fetchInteger 4).bind fun _ => pure _

theorem fetchModrm (prefixes : Prefixes) : KeepsReads (fetchModrm prefixes) :=
  fetch8.bind fun _ => pure _

theorem addressRegister (register : Register) : KeepsReads (addressRegister register) :=
  getCPU.bind fun _ => pure _

theorem decodeSib (prefixes : Prefixes) (modrm : ModRM) :
    KeepsReads (decodeSib prefixes modrm) := by
  refine fetch8.bind fun sib => ite ?_ ?_
  · exact (addressRegister _).bind fun index =>
      ite (fetchI32.bind fun _ => pure _) ((addressRegister _).bind fun _ => pure _)
  · exact (pure _).bind fun index =>
      ite (fetchI32.bind fun _ => pure _) ((addressRegister _).bind fun _ => pure _)

theorem decodeAddressParts (prefixes : Prefixes) (modrm : ModRM) :
    KeepsReads (decodeAddressParts prefixes modrm) := by
  refine ite (decodeSib _ _) (ite ?_ ?_)
  · exact fetchI32.bind fun _ => pure _
  · exact (addressRegister _).bind fun _ => pure _

theorem decodeMemoryAddress (prefixes : Prefixes) (modrm : ModRM) :
    KeepsReads (decodeMemoryAddress prefixes modrm) := by
  refine (decodeAddressParts _ _).bind fun parts => ite ?_ (ite ?_ ?_)
  · exact fetchI8.bind fun _ => getCPU.bind fun _ =>
      ite ((modifyCPU _).bind fun _ => pure _) (pure _)
  · exact fetchI32.bind fun _ => getCPU.bind fun _ =>
      ite ((modifyCPU _).bind fun _ => pure _) (pure _)
  · exact (pure _).bind fun _ => getCPU.bind fun _ =>
      ite ((modifyCPU _).bind fun _ => pure _) (pure _)

theorem decodeRmOperand (prefixes : Prefixes) (modrm : ModRM) :
    KeepsReads (decodeRmOperand prefixes modrm) :=
  ite (pure _) ((decodeMemoryAddress _ _).bind fun _ => pure _)

theorem effectiveAddress (decoded : DecodedAddress) : KeepsReads (effectiveAddress decoded) :=
  getCPU.bind fun _ => pure _

/-! ## Integer instructions -/

theorem writeGpr (register : Register) (width : Width) (value : U64) (prefixes : Prefixes) :
    KeepsReads (writeGpr register width value prefixes) :=
  modifyCPU _

theorem push64 (value shadow : U64) : KeepsReads (push64 value shadow) :=
  (modifyCPU _).bind fun _ => getCPU.bind fun _ =>
    onMMU fun reads => SoftMMU.preserves_readObserver_writeIntegerWithShadow reads _ _ _

theorem executeOperation (operation : Nat) (lhs rhs : U64) (width : Width) (mask : U64)
    {write : U64 → EmulatorProgram Unit} (hwrite : ∀ value, KeepsReads (write value)) :
    KeepsReads (executeOperation operation lhs rhs width mask write) := by
  unfold SoftCPU64.executeOperation
  split
  · exact (onCPU _).bind hwrite
  · exact (modifyCPU _).bind fun _ => hwrite _
  · exact (onCPU _).bind hwrite
  · exact (onCPU _).bind hwrite
  · exact (modifyCPU _).bind fun _ => hwrite _
  · exact (onCPU _).bind hwrite
  · exact (modifyCPU _).bind fun _ => hwrite _
  · exact (onCPU _).bind fun _ => pure _
  · exact unsupported _

theorem writeProduct (product : BitVec 128) (overflow : Bool) (width : Width)
    (prefixes : Prefixes) : KeepsReads (writeProduct product overflow width prefixes) := by
  refine ite ?_ ?_
  · exact (writeGpr _ _ _ _).bind fun _ => modifyCPU _
  · exact (writeGpr _ _ _ _).bind fun _ => (writeGpr _ _ _ _).bind fun _ => modifyCPU _

theorem shiftResult (operation : Nat) (value : U64) (count : Nat) (width : Width) :
    KeepsReads (shiftResult operation value count width) := by
  have hleft : ∀ value count, KeepsReads (hostShiftLeft value count) := fun _ _ =>
    ite (pure _) (throw _)
  have hright : ∀ value count, KeepsReads (hostShiftRight value count) := fun _ _ =>
    ite (pure _) (throw _)
  unfold SoftCPU64.shiftResult
  split
  · exact (hleft _ _).bind fun _ => (hright _ _).bind fun _ => pure _
  · exact (hright _ _).bind fun _ => (hleft _ _).bind fun _ => pure _
  · exact (hleft _ _).bind fun _ => pure _
  · exact (hleft _ _).bind fun _ => pure _
  · exact (hright _ _).bind fun _ => pure _
  · exact (hright _ _).bind fun _ => pure _
  · exact unsupported _

theorem forOffsets {body : Nat → EmulatorProgram PUnit} (hbody : ∀ i, KeepsReads (body i))
    (count : Nat) : KeepsReads (forOffsets body count) :=
  fun reads => Preserves.forOffsets (fun i => hbody i reads) count

theorem moveElement (width : Nat) (step : U64) (prefixes : Prefixes) :
    KeepsReads (moveElement width step prefixes) := by
  refine getCPU.bind fun cpu => KeepsReads.bind (onMMU fun reads => ?_) fun _ =>
    (modifyCPU _).bind fun _ => modifyCPU _
  exact Preserves.forOffsets (fun _ => (Preserves.observe _).bind fun _ =>
    SoftMMU.preserves_readObserver_write8WithShadow reads _ _) _

theorem storeElement (width : Nat) (step : U64) : KeepsReads (storeElement width step) := by
  refine getCPU.bind fun cpu => KeepsReads.bind (onMMU fun reads => ?_) fun _ => modifyCPU _
  exact Preserves.forOffsets
    (fun _ => SoftMMU.preserves_readObserver_write8WithShadow reads _ _) _

/-- The string instructions copy by plain reads. -/
theorem executeStringInstruction (opcode : U8) (prefixes : Prefixes) :
    KeepsReads (executeStringInstruction opcode prefixes) := by
  have hloop : ∀ width step count, KeepsReads (StateExcept.forOffsets (fun _ =>
      if opcode = 0xa4 ∨ opcode = 0xa5 then SoftCPU64.moveElement width step prefixes
      else SoftCPU64.storeElement width step) count) := fun width step count =>
    forOffsets (fun _ => ite (moveElement width step prefixes) (storeElement width step)) count
  exact getCPU.bind fun cpu => (hloop _ _ _).bind fun _ => ite (modifyCPU _) (pure _)

/-! ## Instructions without an operand -/

theorem fetchImmediate (width : Width) : KeepsReads (fetchImmediate width) := by
  cases width with
  | w8 => exact fetch8.bind fun _ => pure _
  | w16 => exact fetchInteger 2
  | w32 => exact (fetchInteger 4).bind fun _ => pure _
  | w64 => exact (fetchInteger 4).bind fun _ => pure _

theorem branchCondition (cc : U8) : KeepsReads (branchCondition cc) :=
  getCPU.bind fun _ => ite ((modifyCPU _).bind fun _ => pure _) (pure _)

theorem executeAluAccumulator (opcode : U8) (prefixes : Prefixes) :
    KeepsReads (executeAluAccumulator opcode prefixes) := by
  refine (readGpr _ _ _).bind fun _ => ite ?_ (ite ?_ ?_)
  · exact fetch8.bind fun _ => executeOperation _ _ _ _ _ fun _ => writeGpr _ _ _ _
  · exact (fetchInteger 2).bind fun _ => executeOperation _ _ _ _ _ fun _ => writeGpr _ _ _ _
  · exact (fetchInteger 4).bind fun _ => executeOperation _ _ _ _ _ fun _ => writeGpr _ _ _ _

theorem executeJccShort (opcode : U8) : KeepsReads (executeJccShort opcode) :=
  fetchI8.bind fun _ => (branchCondition _).bind fun _ => ite (modifyCPU _) (pure _)

theorem executeJccNear (opcode : U8) : KeepsReads (executeJccNear opcode) :=
  fetchI32.bind fun _ => (branchCondition _).bind fun _ => ite (modifyCPU _) (pure _)

theorem executeXchgShort (opcode : U8) (prefixes : Prefixes) :
    KeepsReads (executeXchgShort opcode prefixes) :=
  ite (pure _) (modifyCPU _)

theorem executeMovImmediate (opcode : U8) (prefixes : Prefixes) :
    KeepsReads (executeMovImmediate opcode prefixes) :=
  ite (fetch8.bind fun _ => writeGpr _ _ _ _) ((fetchInteger _).bind fun _ => writeGpr _ _ _ _)

theorem executePush (opcode : U8) (prefixes : Prefixes) :
    KeepsReads (executePush opcode prefixes) :=
  getCPU.bind fun _ => push64 _ _

theorem executePushImmediate (opcode : U8) : KeepsReads (executePushImmediate opcode) :=
  ite ((fetchInteger 4).bind fun _ => push64 _ _) (fetch8.bind fun _ => push64 _ _)

theorem executeCdqe (prefixes : Prefixes) : KeepsReads (executeCdqe prefixes) :=
  ite ((readGpr _ _ _).bind fun _ => modifyCPU _)
    ((readGpr _ _ _).bind fun _ => writeGpr _ _ _ _)

theorem executeCqo (prefixes : Prefixes) : KeepsReads (executeCqo prefixes) :=
  ite ((readGpr _ _ _).bind fun _ => modifyCPU _)
    ((readGpr _ _ _).bind fun _ => writeGpr _ _ _ _)

theorem executeTestAccumulator (opcode : U8) (prefixes : Prefixes) :
    KeepsReads (executeTestAccumulator opcode prefixes) := by
  refine (readGpr _ _ _).bind fun value => ite ?_ ?_
  · exact fetch8.bind fun _ => fun _ _ hreads => hreads
  · exact (fetchInteger 4).bind fun _ => fun _ _ hreads => hreads

theorem executeLoop (opcode : U8) : KeepsReads (executeLoop opcode) :=
  fetchI8.bind fun _ => (modifyCPU _).bind fun _ => getCPU.bind fun _ => ite (modifyCPU _) (pure _)

theorem executeJrcxz : KeepsReads executeJrcxz :=
  fetchI8.bind fun _ => getCPU.bind fun _ => ite (modifyCPU _) (pure _)

theorem executeCall : KeepsReads executeCall :=
  fetchI32.bind fun _ => getCPU.bind fun _ => (push64 _ _).bind fun _ => modifyCPU _

theorem executeJmp (opcode : U8) : KeepsReads (executeJmp opcode) :=
  ite (fetchI32.bind fun _ => modifyCPU _) (fetchI8.bind fun _ => modifyCPU _)

theorem executeBswap (opcode : U8) (prefixes : Prefixes) :
    KeepsReads (executeBswap opcode prefixes) :=
  (readGpr _ _ _).bind fun _ => writeGpr _ _ _ _

/-! ## SSE instructions -/

theorem readXmmLow (operand : Operand) (count : Nat) : KeepsReads (readXmmLow operand count) := by
  cases operand with
  | register register => exact getCPU.bind fun _ => pure _
  | memory decoded =>
      exact (effectiveAddress decoded).bind fun _ => (readMMU _).bind fun _ => pure _

theorem loadScalar (float : HostFloat) (operand : Operand) (isDouble : Bool) :
    KeepsReads (loadScalar float operand isDouble) := by
  cases operand with
  | register register => exact getCPU.bind fun _ => pure _
  | memory decoded =>
      refine (effectiveAddress decoded).bind fun _ => ite ?_ ?_
      · exact (readMMU _).bind fun _ => pure _
      · exact (readMMU _).bind fun _ => pure _

theorem modifyXmm (register : Register) (f : Xmm → Xmm) : KeepsReads (modifyXmm register f) :=
  modifyCPU _

theorem storeXmmBytes (decoded : DecodedAddress) (value : Xmm) (offset count : Nat) :
    KeepsReads (storeXmmBytes decoded value offset count) :=
  (effectiveAddress decoded).bind fun _ => onMMU fun reads =>
    Preserves.forOffsets (fun _ => SoftMMU.preserves_readObserver_write8WithShadow reads _ _) _

theorem writeXmmToOperand (operand : Operand) (value : Xmm) :
    KeepsReads (writeXmmToOperand operand value) := by
  cases operand with
  | register register => exact fun _ _ hreads => hreads
  | memory decoded => exact storeXmmBytes decoded value 0 16

theorem packedOperation (prefixes : Prefixes) (f : Xmm → Xmm → Xmm) :
    KeepsReads (packedOperation prefixes f) :=
  (fetchModrm _).bind fun _ => (decodeRmOperand _ _).bind fun _ => (readXmmLow _ 16).bind fun _ =>
    modifyXmm _ _

theorem selectedOperation (prefixes : Prefixes) (f : U8 → Xmm → Xmm → Xmm) :
    KeepsReads (selectedOperation prefixes f) :=
  (fetchModrm _).bind fun _ => (decodeRmOperand _ _).bind fun _ => fetch8.bind fun _ =>
    (readXmmLow _ 16).bind fun _ => modifyXmm _ _

theorem storeXmm (prefixes : Prefixes) : KeepsReads (storeXmm prefixes) :=
  (fetchModrm _).bind fun _ => (decodeRmOperand _ _).bind fun _ => getCPU.bind fun _ =>
    writeXmmToOperand _ _

theorem storeLowQuadword (prefixes : Prefixes) : KeepsReads (storeLowQuadword prefixes) :=
  (fetchModrm _).bind fun _ => (decodeRmOperand _ _).bind fun _ => getCPU.bind fun _ =>
    writeOperand _ _ _ _

theorem executePmovmskb (prefixes : Prefixes) : KeepsReads (executePmovmskb prefixes) :=
  (fetchModrm _).bind fun _ => (decodeRmOperand _ _).bind fun _ => (readXmmLow _ 16).bind fun _ =>
    writeGpr _ _ _ _

theorem executeByteShift (prefixes : Prefixes) : KeepsReads (executeByteShift prefixes) := by
  refine (fetchModrm _).bind fun _ => (decodeRmOperand _ _).bind fun operand => fetch8.bind
    fun _ => ?_
  cases operand with
  | memory decoded => exact unsupported _
  | register register => exact ite (modifyXmm _ _) (unsupported _)

theorem sseLoad (kind : SseKind) (reg : Register) (operand : Operand) :
    KeepsReads (sseLoad kind reg operand) :=
  ite ((readXmmLow _ _).bind fun _ => modifyXmm _ _) ((readXmmLow _ 16).bind fun _ => modifyXmm _ _)

theorem sseStore (kind : SseKind) (reg : Register) (operand : Operand) :
    KeepsReads (sseStore kind reg operand) := by
  refine getCPU.bind fun cpu => ite ?_ (writeXmmToOperand _ _)
  cases operand with
  | register register => exact modifyXmm _ _
  | memory decoded => exact storeXmmBytes decoded _ 0 _

theorem sseStoreQuadword (reg : Register) (operand : Operand) (offset : Nat) :
    KeepsReads (sseStoreQuadword reg operand offset) := by
  refine getCPU.bind fun cpu => ?_
  cases operand with
  | register register => exact storeXmmBytes {} _ offset 8
  | memory decoded => exact storeXmmBytes decoded _ offset 8

theorem sseConvertFormat (float : HostFloat) (prefixes : Prefixes) (reg : Register)
    (operand : Operand) : KeepsReads (sseConvertFormat float prefixes reg operand) := by
  refine ite ?_ (ite ?_ ?_)
  · exact (loadScalar float operand false).bind fun _ => modifyXmm _ _
  · exact (loadScalar float operand true).bind fun _ => modifyXmm _ _
  · exact (readXmmLow operand 16).bind fun _ => modifyXmm _ _

/-- The floating-point instructions but `CVTSI2SS` and `CVTSI2SD` load by plain reads. -/
theorem executeSseFloat (float : HostFloat) {opcode : U8} (hopcode : opcode ≠ 0x2a)
    (prefixes : Prefixes) : KeepsReads (executeSseFloat float opcode prefixes) := by
  refine (fetchModrm prefixes).bind fun modrm => (decodeRmOperand _ _).bind fun operand => ?_
  split
  -- a source, whole or in part, and a function of it
  any_goals exact (readXmmLow operand _).bind fun _ => modifyXmm _ _
  · exact sseLoad _ _ operand
  · exact sseStore _ _ operand
  · exact sseStoreQuadword _ operand 0
  · exact sseStoreQuadword _ operand 8
  · rename_i hbyte
    exact absurd (BitVec.eq_of_toNat_eq hbyte) hopcode
  · exact (loadScalar float operand _).bind fun _ => writeGpr _ _ _ _
  · exact (loadScalar float operand _).bind fun _ => writeGpr _ _ _ _
  · exact getCPU.bind fun _ => (loadScalar float operand _).bind fun _ => modifyCPU _
  · exact getCPU.bind fun _ => (loadScalar float operand _).bind fun _ => modifyCPU _
  · exact sseConvertFormat float prefixes _ operand
  · exact unsupported _

/-! ## Bit strings and saved state -/

/-- The word of a bit string is a plain read. -/
theorem executeBitString (opcode : U8) (prefixes : Prefixes) :
    KeepsReads (executeBitString opcode prefixes) := by
  refine (fetchModrm prefixes).bind fun modrm => (decodeRmOperand _ _).bind fun operand =>
    (readGpr _ _ _).bind fun offset => ?_
  cases operand with
  | register register =>
      exact (readGpr _ _ _).bind fun _ => (modifyCPU _).bind fun _ =>
        ite (writeOperand _ _ _ _) (pure _)
  | memory decoded =>
      exact (effectiveAddress decoded).bind fun _ => (readMMU _).bind fun _ =>
        (modifyCPU _).bind fun _ => ite
          (onMMU fun reads => SoftMMU.preserves_readObserver_writeInteger reads _ _ _) (pure _)

theorem fxsave (address : U64) : KeepsReads (fxsave address) := by
  refine getCPU.bind fun cpu => onMMU fun reads => ?_
  have hwrite := fun address value => SoftMMU.preserves_readObserver_write8WithShadow reads address
    ⟨value, 0⟩
  refine (Preserves.forOffsets (fun _ => hwrite _ _) _).bind fun _ => ?_
  refine (SoftMMU.preserves_readObserver_writeInteger reads _ _ 4).bind fun _ => ?_
  refine (SoftMMU.preserves_readObserver_writeInteger reads _ _ 4).bind fun _ => ?_
  exact Preserves.forOffsets (fun _ => hwrite _ _) _

theorem loadMxcsr (address : U64) : KeepsReads (loadMxcsr address) :=
  (readMMU _).bind fun _ => modifyCPU _

theorem fxrstor (address : U64) : KeepsReads (fxrstor address) :=
  (loadMxcsr _).bind fun _ => forOffsets (fun _ => forOffsets (fun _ => (readMMU _).bind fun _ =>
    modifyXmm _ _) 16) 16

theorem executeGroupAe (prefixes : Prefixes) : KeepsReads (executeGroupAe prefixes) := by
  refine (fetchModrm prefixes).bind fun modrm => ite (ite (pure _) (unsupported _)) ?_
  refine (decodeMemoryAddress _ _).bind fun decoded => (effectiveAddress decoded).bind
    fun address => ?_
  split
  · exact fxsave address
  · exact fxrstor address
  · exact getCPU.bind fun _ =>
      onMMU fun reads => SoftMMU.preserves_readObserver_writeInteger reads address _ 4
  · exact loadMxcsr address
  · exact unsupported _

/-! ## x87 instructions -/

section X87

variable (float : HostFloat)

theorem thenPop {store : EmulatorProgram Unit} (h : KeepsReads store) :
    KeepsReads (thenPop store) :=
  h.bind fun _ => modifyCPU _

theorem pushFrom {load : EmulatorProgram LongDouble} (h : KeepsReads load) :
    KeepsReads (pushFrom load) :=
  h.bind fun _ => modifyCPU _

theorem arithFrom (operation : Nat) {load : EmulatorProgram LongDouble} (h : KeepsReads load) :
    KeepsReads (arithFrom float operation load) :=
  h.bind fun _ => modifyCPU _

theorem readM32 (address : U64) : KeepsReads (readM32 float address) :=
  (readMMU _).bind fun _ => pure _

theorem readM64 (address : U64) : KeepsReads (readM64 float address) :=
  (readMMU _).bind fun _ => pure _

theorem readM80 (address : U64) : KeepsReads (readM80 address) :=
  (readMMU _).bind fun _ => pure _

theorem readMInt (address : U64) (bytes : Nat) : KeepsReads (readMInt float address bytes) :=
  (readMMU _).bind fun _ => pure _

theorem writeInteger (address value : U64) (count : Nat) :
    KeepsReads (LUE.onMMU (SoftMMU.writeInteger address value count)) :=
  onMMU fun reads => SoftMMU.preserves_readObserver_writeInteger reads address value count

theorem writeM80 (address : U64) (value : LongDouble) : KeepsReads (writeM80 address value) :=
  onMMU fun reads => Preserves.forOffsets
    (fun _ => SoftMMU.preserves_readObserver_write8WithShadow reads _ _) _

theorem storeInt (address : U64) (value : LongDouble) (bytes : Nat) (truncate : Bool) :
    KeepsReads (storeInt float address value bytes truncate) :=
  writeInteger address _ bytes

theorem executeX87Memory (opcode : U8) (operation : Nat) (address : U64) :
    KeepsReads (executeX87Memory float opcode operation address) := by
  refine getCPU.bind fun cpu => ?_
  dsimp only
  split
  · exact arithFrom float _ (readM32 float address)
  · exact arithFrom float _ (readM64 float address)
  · exact arithFrom float _ (readMInt float address 4)
  · exact arithFrom float _ (readMInt float address 2)
  · exact pushFrom (readM32 float address)
  · exact writeInteger address _ 4
  · exact thenPop (writeInteger address _ 4)
  · exact (readMMU _).bind fun _ => modifyCPU _
  · exact writeInteger address _ 2
  · exact unsupported _
  · exact pushFrom (readM64 float address)
  · exact writeInteger address _ 8
  · exact thenPop (writeInteger address _ 8)
  · exact writeInteger address _ 2
  · exact unsupported _
  · exact pushFrom (readMInt float address 4)
  · exact thenPop (storeInt float address _ 4 true)
  · exact storeInt float address _ 4 false
  · exact thenPop (storeInt float address _ 4 false)
  · exact pushFrom (readM80 address)
  · exact thenPop (writeM80 address _)
  · exact unsupported _
  · exact pushFrom (readMInt float address 2)
  · exact thenPop (storeInt float address _ 2 true)
  · exact storeInt float address _ 2 false
  · exact thenPop (storeInt float address _ 2 false)
  · exact pushFrom (readMInt float address 8)
  · exact thenPop (storeInt float address _ 8 false)
  · exact unsupported _
  · exact unsupported _

theorem fcmov (take : Bool) (sti : Nat) : KeepsReads (fcmov take sti) :=
  modifyCPU _

theorem executeDaRegister (rb : U8) (sti : Nat) : KeepsReads (executeDaRegister float rb sti) := by
  refine getCPU.bind fun cpu => ite (modifyCPU _) ?_
  split
  · exact fcmov _ sti
  · exact fcmov _ sti
  · exact fcmov _ sti
  · exact fcmov _ sti
  · exact unsupported _

theorem executeDbRegister (rb : U8) (sti : Nat) : KeepsReads (executeDbRegister float rb sti) := by
  refine getCPU.bind fun cpu => ite (modifyCPU _) (ite (modifyCPU _) ?_)
  split
  · exact fcmov _ sti
  · exact fcmov _ sti
  · exact fcmov _ sti
  · exact fcmov _ sti
  · exact modifyCPU _
  · exact modifyCPU _
  · exact unsupported _

theorem executeDdRegister (rb : U8) (sti : Nat) : KeepsReads (executeDdRegister float rb sti) := by
  unfold SoftCPU64.executeDdRegister
  split
  · exact modifyCPU _
  · exact modifyCPU _
  · exact modifyCPU _
  · exact modifyCPU _
  · exact modifyCPU _
  · exact unsupported _

theorem executeDfRegister (rb : U8) (sti : Nat) : KeepsReads (executeDfRegister float rb sti) := by
  refine ite (modifyCPU _) ?_
  split
  · exact modifyCPU _
  · exact modifyCPU _
  · exact unsupported _

theorem executeX87Register (opcode rb : U8) : KeepsReads (executeX87Register float opcode rb) := by
  refine getCPU.bind fun cpu => ?_
  split
  · exact modifyCPU _
  · split
    · exact modifyCPU _
    · exact unsupported _
  · refine ite (modifyCPU _) ?_
    split
    · exact modifyCPU _
    · exact unsupported _
  · split
    · exact modifyCPU _
    · exact modifyCPU _
    · split
      · exact modifyCPU _
      · exact unsupported _
  · exact executeDaRegister float rb _
  · exact executeDbRegister float rb _
  · exact executeDdRegister float rb _
  · exact executeDfRegister float rb _
  · exact unsupported _

/-- The x87 instructions load by plain reads. -/
theorem executeX87 (opcode : U8) (prefixes : Prefixes) :
    KeepsReads (executeX87 float opcode prefixes) := by
  refine (fetchModrm prefixes).bind fun modrm => (decodeRmOperand _ _).bind fun operand => ?_
  cases operand with
  | register register => exact executeX87Register float opcode _
  | memory decoded =>
      exact (effectiveAddress decoded).bind fun _ => executeX87Memory float opcode _ _

end X87

end KeepsReads

end SoftCPU64

end LUE
