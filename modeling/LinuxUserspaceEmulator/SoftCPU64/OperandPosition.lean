import LinuxUserspaceEmulator.SoftCPU64.Immediates
import LinuxUserspaceEmulator.SoftCPU64.OperandForms

/-!
# Where an instruction resolves its operand

A RIP-relative operand is resolved anew at every access, relative to the position of the
decoder.  Two runs are compared: one with the relative operand, one with the address that the
operand names at the end of the instruction.  They are the same as long as the instruction
has fetched all its bytes when it comes to its operand.

Main results:

- Theorem `SameAt.bind`: how two programs are compared step by step.
- Theorem `OperandRest.sameAt`: all but four opcodes resolve their operand at the end of the
  instruction.
-/

namespace LUE

open StateExcept

namespace SoftCPU64

/-! ## Programs that do the same at a position -/

/-- From a state whose decoder is at the position, the two programs do the same. -/
def SameAt {α : Type} (pc : U64) (x y : EmulatorProgram α) : Prop :=
  ∀ emulator : Emulator, emulator.cpu.decodePc = pc → x emulator = y emulator

/-- The first operand is relative, and at the position it names what the second names. -/
def ResolvesTo (pc : U64) (operand operand' : Operand) : Prop :=
  ∃ address disp, operand = .memory ⟨address, true, disp⟩ ∧
    operand' = .memory ⟨pc + disp, false, 0⟩

variable {α β : Type} {pc : U64} {operand operand' : Operand}

namespace SameAt

variable {x y : EmulatorProgram α} {f g : α → EmulatorProgram β}

theorem refl (x : EmulatorProgram α) : SameAt pc x x :=
  fun _ _ => rfl

/-- Two sequences whose first programs do the same and leave the decoder in place. -/
theorem bind (hx : SameAt pc x y) (hkeeps : KeepsPosition y) (hf : ∀ a, SameAt pc (f a) (g a)) :
    SameAt pc (x >>= f) (y >>= g) := by
  intro emulator hpc
  have hsame := hx emulator hpc
  cases hy : y emulator with
  | ok a after =>
      rw [bind_of_ok (hsame.trans hy), bind_of_ok hy]
      exact hf a after ((hkeeps.eq_of_ok hy).trans hpc)
  | error e after => rw [bind_of_error (hsame.trans hy), bind_of_error hy]

/-- What comes after the last use of the operand is of no concern. -/
theorem bind_left (hx : SameAt pc x y) (f : α → EmulatorProgram β) :
    SameAt pc (x >>= f) (y >>= f) := by
  intro emulator hpc
  exact bind_congr_outcome (hx emulator hpc) f

/-- Neither is what comes before its first use, as long as the decoder stays in place. -/
theorem after (hkeeps : KeepsPosition x) (hf : ∀ a, SameAt pc (f a) (g a)) :
    SameAt pc (x >>= f) (x >>= g) :=
  (refl x).bind hkeeps hf

theorem ite {c : Prop} [Decidable c] {x y x' y' : EmulatorProgram α} (hx : c → SameAt pc x x')
    (hy : ¬c → SameAt pc y y') : SameAt pc (if c then x else y) (if c then x' else y') := by
  split <;> rename_i h
  · exact hx h
  · exact hy h

/-- A fetch moves the decoder. -/
theorem fetchInteger (count : Nat) {f g : U64 → EmulatorProgram β}
    (hf : ∀ value, SameAt (pc + BitVec.ofNat 64 count) (f value) (g value)) :
    SameAt pc (fetchInteger count >>= f) (fetchInteger count >>= g) := by
  intro emulator hpc
  cases hfetch : SoftCPU64.fetchInteger count emulator with
  | ok value after =>
      have hmoved := fetchInteger_eq_ok hfetch
      rw [bind_of_ok hfetch, bind_of_ok hfetch]
      refine hf value after ?_
      rw [hmoved, ← hpc]
      rfl
  | error e after => rw [bind_of_error hfetch, bind_of_error hfetch]

theorem fetch8 {f g : U8 → EmulatorProgram β} (hf : ∀ value, SameAt (pc + 1) (f value) (g value)) :
    SameAt pc (fetch8 >>= f) (fetch8 >>= g) := by
  intro emulator hpc
  cases hfetch : SoftCPU64.fetch8 emulator with
  | ok value after =>
      have hmoved := fetch8_eq_ok hfetch
      rw [bind_of_ok hfetch, bind_of_ok hfetch]
      refine hf value after ?_
      rw [hmoved, ← hpc]
      rfl
  | error e after => rw [bind_of_error hfetch, bind_of_error hfetch]

end SameAt

/-! ## Accesses -/

section Accesses

variable (h : ResolvesTo pc operand operand')
include h

omit h in
theorem sameAt_effectiveAddress (address disp : U64) :
    SameAt pc (effectiveAddress ⟨address, true, disp⟩)
      (effectiveAddress ⟨pc + disp, false, 0⟩) := by
  rintro emulator rfl
  rfl

theorem sameAt_readOperand (width : Width) (prefixes : Prefixes) :
    SameAt pc (readOperand operand width prefixes) (readOperand operand' width prefixes) := by
  rcases h with ⟨address, disp, rfl, rfl⟩
  exact (sameAt_effectiveAddress address disp).bind_left _

theorem sameAt_writeOperand (width : Width) (value : U64) (prefixes : Prefixes) :
    SameAt pc (writeOperand operand width value prefixes)
      (writeOperand operand' width value prefixes) := by
  rcases h with ⟨address, disp, rfl, rfl⟩
  exact (sameAt_effectiveAddress address disp).bind_left _

theorem sameAt_readXmmLow (count : Nat) :
    SameAt pc (readXmmLow operand count) (readXmmLow operand' count) := by
  rcases h with ⟨address, disp, rfl, rfl⟩
  exact (sameAt_effectiveAddress address disp).bind_left _

theorem sameAt_loadScalar (float : HostFloat) (isDouble : Bool) :
    SameAt pc (loadScalar float operand isDouble) (loadScalar float operand' isDouble) := by
  rcases h with ⟨address, disp, rfl, rfl⟩
  exact (sameAt_effectiveAddress address disp).bind_left _

omit h in
theorem sameAt_storeXmmBytes (address disp : U64) (value : Xmm) (offset count : Nat) :
    SameAt pc (storeXmmBytes ⟨address, true, disp⟩ value offset count)
      (storeXmmBytes ⟨pc + disp, false, 0⟩ value offset count) :=
  (sameAt_effectiveAddress address disp).bind_left _

theorem sameAt_writeXmmToOperand (value : Xmm) :
    SameAt pc (writeXmmToOperand operand value) (writeXmmToOperand operand' value) := by
  rcases h with ⟨address, disp, rfl, rfl⟩
  exact sameAt_storeXmmBytes address disp value 0 16

/-- An operation on the operand with its result written back. -/
theorem sameAt_executeOperation (operation : Nat) (lhs rhs : U64) (width : Width) (mask : U64)
    (prefixes : Prefixes) :
    SameAt pc
      (executeOperation operation lhs rhs width mask fun result =>
        writeOperand operand width result prefixes)
      (executeOperation operation lhs rhs width mask fun result =>
        writeOperand operand' width result prefixes) := by
  have hwrite := fun result => sameAt_writeOperand h width result prefixes
  unfold executeOperation
  split
  · exact SameAt.after (keepsPosition_add lhs rhs width false) hwrite
  · exact SameAt.after (keepsPosition_setLogicFlags _ width) fun _ => hwrite _
  · exact SameAt.after (keepsPosition_add lhs rhs width true) hwrite
  · exact SameAt.after (keepsPosition_sub lhs rhs width true) hwrite
  · exact SameAt.after (keepsPosition_setLogicFlags _ width) fun _ => hwrite _
  · exact SameAt.after (keepsPosition_sub lhs rhs width false) hwrite
  · exact SameAt.after (keepsPosition_setLogicFlags _ width) fun _ => hwrite _
  · exact SameAt.refl _
  · exact SameAt.refl _

end Accesses

/-! ## Instructions -/

section Instructions

variable (h : ResolvesTo pc operand operand') (host : Host) (opcode : U8) (prefixes : Prefixes)
  (modrm : ModRM)
include h

theorem sameAt_aluRmReg : SameAt pc ((aluRmRegForm opcode prefixes).rest modrm operand)
    ((aluRmRegForm opcode prefixes).rest modrm operand') := by
  have hread := fun width => sameAt_readOperand h width prefixes
  have hregister : ∀ width, KeepsPosition (readOperand (.register modrm.reg) width prefixes) :=
    fun width => keepsPosition_readOperand _ width prefixes
  have hne : ∀ p : Prop, ¬(operand = .register modrm.reg ∧ p) := by
    rcases h with ⟨address, disp, rfl, rfl⟩
    rintro p ⟨hsame, -⟩
    cases hsame
  have hne' : ∀ p : Prop, ¬(operand' = .register modrm.reg ∧ p) := by
    rcases h with ⟨address, disp, rfl, rfl⟩
    rintro p ⟨hsame, -⟩
    cases hsame
  simp only [aluRmRegForm, OperandForm.ofSequence, if_neg (hne _), if_neg (hne' _)]
  by_cases hform : (opcode &&& 7).toNat = 2 ∨ (opcode &&& 7).toNat = 3
  · simp only [if_pos hform]
    exact SameAt.after (hregister _) fun _ => (hread _).bind_left _
  · simp only [if_neg hform]
    exact (hread _).bind (keepsPosition_readOperand _ _ _) fun _ =>
      SameAt.after (hregister _) fun _ => sameAt_executeOperation h _ _ _ _ _ _

theorem sameAt_movsxd : SameAt pc ((movsxdForm prefixes).rest modrm operand)
    ((movsxdForm prefixes).rest modrm operand') :=
  (sameAt_readOperand h _ _).bind_left _

theorem sameAt_test : SameAt pc ((testForm opcode prefixes).rest modrm operand)
    ((testForm opcode prefixes).rest modrm operand') :=
  (sameAt_readOperand h _ _).bind_left _

theorem sameAt_xchg : SameAt pc ((xchgForm prefixes).rest modrm operand)
    ((xchgForm prefixes).rest modrm operand') :=
  (sameAt_readOperand h _ _).bind (keepsPosition_readOperand _ _ _) fun _ =>
    SameAt.after (keepsPosition_readGpr _ _ _) fun _ =>
      (sameAt_writeOperand h _ _ _).bind_left _

theorem sameAt_movStore : SameAt pc ((movStoreForm opcode prefixes).rest modrm operand)
    ((movStoreForm opcode prefixes).rest modrm operand') :=
  SameAt.after (keepsPosition_readGpr _ _ _) fun _ => sameAt_writeOperand h _ _ _

theorem sameAt_movLoad : SameAt pc ((movLoadForm opcode prefixes).rest modrm operand)
    ((movLoadForm opcode prefixes).rest modrm operand') :=
  (sameAt_readOperand h _ _).bind_left _

theorem sameAt_popOperand : SameAt pc ((popOperandForm prefixes).rest modrm operand)
    ((popOperandForm prefixes).rest modrm operand') := by
  refine SameAt.after keepsPosition_pop64WithShadow fun value =>
    SameAt.ite (fun _ => ?_) fun _ => ?_
  · exact SameAt.after (KeepsPosition.modifyCPU fun _ => rfl) fun _ => sameAt_writeOperand h _ _ _
  · exact sameAt_writeOperand h _ _ _

theorem sameAt_x87 : SameAt pc ((x87Form host opcode prefixes).rest modrm operand)
    ((x87Form host opcode prefixes).rest modrm operand') := by
  rcases h with ⟨address, disp, rfl, rfl⟩
  exact (sameAt_effectiveAddress address disp).bind_left _

theorem sameAt_groupFf : SameAt pc ((groupFfForm prefixes).rest modrm operand)
    ((groupFfForm prefixes).rest modrm operand') := by
  have hread := fun width => sameAt_readOperand h width prefixes
  have hkeeps := fun width => keepsPosition_readOperand operand' width prefixes
  have hadjust : ∀ value, SameAt pc
      (do
        let cpu ← getCPU
        let result ← onCPU fun cpu =>
          if modrm.operation = 0 then cpu.add value 1 (operandWidth prefixes) false
          else cpu.sub value 1 (operandWidth prefixes) false
        modifyCPU fun after => after.setFlag CF (cpu.flag CF)
        writeOperand operand (operandWidth prefixes) result prefixes)
      (do
        let cpu ← getCPU
        let result ← onCPU fun cpu =>
          if modrm.operation = 0 then cpu.add value 1 (operandWidth prefixes) false
          else cpu.sub value 1 (operandWidth prefixes) false
        modifyCPU fun after => after.setFlag CF (cpu.flag CF)
        writeOperand operand' (operandWidth prefixes) result prefixes) := by
    intro value
    refine SameAt.after KeepsPosition.getCPU fun cpu => SameAt.after ?_ fun result =>
      SameAt.after (KeepsPosition.modifyCPU fun _ => rfl) fun _ => sameAt_writeOperand h _ _ _
    refine KeepsPosition.onCPU fun cpu => ?_
    split
    · exact decodePc_add cpu value 1 _ false
    · exact decodePc_sub cpu value 1 _ false
  simp only [groupFfForm, OperandForm.ofSequence]
  split
  · exact (hread _).bind (hkeeps _) hadjust
  · exact (hread _).bind (hkeeps _) hadjust
  · exact (hread _).bind_left _
  · exact (hread _).bind_left _
  · exact (hread _).bind_left _
  · exact SameAt.refl _

theorem sameAt_setcc : SameAt pc ((setccForm opcode prefixes).rest modrm operand)
    ((setccForm opcode prefixes).rest modrm operand') :=
  SameAt.after keepsPosition_taintFromFlags fun _ => SameAt.after KeepsPosition.getCPU fun _ =>
    sameAt_writeOperand h _ _ _

theorem sameAt_cmovcc : SameAt pc ((cmovccForm opcode prefixes).rest modrm operand)
    ((cmovccForm opcode prefixes).rest modrm operand') :=
  SameAt.after keepsPosition_taintFromFlags fun _ => SameAt.after KeepsPosition.getCPU fun _ =>
    SameAt.ite (fun _ => (sameAt_readOperand h _ _).bind_left _) fun _ => SameAt.refl _

theorem sameAt_bitString : SameAt pc ((bitStringForm opcode prefixes).rest modrm operand)
    ((bitStringForm opcode prefixes).rest modrm operand') := by
  rcases h with ⟨address, disp, rfl, rfl⟩
  exact SameAt.after (keepsPosition_readGpr _ _ _) fun _ =>
    (sameAt_effectiveAddress address disp).bind_left _

theorem sameAt_groupAe : SameAt pc ((groupAeForm prefixes).rest modrm operand)
    ((groupAeForm prefixes).rest modrm operand') := by
  rcases h with ⟨address, disp, rfl, rfl⟩
  exact (sameAt_effectiveAddress address disp).bind_left _

theorem sameAt_imulRegister : SameAt pc ((imulRegisterForm prefixes).rest modrm operand)
    ((imulRegisterForm prefixes).rest modrm operand') :=
  SameAt.after (keepsPosition_readGpr _ _ _) fun _ => (sameAt_readOperand h _ _).bind_left _

theorem sameAt_cmpxchg : SameAt pc ((cmpxchgForm opcode prefixes).rest modrm operand)
    ((cmpxchgForm opcode prefixes).rest modrm operand') := by
  refine (sameAt_readOperand h _ _).bind (keepsPosition_readOperand _ _ _) fun _ =>
    SameAt.after (keepsPosition_readGpr _ _ _) fun _ => SameAt.ite (fun _ => ?_) fun _ =>
      SameAt.refl _
  exact SameAt.after (keepsPosition_readGpr _ _ _) fun _ =>
    (sameAt_writeOperand h _ _ _).bind_left _

theorem sameAt_extend : SameAt pc ((extendForm opcode prefixes).rest modrm operand)
    ((extendForm opcode prefixes).rest modrm operand') :=
  (sameAt_readOperand h _ _).bind_left _

theorem sameAt_bitScan : SameAt pc ((bitScanForm opcode prefixes).rest modrm operand)
    ((bitScanForm opcode prefixes).rest modrm operand') :=
  (sameAt_readOperand h _ _).bind_left _

theorem sameAt_xadd : SameAt pc ((xaddForm opcode prefixes).rest modrm operand)
    ((xaddForm opcode prefixes).rest modrm operand') :=
  (sameAt_readOperand h _ _).bind (keepsPosition_readOperand _ _ _) fun _ =>
    SameAt.after (keepsPosition_readGpr _ _ _) fun _ =>
      SameAt.after (keepsPosition_add _ _ _ _) fun _ =>
        SameAt.after (keepsPosition_writeGpr _ _ _ _) fun _ => sameAt_writeOperand h _ _ _

theorem sameAt_movnti : SameAt pc ((movntiForm prefixes).rest modrm operand)
    ((movntiForm prefixes).rest modrm operand') :=
  SameAt.after (keepsPosition_readGpr _ _ _) fun _ => sameAt_writeOperand h _ _ _

theorem sameAt_packed (f : Xmm → Xmm → Xmm) :
    SameAt pc ((packedForm prefixes f).rest modrm operand)
      ((packedForm prefixes f).rest modrm operand') :=
  (sameAt_readXmmLow h 16).bind_left _

theorem sameAt_storeXmm : SameAt pc ((storeXmmForm prefixes).rest modrm operand)
    ((storeXmmForm prefixes).rest modrm operand') :=
  SameAt.after KeepsPosition.getCPU fun _ => sameAt_writeXmmToOperand h _

theorem sameAt_loadXmm : SameAt pc ((loadXmmForm prefixes).rest modrm operand)
    ((loadXmmForm prefixes).rest modrm operand') :=
  (sameAt_readOperand h _ _).bind_left _

theorem sameAt_movq : SameAt pc ((movqForm prefixes).rest modrm operand)
    ((movqForm prefixes).rest modrm operand') :=
  SameAt.ite (fun _ => (sameAt_readOperand h _ _).bind_left _) fun _ =>
    SameAt.after KeepsPosition.getCPU fun _ => sameAt_writeOperand h _ _ _

theorem sameAt_storeLow : SameAt pc ((storeLowForm prefixes).rest modrm operand)
    ((storeLowForm prefixes).rest modrm operand') :=
  SameAt.after KeepsPosition.getCPU fun _ => sameAt_writeOperand h _ _ _

theorem sameAt_pmovmskb : SameAt pc ((pmovmskbForm prefixes).rest modrm operand)
    ((pmovmskbForm prefixes).rest modrm operand') :=
  (sameAt_readXmmLow h 16).bind_left _

theorem sameAt_groupF6F7 (hoperation : modrm.operation ≠ 0) :
    SameAt pc ((groupF6F7Form opcode prefixes).rest modrm operand)
      ((groupF6F7Form opcode prefixes).rest modrm operand') := by
  have hread := fun width => sameAt_readOperand h width prefixes
  have hkeeps := fun width => keepsPosition_readOperand operand' width prefixes
  simp only [groupF6F7Form, OperandForm.ofSequence]
  split
  · contradiction
  · exact (hread _).bind (hkeeps _) fun _ => sameAt_writeOperand h _ _ _
  · exact (hread _).bind (hkeeps _) fun _ =>
      SameAt.after (keepsPosition_sub _ _ _ _) fun _ => sameAt_writeOperand h _ _ _
  · exact (hread _).bind_left _
  · exact (hread _).bind_left _
  · exact (hread _).bind_left _
  · exact (hread _).bind_left _
  · exact SameAt.refl _

theorem sameAt_sseFloat : SameAt pc ((sseFloatForm host opcode prefixes).rest modrm operand)
    ((sseFloatForm host opcode prefixes).rest modrm operand') := by
  have hload := fun count => sameAt_readXmmLow h count
  have hscalar := fun isDouble => sameAt_loadScalar h host.float isDouble
  have hregister : operand.isRegister = operand'.isRegister := by
    rcases h with ⟨address, disp, rfl, rfl⟩
    rfl
  simp only [sseFloatForm, OperandForm.ofSequence]
  split
  · refine SameAt.ite (fun _ => ?_) fun _ => ?_
    · rw [hregister]
      exact (hload _).bind_left _
    · exact (hload 16).bind_left _
  · refine SameAt.after KeepsPosition.getCPU fun cpu => SameAt.ite (fun _ => ?_) fun _ => ?_
    · rcases h with ⟨address, disp, rfl, rfl⟩
      exact sameAt_storeXmmBytes address disp _ _ _
    · exact sameAt_writeXmmToOperand h _
  · simp only [sseLoadLow, hregister]
    exact (hload 8).bind_left _
  · rcases h with ⟨address, disp, rfl, rfl⟩
    exact SameAt.after KeepsPosition.getCPU fun cpu => sameAt_storeXmmBytes address disp _ _ _
  · exact (hload 16).bind_left _
  · exact (hload 16).bind_left _
  · exact (hload 8).bind_left _
  · rcases h with ⟨address, disp, rfl, rfl⟩
    exact SameAt.after KeepsPosition.getCPU fun cpu => sameAt_storeXmmBytes address disp _ _ _
  · exact (sameAt_readOperand h _ _).bind_left _
  · exact (hscalar _).bind_left _
  · exact (hscalar _).bind_left _
  · exact SameAt.after KeepsPosition.getCPU fun cpu => (hscalar _).bind_left _
  · exact SameAt.after KeepsPosition.getCPU fun cpu => (hscalar _).bind_left _
  · exact (hload 16).bind_left _
  · exact (hload 16).bind_left _
  · exact (hload 16).bind_left _
  · exact (hload _).bind_left _
  · exact (hload _).bind_left _
  · exact (hload _).bind_left _
  · exact (hload _).bind_left _
  · exact (hload _).bind_left _
  · exact (hload _).bind_left _
  · exact (hload _).bind_left _
  · exact SameAt.ite (fun _ => (hscalar false).bind_left _) fun _ =>
      SameAt.ite (fun _ => (hscalar true).bind_left _) fun _ => (hload 16).bind_left _
  · exact (hload 16).bind_left _
  · exact (hload 16).bind_left _
  · exact SameAt.refl _

/-- A double shift by `CL`. -/
theorem sameAt_doubleShift (hcount : ¬(opcode = 0xa4 ∨ opcode = 0xac)) :
    SameAt pc ((doubleShiftForm opcode prefixes).rest modrm operand)
      ((doubleShiftForm opcode prefixes).rest modrm operand') := by
  simp only [doubleShiftForm, OperandForm.ofSequence, if_neg hcount]
  refine (sameAt_readOperand h _ _).bind (keepsPosition_readOperand _ _ _) fun _ =>
    SameAt.after (keepsPosition_readGpr _ _ _) fun _ =>
      SameAt.after (keepsPosition_readGpr _ _ _) fun _ => ?_
  exact SameAt.ite (fun _ => (sameAt_writeOperand h _ _ _).bind_left _) fun _ => SameAt.refl _

/-- A shift once its count is known. -/
theorem sameAt_shift (operation count : Nat) (width : Width) :
    SameAt pc
      (if count ≠ 0 then do
        let value ← readOperand operand width prefixes
        let result ← shiftResult operation value count width
        modifyCPU fun cpu => cpu.setLogicFlags result width
        writeOperand operand width result prefixes
      else pure ())
      (if count ≠ 0 then do
        let value ← readOperand operand' width prefixes
        let result ← shiftResult operation value count width
        modifyCPU fun cpu => cpu.setLogicFlags result width
        writeOperand operand' width result prefixes
      else pure ()) :=
  SameAt.ite (fun _ => (sameAt_readOperand h _ _).bind (keepsPosition_readOperand _ _ _) fun _ =>
    SameAt.after (keepsPosition_shiftResult _ _ _ _) fun _ =>
      SameAt.after (keepsPosition_setLogicFlags _ _) fun _ => sameAt_writeOperand h _ _ _)
    fun _ => SameAt.refl _

/-- A shift by one or by `CL`. -/
theorem sameAt_shiftGroup (hcount : ¬(opcode = 0xc0 ∨ opcode = 0xc1)) :
    SameAt pc ((shiftGroupForm opcode prefixes).rest modrm operand)
      ((shiftGroupForm opcode prefixes).rest modrm operand') := by
  simp only [shiftGroupForm, OperandForm.ofSequence, if_neg hcount, pure_bind]
  exact SameAt.ite (fun _ => sameAt_shift h prefixes _ _ _) fun _ =>
    SameAt.after KeepsPosition.getCPU fun _ => sameAt_shift h prefixes _ _ _

end Instructions

/-- `LEA` takes the address itself, as it is after the displacement. -/
theorem sameAt_lea (disp : U64) (prefixes : Prefixes) (modrm : ModRM) :
    SameAt pc ((leaForm prefixes).rest modrm (.memory ⟨pc + disp, true, disp⟩))
      ((leaForm prefixes).rest modrm (.memory ⟨pc + disp, false, 0⟩)) :=
  SameAt.refl _

/-! ### Operands before an immediate -/

/-- An immediate of the operand width moves the decoder by its bytes. -/
theorem SameAt.fetchImmediate (width : Width) {f g : U64 → EmulatorProgram β}
    (hf : ∀ value, SameAt (pc + BitVec.ofNat 64 (immediateBytes width)) (f value) (g value)) :
    SameAt pc (fetchImmediate width >>= f) (fetchImmediate width >>= g) := by
  cases width with
  | w8 =>
      simp only [SoftCPU64.fetchImmediate, bind_assoc, pure_bind]
      exact SameAt.fetch8 fun value => hf _
  | w16 => exact SameAt.fetchInteger 2 hf
  | w32 =>
      simp only [SoftCPU64.fetchImmediate, fetch32, bind_assoc, pure_bind]
      exact SameAt.fetchInteger 4 fun value => hf _
  | w64 =>
      simp only [SoftCPU64.fetchImmediate, fetch32, bind_assoc, pure_bind]
      exact SameAt.fetchInteger 4 fun value => hf _

section ByteImmediates

variable (h : ResolvesTo (pc + 1) operand operand') (opcode : U8) (prefixes : Prefixes)
  (modrm : ModRM)
include h

theorem sameAt_shiftGroup_byte (hcount : opcode = 0xc0 ∨ opcode = 0xc1) :
    SameAt pc ((shiftGroupForm opcode prefixes).rest modrm operand)
      ((shiftGroupForm opcode prefixes).rest modrm operand') := by
  simp only [shiftGroupForm, OperandForm.ofSequence, if_pos hcount, pure_bind]
  exact SameAt.fetch8 fun _ => sameAt_shift h prefixes _ _ _

theorem sameAt_groupBa : SameAt pc ((groupBaForm prefixes).rest modrm operand)
    ((groupBaForm prefixes).rest modrm operand') := by
  refine SameAt.fetch8 fun _ => (sameAt_readOperand h _ _).bind (keepsPosition_readOperand _ _ _)
    fun _ => SameAt.after (KeepsPosition.modifyCPU fun _ => rfl) fun _ => ?_
  exact SameAt.ite (fun _ => sameAt_writeOperand h _ _ _) fun _ => SameAt.refl _

theorem sameAt_selected (f : U8 → Xmm → Xmm → Xmm) :
    SameAt pc ((selectedForm prefixes f).rest modrm operand)
      ((selectedForm prefixes f).rest modrm operand') :=
  SameAt.fetch8 fun _ => (sameAt_readXmmLow h 16).bind_left _

theorem sameAt_byteShift : SameAt pc ((byteShiftForm prefixes).rest modrm operand)
    ((byteShiftForm prefixes).rest modrm operand') := by
  rcases h with ⟨address, disp, rfl, rfl⟩
  exact SameAt.fetch8 fun _ => SameAt.refl _

/-- The sign-extended byte of `83`. -/
theorem sameAt_aluImm_byte (hopcode : opcode = 0x83) :
    SameAt pc ((aluImmForm opcode prefixes).rest modrm operand)
      ((aluImmForm opcode prefixes).rest modrm operand') := by
  simp only [aluImmForm, OperandForm.ofSequence, if_pos hopcode, pure_bind]
  exact SameAt.fetch8 fun _ => (sameAt_readOperand h _ _).bind (keepsPosition_readOperand _ _ _)
    fun _ => sameAt_executeOperation h _ _ _ _ _ _

/-- `TEST` of a byte. -/
theorem sameAt_groupF6_test (hopcode : opcode = 0xf6) (hoperation : modrm.operation = 0) :
    SameAt pc ((groupF6F7Form opcode prefixes).rest modrm operand)
      ((groupF6F7Form opcode prefixes).rest modrm operand') := by
  simp only [groupF6F7Form, OperandForm.ofSequence, hoperation, if_pos hopcode, if_true, pure_bind]
  exact SameAt.fetch8 fun _ => (sameAt_readOperand h _ _).bind_left _

end ByteImmediates

section FullImmediates

variable (opcode : U8) (prefixes : Prefixes) (modrm : ModRM)

theorem sameAt_aluImm (hopcode : opcode ≠ 0x83)
    (h : ResolvesTo (pc + BitVec.ofNat 64 (immediateBytes
      (if opcode = 0x80 then .w8 else operandWidth prefixes))) operand operand') :
    SameAt pc ((aluImmForm opcode prefixes).rest modrm operand)
      ((aluImmForm opcode prefixes).rest modrm operand') := by
  simp only [aluImmForm, OperandForm.ofSequence, if_neg hopcode]
  exact SameAt.fetchImmediate _ fun _ =>
    (sameAt_readOperand h _ _).bind (keepsPosition_readOperand _ _ _) fun _ =>
      sameAt_executeOperation h _ _ _ _ _ _

theorem sameAt_movOperandImmediate
    (h : ResolvesTo (pc + BitVec.ofNat 64 (immediateBytes
      (if opcode = 0xc6 then .w8 else operandWidth prefixes))) operand operand') :
    SameAt pc ((movOperandImmediateForm opcode prefixes).rest modrm operand)
      ((movOperandImmediateForm opcode prefixes).rest modrm operand') :=
  SameAt.fetchImmediate _ fun _ => sameAt_writeOperand h _ _ _

theorem sameAt_groupF7_test (hopcode : opcode ≠ 0xf6) (hoperation : modrm.operation = 0)
    (h : ResolvesTo (pc + BitVec.ofNat 64 (immediateBytes (operandWidth prefixes))) operand
      operand') :
    SameAt pc ((groupF6F7Form opcode prefixes).rest modrm operand)
      ((groupF6F7Form opcode prefixes).rest modrm operand') := by
  have hbyte := operandWidth_ne_w8 prefixes
  have hcount : (if operandWidth prefixes = .w16 then 2 else 4) =
      immediateBytes (operandWidth prefixes) := by
    cases hwidth : operandWidth prefixes <;> first | rfl | contradiction
  simp only [groupF6F7Form, OperandForm.ofSequence, hoperation, if_neg hopcode, if_neg hbyte,
    hcount]
  exact SameAt.fetchInteger _ fun _ => (sameAt_readOperand h _ _).bind_left _

end FullImmediates

/-! ## All instructions -/

/-- How many bytes an instruction has after its operand. -/
def Opcode.trailingBytes (prefixes : Prefixes) (modrm : ModRM) : Opcode → Nat
  | oneByte byte =>
      if byte ∈ ([0x6b, 0x80, 0x83, 0xc0, 0xc1, 0xc6] : List U8) then 1
      else if byte ∈ ([0x69, 0x81, 0xc7] : List U8) then immediateBytes (operandWidth prefixes)
      else if modrm.operation ≠ 0 then 0
      else if byte = 0xf6 then 1
      else if byte = 0xf7 then immediateBytes (operandWidth prefixes)
      else 0
  | twoByte byte => if byte ∈ selectorOpcodes then 1 else 0

/-- The opcodes that read their operand before they fetch their immediate: `IMUL` with an
immediate, and the double shifts with one. -/
def Opcode.ReadsEarly : Opcode → Bool
  | oneByte byte => byte = 0x69 ∨ byte = 0x6b
  | twoByte byte => byte = 0xa4 ∨ byte = 0xac

variable {host : Host} {prefixes : Prefixes} {opcode : Opcode} {modrm : ModRM} {byte : U8}
  {rest : ModRM → Operand → EmulatorProgram Unit}

theorem trailingBytes_oneByte
    (h : byte ∉ ([0x6b, 0x80, 0x83, 0xc0, 0xc1, 0xc6, 0x69, 0x81, 0xc7, 0xf6, 0xf7] : List U8)) :
    (Opcode.oneByte byte).trailingBytes prefixes modrm = 0 := by
  simp only [List.mem_cons, List.not_mem_nil, or_false, not_or] at h
  simp only [Opcode.trailingBytes, List.mem_cons, List.not_mem_nil, or_false, h, if_false,
    ite_self]

theorem trailingBytes_twoByte (h : byte ∉ selectorOpcodes) :
    (Opcode.twoByte byte).trailingBytes prefixes modrm = 0 :=
  if_neg h

/-- Only the four resolve their operand before the end of the instruction. -/
theorem OperandRest.sameAt (h : OperandRest host prefixes opcode rest)
    (hearly : opcode.ReadsEarly = false) (disp : U64) :
    SameAt pc (rest modrm (.memory ⟨pc + disp, true, disp⟩))
      (rest modrm (.memory
        ⟨pc + BitVec.ofNat 64 (opcode.trailingBytes prefixes modrm) + disp, false, 0⟩)) := by
  generalize hcount : opcode.trailingBytes prefixes modrm = count
  have hend : ResolvesTo (pc + BitVec.ofNat 64 count) (.memory ⟨pc + disp, true, disp⟩)
      (.memory ⟨pc + BitVec.ofNat 64 count + disp, false, 0⟩) :=
    ⟨_, disp, rfl, rfl⟩
  -- the operand where the instruction has fetched all its bytes, none or one after the operand
  have hnone : opcode.trailingBytes prefixes modrm = 0 →
      ResolvesTo pc (.memory ⟨pc + disp, true, disp⟩)
        (.memory ⟨pc + BitVec.ofNat 64 count + disp, false, 0⟩) := by
    intro hzero
    rw [hzero] at hcount
    subst hcount
    exact ⟨_, disp, rfl, by rw [BitVec.add_zero]⟩
  have hone : opcode.trailingBytes prefixes modrm = 1 →
      ResolvesTo (pc + 1) (.memory ⟨pc + disp, true, disp⟩)
        (.memory ⟨pc + BitVec.ofNat 64 count + disp, false, 0⟩) := by
    intro hone
    rw [hone] at hcount
    subst hcount
    exact hend
  cases h with
  | aluRmReg h =>
      refine sameAt_aluRmReg (hnone (trailingBytes_oneByte fun hmem => ?_)) _ prefixes modrm
      fin_cases hmem <;> revert h <;> decide
  | movsxd => exact sameAt_movsxd (hnone (trailingBytes_oneByte (by decide))) prefixes modrm
  | imulImmediate h => rcases h with rfl | rfl <;> cases hearly
  | @aluImm byte h =>
      by_cases hbyte : byte = 0x83
      · subst hbyte
        exact sameAt_aluImm_byte (hone rfl) _ prefixes modrm rfl
      · refine sameAt_aluImm _ prefixes modrm hbyte ?_
        have hwidth : count = immediateBytes
            (if byte = 0x80 then .w8 else operandWidth prefixes) := by
          rw [← hcount]
          rcases h with rfl | rfl | rfl
          exacts [rfl, rfl, absurd rfl hbyte]
        rwa [← hwidth]
  | test h =>
      rcases h with rfl | rfl <;>
        exact sameAt_test (hnone (trailingBytes_oneByte (by decide))) _ prefixes modrm
  | xchg => exact sameAt_xchg (hnone (trailingBytes_oneByte (by decide))) prefixes modrm
  | movStore h =>
      rcases h with rfl | rfl <;>
        exact sameAt_movStore (hnone (trailingBytes_oneByte (by decide))) _ prefixes modrm
  | movLoad h =>
      rcases h with rfl | rfl <;>
        exact sameAt_movLoad (hnone (trailingBytes_oneByte (by decide))) _ prefixes modrm
  | lea =>
      rw [trailingBytes_oneByte (by decide)] at hcount
      subst hcount
      rw [BitVec.add_zero]
      exact sameAt_lea disp prefixes modrm
  | popOperand =>
      exact sameAt_popOperand (hnone (trailingBytes_oneByte (by decide))) prefixes modrm
  | @shiftGroup byte h =>
      by_cases hbyte : byte = 0xc0 ∨ byte = 0xc1
      · have hbytes : (Opcode.oneByte byte).trailingBytes prefixes modrm = 1 := by
          rcases hbyte with rfl | rfl <;> rfl
        exact sameAt_shiftGroup_byte (hone hbytes) _ prefixes modrm hbyte
      · have hplain : (Opcode.oneByte byte).trailingBytes prefixes modrm = 0 :=
          trailingBytes_oneByte fun hmem => by
            fin_cases h <;> revert hmem hbyte <;> decide
        exact sameAt_shiftGroup (hnone hplain) _ prefixes modrm hbyte
  | @movOperandImmediate byte h =>
      refine sameAt_movOperandImmediate _ prefixes modrm ?_
      have hwidth : count = immediateBytes
          (if byte = 0xc6 then .w8 else operandWidth prefixes) := by
        rw [← hcount]
        rcases h with rfl | rfl <;> rfl
      rwa [← hwidth]
  | x87 h =>
      refine sameAt_x87 (hnone (trailingBytes_oneByte fun hmem => ?_)) host _ prefixes modrm
      fin_cases h <;> revert hmem <;> decide
  | @groupF6F7 byte h =>
      by_cases hoperation : modrm.operation = 0
      · by_cases hbyte : byte = 0xf6
        · subst hbyte
          have hbytes : (Opcode.oneByte 0xf6).trailingBytes prefixes modrm = 1 := by
            simp [Opcode.trailingBytes, hoperation]
          exact sameAt_groupF6_test (hone hbytes) _ prefixes modrm rfl hoperation
        · refine sameAt_groupF7_test _ prefixes modrm hbyte hoperation ?_
          have hwidth : count = immediateBytes (operandWidth prefixes) := by
            rw [← hcount]
            rcases h with rfl | rfl
            · contradiction
            · simp [Opcode.trailingBytes, hoperation]
          rwa [← hwidth]
      · have hplain : (Opcode.oneByte byte).trailingBytes prefixes modrm = 0 := by
          rcases h with rfl | rfl <;> simp [Opcode.trailingBytes, hoperation]
        exact sameAt_groupF6F7 (hnone hplain) _ prefixes modrm hoperation
  | groupFf => exact sameAt_groupFf (hnone (trailingBytes_oneByte (by decide))) prefixes modrm
  | setcc h =>
      refine sameAt_setcc (hnone (trailingBytes_twoByte fun hmem => ?_)) _ prefixes modrm
      fin_cases hmem <;> revert h <;> decide
  | cmovcc h =>
      refine sameAt_cmovcc (hnone (trailingBytes_twoByte fun hmem => ?_)) _ prefixes modrm
      fin_cases hmem <;> revert h <;> decide
  | hint => exact SameAt.refl _
  | bitString h =>
      refine sameAt_bitString (hnone (trailingBytes_twoByte fun hmem => ?_)) _ prefixes modrm
      fin_cases h <;> revert hmem <;> decide
  | @doubleShift byte h =>
      have hbyte : ¬(byte = 0xa4 ∨ byte = 0xac) := of_decide_eq_false hearly
      refine sameAt_doubleShift (hnone (trailingBytes_twoByte fun hmem => ?_)) _ prefixes modrm
        hbyte
      fin_cases h <;> revert hmem hbyte <;> decide
  | groupAe => exact sameAt_groupAe (hnone (trailingBytes_twoByte (by decide))) prefixes modrm
  | imulRegister =>
      exact sameAt_imulRegister (hnone (trailingBytes_twoByte (by decide))) prefixes modrm
  | cmpxchg h =>
      rcases h with rfl | rfl <;>
        exact sameAt_cmpxchg (hnone (trailingBytes_twoByte (by decide))) _ prefixes modrm
  | extend h =>
      refine sameAt_extend (hnone (trailingBytes_twoByte fun hmem => ?_)) _ prefixes modrm
      fin_cases h <;> revert hmem <;> decide
  | groupBa => exact sameAt_groupBa (hone rfl) prefixes modrm
  | bitScan h =>
      rcases h with rfl | rfl <;>
        exact sameAt_bitScan (hnone (trailingBytes_twoByte (by decide))) _ prefixes modrm
  | xadd h =>
      rcases h with rfl | rfl <;>
        exact sameAt_xadd (hnone (trailingBytes_twoByte (by decide))) _ prefixes modrm
  | movnti => exact sameAt_movnti (hnone (trailingBytes_twoByte (by decide))) prefixes modrm
  | packed _ hselector =>
      exact sameAt_packed (hnone (trailingBytes_twoByte hselector)) prefixes modrm _
  | selected _ hselector =>
      exact sameAt_selected (hone (if_pos hselector)) prefixes modrm _
  | storeXmm h =>
      rcases h with rfl | rfl | rfl <;>
        exact sameAt_storeXmm (hnone (trailingBytes_twoByte (by decide))) prefixes modrm
  | loadXmm => exact sameAt_loadXmm (hnone (trailingBytes_twoByte (by decide))) prefixes modrm
  | byteShift => exact sameAt_byteShift (hone rfl) prefixes modrm
  | movq => exact sameAt_movq (hnone (trailingBytes_twoByte (by decide))) prefixes modrm
  | storeLow => exact sameAt_storeLow (hnone (trailingBytes_twoByte (by decide))) prefixes modrm
  | pmovmskb =>
      exact sameAt_pmovmskb (hnone (trailingBytes_twoByte (by decide))) prefixes modrm
  | sseFloat h =>
      refine sameAt_sseFloat (hnone (trailingBytes_twoByte fun hmem => ?_)) host _ prefixes modrm
      fin_cases hmem <;> revert h <;> decide

end SoftCPU64

end LUE
