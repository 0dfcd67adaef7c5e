import LinuxUserspaceEmulator.SoftCPU64.Step

/-!
# Programs that leave the decoder where it is

Between its fetches an instruction reads registers and memory, computes, and writes; none of
this moves the decoder.  Only the fetches do, and the control transfers at their end.

Main results:

- Theorem `KeepsPosition.bind`: a sequence of such programs is such a program.
- Theorems `keepsPosition_readOperand` and `keepsPosition_writeOperand`: operand accesses.
- Theorem `keepsPosition_executeOperation`: the eight two-operand operations.
-/

namespace LUE

open StateExcept

namespace SoftCPU64

/-- The program leaves the decoder at the position it finds it at. -/
def KeepsPosition {α : Type} (program : EmulatorProgram α) : Prop :=
  ∀ pc, Preserves (fun emulator => emulator.cpu.decodePc = pc) program

variable {α β : Type}

namespace KeepsPosition

theorem pure (a : α) : KeepsPosition (pure a) :=
  fun _ => Preserves.pure a

theorem throw (e : Raise) : KeepsPosition (throw e : EmulatorProgram α) :=
  fun _ => Preserves.throw e

theorem bind {x : EmulatorProgram α} {f : α → EmulatorProgram β} (hx : KeepsPosition x)
    (hf : ∀ a, KeepsPosition (f a)) : KeepsPosition (x >>= f) :=
  fun pc => (hx pc).bind fun a => hf a pc

theorem ite {c : Prop} [Decidable c] {x y : EmulatorProgram α} (hx : c → KeepsPosition x)
    (hy : ¬c → KeepsPosition y) : KeepsPosition (if c then x else y) :=
  fun pc => Preserves.ite (fun h => hx h pc) fun h => hy h pc

theorem getCPU : KeepsPosition getCPU :=
  fun _ _ h => h

theorem readMMU (f : SoftMMU → Except Raise α) : KeepsPosition (readMMU f) :=
  fun _ => Preserves.observe _

theorem onMMU (program : MMUProgram α) : KeepsPosition (onMMU program) := by
  intro pc emulator hpc
  unfold LUE.onMMU onPart
  cases program emulator.mmu <;> exact hpc

theorem modifyCPU {f : SoftCPU64 → SoftCPU64} (hf : ∀ cpu, (f cpu).decodePc = cpu.decodePc) :
    KeepsPosition (modifyCPU f) :=
  fun _ _ hpc => (hf _).trans hpc

theorem onCPU {operation : SoftCPU64 → U64 × SoftCPU64}
    (hkeeps : ∀ cpu, (operation cpu).2.decodePc = cpu.decodePc) :
    KeepsPosition (onCPU operation) :=
  fun _ _ hpc => (hkeeps _).trans hpc

/-- A program that returns has left the decoder where it was. -/
theorem eq_of_ok {program : EmulatorProgram α} (hkeeps : KeepsPosition program)
    {emulator emulator' : Emulator} {a : α} (h : program emulator = .ok a emulator') :
    emulator'.cpu.decodePc = emulator.cpu.decodePc := by
  have hfinal := hkeeps _ emulator rfl
  rwa [h] at hfinal

end KeepsPosition

/-! ## The parts of instructions -/

/-- Fetching a ModRM byte moves the decoder over it. -/
theorem fetchModrm_eq_ok {prefixes : Prefixes} {modrm : ModRM} {emulator emulator' : Emulator}
    (h : fetchModrm prefixes emulator = .ok modrm emulator') :
    emulator' = atDecodePc emulator (emulator.cpu.decodePc + 1) := by
  rcases bind_eq_ok_iff.mp h with ⟨byte, middle, hfetch, hreturn⟩
  have hmoved := fetch8_eq_ok hfetch
  cases hreturn
  exact hmoved

theorem keepsPosition_unsupported (message : String) :
    KeepsPosition (unsupported message : EmulatorProgram α) :=
  KeepsPosition.getCPU.bind fun _ => (KeepsPosition.readMMU _).bind fun _ =>
    KeepsPosition.throw _

theorem keepsPosition_readGpr (register : Register) (width : Width) (prefixes : Prefixes) :
    KeepsPosition (readGpr register width prefixes) := by
  refine KeepsPosition.getCPU.bind fun cpu => KeepsPosition.ite (fun _ => ?_) fun _ => ?_
  · exact KeepsPosition.bind (KeepsPosition.modifyCPU fun _ => rfl) fun _ => KeepsPosition.pure _
  · exact KeepsPosition.pure _

theorem keepsPosition_writeGpr (register : Register) (width : Width) (value : U64)
    (prefixes : Prefixes) : KeepsPosition (writeGpr register width value prefixes) :=
  KeepsPosition.modifyCPU fun _ => rfl

theorem keepsPosition_effectiveAddress (decoded : DecodedAddress) :
    KeepsPosition (effectiveAddress decoded) :=
  KeepsPosition.getCPU.bind fun _ => KeepsPosition.pure _

theorem decodePc_warnUninitializedRead (cpu : SoftCPU64) :
    cpu.warnUninitializedRead.decodePc = cpu.decodePc := by
  unfold warnUninitializedRead
  split <;> rfl

theorem keepsPosition_readOperand (operand : Operand) (width : Width) (prefixes : Prefixes) :
    KeepsPosition (readOperand operand width prefixes) := by
  cases operand with
  | register register => exact keepsPosition_readGpr register width prefixes
  | memory decoded =>
      refine (keepsPosition_effectiveAddress decoded).bind fun _ =>
        (KeepsPosition.onMMU _).bind fun _ => KeepsPosition.ite (fun _ => ?_) fun _ =>
          KeepsPosition.pure _
      exact (KeepsPosition.modifyCPU fun cpu => decodePc_warnUninitializedRead cpu.taint).bind
        fun _ => KeepsPosition.pure _

theorem keepsPosition_writeOperand (operand : Operand) (width : Width) (value : U64)
    (prefixes : Prefixes) : KeepsPosition (writeOperand operand width value prefixes) := by
  cases operand with
  | register register => exact keepsPosition_writeGpr register width _ prefixes
  | memory decoded =>
      exact (keepsPosition_effectiveAddress decoded).bind fun _ =>
        KeepsPosition.getCPU.bind fun _ => KeepsPosition.onMMU _

@[simp]
theorem decodePc_setFlag (cpu : SoftCPU64) (flagValue : U64) (value : Bool) :
    (cpu.setFlag flagValue value).decodePc = cpu.decodePc :=
  rfl

@[simp]
theorem decodePc_updateFlagsTaint (cpu : SoftCPU64) :
    cpu.updateFlagsTaint.decodePc = cpu.decodePc :=
  rfl

@[simp]
theorem decodePc_setLogicFlags (cpu : SoftCPU64) (result : U64) (width : Width) :
    (cpu.setLogicFlags result width).decodePc = cpu.decodePc := by
  simp [setLogicFlags]

@[simp]
theorem decodePc_add (cpu : SoftCPU64) (lhs rhs : U64) (width : Width) (carry : Bool) :
    (cpu.add lhs rhs width carry).2.decodePc = cpu.decodePc := by
  simp [add, setArithmeticFlags]

@[simp]
theorem decodePc_sub (cpu : SoftCPU64) (lhs rhs : U64) (width : Width) (borrow : Bool) :
    (cpu.sub lhs rhs width borrow).2.decodePc = cpu.decodePc := by
  simp [sub, setArithmeticFlags]

theorem keepsPosition_setLogicFlags (result : U64) (width : Width) :
    KeepsPosition (modifyCPU fun cpu => cpu.setLogicFlags result width) :=
  KeepsPosition.modifyCPU fun cpu => decodePc_setLogicFlags cpu result width

theorem keepsPosition_add (lhs rhs : U64) (width : Width) (carry : Bool) :
    KeepsPosition (onCPU fun cpu => cpu.add lhs rhs width carry) :=
  KeepsPosition.onCPU fun cpu => decodePc_add cpu lhs rhs width carry

theorem keepsPosition_sub (lhs rhs : U64) (width : Width) (borrow : Bool) :
    KeepsPosition (onCPU fun cpu => cpu.sub lhs rhs width borrow) :=
  KeepsPosition.onCPU fun cpu => decodePc_sub cpu lhs rhs width borrow

theorem keepsPosition_executeOperation (operation : Nat) (lhs rhs : U64) (width : Width)
    (mask : U64) {write : U64 → EmulatorProgram Unit}
    (hwrite : ∀ value, KeepsPosition (write value)) :
    KeepsPosition (executeOperation operation lhs rhs width mask write) := by
  unfold executeOperation
  split
  · exact (keepsPosition_add lhs rhs width false).bind hwrite
  · exact (keepsPosition_setLogicFlags _ width).bind fun _ => hwrite _
  · exact (keepsPosition_add lhs rhs width true).bind hwrite
  · exact (keepsPosition_sub lhs rhs width true).bind hwrite
  · exact (keepsPosition_setLogicFlags _ width).bind fun _ => hwrite _
  · exact (keepsPosition_sub lhs rhs width false).bind hwrite
  · exact (keepsPosition_setLogicFlags _ width).bind fun _ => hwrite _
  · exact (keepsPosition_sub lhs rhs width false).bind fun _ => KeepsPosition.pure _
  · exact keepsPosition_unsupported _

theorem keepsPosition_pop64WithShadow : KeepsPosition pop64WithShadow :=
  KeepsPosition.getCPU.bind fun _ => (KeepsPosition.onMMU _).bind fun _ =>
    KeepsPosition.bind (KeepsPosition.modifyCPU fun _ => rfl) fun _ => KeepsPosition.pure _

theorem keepsPosition_taintFromFlags : KeepsPosition taintFromFlags := by
  refine KeepsPosition.modifyCPU fun cpu => ?_
  split <;> rfl

/-- The value of a shift is computed from values alone. -/
theorem keepsPosition_shiftResult (operation : Nat) (value : U64) (count : Nat) (width : Width) :
    KeepsPosition (shiftResult operation value count width) := by
  have hleft : ∀ value count, KeepsPosition (hostShiftLeft value count) := fun _ _ =>
    KeepsPosition.ite (fun _ => KeepsPosition.pure _) fun _ => KeepsPosition.throw _
  have hright : ∀ value count, KeepsPosition (hostShiftRight value count) := fun _ _ =>
    KeepsPosition.ite (fun _ => KeepsPosition.pure _) fun _ => KeepsPosition.throw _
  unfold shiftResult
  split
  · exact (hleft _ _).bind fun _ => (hright _ _).bind fun _ => KeepsPosition.pure _
  · exact (hright _ _).bind fun _ => (hleft _ _).bind fun _ => KeepsPosition.pure _
  · exact (hleft _ _).bind fun _ => KeepsPosition.pure _
  · exact (hleft _ _).bind fun _ => KeepsPosition.pure _
  · exact (hright _ _).bind fun _ => KeepsPosition.pure _
  · exact (hright _ _).bind fun _ => KeepsPosition.pure _
  · exact keepsPosition_unsupported _

end SoftCPU64

end LUE
