import LinuxUserspaceEmulator.SoftCPU64.Integer
import LinuxUserspaceEmulator.SoftCPU64.RegisterLens
import LinuxUserspaceEmulator.SoftMMU.GuestBytes

/-!
# Programs that only read

Fetching, decoding an operand and reading it move the decoder, taint the instruction and report
uninitialized reads.  The registers, the flags and the memory stay as they are, whether the
reading ends or raises.

Main results:

- Theorem `ReadsOnly.sameMachine`: the machine after a program that only reads.
- Theorems `ReadsOnly.decodeRmOperand` and `ReadsOnly.readOperand`: operands are only read.
- Theorem `readGpr_eq_ok`: reading a register never raises.
- Theorem `readOperand_lt`: an operand that was read has no bits above its width.
-/

namespace LUE

open StateExcept

/-! ## Reading memory -/

namespace SoftMMU

/-- A program that keeps the regions, whether it returns or raises. -/
def KeepsRegions {α : Type} (program : MMUProgram α) : Prop :=
  ∀ regions, Preserves (fun mmu => mmu.regions = regions) program

theorem keepsRegions_read8WithShadow (address : U64) :
    KeepsRegions (read8WithShadow address) := by
  intro regions
  refine (Preserves.observe _).bind fun region => ?_
  refine Preserves.bind ?_ fun _ => Preserves.observe _
  exact Preserves.modify fun mmu h => h

theorem keepsRegions_readIntegerWithShadow (address : U64) (count : Nat) :
    KeepsRegions (readIntegerWithShadow address count) := by
  intro regions
  induction count with
  | zero => exact Preserves.pure _
  | succ count ih =>
      refine ih.bind fun low => ?_
      exact (keepsRegions_read8WithShadow _ regions).bind fun byte => Preserves.pure _

end SoftMMU

namespace SoftCPU64

theorem keepsRegions_readMemoryOperand (address : U64) (width : Width) :
    SoftMMU.KeepsRegions (readMemoryOperand address width) := by
  cases width with
  | w8 =>
      intro regions
      exact (SoftMMU.keepsRegions_read8WithShadow address regions).bind fun _ => Preserves.pure _
  | w16 => exact SoftMMU.keepsRegions_readIntegerWithShadow address 2
  | w32 => exact SoftMMU.keepsRegions_readIntegerWithShadow address 4
  | w64 => exact SoftMMU.keepsRegions_readIntegerWithShadow address 8

/-! ## The machine -/

/-- The CPU without its decoder and its diagnostics. -/
def architectural (cpu : SoftCPU64) : SoftCPU64 :=
  { cpu with
    instructionStart := 0
    decodePc := 0
    currentTaint := false
    reportedUninitReads := []
    reportedUninitPointers := []
    reportedUninitBranches := [] }

theorem architectural_warnUninitializedRead (cpu : SoftCPU64) :
    cpu.warnUninitializedRead.architectural = cpu.architectural := by
  unfold warnUninitializedRead
  split <;> rfl

theorem architectural_warnUninitializedPointer (cpu : SoftCPU64) :
    cpu.warnUninitializedPointer.architectural = cpu.architectural := by
  unfold warnUninitializedPointer
  split <;> rfl

/-- Two states with the same registers, flags, shadows and memory. -/
structure SameMachine (before after : Emulator) : Prop where
  cpu : after.cpu.architectural = before.cpu.architectural
  regions : after.mmu.regions = before.mmu.regions

namespace SameMachine

variable {before middle after : Emulator}

theorem refl (emulator : Emulator) : SameMachine emulator emulator :=
  ⟨rfl, rfl⟩

theorem trans (h : SameMachine before middle) (h' : SameMachine middle after) :
    SameMachine before after :=
  ⟨h'.cpu.trans h.cpu, h'.regions.trans h.regions⟩

theorem gpr (h : SameMachine before after) : after.cpu.gpr = before.cpu.gpr :=
  (congrArg SoftCPU64.gpr h.cpu :)

theorem gprShadow (h : SameMachine before after) : after.cpu.gprShadow = before.cpu.gprShadow :=
  (congrArg SoftCPU64.gprShadow h.cpu :)

theorem rflags (h : SameMachine before after) : after.cpu.rflags = before.cpu.rflags :=
  (congrArg SoftCPU64.rflags h.cpu :)

end SameMachine

/-- A program that leaves the machine as it was at some start. -/
def ReadsOnly {α : Type} (program : EmulatorProgram α) : Prop :=
  ∀ start, Preserves (SameMachine start) program

namespace ReadsOnly

variable {α β : Type}

/-- The machine after a program that only reads. -/
theorem sameMachine {program : EmulatorProgram α} (hreads : ReadsOnly program)
    (emulator : Emulator) : SameMachine emulator (finalState (program emulator)) :=
  hreads emulator emulator (SameMachine.refl emulator)

theorem of_ok {program : EmulatorProgram α} (hreads : ReadsOnly program)
    {before after : Emulator} {a : α} (h : program before = .ok a after) :
    SameMachine before after := by
  have hfinal := hreads.sameMachine before
  rwa [h] at hfinal

theorem pure (a : α) : ReadsOnly (pure a) :=
  fun _ => Preserves.pure a

theorem bind {x : EmulatorProgram α} {f : α → EmulatorProgram β} (hx : ReadsOnly x)
    (hf : ∀ a, ReadsOnly (f a)) : ReadsOnly (x >>= f) :=
  fun start => (hx start).bind fun a => hf a start

theorem ite {c : Prop} [Decidable c] {x y : EmulatorProgram α} (hx : ReadsOnly x)
    (hy : ReadsOnly y) : ReadsOnly (if c then x else y) :=
  fun start => Preserves.ite (fun _ => hx start) fun _ => hy start

theorem throw (e : Raise) : ReadsOnly (throw e : EmulatorProgram α) :=
  fun _ => Preserves.throw e

theorem getCPU : ReadsOnly getCPU :=
  fun _ _ h => h

theorem readMMU (f : SoftMMU → Except Raise α) : ReadsOnly (readMMU f) :=
  fun _ => Preserves.observe _

theorem onMMU {program : MMUProgram α} (hkeeps : SoftMMU.KeepsRegions program) :
    ReadsOnly (onMMU program) := by
  intro start emulator h
  have hregions := hkeeps _ emulator.mmu rfl
  unfold LUE.onMMU onPart
  cases hrun : program emulator.mmu with
  | ok a mmu =>
      rw [hrun] at hregions
      exact ⟨h.cpu, hregions.trans h.regions⟩
  | error e mmu =>
      rw [hrun] at hregions
      exact ⟨h.cpu, hregions.trans h.regions⟩

theorem modifyCPU {f : SoftCPU64 → SoftCPU64}
    (hf : ∀ cpu, (f cpu).architectural = cpu.architectural) : ReadsOnly (modifyCPU f) :=
  fun _ emulator h => ⟨(hf emulator.cpu).trans h.cpu, h.regions⟩

theorem guestFault (what : String) : ReadsOnly (guestFault what : EmulatorProgram α) :=
  getCPU.bind fun _ => throw _

theorem fetch8 : ReadsOnly fetch8 :=
  getCPU.bind fun _ => bind (modifyCPU fun _ => rfl) fun _ => readMMU _

theorem fetchInteger (count : Nat) : ReadsOnly (fetchInteger count) :=
  getCPU.bind fun _ => (readMMU _).bind fun _ => bind (modifyCPU fun _ => rfl) fun _ => pure _

theorem fetchI8 : ReadsOnly fetchI8 :=
  fetch8.bind fun _ => pure _

theorem fetchI32 : ReadsOnly fetchI32 :=
  (fetchInteger 4).bind fun _ => pure _

theorem fetchImmediate (width : Width) : ReadsOnly (fetchImmediate width) := by
  cases width with
  | w8 => exact fetch8.bind fun _ => pure _
  | w16 => exact fetchInteger 2
  | w32 => exact (fetchInteger 4).bind fun _ => pure _
  | w64 => exact (fetchInteger 4).bind fun _ => pure _

theorem fetchModrm (prefixes : Prefixes) : ReadsOnly (fetchModrm prefixes) :=
  fetch8.bind fun _ => pure _

theorem addressRegister (register : Register) : ReadsOnly (addressRegister register) :=
  getCPU.bind fun _ => pure _

theorem decodeAddressParts (prefixes : Prefixes) (modrm : ModRM) :
    ReadsOnly (decodeAddressParts prefixes modrm) := by
  refine ite (fetch8.bind fun sib => ite (bind (addressRegister _) fun index => ?_)
    (bind (pure _) fun index => ?_))
    (ite (fetchI32.bind fun _ => pure _) ((addressRegister _).bind fun _ => pure _))
  · exact ite (fetchI32.bind fun _ => pure _) ((addressRegister _).bind fun _ => pure _)
  · exact ite (fetchI32.bind fun _ => pure _) ((addressRegister _).bind fun _ => pure _)

theorem decodeMemoryAddress (prefixes : Prefixes) (modrm : ModRM) :
    ReadsOnly (decodeMemoryAddress prefixes modrm) := by
  have htaint : ReadsOnly
      (LUE.modifyCPU fun cpu : SoftCPU64 => cpu.warnUninitializedPointer.taint) :=
    modifyCPU architectural_warnUninitializedPointer
  refine (decodeAddressParts prefixes modrm).bind fun parts =>
    ite (fetchI8.bind fun _ => ?_) (ite (fetchI32.bind fun _ => ?_) ((pure _).bind fun _ => ?_))
  all_goals
    exact getCPU.bind fun _ => ite (htaint.bind fun _ => pure _) (pure _)

theorem decodeRmOperand (prefixes : Prefixes) (modrm : ModRM) :
    ReadsOnly (decodeRmOperand prefixes modrm) :=
  ite (pure _) ((decodeMemoryAddress prefixes modrm).bind fun _ => pure _)

theorem readGpr (register : Register) (width : Width) (prefixes : Prefixes) :
    ReadsOnly (readGpr register width prefixes) :=
  getCPU.bind fun _ => ite (bind (modifyCPU fun _ => rfl) fun _ => pure _) (pure _)

theorem readOperand (operand : Operand) (width : Width) (prefixes : Prefixes) :
    ReadsOnly (readOperand operand width prefixes) := by
  have htaint : ReadsOnly
      (LUE.modifyCPU fun cpu : SoftCPU64 => cpu.taint.warnUninitializedRead) :=
    modifyCPU fun cpu => architectural_warnUninitializedRead cpu.taint
  cases operand with
  | register register => exact readGpr register width prefixes
  | memory decoded =>
      exact (getCPU.bind fun _ => pure _).bind fun address =>
        (onMMU (keepsRegions_readMemoryOperand _ _)).bind fun _ =>
          ite (htaint.bind fun _ => pure _) (pure _)

end ReadsOnly

/-- Reading a register never raises. -/
theorem readGpr_eq_ok (register : Register) (width : Width) (prefixes : Prefixes)
    (emulator : Emulator) :
    ∃ read, readGpr register width prefixes emulator =
        .ok (readLane emulator.cpu.gpr register width prefixes) read ∧
      SameMachine emulator read := by
  have hmachine := (ReadsOnly.readGpr register width prefixes).sameMachine emulator
  unfold readGpr at hmachine ⊢
  rw [bind_of_ok (getCPU_apply emulator)] at hmachine ⊢
  split at hmachine <;> rename_i hshadow
  · exact ⟨_, by rw [if_pos hshadow]; rfl, hmachine⟩
  · exact ⟨_, by rw [if_neg hshadow]; rfl, hmachine⟩

/-! ## Values that were read -/

section Values

variable {width : Width} {count : Nat} {value : U64}

theorem readLane_lt (file : Register → U64) (register : Register) (width : Width)
    (prefixes : Prefixes) : (readLane file register width prefixes).toNat < 2 ^ width.bits := by
  unfold readLane
  split <;> rename_i hhigh
  · have hbyte := width_of_isHighByte hhigh
    subst hbyte
    rw [BitVec.toNat_and]
    exact Nat.lt_of_le_of_lt Nat.and_le_right (by decide : (0xff : U64).toNat < 2 ^ 8)
  · rw [toNat_and_maskForWidth]
    exact Nat.mod_lt _ (Nat.two_pow_pos _)

/-- A shadowed read of some bytes gives no bits above them. -/
theorem readIntegerWithShadow_lt {address : U64} {mmu mmu' : SoftMMU}
    {read : ValueWithShadow 64}
    (h : SoftMMU.readIntegerWithShadow address count mmu = .ok read mmu') :
    read.value.toNat < 2 ^ (count * 8) := by
  induction count generalizing read mmu' with
  | zero =>
      cases h
      decide
  | succ count ih =>
      rcases bind_eq_ok_iff.mp h with ⟨low, mmu₁, hlow, hrest⟩
      rcases bind_eq_ok_iff.mp hrest with ⟨byte, mmu₂, hbyte, hreturn⟩
      cases hreturn
      have hpow : 2 ^ ((count + 1) * 8) = 2 ^ 8 * 2 ^ (count * 8) := by
        rw [← Nat.pow_add]
        congr 1
        omega
      have hlowlt := ih hlow
      have hshifted : (byte.value.setWidth 64 <<< (count * 8)).toNat < 2 ^ ((count + 1) * 8) := by
        rw [BitVec.toNat_shiftLeft, BitVec.toNat_setWidth_of_le (by decide), Nat.shiftLeft_eq, hpow]
        exact Nat.lt_of_le_of_lt (Nat.mod_le _ _)
          (Nat.mul_lt_mul_of_pos_right byte.value.isLt (Nat.two_pow_pos _))
      rw [BitVec.toNat_or]
      refine Nat.or_lt_two_pow (Nat.lt_of_lt_of_le hlowlt ?_) hshifted
      exact Nat.pow_le_pow_right (n := 2) (by decide) (by omega)

/-- An operand that was read has no bits above its width. -/
theorem readOperand_lt {operand : Operand} {prefixes : Prefixes} {emulator emulator' : Emulator}
    (h : readOperand operand width prefixes emulator = .ok value emulator') :
    value.toNat < 2 ^ width.bits := by
  cases operand with
  | register register =>
      have hlane := readLane_lt emulator.cpu.gpr register width prefixes
      rw [readOperand, readGpr, bind_of_ok (getCPU_apply emulator)] at h
      split at h
      · rw [bind_of_ok (modifyCPU_apply _ emulator)] at h
        cases h
        exact hlane
      · cases h
        exact hlane
  | memory decoded =>
      rcases bind_eq_ok_iff.mp h with ⟨address, emulator₁, -, hrest⟩
      rcases bind_eq_ok_iff.mp hrest with ⟨read, emulator₂, hread, hreturn⟩
      have hvalue : read.value = value := by
        dsimp only at hreturn
        split at hreturn
        · rw [bind_of_ok (modifyCPU_apply _ emulator₂)] at hreturn
          cases hreturn
          rfl
        · cases hreturn
          rfl
      rcases onMMU_eq_ok_iff.mp hread with ⟨mmu', hmemory, -⟩
      rw [← hvalue]
      cases width with
      | w8 =>
          rcases bind_eq_ok_iff.mp hmemory with ⟨byte, mmu₁, -, hbyte⟩
          cases hbyte
          have hwide : (byte.value.setWidth 64).toNat = byte.value.toNat :=
            BitVec.toNat_setWidth_of_le (by decide)
          rw [hwide]
          exact byte.value.isLt
      | w16 => exact readIntegerWithShadow_lt hmemory
      | w32 => exact readIntegerWithShadow_lt hmemory
      | w64 => exact readIntegerWithShadow_lt hmemory

end Values

end SoftCPU64

end LUE
