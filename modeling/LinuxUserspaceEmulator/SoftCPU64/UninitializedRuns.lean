import LinuxUserspaceEmulator.Library.BitStrings
import LinuxUserspaceEmulator.SoftCPU64.AssembledMoves
import LinuxUserspaceEmulator.SoftCPU64.ExplicitTaint

/-!
# Runs that do not look at uninitialized data

A run of moves, logical and arithmetic operations and comparisons whose code and address
registers are initialized does not depend on what the uninitialized registers, flags and bytes
hold: another run from a state that only differs there keeps the same shadow maps all along, and
whatever is initialized at its end is the same in both.

Main results:

- Definition `ExplicitRun`: such a run.
- Theorem `sameCodeBetween_of_initialized`: initialized code is the same in both states.
- Theorem `explicitRun_sameInitialized`: the two runs end in states that differ in uninitialized
  data only.
-/

namespace LUE

open StateExcept SoftMMU

namespace SoftCPU64

variable {host : Host} {s s' t t' : Emulator} {count : Nat}

/-- The bytes that an instruction is fetched from are initialized. -/
def CodeInitialized (s s' : Emulator) : Prop :=
  ∀ i < (s'.cpu.rip - s.cpu.rip).toNat,
    (s.mmu.addressMap (s.cpu.rip + BitVec.ofNat 64 i)).all Cell.initialized = true

instance decidableCodeInitialized (s s' : Emulator) : Decidable (CodeInitialized s s') :=
  Nat.decidableBallLT _ fun i _ =>
    (s.mmu.addressMap (s.cpu.rip + BitVec.ofNat 64 i)).all Cell.initialized = true

/-- A step of an instruction with explicit operands whose code and address registers are
initialized. -/
structure ExplicitStep (host : Host) (s s' : Emulator) : Prop where
  step : SoftCPU64.step host s = .ok () s'
  code : CodeInitialized s s'
  explicit : ∃ prefixes opcode decoded,
    decodeInstruction s = .ok (prefixes, opcode) decoded ∧
      ExplicitOperands prefixes decoded opcode ∧
      (opcode.WithoutOperand = false → ClearOperand prefixes decoded)

/-- So many of these steps. -/
inductive ExplicitRun (host : Host) : Nat → Emulator → Emulator → Prop where
  | finished (s : Emulator) : ExplicitRun host 0 s s
  | step {count : Nat} {s middle s' : Emulator} (hstep : ExplicitStep host s middle)
      (hrun : ExplicitRun host count middle s') : ExplicitRun host (count + 1) s s'

/-- Initialized code is the same in states that differ in uninitialized data only. -/
theorem sameCodeBetween_of_initialized (hcode : CodeInitialized s s')
    (hsame : s.SameInitialized t) : SameCodeBetween s.cpu.rip s'.cpu.rip s t := by
  intro address byte byte' hstart hstop hread hread'
  have hat := BitStrings.add_offset s.cpu.rip address
  have hinside : (address - s.cpu.rip).toNat < (s'.cpu.rip - s.cpu.rip).toNat := by
    rw [BitVec.toNat_sub_of_le (BitVec.le_def.mpr hstart),
      BitVec.toNat_sub_of_le (BitVec.le_def.mpr (by omega))]
    omega
  have hinitialized := hcode _ hinside
  rw [hat] at hinitialized
  have hbyte := guestByte_of_read8 hread
  obtain ⟨cell, hcell, -⟩ := Option.map_eq_some_iff.mp hbyte
  rw [hcell, Option.all_some] at hinitialized
  exact hsame.mmu.read8 hcell hinitialized hread hread'

/-- One such step leaves the other state in the same relation. -/
theorem ExplicitStep.sameInitialized (hstep : ExplicitStep host s s')
    (hsame : s.SameInitialized t) (h : SoftCPU64.step host t = .ok () t') :
    s'.SameInitialized t' := by
  obtain ⟨prefixes, opcode, decoded, hdecode, hexplicit, hclear⟩ := hstep.explicit
  have hsteps : StepsFrom decoded (opcode.execute host prefixes) :=
    stepsFrom_explicitOperands hexplicit (untainted_decodeInstruction hdecode) hclear
  exact hsteps.step hdecode hsame (sameCodeBetween_of_initialized hstep.code hsame) hstep.step h

/-- A run of instructions with explicit operands does not look at uninitialized data: a run of
as many steps from a state that only differs there ends in a state that only differs there. -/
theorem explicitRun_sameInitialized (hrun : ExplicitRun host count s s')
    (hsame : s.SameInitialized t) (h : stepAll host count t = .ok () t') :
    s'.SameInitialized t' := by
  induction hrun generalizing t with
  | finished s =>
      cases h
      exact hsame
  | step hstep _ ih =>
      obtain ⟨_, next, hnext, hrest⟩ := bind_eq_ok_iff.mp h
      exact ih (hstep.sameInitialized hsame hnext) hrest

section Examples

/-- `sub %eax, %eax` and `mov %eax, %ebx`, with an uninitialized register. -/
def clearThenMove (value : U64) : Emulator :=
  (subSelf value).withMMU (startingAt [0x29, 0xc0, 0x89, 0xc3]).mmu

/-- A step of an instruction whose operands are registers. -/
theorem explicitStep_registers (prefixes : Prefixes) (opcode : Opcode) (modrm : ModRM)
    {decoded selected : Emulator}
    (hstep : SoftCPU64.step host s = .ok () s') (hcode : CodeInitialized s s')
    (hdecode : decodeInstruction s = .ok (prefixes, opcode) decoded)
    (hexplicit : ExplicitOperands prefixes decoded opcode)
    (hmodrm : fetchModrm prefixes decoded = .ok modrm selected)
    (hregister : modrm.isRegister = true) : ExplicitStep host s s' where
  step := hstep
  code := hcode
  explicit := by
    refine ⟨prefixes, opcode, decoded, hdecode, hexplicit, fun _ named after hnamed => ?_⟩
    rw [hmodrm] at hnamed
    cases hnamed
    intro hmemory
    rw [hregister] at hmemory
    cases hmemory

/-- Whatever the register held, both registers are cleared. -/
theorem explicitRun_sameInitialized_clearThenMove :
    (finalState (stepAll Emulator.quietHost 2 (clearThenMove 1))).SameInitialized
      (finalState (stepAll Emulator.quietHost 2 (clearThenMove 2))) := by
  have hsame : (clearThenMove 1).SameInitialized (clearThenMove 2) :=
    (sameInitialized_subSelf 1 2).withMMU (SoftMMU.SameInitialized.refl _)
  have hrun : stepAll Emulator.quietHost 2 (clearThenMove 2) =
      .ok () (finalState (stepAll Emulator.quietHost 2 (clearThenMove 2))) :=
    eq_ok_of_returned (by decide +kernel)
  have hfirst : ExplicitStep Emulator.quietHost (clearThenMove 1)
      (finalState (SoftCPU64.step Emulator.quietHost (clearThenMove 1))) :=
    explicitStep_registers {} (.oneByte 0x29) { byte := 0xc0, mod := 3 }
      (eq_ok_of_returned (by decide)) (by decide +kernel) (eq_ok_of_returned (by decide))
      (.alu (by decide) (by decide)) (eq_ok_of_returned (by decide)) rfl
  have hsecond : ExplicitStep Emulator.quietHost
      (finalState (SoftCPU64.step Emulator.quietHost (clearThenMove 1)))
      (finalState (stepAll Emulator.quietHost 2 (clearThenMove 1))) :=
    explicitStep_registers {} (.oneByte 0x89) { byte := 0xc3, mod := 3, reg := 0, rm := 3 }
      (eq_ok_of_returned (by decide)) (by decide +kernel) (eq_ok_of_returned (by decide))
      (.movStore (by decide)) (eq_ok_of_returned (by decide)) rfl
  exact explicitRun_sameInitialized (.step hfirst (.step hsecond (.finished _))) hsame hrun

end Examples

end SoftCPU64

end LUE
