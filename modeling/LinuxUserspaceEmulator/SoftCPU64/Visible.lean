import LinuxUserspaceEmulator.Library.Bisimulation
import LinuxUserspaceEmulator.SoftCPU64.Decode

/-!
# What a guest can see

The register shadows, the taint of the running instruction and of the flags, and the reports
already made only serve the checks for uninitialized data.  Two CPUs are visibly the same when
they differ in nothing else.  This file says when a program of the emulator takes visibly the
same CPUs, with memories related by some bisimulation of byte accesses, to visibly the same
CPUs and related memories, and proves it of decoding and operand access.

Main results:

- Theorem `sameVisible_iff`: the same visible part is equality without the shadows.
- Theorem `MemoryBisimulation.decodeRmOperand`: decoding an operand is blind to the shadows.
- Theorems `MemoryBisimulation.readOperand` and `MemoryBisimulation.writeOperand`: so are
  operand reads and writes, whatever shadow they carry.
-/

namespace LUE

open StateExcept

namespace SoftCPU64

/-! ## The visible part of the CPU -/

/-- The part of the CPU that only the checks for uninitialized data look at. -/
structure Shadows where
  gprShadow : Register → U64 := fun _ => 0
  currentTaint : Bool := false
  flagsTainted : Bool := false
  reportedUninitReads : List U64 := []
  reportedUninitPointers : List U64 := []
  reportedUninitBranches : List U64 := []

/-- The CPU with other shadows. -/
def withShadows (cpu : SoftCPU64) (shadows : Shadows) : SoftCPU64 :=
  { cpu with
    gprShadow := shadows.gprShadow
    currentTaint := shadows.currentTaint
    flagsTainted := shadows.flagsTainted
    reportedUninitReads := shadows.reportedUninitReads
    reportedUninitPointers := shadows.reportedUninitPointers
    reportedUninitBranches := shadows.reportedUninitBranches }

/-- The CPU as the guest sees it. -/
def visible (cpu : SoftCPU64) : SoftCPU64 :=
  cpu.withShadows {}

/-- The guest cannot tell the two CPUs apart. -/
def SameVisible (cpu cpu' : SoftCPU64) : Prop :=
  ∃ shadows, cpu' = cpu.withShadows shadows

theorem sameVisible_iff {cpu cpu' : SoftCPU64} :
    SameVisible cpu cpu' ↔ cpu.visible = cpu'.visible := by
  constructor
  · rintro ⟨shadows, rfl⟩
    rfl
  · intro h
    refine ⟨⟨cpu'.gprShadow, cpu'.currentTaint, cpu'.flagsTainted, cpu'.reportedUninitReads,
      cpu'.reportedUninitPointers, cpu'.reportedUninitBranches⟩, ?_⟩
    cases cpu
    cases cpu'
    simp only [visible, withShadows, SoftCPU64.mk.injEq] at h ⊢
    simp [h]

theorem SameVisible.refl (cpu : SoftCPU64) : SameVisible cpu cpu :=
  sameVisible_iff.mpr rfl

theorem SameVisible.symm {cpu cpu' : SoftCPU64} (h : SameVisible cpu cpu') :
    SameVisible cpu' cpu :=
  sameVisible_iff.mpr (sameVisible_iff.mp h).symm

theorem SameVisible.trans {cpu cpu' cpu'' : SoftCPU64} (h : SameVisible cpu cpu')
    (h' : SameVisible cpu' cpu'') : SameVisible cpu cpu'' :=
  sameVisible_iff.mpr ((sameVisible_iff.mp h).trans (sameVisible_iff.mp h'))

@[simp]
theorem visible_taint (cpu : SoftCPU64) : cpu.taint.visible = cpu.visible :=
  rfl

@[simp]
theorem visible_warnUninitializedRead (cpu : SoftCPU64) :
    cpu.warnUninitializedRead.visible = cpu.visible := by
  unfold warnUninitializedRead
  split <;> rfl

@[simp]
theorem visible_warnUninitializedPointer (cpu : SoftCPU64) :
    cpu.warnUninitializedPointer.visible = cpu.visible := by
  unfold warnUninitializedPointer
  split <;> rfl

@[simp]
theorem visible_warnUninitializedBranch (cpu : SoftCPU64) :
    cpu.warnUninitializedBranch.visible = cpu.visible := by
  unfold warnUninitializedBranch
  split <;> rfl

end SoftCPU64

/-! ## Related emulators -/

/-- The emulator apart from its CPU and its memory. -/
def Emulator.rest (emulator : Emulator) : Emulator :=
  (emulator.withCPU {}).withMMU {}

/-- Two emulators the guest cannot tell apart, as far as the relation of the memories goes: the
CPUs are visibly the same, the memories are related, and so is everything else. -/
structure Alike (M : SoftMMU → SoftMMU → Prop) (Q : Emulator → Emulator → Prop)
    (emulator emulator' : Emulator) : Prop where
  cpu : emulator.cpu.SameVisible emulator'.cpu
  mmu : M emulator.mmu emulator'.mmu
  rest : Q emulator.rest emulator'.rest

/-- A program of the emulator that keeps emulators alike and returns or raises the same. -/
abbrev Respects {α : Type} (M : SoftMMU → SoftMMU → Prop) (Q : Emulator → Emulator → Prop)
    (x y : EmulatorProgram α) : Prop :=
  Bisimilar (Alike M Q) Eq x y

/-- Values are the same, whatever their shadows. -/
def SameValue {w : Nat} (value value' : ValueWithShadow w) : Prop :=
  value.value = value'.value

theorem sameValue_mk {w : Nat} (value shadow shadow' : BitVec w) :
    SameValue (⟨value, shadow⟩ : ValueWithShadow w) ⟨value, shadow'⟩ :=
  rfl

/-- The memories answer byte accesses alike and are related again afterwards, whatever the
shadow of a written byte. -/
structure MemoryBisimulation (M : SoftMMU → SoftMMU → Prop) : Prop where
  mapped : ∀ {mmu mmu'}, M mmu mmu' → ∀ address,
    (mmu.findRegion address).isSome = (mmu'.findRegion address).isSome
  read8 : ∀ {mmu mmu'}, M mmu mmu' → ∀ address, mmu.read8 address = mmu'.read8 address
  read8WithShadow : ∀ address, Bisimilar M SameValue (SoftMMU.read8WithShadow address)
    (SoftMMU.read8WithShadow address)
  write8WithShadow : ∀ address {value value'}, SameValue value value' →
    Bisimilar M Eq (SoftMMU.write8WithShadow address value)
      (SoftMMU.write8WithShadow address value')

variable {M : SoftMMU → SoftMMU → Prop} {Q : Emulator → Emulator → Prop} {α β : Type}

/-! ## Programs of the parts -/

namespace Respects

variable {V : α → α → Prop}

/-- A program that looks at the CPU. -/
theorem getCPU_bind {f g : SoftCPU64 → EmulatorProgram α}
    (h : ∀ cpu shadows, Bisimilar (Alike M Q) V (f cpu) (g (cpu.withShadows shadows))) :
    Bisimilar (Alike M Q) V (getCPU >>= f) (getCPU >>= g) := by
  intro emulator emulator' halike
  obtain ⟨shadows, hcpu⟩ := halike.cpu
  rw [bind_of_ok (getCPU_apply _), bind_of_ok (getCPU_apply _), hcpu]
  exact h _ shadows _ _ halike

theorem modifyCPU {f g : SoftCPU64 → SoftCPU64}
    (h : ∀ cpu shadows, (f cpu).visible = (g (cpu.withShadows shadows)).visible) :
    Respects M Q (modifyCPU f) (modifyCPU g) := by
  intro emulator emulator' halike
  obtain ⟨shadows, hcpu⟩ := halike.cpu
  refine .ok rfl ⟨?_, halike.mmu, halike.rest⟩
  rw [Emulator.withCPU_cpu, Emulator.withCPU_cpu, SoftCPU64.sameVisible_iff, hcpu]
  exact h _ shadows

/-- A change of the shadows under a condition on the shadows. -/
theorem guarded {c c' : Prop} [Decidable c] [Decidable c'] {f f' : SoftCPU64 → SoftCPU64}
    {x y : PUnit → EmulatorProgram α} (hf : ∀ cpu, (f cpu).visible = cpu.visible)
    (hf' : ∀ cpu, (f' cpu).visible = cpu.visible)
    (h : Bisimilar (Alike M Q) V (x ⟨⟩) (y ⟨⟩)) :
    Bisimilar (Alike M Q) V (if c then LUE.modifyCPU f >>= x else x ⟨⟩)
      (if c' then LUE.modifyCPU f' >>= y else y ⟨⟩) := by
  have hshadows : ∀ (c : Prop) [Decidable c] (f : SoftCPU64 → SoftCPU64)
      (x : PUnit → EmulatorProgram α) (emulator : Emulator),
      (∀ cpu, (f cpu).visible = cpu.visible) →
      ∃ cpu, cpu.SameVisible emulator.cpu ∧
        (if c then LUE.modifyCPU f >>= x else x ⟨⟩) emulator = x ⟨⟩ (emulator.withCPU cpu) := by
    intro c _ f x emulator hf
    by_cases hc : c
    · rw [if_pos hc, bind_of_ok (modifyCPU_apply f emulator)]
      exact ⟨f emulator.cpu, SoftCPU64.sameVisible_iff.mpr (hf _), rfl⟩
    · rw [if_neg hc]
      exact ⟨emulator.cpu, .refl _, rfl⟩
  intro emulator emulator' halike
  obtain ⟨cpu, hcpu, hrun⟩ := hshadows c f x emulator hf
  obtain ⟨cpu', hcpu', hrun'⟩ := hshadows c' f' y emulator' hf'
  rw [hrun, hrun']
  refine h _ _ ⟨?_, halike.mmu, halike.rest⟩
  have hsame := SoftCPU64.sameVisible_iff.mp halike.cpu
  exact SoftCPU64.sameVisible_iff.mpr
    ((SoftCPU64.sameVisible_iff.mp hcpu).trans
      (hsame.trans (SoftCPU64.sameVisible_iff.mp hcpu').symm))

theorem onMMU {x y : MMUProgram α} (h : Bisimilar M V x y) :
    Bisimilar (Alike M Q) V (onMMU x) (onMMU y) :=
  h.onPart (fun _ _ halike => halike.mmu)
    fun _ _ _ _ halike hmmu => ⟨halike.cpu, hmmu, halike.rest⟩

theorem readMMU {f g : SoftMMU → Except Raise α} (h : ∀ mmu mmu', M mmu mmu' → f mmu = g mmu') :
    Respects M Q (readMMU f) (readMMU g) :=
  Bisimilar.observe fun _ _ halike => h _ _ halike.mmu

end Respects

namespace MemoryBisimulation

/-! ## Memory accesses -/

theorem isMapped (hM : MemoryBisimulation M) {mmu mmu' : SoftMMU} (h : M mmu mmu')
    (address : U64) (size : Nat) : mmu.isMapped address size = mmu'.isMapped address size := by
  unfold SoftMMU.isMapped
  simp only [hM.mapped h]

theorem readInteger (hM : MemoryBisimulation M) {mmu mmu' : SoftMMU} (h : M mmu mmu')
    (address : U64) (count : Nat) :
    mmu.readInteger address count = mmu'.readInteger address count := by
  induction count with
  | zero => rfl
  | succ count ih => rw [SoftMMU.readInteger, SoftMMU.readInteger, ih, hM.read8 h]

theorem mapM_read8 (hM : MemoryBisimulation M) {mmu mmu' : SoftMMU} (h : M mmu mmu')
    (address : Nat → U64) (indices : List Nat) :
    (indices.mapM fun i => mmu.read8 (address i)) =
      indices.mapM fun i => mmu'.read8 (address i) := by
  rw [show (fun i => mmu.read8 (address i)) = fun i => mmu'.read8 (address i) from
    funext fun i => hM.read8 h (address i)]

theorem observe_read8 (hM : MemoryBisimulation M) (address : U64) :
    Bisimilar M Eq (observe fun mmu => mmu.read8 address : MMUProgram U8)
      (observe fun mmu => mmu.read8 address) :=
  .observe fun _ _ h => hM.read8 h address

theorem readIntegerWithShadow (hM : MemoryBisimulation M) (address : U64) (count : Nat) :
    Bisimilar M SameValue (SoftMMU.readIntegerWithShadow address count)
      (SoftMMU.readIntegerWithShadow address count) := by
  induction count with
  | zero => exact .pure rfl
  | succ count ih =>
      refine ih.bind fun low low' hlow => (hM.read8WithShadow _).bind fun byte byte' hbyte => ?_
      refine .pure ?_
      unfold SameValue at *
      rw [hlow, hbyte]

theorem write8 (hM : MemoryBisimulation M) (address : U64) (value : U8) :
    Bisimilar M Eq (SoftMMU.write8 address value) (SoftMMU.write8 address value) :=
  hM.write8WithShadow address rfl

theorem writeInteger (hM : MemoryBisimulation M) (address value : U64) (count : Nat) :
    Bisimilar M Eq (SoftMMU.writeInteger address value count)
      (SoftMMU.writeInteger address value count) :=
  .forOffsets fun _ _ => hM.write8 _ _

theorem writeIntegerWithShadow (hM : MemoryBisimulation M) (address : U64)
    {value value' : ValueWithShadow 64} (h : SameValue value value') (count : Nat) :
    Bisimilar M Eq (SoftMMU.writeIntegerWithShadow address value count)
      (SoftMMU.writeIntegerWithShadow address value' count) := by
  refine .forOffsets fun i _ => hM.write8WithShadow _ ?_
  unfold SameValue at *
  rw [h]

theorem readMemoryOperand (hM : MemoryBisimulation M) (address : U64) (width : Width) :
    Bisimilar M SameValue (SoftCPU64.readMemoryOperand address width)
      (SoftCPU64.readMemoryOperand address width) := by
  cases width with
  | w8 =>
      refine (hM.read8WithShadow address).bind fun byte byte' hbyte => .pure ?_
      unfold SameValue at *
      rw [hbyte]
  | w16 => exact hM.readIntegerWithShadow address 2
  | w32 => exact hM.readIntegerWithShadow address 4
  | w64 => exact hM.readIntegerWithShadow address 8

theorem writeMemoryOperand (hM : MemoryBisimulation M) (address : U64) (width : Width)
    (value : U64) (tainted tainted' : Bool) :
    Bisimilar M Eq (SoftCPU64.writeMemoryOperand address width value tainted)
      (SoftCPU64.writeMemoryOperand address width value tainted') := by
  cases width with
  | w8 => exact hM.write8WithShadow address (sameValue_mk _ _ _)
  | w16 => exact hM.writeIntegerWithShadow address (sameValue_mk _ _ _) 2
  | w32 => exact hM.writeIntegerWithShadow address (sameValue_mk _ _ _) 4
  | w64 => exact hM.writeIntegerWithShadow address (sameValue_mk _ _ _) 8

/-! ## Decoding -/

theorem readMMU_read8 (hM : MemoryBisimulation M) (address : U64) :
    Respects M Q (LUE.readMMU fun mmu => mmu.read8 address)
      (LUE.readMMU fun mmu => mmu.read8 address) :=
  Respects.readMMU fun _ _ h => hM.read8 h address

theorem readMMU_readInteger (hM : MemoryBisimulation M) (address : U64) (count : Nat) :
    Respects M Q (LUE.readMMU fun mmu => mmu.readInteger address count)
      (LUE.readMMU fun mmu => mmu.readInteger address count) :=
  Respects.readMMU fun _ _ h => hM.readInteger h address count

theorem unsupported (hM : MemoryBisimulation M) (message : String) :
    Respects M Q (SoftCPU64.unsupported message : EmulatorProgram α)
      (SoftCPU64.unsupported message) :=
  Respects.getCPU_bind fun _ _ =>
    (Respects.readMMU fun _ _ h => hM.mapM_read8 h _ _).bindSame fun _ => .throw _

theorem fetch8 (hM : MemoryBisimulation M) : Respects M Q SoftCPU64.fetch8 SoftCPU64.fetch8 :=
  Respects.getCPU_bind fun _ _ => (Respects.modifyCPU fun _ _ => rfl).bindSame fun _ =>
    hM.readMMU_read8 _

theorem fetchInteger (hM : MemoryBisimulation M) (count : Nat) :
    Respects M Q (SoftCPU64.fetchInteger count) (SoftCPU64.fetchInteger count) :=
  Respects.getCPU_bind fun _ _ =>
    (hM.readMMU_readInteger _ count).bindSame fun _ =>
      (Respects.modifyCPU fun _ _ => rfl).bindSame fun _ => .pure rfl

theorem fetchI8 (hM : MemoryBisimulation M) : Respects M Q SoftCPU64.fetchI8 SoftCPU64.fetchI8 :=
  hM.fetch8.bindSame fun _ => .pure rfl

theorem fetchI32 (hM : MemoryBisimulation M) :
    Respects M Q SoftCPU64.fetchI32 SoftCPU64.fetchI32 :=
  (hM.fetchInteger 4).bindSame fun _ => .pure rfl

theorem readPrefixesLoop (hM : MemoryBisimulation M) (fuel : Nat) (prefixes : Prefixes) :
    Respects M Q (SoftCPU64.readPrefixesLoop fuel prefixes)
      (SoftCPU64.readPrefixesLoop fuel prefixes) := by
  induction fuel generalizing prefixes with
  | zero => exact .throw _
  | succ fuel ih =>
      refine Respects.getCPU_bind fun cpu _ => (hM.readMMU_read8 _).bindSame fun byte => ?_
      split
      · exact (Respects.modifyCPU fun _ _ => rfl).bindSame fun _ => ih _
      · exact .pure rfl

theorem fetchModrm (hM : MemoryBisimulation M) (prefixes : Prefixes) :
    Respects M Q (SoftCPU64.fetchModrm prefixes) (SoftCPU64.fetchModrm prefixes) :=
  hM.fetch8.bindSame fun _ => .pure rfl

/-- The register that feeds an address is the same; whether it is tainted may differ. -/
theorem addressRegister (register : Register) :
    Bisimilar (Alike M Q) (fun read read' => read.1 = read'.1)
      (SoftCPU64.addressRegister register) (SoftCPU64.addressRegister register) :=
  Respects.getCPU_bind fun _ _ => .pure rfl

/-- Address parts that differ in their taint at most. -/
def SameParts (parts parts' : SoftCPU64.AddressParts) : Prop :=
  { parts with tainted := false } = { parts' with tainted := false }

theorem decodeSib (hM : MemoryBisimulation M) (prefixes : Prefixes) (modrm : ModRM) :
    Bisimilar (Alike M Q) SameParts (SoftCPU64.decodeSib prefixes modrm)
      (SoftCPU64.decodeSib prefixes modrm) := by
  refine hM.fetch8.bindSame fun sib => .ite (fun _ => ?_) fun _ => ?_
  · refine (addressRegister _).bind fun index index' hindex => .ite (fun _ => ?_) fun _ => ?_
    · exact hM.fetchI32.bindSame fun _ => .pure (by simp [SameParts, hindex])
    · exact (addressRegister _).bind fun base base' hbase =>
        .pure (by simp [SameParts, hindex, hbase])
  · refine Bisimilar.bindSame (.pure rfl) fun index => .ite (fun _ => ?_) fun _ => ?_
    · exact hM.fetchI32.bindSame fun _ => .pure rfl
    · exact (addressRegister _).bind fun base base' hbase => .pure (by simp [SameParts, hbase])

theorem decodeAddressParts (hM : MemoryBisimulation M) (prefixes : Prefixes) (modrm : ModRM) :
    Bisimilar (Alike M Q) SameParts (SoftCPU64.decodeAddressParts prefixes modrm)
      (SoftCPU64.decodeAddressParts prefixes modrm) := by
  refine .ite (fun _ => hM.decodeSib prefixes modrm) fun _ => .ite (fun _ => ?_) fun _ => ?_
  · exact hM.fetchI32.bindSame fun _ => .pure rfl
  · exact (addressRegister _).bind fun base base' hbase => .pure (by simp [SameParts, hbase])

/-- The address of a memory operand does not depend on taint; only the report does. -/
theorem decodeMemoryAddress (hM : MemoryBisimulation M) (prefixes : Prefixes) (modrm : ModRM) :
    Respects M Q (SoftCPU64.decodeMemoryAddress prefixes modrm)
      (SoftCPU64.decodeMemoryAddress prefixes modrm) := by
  refine (hM.decodeAddressParts prefixes modrm).bind fun parts parts' hparts => ?_
  simp only [SameParts, SoftCPU64.AddressParts.mk.injEq] at hparts
  obtain ⟨hbase, hindex, hscale, hdisplacement, hrip, -⟩ := hparts
  have hreport : ∀ cpu : SoftCPU64, cpu.warnUninitializedPointer.taint.visible = cpu.visible :=
    fun cpu => by simp
  rw [hbase, hindex, hscale, hdisplacement, hrip]
  refine .ite (fun _ => ?_) fun _ => .ite (fun _ => ?_) fun _ => ?_
  · exact hM.fetchI8.bindSame fun _ => Respects.getCPU_bind fun _ _ =>
      Respects.guarded hreport hreport (.pure rfl)
  · exact hM.fetchI32.bindSame fun _ => Respects.getCPU_bind fun _ _ =>
      Respects.guarded hreport hreport (.pure rfl)
  · exact Bisimilar.bindSame (.pure rfl) fun _ => Respects.getCPU_bind fun _ _ =>
      Respects.guarded hreport hreport (.pure rfl)

theorem decodeRmOperand (hM : MemoryBisimulation M) (prefixes : Prefixes) (modrm : ModRM) :
    Respects M Q (SoftCPU64.decodeRmOperand prefixes modrm)
      (SoftCPU64.decodeRmOperand prefixes modrm) :=
  .ite (fun _ => .pure rfl) fun _ =>
    (hM.decodeMemoryAddress prefixes modrm).bindSame fun _ => .pure rfl

end MemoryBisimulation

/-! ## Operands -/

namespace Respects

theorem effectiveAddress (decoded : DecodedAddress) :
    Respects M Q (SoftCPU64.effectiveAddress decoded) (SoftCPU64.effectiveAddress decoded) :=
  getCPU_bind fun _ _ => .pure rfl

theorem readGpr (register : Register) (width : Width) (prefixes : Prefixes) :
    Respects M Q (SoftCPU64.readGpr register width prefixes)
      (SoftCPU64.readGpr register width prefixes) :=
  getCPU_bind fun _ _ => guarded (fun _ => rfl) (fun _ => rfl) (.pure rfl)

theorem writeGpr (register : Register) (width : Width) (value : U64) (prefixes : Prefixes) :
    Respects M Q (SoftCPU64.writeGpr register width value prefixes)
      (SoftCPU64.writeGpr register width value prefixes) :=
  modifyCPU fun _ _ => rfl

/-- An operation with a result whose visible part does not depend on the shadows. -/
theorem onCPU {operation operation' : SoftCPU64 → U64 × SoftCPU64}
    (hresult : ∀ cpu shadows, (operation cpu).1 = (operation' (cpu.withShadows shadows)).1)
    (hcpu : ∀ cpu shadows,
      (operation cpu).2.visible = (operation' (cpu.withShadows shadows)).2.visible) :
    Respects M Q (SoftCPU64.onCPU operation) (SoftCPU64.onCPU operation') := by
  refine getCPU_bind fun cpu shadows => Bisimilar.bindSame (modifyCPU fun _ _ => ?_) fun _ => ?_
  · exact hcpu cpu shadows
  · exact .pure (hresult cpu shadows)

theorem branchCondition (cc : U8) :
    Respects M Q (SoftCPU64.branchCondition cc) (SoftCPU64.branchCondition cc) :=
  getCPU_bind fun _ _ => guarded (by simp) (by simp) (.pure rfl)

end Respects

namespace MemoryBisimulation

theorem readOperand (hM : MemoryBisimulation M) (operand : Operand) (width : Width)
    (prefixes : Prefixes) :
    Respects M Q (SoftCPU64.readOperand operand width prefixes)
      (SoftCPU64.readOperand operand width prefixes) := by
  cases operand with
  | register register => exact Respects.readGpr register width prefixes
  | memory decoded =>
      refine (Respects.effectiveAddress decoded).bindSame fun address =>
        (Respects.onMMU (hM.readMemoryOperand address width)).bind fun read read' hread => ?_
      exact Respects.guarded (by simp) (by simp) (.pure hread)

theorem writeOperand (hM : MemoryBisimulation M) (operand : Operand) (width : Width)
    (value : U64) (prefixes : Prefixes) :
    Respects M Q (SoftCPU64.writeOperand operand width value prefixes)
      (SoftCPU64.writeOperand operand width value prefixes) := by
  cases operand with
  | register register => exact Respects.writeGpr register width _ prefixes
  | memory decoded =>
      exact (Respects.effectiveAddress decoded).bindSame fun address =>
        Respects.getCPU_bind fun _ _ =>
          Respects.onMMU (hM.writeMemoryOperand address width _ _ _)

theorem push64 (hM : MemoryBisimulation M) (value shadow shadow' : U64) :
    Respects M Q (SoftCPU64.push64 value shadow) (SoftCPU64.push64 value shadow') :=
  (Respects.modifyCPU fun _ _ => rfl).bindSame fun _ => Respects.getCPU_bind fun _ _ =>
    Respects.onMMU (hM.writeIntegerWithShadow _ (sameValue_mk value _ _) 8)

theorem pop64WithShadow (hM : MemoryBisimulation M) :
    Bisimilar (Alike M Q) SameValue SoftCPU64.pop64WithShadow SoftCPU64.pop64WithShadow :=
  Respects.getCPU_bind fun _ _ =>
    (Respects.onMMU (hM.readIntegerWithShadow _ 8)).bind fun _ _ hread =>
      (Respects.modifyCPU fun _ _ => rfl).bindSame fun _ => .pure hread

theorem pop64 (hM : MemoryBisimulation M) : Respects M Q SoftCPU64.pop64 SoftCPU64.pop64 :=
  hM.pop64WithShadow.bind fun _ _ hread => .pure hread

end MemoryBisimulation

end LUE
