import LinuxUserspaceEmulator.SoftCPU64.Immediates
import LinuxUserspaceEmulator.SoftCPU64.OperandForms
import LinuxUserspaceEmulator.SoftCPU64.Reading
import LinuxUserspaceEmulator.SoftMMU.Words

/-!
# Saving and restoring the floating-point state

`FXSAVE` stores the XMM registers and MXCSR in an area of 512 bytes, and `FXRSTOR` loads them.
The x87 unit is neither stored nor loaded, so what the instructions in between make of it stays.

Main results:

- Theorem `saved_of_fxsave`: what an area holds after `FXSAVE`.
- Theorem `restored_of_fxrstor`: what `FXRSTOR` takes from an area.
- Theorem `step_fxrstor_undoes_iff`: when `FXRSTOR` undoes `FXSAVE`.
-/

namespace LUE

open StateExcept

namespace SoftCPU64

/-! ## The x87 unit -/

/-- Two states of the x87 unit. -/
structure SameX87 (before after : SoftCPU64) : Prop where
  fpuSt : after.fpuSt = before.fpuSt
  fpuEmpty : after.fpuEmpty = before.fpuEmpty
  fpuTop : after.fpuTop = before.fpuTop
  fpuStatus : after.fpuStatus = before.fpuStatus
  fpuControl : after.fpuControl = before.fpuControl

variable {cpu before middle after : SoftCPU64}

theorem SameX87.trans (h : SameX87 before middle) (h' : SameX87 middle after) :
    SameX87 before after :=
  ⟨h'.fpuSt.trans h.fpuSt, h'.fpuEmpty.trans h.fpuEmpty, h'.fpuTop.trans h.fpuTop,
    h'.fpuStatus.trans h.fpuStatus, h'.fpuControl.trans h.fpuControl⟩

theorem SameX87.symm (h : SameX87 before after) : SameX87 after before :=
  ⟨h.fpuSt.symm, h.fpuEmpty.symm, h.fpuTop.symm, h.fpuStatus.symm, h.fpuControl.symm⟩

/-- The floating-point state is that of the SSE registers and of the x87 unit. -/
theorem sameFloatContext_iff :
    after.floatContext = before.floatContext ↔
      after.xmm = before.xmm ∧ after.mxcsr = before.mxcsr ∧ SameX87 before after := by
  simp only [floatContext, FloatContext.mk.injEq]
  constructor
  · rintro ⟨hxmm, hmxcsr, hst, hempty, htop, hstatus, hcontrol⟩
    exact ⟨hxmm, hmxcsr, hst, hempty, htop, hstatus, hcontrol⟩
  · rintro ⟨hxmm, hmxcsr, h⟩
    exact ⟨hxmm, hmxcsr, h.fpuSt, h.fpuEmpty, h.fpuTop, h.fpuStatus, h.fpuControl⟩

/-! ## The area -/

/-- The area at an address holds the SSE state. -/
structure Saved (mmu : SoftMMU) (address : U64) (cpu : SoftCPU64) : Prop where
  mxcsr : ∀ i < 4, mmu.guestByte (address + 24 + BitVec.ofNat 64 i) =
    some (LittleEndian.byte (cpu.mxcsr.setWidth 64) i)
  xmm : ∀ i < 256, mmu.guestByte (address + 160 + BitVec.ofNat 64 i) =
    some ((cpu.xmm (Fin.ofNat 16 (i / 16))).byte (i % 16))

variable {emulator emulator' : Emulator} {address : U64}

/-- What an area holds after `FXSAVE`. -/
theorem saved_of_fxsave (h : fxsave address emulator = .ok () emulator') :
    ∃ mmu, emulator' = emulator.withMMU mmu ∧ Saved mmu address emulator.cpu := by
  rw [fxsave, bind_of_ok (getCPU_apply emulator)] at h
  rcases onMMU_eq_ok_iff.mp h with ⟨mmu, hstores, rfl⟩
  rcases bind_eq_ok_iff.mp hstores with ⟨_, cleared, -, hrest⟩
  rcases bind_eq_ok_iff.mp hrest with ⟨_, stored, hmxcsr, hrest'⟩
  rcases bind_eq_ok_iff.mp hrest' with ⟨_, masked, hmask, hxmm⟩
  have hmxcsrByte := SoftMMU.guestByte_of_writeBytes (by decide : 4 ≤ 2 ^ 64) hmxcsr
  have hmaskByte := SoftMMU.guestByte_of_writeBytes (by decide : 4 ≤ 2 ^ 64) hmask
  have hxmmByte := SoftMMU.guestByte_of_writeBytes (by decide : 256 ≤ 2 ^ 64) hxmm
  refine ⟨mmu, rfl, fun i hi => ?_, fun i hi => ?_⟩
  · have hbehind : ¬(address + 24 + BitVec.ofNat 64 i - (address + 160)).toNat < 256 := by
      bv_omega
    have hbefore : ¬(address + 24 + BitVec.ofNat 64 i - (address + 28)).toNat < 4 := by
      bv_omega
    have hoffset : (address + 24 + BitVec.ofNat 64 i - (address + 24)).toNat = i := by
      bv_omega
    rw [hxmmByte, if_neg hbehind, hmaskByte, if_neg hbefore, hmxcsrByte, hoffset, if_pos hi]
    rfl
  · have hoffset : (address + 160 + BitVec.ofNat 64 i - (address + 160)).toNat = i := by
      bv_omega
    rw [hxmmByte, hoffset, if_pos hi]

/-- One XMM register was loaded, the first bytes so far, and nothing else has changed. -/
structure LoadedRegister (address : U64) (register : Nat) (count : Nat)
    (before after : Emulator) : Prop where
  mmu : after.mmu = before.mmu
  x87 : SameX87 before.cpu after.cpu
  mxcsr : after.cpu.mxcsr = before.cpu.mxcsr
  others : ∀ other, other ≠ Fin.ofNat 16 register → after.cpu.xmm other = before.cpu.xmm other
  bytes : ∀ b < count, before.mmu.guestByte
    (address + 160 + BitVec.ofNat 64 (register * 16 + b)) =
      some ((after.cpu.xmm (Fin.ofNat 16 register)).byte b)

theorem loadedRegister_of_loop {register count : Nat} (hcount : count ≤ 16)
    (h : forOffsets (fun b => do
      let byte ← readMMU fun mmu =>
        mmu.read8 (address + 160 + BitVec.ofNat 64 (register * 16 + b))
      modifyXmm (Fin.ofNat 16 register) fun v => Function.update v (Fin.ofNat 16 b) byte)
      count emulator = .ok () emulator') :
    LoadedRegister address register count emulator emulator' := by
  induction count generalizing emulator' with
  | zero =>
      cases h
      exact ⟨rfl, ⟨rfl, rfl, rfl, rfl, rfl⟩, rfl, fun _ _ => rfl,
        fun b hb => absurd hb (Nat.not_lt_zero b)⟩
  | succ count ih =>
      rcases forOffsets_succ_eq_ok_iff.mp h with ⟨loaded, hloaded, hbody⟩
      have hprevious := ih (Nat.le_of_succ_le hcount) hloaded
      rcases bind_eq_ok_iff.mp hbody with ⟨byte, read, hread, hassign⟩
      rcases readMMU_eq_ok_iff.mp hread with ⟨hbyte, rfl⟩
      cases hassign
      have hguest := SoftMMU.guestByte_of_read8 hbyte
      rw [hprevious.mmu] at hguest
      refine ⟨hprevious.mmu, hprevious.x87.trans ⟨rfl, rfl, rfl, rfl, rfl⟩, hprevious.mxcsr,
        fun other hother => ?_, fun b hb => ?_⟩
      · exact (Function.update_of_ne hother _ _).trans (hprevious.others other hother)
      · have hresult : (Function.update loaded.cpu.xmm (Fin.ofNat 16 register)
            (Function.update (loaded.cpu.xmm (Fin.ofNat 16 register)) (Fin.ofNat 16 count) byte))
              (Fin.ofNat 16 register) (Fin.ofNat 16 b) =
            if b = count then byte else (loaded.cpu.xmm (Fin.ofNat 16 register)).byte b := by
          rw [Function.update_self]
          by_cases hlast : b = count
          · rw [hlast, if_pos rfl, Function.update_self]
          · have hne : Fin.ofNat 16 b ≠ Fin.ofNat 16 count := by
              rw [Ne, Fin.ext_iff, Fin.val_ofNat, Fin.val_ofNat]
              omega
            rw [if_neg hlast, Function.update_of_ne hne]
            rfl
        refine Eq.trans ?_ (congrArg some hresult.symm)
        by_cases hlast : b = count
        · rw [if_pos hlast, hlast]
          exact hguest
        · rw [if_neg hlast]
          exact hprevious.bytes b (by omega)

/-- The SSE state was loaded from an area, the first registers so far. -/
structure Restored (address : U64) (count : Nat) (before after : Emulator) : Prop where
  mmu : after.mmu = before.mmu
  x87 : SameX87 before.cpu after.cpu
  mxcsr : ∃ bytes : Nat → U8,
    after.cpu.mxcsr = (LittleEndian.assemble bytes 4).setWidth 32 ∧
      ∀ i < 4, before.mmu.guestByte (address + 24 + BitVec.ofNat 64 i) = some (bytes i)
  xmm : ∀ register < count, ∀ b < 16, before.mmu.guestByte
    (address + 160 + BitVec.ofNat 64 (register * 16 + b)) =
      some ((after.cpu.xmm (Fin.ofNat 16 register)).byte b)

/-- What `FXRSTOR` takes from an area. -/
theorem restored_of_fxrstor (h : fxrstor address emulator = .ok () emulator') :
    Restored address 16 emulator emulator' := by
  rcases bind_eq_ok_iff.mp h with ⟨_, started, hmxcsr, hloop⟩
  rcases bind_eq_ok_iff.mp hmxcsr with ⟨value, read, hread, hassign⟩
  rcases readMMU_eq_ok_iff.mp hread with ⟨hvalue, rfl⟩
  rcases SoftMMU.bytes_of_readInteger hvalue with ⟨bytes, rfl, hbytes⟩
  cases hassign
  have hregisters : ∀ count ≤ 16, ∀ loaded,
      forOffsets (fxrstorRegister address) count (emulator.withCPU
        { emulator.cpu with mxcsr := (LittleEndian.assemble bytes 4).setWidth 32 }) =
          .ok () loaded → Restored address count emulator loaded := by
    intro count
    induction count with
    | zero =>
        intro _ loaded hloaded
        cases hloaded
        exact ⟨rfl, ⟨rfl, rfl, rfl, rfl, rfl⟩, ⟨bytes, rfl, hbytes⟩,
          fun register hregister => absurd hregister (Nat.not_lt_zero register)⟩
    | succ count ih =>
        intro hcount loaded hloaded
        rcases forOffsets_succ_eq_ok_iff.mp hloaded with ⟨previous, hprevious, hlast⟩
        have hrestored := ih (Nat.le_of_succ_le hcount) previous hprevious
        have hregister := loadedRegister_of_loop (Nat.le_refl 16) hlast
        refine ⟨hregister.mmu.trans hrestored.mmu, hrestored.x87.trans hregister.x87, ?_,
          fun register hlt b hb => ?_⟩
        · rw [hregister.mxcsr]
          exact hrestored.mxcsr
        · by_cases hsame : register = count
          · have hbyte := hregister.bytes b hb
            rw [hrestored.mmu] at hbyte
            rw [hsame]
            exact hbyte
          · have hother : Fin.ofNat 16 register ≠ Fin.ofNat 16 count := by
              rw [Ne, Fin.ext_iff, Fin.val_ofNat, Fin.val_ofNat]
              omega
            rw [hregister.others _ hother]
            exact hrestored.xmm register (by omega) b hb
  exact hregisters 16 (Nat.le_refl 16) emulator' hloop

/-- A state that is restored from a saved area has the saved SSE registers. -/
theorem xmm_of_saved {saved : SoftMMU} {before after : Emulator}
    (hsaved : Saved saved address cpu) (hrestored : Restored address 16 before after)
    (hsame : ∀ i < 512, before.mmu.guestByte (address + BitVec.ofNat 64 i) =
      saved.guestByte (address + BitVec.ofNat 64 i)) :
    after.cpu.xmm = cpu.xmm ∧ after.cpu.mxcsr = cpu.mxcsr := by
  have hat : ∀ offset i, offset + i < 512 →
      before.mmu.guestByte (address + BitVec.ofNat 64 offset + BitVec.ofNat 64 i) =
        saved.guestByte (address + BitVec.ofNat 64 offset + BitVec.ofNat 64 i) := by
    intro offset i hi
    rw [BitVec.add_assoc, ← BitVec.ofNat_add]
    exact hsame (offset + i) hi
  constructor
  · funext register b
    have hregister : Fin.ofNat 16 register.val = register :=
      Fin.ext (Nat.mod_eq_of_lt register.isLt)
    have hb : Fin.ofNat 16 b.val = b := Fin.ext (Nat.mod_eq_of_lt b.isLt)
    have hquotient : (register.val * 16 + b.val) / 16 = register.val := by omega
    have hremainder : (register.val * 16 + b.val) % 16 = b.val := by omega
    have hloaded := hrestored.xmm register.val register.isLt b.val b.isLt
    have hstored := hsaved.xmm (register.val * 16 + b.val) (by omega)
    have hbytes := hat 160 (register.val * 16 + b.val) (by omega)
    have hbyte := hloaded.symm.trans (hbytes.trans hstored)
    rw [hquotient, hremainder, hregister, Option.some.injEq, Xmm.byte, Xmm.byte, hb] at hbyte
    exact hbyte
  · rcases hrestored.mxcsr with ⟨bytes, hmxcsr, hbytes⟩
    have hword : ∀ i < 4, bytes i = LittleEndian.byte (cpu.mxcsr.setWidth 64) i := by
      intro i hi
      have hbyte := (hbytes i hi).symm.trans ((hat 24 i (by omega)).trans (hsaved.mxcsr i hi))
      rwa [Option.some.injEq] at hbyte
    have hassembled :
        (LittleEndian.assemble (LittleEndian.byte (cpu.mxcsr.setWidth 64)) 4).setWidth (4 * 8) =
          (cpu.mxcsr.setWidth 64).setWidth (4 * 8) :=
      LittleEndian.setWidth_assemble_byte (by decide : 4 ≤ 8) _
    rw [hmxcsr, LittleEndian.assemble_congr hword]
    refine hassembled.trans ?_
    rw [BitVec.setWidth_setWidth_of_le _ (by decide)]
    exact BitVec.setWidth_eq _

/-! ## Runs -/

/-- The two instructions. -/
inductive FloatSave where
  | save
  | restore
deriving DecidableEq, Repr

/-- The middle field of the ModRM byte. -/
def FloatSave.operation : FloatSave → Nat
  | save => 0
  | restore => 1

/-- The instruction, from its address on. -/
def FloatSave.run (address : U64) : FloatSave → EmulatorProgram Unit
  | save => fxsave address
  | restore => fxrstor address

/-- The instruction at the instruction pointer is one of the two, and decodes to its address. -/
def Locates (emulator : Emulator) (instruction : FloatSave) (address : U64)
    (located : Emulator) : Prop :=
  ∃ prefixes decoded modrm selected parts,
    decodeInstruction emulator = .ok (prefixes, .twoByte 0xae) decoded ∧
    fetchModrm prefixes decoded = .ok modrm selected ∧ modrm.isRegister = false ∧
    modrm.operation = instruction.operation ∧
    decodeMemoryAddress prefixes modrm selected = .ok parts located ∧
    effectiveAddress parts located = .ok address located

/-- The instruction at the instruction pointer is one of the two, with its area at an address. -/
def AtFloatSave (emulator : Emulator) (instruction : FloatSave) (address : U64) : Prop :=
  ∃ located, Locates emulator instruction address located

variable {host host' : Host} {instruction : FloatSave} {located : Emulator}

/-- Decoding one of the two leaves the machine as it is. -/
theorem Locates.sameMachine (h : Locates emulator instruction address located) :
    SameMachine emulator located := by
  rcases h with ⟨prefixes, decoded, modrm, selected, parts, hdecode, hmodrm, -, -, hparts, -⟩
  rcases decodeInstruction_eq_ok hdecode with ⟨pc, rfl⟩
  have hbegun : SameMachine emulator (afterDecoding emulator pc) := ⟨rfl, rfl⟩
  exact hbegun.trans (((ReadsOnly.fetchModrm prefixes).of_ok hmodrm).trans
    ((ReadsOnly.decodeMemoryAddress prefixes modrm).of_ok hparts))

/-- A step at one of the two runs it at its address. -/
theorem Locates.step (h : Locates emulator instruction address located) :
    step host emulator =
      (do instruction.run address; modifyCPU finishInstruction : EmulatorProgram Unit)
        located := by
  rcases h with ⟨prefixes, decoded, modrm, selected, parts, hdecode, hmodrm, hmemory, hoperation,
    hparts, haddress⟩
  have hexecute : (Opcode.twoByte 0xae).execute host prefixes decoded =
      instruction.run address located := by
    change executeGroupAe prefixes decoded = _
    rw [executeGroupAe, bind_of_ok hmodrm, if_neg (Bool.not_eq_true _ ▸ hmemory),
      bind_of_ok hparts, bind_of_ok haddress, hoperation]
    cases instruction with
    | save => rfl
    | restore => rfl
  rw [step_of_decodedInstruction hdecode]
  exact bind_congr_outcome hexecute _

/-- A step that returns has run the instruction on the machine of its start. -/
theorem run_of_atFloatSave (hat : AtFloatSave emulator instruction address)
    (h : step host emulator = .ok () emulator') :
    ∃ located final, SameMachine emulator located ∧
      instruction.run address located = .ok () final ∧
      emulator'.mmu = final.mmu ∧ emulator'.cpu.floatContext = final.cpu.floatContext := by
  rcases hat with ⟨located, hlocated⟩
  rw [hlocated.step] at h
  rcases bind_eq_ok_iff.mp h with ⟨_, final, hrun, hfinish⟩
  cases hfinish
  exact ⟨located, final, hlocated.sameMachine, hrun, rfl, rfl⟩

/-- Any instruction that leaves the bytes of the area as they are. -/
def StepsOutside (address : U64) (before after : Emulator) : Prop :=
  (∃ host, step host before = .ok () after) ∧
    ∀ i < 512, after.mmu.guestByte (address + BitVec.ofNat 64 i) =
      before.mmu.guestByte (address + BitVec.ofNat 64 i)

/-- Any sequence of instructions that leave the area alone. -/
def RunsOutside (address : U64) : Emulator → Emulator → Prop :=
  Relation.ReflTransGen (StepsOutside address)

/-- The bytes of the area after a whole run. -/
theorem guestByte_of_runsOutside (h : RunsOutside address emulator emulator') {i : Nat}
    (hi : i < 512) :
    emulator'.mmu.guestByte (address + BitVec.ofNat 64 i) =
      emulator.mmu.guestByte (address + BitVec.ofNat 64 i) := by
  induction h with
  | refl => rfl
  | tail hrun hstep ih => exact (hstep.2 i hi).trans ih

variable {saving saved restoring restored : Emulator}

/-- `FXRSTOR` undoes `FXSAVE`, whatever runs in between, when the x87 unit comes back as it was:
the SSE registers are always restored. -/
theorem step_fxrstor_undoes_iff (hsave : AtFloatSave saving .save address)
    (hsaved : step host saving = .ok () saved) (hrun : RunsOutside address saved restoring)
    (hrestore : AtFloatSave restoring .restore address)
    (hrestored : step host' restoring = .ok () restored) :
    restored.cpu.floatContext = saving.cpu.floatContext ↔
      SameX87 saving.cpu restoring.cpu := by
  rcases run_of_atFloatSave hsave hsaved with ⟨located, final, hlocated, hfxsave, hmap, -⟩
  rcases run_of_atFloatSave hrestore hrestored with
    ⟨located', final', hlocated', hfxrstor, -, hfinal⟩
  rcases saved_of_fxsave hfxsave with ⟨mmu, rfl, hmmu⟩
  have hloaded := restored_of_fxrstor hfxrstor
  have hfloat : located.cpu.floatContext = saving.cpu.floatContext :=
    (congrArg SoftCPU64.floatContext hlocated.cpu :)
  have hfloat' : located'.cpu.floatContext = restoring.cpu.floatContext :=
    (congrArg SoftCPU64.floatContext hlocated'.cpu :)
  rcases sameFloatContext_iff.mp hfloat with ⟨hxmm, hmxcsr, -⟩
  rcases sameFloatContext_iff.mp hfloat' with ⟨-, -, hx87⟩
  have hsse := xmm_of_saved hmmu hloaded fun i hi => by
    rw [SoftMMU.guestByte_congr hlocated'.regions, guestByte_of_runsOutside hrun hi, hmap]
    rfl
  have hkept : SameX87 restoring.cpu final'.cpu := hx87.trans hloaded.x87
  rw [hfinal]
  constructor
  · intro h
    have hundone : SameX87 saving.cpu final'.cpu := (sameFloatContext_iff.mp h).2.2
    exact hundone.trans hkept.symm
  · intro h
    exact sameFloatContext_iff.mpr
      ⟨hsse.1.trans hxmm, hsse.2.trans hmxcsr, h.trans hkept⟩

/-! ## Permitted areas -/

/-- Stores into an area keep the permissions and the bytes outside. -/
structure StoresInside (address : U64) (before after : SoftMMU) : Prop where
  wellFormed : RegionsWellFormed after.regions
  protections : SoftMMU.protections after = SoftMMU.protections before
  outside : ∀ other, 512 ≤ (other - address).toNat →
    after.guestByte other = before.guestByte other

theorem StoresInside.trans {first second third : SoftMMU} (h : StoresInside address first second)
    (h' : StoresInside address second third) : StoresInside address first third :=
  ⟨h'.wellFormed, h'.protections.trans h.protections,
    fun other hother => (h'.outside other hother).trans (h.outside other hother)⟩

/-- The area at an address is permitted. -/
def PermitsArea (mmu : SoftMMU) (address : U64) (requiredProt : Protection) : Prop :=
  ∀ i < 512, Permits mmu (address + BitVec.ofNat 64 i) requiredProt

variable {mmu mmu' : SoftMMU}

theorem PermitsArea.of_stores {requiredProt : Protection}
    (h : PermitsArea mmu address requiredProt) (hstores : StoresInside address mmu mmu') :
    PermitsArea mmu' address requiredProt :=
  fun i hi => (permits_congr hstores.protections).mpr (h i hi)

theorem PermitsArea.offset {requiredProt : Protection} (h : PermitsArea mmu address requiredProt)
    {offset i : Nat} (hi : offset + i < 512) :
    Permits mmu (address + BitVec.ofNat 64 offset + BitVec.ofNat 64 i) requiredProt := by
  rw [BitVec.add_assoc, ← BitVec.ofNat_add]
  exact h (offset + i) hi

/-- Consecutive stores into a writable area. -/
theorem writeBytes_inside (hwf : RegionsWellFormed mmu.regions)
    (h : PermitsArea mmu address protWrite) (offset count : Nat) (hfits : offset + count ≤ 512)
    (bytes : Nat → U8) :
    ∃ mmu', SoftMMU.writeBytes (address + BitVec.ofNat 64 offset) bytes count mmu = .ok () mmu' ∧
      StoresInside address mmu mmu' := by
  have hpermits : ∀ i < count,
      Permits mmu (address + BitVec.ofNat 64 offset + BitVec.ofNat 64 i) protWrite :=
    fun i hi => h.offset (by omega)
  rcases writeBytes_of_permits hwf hpermits with ⟨mmu', hwrite, hwf', hprotections⟩
  refine ⟨mmu', hwrite, hwf', hprotections, fun other hother => ?_⟩
  have houtside : ¬(other - (address + BitVec.ofNat 64 offset)).toNat < count := by
    bv_omega
  rw [SoftMMU.guestByte_of_writeBytes (by omega) hwrite, if_neg houtside]

/-- `FXSAVE` returns when its area is writable, and keeps what is outside. -/
theorem fxsave_of_permits (hwf : RegionsWellFormed emulator.mmu.regions)
    (h : PermitsArea emulator.mmu address protWrite) :
    ∃ mmu, fxsave address emulator = .ok () (emulator.withMMU mmu) ∧
      StoresInside address emulator.mmu mmu := by
  rcases writeBytes_inside hwf h 0 512 (by decide) fun _ => 0 with ⟨cleared, hclear, hcleared⟩
  rcases writeBytes_inside hcleared.wellFormed (h.of_stores hcleared) 24 4 (by decide)
    (LittleEndian.byte (emulator.cpu.mxcsr.setWidth 64)) with ⟨stored, hstore, hstored⟩
  have hmxcsr := hcleared.trans hstored
  rcases writeBytes_inside hstored.wellFormed (h.of_stores hmxcsr) 28 4 (by decide)
    (LittleEndian.byte 0xffff) with ⟨masked, hmask, hmasked⟩
  have hheader := hmxcsr.trans hmasked
  rcases writeBytes_inside hmasked.wellFormed (h.of_stores hheader) 160 256 (by decide)
    (fun i => (emulator.cpu.xmm (Fin.ofNat 16 (i / 16))).byte (i % 16)) with ⟨mmu, hxmm, hlast⟩
  rw [BitVec.add_zero] at hclear
  refine ⟨mmu, ?_, hheader.trans hlast⟩
  rw [fxsave, bind_of_ok (getCPU_apply emulator)]
  refine onMMU_eq_ok_iff.mpr ⟨mmu, ?_, rfl⟩
  exact (bind_of_ok hclear).trans ((bind_of_ok hstore).trans ((bind_of_ok hmask).trans hxmm))

/-- One register is loaded when the area is readable, and the memory stays. -/
theorem fxrstorRegister_of_permits (hwf : RegionsWellFormed emulator.mmu.regions)
    (h : PermitsArea emulator.mmu address protRead) {register : Nat} (hregister : register < 16) :
    ∃ loaded, fxrstorRegister address register emulator = .ok () loaded ∧
      loaded.mmu = emulator.mmu := by
  refine forOffsets_eq_ok (fun _ (loaded : Emulator) => loaded.mmu = emulator.mmu) rfl
    fun b loading hb hloading => ?_
  have hreadable : Permits emulator.mmu
      (address + 160 + BitVec.ofNat 64 (register * 16 + b)) protRead :=
    h.offset (by omega : 160 + (register * 16 + b) < 512)
  rcases read8_of_permits hwf hreadable with ⟨byte, hbyte, -⟩
  rw [← hloading] at hbyte
  exact ⟨_, bind_of_ok (readMMU_eq_ok_iff.mpr ⟨hbyte, rfl⟩), hloading⟩

/-- `FXRSTOR` returns when its area is readable. -/
theorem fxrstor_of_permits (hwf : RegionsWellFormed emulator.mmu.regions)
    (h : PermitsArea emulator.mmu address protRead) :
    ∃ restored, fxrstor address emulator = .ok () restored := by
  have hreadable : ∀ i < 4,
      Permits emulator.mmu (address + 24 + BitVec.ofNat 64 i) protRead :=
    fun i hi => h.offset (by omega : 24 + i < 512)
  rcases readInteger_of_permits hwf hreadable with ⟨bytes, hmxcsr, -⟩
  let started := emulator.withCPU
    { emulator.cpu with mxcsr := (LittleEndian.assemble bytes 4).setWidth 32 }
  have hload : loadMxcsr (address + 24) emulator = .ok () started :=
    bind_of_ok (readMMU_eq_ok_iff.mpr ⟨hmxcsr, rfl⟩)
  have hregisters : ∃ restored, forOffsets (fxrstorRegister address) 16 started =
      .ok () restored ∧ restored.mmu = emulator.mmu := by
    refine forOffsets_eq_ok (fun _ (loaded : Emulator) => loaded.mmu = emulator.mmu) rfl
      fun register loading hregister hloading => ?_
    rw [← hloading] at hwf h
    rcases fxrstorRegister_of_permits hwf h hregister with ⟨loaded, hloaded, hmmu⟩
    exact ⟨loaded, hloaded, hmmu.trans hloading⟩
  rcases hregisters with ⟨restored, hrestored, -⟩
  exact ⟨restored, (bind_of_ok hload).trans hrestored⟩

/-! ## Runs of the two instructions -/

/-- The ModRM byte with `(%rbx)` as the area. -/
def FloatSave.modrm : FloatSave → U8
  | save => 0x03
  | restore => 0x0b

/-- Decoding one of the two with its area at `(%rbx)`. -/
theorem locates_of_bytes (hfirst : emulator.mmu.read8 emulator.cpu.rip = .ok 0x0f)
    (hsecond : emulator.mmu.read8 (emulator.cpu.rip + 1) = .ok 0xae)
    (hthird : emulator.mmu.read8 (emulator.cpu.rip + 1 + 1) = .ok instruction.modrm)
    (hshadow : emulator.cpu.gprShadow .rbx = 0) (haddress : emulator.cpu.reg .rbx = address) :
    Locates emulator instruction address
      (afterDecoding emulator (emulator.cpu.rip + 1 + 1 + 1)) := by
  have hdecode : decodeInstruction emulator =
      .ok ({}, .twoByte 0xae) (afterDecoding emulator (emulator.cpu.rip + 1 + 1)) := by
    rw [decodeInstruction, bind_of_ok (decodeOpcode_of_byte hfirst rfl)]
    exact bind_of_ok (fetch8_afterDecoding hsecond)
  have hmodrm : fetchModrm {} (afterDecoding emulator (emulator.cpu.rip + 1 + 1)) =
      .ok ⟨instruction.modrm, 0, registerAt (instruction.modrm >>> 3) false, .rbx⟩
        (afterDecoding emulator (emulator.cpu.rip + 1 + 1 + 1)) := by
    rw [fetchModrm, bind_of_ok (fetch8_afterDecoding hthird)]
    cases instruction <;> rfl
  have hparts : decodeAddressParts {}
      ⟨instruction.modrm, 0, registerAt (instruction.modrm >>> 3) false, .rbx⟩
      (afterDecoding emulator (emulator.cpu.rip + 1 + 1 + 1)) =
        .ok { base := emulator.cpu.reg .rbx, tainted := emulator.cpu.gprShadow .rbx != 0 }
          (afterDecoding emulator (emulator.cpu.rip + 1 + 1 + 1)) := by
    cases instruction <;> rfl
  rw [haddress, hshadow] at hparts
  refine ⟨{}, _, _, _, ⟨address + 0 * 1 + 0, false, 0⟩, hdecode, hmodrm, rfl, ?_, ?_, ?_⟩
  · cases instruction <;> rfl
  · rw [decodeMemoryAddress, bind_of_ok hparts]
    rfl
  · have hsum : address + 0 * 1 + 0 = address := by simp
    exact congrArg (EStateM.Result.ok · _) hsum

/-- A step of `FXSAVE` stores into its area. -/
theorem step_save_of_permits (hlocated : Locates emulator .save address located)
    (hwf : RegionsWellFormed located.mmu.regions)
    (h : PermitsArea located.mmu address protWrite) :
    ∃ mmu, step host emulator =
        .ok () ((located.withMMU mmu).withCPU (finishInstruction located.cpu)) ∧
      StoresInside address located.mmu mmu := by
  rcases fxsave_of_permits hwf h with ⟨mmu, hsave, hstores⟩
  refine ⟨mmu, ?_, hstores⟩
  rw [hlocated.step]
  exact bind_of_ok hsave

/-- A step of `FXRSTOR` returns. -/
theorem step_restore_of_permits (hlocated : Locates emulator .restore address located)
    (hwf : RegionsWellFormed located.mmu.regions)
    (h : PermitsArea located.mmu address protRead) :
    ∃ restored, step host emulator = .ok () restored := by
  rcases fxrstor_of_permits hwf h with ⟨restored, hrestore⟩
  rw [hlocated.step]
  exact ⟨_, bind_of_ok hrestore⟩

/-- What was readable outside the area is so after stores into the area. -/
theorem read8_of_stores {other : U64} {byte : U8} (hwf : RegionsWellFormed mmu.regions)
    (hstores : StoresInside address mmu mmu') (houtside : 512 ≤ (other - address).toNat)
    (h : mmu.read8 other = .ok byte) : mmu'.read8 other = .ok byte := by
  rcases (read8_eq_ok_iff hwf).mp h with ⟨hbyte, hpermits⟩
  refine (read8_eq_ok_iff hstores.wellFormed).mpr ⟨?_, ?_⟩
  · rw [hstores.outside other houtside]
    exact hbyte
  · exact (permits_congr hstores.protections).mpr hpermits

section Examples

/-- `fxsave (%rbx)` and what follows it, with the area in the same page. -/
def savingThen (code : List U8) : Emulator where
  mmu := { regions := [Emulator.pageOf 0x1000 (protRead ||| protWrite ||| protExecute)
    (0x0f :: 0xae :: 0x03 :: code)] }
  cpu := { rip := 0x1000, gpr := fun register => if register = .rbx then 0x1200 else 0 }

/-- The same program after `FXSAVE`. -/
def savedThen (mmu : SoftMMU) : Emulator where
  mmu := mmu
  cpu := { (savingThen []).cpu with
    rip := 0x1003, instructionStart := 0x1000, decodePc := 0x1003 }

variable {code : List U8}

theorem savingThen_wellFormed (h : code.length ≤ 4093) :
    RegionsWellFormed (savingThen code).mmu.regions :=
  Emulator.regionsWellFormed_pageOf (Nat.add_le_add_right h 3) (by decide) (by decide)

/-- The area is permitted. -/
theorem savingThen_permitsArea {requiredProt : Protection}
    (h : (protRead ||| protWrite ||| protExecute) &&& requiredProt = requiredProt) :
    PermitsArea (savingThen code).mmu 0x1200 requiredProt := by
  intro i hi
  refine ⟨_, Emulator.protections_pageOf ?_ ?_, h⟩
  · bv_omega
  · bv_omega

/-- The program decodes to `FXSAVE`. -/
theorem locates_savingThen :
    Locates (savingThen code) .save 0x1200 (afterDecoding (savingThen code) 0x1003) := by
  have hfirst : (savingThen code).mmu.read8 0x1000 = .ok 0x0f :=
    Emulator.read8_pageOf (by decide) (by decide) (by decide) rfl
  have hsecond : (savingThen code).mmu.read8 0x1001 = .ok 0xae :=
    Emulator.read8_pageOf (by decide) (by decide) (by decide) rfl
  have hthird : (savingThen code).mmu.read8 0x1002 = .ok 0x03 :=
    Emulator.read8_pageOf (by decide) (by decide) (by decide) rfl
  exact locates_of_bytes hfirst hsecond hthird rfl rfl

theorem step_savingThen (code : List U8) (h : code.length ≤ 4093) :
    ∃ mmu, step Emulator.quietHost (savingThen code) = .ok () (savedThen mmu) ∧
      StoresInside 0x1200 (savingThen code).mmu mmu :=
  step_save_of_permits locates_savingThen (savingThen_wellFormed h)
    (savingThen_permitsArea (by decide))

/-- The code behind `FXSAVE` is not in the area. -/
theorem read8_behind (h : code.length ≤ 509) {mmu : SoftMMU}
    (hstores : StoresInside 0x1200 (savingThen code).mmu mmu) {i : Nat} {byte : U8}
    (hbyte : code[i]? = some byte) : mmu.read8 (0x1003 + BitVec.ofNat 64 i) = .ok byte := by
  have hi : i < 509 := Nat.lt_of_lt_of_le (List.getElem?_eq_some_iff.mp hbyte).1 h
  refine read8_of_stores (savingThen_wellFormed (by omega)) hstores (by bv_omega)
    (Emulator.read8_pageOf (by bv_omega) (by bv_omega) (by decide) ?_)
  have hoffset : (0x1003 + BitVec.ofNat 64 i - 0x1000).toNat = i + 3 := by bv_omega
  rw [hoffset]
  exact hbyte

/-- With nothing in between, everything is restored. -/
theorem step_fxrstor_undoes_at_once :
    ∃ saved restored, step Emulator.quietHost (savingThen [0x0f, 0xae, 0x0b]) = .ok () saved ∧
      step Emulator.quietHost saved = .ok () restored ∧
      (restored.cpu.floatContext = (savingThen [0x0f, 0xae, 0x0b]).cpu.floatContext ↔
        SameX87 (savingThen [0x0f, 0xae, 0x0b]).cpu saved.cpu) := by
  rcases step_savingThen [0x0f, 0xae, 0x0b] (by decide) with ⟨mmu, hsaved, hstores⟩
  have hlocated : Locates (savedThen mmu) .restore 0x1200 (afterDecoding (savedThen mmu) 0x1006) :=
    locates_of_bytes (read8_behind (i := 0) (by decide) hstores rfl)
      (read8_behind (i := 1) (by decide) hstores rfl)
      (read8_behind (i := 2) (by decide) hstores rfl) rfl rfl
  have hreadable : PermitsArea mmu 0x1200 protRead :=
    (savingThen_permitsArea (by decide)).of_stores hstores
  rcases step_restore_of_permits hlocated hstores.wellFormed hreadable with ⟨restored, hrestored⟩
  exact ⟨_, restored, hsaved, hrestored, step_fxrstor_undoes_iff ⟨_, locates_savingThen⟩ hsaved
    Relation.ReflTransGen.refl ⟨_, hlocated⟩ hrestored⟩

/-- After `fld1`, `FXRSTOR` leaves the pushed value on the stack. -/
theorem fxrstor_keeps_pushed :
    ∃ saved pushed restored,
      AtFloatSave (savingThen [0xd9, 0xe8, 0x0f, 0xae, 0x0b]) .save 0x1200 ∧
      step Emulator.quietHost (savingThen [0xd9, 0xe8, 0x0f, 0xae, 0x0b]) = .ok () saved ∧
      RunsOutside 0x1200 saved pushed ∧ AtFloatSave pushed .restore 0x1200 ∧
      step Emulator.quietHost pushed = .ok () restored ∧
      restored.cpu.fpuTop ≠ (savingThen [0xd9, 0xe8, 0x0f, 0xae, 0x0b]).cpu.fpuTop := by
  rcases step_savingThen [0xd9, 0xe8, 0x0f, 0xae, 0x0b] (by decide) with
    ⟨mmu, hsaved, hstores⟩
  let pushed := (savedThen mmu).withCPU { (savedThen mmu).cpu.fpuPush LongDouble.one with
    rip := 0x1005, instructionStart := 0x1003, decodePc := 0x1005 }
  have hpush : step Emulator.quietHost (savedThen mmu) = .ok () pushed := by
    have hdecode : decodeOpcode (savedThen mmu) =
        .ok ({}, 0xd9) (afterDecoding (savedThen mmu) 0x1004) :=
      decodeOpcode_of_byte (read8_behind (i := 0) (by decide) hstores rfl) rfl
    have hmodrm : fetchModrm {} (afterDecoding (savedThen mmu) 0x1004) =
        .ok ⟨0xe8, 3, registerAt 5 false, .rax⟩ (afterDecoding (savedThen mmu) 0x1005) :=
      bind_of_ok (fetch8_afterDecoding (read8_behind (i := 1) (by decide) hstores rfl))
    have hexecute : execute Emulator.quietHost {} 0xd9 (afterDecoding (savedThen mmu) 0x1004) =
        .ok () ((afterDecoding (savedThen mmu) 0x1005).withCPU
          ((afterDecoding (savedThen mmu) 0x1005).cpu.fpuPush LongDouble.one)) := by
      change executeX87 _ 0xd9 {} _ = _
      rw [executeX87, bind_of_ok hmodrm]
      rfl
    rw [step_of_decoded hdecode, bind_of_ok hexecute]
    rfl
  have hlocated : Locates pushed .restore 0x1200 (afterDecoding pushed 0x1008) :=
    locates_of_bytes (read8_behind (i := 2) (by decide) hstores rfl)
      (read8_behind (i := 3) (by decide) hstores rfl)
      (read8_behind (i := 4) (by decide) hstores rfl) rfl rfl
  have hreadable : PermitsArea mmu 0x1200 protRead :=
    (savingThen_permitsArea (by decide)).of_stores hstores
  rcases step_restore_of_permits hlocated hstores.wellFormed hreadable with ⟨restored, hrestored⟩
  have houtside : RunsOutside 0x1200 (savedThen mmu) pushed :=
    Relation.ReflTransGen.single ⟨⟨_, hpush⟩, fun _ _ => rfl⟩
  refine ⟨_, pushed, restored, ⟨_, locates_savingThen⟩, hsaved, houtside, ⟨_, hlocated⟩, hrestored,
    ?_⟩
  rcases run_of_atFloatSave ⟨_, hlocated⟩ hrestored with
    ⟨located, final, hmachine, hrun, -, hfinal⟩
  have htop : restored.cpu.fpuTop = 7 :=
    calc restored.cpu.fpuTop = final.cpu.fpuTop := congrArg FloatContext.fpuTop hfinal
      _ = located.cpu.fpuTop := (restored_of_fxrstor hrun).x87.fpuTop
      _ = pushed.cpu.fpuTop := (congrArg SoftCPU64.fpuTop hmachine.cpu :)
      _ = 7 := rfl
  rw [htop]
  decide

end Examples

end SoftCPU64

end LUE
