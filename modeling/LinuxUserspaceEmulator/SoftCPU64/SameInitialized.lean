import LinuxUserspaceEmulator.SoftCPU64.OperandWidth
import LinuxUserspaceEmulator.SoftCPU64.RegisterLens
import LinuxUserspaceEmulator.SoftMMU.TwoMemories
import Mathlib.Tactic.FinCases

/-!
# States that differ in uninitialized data

Two states of the emulator are the same but for uninitialized data when they agree on every
register byte and memory byte whose shadow is clear, on the flags that conditions test unless
these are tainted, and on everything else.  The auxiliary carry has no shadow of its own and
no condition tests it; it is left out.

Main results:

- Theorem `SameBytes.readLane`: a lane with a clear shadow.
- Theorem `SameBytes.writeLane`: a lane written with its shadow.
- Theorem `SameFlags.setFlag`: the same flag set in both states.
-/

namespace LUE

open StateExcept LittleEndian

namespace SoftCPU64

/-! ## Registers -/

/-- Two words that agree on the bytes whose shadow is clear. -/
def SameBytes (shadow a b : U64) : Prop :=
  ∀ i < 8, byte shadow i = 0 → byte a i = byte b i

theorem getLsbD_byte (value : U64) (i : Nat) {j : Nat} (hj : j < 8) :
    (byte value i).getLsbD j = value.getLsbD (i * 8 + j) := by
  rw [byte, BitVec.getLsbD_setWidth, BitVec.getLsbD_ushiftRight]
  simp [hj]

theorem byte_and (a b : U64) (i : Nat) : byte (a &&& b) i = byte a i &&& byte b i := by
  apply BitVec.eq_of_getLsbD_eq
  intro j hj
  simp only [getLsbD_byte _ _ hj, BitVec.getLsbD_and]

theorem byte_or (a b : U64) (i : Nat) : byte (a ||| b) i = byte a i ||| byte b i := by
  apply BitVec.eq_of_getLsbD_eq
  intro j hj
  simp only [getLsbD_byte _ _ hj, BitVec.getLsbD_or]

@[simp]
theorem byte_zero (i : Nat) : byte 0 i = 0 := by
  simp [byte]

theorem byte_shiftLeft (value : U64) (i : Nat) (hi : i < 8) :
    byte (value <<< 8) i = if i = 0 then 0 else byte value (i - 1) := by
  apply BitVec.eq_of_getLsbD_eq
  intro j hj
  rw [getLsbD_byte _ _ hj, BitVec.getLsbD_shiftLeft]
  have hlt : i * 8 + j < 64 := by omega
  by_cases hfirst : i = 0
  · subst hfirst
    simp [hj]
  · have hsecond : ¬i * 8 + j < 8 := by omega
    have hindex : i * 8 + j - 8 = (i - 1) * 8 + j := by omega
    rw [if_neg hfirst, getLsbD_byte _ _ hj, hindex]
    simp [hlt, hsecond]

/-- Two words with the same bytes are the same. -/
theorem eq_of_bytes {a b : U64} (h : ∀ i < 8, byte a i = byte b i) : a = b := by
  rw [← assemble_byte a, ← assemble_byte b]
  exact assemble_congr h

namespace SameBytes

variable {shadow a b : U64}

theorem refl (shadow a : U64) : SameBytes shadow a a :=
  fun _ _ _ => rfl

/-- Nothing differs under a clear shadow. -/
theorem eq_of_zero (h : SameBytes 0 a b) : a = b :=
  eq_of_bytes fun i hi => h i hi (byte_zero i)

/-- The bytes of a mask are zero under a zero mask. -/
theorem of_mask (mask : U64) {tainted : Bool} (h : tainted = false → a = b) :
    SameBytes ((if tainted then mask else 0) &&& mask) (a &&& mask) (b &&& mask) := by
  intro i _ hclear
  cases tainted with
  | false => rw [h rfl]
  | true =>
      rw [if_pos rfl, BitVec.and_self] at hclear
      rw [byte_and, byte_and, hclear]
      simp

theorem shiftLeft (h : SameBytes shadow a b) : SameBytes (shadow <<< 8) (a <<< 8) (b <<< 8) := by
  intro i hi hclear
  rw [byte_shiftLeft _ _ hi] at hclear
  rw [byte_shiftLeft _ _ hi, byte_shiftLeft _ _ hi]
  by_cases hfirst : i = 0
  · rw [if_pos hfirst, if_pos hfirst]
  · rw [if_neg hfirst] at hclear
    rw [if_neg hfirst, if_neg hfirst]
    exact h (i - 1) (by omega) hclear

/-- Some bytes are kept and the others are replaced. -/
theorem replace {part aPart bPart keep : U64} (h : SameBytes shadow a b)
    (hpart : SameBytes part aPart bPart)
    (hkeep : ∀ i < 8, byte keep i = 0 ∨ byte keep i = BitVec.allOnes 8) :
    SameBytes (shadow &&& keep ||| part) (a &&& keep ||| aPart) (b &&& keep ||| bPart) := by
  intro i hi hclear
  rw [byte_or, byte_and] at hclear
  have hzero : byte shadow i &&& byte keep i = 0 ∧ byte part i = 0 := by
    simpa [BitVec.or_eq_zero_iff] using hclear
  rw [byte_or, byte_or, byte_and, byte_and, hpart i hi hzero.2]
  rcases hkeep i hi with hdropped | hkept
  · rw [hdropped]
    simp
  · have hshadow : byte shadow i = 0 := by
      rw [hkept, BitVec.and_allOnes] at hzero
      exact hzero.1
    rw [h i hi hshadow]

/-- Under a shadow that is clear at a width the words agree at the width. -/
theorem agreeAt {width : Width} (h : SameBytes shadow a b)
    (hclear : shadow &&& maskForWidth width = 0) : AgreeAt width a b := by
  refine AgreeAt.of_getLsbD fun i hi => ?_
  have hle := width.bits_le
  have hindex : i / 8 * 8 + i % 8 = i := by omega
  have hlow : i % 8 < 8 := Nat.mod_lt _ (by decide)
  have hbyte : byte shadow (i / 8) = 0 := by
    apply BitVec.eq_of_getLsbD_eq
    intro j hj
    have hbits : i / 8 * 8 + j < width.bits := by
      revert hi
      cases width <;> simp only [Width.bits] <;> omega
    have hbit := congrArg (fun value => value.getLsbD (i / 8 * 8 + j)) hclear
    simp only [BitVec.getLsbD_and, AgreeAt.getLsbD_maskForWidth, hbits, decide_true,
      Bool.and_true] at hbit
    rw [getLsbD_byte _ _ hj, hbit]
    simp
  have hsame := congrArg (fun value => value.getLsbD (i % 8)) (h (i / 8) (by omega) hbyte)
  simpa only [getLsbD_byte _ _ hlow, hindex] using hsame

end SameBytes

/-- Two register files that agree on the bytes whose shadow is clear. -/
def SameRegisters (shadow file file' : Register → U64) : Prop :=
  ∀ register, SameBytes (shadow register) (file register) (file' register)

/-- The lane of a high byte register. -/
theorem secondByte_eq (value : U64) : value >>> 8 &&& 0xff = (byte value 1).setWidth 64 := by
  have hmask : (0xff : U64) = maskForWidth .w8 := by decide
  apply BitVec.eq_of_getLsbD_eq
  intro j hj
  rw [hmask, BitVec.getLsbD_and, AgreeAt.getLsbD_maskForWidth, BitVec.getLsbD_ushiftRight,
    BitVec.getLsbD_setWidth]
  by_cases hlow : j < 8
  · rw [getLsbD_byte _ _ hlow]
    simp [hj, hlow, Width.bits]
  · rw [BitVec.getLsbD_of_ge (byte value 1) j (by omega)]
    simp [hlow, Width.bits]

/-- A lane with a clear shadow holds the same in both files. -/
theorem SameRegisters.readLane {shadow file file' : Register → U64}
    (h : SameRegisters shadow file file') (register : Register) (width : Width)
    (prefixes : Prefixes) (hclear : readLane shadow register width prefixes = 0) :
    readLane file register width prefixes = readLane file' register width prefixes := by
  unfold SoftCPU64.readLane at hclear ⊢
  by_cases hhigh : isHighByte register width prefixes = true
  · rw [if_pos hhigh] at hclear
    rw [if_pos hhigh, if_pos hhigh]
    rw [secondByte_eq] at hclear ⊢
    rw [secondByte_eq]
    have hbyte : byte (shadow (highByteHome register)) 1 = 0 := by
      have hnarrow := congrArg (fun value => value.setWidth 8) hclear
      simpa using hnarrow
    rw [h (highByteHome register) 1 (by decide) hbyte]
  · rw [if_neg hhigh] at hclear
    rw [if_neg hhigh, if_neg hhigh]
    exact (h register).agreeAt hclear

/-- Changing one register of all three files. -/
theorem SameRegisters.update {shadow file file' : Register → U64}
    (h : SameRegisters shadow file file') (register : Register) {part value value' : U64}
    (hsame : SameBytes part value value') :
    SameRegisters (Function.update shadow register part) (Function.update file register value)
      (Function.update file' register value') := by
  intro other
  by_cases hother : other = register
  · subst hother
    simpa only [Function.update_self] using hsame
  · simpa only [Function.update_of_ne hother] using h other

/-- A lane is written with its shadow: the values are the same unless the shadow is set. -/
theorem SameRegisters.writeLane {shadow file file' : Register → U64}
    (h : SameRegisters shadow file file') (register : Register) (width : Width)
    (prefixes : Prefixes) {tainted : Bool} {value value' : U64}
    (hvalue : tainted = false → value = value') :
    SameRegisters
      (writeLane shadow register width prefixes (if tainted then maskForWidth width else 0))
      (writeLane file register width prefixes value)
      (writeLane file' register width prefixes value') := by
  have hpart := SameBytes.of_mask (maskForWidth width) hvalue
  unfold SoftCPU64.writeLane
  by_cases hhigh : isHighByte register width prefixes = true
  · simp only [if_pos hhigh]
    exact h.update _ ((h _).replace hpart.shiftLeft (by decide))
  · simp only [if_neg hhigh]
    cases width with
    | w8 => exact h.update _ ((h _).replace hpart (by decide))
    | w16 => exact h.update _ ((h _).replace hpart (by decide))
    | w32 => exact h.update _ hpart
    | w64 => exact h.update _ hpart

/-! ## Flags -/

/-- The positions of CF, PF, ZF, SF and OF. -/
def statusBits : List Nat :=
  [0, 2, 6, 7, 11]

/-- The position of AF. -/
def adjustBit : Nat :=
  4

/-- Two flag registers that agree on the five status flags unless these are tainted, and on
everything but the auxiliary carry. -/
def SameFlags (tainted : Bool) (a b : U64) : Prop :=
  ∀ i < 64, (i ∈ statusBits → tainted = false) → i ≠ adjustBit → a.getLsbD i = b.getLsbD i

/-- The bits of the flag register after a flag was set. -/
theorem getLsbD_setFlag (cpu : SoftCPU64) (value : Bool) {k : Nat} (hk : k < 64) (i : Nat) :
    (cpu.setFlag ((1 : U64) <<< k) value).rflags.getLsbD i =
      if i = k then value else cpu.rflags.getLsbD i := by
  unfold setFlag
  cases value with
  | true =>
      simp only [if_true, BitVec.getLsbD_or, getLsbD_one_shiftLeft hk]
      by_cases hi : i = k
      · simp [hi]
      · have hne : ¬k = i := fun h => hi h.symm
        simp [hi, hne]
  | false =>
      simp only [Bool.false_eq_true, if_false, BitVec.getLsbD_and, BitVec.getLsbD_not,
        getLsbD_one_shiftLeft hk]
      by_cases hi : i = k
      · simp [hi]
      · have hne : ¬k = i := fun h => hi h.symm
        by_cases hlt : i < 64
        · simp [hi, hne, hlt]
        · rw [BitVec.getLsbD_of_ge cpu.rflags i (by omega)]
          simp [hi]

namespace SameFlags

variable {tainted tainted' : Bool} {cpu cpu' : SoftCPU64} {a b : U64}

theorem refl (a : U64) : SameFlags tainted a a :=
  fun _ _ _ _ => rfl

/-- Under taint less is compared. -/
theorem weaken (h : SameFlags tainted a b) (htainted : tainted' = false → tainted = false) :
    SameFlags tainted' a b :=
  fun i hlt hi hadjust => h i hlt (fun hmem => htainted (hi hmem)) hadjust

/-- One flag set to values that are the same if it is compared. -/
theorem setFlag (h : SameFlags tainted cpu.rflags cpu'.rflags) {k : Nat} (hk : k < 64)
    {value value' : Bool}
    (hvalue : (k ∈ statusBits → tainted = false) → k ≠ adjustBit → value = value') :
    SameFlags tainted (cpu.setFlag ((1 : U64) <<< k) value).rflags
      (cpu'.setFlag ((1 : U64) <<< k) value').rflags := by
  intro i hlt hi hadjust
  rw [getLsbD_setFlag _ _ hk, getLsbD_setFlag _ _ hk]
  by_cases hik : i = k
  · subst hik
    rw [if_pos rfl, if_pos rfl, hvalue hi hadjust]
  · rw [if_neg hik, if_neg hik, h i hlt hi hadjust]

/-- The flag of a compared bit. -/
theorem flag_eq (h : SameFlags tainted cpu.rflags cpu'.rflags) {k : Nat} (hk : k < 64)
    (hcompared : k ∈ statusBits → tainted = false) (hadjust : k ≠ adjustBit) :
    cpu.flag ((1 : U64) <<< k) = cpu'.flag ((1 : U64) <<< k) := by
  rw [flag, flag, and_one_shiftLeft_ne_zero _ hk, and_one_shiftLeft_ne_zero _ hk,
    h k hk hcompared hadjust]

/-- Untainted flags decide all conditions. -/
theorem condition_eq (h : SameFlags false cpu.rflags cpu'.rflags) (cc : U8) :
    cpu.condition cc = cpu'.condition cc := by
  have hstatus : ∀ k, k < 64 → k ≠ adjustBit →
      cpu.flag ((1 : U64) <<< k) = cpu'.flag ((1 : U64) <<< k) :=
    fun k hk hadjust => h.flag_eq hk (fun _ => rfl) hadjust
  have hCF : cpu.flag CF = cpu'.flag CF := hstatus 0 (by decide) (by decide)
  have hPF : cpu.flag PF = cpu'.flag PF := hstatus 2 (by decide) (by decide)
  have hZF : cpu.flag ZF = cpu'.flag ZF := hstatus 6 (by decide) (by decide)
  have hSF : cpu.flag SF = cpu'.flag SF := hstatus 7 (by decide) (by decide)
  have hOF : cpu.flag OF = cpu'.flag OF := hstatus 11 (by decide) (by decide)
  simp only [condition, hCF, hPF, hZF, hSF, hOF]

end SameFlags

/-- The bits of the flag register after the six arithmetic flags were set. -/
theorem getLsbD_setArithmeticFlags (cpu : SoftCPU64)
    (carry adjust sign zero parity overflow : Bool) (i : Nat) :
    (cpu.setArithmeticFlags carry adjust sign zero parity overflow).rflags.getLsbD i =
      if i = 11 then overflow else if i = 2 then parity else if i = 6 then zero
      else if i = 7 then sign else if i = 4 then adjust else if i = 0 then carry
      else cpu.rflags.getLsbD i := by
  simp only [setArithmeticFlags, CF, PF, AF, ZF, SF, OF]
  rw [getLsbD_setFlag _ _ (by decide), getLsbD_setFlag _ _ (by decide),
    getLsbD_setFlag _ _ (by decide), getLsbD_setFlag _ _ (by decide),
    getLsbD_setFlag _ _ (by decide), getLsbD_setFlag _ _ (by decide)]

/-- The bits of the flag register after a logical operation. -/
theorem getLsbD_setLogicFlags (cpu : SoftCPU64) (result : U64) (width : Width) (i : Nat) :
    (cpu.setLogicFlags result width).rflags.getLsbD i =
      if i = 2 then parityEven ((result &&& maskForWidth width).setWidth 8)
      else if i = 6 then (result &&& maskForWidth width == 0)
      else if i = 7 then (result &&& maskForWidth width &&& signBitForWidth width != 0)
      else if i = 11 then false else if i = 0 then false
      else cpu.rflags.getLsbD i := by
  simp only [setLogicFlags, updateFlagsTaint, CF, PF, ZF, SF, OF]
  rw [getLsbD_setFlag _ _ (by decide), getLsbD_setFlag _ _ (by decide),
    getLsbD_setFlag _ _ (by decide), getLsbD_setFlag _ _ (by decide),
    getLsbD_setFlag _ _ (by decide)]

/-- The six flags of an addition or a subtraction, from values that are the same if the flags
are compared afterwards. -/
theorem SameFlags.setArithmeticFlags {tainted tainted' : Bool} {cpu cpu' : SoftCPU64}
    (h : SameFlags tainted cpu.rflags cpu'.rflags)
    {carry adjust sign zero parity overflow carry' adjust' sign' zero' parity' overflow' : Bool}
    (hvalues : tainted' = false → carry = carry' ∧ sign = sign' ∧ zero = zero' ∧
      parity = parity' ∧ overflow = overflow') :
    SameFlags tainted'
      (cpu.setArithmeticFlags carry adjust sign zero parity overflow).rflags
      (cpu'.setArithmeticFlags carry' adjust' sign' zero' parity' overflow').rflags := by
  intro i hlt hi hadjust
  rw [getLsbD_setArithmeticFlags, getLsbD_setArithmeticFlags]
  by_cases hstatus : i ∈ statusBits
  · rcases hvalues (hi hstatus) with ⟨rfl, rfl, rfl, rfl, rfl⟩
    fin_cases hstatus <;> rfl
  · have hold := h i hlt (fun hmem => absurd hmem hstatus) hadjust
    simp only [statusBits, List.mem_cons, List.not_mem_nil, or_false, not_or] at hstatus
    simp only [adjustBit] at hadjust
    simp only [hstatus, hadjust, if_false, hold]

/-- The flags of a logical operation, from results that are the same if the flags are
compared afterwards. -/
theorem SameFlags.setLogicFlags {tainted tainted' : Bool} {cpu cpu' : SoftCPU64}
    (h : SameFlags tainted cpu.rflags cpu'.rflags) {result result' : U64} (width : Width)
    (hresult : tainted' = false → result = result') :
    SameFlags tainted' (cpu.setLogicFlags result width).rflags
      (cpu'.setLogicFlags result' width).rflags := by
  intro i hlt hi hadjust
  rw [getLsbD_setLogicFlags, getLsbD_setLogicFlags]
  by_cases hstatus : i ∈ statusBits
  · rw [hresult (hi hstatus)]
    fin_cases hstatus <;> rfl
  · have hold := h i hlt (fun hmem => absurd hmem hstatus) hadjust
    simp only [statusBits, List.mem_cons, List.not_mem_nil, or_false, not_or] at hstatus
    simp only [hstatus, if_false, hold]

/-! ## States -/

/-- Two CPUs that differ in uninitialized register bytes and tainted flags only. -/
structure SameInitialized (cpu cpu' : SoftCPU64) : Prop where
  rest : cpu' = { cpu with gpr := cpu'.gpr, rflags := cpu'.rflags }
  gpr : SameRegisters cpu.gprShadow cpu.gpr cpu'.gpr
  flags : SameFlags cpu.flagsTainted cpu.rflags cpu'.rflags

end SoftCPU64

/-- Two states of the emulator that differ in uninitialized data only. -/
structure Emulator.SameInitialized (emulator emulator' : Emulator) : Prop where
  rest : emulator' = { emulator with mmu := emulator'.mmu, cpu := emulator'.cpu }
  cpu : emulator.cpu.SameInitialized emulator'.cpu
  mmu : emulator.mmu.SameInitialized emulator'.mmu

namespace Emulator.SameInitialized

variable {emulator emulator' : Emulator} {cpu cpu' : SoftCPU64} {mmu mmu' : SoftMMU}

theorem refl (emulator : Emulator) : emulator.SameInitialized emulator where
  rest := rfl
  cpu := ⟨rfl, fun _ _ _ _ => rfl, fun _ _ _ _ => rfl⟩
  mmu := SoftMMU.SameInitialized.refl _

theorem withCPU (h : emulator.SameInitialized emulator') (hcpu : cpu.SameInitialized cpu') :
    (emulator.withCPU cpu).SameInitialized (emulator'.withCPU cpu') where
  rest := by
    rw [h.rest]
    rfl
  cpu := hcpu
  mmu := h.mmu

theorem withMMU (h : emulator.SameInitialized emulator') (hmmu : mmu.SameInitialized mmu') :
    (emulator.withMMU mmu).SameInitialized (emulator'.withMMU mmu') where
  rest := by
    rw [h.rest]
    rfl
  cpu := h.cpu
  mmu := hmmu

/-- Two such states have the same shadow maps. -/
theorem shadowMaps (h : emulator.SameInitialized emulator') :
    emulator'.cpu.gprShadow = emulator.cpu.gprShadow ∧
      emulator'.cpu.flagsTainted = emulator.cpu.flagsTainted ∧
        ∀ address, (emulator'.mmu.addressMap address).map Cell.initialized =
          (emulator.mmu.addressMap address).map Cell.initialized := by
  have hrest := h.cpu.rest
  refine ⟨by rw [hrest], by rw [hrest], fun address => ?_⟩
  have hcells := h.mmu.cells address
  generalize emulator.mmu.addressMap address = cell at hcells ⊢
  generalize emulator'.mmu.addressMap address = cell' at hcells ⊢
  cases hcells with
  | none => rfl
  | some hcell =>
      rw [Option.map_some, Option.map_some, hcell.rest]

end Emulator.SameInitialized

end LUE
