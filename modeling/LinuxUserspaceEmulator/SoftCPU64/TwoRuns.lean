import LinuxUserspaceEmulator.SoftCPU64.DecodePosition
import LinuxUserspaceEmulator.SoftCPU64.SameInitialized

/-!
# Two runs of one instruction

One instruction runs from two states that differ in uninitialized data only.  As long as the
instruction is untainted the values it has read are the same in both runs; what it writes
carries its taint.  An instruction fetches its bytes without shadow, so the two states must
agree on them.

Main results:

- Theorems `twoRuns_readOperand` and `twoRuns_writeOperand`: operand accesses.
- Theorem `twoRuns_executeOperation`: the eight two-operand operations.
-/

namespace LUE

open StateExcept

namespace SoftCPU64

/-! ## States inside an instruction -/

/-- The position of the decoder. -/
def position (emulator : Emulator) : Nat :=
  emulator.cpu.decodePc.toNat

/-- Programs in step up to a position of the decoder. -/
abbrev TwoRuns {α : Type} (last : Nat) (R : Emulator → Emulator → Prop)
    (x y : EmulatorProgram α) (Q : α → α → Emulator → Emulator → Prop) : Prop :=
  Lockstep position last R x y Q

/-- The two states have the same bytes between the position of the decoder and the last. -/
def SameCode (last : Nat) (s t : Emulator) : Prop :=
  ∀ address byte byte', position s ≤ address.toNat → address.toNat < last →
    s.mmu.read8 address = .ok byte → t.mmu.read8 address = .ok byte' → byte = byte'

/-- The states of the two runs inside an instruction: `P` holds as long as the instruction is
untainted, and while the instruction is fetching the code is the same. -/
structure InStep (last : Nat) (fetching : Bool) (P : Prop) (s t : Emulator) : Prop where
  same : s.SameInitialized t
  untainted : s.cpu.currentTaint = false → P
  code : fetching = true → SameCode last s t

/-! ## Operations that change the flags alone -/

/-- The second CPU is the first one with other flags. -/
def OnlyFlags (cpu cpu' : SoftCPU64) : Prop :=
  ∃ rflags, cpu' = { cpu with rflags := rflags }

namespace OnlyFlags

variable {cpu cpu' : SoftCPU64}

theorem refl (cpu : SoftCPU64) : OnlyFlags cpu cpu :=
  ⟨cpu.rflags, rfl⟩

theorem setFlag (h : OnlyFlags cpu cpu') (flagValue : U64) (value : Bool) :
    OnlyFlags cpu (cpu'.setFlag flagValue value) := by
  rcases h with ⟨rflags, rfl⟩
  exact ⟨_, rfl⟩

/-- The taint of the flags on top. -/
theorem updateFlagsTaint (h : OnlyFlags cpu cpu') :
    cpu'.updateFlagsTaint =
      { cpu with rflags := cpu'.updateFlagsTaint.rflags, flagsTainted := cpu.currentTaint } := by
  rcases h with ⟨rflags, rfl⟩
  rfl

theorem setArithmeticFlags (cpu : SoftCPU64) (carry adjust sign zero parity overflow : Bool) :
    OnlyFlags cpu (cpu.setArithmeticFlags carry adjust sign zero parity overflow) :=
  ((((((refl cpu).setFlag CF carry).setFlag AF adjust).setFlag SF sign).setFlag ZF zero).setFlag
    PF parity).setFlag OF overflow

end OnlyFlags

/-- A logical operation changes the flags and their taint. -/
theorem setLogicFlags_eq (cpu : SoftCPU64) (result : U64) (width : Width) :
    cpu.setLogicFlags result width =
      { cpu with
        rflags := (cpu.setLogicFlags result width).rflags, flagsTainted := cpu.currentTaint } :=
  (((((OnlyFlags.refl cpu).setFlag CF false).setFlag OF false).setFlag SF _).setFlag ZF _).setFlag
    PF _ |>.updateFlagsTaint

/-- So does an addition. -/
theorem add_snd_eq (cpu : SoftCPU64) (lhs rhs : U64) (width : Width) (withCarry : Bool) :
    (cpu.add lhs rhs width withCarry).2 =
      { cpu with
        rflags := (cpu.add lhs rhs width withCarry).2.rflags, flagsTainted := cpu.currentTaint } :=
  (OnlyFlags.setArithmeticFlags cpu _ _ _ _ _ _).updateFlagsTaint

/-- So does a subtraction. -/
theorem sub_snd_eq (cpu : SoftCPU64) (lhs rhs : U64) (width : Width) (withBorrow : Bool) :
    (cpu.sub lhs rhs width withBorrow).2 =
      { cpu with
        rflags := (cpu.sub lhs rhs width withBorrow).2.rflags
        flagsTainted := cpu.currentTaint } :=
  (OnlyFlags.setArithmeticFlags cpu _ _ _ _ _ _).updateFlagsTaint

/-- The flags of an addition, from its operands, its carry and its result. -/
theorem rflags_add (cpu : SoftCPU64) (lhs rhs : U64) (width : Width) (withCarry : Bool) :
    (cpu.add lhs rhs width withCarry).2.rflags =
      (cpu.setArithmeticFlags
        (decide (maskForWidth width < (lhs &&& maskForWidth width) +
          (rhs &&& maskForWidth width) + if carryIn cpu withCarry then 1 else 0))
        ((lhs ^^^ rhs ^^^ (cpu.add lhs rhs width withCarry).1) &&& 0x10 != 0)
        ((cpu.add lhs rhs width withCarry).1 &&& signBitForWidth width != 0)
        ((cpu.add lhs rhs width withCarry).1 == 0)
        (parityEven ((cpu.add lhs rhs width withCarry).1.setWidth 8))
        (~~~(lhs ^^^ rhs) &&& (lhs ^^^ (cpu.add lhs rhs width withCarry).1) &&&
          signBitForWidth width != 0)).rflags :=
  rfl

/-- The flags of a subtraction. -/
theorem rflags_sub (cpu : SoftCPU64) (lhs rhs : U64) (width : Width) (withBorrow : Bool) :
    (cpu.sub lhs rhs width withBorrow).2.rflags =
      (cpu.setArithmeticFlags
        (decide (lhs &&& maskForWidth width < (rhs &&& maskForWidth width) +
          if carryIn cpu withBorrow then 1 else 0))
        ((lhs ^^^ rhs ^^^ (cpu.sub lhs rhs width withBorrow).1) &&& 0x10 != 0)
        ((cpu.sub lhs rhs width withBorrow).1 &&& signBitForWidth width != 0)
        ((cpu.sub lhs rhs width withBorrow).1 == 0)
        (parityEven ((cpu.sub lhs rhs width withBorrow).1.setWidth 8))
        ((lhs ^^^ rhs) &&& (lhs ^^^ (cpu.sub lhs rhs width withBorrow).1) &&&
          signBitForWidth width != 0)).rflags :=
  rfl

variable {last : Nat} {fetching : Bool} {P P' : Prop}
  {s t : Emulator} {cpu cpu' : SoftCPU64} {α : Type}

namespace SameInitialized

theorem field {β : Type} (h : cpu.SameInitialized cpu') (f : SoftCPU64 → β)
    (hf : ∀ gpr rflags, f { cpu with gpr := gpr, rflags := rflags } = f cpu) :
    f cpu' = f cpu := by
  rw [h.rest]
  exact hf _ _

theorem currentTaint (h : cpu.SameInitialized cpu') : cpu'.currentTaint = cpu.currentTaint :=
  h.field SoftCPU64.currentTaint fun _ _ => rfl

theorem flagsTainted (h : cpu.SameInitialized cpu') : cpu'.flagsTainted = cpu.flagsTainted :=
  h.field SoftCPU64.flagsTainted fun _ _ => rfl

theorem gprShadow (h : cpu.SameInitialized cpu') : cpu'.gprShadow = cpu.gprShadow :=
  h.field SoftCPU64.gprShadow fun _ _ => rfl

theorem decodePc (h : cpu.SameInitialized cpu') : cpu'.decodePc = cpu.decodePc :=
  h.field SoftCPU64.decodePc fun _ _ => rfl

/-- A change of the CPU that leaves registers and flags alone and does not look at them. -/
theorem map (h : cpu.SameInitialized cpu') (f : SoftCPU64 → SoftCPU64)
    (hrest : ∀ gpr rflags, f { cpu with gpr := gpr, rflags := rflags } =
      { f cpu with gpr := gpr, rflags := rflags })
    (hkeeps : f cpu = { f cpu with
      gpr := cpu.gpr, rflags := cpu.rflags, gprShadow := cpu.gprShadow,
      flagsTainted := cpu.flagsTainted }) :
    (f cpu).SameInitialized (f cpu') := by
  have hother := hrest cpu'.gpr cpu'.rflags
  rw [← h.rest] at hother
  rw [hother, hkeeps]
  exact ⟨rfl, h.gpr, h.flags⟩

theorem setDecodePc (h : cpu.SameInitialized cpu') (pc : U64) :
    (cpu.setDecodePc pc).SameInitialized (cpu'.setDecodePc pc) :=
  h.map (fun cpu => cpu.setDecodePc pc) (fun _ _ => rfl) rfl

theorem taint (h : cpu.SameInitialized cpu') : cpu.taint.SameInitialized cpu'.taint :=
  h.map SoftCPU64.taint (fun _ _ => rfl) rfl

theorem warnUninitializedRead (h : cpu.SameInitialized cpu') :
    cpu.warnUninitializedRead.SameInitialized cpu'.warnUninitializedRead := by
  refine h.map SoftCPU64.warnUninitializedRead (fun gpr rflags => ?_) ?_
  · unfold SoftCPU64.warnUninitializedRead
    dsimp only
    split <;> rfl
  · unfold SoftCPU64.warnUninitializedRead
    split <;> rfl

theorem warnUninitializedPointer (h : cpu.SameInitialized cpu') :
    cpu.warnUninitializedPointer.SameInitialized cpu'.warnUninitializedPointer := by
  refine h.map SoftCPU64.warnUninitializedPointer (fun gpr rflags => ?_) ?_
  · unfold SoftCPU64.warnUninitializedPointer
    dsimp only
    split <;> rfl
  · unfold SoftCPU64.warnUninitializedPointer
    split <;> rfl

/-- A register lane written with the taint of the instruction. -/
theorem withGpr (h : cpu.SameInitialized cpu') (register : Register) (width : Width)
    (prefixes : Prefixes) {value value' : U64}
    (hvalue : cpu.currentTaint = false → value = value') :
    (cpu.withGpr register width value prefixes).SameInitialized
      (cpu'.withGpr register width value' prefixes) where
  rest := by
    rw [h.rest]
    rfl
  gpr := h.gpr.writeLane register width prefixes hvalue
  flags := h.flags

/-- One flag set to values that are the same if the flag is compared. -/
theorem setFlag (h : cpu.SameInitialized cpu') {k : Nat} (hk : k < 64) {value value' : Bool}
    (hvalue : (k ∈ statusBits → cpu.flagsTainted = false) → k ≠ adjustBit → value = value') :
    (cpu.setFlag ((1 : U64) <<< k) value).SameInitialized
      (cpu'.setFlag ((1 : U64) <<< k) value') where
  rest := by
    rw [h.rest]
    rfl
  gpr := h.gpr
  flags := h.flags.setFlag hk hvalue

/-- The flags replaced, with the taint of the instruction. -/
theorem withFlags (h : cpu.SameInitialized cpu') {rflags rflags' : U64}
    (hflags : SameFlags cpu.currentTaint rflags rflags') :
    ({ cpu with rflags := rflags, flagsTainted := cpu.currentTaint } : SoftCPU64).SameInitialized
      { cpu' with rflags := rflags', flagsTainted := cpu'.currentTaint } where
  rest := by
    rw [h.rest]
  gpr := h.gpr
  flags := hflags

/-- The flags of a logical operation on values that are the same if it is untainted. -/
theorem setLogicFlags (h : cpu.SameInitialized cpu') {result result' : U64} (width : Width)
    (hresult : cpu.currentTaint = false → result = result') :
    (cpu.setLogicFlags result width).SameInitialized (cpu'.setLogicFlags result' width) := by
  rw [setLogicFlags_eq, setLogicFlags_eq cpu']
  exact h.withFlags (h.flags.setLogicFlags width hresult)

/-- An addition of values that are the same if it is untainted. -/
theorem add (h : cpu.SameInitialized cpu') {lhs rhs lhs' rhs' : U64} (width : Width)
    (withCarry : Bool)
    (hvalues : cpu.currentTaint = false → lhs = lhs' ∧ rhs = rhs' ∧
      carryIn cpu withCarry = carryIn cpu' withCarry) :
    (cpu.add lhs rhs width withCarry).2.SameInitialized
      (cpu'.add lhs' rhs' width withCarry).2 ∧
    (cpu.currentTaint = false →
      (cpu.add lhs rhs width withCarry).1 = (cpu'.add lhs' rhs' width withCarry).1) := by
  have hresult : cpu.currentTaint = false →
      (cpu.add lhs rhs width withCarry).1 = (cpu'.add lhs' rhs' width withCarry).1 := by
    intro htaint
    rcases hvalues htaint with ⟨rfl, rfl, hcarry⟩
    rw [add_fst, add_fst, hcarry]
  refine ⟨?_, hresult⟩
  rw [add_snd_eq, add_snd_eq cpu']
  refine h.withFlags ?_
  rw [rflags_add, rflags_add]
  refine h.flags.setArithmeticFlags fun htaint => ?_
  rw [hresult htaint]
  rcases hvalues htaint with ⟨rfl, rfl, hcarry⟩
  rw [hcarry]
  exact ⟨rfl, rfl, rfl, rfl, rfl⟩

/-- A subtraction of values that are the same if it is untainted. -/
theorem sub (h : cpu.SameInitialized cpu') {lhs rhs lhs' rhs' : U64} (width : Width)
    (withBorrow : Bool)
    (hvalues : cpu.currentTaint = false → lhs = lhs' ∧ rhs = rhs' ∧
      carryIn cpu withBorrow = carryIn cpu' withBorrow) :
    (cpu.sub lhs rhs width withBorrow).2.SameInitialized
      (cpu'.sub lhs' rhs' width withBorrow).2 ∧
    (cpu.currentTaint = false →
      (cpu.sub lhs rhs width withBorrow).1 = (cpu'.sub lhs' rhs' width withBorrow).1) := by
  have hresult : cpu.currentTaint = false →
      (cpu.sub lhs rhs width withBorrow).1 = (cpu'.sub lhs' rhs' width withBorrow).1 := by
    intro htaint
    rcases hvalues htaint with ⟨rfl, rfl, hcarry⟩
    rw [sub_fst, sub_fst, hcarry]
  refine ⟨?_, hresult⟩
  rw [sub_snd_eq, sub_snd_eq cpu']
  refine h.withFlags ?_
  rw [rflags_sub, rflags_sub]
  refine h.flags.setArithmeticFlags fun htaint => ?_
  rw [hresult htaint]
  rcases hvalues htaint with ⟨rfl, rfl, hcarry⟩
  rw [hcarry]
  exact ⟨rfl, rfl, rfl, rfl, rfl⟩

end SameInitialized

/-! ## Programs in step -/

variable {R : Emulator → Emulator → Prop}

/-- A change of the CPUs that leaves the decoder in place. -/
theorem InStep.withCPU (h : InStep last fetching P s t)
    (hcpu : cpu.SameInitialized cpu') (hpc : cpu.decodePc = s.cpu.decodePc)
    (huntainted : cpu.currentTaint = false → P') :
    InStep last fetching P' (s.withCPU cpu) (t.withCPU cpu') where
  same := h.same.withCPU hcpu
  untainted := huntainted
  code := by
    intro hfetching address byte byte' hposition
    rw [position, Emulator.withCPU_cpu, hpc] at hposition
    exact h.code hfetching address byte byte' hposition

/-- Less may be known about values. -/
theorem InStep.mono (h : InStep last fetching P s t) (hP : P → P') :
    InStep last fetching P' s t where
  same := h.same
  untainted := fun htaint => hP (h.untainted htaint)
  code := h.code

/-- An instruction that has fetched all its bytes. -/
theorem InStep.fetched (h : InStep last fetching P s t) : InStep last false P s t where
  same := h.same
  untainted := h.untainted
  code := nofun

theorem twoRuns_modifyCPU {f g : SoftCPU64 → SoftCPU64}
    {Q : Unit → Unit → Emulator → Emulator → Prop}
    (hpc : ∀ cpu, (f cpu).decodePc = cpu.decodePc)
    (h : ∀ s t, R s t → Q () () (s.withCPU (f s.cpu)) (t.withCPU (g t.cpu))) :
    TwoRuns last R (modifyCPU f) (modifyCPU g) Q :=
  Lockstep.modify (fun s => congrArg BitVec.toNat (hpc s.cpu)) h

theorem twoRuns_unsupported {x y : EmulatorProgram α} {message : String}
    {Q : α → α → Emulator → Emulator → Prop} (hx : x = unsupported message) :
    TwoRuns last R x y Q := by
  refine Lockstep.of_ne_ok fun h => ?_
  rw [hx, unsupported, bind_of_ok (getCPU_apply _)] at h
  rcases bind_eq_ok_iff.mp h with ⟨bytes, middle, -, hthrow⟩
  cases hthrow

/-! ### Registers -/

/-- The state after a register was read. -/
def afterReadGpr (register : Register) (width : Width) (prefixes : Prefixes)
    (emulator : Emulator) : Emulator :=
  if readLane emulator.cpu.gprShadow register width prefixes = 0 then emulator
  else emulator.withCPU emulator.cpu.taint

theorem readGpr_apply (register : Register) (width : Width) (prefixes : Prefixes)
    (emulator : Emulator) :
    readGpr register width prefixes emulator =
      .ok (readLane emulator.cpu.gpr register width prefixes)
        (afterReadGpr register width prefixes emulator) := by
  rw [readGpr, bind_of_ok (getCPU_apply emulator), afterReadGpr]
  by_cases hclear : readLane emulator.cpu.gprShadow register width prefixes = 0
  · have hnot : ¬readLane emulator.cpu.gprShadow register width prefixes ≠ 0 := fun h => h hclear
    rw [if_neg hnot, if_pos hclear]
    rfl
  · rw [if_pos hclear, if_neg hclear]
    rfl

theorem twoRuns_readGpr (register : Register) (width : Width) (prefixes : Prefixes) :
    TwoRuns last (InStep last fetching P) (readGpr register width prefixes)
      (readGpr register width prefixes)
      fun a b => InStep last fetching (P ∧ a = b) where
  grows := by
    intro s a s' h
    exact Nat.le_of_eq (congrArg BitVec.toNat
      ((keepsPosition_readGpr register width prefixes).eq_of_ok h).symm)
  related := by
    intro s t a b s' t' hst h h' _
    rw [readGpr_apply] at h h'
    cases h
    cases h'
    have hshadow := hst.same.cpu.gprShadow
    unfold afterReadGpr
    rw [hshadow]
    by_cases hclear : readLane s.cpu.gprShadow register width prefixes = 0
    · rw [if_pos hclear, if_pos hclear]
      exact hst.mono fun hP => ⟨hP, hst.same.cpu.gpr.readLane register width prefixes hclear⟩
    · rw [if_neg hclear, if_neg hclear]
      exact hst.withCPU hst.same.cpu.taint rfl nofun

theorem twoRuns_writeGpr (register : Register) (width : Width) (prefixes : Prefixes)
    {value value' : U64} (hvalue : P → value = value') :
    TwoRuns last (InStep last fetching P) (writeGpr register width value prefixes)
      (writeGpr register width value' prefixes) fun _ _ => InStep last fetching P := by
  refine twoRuns_modifyCPU (fun _ => rfl) fun s t hst => ?_
  have hcpu := hst.same.cpu.withGpr register width prefixes
    fun htaint => hvalue (hst.untainted htaint)
  exact hst.withCPU hcpu rfl hst.untainted

/-! ### Memory -/

theorem lockstep_readMemoryOperand (address : U64) (width : Width) :
    Lockstep (fun _ => 0) 0 SoftMMU.SameInitialized (readMemoryOperand address width)
      (readMemoryOperand address width)
      fun v v' mmu mmu' => v.SameInitialized v' ∧ mmu.SameInitialized mmu' := by
  cases width with
  | w8 =>
      refine (SoftMMU.lockstep_read8WithShadow address).bind fun v v' =>
        Lockstep.pure fun mmu mmu' h => ⟨?_, h.2⟩
      have hflag : v.isUninitialized = v'.isUninitialized := by
        rw [ValueWithShadow.isUninitialized, h.1.shadow]
        rfl
      refine ⟨?_, fun hclear => ?_⟩
      · rw [hflag]
      · have hshadow : v.shadow = 0 := by
          by_contra hset
          have huninitialized : v.isUninitialized = true := by
            simpa [ValueWithShadow.isUninitialized] using hset
          rw [huninitialized] at hclear
          cases hclear
        rw [h.1.value hshadow]
  | w16 => exact SoftMMU.lockstep_readIntegerWithShadow address (by decide)
  | w32 => exact SoftMMU.lockstep_readIntegerWithShadow address (by decide)
  | w64 => exact SoftMMU.lockstep_readIntegerWithShadow address (by decide)

theorem regions_of_readMemoryOperand {address : U64} {width : Width} {mmu mmu' : SoftMMU}
    {value : ValueWithShadow 64} (h : readMemoryOperand address width mmu = .ok value mmu') :
    mmu'.regions = mmu.regions := by
  cases width with
  | w8 =>
      rcases bind_eq_ok_iff.mp h with ⟨byte, after, hread, hreturn⟩
      cases hreturn
      exact (SoftMMU.read8WithShadow_eq_ok hread).2
  | w16 => exact (SoftMMU.readIntegerWithShadow_eq_ok h).2
  | w32 => exact (SoftMMU.readIntegerWithShadow_eq_ok h).2
  | w64 => exact (SoftMMU.readIntegerWithShadow_eq_ok h).2

/-- Every byte of a full shadow is set. -/
theorem byte_maskForWidth_ne_zero (width : Width) :
    ∀ i < width.bytes, LittleEndian.byte (maskForWidth width) i ≠ 0 := by
  cases width <;> decide

theorem lockstep_writeMemoryOperand (address : U64) (width : Width) {value value' : U64}
    (tainted : Bool) (hvalue : tainted = false → value = value') :
    Lockstep (fun _ => 0) 0 SoftMMU.SameInitialized
      (writeMemoryOperand address width value tainted)
      (writeMemoryOperand address width value' tainted) fun _ _ => SoftMMU.SameInitialized := by
  have hinteger : ∀ count ≤ width.bytes, Lockstep (fun _ => 0) 0 SoftMMU.SameInitialized
      (SoftMMU.writeIntegerWithShadow address
        ⟨value, if tainted then maskForWidth width else 0⟩ count)
      (SoftMMU.writeIntegerWithShadow address
        ⟨value', if tainted then maskForWidth width else 0⟩ count)
      fun _ _ => SoftMMU.SameInitialized := by
    intro count hcount
    refine SoftMMU.lockstep_writeIntegerWithShadow address rfl fun i hi hclear => ?_
    cases tainted with
    | false => rw [hvalue rfl]
    | true =>
        have hlt : i < width.bytes := Nat.lt_of_lt_of_le hi hcount
        exact absurd hclear (byte_maskForWidth_ne_zero width i hlt)
  cases width with
  | w8 =>
      refine SoftMMU.lockstep_write8WithShadow address ⟨rfl, fun hclear => ?_⟩
      cases tainted with
      | false => rw [hvalue rfl]
      | true => cases hclear
  | w16 => exact hinteger 2 (Nat.le_refl 2)
  | w32 => exact hinteger 4 (Nat.le_refl 4)
  | w64 => exact hinteger 8 (Nat.le_refl 8)

/-! ### Operands -/

/-- A program that leaves the decoder in place does not fall behind. -/
theorem KeepsPosition.grows {program : EmulatorProgram α} (hkeeps : KeepsPosition program)
    {s s' : Emulator} {a : α} (h : program s = .ok a s') : position s ≤ position s' :=
  Nat.le_of_eq (congrArg BitVec.toNat (hkeeps.eq_of_ok h).symm)

/-- The code is the same as long as the regions of both memories are. -/
theorem SameCode.of_regions {s' t' : Emulator} (h : SameCode last s t)
    (hposition : position s ≤ position s') (hregions : s'.mmu.regions = s.mmu.regions)
    (hregions' : t'.mmu.regions = t.mmu.regions) : SameCode last s' t' := by
  intro address byte byte' hfrom hto hread hread'
  have hsame : ∀ {mmu mmu' : SoftMMU}, mmu'.regions = mmu.regions →
      mmu'.read8 address = mmu.read8 address := by
    intro mmu mmu' hregions
    simp only [SoftMMU.read8, SoftMMU.regionFor, SoftMMU.findRegion, hregions]
  rw [hsame hregions] at hread
  rw [hsame hregions'] at hread'
  exact h address byte byte' (Nat.le_trans hposition hfrom) hto hread hread'

/-- The address of an operand depends on the position of the decoder alone. -/
theorem twoRuns_effectiveAddress (decoded : DecodedAddress) :
    TwoRuns last (InStep last fetching P) (effectiveAddress decoded) (effectiveAddress decoded)
      fun a b s t => a = b ∧ InStep last fetching P s t where
  grows := (keepsPosition_effectiveAddress decoded).grows
  related := by
    intro s t a b s' t' hst h h' _
    cases h
    cases h'
    rw [hst.same.cpu.decodePc]
    exact ⟨rfl, hst⟩

theorem twoRuns_readMemoryOperand (address : U64) (width : Width) :
    TwoRuns last (InStep last fetching P) (onMMU (readMemoryOperand address width))
      (onMMU (readMemoryOperand address width))
      fun v v' s t => v.SameInitialized v' ∧ InStep last fetching P s t := by
  refine Lockstep.onPart (lockstep_readMemoryOperand address width) (fun _ _ => rfl)
    (fun s t hst => hst.same.mmu) ?_
  intro s t v v' mmu mmu' hst hread hread' hsame
  refine ⟨hsame.1, hst.same.withMMU hsame.2, hst.untainted, fun hfetching => ?_⟩
  exact (hst.code hfetching).of_regions (Nat.le_refl _) (regions_of_readMemoryOperand hread)
    (regions_of_readMemoryOperand hread')

/-- An operand that was read without taint is the same in both runs. -/
theorem twoRuns_readOperand (operand : Operand) (width : Width) (prefixes : Prefixes) :
    TwoRuns last (InStep last fetching P) (readOperand operand width prefixes)
      (readOperand operand width prefixes)
      fun a b => InStep last fetching (P ∧ a = b) := by
  cases operand with
  | register register => exact twoRuns_readGpr register width prefixes
  | memory decoded =>
      refine (twoRuns_effectiveAddress decoded).bindSame fun address =>
        (twoRuns_readMemoryOperand address width).bindRelated (fun _ => ⟨rfl, fun _ => rfl⟩)
          fun v v' hvalue => ?_
      have hflag : v'.isUninitialized = v.isUninitialized := by
        rw [ValueWithShadow.isUninitialized, ← hvalue.shadow]
        rfl
      rw [hflag]
      refine Lockstep.ite (fun huninitialized => ?_) fun hinitialized => ?_
      · refine (twoRuns_modifyCPU (Q := fun _ _ => InStep last fetching (P ∧ v.value = v'.value))
          (fun cpu => decodePc_warnUninitializedRead cpu.taint) fun s t hst => ?_).bind
          fun _ _ => Lockstep.pure fun s t hst => hst
        refine hst.withCPU hst.same.cpu.taint.warnUninitializedRead
          (decodePc_warnUninitializedRead s.cpu.taint) fun htaint => ?_
        have htainted : s.cpu.taint.warnUninitializedRead.currentTaint = true := by
          unfold warnUninitializedRead
          split <;> rfl
        rw [htainted] at htaint
        cases htaint
      · refine Lockstep.pure fun s t hst => hst.mono fun hP => ⟨hP, hvalue.value ?_⟩
        simpa [ValueWithShadow.isUninitialized] using hinitialized

/-- An operand is written with the taint of the instruction. -/
theorem twoRuns_writeOperand (operand : Operand) (width : Width) (prefixes : Prefixes)
    {value value' : U64} (hvalue : P → value = value') :
    TwoRuns last (InStep last fetching P) (writeOperand operand width value prefixes)
      (writeOperand operand width value' prefixes) fun _ _ => InStep last false P := by
  have hmasked : P → value &&& maskForWidth width = value' &&& maskForWidth width :=
    fun hP => congrArg (· &&& maskForWidth width) (hvalue hP)
  cases operand with
  | register register =>
      exact (twoRuns_writeGpr register width prefixes hmasked).weaken (fun _ _ hst => hst)
        fun _ _ _ _ hst => hst.fetched
  | memory decoded =>
      refine (twoRuns_effectiveAddress decoded).bindSame fun address => ?_
      refine ⟨(KeepsPosition.getCPU.bind fun _ => KeepsPosition.onMMU _).grows, ?_⟩
      intro s t a b s' t' hst h h' _
      rw [bind_of_ok (getCPU_apply s)] at h
      rw [bind_of_ok (getCPU_apply t), hst.same.cpu.currentTaint] at h'
      rcases onMMU_eq_ok_iff.mp h with ⟨mmu, hmmu, rfl⟩
      rcases onMMU_eq_ok_iff.mp h' with ⟨mmu', hmmu', rfl⟩
      have hwrite := lockstep_writeMemoryOperand address width s.cpu.currentTaint
        fun htaint => hmasked (hst.untainted htaint)
      have hsame := hwrite.related hst.same.mmu hmmu hmmu' (Nat.le_refl 0)
      exact ⟨hst.same.withMMU hsame, hst.untainted, nofun⟩

/-! ### Operations -/

/-- The logical flags of results that are the same if the instruction is untainted. -/
theorem twoRuns_setLogicFlags (width : Width) {result result' : U64}
    (hresult : P → result = result') :
    TwoRuns last (InStep last fetching P)
      (modifyCPU fun cpu => cpu.setLogicFlags result width)
      (modifyCPU fun cpu => cpu.setLogicFlags result' width)
      fun _ _ => InStep last fetching P := by
  refine twoRuns_modifyCPU (fun cpu => decodePc_setLogicFlags cpu result width) fun s t hst => ?_
  refine hst.withCPU (hst.same.cpu.setLogicFlags width fun htaint =>
    hresult (hst.untainted htaint)) (decodePc_setLogicFlags s.cpu result width) ?_
  rw [setLogicFlags_eq]
  exact hst.untainted

/-- The states agree on the carry flag as long as the instruction is untainted. -/
def SameCarry (s t : Emulator) : Prop :=
  s.cpu.currentTaint = false → s.cpu.flag CF = t.cpu.flag CF

/-- The carry taken in is the same when the carry flag is, or when none is taken in. -/
theorem carryIn_eq {withCarry : Bool} (hcarry : withCarry = true → SameCarry s t)
    (htaint : s.cpu.currentTaint = false) :
    carryIn s.cpu withCarry = carryIn t.cpu withCarry := by
  cases withCarry with
  | false => rfl
  | true => rw [carryIn, carryIn, hcarry rfl htaint]

theorem twoRuns_add (width : Width) (withCarry : Bool) {lhs rhs lhs' rhs' : U64}
    (hvalues : P → lhs = lhs' ∧ rhs = rhs') :
    TwoRuns last (fun s t => InStep last fetching P s t ∧ (withCarry = true → SameCarry s t))
      (onCPU fun cpu => cpu.add lhs rhs width withCarry)
      (onCPU fun cpu => cpu.add lhs' rhs' width withCarry)
      fun a b => InStep last fetching (P ∧ a = b) where
  grows := (keepsPosition_add lhs rhs width withCarry).grows
  related := by
    intro s t a b s' t' hst h h' _
    cases h
    cases h'
    have hadd := hst.1.same.cpu.add width withCarry fun htaint =>
      have hsame := hvalues (hst.1.untainted htaint)
      ⟨hsame.1, hsame.2, carryIn_eq hst.2 htaint⟩
    refine hst.1.withCPU hadd.1 (decodePc_add _ _ _ _ _) ?_
    rw [add_snd_eq]
    exact fun htaint => ⟨hst.1.untainted htaint, hadd.2 htaint⟩

theorem twoRuns_sub (width : Width) (withBorrow : Bool) {lhs rhs lhs' rhs' : U64}
    (hvalues : P → lhs = lhs' ∧ rhs = rhs') :
    TwoRuns last (fun s t => InStep last fetching P s t ∧ (withBorrow = true → SameCarry s t))
      (onCPU fun cpu => cpu.sub lhs rhs width withBorrow)
      (onCPU fun cpu => cpu.sub lhs' rhs' width withBorrow)
      fun a b => InStep last fetching (P ∧ a = b) where
  grows := (keepsPosition_sub lhs rhs width withBorrow).grows
  related := by
    intro s t a b s' t' hst h h' _
    cases h
    cases h'
    have hsub := hst.1.same.cpu.sub width withBorrow fun htaint =>
      have hsame := hvalues (hst.1.untainted htaint)
      ⟨hsame.1, hsame.2, carryIn_eq hst.2 htaint⟩
    refine hst.1.withCPU hsub.1 (decodePc_sub _ _ _ _ _) ?_
    rw [sub_snd_eq]
    exact fun htaint => ⟨hst.1.untainted htaint, hsub.2 htaint⟩

section ExecuteOperation

variable {lhs rhs lhs' rhs' mask : U64} {width : Width} {write write' : U64 → EmulatorProgram Unit}

/-- A logical operation and the write of its result. -/
theorem twoRuns_logicOperation {result result' : U64} (hresult : P → result = result')
    (hwrite : ∀ value value', TwoRuns last (InStep last fetching (P ∧ value = value'))
      (write value) (write' value') fun _ _ => InStep last false True) :
    TwoRuns last (InStep last fetching P)
      (do modifyCPU fun cpu => cpu.setLogicFlags result width; write result)
      (do modifyCPU fun cpu => cpu.setLogicFlags result' width; write' result')
      fun _ _ => InStep last false True :=
  (twoRuns_setLogicFlags width hresult).bind fun _ _ =>
    (hwrite result result').weaken (fun _ _ hst => hst.mono fun hP => ⟨hP, hresult hP⟩)
      fun _ _ _ _ hst => hst

/-- The eight operations on values that are the same if the instruction is untainted.  Those
that take the carry in need the same carry. -/
theorem twoRuns_executeOperation (operation : Nat) (hvalues : P → lhs = lhs' ∧ rhs = rhs')
    (hwrite : ∀ value value', TwoRuns last (InStep last fetching (P ∧ value = value'))
      (write value) (write' value') fun _ _ => InStep last false True) :
    TwoRuns last
      (fun s t => InStep last fetching P s t ∧ (operation = 2 ∨ operation = 3 → SameCarry s t))
      (executeOperation operation lhs rhs width mask write)
      (executeOperation operation lhs' rhs' width mask write')
      fun _ _ => InStep last false True := by
  have hnone : ∀ s t : Emulator, InStep last fetching P s t →
      InStep last fetching P s t ∧ (false = true → SameCarry s t) :=
    fun s t hst => ⟨hst, nofun⟩
  unfold executeOperation
  split
  · exact ((twoRuns_add width false hvalues).bind hwrite).weaken
      (fun s t hst => hnone s t hst.1) fun _ _ _ _ hst => hst
  · refine (twoRuns_logicOperation (fun hP => ?_) hwrite).weaken (fun _ _ hst => hst.1)
      fun _ _ _ _ hst => hst
    rw [(hvalues hP).1, (hvalues hP).2]
  · exact ((twoRuns_add width true hvalues).bind hwrite).weaken
      (fun s t hst => ⟨hst.1, fun _ => hst.2 (Or.inl rfl)⟩) fun _ _ _ _ hst => hst
  · exact ((twoRuns_sub width true hvalues).bind hwrite).weaken
      (fun s t hst => ⟨hst.1, fun _ => hst.2 (Or.inr rfl)⟩) fun _ _ _ _ hst => hst
  · refine (twoRuns_logicOperation (fun hP => ?_) hwrite).weaken (fun _ _ hst => hst.1)
      fun _ _ _ _ hst => hst
    rw [(hvalues hP).1, (hvalues hP).2]
  · exact ((twoRuns_sub width false hvalues).bind hwrite).weaken
      (fun s t hst => hnone s t hst.1) fun _ _ _ _ hst => hst
  · refine (twoRuns_logicOperation (fun hP => ?_) hwrite).weaken (fun _ _ hst => hst.1)
      fun _ _ _ _ hst => hst
    rw [(hvalues hP).1, (hvalues hP).2]
  · exact ((twoRuns_sub width false hvalues).bind fun _ _ => Lockstep.pure fun _ _ hst =>
      hst.fetched.mono fun _ => trivial).weaken (fun s t hst => hnone s t hst.1)
        fun _ _ _ _ hst => hst
  · exact twoRuns_unsupported rfl

end ExecuteOperation

end SoftCPU64

end LUE
