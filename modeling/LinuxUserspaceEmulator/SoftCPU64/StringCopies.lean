import LinuxUserspaceEmulator.SoftCPU64.Immediates
import LinuxUserspaceEmulator.SoftMMU.Writing

/-!
# Initialization flags under string instructions

`MOVS` and `STOS` write their bytes without a shadow, so every byte they write counts as
initialized.  A move carries the flags of its source over exactly when its whole source was
initialized, a store those of the accumulator exactly when the bytes it stores were.

Main results:

- Theorem `marks_of_write8`: a plain write initializes its byte and no other.
- Theorem `marks_of_executeStringInstruction`: what a whole string instruction initializes.
- Theorem `step_carriesShadow_iff`: when a string instruction carries the shadow over.
-/

namespace LUE

open StateExcept

/-! ## Initialized bytes -/

namespace SoftMMU

/-- The initialized bit of a mapped byte. -/
def initializedAt (mmu : SoftMMU) (address : U64) : Option Bool :=
  (mmu.addressMap address).map (·.initialized)

/-- The bytes of a set became initialized and no other byte changed its flag. -/
structure Marks (before after : SoftMMU) (written : U64 → Prop) : Prop where
  marked : ∀ address, written address → after.initializedAt address = some true
  others : ∀ address, ¬written address →
    after.initializedAt address = before.initializedAt address

variable {before middle after : SoftMMU} {written written' : U64 → Prop}

/-- A byte stays initialized when more bytes are written. -/
theorem Marks.trans (hfirst : before.Marks middle written) (hsecond : middle.Marks after written') :
    before.Marks after fun address => written address ∨ written' address := by
  constructor
  · intro address hwritten
    by_cases hlast : written' address
    · exact hsecond.marked address hlast
    · rw [hsecond.others address hlast]
      exact hfirst.marked address (hwritten.resolve_right hlast)
  · intro address hwritten
    rw [hsecond.others address fun h => hwritten (Or.inr h),
      hfirst.others address fun h => hwritten (Or.inl h)]

/-- The bytes of one more iteration join those of the iterations before. -/
theorem Marks.succ {written : Nat → U64 → Prop} {i : Nat}
    (hbefore : before.Marks middle fun address => ∃ j < i, written j address)
    (hlast : middle.Marks after (written i)) :
    before.Marks after fun address => ∃ j < i + 1, written j address := by
  have hjoined := hbefore.trans hlast
  have hsame : (fun address => (∃ j < i, written j address) ∨ written i address) =
      fun address => ∃ j < i + 1, written j address := by
    funext address
    apply propext
    constructor
    · rintro (⟨j, hj, hwritten⟩ | hwritten)
      · exact ⟨j, Nat.lt_succ_of_lt hj, hwritten⟩
      · exact ⟨i, Nat.lt_succ_self i, hwritten⟩
    · rintro ⟨j, hj, hwritten⟩
      rcases Nat.lt_succ_iff_lt_or_eq.mp hj with hlt | rfl
      · exact Or.inl ⟨j, hlt, hwritten⟩
      · exact Or.inr hwritten
  rwa [hsame] at hjoined

/-- No iteration has written anything. -/
theorem Marks.zero (mmu : SoftMMU) (written : Nat → U64 → Prop) :
    mmu.Marks mmu fun address => ∃ j < 0, written j address := by
  constructor
  · rintro address ⟨j, hj, -⟩
    exact absurd hj (Nat.not_lt_zero j)
  · exact fun address hwritten => rfl

/-- A plain write initializes its byte and no other. -/
theorem marks_of_write8 {address : U64} {value : U8}
    (h : write8 address value before = .ok () after) : before.Marks after (· = address) := by
  obtain ⟨cell, -, hmap⟩ := addressMap_of_write8WithShadow h
  constructor
  · rintro other rfl
    rw [initializedAt, hmap]
    simp [AddressMap.write, ValueWithShadow.initialized, ValueWithShadow.isInitialized]
  · intro other hother
    rw [initializedAt, initializedAt, hmap, AddressMap.write, Function.update_of_ne hother]

/-- A loop of plain writes initializes all its bytes. -/
theorem marks_of_forOffsets {body : Nat → MMUProgram Unit} {addressOf : Nat → U64} {count : Nat}
    (hbody : ∀ i mmu mmu', body i mmu = .ok () mmu' → mmu.Marks mmu' (· = addressOf i))
    (h : forOffsets body count before = .ok () after) :
    before.Marks after fun address => ∃ i < count, address = addressOf i :=
  forOffsets_advances
    (fun i mmu => before.Marks mmu fun address => ∃ j < i, address = addressOf j)
    (fun i mmu mmu' hreached hrun => hreached.succ (hbody i mmu mmu' hrun))
    (Marks.zero before _) h

end SoftMMU

namespace SoftCPU64

/-! ## String instructions -/

/-- What the registers and the prefixes make of a string instruction: it copies `width` bytes
`count` times, from and to addresses that advance by `step`. -/
structure StringInstruction where
  /-- `MOVS`; otherwise `STOS`. -/
  moves : Bool
  width : Nat
  count : Nat
  step : U64
  source : U64
  destination : U64

/-- The string instruction of an opcode in the state before it. -/
def stringInstruction (opcode : U8) (prefixes : Prefixes) (cpu : SoftCPU64) :
    StringInstruction :=
  let width :=
    if opcode = 0xa5 ∨ opcode = 0xab then
      if prefixes.rexW then 8 else if prefixes.operand16 then 2 else 4
    else 1
  { moves := opcode = 0xa4 ∨ opcode = 0xa5
    width := width
    count := if prefixes.repz then (cpu.reg .rcx).toNat else 1
    step := if cpu.flag DF then -BitVec.ofNat 64 width else BitVec.ofNat 64 width
    source := cpu.reg .rsi + cpu.segmentBase prefixes
    destination := cpu.reg .rdi }

namespace StringInstruction

/-- Byte `b` of element `i` of the source. -/
def sourceAt (copy : StringInstruction) (i b : Nat) : U64 :=
  copy.source + BitVec.ofNat 64 i * copy.step + BitVec.ofNat 64 b

/-- Byte `b` of element `i` of the destination. -/
def destinationAt (copy : StringInstruction) (i b : Nat) : U64 :=
  copy.destination + BitVec.ofNat 64 i * copy.step + BitVec.ofNat 64 b

/-- The bytes of the destination. -/
def Writes (copy : StringInstruction) (address : U64) : Prop :=
  ∃ i < copy.count, ∃ b < copy.width, address = copy.destinationAt i b

end StringInstruction

/-- The shadow of byte `b` of the accumulator. -/
def accumulatorShadow (cpu : SoftCPU64) (b : Nat) : U8 :=
  (cpu.gprShadow .rax >>> (8 * b)).setWidth 8

/-- A string instruction carries the shadow over: a move gives each byte of its destination the
initialized bit of its source before, a store leaves bytes uninitialized that come from
uninitialized bytes of the accumulator, and no other byte changes its bit. -/
structure CarriesShadow (copy : StringInstruction) (before after : Emulator) : Prop where
  moved : copy.moves = true → ∀ i < copy.count, ∀ b < copy.width,
    after.mmu.initializedAt (copy.destinationAt i b) =
      before.mmu.initializedAt (copy.sourceAt i b)
  stored : copy.moves = false → ∀ i < copy.count, ∀ b < copy.width,
    accumulatorShadow before.cpu b ≠ 0 →
      after.mmu.initializedAt (copy.destinationAt i b) = some false
  others : ∀ address, ¬copy.Writes address →
    after.mmu.initializedAt address = before.mmu.initializedAt address

/-- Everything that a string instruction copies is initialized. -/
def CopiesInitialized (copy : StringInstruction) (before : Emulator) : Prop :=
  ∀ i < copy.count, ∀ b < copy.width,
    if copy.moves then before.mmu.initializedAt (copy.sourceAt i b) = some true
    else accumulatorShadow before.cpu b = 0

/-- After a string instruction that marks its destination the shadow was carried over exactly
when everything copied was initialized. -/
theorem carriesShadow_iff {copy : StringInstruction} {before after : Emulator}
    (hmarks : before.mmu.Marks after.mmu copy.Writes) :
    CarriesShadow copy before after ↔ CopiesInitialized copy before := by
  have hwritten : ∀ i < copy.count, ∀ b < copy.width,
      after.mmu.initializedAt (copy.destinationAt i b) = some true :=
    fun i hi b hb => hmarks.marked _ ⟨i, hi, b, hb, rfl⟩
  constructor
  · intro hcarries i hi b hb
    cases hmoves : copy.moves with
    | true =>
        rw [if_pos rfl, ← hcarries.moved hmoves i hi b hb]
        exact hwritten i hi b hb
    | false =>
        rw [if_neg Bool.false_ne_true]
        by_contra hshadow
        have huninitialized := hcarries.stored hmoves i hi b hb hshadow
        rw [hwritten i hi b hb] at huninitialized
        cases huninitialized
  · intro hcopies
    refine ⟨?_, ?_, hmarks.others⟩
    · intro hmoves i hi b hb
      have hsource := hcopies i hi b hb
      rw [if_pos hmoves] at hsource
      rw [hsource, hwritten i hi b hb]
    · intro hmoves i hi b hb hshadow
      have hclear := hcopies i hi b hb
      rw [hmoves, if_neg Bool.false_ne_true] at hclear
      exact absurd hclear hshadow

/-! ## Execution -/

section Execution

variable {emulator final : Emulator} {prefixes : Prefixes} {opcode : U8} {width : Nat} {step : U64}

/-- What one element writes, and where the next one starts. -/
structure CopiesElement (width : Nat) (step : U64) (before after : Emulator) : Prop where
  marks : before.mmu.Marks after.mmu fun address =>
    ∃ b < width, address = before.cpu.reg .rdi + BitVec.ofNat 64 b
  destination : after.cpu.reg .rdi = before.cpu.reg .rdi + step

theorem copiesElement_moveElement (h : moveElement width step prefixes emulator = .ok () final) :
    CopiesElement width step emulator final := by
  rw [moveElement, bind_of_ok (getCPU_apply emulator)] at h
  obtain ⟨_, copied, hcopy, hadvance⟩ := bind_eq_ok_iff.mp h
  obtain ⟨mmu, hloop, rfl⟩ := onMMU_eq_ok_iff.mp hcopy
  cases hadvance
  refine ⟨SoftMMU.marks_of_forOffsets (fun b mmu mmu' hbyte => ?_) hloop, rfl⟩
  obtain ⟨byte, read, hread, hwrite⟩ := bind_eq_ok_iff.mp hbyte
  obtain ⟨-, rfl⟩ := observe_eq_ok_iff.mp hread
  exact SoftMMU.marks_of_write8 hwrite

theorem copiesElement_storeElement (h : storeElement width step emulator = .ok () final) :
    CopiesElement width step emulator final := by
  rw [storeElement, bind_of_ok (getCPU_apply emulator)] at h
  obtain ⟨_, stored, hstore, hadvance⟩ := bind_eq_ok_iff.mp h
  obtain ⟨mmu, hloop, rfl⟩ := onMMU_eq_ok_iff.mp hstore
  cases hadvance
  refine ⟨SoftMMU.marks_of_forOffsets (fun b mmu mmu' hwrite => ?_) hloop, rfl⟩
  exact SoftMMU.marks_of_write8 hwrite

/-- What a whole string instruction initializes. -/
theorem marks_of_executeStringInstruction
    (h : executeStringInstruction opcode prefixes emulator = .ok () final) :
    emulator.mmu.Marks final.mmu (stringInstruction opcode prefixes emulator.cpu).Writes := by
  rw [executeStringInstruction, bind_of_ok (getCPU_apply emulator)] at h
  obtain ⟨_, looped, hloop, hfinish⟩ := bind_eq_ok_iff.mp h
  have hmmu : final.mmu = looped.mmu := by
    split at hfinish
    · cases hfinish
      rfl
    · cases hfinish
      rfl
  rw [hmmu]
  let copy := stringInstruction opcode prefixes emulator.cpu
  let reached (i : Nat) (state : Emulator) : Prop :=
    (emulator.mmu.Marks state.mmu fun address =>
      ∃ j < i, ∃ b < copy.width, address = copy.destinationAt j b) ∧
    state.cpu.reg .rdi = copy.destination + BitVec.ofNat 64 i * copy.step
  have hreached : reached copy.count looped := by
    refine forOffsets_advances reached ?_ ?_ hloop
    · rintro i state state' ⟨hmarks, hdestination⟩ hrun
      have helement : CopiesElement copy.width copy.step state state' := by
        split at hrun
        · exact copiesElement_moveElement hrun
        · exact copiesElement_storeElement hrun
      constructor
      · have hwritten := helement.marks
        rw [hdestination] at hwritten
        exact hmarks.succ hwritten
      · have hnext : BitVec.ofNat 64 (i + 1) * copy.step =
            BitVec.ofNat 64 i * copy.step + copy.step := by
          rw [BitVec.ofNat_add, BitVec.add_mul, BitVec.one_mul]
        rw [helement.destination, hdestination, hnext, BitVec.add_assoc]
    · refine ⟨SoftMMU.Marks.zero _ _, ?_⟩
      simp [copy, stringInstruction]
  exact hreached.1

end Execution

/-- A string instruction carries the shadow over exactly when everything that it copies is
initialized. -/
theorem step_carriesShadow_iff {emulator decoded final : Emulator} {prefixes : Prefixes}
    {opcode : U8} (host : Host)
    (hdecode : decodeOpcode emulator = .ok (prefixes, opcode) decoded)
    (hopcode : opcode ∈ ([0xa4, 0xa5, 0xaa, 0xab] : List U8))
    (hstep : step host emulator = .ok () final) :
    CarriesShadow (stringInstruction opcode prefixes emulator.cpu) emulator final ↔
      CopiesInitialized (stringInstruction opcode prefixes emulator.cpu) emulator := by
  obtain ⟨pc, rfl⟩ := decodeOpcode_eq_ok hdecode
  obtain ⟨executed, hexecute, rfl⟩ := execute_of_step hdecode hstep
  have hstring : execute host prefixes opcode = executeStringInstruction opcode prefixes := by
    simp only [List.mem_cons, List.not_mem_nil, or_false] at hopcode
    rcases hopcode with rfl | rfl | rfl | rfl <;> rfl
  rw [hstring] at hexecute
  have hmarks := marks_of_executeStringInstruction hexecute
  have hmarked : emulator.mmu.Marks executed.mmu
      (stringInstruction opcode prefixes emulator.cpu).Writes := hmarks
  exact carriesShadow_iff hmarked

section Examples

/-- `rep movsb` of two bytes from 0x1100 to 0x1200. -/
def repMovsb (initialized : List Bool) : Emulator where
  mmu := { regions := [
    { Emulator.pageOf 0x1000 (protRead ||| protWrite ||| protExecute) [0xf3, 0xa4] with
      initialized := initialized }] }
  cpu := { rip := 0x1000, gpr := fun register =>
    if register = .rsi then 0x1100
    else if register = .rdi then 0x1200
    else if register = .rcx then 2
    else 0 }

/-- The move in a page that is initialized. -/
def movsInitialized : Emulator :=
  repMovsb (List.replicate 4096 true)

/-- The move of an initialized source carries the shadow over. -/
theorem step_carriesShadow_movs :
    ∃ decoded final, decodeOpcode movsInitialized = .ok ({ repz := true }, 0xa4) decoded ∧
      step Emulator.quietHost movsInitialized = .ok () final ∧
      CarriesShadow (stringInstruction 0xa4 { repz := true } movsInitialized.cpu)
        movsInitialized final := by
  have hdecode : decodeOpcode movsInitialized =
      .ok ({ repz := true }, 0xa4) (finalState (decodeOpcode movsInitialized)) :=
    eq_ok_of_returned (by decide)
  have hstep : step Emulator.quietHost movsInitialized =
      .ok () (finalState (step Emulator.quietHost movsInitialized)) :=
    eq_ok_of_returned (by decide +kernel)
  have hcopies : CopiesInitialized (stringInstruction 0xa4 { repz := true } movsInitialized.cpu)
      movsInitialized := by
    unfold CopiesInitialized
    decide
  exact ⟨_, _, hdecode, hstep,
    (step_carriesShadow_iff Emulator.quietHost hdecode (by decide) hstep).mpr hcopies⟩

/-- The move when the first byte of the source is not initialized. -/
def movsUninitialized : Emulator :=
  repMovsb (List.replicate 0x100 true ++ false :: List.replicate 0xeff true)

/-- The copy of an uninitialized byte counts as initialized. -/
theorem movs_launders :
    ∃ final, step Emulator.quietHost movsUninitialized = .ok () final ∧
      movsUninitialized.mmu.initializedAt 0x1100 = some false ∧
      final.mmu.initializedAt 0x1200 = some true := by
  have hrun : returned (step Emulator.quietHost movsUninitialized) = some () ∧
      movsUninitialized.mmu.initializedAt 0x1100 = some false ∧
      (finalState (step Emulator.quietHost movsUninitialized)).mmu.initializedAt 0x1200 =
        some true := by
    decide +kernel
  exact ⟨_, eq_ok_of_returned hrun.1, hrun.2⟩

end Examples

end SoftCPU64

end LUE
