import LinuxUserspaceEmulator.Library.OverlappingCopy
import LinuxUserspaceEmulator.SoftCPU64.StringCopies
import LinuxUserspaceEmulator.SoftMMU.Words

/-!
# Moves of overlapping strings

`MOVS` copies an element byte by byte, each byte read after the bytes before it are written.  An
element whose destination starts inside it is then not read as a whole.

Main results:

- Theorem `moveElement_of_permits`: one element is copied byte by byte.
- Theorem `step_copied`: a step copies its elements so, one after another.
- Theorem `step_copiesElements_iff`: when `REP MOVS` copies whole elements.
-/

namespace LUE

open StateExcept OverlappingCopy

namespace SoftMMU

/-- The loop of one element. -/
def moveBytes (source destination : U64) (width : Nat) : MMUProgram Unit :=
  forOffsets (fun b => do
    let byte ← observe fun mmu => mmu.read8 (source + BitVec.ofNat 64 b)
    write8 (destination + BitVec.ofNat 64 b) byte) width

/-- A permitted loop returns and has copied byte by byte. -/
theorem moveBytes_of_permits {mmu : SoftMMU} {source destination : U64} {width : Nat}
    (hwf : RegionsWellFormed mmu.regions)
    (hread : ∀ b < width, Permits mmu (source + BitVec.ofNat 64 b) protRead)
    (hwrite : ∀ b < width, Permits mmu (destination + BitVec.ofNat 64 b) protWrite) :
    ∃ mmu', moveBytes source destination width mmu = .ok () mmu' ∧
      RegionsWellFormed mmu'.regions ∧ protections mmu' = protections mmu ∧
      mmu'.guestByte = copyBytes source destination width mmu.guestByte := by
  induction width with
  | zero => exact ⟨mmu, rfl, hwf, rfl, rfl⟩
  | succ width ih =>
      rcases ih (fun b hb => hread b (Nat.lt_succ_of_lt hb))
        (fun b hb => hwrite b (Nat.lt_succ_of_lt hb)) with
        ⟨middle, hmiddle, hmiddlewf, hprotections, hbytes⟩
      rcases read8_of_permits hmiddlewf
        ((permits_congr hprotections).mpr (hread width (Nat.lt_succ_self width))) with
        ⟨byte, hbyte, hguest⟩
      rcases write8_of_permits hmiddlewf
        ((permits_congr hprotections).mpr (hwrite width (Nat.lt_succ_self width))) byte with
        ⟨last, hlast, hlastwf, hlastprotections⟩
      have hbody : (do
          let byte ← observe fun mmu => mmu.read8 (source + BitVec.ofNat 64 width)
          write8 (destination + BitVec.ofNat 64 width) byte : MMUProgram Unit) middle =
            .ok () last := by
        rw [bind_of_ok (observe_eq_ok_iff.mpr ⟨hbyte, rfl⟩)]
        exact hlast
      refine ⟨last, forOffsets_succ_eq_ok_iff.mpr ⟨middle, hmiddle, hbody⟩, hlastwf,
        hlastprotections.trans hprotections, ?_⟩
      rw [guestByte_of_write8 hlast, copyBytes, ← hbytes, hguest]

end SoftMMU

namespace SoftCPU64

namespace StringInstruction

/-- The addresses of the elements. -/
def sourceElement (copy : StringInstruction) (i : Nat) : U64 :=
  copy.source + BitVec.ofNat 64 i * copy.step

def destinationElement (copy : StringInstruction) (i : Nat) : U64 :=
  copy.destination + BitVec.ofNat 64 i * copy.step

/-- The source is readable and the destination is writable. -/
def Permitted (copy : StringInstruction) (mmu : SoftMMU) : Prop :=
  ∀ i < copy.count, ∀ b < copy.width,
    Permits mmu (copy.sourceAt i b) protRead ∧
      Permits mmu (copy.destinationAt i b) protWrite

/-- What every element repeats, when its destination starts inside it: upwards the start of the
whole source, downwards the start of its own source. -/
def Repeats (copy : StringInstruction) (down : Bool) (memory : U64 → Option U8) : Prop :=
  ∀ i < copy.count, ∀ b < copy.width, distance copy.source copy.destination ≤ b →
    memory (copy.sourceAt i b) =
      memory (if down then copy.sourceAt i (b % distance copy.source copy.destination)
        else copy.source +
          BitVec.ofNat 64 ((i * copy.width + b) % distance copy.source copy.destination))

end StringInstruction

/-- A repeated move has copied its elements one after the other, each read as a whole, and has
counted and advanced the registers. -/
structure CopiesElements (copy : StringInstruction) (before after : Emulator) : Prop where
  bytes : after.mmu.guestByte =
    elementwise copy.sourceElement copy.destinationElement copy.width copy.count
      before.mmu.guestByte
  others : ∀ address, ¬copy.Writes address →
    after.mmu.guestByte address = before.mmu.guestByte address
  counter : after.cpu.reg .rcx = 0
  source : after.cpu.reg .rsi =
    before.cpu.reg .rsi + BitVec.ofNat 64 copy.count * copy.step
  destination : after.cpu.reg .rdi =
    before.cpu.reg .rdi + BitVec.ofNat 64 copy.count * copy.step

section Elements

variable {emulator : Emulator} {prefixes : Prefixes} {width : Nat} {step : U64}

/-- The CPU after one element. -/
def advanced (cpu : SoftCPU64) (step : U64) : SoftCPU64 :=
  (cpu.setReg .rsi (cpu.reg .rsi + step)).setReg .rdi (cpu.reg .rdi + step)

/-- One element is copied byte by byte. -/
theorem moveElement_of_permits (step : U64) {source destination : U64}
    (hwf : RegionsWellFormed emulator.mmu.regions)
    (hsource : emulator.cpu.reg .rsi + emulator.cpu.segmentBase prefixes = source)
    (hdestination : emulator.cpu.reg .rdi = destination)
    (hread : ∀ b < width, Permits emulator.mmu (source + BitVec.ofNat 64 b) protRead)
    (hwrite : ∀ b < width, Permits emulator.mmu (destination + BitVec.ofNat 64 b) protWrite) :
    ∃ mmu', moveElement width step prefixes emulator =
        .ok () ((emulator.withMMU mmu').withCPU (emulator.cpu.advanced step)) ∧
      RegionsWellFormed mmu'.regions ∧
      SoftMMU.protections mmu' = SoftMMU.protections emulator.mmu ∧
      mmu'.guestByte = copyBytes source destination width emulator.mmu.guestByte := by
  subst hsource hdestination
  rcases SoftMMU.moveBytes_of_permits hwf hread hwrite with
    ⟨mmu', hmoved, hwf', hprotections, hbytes⟩
  refine ⟨mmu', ?_, hwf', hprotections, hbytes⟩
  rw [moveElement, bind_of_ok (getCPU_apply emulator)]
  exact bind_of_ok (onMMU_eq_ok_iff.mpr ⟨mmu', hmoved, rfl⟩)

theorem reg_advanced (cpu : SoftCPU64) (step : U64) :
    (cpu.advanced step).reg .rsi = cpu.reg .rsi + step ∧
      (cpu.advanced step).reg .rdi = cpu.reg .rdi + step := by
  constructor
  · rfl
  · rfl

theorem ofNat_succ_mul (count : Nat) (step : U64) :
    BitVec.ofNat 64 (count + 1) * step = BitVec.ofNat 64 count * step + step := by
  rw [BitVec.ofNat_add, BitVec.add_mul, BitVec.one_mul]

/-- The state after some elements: the CPU has advanced, and the bytes are copied. -/
structure CopiedElements (copy : StringInstruction) (before : Emulator) (count : Nat)
    (after : Emulator) : Prop where
  wellFormed : RegionsWellFormed after.mmu.regions
  protections : SoftMMU.protections after.mmu = SoftMMU.protections before.mmu
  bytes : after.mmu.guestByte =
    bytewise copy.sourceElement copy.destinationElement copy.width count before.mmu.guestByte
  source : after.cpu.reg .rsi = before.cpu.reg .rsi + BitVec.ofNat 64 count * copy.step
  destination : after.cpu.reg .rdi = before.cpu.reg .rdi + BitVec.ofNat 64 count * copy.step
  segment : ∀ prefixes, after.cpu.segmentBase prefixes = before.cpu.segmentBase prefixes

variable {opcode : U8}

/-- A run of elements is copied byte by byte. -/
theorem forOffsets_moveElement (hwf : RegionsWellFormed emulator.mmu.regions)
    (hpermitted : (stringInstruction opcode prefixes emulator.cpu).Permitted emulator.mmu)
    {count : Nat} (hcount : count ≤ (stringInstruction opcode prefixes emulator.cpu).count) :
    ∃ final, forOffsets (fun _ =>
        moveElement (stringInstruction opcode prefixes emulator.cpu).width
          (stringInstruction opcode prefixes emulator.cpu).step prefixes) count emulator =
        .ok () final ∧
      CopiedElements (stringInstruction opcode prefixes emulator.cpu) emulator count final := by
  induction count with
  | zero =>
      refine ⟨emulator, rfl, hwf, rfl, rfl, ?_, ?_, fun _ => rfl⟩
      · simp
      · simp
  | succ count ih =>
      rcases ih (Nat.le_of_succ_le hcount) with ⟨middle, hmiddle, hcopied⟩
      have hsource : middle.cpu.reg .rsi + middle.cpu.segmentBase prefixes =
          (stringInstruction opcode prefixes emulator.cpu).sourceElement count := by
        rw [hcopied.source, hcopied.segment]
        exact add_right_comm _ _ _
      rcases moveElement_of_permits (stringInstruction opcode prefixes emulator.cpu).step
        hcopied.wellFormed hsource hcopied.destination
        (fun b hb => (permits_congr hcopied.protections).mpr (hpermitted count hcount b hb).1)
        (fun b hb => (permits_congr hcopied.protections).mpr (hpermitted count hcount b hb).2) with
        ⟨mmu', hmoved, hwf', hprotections, hbytes⟩
      refine ⟨_, forOffsets_succ_eq_ok_iff.mpr ⟨middle, hmiddle, hmoved⟩, ?_⟩
      constructor
      · exact hwf'
      · exact hprotections.trans hcopied.protections
      · rw [bytewise, runElements]
        exact hbytes.trans (congrArg (copyBytes _ _ _) hcopied.bytes)
      · refine (reg_advanced middle.cpu _).1.trans ?_
        rw [hcopied.source, ofNat_succ_mul, BitVec.add_assoc]
      · refine (reg_advanced middle.cpu _).2.trans ?_
        rw [hcopied.destination, ofNat_succ_mul, BitVec.add_assoc]
      · exact hcopied.segment

end Elements

/-! ## Directions -/

section Directions

variable {cpu : SoftCPU64} {prefixes : Prefixes} {opcode : U8} {mmu : SoftMMU}

theorem width_le_eight (opcode : U8) (prefixes : Prefixes) (cpu : SoftCPU64) :
    0 < (stringInstruction opcode prefixes cpu).width ∧
      (stringInstruction opcode prefixes cpu).width ≤ 8 := by
  simp only [stringInstruction]
  split <;> try split <;> try split
  all_goals decide

/-- Without the direction flag the elements lie upwards. -/
theorem elements_upwards (hdirection : cpu.flag DF = false) (start : U64) :
    (fun i => start + BitVec.ofNat 64 i * (stringInstruction opcode prefixes cpu).step) =
      upwards start (stringInstruction opcode prefixes cpu).width := by
  funext i
  have hstep : (stringInstruction opcode prefixes cpu).step =
      BitVec.ofNat 64 (stringInstruction opcode prefixes cpu).width := by
    simp only [stringInstruction, hdirection, Bool.false_eq_true, if_false]
  rw [hstep, ← BitVec.ofNat_mul, upwards]

/-- With the direction flag the elements lie downwards. -/
theorem elements_downwards (hdirection : cpu.flag DF = true) (start : U64) :
    (fun i => start + BitVec.ofNat 64 i * (stringInstruction opcode prefixes cpu).step) =
      downwards start (stringInstruction opcode prefixes cpu).width := by
  funext i
  have hstep : (stringInstruction opcode prefixes cpu).step =
      -BitVec.ofNat 64 (stringInstruction opcode prefixes cpu).width := by
    simp only [stringInstruction, hdirection, if_true]
  rw [hstep, mul_neg, ← BitVec.ofNat_mul, ← sub_eq_add_neg, downwards]

/-- The destination of a permitted string is one mapped range. -/
theorem mapped_of_permitted (hpos : 0 < (stringInstruction opcode prefixes cpu).count)
    (hpermitted : (stringInstruction opcode prefixes cpu).Permitted mmu) :
    ∃ start, ∀ j < (stringInstruction opcode prefixes cpu).count *
      (stringInstruction opcode prefixes cpu).width,
      ∃ cell, mmu.addressMap (start + BitVec.ofNat 64 j) = some cell := by
  have hwidth := (width_le_eight opcode prefixes cpu).1
  have hbyte : ∀ i < (stringInstruction opcode prefixes cpu).count,
      ∀ b < (stringInstruction opcode prefixes cpu).width, ∃ cell, mmu.addressMap
        ((stringInstruction opcode prefixes cpu).destinationElement i + BitVec.ofNat 64 b) =
          some cell := by
    intro i hi b hb
    rcases permits_iff_access.mp (hpermitted i hi b hb).2 with ⟨cell, hcell⟩
    exact ⟨cell, (AddressMap.access_eq_ok_iff.mp hcell).1⟩
  cases hdirection : cpu.flag DF with
  | false =>
      refine ⟨(stringInstruction opcode prefixes cpu).destination, fun j hj => ?_⟩
      have hmapped := hbyte _ (Nat.div_lt_of_lt_mul (by rwa [Nat.mul_comm])) _
        (Nat.mod_lt j hwidth)
      rw [StringInstruction.destinationElement, congrFun (elements_upwards hdirection _) _,
        upwards_add, Nat.div_add_mod'] at hmapped
      exact hmapped
  | true =>
      refine ⟨(stringInstruction opcode prefixes cpu).destinationElement
        ((stringInstruction opcode prefixes cpu).count - 1), fun j hj => ?_⟩
      have hquotient : j / (stringInstruction opcode prefixes cpu).width <
          (stringInstruction opcode prefixes cpu).count :=
        Nat.div_lt_of_lt_mul (by rwa [Nat.mul_comm])
      have hmapped := hbyte ((stringInstruction opcode prefixes cpu).count - 1 -
        j / (stringInstruction opcode prefixes cpu).width)
        (Nat.lt_of_le_of_lt (Nat.sub_le _ _) (Nat.sub_lt hpos Nat.one_pos)) _ (Nat.mod_lt j hwidth)
      rw [StringInstruction.destinationElement, congrFun (elements_downwards hdirection _) _,
        downwards_add _ _ hquotient, Nat.div_add_mod'] at hmapped
      rw [StringInstruction.destinationElement, congrFun (elements_downwards hdirection _) _]
      exact hmapped

/-- A permitted string and one more element fit into the address space. -/
theorem fits_of_permitted (hwf : RegionsWellFormed mmu.regions)
    (hpermitted : (stringInstruction opcode prefixes cpu).Permitted mmu) :
    (stringInstruction opcode prefixes cpu).count * (stringInstruction opcode prefixes cpu).width +
      (stringInstruction opcode prefixes cpu).width ≤ 2 ^ 64 := by
  have hwidth := width_le_eight opcode prefixes cpu
  by_cases hpos : 0 < (stringInstruction opcode prefixes cpu).count
  · rcases mapped_of_permitted hpos hpermitted with ⟨start, hmapped⟩
    have hfits := fits_of_mapped hwf (Nat.mul_pos hpos hwidth.1) hmapped
    omega
  · rw [Nat.eq_zero_of_not_pos hpos, Nat.zero_mul]
    omega

/-- When the bytes of a permitted string are copied as its elements are. -/
theorem bytewise_eq_iff_repeats (hwf : RegionsWellFormed mmu.regions)
    (hpermitted : (stringInstruction opcode prefixes cpu).Permitted mmu)
    {memory : U64 → Option U8} :
    bytewise (stringInstruction opcode prefixes cpu).sourceElement
          (stringInstruction opcode prefixes cpu).destinationElement
          (stringInstruction opcode prefixes cpu).width
          (stringInstruction opcode prefixes cpu).count memory =
        elementwise (stringInstruction opcode prefixes cpu).sourceElement
          (stringInstruction opcode prefixes cpu).destinationElement
          (stringInstruction opcode prefixes cpu).width
          (stringInstruction opcode prefixes cpu).count memory ↔
      (stringInstruction opcode prefixes cpu).Repeats (cpu.flag DF) memory := by
  have hfits := fits_of_permitted hwf hpermitted
  cases hdirection : cpu.flag DF with
  | false =>
      have hsource : (stringInstruction opcode prefixes cpu).sourceElement = upwards _ _ :=
        elements_upwards hdirection _
      have hdestination : (stringInstruction opcode prefixes cpu).destinationElement =
          upwards _ _ := elements_upwards hdirection _
      rw [hsource, hdestination, bytewise_upwards_iff (by omega) (by omega)]
      refine forall₂_congr fun i hi => forall₂_congr fun b hb => ?_
      have hbyte : (stringInstruction opcode prefixes cpu).sourceAt i b =
          (stringInstruction opcode prefixes cpu).source +
            BitVec.ofNat 64 (i * (stringInstruction opcode prefixes cpu).width + b) := by
        rw [← upwards_add, ← congrFun hsource i]
        rfl
      rw [hbyte, if_neg Bool.false_ne_true]
  | true =>
      have hsource : (stringInstruction opcode prefixes cpu).sourceElement = downwards _ _ :=
        elements_downwards hdirection _
      have hdestination : (stringInstruction opcode prefixes cpu).destinationElement =
          downwards _ _ := elements_downwards hdirection _
      rw [hsource, hdestination, bytewise_downwards_iff hfits]
      refine forall₂_congr fun i hi => forall₂_congr fun b hb => ?_
      have hbyte : ∀ c, (stringInstruction opcode prefixes cpu).sourceAt i c =
          downwards (stringInstruction opcode prefixes cpu).source
            (stringInstruction opcode prefixes cpu).width i + BitVec.ofNat 64 c := by
        intro c
        rw [← congrFun hsource i]
        rfl
      rw [if_pos rfl, hbyte, hbyte]

end Directions

/-! ## Steps -/

section Steps

variable {emulator decoded : Emulator} {prefixes : Prefixes} {opcode : U8}

/-- A repeated move of permitted strings returns and has copied byte by byte. -/
theorem step_copied (host : Host)
    (hdecode : decodeOpcode emulator = .ok (prefixes, opcode) decoded)
    (hopcode : opcode = 0xa4 ∨ opcode = 0xa5) (hrepeated : prefixes.repz = true)
    (hwf : RegionsWellFormed emulator.mmu.regions)
    (hpermitted : (stringInstruction opcode prefixes emulator.cpu).Permitted emulator.mmu) :
    ∃ final, step host emulator = .ok () final ∧
      CopiedElements (stringInstruction opcode prefixes emulator.cpu) emulator
        (stringInstruction opcode prefixes emulator.cpu).count final ∧
      final.cpu.reg .rcx = 0 := by
  rcases decodeOpcode_eq_ok hdecode with ⟨pc, rfl⟩
  have hwf' : RegionsWellFormed (afterDecoding emulator pc).mmu.regions := hwf
  rcases forOffsets_moveElement hwf' hpermitted (Nat.le_refl _) with ⟨looped, hlooped, hcopied⟩
  have hexecute : execute host prefixes opcode = executeStringInstruction opcode prefixes := by
    rcases hopcode with rfl | rfl <;> rfl
  have hrun : executeStringInstruction opcode prefixes (afterDecoding emulator pc) =
      .ok () (looped.withCPU ((looped.cpu.setReg .rcx 0).setRegShadow .rcx 0)) := by
    rw [executeStringInstruction, bind_of_ok (getCPU_apply _)]
    simp only [if_pos hopcode]
    refine (bind_of_ok hlooped).trans ?_
    rw [if_pos hrepeated]
    rfl
  rw [step_of_decoded hdecode, hexecute, bind_of_ok hrun, modifyCPU_apply]
  exact ⟨_, rfl, ⟨hcopied.wellFormed, hcopied.protections, hcopied.bytes, hcopied.source,
    hcopied.destination, hcopied.segment⟩, rfl⟩

/-- When a repeated move copies whole elements. -/
theorem step_copiesElements_iff (host : Host)
    (hdecode : decodeOpcode emulator = .ok (prefixes, opcode) decoded)
    (hopcode : opcode = 0xa4 ∨ opcode = 0xa5) (hrepeated : prefixes.repz = true)
    (hwf : RegionsWellFormed emulator.mmu.regions)
    (hpermitted : (stringInstruction opcode prefixes emulator.cpu).Permitted emulator.mmu) :
    (∃ final, step host emulator = .ok () final ∧
      CopiesElements (stringInstruction opcode prefixes emulator.cpu) emulator final) ↔
      (stringInstruction opcode prefixes emulator.cpu).Repeats (emulator.cpu.flag DF)
        emulator.mmu.guestByte := by
  rcases step_copied host hdecode hopcode hrepeated hwf hpermitted with
    ⟨final, hstep, hcopied, hcounter⟩
  rw [← bytewise_eq_iff_repeats hwf hpermitted]
  constructor
  · rintro ⟨final', hstep', hcopies⟩
    rw [hstep] at hstep'
    cases hstep'
    exact hcopied.bytes.symm.trans hcopies.bytes
  · intro hsame
    refine ⟨final, hstep, hcopied.bytes.trans hsame, ?_, hcounter, hcopied.source,
      hcopied.destination⟩
    intro address hwritten
    rw [hcopied.bytes]
    exact runElements_of_ne (fun _ _ _ h => copyBytes_of_ne h)
      fun i hi b hb h => hwritten ⟨i, hi, b, hb, h⟩

section Examples

/-- A page with `rep movsd` and the bytes from 1 to 4. -/
def elementPage : SoftMMU where
  regions := [Emulator.pageOf 0x1000 (protRead ||| protWrite ||| protExecute)
    [0xf3, 0xa5, 1, 2, 3, 4]]

/-- The move of these four bytes. -/
def repMovsd (destination : U64) : Emulator where
  mmu := elementPage
  cpu := { rip := 0x1000, gpr := fun register =>
    if register = .rsi then 0x1002
    else if register = .rdi then destination
    else if register = .rcx then 1
    else 0 }

theorem elementPage_wellFormed : RegionsWellFormed elementPage.regions :=
  Emulator.regionsWellFormed_pageOf (by decide) (by decide) (by decide)

/-- A move inside the page is permitted. -/
theorem repMovsd_permitted {destination : U64} (h : ∀ b < 4,
    SoftMMU.protections elementPage (destination + BitVec.ofNat 64 b) =
      some (protRead ||| protWrite ||| protExecute)) :
    (stringInstruction 0xa5 { repz := true } (repMovsd destination).cpu).Permitted
      (repMovsd destination).mmu := by
  have hsource : ∀ b < 4, SoftMMU.protections elementPage (0x1002 + BitVec.ofNat 64 b) =
      some (protRead ||| protWrite ||| protExecute) :=
    fun b hb => Emulator.protections_pageOf (by bv_omega) (by bv_omega)
  have hreads : (protRead ||| protWrite ||| protExecute) &&& protRead = protRead := by decide
  have hwrites : (protRead ||| protWrite ||| protExecute) &&& protWrite = protWrite := by decide
  intro i hi b hb
  have hfirst : i = 0 := Nat.lt_one_iff.mp hi
  subst hfirst
  rw [StringInstruction.sourceAt, StringInstruction.destinationAt, BitVec.zero_mul,
    BitVec.add_zero, BitVec.add_zero]
  exact ⟨⟨_, hsource b hb, hreads⟩, _, h b hb, hwrites⟩

/-- One element to a place that does not overlap it. -/
theorem step_copiesElements_apart :
    ∃ final, step Emulator.quietHost (repMovsd 0x1010) = .ok () final ∧
      CopiesElements (stringInstruction 0xa5 { repz := true } (repMovsd 0x1010).cpu)
        (repMovsd 0x1010) final := by
  have hdecode : decodeOpcode (repMovsd 0x1010) =
      .ok ({ repz := true }, 0xa5) (finalState (decodeOpcode (repMovsd 0x1010))) :=
    eq_ok_of_returned (by decide)
  have hrepeats : (stringInstruction 0xa5 { repz := true } (repMovsd 0x1010).cpu).Repeats
      ((repMovsd 0x1010).cpu.flag DF) (repMovsd 0x1010).mmu.guestByte := by
    intro i _ b hb hdistance
    have hwidth : b < 4 := hb
    have hapart : 14 ≤ b := hdistance
    omega
  exact (step_copiesElements_iff Emulator.quietHost hdecode (Or.inr rfl) rfl
    elementPage_wellFormed (repMovsd_permitted (by decide))).mpr hrepeats

/-- One element to the next byte: the first byte of the element fills the destination. -/
theorem rep_movsd_repeats_byte :
    (stringInstruction 0xa5 { repz := true } (repMovsd 0x1003).cpu).Permitted
        (repMovsd 0x1003).mmu ∧
      ∃ final, step Emulator.quietHost (repMovsd 0x1003) = .ok () final ∧
        final.mmu.guestByte 0x1004 = some 1 ∧
        ¬CopiesElements (stringInstruction 0xa5 { repz := true } (repMovsd 0x1003).cpu)
          (repMovsd 0x1003) final := by
  have hrun : returned (step Emulator.quietHost (repMovsd 0x1003)) = some () ∧
      (finalState (step Emulator.quietHost (repMovsd 0x1003))).mmu.guestByte 0x1004 = some 1 := by
    decide +kernel
  refine ⟨repMovsd_permitted (by decide), _, eq_ok_of_returned hrun.1, hrun.2, ?_⟩
  intro hcopies
  have hbyte := congrFun hcopies.bytes 0x1004
  have hwhole : elementwise
      (stringInstruction 0xa5 { repz := true } (repMovsd 0x1003).cpu).sourceElement
      (stringInstruction 0xa5 { repz := true } (repMovsd 0x1003).cpu).destinationElement
      (stringInstruction 0xa5 { repz := true } (repMovsd 0x1003).cpu).width
      (stringInstruction 0xa5 { repz := true } (repMovsd 0x1003).cpu).count
      (repMovsd 0x1003).mmu.guestByte 0x1004 = some 2 := by
    decide
  rw [hrun.2, hwhole] at hbyte
  exact absurd hbyte (by decide)

end Examples

end Steps

end SoftCPU64

end LUE
