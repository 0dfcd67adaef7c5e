import LinuxUserspaceEmulator.Library.BitFields
import LinuxUserspaceEmulator.SoftCPU64.Decode

/-!
# The register file as a lens

A register operand names a field of one of the sixteen registers.  The source has the accesses to
it twice, once for the values and once for the shadows; both copies are written out here and shown
to be accesses to the same lane.

Main results:

- Theorems `readLane_eq` and `writeLane_eq`: the accesses are those of a field of a word.
- Theorems `readLane_writeLane`, `writeLane_readLane` and `writeLane_writeLane`: the laws of a lens.
- Theorems `writeGpr_eq_writeGprAt` and `readGpr_eq_readGprAt`: the two copies are one lane.
- Theorem `registerFile_lens`: reading back, the bits that stay, and the bits of the shadows.
-/

namespace LUE

open StateExcept

namespace SoftCPU64

/-! ## Lanes -/

/-- The field of a register that an operand names.  A write of it reaches over as many bits, or over
some more that it clears. -/
structure Lane where
  home : Register
  start : Nat
  length : Nat
  reach : Nat
  length_le : length ≤ reach
  reach_le : start + reach ≤ 64

/-- A legacy byte register is the second byte of its home; a 32-bit write reaches over the whole
register. -/
def laneOf (register : Register) (width : Width) (prefixes : Prefixes) : Lane :=
  if isHighByte register width prefixes then
    ⟨highByteHome register, 8, 8, 8, Nat.le_refl 8, by decide⟩
  else
    ⟨register, 0, width.bits, if width = .w32 then 64 else width.bits, by cases width <;> decide,
      by cases width <;> decide⟩

namespace Lane

variable (lane : Lane) (file : Register → U64) (value : U64)

def get : U64 :=
  BitField.get (file lane.home) lane.start lane.length

def set : Register → U64 :=
  Function.update file lane.home
    (BitField.set (file lane.home) lane.start lane.reach (value &&& BitField.mask 64 lane.length))

/-- The bit belongs to the lane. -/
def Holds (register : Register) (i : Nat) : Prop :=
  register = lane.home ∧ lane.start ≤ i ∧ i < lane.start + lane.length

/-- A write of the lane reaches the bit. -/
def Reaches (register : Register) (i : Nat) : Prop :=
  register = lane.home ∧ lane.start ≤ i ∧ i < lane.start + lane.reach

variable {lane file value}

theorem Holds.reaches {register : Register} {i : Nat} (h : lane.Holds register i) :
    lane.Reaches register i :=
  ⟨h.1, h.2.1, Nat.lt_of_lt_of_le h.2.2 (Nat.add_le_add_left lane.length_le lane.start)⟩

/-- A bit that the write does not reach stays. -/
theorem getLsbD_set_of_not_reaches {register : Register} {i : Nat}
    (h : ¬lane.Reaches register i) :
    (lane.set file value register).getLsbD i = (file register).getLsbD i := by
  by_cases hhome : register = lane.home
  · subst hhome
    rw [set, Function.update_self, BitField.getLsbD_set lane.reach_le]
    exact if_neg fun hinside => h ⟨rfl, hinside⟩
  · rw [set, Function.update_of_ne hhome]

/-- A bit that it reaches is a bit of the value, or clear. -/
theorem getLsbD_set_of_reaches {register : Register} {i : Nat} (h : lane.Reaches register i) :
    (lane.set file value register).getLsbD i =
      (decide (i < lane.start + lane.length) && value.getLsbD (i - lane.start)) := by
  rcases h with ⟨rfl, hstart, hend⟩
  have hreach := lane.reach_le
  have hshifted : i - lane.start < 64 := by omega
  have hinside : i - lane.start < lane.length ↔ i < lane.start + lane.length := by omega
  rw [set, Function.update_self, BitField.getLsbD_set hreach, if_pos ⟨hstart, hend⟩,
    BitVec.getLsbD_and, BitField.getLsbD_mask]
  simp only [hshifted, hinside, decide_true, Bool.true_and]
  exact Bool.and_comm _ _

/-- A write reaches exactly the bits that it changes in some file. -/
theorem exists_changes_iff (value : U64) {register : Register} {i : Nat} :
    (∃ file : Register → U64,
      (lane.set file value register).getLsbD i ≠ (file register).getLsbD i) ↔
      lane.Reaches register i := by
  constructor
  · rintro ⟨file, hchanges⟩
    by_contra hreaches
    exact hchanges (getLsbD_set_of_not_reaches hreaches)
  · intro hreaches
    have hi : i < 64 := Nat.lt_of_lt_of_le hreaches.2.2 lane.reach_le
    -- the file that holds the opposite bit everywhere
    cases hbit : decide (i < lane.start + lane.length) && value.getLsbD (i - lane.start) with
    | false =>
        refine ⟨fun _ => BitVec.allOnes 64, ?_⟩
        rw [getLsbD_set_of_reaches hreaches, hbit, BitVec.getLsbD_allOnes]
        simp [hi]
    | true =>
        refine ⟨fun _ => 0, ?_⟩
        rw [getLsbD_set_of_reaches hreaches, hbit]
        simp

/-- A lane holds what was written to it. -/
theorem get_set : lane.get (lane.set file value) = value &&& BitField.mask 64 lane.length := by
  have hlength := lane.length_le
  have hreach := lane.reach_le
  apply BitVec.eq_of_getLsbD_eq
  intro i hi
  rw [get, BitField.getLsbD_get (by omega), BitVec.getLsbD_and, BitField.getLsbD_mask]
  by_cases hinside : i < lane.length
  · have hholds : lane.Holds lane.home (lane.start + i) := ⟨rfl, by omega, by omega⟩
    rw [getLsbD_set_of_reaches hholds.reaches]
    simp [hinside, hi]
  · simp [hinside]

/-- Writing what was read changes nothing, unless the write reaches beyond the lane. -/
theorem set_get (h : lane.reach = lane.length) : lane.set file (lane.get file) = file := by
  have hlength := lane.reach_le
  rw [set, get, h, BitField.set_and_mask, BitField.set_get (h ▸ hlength), Function.update_eq_self]

theorem set_set (value' : U64) :
    lane.set (lane.set file value) value' = lane.set file value' := by
  rw [set, set, set, Function.update_self, BitField.set_set lane.reach_le, Function.update_idem]

end Lane

/-! ## Lanes of the register files -/

section Lanes

variable (file : Register → U64) {register other : Register} {width : Width} {prefixes : Prefixes}

/-- Only a byte can be a high byte. -/
theorem width_of_isHighByte (h : isHighByte register width prefixes = true) : width = .w8 := by
  simp only [isHighByte, Bool.and_eq_true, decide_eq_true_eq] at h
  exact h.1.1.1

theorem isHighByte_of_ne (hwidth : width ≠ .w8) (register : Register) (prefixes : Prefixes) :
    isHighByte register width prefixes = false := by
  simp [isHighByte, hwidth]

theorem readLane_of_not_isHighByte (hhigh : isHighByte register width prefixes = false) :
    readLane file register width prefixes = file register &&& maskForWidth width := by
  rw [readLane, if_neg (Bool.eq_false_iff.mp hhigh)]

variable (register width prefixes) (value : U64)

theorem maskForWidth_eq_mask : maskForWidth width = BitField.mask 64 width.bits := by
  cases width <;> decide

theorem laneOf_length : (laneOf register width prefixes).length = width.bits := by
  unfold laneOf
  split
  next hhigh => rw [width_of_isHighByte hhigh, Width.bits]
  next => rfl

theorem readLane_eq :
    readLane file register width prefixes = (laneOf register width prefixes).get file := by
  unfold readLane laneOf
  split
  · rfl
  · rw [maskForWidth_eq_mask]
    simp [Lane.get, BitField.get]

theorem writeLane_eq :
    writeLane file register width prefixes value =
      (laneOf register width prefixes).set file value := by
  unfold writeLane laneOf
  rw [maskForWidth_eq_mask]
  by_cases hhigh : isHighByte register width prefixes = true
  · have hwidth := width_of_isHighByte hhigh
    subst hwidth
    simp only [if_pos hhigh, Lane.set, BitField.set_and_mask]
    rfl
  · simp only [if_neg hhigh, Lane.set]
    cases width with
    | w8 =>
        simp only [reduceCtorEq, if_false, BitField.set_and_mask, BitField.set_zero]
        rfl
    | w16 =>
        simp only [reduceCtorEq, if_false, BitField.set_and_mask, BitField.set_zero]
        rfl
    | w32 => simp only [if_true, BitField.set_whole]
    | w64 =>
        simp only [reduceCtorEq, if_false]
        exact congrArg _ (BitField.set_whole _ _).symm

/-- A lane holds what was written to it. -/
theorem readLane_writeLane :
    readLane (writeLane file register width prefixes value) register width prefixes =
      value &&& maskForWidth width := by
  rw [readLane_eq, writeLane_eq, Lane.get_set, laneOf_length, maskForWidth_eq_mask]

/-- Writing back what was read changes nothing, unless it clears the upper half. -/
theorem writeLane_readLane (hwidth : width ≠ .w32) :
    writeLane file register width prefixes (readLane file register width prefixes) = file := by
  have hreach : (laneOf register width prefixes).reach =
      (laneOf register width prefixes).length := by
    unfold laneOf
    simp only [if_neg hwidth]
    split
    · rfl
    · rfl
  rw [readLane_eq, writeLane_eq, Lane.set_get hreach]

/-- The second of two writes of a lane wins. -/
theorem writeLane_writeLane (value' : U64) :
    writeLane (writeLane file register width prefixes value) register width prefixes value' =
      writeLane file register width prefixes value' := by
  rw [writeLane_eq, writeLane_eq, writeLane_eq, Lane.set_set]

variable {register width prefixes}

theorem writeLane_of_ne (hhigh : isHighByte register width prefixes = false)
    (hother : other ≠ register) :
    writeLane file register width prefixes value other = file other := by
  have hhome : (laneOf register width prefixes).home = register := by
    rw [laneOf, if_neg (Bool.eq_false_iff.mp hhigh)]
  rw [writeLane_eq, Lane.set, hhome, Function.update_of_ne hother]

end Lanes

/-! ## The functions of the source -/

/-- An entry of one of the two arrays. -/
def entry (registerIndex : U32) : Register :=
  Fin.ofNat 16 registerIndex.toNat

/-- The register of an index: `register_index &= 15`. -/
def registerOf (registerIndex : U32) : Register :=
  entry (registerIndex &&& 15)

/-- `gpr_shadow`. -/
def gprShadowAt (cpu : SoftCPU64) (registerIndex : U32) (width : Width) (prefixes : Prefixes) :
    U64 :=
  let registerIndex := registerIndex &&& 15
  if width = .w8 then
    if !prefixes.rexPresent && 4 ≤ registerIndex && registerIndex ≤ 7 then
      cpu.gprShadow (entry (registerIndex - 4)) >>> 8 &&& 0xff
    else cpu.gprShadow (entry registerIndex) &&& 0xff
  else if width = .w16 then cpu.gprShadow (entry registerIndex) &&& 0xffff
  else if width = .w32 then cpu.gprShadow (entry registerIndex) &&& 0xffffffff
  else cpu.gprShadow (entry registerIndex)

/-- `set_gpr_shadow`. -/
def setGprShadowAt (cpu : SoftCPU64) (registerIndex : U32) (width : Width) (shadow : U64)
    (prefixes : Prefixes) : SoftCPU64 :=
  let registerIndex := registerIndex &&& 15
  let shadow := shadow &&& maskForWidth width
  let target := cpu.gprShadow (entry registerIndex)
  if width = .w8 then
    if !prefixes.rexPresent && 4 ≤ registerIndex && registerIndex ≤ 7 then
      let highTarget := cpu.gprShadow (entry (registerIndex - 4))
      cpu.setRegShadow (entry (registerIndex - 4))
        (highTarget &&& ~~~(0xff00 : U64) ||| shadow <<< 8)
    else cpu.setRegShadow (entry registerIndex) (target &&& ~~~(0xff : U64) ||| shadow)
  else if width = .w16 then
    cpu.setRegShadow (entry registerIndex) (target &&& ~~~(0xffff : U64) ||| shadow)
  else cpu.setRegShadow (entry registerIndex) shadow

/-- `read_gpr`: the value, and the CPU that a consumed uninitialized byte has tainted. -/
def readGprAt (cpu : SoftCPU64) (registerIndex : U32) (width : Width) (prefixes : Prefixes) :
    U64 × SoftCPU64 :=
  let cpu := if cpu.gprShadowAt registerIndex width prefixes ≠ 0 then cpu.taint else cpu
  let registerIndex := registerIndex &&& 15
  if width = .w8 then
    if !prefixes.rexPresent && 4 ≤ registerIndex && registerIndex ≤ 7 then
      (cpu.gpr (entry (registerIndex - 4)) >>> 8 &&& 0xff, cpu)
    else (cpu.gpr (entry registerIndex) &&& 0xff, cpu)
  else if width = .w16 then (cpu.gpr (entry registerIndex) &&& 0xffff, cpu)
  else if width = .w32 then (cpu.gpr (entry registerIndex) &&& 0xffffffff, cpu)
  else (cpu.gpr (entry registerIndex), cpu)

/-- `write_gpr`. -/
def writeGprAt (cpu : SoftCPU64) (registerIndex : U32) (width : Width) (value : U64)
    (prefixes : Prefixes) : SoftCPU64 :=
  let cpu := cpu.setGprShadowAt registerIndex width
    (if cpu.currentTaint then maskForWidth width else 0) prefixes
  let registerIndex := registerIndex &&& 15
  let value := value &&& maskForWidth width
  let target := cpu.gpr (entry registerIndex)
  if width = .w8 then
    if !prefixes.rexPresent && 4 ≤ registerIndex && registerIndex ≤ 7 then
      let highTarget := cpu.gpr (entry (registerIndex - 4))
      cpu.setReg (entry (registerIndex - 4)) (highTarget &&& ~~~(0xff00 : U64) ||| value <<< 8)
    else cpu.setReg (entry registerIndex) (target &&& ~~~(0xff : U64) ||| value)
  else if width = .w16 then
    cpu.setReg (entry registerIndex) (target &&& ~~~(0xffff : U64) ||| value)
  else if width = .w32 then cpu.setReg (entry registerIndex) value
  else cpu.setReg (entry registerIndex) value

/-! ## Two copies of one lane -/

section Copies

variable (cpu : SoftCPU64) (file : Register → U64) (registerIndex : U32) (width : Width)
  (value : U64) (prefixes : Prefixes)

theorem toNat_and_fifteen : (registerIndex &&& 15).toNat = registerIndex.toNat % 16 := by
  have hmask : (15 : U32).toNat = 2 ^ 4 - 1 := by decide
  rw [BitVec.toNat_and, hmask, Nat.and_two_pow_sub_one_eq_mod]

theorem registerOf_val : (registerOf registerIndex).val = (registerIndex &&& 15).toNat := by
  have hlt := toNat_and_fifteen registerIndex
  change (registerIndex &&& 15).toNat % 16 = _
  omega

/-- The test for a legacy byte register. -/
theorem isHighByte_registerOf :
    isHighByte (registerOf registerIndex) .w8 prefixes =
      (!prefixes.rexPresent && 4 ≤ registerIndex &&& 15 && registerIndex &&& 15 ≤ 7) := by
  simp [isHighByte, registerOf_val, BitVec.le_def]

/-- The home of a legacy byte register. -/
theorem highByteHome_registerOf (h : 4 ≤ registerIndex &&& 15) :
    highByteHome (registerOf registerIndex) = entry ((registerIndex &&& 15) - 4) := by
  have hlt := toNat_and_fifteen registerIndex
  rw [BitVec.le_def] at h
  have hfour : (4 : U32).toNat = 4 := rfl
  apply Fin.ext
  change (registerOf registerIndex).val - 4 = ((registerIndex &&& 15) - 4).toNat % 16
  rw [registerOf_val, BitVec.toNat_sub_of_le h]
  omega

/-- Reading a lane, by cases as the source has them. -/
theorem readLane_registerOf :
    readLane file (registerOf registerIndex) width prefixes =
      if width = .w8 then
        if !prefixes.rexPresent && 4 ≤ registerIndex &&& 15 && registerIndex &&& 15 ≤ 7 then
          file (entry ((registerIndex &&& 15) - 4)) >>> 8 &&& 0xff
        else file (registerOf registerIndex) &&& 0xff
      else if width = .w16 then file (registerOf registerIndex) &&& 0xffff
      else if width = .w32 then file (registerOf registerIndex) &&& 0xffffffff
      else file (registerOf registerIndex) := by
  cases width with
  | w8 =>
      rw [if_pos rfl, ← isHighByte_registerOf, readLane]
      split
      next hhigh =>
        rw [isHighByte_registerOf, Bool.and_eq_true, Bool.and_eq_true, decide_eq_true_eq] at hhigh
        rw [highByteHome_registerOf registerIndex hhigh.1.2]
      next => rfl
  | w16 =>
      rw [readLane, isHighByte_of_ne (by decide)]
      rfl
  | w32 =>
      rw [readLane, isHighByte_of_ne (by decide)]
      rfl
  | w64 =>
      rw [readLane, isHighByte_of_ne (by decide)]
      exact BitVec.and_allOnes

/-- Writing a lane, by cases as the source has them. -/
theorem writeLane_registerOf :
    writeLane file (registerOf registerIndex) width prefixes value =
      if width = .w8 then
        if !prefixes.rexPresent && 4 ≤ registerIndex &&& 15 && registerIndex &&& 15 ≤ 7 then
          let home := entry ((registerIndex &&& 15) - 4)
          Function.update file home
            (file home &&& ~~~(0xff00 : U64) ||| (value &&& maskForWidth width) <<< 8)
        else
          Function.update file (registerOf registerIndex)
            (file (registerOf registerIndex) &&& ~~~(0xff : U64) ||| value &&& maskForWidth width)
      else if width = .w16 then
        Function.update file (registerOf registerIndex)
          (file (registerOf registerIndex) &&& ~~~(0xffff : U64) ||| value &&& maskForWidth width)
      else Function.update file (registerOf registerIndex) (value &&& maskForWidth width) := by
  cases width with
  | w8 =>
      rw [if_pos rfl, ← isHighByte_registerOf, writeLane]
      split
      next hhigh =>
        rw [isHighByte_registerOf, Bool.and_eq_true, Bool.and_eq_true, decide_eq_true_eq] at hhigh
        rw [highByteHome_registerOf registerIndex hhigh.1.2]
      next => rfl
  | w16 =>
      rw [writeLane, isHighByte_of_ne (by decide)]
      rfl
  | w32 =>
      rw [writeLane, isHighByte_of_ne (by decide)]
      rfl
  | w64 =>
      rw [writeLane, isHighByte_of_ne (by decide)]
      rfl

theorem gprShadowAt_eq :
    cpu.gprShadowAt registerIndex width prefixes =
      readLane cpu.gprShadow (registerOf registerIndex) width prefixes :=
  (readLane_registerOf cpu.gprShadow registerIndex width prefixes).symm

theorem setGprShadowAt_eq :
    cpu.setGprShadowAt registerIndex width value prefixes =
      { cpu with
        gprShadow := writeLane cpu.gprShadow (registerOf registerIndex) width prefixes value } := by
  rw [writeLane_registerOf]
  unfold setGprShadowAt
  dsimp only
  split_ifs <;> rfl

theorem readGprAt_eq :
    cpu.readGprAt registerIndex width prefixes =
      (readLane cpu.gpr (registerOf registerIndex) width prefixes,
        if readLane cpu.gprShadow (registerOf registerIndex) width prefixes ≠ 0 then cpu.taint
        else cpu) := by
  rw [readLane_registerOf cpu.gpr, ← gprShadowAt_eq]
  unfold readGprAt
  dsimp only
  split_ifs <;> rfl

theorem writeGprAt_eq :
    cpu.writeGprAt registerIndex width value prefixes =
      cpu.withGpr (registerOf registerIndex) width value prefixes := by
  rw [withGpr, writeLane_registerOf cpu.gpr, writeGprAt, setGprShadowAt_eq]
  dsimp only
  split_ifs <;> rfl

/-- The reads of the instructions are reads of the two copies. -/
theorem readGpr_eq_readGprAt (emulator : Emulator) :
    readGpr (registerOf registerIndex) width prefixes emulator =
      .ok (emulator.cpu.readGprAt registerIndex width prefixes).1
        (emulator.withCPU (emulator.cpu.readGprAt registerIndex width prefixes).2) := by
  rw [readGprAt_eq, readGpr, bind_of_ok (getCPU_apply emulator)]
  split
  · rfl
  · rfl

/-- The writes of the instructions are writes of the two copies. -/
theorem writeGpr_eq_writeGprAt (emulator : Emulator) :
    writeGpr (registerOf registerIndex) width value prefixes emulator =
      .ok () (emulator.withCPU
        (emulator.cpu.writeGprAt registerIndex width value prefixes)) := by
  rw [writeGprAt_eq]
  rfl

end Copies

/-! ## The laws of the register file -/

section Laws

variable {file : Register → U64} {register : Register} {width : Width} {prefixes : Prefixes}
  {value : U64}

/-- A value bit of a register that the write changes for some earlier values. -/
def ValueMayChange (cpu : SoftCPU64) (registerIndex : U32) (width : Width) (value : U64)
    (prefixes : Prefixes) (register : Register) (i : Nat) : Prop :=
  ∃ gpr : Register → U64,
    ((({ cpu with gpr := gpr } : SoftCPU64).writeGprAt registerIndex width value prefixes).gpr
      register).getLsbD i ≠ (gpr register).getLsbD i

/-- A shadow bit of a register that the write changes for some earlier shadows. -/
def ShadowMayChange (cpu : SoftCPU64) (registerIndex : U32) (width : Width) (value : U64)
    (prefixes : Prefixes) (register : Register) (i : Nat) : Prop :=
  ∃ gprShadow : Register → U64,
    ((({ cpu with gprShadow := gprShadow } : SoftCPU64).writeGprAt registerIndex width value
      prefixes).gprShadow register).getLsbD i ≠ (gprShadow register).getLsbD i

theorem gpr_writeGprAt (cpu : SoftCPU64) (registerIndex : U32) :
    (cpu.writeGprAt registerIndex width value prefixes).gpr =
      (laneOf (registerOf registerIndex) width prefixes).set cpu.gpr value := by
  rw [writeGprAt_eq, withGpr, writeLane_eq]

theorem gprShadow_writeGprAt (cpu : SoftCPU64) (registerIndex : U32) :
    (cpu.writeGprAt registerIndex width value prefixes).gprShadow =
      (laneOf (registerOf registerIndex) width prefixes).set cpu.gprShadow
        (if cpu.currentTaint then maskForWidth width else 0) := by
  rw [writeGprAt_eq, withGpr, writeLane_eq cpu.gprShadow]

theorem valueMayChange_iff {cpu : SoftCPU64} {registerIndex : U32} {i : Nat} :
    cpu.ValueMayChange registerIndex width value prefixes register i ↔
      (laneOf (registerOf registerIndex) width prefixes).Reaches register i := by
  unfold ValueMayChange
  simp only [gpr_writeGprAt]
  exact Lane.exists_changes_iff value

theorem shadowMayChange_iff {cpu : SoftCPU64} {registerIndex : U32} {i : Nat} :
    cpu.ShadowMayChange registerIndex width value prefixes register i ↔
      (laneOf (registerOf registerIndex) width prefixes).Reaches register i := by
  unfold ShadowMayChange
  simp only [gprShadow_writeGprAt]
  exact Lane.exists_changes_iff (if cpu.currentTaint then maskForWidth width else 0)

/-- A write reaches beyond the lane only over the upper half of the register of a 32-bit lane. -/
theorem laneOf_reaches_iff {other : Register} {i : Nat} :
    (laneOf register width prefixes).Reaches other i ↔
      (laneOf register width prefixes).Holds other i ∨
        width = .w32 ∧ other = register ∧ 32 ≤ i ∧ i < 64 := by
  by_cases hhigh : isHighByte register width prefixes = true
  · have hwidth : width ≠ .w32 := by
      rw [width_of_isHighByte hhigh]
      nofun
    simp [laneOf, hhigh, hwidth, Lane.Reaches, Lane.Holds]
  · by_cases hwidth : width = .w32
    · subst hwidth
      by_cases hother : other = register
      · simp [laneOf, hhigh, Lane.Reaches, Lane.Holds, Width.bits, hother]
        omega
      · simp [laneOf, hhigh, Lane.Reaches, Lane.Holds, hother]
    · simp [laneOf, hhigh, hwidth, Lane.Reaches, Lane.Holds]

/-- A bit outside of the lane stays, unless a 32-bit write clears it. -/
theorem getLsbD_set_laneOf {other : Register} {i : Nat} (hi : i < 64)
    (h : ¬(laneOf register width prefixes).Holds other i) :
    ((laneOf register width prefixes).set file value other).getLsbD i =
      if width = .w32 ∧ other = register ∧ 32 ≤ i then false else (file other).getLsbD i := by
  split
  next hupper =>
    have hreaches : (laneOf register width prefixes).Reaches other i :=
      laneOf_reaches_iff.mpr (.inr ⟨hupper.1, hupper.2.1, hupper.2.2, hi⟩)
    have houtside : ¬i < (laneOf register width prefixes).start +
        (laneOf register width prefixes).length := fun hlt => h ⟨hreaches.1, hreaches.2.1, hlt⟩
    rw [Lane.getLsbD_set_of_reaches hreaches]
    simp [houtside]
  next hkept =>
    apply Lane.getLsbD_set_of_not_reaches
    rw [laneOf_reaches_iff]
    rintro (hholds | ⟨hwidth, hother, hstart, -⟩)
    · exact h hholds
    · exact hkept ⟨hwidth, hother, hstart⟩

/-- The register file is a lens, for the values and for the shadows alike: a register holds what was
written to it, its shadow is the taint of the instruction, no bit outside the written lane changes
except that a 32-bit write clears the upper half, and the shadows change where the values do. -/
theorem registerFile_lens (cpu : SoftCPU64) (registerIndex : U32) (width : Width) (value : U64)
    (prefixes : Prefixes) :
    let after := cpu.writeGprAt registerIndex width value prefixes
    let lane := laneOf (registerOf registerIndex) width prefixes
    (after.readGprAt registerIndex width prefixes).1.toNat = value.toNat % 2 ^ width.bits ∧
      after.gprShadowAt registerIndex width prefixes =
        (if cpu.currentTaint then maskForWidth width else 0) ∧
      (∀ register i, i < 64 → ¬lane.Holds register i →
        (after.gpr register).getLsbD i =
          if width = .w32 ∧ register = registerOf registerIndex ∧ 32 ≤ i then false
          else (cpu.gpr register).getLsbD i) ∧
      ∀ register i, cpu.ShadowMayChange registerIndex width value prefixes register i ↔
        cpu.ValueMayChange registerIndex width value prefixes register i := by
  intro after lane
  have hafter : after = cpu.withGpr (registerOf registerIndex) width value prefixes :=
    writeGprAt_eq cpu registerIndex width value prefixes
  have hread : (after.readGprAt registerIndex width prefixes).1 = value &&& maskForWidth width := by
    rw [readGprAt_eq, hafter]
    exact readLane_writeLane _ _ _ _ _
  have hshadow : after.gprShadowAt registerIndex width prefixes =
      (if cpu.currentTaint then maskForWidth width else 0) &&& maskForWidth width := by
    rw [gprShadowAt_eq, hafter]
    exact readLane_writeLane _ _ _ _ _
  refine ⟨?_, ?_, ?_, ?_⟩
  · rw [hread, toNat_and_maskForWidth]
  · rw [hshadow]
    split
    · exact BitVec.and_self
    · exact BitVec.zero_and
  · intro register i hi houtside
    rw [gpr_writeGprAt]
    exact getLsbD_set_laneOf hi houtside
  · intro register i
    rw [shadowMayChange_iff, valueMayChange_iff]

end Laws

end SoftCPU64

end LUE
