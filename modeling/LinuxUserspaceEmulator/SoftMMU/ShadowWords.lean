import LinuxUserspaceEmulator.SoftMMU.TwoMemories
import LinuxUserspaceEmulator.SoftMMU.Words

/-!
# Shadowed words

A shadowed write spreads a value and its shadow over the cells of consecutive addresses, which may
belong to different regions.  A cell keeps one flag for a byte, so a later shadowed read finds the
shadow normalized to full byte lanes.

Main results:

- Theorem `readIntegerWithShadow_of_cells`: a shadowed read assembles the bytes and the flags of
  the cells.
- Theorem `writeIntegerWithShadow_of_writable`: a shadowed write edits the cells of its bytes and
  nothing else.
- Theorem `shadowedWord_roundTrip`: a written word with its shadow is read back with the shadow
  normalized.
-/

namespace LUE

open StateExcept SoftMMU

variable {mmu mmu' : SoftMMU} {address : U64} {count : Nat}

/-! ## Reads -/

/-- The shadow lane of a byte with the given flag. -/
def shadowLane (initialized : Bool) : U8 :=
  if initialized then 0 else 0xff

@[simp]
theorem shadowLane_true : shadowLane true = 0 := rfl

@[simp]
theorem shadowLane_false : shadowLane false = 0xff := rfl

instance : Nonempty Cell :=
  ⟨{ byte := 0, initialized := false, prot := 0, name := "", backing := .simple }⟩

/-- A shadowed read assembles the bytes of the cells, and one lane of shadow for each flag. -/
theorem readIntegerWithShadow_of_cells {cells : Nat → Cell} (hwf : RegionsWellFormed mmu.regions)
    (hcells : ∀ i < count,
      mmu.addressMap.access (address + BitVec.ofNat 64 i) protRead = .ok (cells i)) :
    ∃ mmu', readIntegerWithShadow address count mmu =
        .ok ⟨LittleEndian.assemble (fun i => (cells i).byte) count,
          LittleEndian.assemble (fun i => shadowLane (cells i).initialized) count⟩ mmu' ∧
      mmu'.regions = mmu.regions := by
  induction count with
  | zero => exact ⟨mmu, rfl, rfl⟩
  | succ count ih =>
      rcases ih fun i hi => hcells i (Nat.lt_succ_of_lt hi) with ⟨middle, hlow, hregions⟩
      have hlast : middle.addressMap.access (address + BitVec.ofNat 64 count) protRead =
          .ok (cells count) := by
        rw [addressMap, hregions]
        exact hcells count (Nat.lt_succ_self count)
      have hbyte := read8WithShadow_of_access (hregions ▸ hwf) hlast
      rw [readIntegerWithShadow, bind_of_ok hlow, bind_of_ok hbyte]
      refine ⟨_, congrArg (fun value => EStateM.Result.ok value _) ?_, hregions⟩
      rw [cellValue_value, cellValue_isUninitialized]
      cases hflag : (cells count).initialized with
      | false => simp [LittleEndian.assemble, hflag]
      | true => simp [LittleEndian.assemble, hflag]

/-! ## Writes -/

/-- What a shadowed write makes of the cell at an offset. -/
def shadowedCell (value : ValueWithShadow 64) (i : Nat) (cell : Cell) : Cell :=
  { cell with
    byte := LittleEndian.byte value.value i
    initialized := LittleEndian.byte value.shadow i == 0 }

/-- A shadowed write to writable bytes edits their cells and nothing else. -/
theorem writeIntegerWithShadow_of_writable {value : ValueWithShadow 64}
    (hwf : RegionsWellFormed mmu.regions) (hfits : address.toNat + count ≤ 2 ^ 64)
    (haccess : ∀ i < count, ∃ cell,
      mmu.addressMap.access (address + BitVec.ofNat 64 i) protWrite = .ok cell) :
    ∃ mmu', writeIntegerWithShadow address value count mmu = .ok () mmu' ∧
      mmu.Edits mmu' (mmu.addressMap.editCells address count (shadowedCell value)) := by
  apply forOffsets_editCells hwf hfits haccess
  intro i middle cell hmiddle hcell
  exact write8WithShadow_of_access hmiddle hcell
    ⟨LittleEndian.byte value.value i, LittleEndian.byte value.shadow i⟩

/-- A plain write is the shadowed write of an initialized value. -/
theorem writeInteger_eq_withShadow (address value : U64) (count : Nat) :
    writeInteger address value count =
      writeIntegerWithShadow address (.initialized value) count := by
  unfold writeInteger writeIntegerWithShadow write8
  simp [ValueWithShadow.initialized]

/-! ## Round trip -/

/-- A value of fewer bytes as the low bytes of a word. -/
def ValueWithShadow.word {w : Nat} (value : ValueWithShadow w) : ValueWithShadow 64 :=
  ⟨value.value.setWidth 64, value.shadow.setWidth 64⟩

/-- What a shadowed write of `count` bytes leaves for later reads. -/
structure ShadowedWordWritten (mmu mmu' : SoftMMU) (address : U64) (count : Nat)
    (value : ValueWithShadow 64) : Prop where
  /-- A shadowed read gives the value, with a full lane for each byte of shadow that is not zero. -/
  shadowed : ∃ shadow after,
    readIntegerWithShadow address count mmu' = .ok ⟨value.value, shadow⟩ after ∧
      ∀ i, LittleEndian.byte shadow i =
        if i < count ∧ LittleEndian.byte value.shadow i ≠ 0 then 0xff else 0
  /-- A plain read gives the value. -/
  plain : mmu'.readInteger address count = .ok value.value
  /-- The cells of the other addresses are the old ones. -/
  others : ∀ a, (∀ i < count, a ≠ address + BitVec.ofNat 64 i) →
    mmu'.addressMap a = mmu.addressMap a

/-- The cells that a shadowed write leaves give the written word to a reader. -/
theorem shadowedWordWritten_of_edits (hcount : count ≤ 8)
    (hfits : address.toNat + count ≤ 2 ^ 64) (value : ValueWithShadow (count * 8))
    (hread : ∀ i < count, ∃ cell,
      mmu.addressMap.access (address + BitVec.ofNat 64 i) protRead = .ok cell)
    (hedits : mmu.Edits mmu'
      (mmu.addressMap.editCells address count (shadowedCell value.word))) :
    ShadowedWordWritten mmu mmu' address count value.word := by
  choose! cells hcells using hread
  have hwritten : ∀ i < count,
      mmu'.addressMap.access (address + BitVec.ofNat 64 i) protRead =
        .ok (shadowedCell value.word i (cells i)) := by
    intro i hi
    rcases AddressMap.access_eq_ok_iff.mp (hcells i hi) with ⟨hcell, hprot⟩
    apply AddressMap.access_eq_ok_iff.mpr
    rw [hedits.addressMap, AddressMap.editCells_offset hfits hi, hcell]
    exact ⟨rfl, hprot⟩
  rcases readIntegerWithShadow_of_cells hedits.wellFormed hwritten with ⟨after, hresult, -⟩
  have hvalue : LittleEndian.assemble
      (fun i => (shadowedCell value.word i (cells i)).byte) count = value.word.value :=
    LittleEndian.assemble_byte_setWidth hcount value.value
  rw [hvalue] at hresult
  refine ⟨⟨_, after, hresult, fun i => ?_⟩, (readIntegerWithShadow_eq_ok hresult).1, ?_⟩
  · by_cases hi : i < count
    · rw [LittleEndian.byte_assemble hcount hi]
      simp [shadowedCell, shadowLane, hi]
    · rw [LittleEndian.byte_assemble_of_le hcount (Nat.le_of_not_lt hi), if_neg fun h => hi h.1]
  · intro a hother
    rw [hedits.addressMap, AddressMap.editCells, if_neg]
    intro hinside
    have hoffset := eq_offset_of_within hinside
    rw [within_iff] at hinside
    exact hother (a.toNat - address.toNat) (by omega) hoffset

/-- `write16_with_shadow` to `write64_with_shadow` and the reads of the same width, at any address
whose bytes are mapped readable and writable. -/
theorem shadowedWord_roundTrip (hinv : RegionInvariant mmu.regions) (hcount : count ≤ 8)
    (hread : ∀ i < count, Permits mmu (address + BitVec.ofNat 64 i) protRead)
    (hwrite : ∀ i < count, Permits mmu (address + BitVec.ofNat 64 i) protWrite)
    (value : ValueWithShadow (count * 8)) :
    (∃ mmu', writeIntegerWithShadow address value.word count mmu = .ok () mmu' ∧
      ShadowedWordWritten mmu mmu' address count value.word) ∧
    writeInteger address value.word.value count =
      writeIntegerWithShadow address (.initialized value.word.value) count := by
  have hwf := hinv.regionsWellFormed
  have hreadable := fun i hi => permits_iff_access.mp (hread i hi)
  have hwritable := fun i hi => permits_iff_access.mp (hwrite i hi)
  have hfits := fits_of_permits hwf hread
  constructor
  · rcases @writeIntegerWithShadow_of_writable _ _ _ value.word hwf hfits hwritable with
      ⟨mmu', hreturn, hedits⟩
    exact ⟨mmu', hreturn, shadowedWordWritten_of_edits hcount hfits value hreadable hedits⟩
  · exact writeInteger_eq_withShadow address value.word.value count

/-- Two adjacent pages of separate regions. -/
def adjacentPages : SoftMMU :=
  { regions := [.ofZeroes 0x1000 0x1000 3 "low", .ofZeroes 0x2000 0x1000 3 "high"] }

theorem adjacentPages_regionInvariant : RegionInvariant adjacentPages.regions := by
  have hwf : ∀ region ∈ adjacentPages.regions, region.WellFormed := by
    intro region hregion
    rcases List.mem_pair.mp hregion with rfl | rfl
    · exact Region.ofZeroes_wellFormed (by decide) (by decide) (by decide) 3 "low"
    · exact Region.ofZeroes_wellFormed (by decide) (by decide) (by decide) 3 "high"
  apply (regionsWellFormed_of_consecutive hwf ?_).regionInvariant
  · intro region hregion
    rcases List.mem_pair.mp hregion with rfl | rfl <;> decide
  · exact List.pairwise_pair.mpr (by decide)

/-- The last byte of one region and the first of the next. -/
theorem shadowedWord_roundTrip_adjacent :
    ∃ mmu', writeIntegerWithShadow 0x1fff ⟨0x1234, 0x100⟩ 2 adjacentPages = .ok () mmu' ∧
      ShadowedWordWritten adjacentPages mmu' 0x1fff 2 ⟨0x1234, 0x100⟩ := by
  have hpermits : ∀ i < 2, ∀ requiredProt, (3 : Protection) &&& requiredProt = requiredProt →
      Permits adjacentPages (0x1fff + BitVec.ofNat 64 i) requiredProt := by
    intro i hi requiredProt hprot
    have hcases : i = 0 ∨ i = 1 := by omega
    rcases hcases with rfl | rfl
    · exact ⟨3, rfl, hprot⟩
    · exact ⟨3, rfl, hprot⟩
  exact (shadowedWord_roundTrip adjacentPages_regionInvariant (by decide)
    (fun i hi => hpermits i hi protRead rfl) (fun i hi => hpermits i hi protWrite rfl)
    (⟨0x1234, 0x100⟩ : ValueWithShadow (2 * 8))).1

end LUE
