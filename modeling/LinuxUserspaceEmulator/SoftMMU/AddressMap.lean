import LinuxUserspaceEmulator.SoftMMU.WellFormed

/-!
# The flat address map

What the region list is for: a partial map that gives every mapped guest address its
byte, its initialization flag, its permission, and the identity of its mapping.  The
identity is the region kind and name and, for mappings of files, the path and the file
position of that address.

This is the abstract view of the memory map.  Operations on region lists are specified by
how they change it.

Main results:

- Theorem `SoftMMU.addressMap_eq_some_iff`: the cell of an address comes from the region
  that contains it.
- Theorem `SoftMMU.read8_eq_access`: a byte read only depends on the flat map.
- Theorem `addressMapOf_pushRegion`: mapping a new region fills its range.
-/

namespace LUE

open SegmentList StateExcept

/-! ## Cells -/

/-- Everything the guest can observe at one mapped address. -/
structure Cell where
  byte : U8
  initialized : Bool
  prot : Protection
  name : String
  /-- The region kind; for `mmap` regions the path and the file position. -/
  backing : Backing
deriving DecidableEq, Repr

/-- A partial map from guest addresses to cells. -/
abbrev AddressMap := U64 → Option Cell

/-- The half-open address range from `base` to `endAddress`. -/
def inRange (base endAddress address : U64) : Bool :=
  base ≤ address && address < endAddress

theorem inRange_iff {base endAddress address : U64} :
    inRange base endAddress address = true ↔
      base.toNat ≤ address.toNat ∧ address.toNat < endAddress.toNat := by
  simp [inRange, BitVec.le_def, BitVec.lt_def]

/-- The `count` addresses from `base` on, without wrapping. -/
def within (base : U64) (count : Nat) (address : U64) : Bool :=
  base.toNat ≤ address.toNat && address.toNat < base.toNat + count

theorem within_iff {base address : U64} {count : Nat} :
    within base count address = true ↔
      base.toNat ≤ address.toNat ∧ address.toNat < base.toNat + count := by
  simp [within]

theorem within_offset {base : U64} {count i : Nat} (hfits : base.toNat + count ≤ 2 ^ 64)
    (hi : i < count) : within base count (base + BitVec.ofNat 64 i) = true := by
  rw [within_iff, BitVec.toNat_add, BitVec.toNat_ofNat]
  omega

/-- An address of a range is the one at its offset. -/
theorem eq_offset_of_within {base address : U64} {count : Nat}
    (h : within base count address = true) :
    address = base + BitVec.ofNat 64 (address.toNat - base.toNat) := by
  have hlt := address.isLt
  rw [within_iff] at h
  apply BitVec.eq_of_toNat_eq
  rw [BitVec.toNat_add, BitVec.toNat_ofNat]
  omega

/-- The last of `count + 1` addresses is the one at offset `count`. -/
theorem within_succ {base address : U64} {count : Nat} (h : base.toNat + count < 2 ^ 64) :
    within base (count + 1) address = true ↔
      within base count address = true ∨ address = base + BitVec.ofNat 64 count := by
  have hlast : (base + BitVec.ofNat 64 count).toNat = base.toNat + count := by
    rw [BitVec.toNat_add, BitVec.toNat_ofNat]
    omega
  rw [within_iff, within_iff, ← BitVec.toNat_inj, hlast]
  omega

theorem not_within_last {base : U64} {count : Nat} (h : base.toNat + count < 2 ^ 64) :
    within base count (base + BitVec.ofNat 64 count) = false := by
  rw [Bool.eq_false_iff, ne_eq, within_iff, BitVec.toNat_add, BitVec.toNat_ofNat]
  omega

/-- Two ranges that share no address. -/
def RangesApart (base : U64) (count : Nat) (base' : U64) (count' : Nat) : Prop :=
  ∀ a, within base count a = true → within base' count' a = false

theorem RangesApart.symm {base base' : U64} {count count' : Nat}
    (h : RangesApart base count base' count') : RangesApart base' count' base count := by
  intro a ha
  rw [Bool.eq_false_iff]
  intro hin
  rw [h a hin] at ha
  cases ha

namespace AddressMap

/-- Change what the map says about every address of a range. -/
def change (map : AddressMap) (range : U64 → Bool) (f : Option Cell → Option Cell) :
    AddressMap := fun address =>
  if range address then f (map address) else map address

/-- Unmap a range. -/
def erase (map : AddressMap) (range : U64 → Bool) : AddressMap :=
  map.change range fun _ => none

/-- Give every mapped address of a range a permission. -/
def setProtection (map : AddressMap) (range : U64 → Bool) (prot : Protection) : AddressMap :=
  map.change range (Option.map fun cell => { cell with prot := prot })

/-- Put new cells on a range. -/
def fill (map : AddressMap) (range : U64 → Bool) (cells : U64 → Cell) : AddressMap :=
  fun address => if range address then some (cells address) else map address

/-- Put a new cell at one address. -/
def write (map : AddressMap) (address : U64) (cell : Cell) : AddressMap :=
  Function.update map address (some cell)

/-- Edit the cells of `count` addresses from `base` on, each by its offset. -/
def editCells (map : AddressMap) (base : U64) (count : Nat) (edit : Nat → Cell → Cell) :
    AddressMap := fun address =>
  if within base count address then (map address).map (edit (address.toNat - base.toNat))
  else map address

@[simp]
theorem editCells_zero (map : AddressMap) (base : U64) (edit : Nat → Cell → Cell) :
    map.editCells base 0 edit = map := by
  funext address
  rw [editCells, if_neg]
  rw [within_iff]
  omega

/-- The cell at an offset of an edited range. -/
theorem editCells_offset {map : AddressMap} {base : U64} {count i : Nat}
    {edit : Nat → Cell → Cell} (hfits : base.toNat + count ≤ 2 ^ 64) (hi : i < count) :
    map.editCells base count edit (base + BitVec.ofNat 64 i) =
      (map (base + BitVec.ofNat 64 i)).map (edit i) := by
  have hoffset : (base + BitVec.ofNat 64 i).toNat - base.toNat = i := by
    rw [BitVec.toNat_add, BitVec.toNat_ofNat]
    omega
  rw [editCells, if_pos (within_offset hfits hi), hoffset]

theorem editCells_last {map : AddressMap} {base : U64} {count : Nat}
    {edit : Nat → Cell → Cell} (h : base.toNat + count < 2 ^ 64) :
    map.editCells base count edit (base + BitVec.ofNat 64 count) =
      map (base + BitVec.ofNat 64 count) := by
  rw [editCells, if_neg (by simp [not_within_last h])]

/-- Editing one more cell writes it. -/
theorem editCells_succ {map : AddressMap} {base : U64} {count : Nat}
    {edit : Nat → Cell → Cell} {cell : Cell} (h : base.toNat + count < 2 ^ 64)
    (hcell : map (base + BitVec.ofNat 64 count) = some cell) :
    map.editCells base (count + 1) edit =
      (map.editCells base count edit).write (base + BitVec.ofNat 64 count)
        (edit count cell) := by
  have hlast : (base + BitVec.ofNat 64 count).toNat = base.toNat + count := by
    rw [BitVec.toNat_add, BitVec.toNat_ofNat]
    omega
  funext address
  by_cases hsame : address = base + BitVec.ofNat 64 count
  · have hwithin : within base (count + 1) address = true :=
      (within_succ h).mpr (Or.inr hsame)
    rw [editCells, if_pos hwithin, hsame, write, Function.update_self, hcell, hlast]
    simp
  · rw [write, Function.update_of_ne hsame, editCells, editCells]
    have hiff : within base (count + 1) address = within base count address := by
      rw [Bool.eq_iff_iff, within_succ h]
      simp [hsame]
    rw [hiff]

/-- The access check of `region_for`, on the flat map. -/
def access (map : AddressMap) (address : U64) (requiredProt : Protection) :
    Except Raise Cell :=
  match map address with
  | none => .error (.emulatorError ("unmapped guest memory at " ++ hex address))
  | some cell =>
      if cell.prot &&& requiredProt ≠ requiredProt then
        .error (.emulatorError
          ("guest memory permission fault at " ++ hex address ++ " in " ++ cell.name))
      else
        .ok cell

theorem access_eq_ok_iff {map : AddressMap} {address : U64} {requiredProt : Protection}
    {cell : Cell} :
    map.access address requiredProt = .ok cell ↔
      map address = some cell ∧ cell.prot &&& requiredProt = requiredProt := by
  unfold access
  cases hcell : map address with
  | none => simp
  | some found =>
      simp only [Option.some.injEq]
      split <;> rename_i hprot
      · constructor
        · intro h
          cases h
        · rintro ⟨rfl, hok⟩
          exact absurd hok hprot
      · simp only [ne_eq, not_not] at hprot
        constructor
        · intro h
          cases h
          exact ⟨rfl, hprot⟩
        · rintro ⟨rfl, -⟩
          rfl

/-- A refused access raises an `EmulatorError`. -/
theorem access_error {map : AddressMap} {address : U64} {requiredProt : Protection} {e : Raise}
    (h : map.access address requiredProt = .error e) : ∃ what, e = .emulatorError what := by
  unfold access at h
  split at h
  · cases h
    exact ⟨_, rfl⟩
  · split at h
    · cases h
      exact ⟨_, rfl⟩
    · cases h

@[simp]
theorem erase_apply (map : AddressMap) (range : U64 → Bool) (address : U64) :
    map.erase range address = if range address then none else map address :=
  rfl

@[simp]
theorem setProtection_apply (map : AddressMap) (range : U64 → Bool) (prot : Protection)
    (address : U64) :
    map.setProtection range prot address =
      if range address then (map address).map fun cell => { cell with prot := prot }
      else map address :=
  rfl

@[simp]
theorem fill_apply (map : AddressMap) (range : U64 → Bool) (cells : U64 → Cell)
    (address : U64) :
    map.fill range cells address =
      if range address then some (cells address) else map address :=
  rfl

end AddressMap

/-! ## The cells of a region -/

/-- What a region says about one of its addresses. -/
def Region.cellAt (region : Region) (address : U64) : Cell where
  byte := region.bytes.getD (address - region.base).toNat 0
  initialized := region.initialized.getD (address - region.base).toNat false
  prot := region.prot
  name := region.name
  backing := region.backing.advance (address - region.base)

theorem Region.cellAt_withProt (region : Region) (prot : Protection) (address : U64) :
    { region with prot := prot }.cellAt address =
      { region.cellAt address with prot := prot } :=
  rfl

/-- The flat map of a region list. -/
def addressMapOf (regions : List Region) : AddressMap := fun address =>
  (lookup Region.contains regions address).map fun region => region.cellAt address

namespace SoftMMU

/-- The flat map of a memory state. -/
def addressMap (mmu : SoftMMU) : AddressMap :=
  addressMapOf mmu.regions

theorem addressMap_eq_some_iff {mmu : SoftMMU} (hwf : RegionsWellFormed mmu.regions)
    {address : U64} {cell : Cell} :
    mmu.addressMap address = some cell ↔
      ∃ region ∈ mmu.regions, region.contains address = true ∧
        region.cellAt address = cell := by
  simp only [addressMap, addressMapOf, Option.map_eq_some_iff,
    lookup_eq_some_iff hwf.separated]
  constructor
  · rintro ⟨region, ⟨hmem, hcontains⟩, hcell⟩
    exact ⟨region, hmem, hcontains, hcell⟩
  · rintro ⟨region, hmem, hcontains, hcell⟩
    exact ⟨region, ⟨hmem, hcontains⟩, hcell⟩

theorem addressMap_eq_none_iff {mmu : SoftMMU} {address : U64} :
    mmu.addressMap address = none ↔
      ∀ region ∈ mmu.regions, region.contains address = false := by
  rw [addressMap, addressMapOf, Option.map_eq_none_iff, lookup_eq_none_iff]

/-- Nothing is mapped in the last page of the address space. -/
theorem lt_of_addressMap {mmu : SoftMMU} (hwf : RegionsWellFormed mmu.regions) {address : U64}
    {cell : Cell} (h : mmu.addressMap address = some cell) :
    address.toNat < 2 ^ 64 - 4096 := by
  obtain ⟨region, hmem, hcontains, -⟩ := (addressMap_eq_some_iff hwf).mp h
  have hregion := hwf.wellFormed region hmem
  have hrange := (hregion.contains_iff address).mp hcontains
  have hbase := hregion.base_mod
  have hsize := hregion.size_mod
  have hend := hregion.end_lt
  omega

/-- Resolving an address gives the region whose cell the flat map holds. -/
theorem regionFor_eq_ok_iff {mmu : SoftMMU} {address : U64} {requiredProt : Protection}
    {region : Region} :
    mmu.regionFor address requiredProt = .ok region ↔
      mmu.findRegion address = some region ∧ region.prot &&& requiredProt = requiredProt := by
  unfold regionFor
  cases hfound : mmu.findRegion address with
  | none => simp
  | some found =>
      simp only [Option.some.injEq]
      split <;> rename_i hprot
      · constructor
        · intro h
          cases h
        · rintro ⟨rfl, hok⟩
          exact absurd hok hprot
      · simp only [ne_eq, not_not] at hprot
        constructor
        · intro h
          cases h
          exact ⟨rfl, hprot⟩
        · rintro ⟨rfl, -⟩
          rfl

/-- A byte read only depends on the flat map. -/
theorem read8_eq_access {mmu : SoftMMU} (hwf : RegionsWellFormed mmu.regions)
    (address : U64) :
    mmu.read8 address = (mmu.addressMap.access address protRead).map Cell.byte := by
  have hmap : mmu.addressMap address =
      (mmu.findRegion address).map fun region => region.cellAt address := rfl
  simp only [read8, regionFor, AddressMap.access, hmap]
  cases hfound : mmu.findRegion address with
  | none => rfl
  | some region =>
      have hregion := hwf.wellFormed region (lookup_mem hfound)
      have hoffset := hregion.offset_lt (lookup_covers hfound)
      have hlt : (address - region.base).toNat < region.bytes.length := by
        rw [hregion.bytes_length]
        exact hoffset
      simp only [Option.map_some, Region.cellAt]
      split
      · rfl
      · exact Region.readOffset_of_lt hlt

end SoftMMU

/-! ## Edits of the flat map -/

/-- A state whose flat map is the given one, reached without losing the invariants. -/
structure SoftMMU.Edits (mmu mmu' : SoftMMU) (map : AddressMap) : Prop where
  wellFormed : RegionsWellFormed mmu'.regions
  addressMap : mmu'.addressMap = map
  regionInvariant : RegionInvariant mmu.regions → RegionInvariant mmu'.regions
  nextAllocation : mmu'.nextAllocation = mmu.nextAllocation

theorem SoftMMU.Edits.refl {mmu : SoftMMU} (hwf : RegionsWellFormed mmu.regions) :
    mmu.Edits mmu mmu.addressMap :=
  ⟨hwf, rfl, id, rfl⟩

theorem SoftMMU.Edits.trans {mmu mmu' mmu'' : SoftMMU} {map map' : AddressMap}
    (h : mmu.Edits mmu' map) (h' : mmu'.Edits mmu'' map') : mmu.Edits mmu'' map' :=
  ⟨h'.wellFormed, h'.addressMap, fun hinv => h'.regionInvariant (h.regionInvariant hinv),
    h'.nextAllocation.trans h.nextAllocation⟩

/-! ## Mapping a region -/

/-- A pushed region fills its range of the flat map. -/
theorem addressMapOf_pushRegion {regions : List Region} (hwf : RegionsWellFormed regions)
    {region : Region} (hapart : ∀ old ∈ regions, Apart Region.contains old region) :
    addressMapOf (SoftMMU.sortRegions (regions ++ [region])) =
      (addressMapOf regions).fill region.contains region.cellAt := by
  funext address
  simp only [addressMapOf, AddressMap.fill_apply]
  rw [SoftMMU.lookup_sortRegions (hwf.separated.append_singleton hapart),
    lookup_append_singleton hapart]
  split <;> rfl

/-- A pushed region keeps the list well formed. -/
theorem regionsWellFormed_pushRegion {regions : List Region} (hwf : RegionsWellFormed regions)
    {region : Region} (hregion : region.WellFormed)
    (hapart : ∀ old ∈ regions, Apart Region.contains old region) :
    RegionsWellFormed (SoftMMU.sortRegions (regions ++ [region])) := by
  apply SoftMMU.regionsWellFormed_sortRegions
  · intro old hold
    rcases List.mem_append.mp hold with hold | hold
    · exact hwf.wellFormed old hold
    · rw [List.mem_singleton.mp hold]
      exact hregion
  · exact hwf.separated.append_singleton hapart

end LUE
