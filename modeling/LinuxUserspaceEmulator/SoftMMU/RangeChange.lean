import LinuxUserspaceEmulator.SoftMMU.Split

/-!
# Unmapping and protecting a range

`unmap` and `protect` have one shape: return at once on a zero size, round the range to
pages, split the regions around it, and then erase or re-protect the regions inside it.
On the flat map the first empties the cells of the range and the second changes their
permission.

Main results:

- Theorem `RangeChange.apply_eq_ok`: the call changes the cells of its rounded range.
- Theorem `RangeChange.apply_eq_error`: a wrapped range inside a region is a host fault.
- Theorem `unmap_and_protect_refine_addressMap`: the two calls as operations on the flat
  map, for any region list with the region invariant.
-/

namespace LUE

open SegmentList StateExcept

/-- The two calls that change a range of the memory map. -/
inductive RangeChange where
  | unmap
  | protect (prot : Protection)
deriving DecidableEq, Repr

namespace RangeChange

/-- The member function. -/
def apply : RangeChange → U64 → U64 → MMUProgram Unit
  | unmap, base, size => SoftMMU.unmap base size
  | protect prot, base, size => SoftMMU.protect base size prot

/-- What becomes of the cell of an address in the range. -/
def onCell : RangeChange → Option Cell → Option Cell
  | unmap, _ => none
  | protect prot, cell => cell.map fun cell => { cell with prot := prot }

/-- What becomes of the split region list. -/
def onRegions (base endAddress : U64) : RangeChange → List Region → List Region
  | unmap, regions =>
      regions.filter fun region => !SoftMMU.insideRange base endAddress region
  | protect prot, regions =>
      regions.map fun region =>
        if SoftMMU.insideRange base endAddress region then { region with prot := prot }
        else region

/-! ## The region list after the change -/

variable {base endAddress : U64} {regions : List Region}

private theorem contains_withProt (prot : Protection) (region : Region) (address : U64) :
    (if SoftMMU.insideRange base endAddress region then { region with prot := prot }
      else region).contains address = region.contains address := by
  split <;> rfl

theorem onRegions_wellFormed (call : RangeChange) (hwf : RegionsWellFormed regions) :
    RegionsWellFormed (call.onRegions base endAddress regions) := by
  cases call with
  | unmap =>
      exact {
        wellFormed := fun region hregion => hwf.wellFormed region (List.mem_filter.mp hregion).1
        sorted := hwf.sorted.filter _
        separated := hwf.separated.filter _ }
  | protect prot =>
      refine ⟨?_, ?_, hwf.separated.map fun region => contains_withProt prot region⟩
      · intro region hregion
        obtain ⟨old, hold, rfl⟩ := List.mem_map.mp hregion
        have h := hwf.wellFormed old hold
        split
        · exact ⟨h.base_mod, h.size_mod, h.end_lt, h.bytes_length, h.initialized_length⟩
        · exact h
      · refine List.Pairwise.map _ (fun a b hab => ?_) hwf.sorted
        split <;> split <;> exact hab

theorem onRegions_nonempty (call : RangeChange)
    (hnonempty : ∀ region ∈ regions, 0 < region.size.toNat) :
    ∀ region ∈ call.onRegions base endAddress regions, 0 < region.size.toNat := by
  intro region hregion
  cases call with
  | unmap => exact hnonempty region (List.mem_filter.mp hregion).1
  | protect prot =>
      obtain ⟨old, hold, rfl⟩ := List.mem_map.mp hregion
      split <;> exact hnonempty old hold

/-- Changing the regions inside the range changes the cells of the range. -/
theorem addressMapOf_onRegions (call : RangeChange)
    (hcan : CanSplit base endAddress regions) (hwf : RegionsWellFormed regions) :
    addressMapOf (call.onRegions base endAddress (splitRegions base endAddress regions)) =
      (addressMapOf regions).change (inRange base endAddress) call.onCell := by
  have hsep := (regionsWellFormed_splitRegions hcan hwf).separated
  funext address
  simp only [addressMapOf, AddressMap.change]
  rcases lookup_splitRegions hcan hwf address with ⟨hnone, hsplit⟩ |
    ⟨region, piece, hfound, hsplit, hcontains, hpiece⟩
  · cases call with
    | unmap => simp [onRegions, lookup_filter hsep, hsplit, hnone, onCell]
    | protect prot =>
        simp [onRegions, lookup_map (contains_withProt prot), hsplit, hnone, onCell]
  · have hinside := hpiece.insideRange hcontains
    have hcell := hpiece.cellAt address hcontains
    cases call with
    | unmap =>
        rw [onRegions, lookup_filter hsep, hsplit, hfound]
        cases hin : inRange base endAddress address <;>
          simp [Option.filter, hinside, hin, hcell, onCell]
    | protect prot =>
        rw [onRegions, lookup_map (contains_withProt prot), hsplit, hfound]
        cases hin : inRange base endAddress address <;>
          simp [hinside, hin, onCell, Region.cellAt_withProt, hcell]

/-! ## The call -/

variable {base size : U64} {mmu : SoftMMU}

/-- The rounded range of a call, with its end as the code computes it. -/
def endOf (base size : U64) : U64 :=
  pageAlignDown base + pageAlignUp size

/-- The addresses of the rounded range. -/
def pageRange (base size : U64) : U64 → Bool :=
  inRange (pageAlignDown base) (endOf base size)

theorem endOf_mod (base size : U64) : (endOf base size).toNat % 4096 = 0 := by
  have hbase := pageAlignDown_mod base
  have hsize := pageAlignUp_mod size
  rw [endOf, BitVec.toNat_add]
  omega

/-- No region holds the wrapped range of the call. -/
def NotWrappedIn (base size : U64) (regions : List Region) : Prop :=
  ∀ region ∈ regions, SoftMMU.Splittable (pageAlignDown base) (endOf base size) region

theorem NotWrappedIn.canSplit {regions : List Region} (h : NotWrappedIn base size regions) :
    CanSplit (pageAlignDown base) (endOf base size) regions where
  base_mod := pageAlignDown_mod base
  end_mod := endOf_mod base size
  splittable := h

theorem apply_of_size_eq_zero (call : RangeChange) (hsize : size = 0) :
    call.apply base size mmu = .ok () mmu := by
  cases call <;> simp [apply, SoftMMU.unmap, SoftMMU.protect, hsize]

/-- The call splits the list and then changes the regions inside the range. -/
theorem apply_eq_splitRegions (call : RangeChange) (hsize : size ≠ 0)
    (hwf : RegionsWellFormed mmu.regions) (hwrap : NotWrappedIn base size mmu.regions) :
    call.apply base size mmu = .ok () { mmu with
      regions := call.onRegions (pageAlignDown base) (endOf base size)
        (splitRegions (pageAlignDown base) (endOf base size) mmu.regions) } := by
  have hsplit := SoftMMU.splitAround_eq_ok hwrap.canSplit hwf
  cases call with
  | unmap => rw [apply, SoftMMU.unmap, if_neg hsize, bind_of_ok hsplit, modify_apply]; rfl
  | protect prot =>
      rw [apply, SoftMMU.protect, if_neg hsize, bind_of_ok hsplit, modify_apply]
      rfl

/-- What a call leaves behind when no region holds its wrapped range. -/
structure Applied (call : RangeChange) (base size : U64) (mmu mmu' : SoftMMU) : Prop where
  wellFormed : RegionsWellFormed mmu'.regions
  addressMap : mmu'.addressMap = mmu.addressMap.change (pageRange base size) call.onCell
  regionInvariant : (pageAlignDown base).toNat < (endOf base size).toNat →
    RegionInvariant mmu.regions → RegionInvariant mmu'.regions
  nextAllocation : mmu'.nextAllocation = mmu.nextAllocation

/-- The call returns and changes exactly the cells of its rounded range. -/
theorem apply_eq_ok (call : RangeChange) (hsize : size ≠ 0)
    (hwf : RegionsWellFormed mmu.regions) (hwrap : NotWrappedIn base size mmu.regions) :
    ∃ mmu', call.apply base size mmu = .ok () mmu' ∧ call.Applied base size mmu mmu' := by
  refine ⟨_, call.apply_eq_splitRegions hsize hwf hwrap, ?_⟩
  have hsplitwf := regionsWellFormed_splitRegions hwrap.canSplit hwf
  refine ⟨call.onRegions_wellFormed hsplitwf, call.addressMapOf_onRegions hwrap.canSplit hwf,
    ?_, rfl⟩
  intro hlt hinv
  have hsplitinv := regionInvariant_splitRegions hwrap.canSplit hinv hlt
  exact (call.onRegions_wellFormed hsplitwf).regionInvariant
    (call.onRegions_nonempty hsplitinv.nonempty)

/-- After `unmap` no region, not even an empty one, meets the range. -/
theorem not_meets_of_unmap {mmu' : SoftMMU} (hsize : size ≠ 0)
    (hwf : RegionsWellFormed mmu.regions) (hwrap : NotWrappedIn base size mmu.regions)
    (h : SoftMMU.unmap base size mmu = .ok () mmu') :
    ∀ region ∈ mmu'.regions,
      SoftMMU.outsideRange (pageAlignDown base) (endOf base size) region = true := by
  have hok := unmap.apply_eq_splitRegions hsize hwf hwrap
  rw [apply, h] at hok
  cases hok
  intro piece hpiece
  obtain ⟨hpiece, hnotinside⟩ := List.mem_filter.mp hpiece
  obtain ⟨region, hregion, hpiece⟩ :=
    List.mem_flatMap.mp (SoftMMU.mem_sortRegions.mp hpiece)
  have hside := (hwrap.canSplit.pieceOf hwf hregion hpiece).side
  exact hside.resolve_left (by simpa using hnotinside)

/-- A range that wraps inside a region is a host fault. -/
theorem apply_eq_error (call : RangeChange) (hsize : size ≠ 0)
    (hwf : RegionsWellFormed mmu.regions) (hwrap : ¬NotWrappedIn base size mmu.regions) :
    call.apply base size mmu = .error .hostFault mmu := by
  have hex : ∃ region ∈ mmu.regions,
      ¬SoftMMU.Splittable (pageAlignDown base) (endOf base size) region := by
    simpa [NotWrappedIn] using hwrap
  have hsplit := SoftMMU.splitAround_eq_error (pageAlignDown_mod base) (endOf_mod base size)
    hwf hex
  cases call with
  | unmap => rw [apply, SoftMMU.unmap, if_neg hsize, bind_of_error hsplit]
  | protect prot => rw [apply, SoftMMU.protect, if_neg hsize, bind_of_error hsplit]

/-! ## Ranges that do not wrap -/

/-- The condition on a range under which nothing wraps: the rounded end stays below the
end of the address space. -/
def Fits (base size : U64) : Prop :=
  (pageAlignDown base).toNat + roundUpToPage size.toNat < 2 ^ 64

theorem Fits.toNat_pageAlignUp (h : Fits base size) :
    (pageAlignUp size).toNat = roundUpToPage size.toNat := by
  have hle := le_roundUpToPage size.toNat
  have hmod := roundUpToPage_mod size.toNat
  unfold Fits at h
  exact toNat_pageAlignUp_of_le (by omega)

theorem Fits.toNat_endOf (h : Fits base size) :
    (endOf base size).toNat = (pageAlignDown base).toNat + roundUpToPage size.toNat := by
  rw [endOf, BitVec.toNat_add, h.toNat_pageAlignUp, Nat.mod_eq_of_lt h]

theorem Fits.notWrappedIn (h : Fits base size) (regions : List Region) :
    NotWrappedIn base size regions := by
  intro region _
  right
  rw [h.toNat_endOf]
  omega

theorem Fits.lt_endOf (h : Fits base size) (hsize : size ≠ 0) :
    (pageAlignDown base).toNat < (endOf base size).toNat := by
  have hpos : 0 < size.toNat := by
    rw [Nat.pos_iff_ne_zero]
    intro hzero
    exact hsize (BitVec.eq_of_toNat_eq (by simpa using hzero))
  have hle := le_roundUpToPage size.toNat
  rw [h.toNat_endOf]
  omega

/-! ## Page-aligned ranges -/

/-- A page-aligned range that ends below the end of the address space. -/
structure AlignedRange (base size : U64) : Prop where
  base_mod : base.toNat % 4096 = 0
  size_mod : size.toNat % 4096 = 0
  end_lt : base.toNat + size.toNat < 2 ^ 64

theorem AlignedRange.fits (h : AlignedRange base size) : Fits base size := by
  have hend := h.end_lt
  rw [Fits, pageAlignDown_of_mod h.base_mod, roundUpToPage_of_mod h.size_mod]
  exact hend

theorem AlignedRange.pageRange_eq (h : AlignedRange base size) :
    pageRange base size = within base size.toNat := by
  funext address
  rw [Bool.eq_iff_iff, pageRange, inRange_iff, within_iff, h.fits.toNat_endOf,
    pageAlignDown_of_mod h.base_mod, roundUpToPage_of_mod h.size_mod]

/-- A call on a page-aligned range changes exactly its addresses. -/
theorem AlignedRange.apply_eq_ok (h : AlignedRange base size) (call : RangeChange)
    (hsize : size ≠ 0) (hwf : RegionsWellFormed mmu.regions) :
    ∃ mmu', call.apply base size mmu = .ok () mmu' ∧
      mmu.Edits mmu' (mmu.addressMap.change (within base size.toNat) call.onCell) := by
  obtain ⟨mmu', hok, happlied⟩ :=
    RangeChange.apply_eq_ok call hsize hwf (h.fits.notWrappedIn mmu.regions)
  exact ⟨mmu', hok, happlied.wellFormed, h.pageRange_eq ▸ happlied.addressMap,
    happlied.regionInvariant (h.fits.lt_endOf hsize), happlied.nextAllocation⟩

end RangeChange

/-! ## Refinement of the flat map -/

/-- When the rounded range does not wrap, `unmap` empties exactly its addresses, `protect`
gives exactly its mapped addresses the new permission, and everything else stays. -/
theorem unmap_and_protect_refine_addressMap {mmu : SoftMMU} {base size : U64}
    (hinv : RegionInvariant mmu.regions) (hsize : 0 < size.toNat)
    (hwrap : (pageAlignDown base).toNat + (pageAlignUp size).toNat < 2 ^ 64)
    (prot : Protection) :
    let range := within (pageAlignDown base) (pageAlignUp size).toNat
    (∃ mmu', SoftMMU.unmap base size mmu = .ok () mmu' ∧
      ∀ address, mmu'.addressMap address =
        if range address then none else mmu.addressMap address) ∧
    ∃ mmu', SoftMMU.protect base size prot mmu = .ok () mmu' ∧
      ∀ address, mmu'.addressMap address =
        if range address then
          (mmu.addressMap address).map fun cell => { cell with prot := prot }
        else mmu.addressMap address := by
  intro range
  have hsize' : size ≠ 0 := by
    rintro rfl
    simp at hsize
  have hend : (RangeChange.endOf base size).toNat =
      (pageAlignDown base).toNat + (pageAlignUp size).toNat := by
    rw [RangeChange.endOf, BitVec.toNat_add, Nat.mod_eq_of_lt hwrap]
  have hnot : RangeChange.NotWrappedIn base size mmu.regions := by
    intro region _
    right
    omega
  have hrange : RangeChange.pageRange base size = range := by
    funext address
    rw [Bool.eq_iff_iff, RangeChange.pageRange, inRange_iff, within_iff, hend]
  have happly : ∀ call : RangeChange, ∃ mmu', call.apply base size mmu = .ok () mmu' ∧
      mmu'.addressMap = mmu.addressMap.change range call.onCell := by
    intro call
    obtain ⟨mmu', hok, happlied⟩ := call.apply_eq_ok hsize' hinv.regionsWellFormed hnot
    exact ⟨mmu', hok, hrange ▸ happlied.addressMap⟩
  constructor
  · obtain ⟨mmu', hok, hmap⟩ := happly .unmap
    exact ⟨mmu', hok, fun address => by rw [hmap]; rfl⟩
  · obtain ⟨mmu', hok, hmap⟩ := happly (.protect prot)
    exact ⟨mmu', hok, fun address => by rw [hmap]; rfl⟩

/-- The middle page of a mapping of three pages. -/
theorem unmap_and_protect_refine_addressMap_middle :
    ∃ mmu', SoftMMU.unmap 0x2000 0x1000
        { regions := [Region.ofZeroes 0x1000 0x3000 3 "data"] } = .ok () mmu' ∧
      ∀ address, mmu'.addressMap address =
        if within 0x2000 0x1000 address then none
        else addressMapOf [Region.ofZeroes 0x1000 0x3000 3 "data"] address :=
  (unmap_and_protect_refine_addressMap
    (regionInvariant_singleton (Region.ofZeroes_wellFormed (by decide) (by decide) (by decide) 3
      "data") (by decide)) (by decide) (by decide) 1).1

end LUE
