import LinuxUserspaceEmulator.SoftMMU.Operations

/-!
# Well-formed region lists

The region invariant of `SoftMMU`: regions are page aligned and non-empty, do not reach
the end of the address space, own vectors of the right size, are disjoint, and are
strictly sorted by base.  Most facts about lookups need less, and `protect` on a length
that rounds to zero keeps less: there may be empty regions, and only `RegionsWellFormed`
holds.

Main results:

- Theorem `Region.WellFormed.contains_iff`: containment as an interval of numbers.
- Theorem `regionInvariant_iff`: the region invariant is well-formedness without empty
  regions.
- Theorem `regionsWellFormed_sortRegions`: sorting restores the order and nothing else.
- Theorem `apart_of_ensureNoOverlap`: what passes the overlap check is apart from every
  region.
-/

namespace LUE

open SegmentList StateExcept

/-! ## Single regions -/

/-- A region that one page-granular mapping call can build. -/
structure Region.WellFormed (region : Region) : Prop where
  base_mod : region.base.toNat % 4096 = 0
  size_mod : region.size.toNat % 4096 = 0
  end_lt : region.base.toNat + region.size.toNat < 2 ^ 64
  bytes_length : region.bytes.length = region.size.toNat
  initialized_length : region.initialized.length = region.size.toNat

namespace Region

theorem WellFormed.toNat_endAddress {region : Region} (h : region.WellFormed) :
    region.endAddress.toNat = region.base.toNat + region.size.toNat := by
  rw [endAddress, BitVec.toNat_add, Nat.mod_eq_of_lt h.end_lt]

theorem WellFormed.endAddress_mod {region : Region} (h : region.WellFormed) :
    region.endAddress.toNat % 4096 = 0 := by
  have hbase := h.base_mod
  have hsize := h.size_mod
  rw [h.toNat_endAddress]
  omega

/-- A region contains the addresses from its base to its end. -/
theorem WellFormed.contains_iff {region : Region} (h : region.WellFormed) (address : U64) :
    region.contains address = true ↔
      region.base.toNat ≤ address.toNat ∧
        address.toNat < region.base.toNat + region.size.toNat := by
  simp [contains, BitVec.le_def, BitVec.lt_def, h.toNat_endAddress]

/-- The offset of a contained address does not wrap. -/
theorem WellFormed.toNat_offset {region : Region} (h : region.WellFormed) {address : U64}
    (ha : region.contains address = true) :
    (address - region.base).toNat = address.toNat - region.base.toNat := by
  rw [h.contains_iff] at ha
  rw [BitVec.toNat_sub]
  have hlt := address.isLt
  omega

theorem WellFormed.offset_lt {region : Region} (h : region.WellFormed) {address : U64}
    (ha : region.contains address = true) :
    (address - region.base).toNat < region.size.toNat := by
  rw [h.toNat_offset ha]
  rw [h.contains_iff] at ha
  omega

theorem ofZeroes_wellFormed {base size : U64} (hbase : base.toNat % 4096 = 0)
    (hsize : size.toNat % 4096 = 0) (hend : base.toNat + size.toNat < 2 ^ 64)
    (prot : Protection) (name : String) : (ofZeroes base size prot name).WellFormed where
  base_mod := hbase
  size_mod := hsize
  end_lt := hend
  bytes_length := List.length_replicate
  initialized_length := List.length_replicate

theorem ofMmap_wellFormed {base size : U64} (hbase : base.toNat % 4096 = 0)
    (hsize : size.toNat % 4096 = 0) (hend : base.toNat + size.toNat < 2 ^ 64)
    (prot : Protection) (name : String) (path : Option String) (fileOffset : U64) :
    (ofMmap base size prot name path fileOffset).WellFormed where
  base_mod := hbase
  size_mod := hsize
  end_lt := hend
  bytes_length := List.length_replicate
  initialized_length := List.length_replicate

end Region

/-! ## Region lists -/

/-- Regions that may be empty, disjoint, in address order. -/
structure RegionsWellFormed (regions : List Region) : Prop where
  wellFormed : ∀ region ∈ regions, region.WellFormed
  sorted : regions.Pairwise fun a b => a.base ≤ b.base
  separated : Separated Region.contains regions

/-- The representation invariant of the region list. -/
structure RegionInvariant (regions : List Region) : Prop where
  /-- Strictly sorted by base. -/
  strictlySorted : regions.Pairwise fun a b => a.base < b.base
  /-- No address belongs to two regions. -/
  separated : Separated Region.contains regions
  /-- Page aligned, not wrapping, with vectors of the region's size. -/
  wellFormed : ∀ region ∈ regions, region.WellFormed
  /-- No region is empty. -/
  nonempty : ∀ region ∈ regions, 0 < region.size.toNat

theorem RegionInvariant.regionsWellFormed {regions : List Region}
    (h : RegionInvariant regions) : RegionsWellFormed regions where
  wellFormed := h.wellFormed
  sorted := h.strictlySorted.imp fun hlt => by
    rw [BitVec.lt_def] at hlt
    rw [BitVec.le_def]
    omega
  separated := h.separated

/-- Disjoint non-empty regions that are sorted are strictly sorted. -/
theorem RegionsWellFormed.regionInvariant {regions : List Region}
    (h : RegionsWellFormed regions) (hnonempty : ∀ region ∈ regions, 0 < region.size.toNat) :
    RegionInvariant regions where
  strictlySorted := by
    refine List.Pairwise.imp_of_mem ?_ (h.sorted.and h.separated)
    intro a b ha hb hab
    obtain ⟨hle, hapart⟩ := hab
    rw [BitVec.le_def] at hle
    rw [BitVec.lt_def]
    by_contra hnot
    have hbase : a.base.toNat = b.base.toNat := by omega
    have hsizea := hnonempty a ha
    have hsizeb := hnonempty b hb
    refine hapart b.base ?_ ?_
    · rw [(h.wellFormed a ha).contains_iff]
      omega
    · rw [(h.wellFormed b hb).contains_iff]
      omega
  separated := h.separated
  wellFormed := h.wellFormed
  nonempty := hnonempty

theorem regionInvariant_iff {regions : List Region} :
    RegionInvariant regions ↔
      RegionsWellFormed regions ∧ ∀ region ∈ regions, 0 < region.size.toNat :=
  ⟨fun h => ⟨h.regionsWellFormed, h.nonempty⟩, fun h => h.1.regionInvariant h.2⟩

theorem regionInvariant_nil : RegionInvariant [] where
  strictlySorted := List.Pairwise.nil
  separated := List.Pairwise.nil
  wellFormed := by simp
  nonempty := by simp

theorem regionInvariant_singleton {region : Region} (h : region.WellFormed)
    (hnonempty : 0 < region.size.toNat) : RegionInvariant [region] where
  strictlySorted := List.pairwise_singleton _ _
  separated := List.pairwise_singleton _ _
  wellFormed := by simpa using h
  nonempty := by simpa using hnonempty

namespace SoftMMU

/-! ## Sorting -/

theorem sortRegions_perm (regions : List Region) : (sortRegions regions).Perm regions :=
  List.perm_insertionSort _ regions

@[simp]
theorem mem_sortRegions {regions : List Region} {region : Region} :
    region ∈ sortRegions regions ↔ region ∈ regions :=
  (sortRegions_perm regions).mem_iff

private instance : Std.Total fun a b : Region => a.base ≤ b.base :=
  ⟨fun a b => by
    simp only [BitVec.le_def]
    omega⟩

private instance : IsTrans Region fun a b => a.base ≤ b.base :=
  ⟨fun a b c hab hbc => by
    simp only [BitVec.le_def] at *
    omega⟩

theorem sortRegions_sorted (regions : List Region) :
    (sortRegions regions).Pairwise fun a b => a.base ≤ b.base :=
  List.pairwise_insertionSort _ regions

/-- Sorting well-formed disjoint regions gives a well-formed list. -/
theorem regionsWellFormed_sortRegions {regions : List Region}
    (hwf : ∀ region ∈ regions, region.WellFormed)
    (hsep : Separated Region.contains regions) : RegionsWellFormed (sortRegions regions) where
  wellFormed region hregion := hwf region (mem_sortRegions.mp hregion)
  sorted := sortRegions_sorted regions
  separated := hsep.perm (sortRegions_perm regions).symm

/-- Sorting does not change lookups. -/
theorem lookup_sortRegions {regions : List Region} (hsep : Separated Region.contains regions)
    (address : U64) :
    lookup Region.contains (sortRegions regions) address =
      lookup Region.contains regions address :=
  (lookup_perm hsep (sortRegions_perm regions).symm address).symm

/-! ## The overlap check -/

/-- The overlap check passes exactly for non-empty ranges that end before the end of the
address space and meet no region. -/
theorem ensureNoOverlap_eq_ok_iff {base size : U64} {mmu : SoftMMU} :
    mmu.ensureNoOverlap base size = .ok () ↔
      0 < size.toNat ∧ base.toNat + size.toNat < 2 ^ 64 ∧
        ∀ region ∈ mmu.regions,
          ¬(base < region.endAddress ∧ base + size > region.base) := by
  have hb := base.isLt
  have hs := size.isLt
  unfold ensureNoOverlap
  by_cases hzero : size = 0
  · simp [hzero]
  · have hpos : 0 < size.toNat := by
      rcases Nat.eq_zero_or_pos size.toNat with h0 | hpos
      · exact absurd (BitVec.eq_of_toNat_eq (by simpa using h0)) hzero
      · exact hpos
    have hwrap : base + size < base ↔ 2 ^ 64 ≤ base.toNat + size.toNat := by
      rw [BitVec.lt_def, BitVec.toNat_add]
      omega
    by_cases hoverflow : base + size < base
    · have hnot := hwrap.mp hoverflow
      simp only [hzero, hoverflow, if_true, if_false]
      constructor
      · intro h
        cases h
      · rintro ⟨-, hlt, -⟩
        omega
    · have hlt : base.toNat + size.toNat < 2 ^ 64 := by
        rw [hwrap] at hoverflow
        omega
      simp only [hzero, hoverflow, if_false]
      cases hfind : mmu.regions.find? fun region =>
          base < region.endAddress && base + size > region.base with
      | none =>
          rw [List.find?_eq_none] at hfind
          simp only [true_iff]
          refine ⟨hpos, hlt, fun region hregion hmeet => hfind region hregion ?_⟩
          simpa using hmeet
      | some region =>
          have hmeet := List.find?_some hfind
          have hmem := List.mem_of_find?_eq_some hfind
          constructor
          · intro h
            cases h
          · rintro ⟨-, -, hall⟩
            exact absurd (by simpa using hmeet) (hall region hmem)

/-- A well-formed region that meets no listed region as an interval is apart from each. -/
theorem apart_of_not_overlap {old new : Region} (hold : old.WellFormed)
    (hnew : new.WellFormed)
    (h : ¬(new.base < old.endAddress ∧ new.base + new.size > old.base)) :
    Apart Region.contains old new := by
  intro address ha hb
  rw [hold.contains_iff] at ha
  rw [hnew.contains_iff] at hb
  apply h
  have hend : (new.base + new.size).toNat = new.base.toNat + new.size.toNat :=
    hnew.toNat_endAddress
  rw [BitVec.lt_def, hold.toNat_endAddress, gt_iff_lt, BitVec.lt_def, hend]
  omega

/-- Well-formed regions of which each begins where the ones before it have ended. -/
theorem regionsWellFormed_of_consecutive {regions : List Region}
    (hregions : ∀ region ∈ regions, region.WellFormed)
    (hends : regions.Pairwise fun a b => a.endAddress ≤ b.base) :
    RegionsWellFormed regions where
  wellFormed := hregions
  sorted := hends.imp_of_mem fun {a b} ha _ h => by
    rw [BitVec.le_def, (hregions a ha).toNat_endAddress] at h
    rw [BitVec.le_def]
    omega
  separated := hends.imp_of_mem fun {a b} ha hb h => by
    refine apart_of_not_overlap (hregions a ha) (hregions b hb) fun hmeet => ?_
    rw [BitVec.le_def] at h
    rw [BitVec.lt_def] at hmeet
    omega

/-- What passes the overlap check is apart from every region. -/
theorem apart_of_ensureNoOverlap {mmu : SoftMMU} (hwf : RegionsWellFormed mmu.regions)
    {region : Region} (hregion : region.WellFormed)
    (h : mmu.ensureNoOverlap region.base region.size = .ok ()) :
    ∀ old ∈ mmu.regions, Apart Region.contains old region := by
  intro old hold
  exact apart_of_not_overlap (hwf.wellFormed old hold) hregion
    ((ensureNoOverlap_eq_ok_iff.mp h).2.2 old hold)

end SoftMMU

end LUE
