import LinuxUserspaceEmulator.SoftMMU.AddressMap

/-!
# Splitting regions around a range

`unmap` and `protect` first cut every region that meets the target range into the part
before the range, the part in it, and the part after it.  The cut changes the region list
and nothing that the flat map shows.  It asks for slices that do not exist in one case
only: the end of the range has wrapped below its base and both lie inside one region.

Main results:

- Theorem `sliceRequests_fit`: when the range does not wrap every requested slice lies
  inside its source region.
- Theorem `splitAround_eq_ok`: the split succeeds when no region holds a wrapped range.
- Theorem `splitAround_eq_error`: a wrapped range inside a region is a host fault.
- Theorem `addressMapOf_splitRegions`: the split keeps the flat map.
-/

namespace LUE

open SegmentList StateExcept

/-! ## Slices of one region -/

/-- A requested slice that lies inside its region, on page boundaries. -/
structure SoftMMU.SliceRequest.Fits (region : Region) (request : SoftMMU.SliceRequest) :
    Prop where
  newBase : request.newBase.toNat = region.base.toNat + request.offset.toNat
  inside : request.offset.toNat + request.newSize.toNat ≤ region.size.toNat
  offset_mod : request.offset.toNat % 4096 = 0
  newSize_mod : request.newSize.toNat % 4096 = 0

namespace Region

open SoftMMU (SliceRequest)

variable {region : Region} {request : SliceRequest}

/-- The region a request asks for. -/
def sliceOf (region : Region) (request : SliceRequest) : Region :=
  region.slice request.newBase request.offset request.newSize

theorem WellFormed.cloneSlice_of_request (h : region.WellFormed)
    (hfits : request.Fits region) :
    region.cloneSlice request.newBase request.offset request.newSize =
      .ok (region.sliceOf request) := by
  have hinside := hfits.inside
  apply cloneSlice_of_fits
  · rw [h.bytes_length]
    exact hinside
  · rw [h.initialized_length]
    exact hinside

/-- A requested slice exists, or the request reads outside the host vectors. -/
theorem WellFormed.cloneSlice_ok_or_hostFault (h : region.WellFormed)
    (request : SliceRequest) :
    region.cloneSlice request.newBase request.offset request.newSize = .error .hostFault ∨
      ∃ slice, region.cloneSlice request.newBase request.offset request.newSize =
        .ok slice := by
  by_cases hinside : request.offset.toNat + request.newSize.toNat ≤ region.size.toNat
  · right
    refine ⟨_, cloneSlice_of_fits ?_ ?_⟩
    · rw [h.bytes_length]
      exact hinside
    · rw [h.initialized_length]
      exact hinside
  · left
    apply cloneSlice_of_not_fits
    rw [h.bytes_length]
    omega

theorem WellFormed.sliceOf (h : region.WellFormed) (hfits : request.Fits region) :
    (region.sliceOf request).WellFormed where
  base_mod := by
    have hbase := h.base_mod
    have hoffset := hfits.offset_mod
    change request.newBase.toNat % 4096 = 0
    rw [hfits.newBase]
    omega
  size_mod := hfits.newSize_mod
  end_lt := by
    have hend := h.end_lt
    have hinside := hfits.inside
    change request.newBase.toNat + request.newSize.toNat < 2 ^ 64
    rw [hfits.newBase]
    omega
  bytes_length := by
    have hinside := hfits.inside
    simp only [Region.sliceOf, slice, List.length_take, List.length_drop, h.bytes_length]
    omega
  initialized_length := by
    have hinside := hfits.inside
    simp only [Region.sliceOf, slice, List.length_take, List.length_drop,
      h.initialized_length]
    omega

theorem WellFormed.sliceOf_contains_iff (h : region.WellFormed) (hfits : request.Fits region)
    (address : U64) :
    (region.sliceOf request).contains address = true ↔
      request.newBase.toNat ≤ address.toNat ∧
        address.toNat < request.newBase.toNat + request.newSize.toNat :=
  (h.sliceOf hfits).contains_iff address

theorem WellFormed.contains_of_sliceOf (h : region.WellFormed) (hfits : request.Fits region)
    {address : U64} (ha : (region.sliceOf request).contains address = true) :
    region.contains address = true := by
  have hbase := hfits.newBase
  have hinside := hfits.inside
  rw [h.sliceOf_contains_iff hfits] at ha
  rw [h.contains_iff]
  omega

/-- A slice says about its addresses what its source said. -/
theorem WellFormed.cellAt_sliceOf (h : region.WellFormed) (hfits : request.Fits region)
    {address : U64} (ha : (region.sliceOf request).contains address = true) :
    (region.sliceOf request).cellAt address = region.cellAt address := by
  have hslice := h.sliceOf hfits
  have hsource := h.contains_of_sliceOf hfits ha
  have hbase := hfits.newBase
  have hi := hslice.toNat_offset ha
  have hj := h.toNat_offset hsource
  have hbound := hslice.offset_lt ha
  rw [h.sliceOf_contains_iff hfits] at ha
  change (address - request.newBase).toNat < request.newSize.toNat at hbound
  change (address - request.newBase).toNat = address.toNat - request.newBase.toNat at hi
  have hindex : (address - region.base).toNat =
      request.offset.toNat + (address - request.newBase).toNat := by
    omega
  have hadvance : request.offset + (address - request.newBase) = address - region.base := by
    apply BitVec.eq_of_toNat_eq
    rw [BitVec.toNat_add, hindex, Nat.mod_eq_of_lt]
    have hlt := (address - region.base).isLt
    omega
  have hgetD : ∀ {α : Type} (elements : List α) (d : α),
      ((elements.drop request.offset.toNat).take request.newSize.toNat).getD
          (address - request.newBase).toNat d =
        elements.getD (address - region.base).toNat d := by
    intro α elements d
    rw [List.getD_eq_getElem?_getD, List.getD_eq_getElem?_getD,
      List.getElem?_take_of_lt hbound, List.getElem?_drop, hindex]
  simp only [cellAt, Region.sliceOf, slice, hgetD, Backing.advance_advance, hadvance]

end Region

namespace SoftMMU

variable {base endAddress : U64} {region : Region}

/-! ## The requests of one split -/

theorem outsideRange_iff (h : region.WellFormed) :
    outsideRange base endAddress region = true ↔
      endAddress.toNat ≤ region.base.toNat ∨
        region.base.toNat + region.size.toNat ≤ base.toNat := by
  simp [outsideRange, BitVec.le_def, h.toNat_endAddress]

theorem outsideRange_eq_false_iff (h : region.WellFormed) :
    outsideRange base endAddress region = false ↔
      region.base.toNat < endAddress.toNat ∧
        base.toNat < region.base.toNat + region.size.toNat := by
  rw [← Bool.not_eq_true, outsideRange_iff h]
  omega

theorem insideRange_iff (h : region.WellFormed) :
    insideRange base endAddress region = true ↔
      base.toNat ≤ region.base.toNat ∧
        region.base.toNat + region.size.toNat ≤ endAddress.toNat := by
  simp [insideRange, BitVec.le_def, h.toNat_endAddress]

/-- The three possible requests, as numbers. -/
theorem mem_sliceRequests (h : region.WellFormed) {request : SliceRequest}
    (hrequest : request ∈ sliceRequests base endAddress region) :
    (region.base.toNat < base.toNat ∧
        request = ⟨region.base, 0, base - region.base⟩) ∨
      request = ⟨stdMax base region.base, stdMax base region.base - region.base,
        stdMin endAddress region.endAddress - stdMax base region.base⟩ ∨
      (endAddress.toNat < region.base.toNat + region.size.toNat ∧
        request = ⟨endAddress, endAddress - region.base, region.endAddress - endAddress⟩) := by
  simp only [sliceRequests, List.mem_append, List.mem_singleton] at hrequest
  rcases hrequest with (hbefore | hoverlap) | hafter
  · left
    split at hbefore <;> rename_i hlt
    · exact ⟨by simpa [BitVec.lt_def] using hlt, by simpa using hbefore⟩
    · simp at hbefore
  · right; left
    exact hoverlap
  · right; right
    split at hafter <;> rename_i hlt
    · rw [BitVec.lt_def, h.toNat_endAddress] at hlt
      exact ⟨hlt, by simpa using hafter⟩
    · simp at hafter

/-- The facts about one request of a range that does not wrap. -/
structure RequestFacts (base endAddress : U64) (region : Region) (request : SliceRequest) :
    Prop where
  fits : request.Fits region
  side : (base.toNat ≤ request.newBase.toNat ∧
      request.newBase.toNat + request.newSize.toNat ≤ endAddress.toNat) ∨
    request.newBase.toNat + request.newSize.toNat ≤ base.toNat ∨
      endAddress.toNat ≤ request.newBase.toNat
  nonempty : base.toNat < endAddress.toNat → 0 < region.size.toNat →
    0 < request.newSize.toNat

/-- When the range does not wrap, every requested slice lies inside its region and on one
side of the range's ends. -/
theorem sliceRequests_fit (h : region.WellFormed) (hbase : base.toNat % 4096 = 0)
    (hend : endAddress.toNat % 4096 = 0) (hle : base.toNat ≤ endAddress.toNat)
    (hmeets : outsideRange base endAddress region = false) :
    ∀ request ∈ sliceRequests base endAddress region,
      RequestFacts base endAddress region request := by
  intro request hrequest
  have hrb := h.base_mod
  have hrs := h.size_mod
  have hre := h.end_lt
  have hregionEnd := h.toNat_endAddress
  have hmax := toNat_stdMax base region.base
  have hmin := toNat_stdMin endAddress region.endAddress
  have hmeets' := (outsideRange_eq_false_iff h).mp hmeets
  rw [hregionEnd] at hmin
  rcases mem_sliceRequests h hrequest with ⟨hlt, rfl⟩ | rfl | ⟨hlt, rfl⟩
  · -- the part before the range
    have hsize : (base - region.base).toNat = base.toNat - region.base.toNat :=
      BitVec.toNat_sub_of_le (by rw [BitVec.le_def]; omega)
    refine ⟨⟨?_, ?_, ?_, ?_⟩, ?_, ?_⟩ <;> simp only [BitVec.ofNat_eq_ofNat,
      BitVec.toNat_ofNat, hsize] <;> omega
  · -- the part in the range
    have hoffset : (stdMax base region.base - region.base).toNat =
        (stdMax base region.base).toNat - region.base.toNat :=
      BitVec.toNat_sub_of_le (by rw [BitVec.le_def]; omega)
    have hsize : (stdMin endAddress region.endAddress - stdMax base region.base).toNat =
        (stdMin endAddress region.endAddress).toNat - (stdMax base region.base).toNat :=
      BitVec.toNat_sub_of_le (by rw [BitVec.le_def]; omega)
    refine ⟨⟨?_, ?_, ?_, ?_⟩, ?_, ?_⟩ <;> simp only [hoffset, hsize] <;> omega
  · -- the part after the range
    have hoffset : (endAddress - region.base).toNat =
        endAddress.toNat - region.base.toNat :=
      BitVec.toNat_sub_of_le (by rw [BitVec.le_def]; omega)
    have hsize : (region.endAddress - endAddress).toNat =
        region.endAddress.toNat - endAddress.toNat :=
      BitVec.toNat_sub_of_le (by rw [BitVec.le_def]; omega)
    rw [hregionEnd] at hsize
    refine ⟨⟨?_, ?_, ?_, ?_⟩, Or.inr (Or.inr le_rfl), ?_⟩ <;> simp only [hoffset, hsize] <;>
      omega

/-- The requests come in address order and do not overlap. -/
theorem sliceRequests_pairwise (h : region.WellFormed) (hle : base.toNat ≤ endAddress.toNat)
    (hmeets : outsideRange base endAddress region = false) :
    (sliceRequests base endAddress region).Pairwise fun first second =>
      first.newBase.toNat + first.newSize.toNat ≤ second.newBase.toNat := by
  have hre := h.end_lt
  have hregionEnd := h.toNat_endAddress
  have hmax := toNat_stdMax base region.base
  have hmin := toNat_stdMin endAddress region.endAddress
  have hmeets' := (outsideRange_eq_false_iff h).mp hmeets
  rw [hregionEnd] at hmin
  have hoverlap : (stdMin endAddress region.endAddress - stdMax base region.base).toNat =
      (stdMin endAddress region.endAddress).toNat - (stdMax base region.base).toNat :=
    BitVec.toNat_sub_of_le (by rw [BitVec.le_def]; omega)
  have hbefore : region.base.toNat < base.toNat →
      (base - region.base).toNat = base.toNat - region.base.toNat :=
    fun hlt => BitVec.toNat_sub_of_le (by rw [BitVec.le_def]; omega)
  simp only [sliceRequests, gt_iff_lt, BitVec.lt_def]
  split <;> rename_i hlt <;> split <;> rename_i hgt <;> simp <;> omega

/-- Every address of the region lies in one of the requested slices. -/
theorem exists_sliceRequest (h : region.WellFormed) (hle : base.toNat ≤ endAddress.toNat)
    (hmeets : outsideRange base endAddress region = false) {address : U64}
    (ha : region.contains address = true) :
    ∃ request ∈ sliceRequests base endAddress region,
      request.newBase.toNat ≤ address.toNat ∧
        address.toNat < request.newBase.toNat + request.newSize.toNat := by
  have hregionEnd := h.toNat_endAddress
  have hmax := toNat_stdMax base region.base
  have hmin := toNat_stdMin endAddress region.endAddress
  have hmeets' := (outsideRange_eq_false_iff h).mp hmeets
  rw [hregionEnd] at hmin
  rw [h.contains_iff] at ha
  simp only [sliceRequests, List.mem_append, List.mem_singleton]
  by_cases hbefore : address.toNat < base.toNat
  · refine ⟨⟨region.base, 0, base - region.base⟩, Or.inl (Or.inl ?_), ?_⟩
    · rw [if_pos (by rw [gt_iff_lt, BitVec.lt_def]; omega)]
      exact List.mem_singleton.mpr rfl
    · dsimp only
      rw [BitVec.toNat_sub_of_le (by rw [BitVec.le_def]; omega)]
      omega
  · by_cases hafter : endAddress.toNat ≤ address.toNat
    · refine ⟨⟨endAddress, endAddress - region.base, region.endAddress - endAddress⟩,
        Or.inr ?_, ?_⟩
      · rw [if_pos (by rw [BitVec.lt_def]; omega)]
        exact List.mem_singleton.mpr rfl
      · dsimp only
        rw [BitVec.toNat_sub_of_le (by rw [BitVec.le_def]; omega)]
        omega
    · refine ⟨⟨stdMax base region.base, stdMax base region.base - region.base,
        stdMin endAddress region.endAddress - stdMax base region.base⟩,
        Or.inl (Or.inr rfl), ?_⟩
      dsimp only
      rw [BitVec.toNat_sub_of_le (by rw [BitVec.le_def]; omega)]
      omega

/-! ## The pieces of one region -/

/-- The regions a split puts in place of one region when every requested slice exists. -/
def splitPieces (base endAddress : U64) (region : Region) : List Region :=
  if outsideRange base endAddress region then [region]
  else (sliceRequests base endAddress region).map region.sliceOf

/-- A region that the range misses, or a range that does not wrap. -/
def Splittable (base endAddress : U64) (region : Region) : Prop :=
  outsideRange base endAddress region = true ∨ base.toNat ≤ endAddress.toNat

/-- A part of a region that lies entirely in the range or entirely outside it. -/
structure PieceOf (base endAddress : U64) (region piece : Region) : Prop where
  wellFormed : piece.WellFormed
  contains : ∀ address, piece.contains address = true → region.contains address = true
  cellAt : ∀ address, piece.contains address = true →
    piece.cellAt address = region.cellAt address
  side : insideRange base endAddress piece = true ∨ outsideRange base endAddress piece = true
  nonempty : base.toNat < endAddress.toNat → 0 < region.size.toNat → 0 < piece.size.toNat

/-- What lies on one side of the range's ends is in the range as a whole. -/
theorem insideRange_eq_inRange {piece : Region} (h : piece.WellFormed)
    (hside : insideRange base endAddress piece = true ∨
      outsideRange base endAddress piece = true)
    {address : U64} (ha : piece.contains address = true) :
    insideRange base endAddress piece = inRange base endAddress address := by
  rw [insideRange_iff h, outsideRange_iff h] at hside
  rw [h.contains_iff] at ha
  rw [Bool.eq_iff_iff, insideRange_iff h, inRange_iff]
  omega

theorem PieceOf.insideRange {piece : Region} (h : PieceOf base endAddress region piece)
    {address : U64} (ha : piece.contains address = true) :
    SoftMMU.insideRange base endAddress piece = inRange base endAddress address :=
  insideRange_eq_inRange h.wellFormed h.side ha

theorem pieceOf_of_mem_splitPieces (h : region.WellFormed)
    (hbase : base.toNat % 4096 = 0) (hend : endAddress.toNat % 4096 = 0)
    (hsplit : Splittable base endAddress region) {piece : Region}
    (hpiece : piece ∈ splitPieces base endAddress region) :
    PieceOf base endAddress region piece := by
  unfold splitPieces at hpiece
  split at hpiece <;> rename_i houtside
  · rw [List.mem_singleton] at hpiece
    subst hpiece
    exact ⟨h, fun _ ha => ha, fun _ _ => rfl, Or.inr houtside, fun _ hsize => hsize⟩
  · have hle : base.toNat ≤ endAddress.toNat := hsplit.resolve_left houtside
    obtain ⟨request, hrequest, rfl⟩ := List.mem_map.mp hpiece
    have hfacts := sliceRequests_fit h hbase hend hle (by simpa using houtside) request hrequest
    have hslice := h.sliceOf hfacts.fits
    refine ⟨hslice, fun _ => h.contains_of_sliceOf hfacts.fits,
      fun _ => h.cellAt_sliceOf hfacts.fits, ?_, hfacts.nonempty⟩
    rw [insideRange_iff hslice, outsideRange_iff hslice]
    exact hfacts.side.imp_right Or.symm

theorem separated_splitPieces (h : region.WellFormed)
    (hbase : base.toNat % 4096 = 0) (hend : endAddress.toNat % 4096 = 0)
    (hsplit : Splittable base endAddress region) :
    Separated Region.contains (splitPieces base endAddress region) := by
  unfold splitPieces
  split <;> rename_i houtside
  · exact List.pairwise_singleton _ _
  · have hle : base.toNat ≤ endAddress.toNat := hsplit.resolve_left houtside
    have hmeets : outsideRange base endAddress region = false := by simpa using houtside
    have hfits := sliceRequests_fit h hbase hend hle hmeets
    rw [Separated, List.pairwise_map]
    refine List.Pairwise.imp_of_mem ?_ (sliceRequests_pairwise h hle hmeets)
    intro first second hfirst hsecond hlt address ha hb
    rw [h.sliceOf_contains_iff (hfits first hfirst).fits] at ha
    rw [h.sliceOf_contains_iff (hfits second hsecond).fits] at hb
    omega

/-- The pieces of a region cover all of it. -/
theorem exists_splitPiece (h : region.WellFormed)
    (hbase : base.toNat % 4096 = 0) (hend : endAddress.toNat % 4096 = 0)
    (hsplit : Splittable base endAddress region) {address : U64}
    (ha : region.contains address = true) :
    ∃ piece ∈ splitPieces base endAddress region, piece.contains address = true := by
  unfold splitPieces
  split <;> rename_i houtside
  · exact ⟨region, List.mem_singleton.mpr rfl, ha⟩
  · have hle : base.toNat ≤ endAddress.toNat := hsplit.resolve_left houtside
    have hmeets : outsideRange base endAddress region = false := by simpa using houtside
    obtain ⟨request, hrequest, hin⟩ := exists_sliceRequest h hle hmeets ha
    have hfits := (sliceRequests_fit h hbase hend hle hmeets request hrequest).fits
    exact ⟨_, List.mem_map.mpr ⟨request, hrequest, rfl⟩,
      (h.sliceOf_contains_iff hfits address).mpr hin⟩

/-- A region that can be split is replaced by its pieces. -/
theorem splitRegion_eq_ok (h : region.WellFormed)
    (hbase : base.toNat % 4096 = 0) (hend : endAddress.toNat % 4096 = 0)
    (hsplit : Splittable base endAddress region) :
    splitRegion base endAddress region = .ok (splitPieces base endAddress region) := by
  unfold splitRegion splitPieces
  split <;> rename_i houtside
  · rfl
  · have hle : base.toNat ≤ endAddress.toNat := hsplit.resolve_left houtside
    apply mapM_eq_ok
    intro request hrequest
    exact h.cloneSlice_of_request
      (sliceRequests_fit h hbase hend hle (by simpa using houtside) request hrequest).fits

/-- A region that holds a wrapped range asks for a slice that leaves it. -/
theorem splitRegion_eq_error (h : region.WellFormed)
    (hsplit : ¬Splittable base endAddress region) :
    splitRegion base endAddress region = .error .hostFault := by
  simp only [Splittable, not_or, Bool.not_eq_true, Nat.not_le] at hsplit
  obtain ⟨hmeets, hwrap⟩ := hsplit
  have hre := h.end_lt
  have hmax := toNat_stdMax base region.base
  have hmin := toNat_stdMin endAddress region.endAddress
  have hmeets' := (outsideRange_eq_false_iff h).mp hmeets
  rw [h.toNat_endAddress] at hmin
  rw [splitRegion, if_neg (by simp [hmeets])]
  apply mapM_eq_error
  · intro request _
    exact h.cloneSlice_ok_or_hostFault request
  · refine ⟨⟨stdMax base region.base, stdMax base region.base - region.base,
      stdMin endAddress region.endAddress - stdMax base region.base⟩,
      by simp [sliceRequests], ?_⟩
    apply Region.cloneSlice_of_not_fits
    -- the length of the overlap wraps to almost the whole address space
    rw [h.bytes_length, BitVec.toNat_sub_of_le (by rw [BitVec.le_def]; omega),
      BitVec.toNat_sub]
    omega

end SoftMMU

/-! ## The split list -/

section SplitList

open SoftMMU

variable {base endAddress : U64} {regions : List Region}

/-- The region list after a split whose slices all exist. -/
def splitRegions (base endAddress : U64) (regions : List Region) : List Region :=
  sortRegions (regions.flatMap (splitPieces base endAddress))

/-- What a split needs: page-aligned ends and a range that no region holds wrapped. -/
structure CanSplit (base endAddress : U64) (regions : List Region) : Prop where
  base_mod : base.toNat % 4096 = 0
  end_mod : endAddress.toNat % 4096 = 0
  splittable : ∀ region ∈ regions, Splittable base endAddress region

theorem CanSplit.pieceOf (hcan : CanSplit base endAddress regions)
    (hwf : RegionsWellFormed regions) {region piece : Region} (hregion : region ∈ regions)
    (hpiece : piece ∈ splitPieces base endAddress region) :
    PieceOf base endAddress region piece :=
  pieceOf_of_mem_splitPieces (hwf.wellFormed region hregion) hcan.base_mod hcan.end_mod
    (hcan.splittable region hregion) hpiece

theorem CanSplit.separated_flatMap (hcan : CanSplit base endAddress regions)
    (hwf : RegionsWellFormed regions) :
    Separated Region.contains (regions.flatMap (splitPieces base endAddress)) := by
  apply hwf.separated.flatMap
  · intro region hregion piece hpiece
    exact (hcan.pieceOf hwf hregion hpiece).contains
  · intro region hregion
    exact separated_splitPieces (hwf.wellFormed region hregion) hcan.base_mod hcan.end_mod
      (hcan.splittable region hregion)

theorem regionsWellFormed_splitRegions (hcan : CanSplit base endAddress regions)
    (hwf : RegionsWellFormed regions) :
    RegionsWellFormed (splitRegions base endAddress regions) := by
  apply regionsWellFormed_sortRegions _ (hcan.separated_flatMap hwf)
  intro piece hpiece
  obtain ⟨region, hregion, hpiece⟩ := List.mem_flatMap.mp hpiece
  exact (hcan.pieceOf hwf hregion hpiece).wellFormed

/-- A split around a non-empty range makes no empty region. -/
theorem regionInvariant_splitRegions (hcan : CanSplit base endAddress regions)
    (hinv : RegionInvariant regions) (hlt : base.toNat < endAddress.toNat) :
    RegionInvariant (splitRegions base endAddress regions) := by
  have hwf := hinv.regionsWellFormed
  apply (regionsWellFormed_splitRegions hcan hwf).regionInvariant
  intro piece hpiece
  obtain ⟨region, hregion, hpiece⟩ := List.mem_flatMap.mp (mem_sortRegions.mp hpiece)
  exact (hcan.pieceOf hwf hregion hpiece).nonempty hlt (hinv.nonempty region hregion)

/-- An address is found in a piece of the region it was found in before. -/
theorem lookup_splitRegions (hcan : CanSplit base endAddress regions)
    (hwf : RegionsWellFormed regions) (address : U64) :
    (lookup Region.contains regions address = none ∧
        lookup Region.contains (splitRegions base endAddress regions) address = none) ∨
      ∃ region piece, lookup Region.contains regions address = some region ∧
        lookup Region.contains (splitRegions base endAddress regions) address = some piece ∧
        piece.contains address = true ∧ PieceOf base endAddress region piece := by
  have hsep := hcan.separated_flatMap hwf
  have hpieces : ∀ region ∈ regions,
      Separated Region.contains (splitPieces base endAddress region) :=
    fun region hregion => separated_splitPieces (hwf.wellFormed region hregion)
      hcan.base_mod hcan.end_mod (hcan.splittable region hregion)
  rw [splitRegions, lookup_sortRegions hsep, lookup_flatMap hwf.separated
    (fun region hregion piece hpiece => (hcan.pieceOf hwf hregion hpiece).contains) hpieces]
  cases hfound : lookup Region.contains regions address with
  | none => exact Or.inl ⟨rfl, rfl⟩
  | some region =>
      have hregion := lookup_mem hfound
      obtain ⟨piece, hpiece, hcontains⟩ := exists_splitPiece (hwf.wellFormed region hregion)
        hcan.base_mod hcan.end_mod (hcan.splittable region hregion) (lookup_covers hfound)
      refine Or.inr ⟨region, piece, rfl, ?_, hcontains, hcan.pieceOf hwf hregion hpiece⟩
      exact (lookup_eq_some_iff (hpieces region hregion)).mpr ⟨hpiece, hcontains⟩

/-- The split changes nothing the flat map shows. -/
theorem addressMapOf_splitRegions (hcan : CanSplit base endAddress regions)
    (hwf : RegionsWellFormed regions) :
    addressMapOf (splitRegions base endAddress regions) = addressMapOf regions := by
  funext address
  simp only [addressMapOf]
  rcases lookup_splitRegions hcan hwf address with ⟨hnone, hsplit⟩ |
    ⟨region, piece, hfound, hsplit, hcontains, hpiece⟩
  · rw [hnone, hsplit]
  · rw [hfound, hsplit, Option.map_some, Option.map_some, hpiece.cellAt address hcontains]

end SplitList

/-! ## The split as a program -/

namespace SoftMMU

variable {base size : U64} {mmu : SoftMMU}

theorem splitAround_eq_ok (hcan : CanSplit base (base + size) mmu.regions)
    (hwf : RegionsWellFormed mmu.regions) :
    splitAround base size mmu =
      .ok () { mmu with regions := splitRegions base (base + size) mmu.regions } := by
  have hrebuilt : mmu.regions.mapM (splitRegion base (base + size)) =
      .ok (mmu.regions.map (splitPieces base (base + size))) := by
    apply mapM_eq_ok
    intro region hregion
    exact splitRegion_eq_ok (hwf.wellFormed region hregion) hcan.base_mod hcan.end_mod
      (hcan.splittable region hregion)
  have hobserve : observe (fun mmu : SoftMMU =>
      mmu.regions.mapM (splitRegion base (base + size))) mmu = .ok _ mmu :=
    observe_eq_ok_iff.mpr ⟨hrebuilt, rfl⟩
  rw [splitAround, bind_of_ok hobserve, modify_apply, splitRegions, List.flatMap_def]

/-- A wrapped range inside a region is a host fault. -/
theorem splitAround_eq_error (hbase : base.toNat % 4096 = 0)
    (hend : (base + size).toNat % 4096 = 0) (hwf : RegionsWellFormed mmu.regions)
    (hwrapped : ∃ region ∈ mmu.regions, ¬Splittable base (base + size) region) :
    splitAround base size mmu = .error .hostFault mmu := by
  obtain ⟨wrapped, hmem, hwrapped⟩ := hwrapped
  have hrebuilt : mmu.regions.mapM (splitRegion base (base + size)) = .error .hostFault := by
    apply mapM_eq_error
    · intro region hregion
      by_cases hsplit : Splittable base (base + size) region
      · exact Or.inr ⟨_, splitRegion_eq_ok (hwf.wellFormed region hregion) hbase hend hsplit⟩
      · exact Or.inl (splitRegion_eq_error (hwf.wellFormed region hregion) hsplit)
    · exact ⟨wrapped, hmem, splitRegion_eq_error (hwf.wellFormed wrapped hmem) hwrapped⟩
  have hobserve : observe (fun mmu : SoftMMU =>
      mmu.regions.mapM (splitRegion base (base + size))) mmu = .error .hostFault mmu :=
    observe_eq_error_iff.mpr ⟨hrebuilt, rfl⟩
  rw [splitAround, bind_of_error hobserve]

end SoftMMU

end LUE
