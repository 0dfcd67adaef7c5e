import LinuxUserspaceEmulator.ELFLoader
import LinuxUserspaceEmulator.SoftMMU.GuestBytes
import LinuxUserspaceEmulator.SoftMMU.Runs
import Mathlib.Data.List.GetD

/-!
# What a loaded segment looks like

Each `PT_LOAD` header that `load_object` accepts leaves one region in the memory map, which
later headers cannot touch.  Its size is the rounded sum of the in-page offset and the memory
size, computed modulo 2^64.

Main results:

- Theorem `loadObject_eq_ok`: the region behind every `PT_LOAD` header of a loaded file.
- Theorem `loadObject_fullyLoaded_iff`: every segment is fully loaded exactly when none of the
  sums wraps.
-/

namespace LUE

open StateExcept SoftMMU ELF

variable {mmu mmu' : SoftMMU} {path : String} {data : List U8} {phoff loadBase dynBase : U64}
  {phdr : LoaderPhdr} {object object' : LoadedObject}

/-! ## The region of a segment -/

/-- The guest address of a segment. -/
def segmentStart (loadBase : U64) (phdr : LoaderPhdr) : U64 :=
  loadBase + phdr.vaddr

/-- The offset of a segment in its first page. -/
def segmentOffset (loadBase : U64) (phdr : LoaderPhdr) : U64 :=
  segmentStart loadBase phdr - pageAlignDown (segmentStart loadBase phdr)

/-- The size of the region that a segment is given. -/
def segmentMapSize (loadBase : U64) (phdr : LoaderPhdr) : U64 :=
  pageAlignUp (segmentOffset loadBase phdr + phdr.memsz)

/-- The region that `load_object` maps for a segment. -/
structure SegmentRegion (data : List U8) (loadBase : U64) (phdr : LoaderPhdr)
    (region : Region) : Prop where
  filesz_le : phdr.filesz.toNat ≤ phdr.memsz.toNat
  inside : ¬outsideFile data phdr
  base : region.base = pageAlignDown (segmentStart loadBase phdr)
  size : region.size = segmentMapSize loadBase phdr
  nonempty : 0 < region.size.toNat
  prot : region.prot = flagsToProt phdr.flags
  bytes : region.bytes =
    List.replicate (segmentOffset loadBase phdr).toNat 0 ++ segmentBytes data phdr ++
      List.replicate ((segmentMapSize loadBase phdr).toNat -
        (segmentOffset loadBase phdr).toNat - (segmentBytes data phdr).length) 0
  fits : (segmentOffset loadBase phdr).toNat + (segmentBytes data phdr).length ≤
    (segmentMapSize loadBase phdr).toNat

/-- The program break behind a segment. -/
def segmentBrk (loadBase : U64) (phdr : LoaderPhdr) : U64 :=
  pageAlignUp (segmentStart loadBase phdr + phdr.memsz)

theorem length_segmentBytes (h : ¬outsideFile data phdr) :
    (segmentBytes data phdr).length = phdr.filesz.toNat := by
  unfold outsideFile at h
  simp only [segmentBytes, List.length_take, List.length_drop]
  omega

theorem toNat_segmentOffset (loadBase : U64) (phdr : LoaderPhdr) :
    (segmentOffset loadBase phdr).toNat = (segmentStart loadBase phdr).toNat % 4096 := by
  have hdown := toNat_pageAlignDown (segmentStart loadBase phdr)
  rw [segmentOffset, BitVec.toNat_sub_of_le (BitVec.le_def.mpr (by omega)), hdown]
  omega

/-- A segment that is loaded adds its region and raises the program break. -/
theorem loadSegment_eq_ok (h : loadSegment path data phoff phdr object mmu = .ok object' mmu') :
    object'.loadBase = object.loadBase ∧
      object'.brkStart = stdMax object.brkStart (segmentBrk object.loadBase phdr) ∧
      ∃ region, mmu' = mmu.withRegion region ∧ mmu.Free region ∧
        SegmentRegion data object.loadBase phdr region := by
  unfold loadSegment at h
  split at h <;> rename_i hsizes
  · cases h
  split at h <;> rename_i hinside
  · cases h
  dsimp only at h
  rcases bind_eq_ok_iff.mp h with ⟨_, mapped, hmap, hrest⟩
  have hobject : mmu' = mapped ∧ object'.loadBase = object.loadBase ∧
      object'.brkStart = stdMax object.brkStart (segmentBrk object.loadBase phdr) := by
    split at hrest <;> cases hrest <;> exact ⟨rfl, rfl, rfl⟩
  rcases hobject with ⟨rfl, hbase, hbrk⟩
  rcases mapBytes_eq_ok hmap with ⟨region, hregion, hfree, hstart, hsize, hprot, hbytes, hfits⟩
  have haligned : pageAlignDown (pageAlignDown (object.loadBase + phdr.vaddr)) =
      pageAlignDown (object.loadBase + phdr.vaddr) :=
    pageAlignDown_of_mod (pageAlignDown_mod _)
  have hround : pageAlignUp (segmentMapSize object.loadBase phdr) =
      segmentMapSize object.loadBase phdr := pageAlignUp_of_mod (pageAlignUp_mod _)
  rw [haligned] at hstart
  refine ⟨hbase, hbrk, region, hregion, hfree, ?_⟩
  rw [gt_iff_lt, BitVec.lt_def, Nat.not_lt] at hsizes
  exact ⟨hsizes, hinside, hstart, hsize.trans hround, hfree.nonempty, hprot,
    by rw [hbytes]; rw [← hround]; rfl, by rw [← hround]; exact hfits⟩

/-! ## The loop over the program headers -/

/-- The ELF header of a file. -/
def ehdrOf (data : List U8) : LoaderEhdr :=
  LoaderEhdr.ofBytes (data.take sizeofEhdr)

/-- A `PT_LOAD` header below an index of the program-header table. -/
def SegmentBelow (data : List U8) (ehdr : LoaderEhdr) (n : Nat) (phdr : LoaderPhdr) : Prop :=
  ∃ i < n, phdrAt data ehdr i = .ok phdr ∧ phdr.type = ptLoad

/-- The state of the loop: the segments so far have their regions and lie below the program
break, and only a segment moves the break. -/
structure SegmentsLoaded (data : List U8) (ehdr : LoaderEhdr) (loadBase : U64) (n : Nat)
    (object : LoadedObject) (mmu : SoftMMU) : Prop where
  base_eq : object.loadBase = loadBase
  wellFormed : RegionsWellFormed mmu.regions
  brk_mod : object.brkStart.toNat % 4096 = 0
  region : ∀ phdr, SegmentBelow data ehdr n phdr →
    ∃ region ∈ mmu.regions, SegmentRegion data loadBase phdr region
  brk : ∀ phdr, SegmentBelow data ehdr n phdr →
    (segmentBrk loadBase phdr).toNat ≤ object.brkStart.toNat
  segment : object.brkStart ≠ 0 → ∃ phdr, SegmentBelow data ehdr n phdr

theorem mem_withRegion {old region : Region} :
    old ∈ (mmu.withRegion region).regions ↔ old ∈ mmu.regions ∨ old = region := by
  rw [withRegion_regions, mem_sortRegions, List.mem_append, List.mem_singleton]

/-- A header that is not a segment changes neither the memory nor the break. -/
theorem loadPhdr_of_type_ne (htype : phdr.type ≠ ptLoad)
    (h : loadPhdr path data phoff phdr object mmu = .ok object' mmu') :
    mmu' = mmu ∧ object'.loadBase = object.loadBase ∧ object'.brkStart = object.brkStart := by
  unfold loadPhdr at h
  split at h
  · split at h
    · cases h
    · cases h
      exact ⟨rfl, rfl, rfl⟩
  split at h
  · cases h
    exact ⟨rfl, rfl, rfl⟩
  split at h
  · cases h
    exact ⟨rfl, rfl, rfl⟩
  · cases h
    exact ⟨rfl, rfl, rfl⟩

theorem loadPhdr_of_type_eq (htype : phdr.type = ptLoad) :
    loadPhdr path data phoff phdr object = loadSegment path data phoff phdr object := by
  have hinterp : ptLoad ≠ ptInterp := by decide
  have hphdr : ptLoad ≠ ptPhdr := by decide
  have hstack : ptLoad ≠ ptGnuStack := by decide
  simp [loadPhdr, htype, hinterp, hphdr, hstack]

/-- One program header keeps the state of the loop. -/
theorem SegmentsLoaded.step {ehdr : LoaderEhdr} {n : Nat}
    (h : SegmentsLoaded data ehdr loadBase n object mmu) (hphdr : phdrAt data ehdr n = .ok phdr)
    (hload : loadPhdr path data phoff phdr object mmu = .ok object' mmu') :
    SegmentsLoaded data ehdr loadBase (n + 1) object' mmu' := by
  have hbelow : ∀ other, SegmentBelow data ehdr (n + 1) other →
      SegmentBelow data ehdr n other ∨ other = phdr ∧ phdr.type = ptLoad := by
    rintro other ⟨i, hi, hother, htype⟩
    rcases Nat.lt_succ_iff_lt_or_eq.mp hi with hlt | rfl
    · exact Or.inl ⟨i, hlt, hother, htype⟩
    · rw [hphdr] at hother
      cases hother
      exact Or.inr ⟨rfl, htype⟩
  by_cases htype : phdr.type = ptLoad
  · rw [loadPhdr_of_type_eq htype] at hload
    rcases loadSegment_eq_ok hload with ⟨hbase, hbrk, region, rfl, hfree, hregion⟩
    rw [h.base_eq] at hbase hbrk hregion
    have hmax : object'.brkStart.toNat =
        max object.brkStart.toNat (segmentBrk loadBase phdr).toNat := by
      rw [hbrk, toNat_stdMax]
    have hbrkMod : (segmentBrk loadBase phdr).toNat % 4096 = 0 := pageAlignUp_mod _
    have hmod := h.brk_mod
    refine ⟨hbase, hfree.regionsWellFormed h.wellFormed, by omega, ?_, ?_,
      fun _ => ⟨phdr, n, Nat.lt_succ_self n, hphdr, htype⟩⟩
    · intro other hother
      rcases hbelow other hother with hold | ⟨rfl, -⟩
      · rcases h.region other hold with ⟨old, hmem, hsegment⟩
        exact ⟨old, mem_withRegion.mpr (Or.inl hmem), hsegment⟩
      · exact ⟨region, mem_withRegion.mpr (Or.inr rfl), hregion⟩
    · intro other hother
      rcases hbelow other hother with hold | ⟨rfl, -⟩
      · have hle := h.brk other hold
        omega
      · omega
  · rcases loadPhdr_of_type_ne htype hload with ⟨rfl, hbase, hbrk⟩
    have hold : ∀ other, SegmentBelow data ehdr (n + 1) other → SegmentBelow data ehdr n other :=
      fun other hother => (hbelow other hother).resolve_right fun hnew => htype hnew.2
    refine ⟨hbase.trans h.base_eq, h.wellFormed, by rw [hbrk]; exact h.brk_mod,
      fun other hother => h.region other (hold other hother),
      fun other hother => by rw [hbrk]; exact h.brk other (hold other hother), fun hne => ?_⟩
    rcases h.segment (by rwa [hbrk] at hne) with ⟨other, i, hi, hother⟩
    exact ⟨other, i, Nat.lt_succ_of_lt hi, hother⟩

/-- The loop over the program headers establishes its state for all of them. -/
theorem loadPhdrs_segmentsLoaded {ehdr : LoaderEhdr} (hwf : RegionsWellFormed mmu.regions)
    (h : loadPhdrs path data ehdr dynBase mmu = .ok object mmu') :
    SegmentsLoaded data ehdr (loadBaseFor ehdr dynBase) ehdr.phnum.toNat object mmu' := by
  refine foldlM_range_eq_ok (SegmentsLoaded data ehdr (loadBaseFor ehdr dynBase)) ?_ ?_ h
  · intro i current s next s' hcurrent hstep
    rcases bind_eq_ok_iff.mp hstep with ⟨phdr, t, hread, hload⟩
    rcases observe_eq_ok_iff.mp hread with ⟨hphdr, rfl⟩
    exact hcurrent.step hphdr hload
  · have hnone : ∀ phdr, ¬SegmentBelow data ehdr 0 phdr := by
      rintro phdr ⟨i, hi, -⟩
      exact Nat.not_lt_zero i hi
    exact ⟨rfl, hwf, rfl, fun phdr hphdr => absurd hphdr (hnone phdr),
      fun phdr hphdr => absurd hphdr (hnone phdr), fun hne => absurd rfl hne⟩

/-- What a call that returns has done: it has read the file, and it has loaded the segments
that the file's header announces. -/
theorem loadObject_eq_ok {files : HostFiles} (hwf : RegionsWellFormed mmu.regions)
    (h : loadObject files path dynBase mmu = .ok object mmu') :
    ∃ data, files.readFileFor path "ELF file" = .ok data ∧
      checkLoaderEhdr path data.length (ehdrOf data) = .ok () ∧
      object.brkStart ≠ 0 ∧
      SegmentsLoaded data (ehdrOf data) (loadBaseFor (ehdrOf data) dynBase)
        (ehdrOf data).phnum.toNat object mmu' := by
  unfold loadObject at h
  rcases bind_eq_ok_iff.mp h with ⟨data, t, hread, hrest⟩
  rcases observe_eq_ok_iff.mp hread with ⟨hdata, rfl⟩
  split at hrest
  · cases hrest
  rcases bind_eq_ok_iff.mp hrest with ⟨header, t, hheader, hrest'⟩
  rcases observe_eq_ok_iff.mp hheader with ⟨hobject, rfl⟩
  have hehdr : header = data.take sizeofEhdr := by
    unfold objectAt at hobject
    split at hobject <;> cases hobject
    rfl
  subst hehdr
  rcases bind_eq_ok_iff.mp hrest' with ⟨_, t, hchecked, hload⟩
  rcases observe_eq_ok_iff.mp hchecked with ⟨hcheck, rfl⟩
  rcases bind_eq_ok_iff.mp hload with ⟨loaded, t, hphdrs, hend⟩
  have hsegments := loadPhdrs_segmentsLoaded hwf hphdrs
  split at hend <;> split at hend <;> cases hend <;> rename_i hbrk
  · exact ⟨data, hdata, hcheck, hbrk, hsegments.base_eq, hsegments.wellFormed,
      hsegments.brk_mod, hsegments.region, hsegments.brk, hsegments.segment⟩
  · exact ⟨data, hdata, hcheck, hbrk, hsegments⟩

/-! ## Fully loaded segments -/

/-- The permission has exactly the bits that the flags of the header ask for. -/
structure ExactPermission (flags : U32) (prot : Protection) : Prop where
  read : prot &&& protRead ≠ 0 ↔ flags &&& pfR ≠ 0
  write : prot &&& protWrite ≠ 0 ↔ flags &&& pfW ≠ 0
  execute : prot &&& protExecute ≠ 0 ↔ flags &&& pfX ≠ 0
  only : prot &&& ~~~(protRead ||| protWrite ||| protExecute) = 0

theorem exactPermission_flagsToProt (flags : U32) :
    ExactPermission flags (flagsToProt flags) := by
  unfold flagsToProt
  constructor <;>
    by_cases hr : flags &&& pfR = 0 <;> by_cases hw : flags &&& pfW = 0 <;>
      by_cases hx : flags &&& pfX = 0 <;>
      simp only [hr, hw, hx, ne_eq, not_true_eq_false, not_false_eq_true, if_true, if_false] <;>
      decide

/-- A segment that is in memory as its header says: the bytes of the file, zeros behind them,
and the permissions of the header. -/
structure SegmentLoaded (mmu : SoftMMU) (data : List U8) (loadBase : U64) (phdr : LoaderPhdr) :
    Prop where
  contents : ∀ i < phdr.filesz.toNat, ∃ byte, data[phdr.offset.toNat + i]? = some byte ∧
    mmu.guestByte (segmentStart loadBase phdr + BitVec.ofNat 64 i) = some byte
  zero : ∀ i, phdr.filesz.toNat ≤ i → i < phdr.memsz.toNat →
    mmu.guestByte (segmentStart loadBase phdr + BitVec.ofNat 64 i) = some 0
  permission : ∀ i < phdr.memsz.toNat, ∃ prot,
    protections mmu (segmentStart loadBase phdr + BitVec.ofNat 64 i) = some prot ∧
      ExactPermission phdr.flags prot

/-- The sum of the in-page offset and the memory size of a segment does not wrap. -/
def SizeFits (loadBase : U64) (phdr : LoaderPhdr) : Prop :=
  (segmentStart loadBase phdr).toNat % 4096 + phdr.memsz.toNat < 2 ^ 64

/-- The rounded size of a region that was mapped is large enough, unless it has wrapped. -/
theorem SegmentRegion.size_ge {region : Region} (h : SegmentRegion data loadBase phdr region)
    (hfits : SizeFits loadBase phdr) :
    (segmentStart loadBase phdr).toNat % 4096 + phdr.memsz.toNat ≤ region.size.toNat := by
  have hnonempty := h.nonempty
  rw [h.size, segmentMapSize] at hnonempty ⊢
  have hsum : (segmentOffset loadBase phdr + phdr.memsz).toNat =
      (segmentStart loadBase phdr).toNat % 4096 + phdr.memsz.toNat := by
    rw [BitVec.toNat_add, toNat_segmentOffset, Nat.mod_eq_of_lt hfits]
  rw [toNat_pageAlignUp, hsum] at hnonempty ⊢
  unfold SizeFits at hfits
  omega

/-- The addresses of a segment are those of its region, behind the in-page offset. -/
theorem SegmentRegion.contains {region : Region} (h : SegmentRegion data loadBase phdr region)
    (hregion : region.WellFormed) (hfits : SizeFits loadBase phdr) {i : Nat}
    (hi : i < phdr.memsz.toNat) :
    region.contains (segmentStart loadBase phdr + BitVec.ofNat 64 i) = true ∧
      (segmentStart loadBase phdr + BitVec.ofNat 64 i - region.base).toNat =
        (segmentStart loadBase phdr).toNat % 4096 + i := by
  have hsize := h.size_ge hfits
  have hend := hregion.end_lt
  have hbase : region.base.toNat = (segmentStart loadBase phdr).toNat / 4096 * 4096 := by
    rw [h.base, toNat_pageAlignDown]
  have haddress : (segmentStart loadBase phdr + BitVec.ofNat 64 i).toNat =
      (segmentStart loadBase phdr).toNat + i := by
    rw [BitVec.toNat_add, BitVec.toNat_ofNat]
    omega
  have hcontains : region.contains (segmentStart loadBase phdr + BitVec.ofNat 64 i) = true := by
    rw [hregion.contains_iff, haddress]
    omega
  refine ⟨hcontains, ?_⟩
  rw [hregion.toNat_offset hcontains, haddress]
  omega

/-- The bytes of a region: the part of the file at the in-page offset, and zeros around it. -/
theorem SegmentRegion.getD_bytes {region : Region}
    (h : SegmentRegion data loadBase phdr region) (i : Nat) :
    region.bytes.getD ((segmentStart loadBase phdr).toNat % 4096 + i) 0 =
      (segmentBytes data phdr).getD i 0 := by
  rw [h.bytes, List.append_assoc, List.getD_append_right _ _ _ _ (by
    rw [List.length_replicate, toNat_segmentOffset]
    omega), List.length_replicate, toNat_segmentOffset, Nat.add_sub_cancel_left]
  by_cases hi : i < (segmentBytes data phdr).length
  · rw [List.getD_append _ _ _ _ hi]
  · have hbehind : (segmentBytes data phdr).getD i 0 = 0 :=
      List.getD_eq_default _ _ (by omega)
    rw [List.getD_append_right _ _ _ _ (by omega), List.getD_eq_getElem?_getD,
      List.getElem?_getD_replicate_default_eq, hbehind]

/-- A region of sufficient size holds its segment. -/
theorem SegmentRegion.segmentLoaded {region : Region}
    (h : SegmentRegion data loadBase phdr region) (hwf : RegionsWellFormed mmu.regions)
    (hmem : region ∈ mmu.regions) (hfits : SizeFits loadBase phdr) :
    SegmentLoaded mmu data loadBase phdr := by
  have hregion := hwf.wellFormed region hmem
  have hlength := length_segmentBytes h.inside
  have hle := h.filesz_le
  have hcell : ∀ i < phdr.memsz.toNat,
      mmu.addressMap (segmentStart loadBase phdr + BitVec.ofNat 64 i) =
        some (region.cellAt (segmentStart loadBase phdr + BitVec.ofNat 64 i)) :=
    fun i hi => (addressMap_eq_some_iff hwf).mpr
      ⟨region, hmem, (h.contains hregion hfits hi).1, rfl⟩
  have hbyte : ∀ i < phdr.memsz.toNat,
      mmu.guestByte (segmentStart loadBase phdr + BitVec.ofNat 64 i) =
        some ((segmentBytes data phdr).getD i 0) := by
    intro i hi
    rw [guestByte, hcell i hi, Option.map_some, Region.cellAt,
      (h.contains hregion hfits hi).2, h.getD_bytes]
  refine ⟨fun i hi => ?_, fun i hmin hi => ?_, fun i hi => ?_⟩
  · have hinside := h.inside
    unfold outsideFile at hinside
    have hdata : phdr.offset.toNat + i < data.length := by omega
    refine ⟨data[phdr.offset.toNat + i], List.getElem?_eq_getElem hdata, ?_⟩
    rw [hbyte i (by omega), List.getD_eq_getElem?_getD, segmentBytes, List.getElem?_take,
      if_pos hi, List.getElem?_drop, List.getElem?_eq_getElem hdata, Option.getD_some]
  · rw [hbyte i hi, List.getD_eq_default _ _ (by omega)]
  · refine ⟨region.prot, ?_, ?_⟩
    · rw [protections, hcell i hi]
      rfl
    · rw [h.prot]
      exact exactPermission_flagsToProt phdr.flags

/-- A segment whose size has wrapped would have to cover the last byte of the address
space. -/
theorem SegmentRegion.not_segmentLoaded {region : Region}
    (h : SegmentRegion data loadBase phdr region) (hwf : RegionsWellFormed mmu.regions)
    (hmem : region ∈ mmu.regions) (hwraps : ¬SizeFits loadBase phdr) :
    ¬SegmentLoaded mmu data loadBase phdr := by
  intro hloaded
  unfold SizeFits at hwraps
  have hregion := hwf.wellFormed region hmem
  have hend := hregion.end_lt
  have hpos := h.nonempty
  have hsizeMod := hregion.size_mod
  have hmemsz := phdr.memsz.isLt
  have hbase : region.base.toNat = (segmentStart loadBase phdr).toNat / 4096 * 4096 := by
    rw [h.base, toNat_pageAlignDown]
  rcases hloaded.permission (2 ^ 64 - 1 - (segmentStart loadBase phdr).toNat) (by omega) with
    ⟨prot, hprot, -⟩
  rw [protections, Option.map_eq_some_iff] at hprot
  rcases hprot with ⟨cell, hcell, -⟩
  have hlt := lt_of_addressMap hwf hcell
  rw [BitVec.toNat_add, BitVec.toNat_ofNat] at hlt
  omega

/-- What `load_object` owes: every segment is loaded, and the program break is page aligned
and above all of them. -/
structure FullyLoaded (mmu : SoftMMU) (data : List U8) (object : LoadedObject) : Prop where
  segments : ∀ phdr, SegmentBelow data (ehdrOf data) (ehdrOf data).phnum.toNat phdr →
    SegmentLoaded mmu data object.loadBase phdr
  brk_aligned : object.brkStart.toNat % 4096 = 0
  brk_above : ∀ phdr, SegmentBelow data (ehdrOf data) (ehdrOf data).phnum.toNat phdr →
    (segmentStart object.loadBase phdr).toNat + phdr.memsz.toNat ≤ object.brkStart.toNat

/-- A file is fully loaded exactly when no segment's in-page offset and memory size add up to
more than the address space. -/
theorem loadObject_fullyLoaded_iff {files : HostFiles} (hreachable : Reachable mmu)
    (hdata : files.readFileFor path "ELF file" = .ok data)
    (h : loadObject files path dynBase mmu = .ok object mmu') :
    FullyLoaded mmu' data object ↔
      ∀ phdr, SegmentBelow data (ehdrOf data) (ehdrOf data).phnum.toNat phdr →
        SizeFits (loadBaseFor (ehdrOf data) dynBase) phdr := by
  rcases loadObject_eq_ok hreachable.regionsWellFormed h with ⟨data', hdata', -, -, hsegments⟩
  rw [hdata] at hdata'
  cases hdata'
  have hbase : loadBaseFor (ehdrOf data) dynBase = object.loadBase := hsegments.base_eq.symm
  rw [hbase] at hsegments ⊢
  constructor
  · intro hloaded phdr hphdr
    rcases hsegments.region phdr hphdr with ⟨region, hmem, hregion⟩
    by_contra hwraps
    exact hregion.not_segmentLoaded hsegments.wellFormed hmem hwraps
      (hloaded.segments phdr hphdr)
  · intro hfits
    refine ⟨fun phdr hphdr => ?_, hsegments.brk_mod, fun phdr hphdr => ?_⟩
    · rcases hsegments.region phdr hphdr with ⟨region, hmem, hregion⟩
      exact hregion.segmentLoaded hsegments.wellFormed hmem (hfits phdr hphdr)
    · rcases hsegments.region phdr hphdr with ⟨region, hmem, hregion⟩
      have hsize := hregion.size_ge (hfits phdr hphdr)
      have hend := (hsegments.wellFormed.wellFormed region hmem).end_lt
      have hmod := (hsegments.wellFormed.wellFormed region hmem).size_mod
      have hstart : region.base.toNat =
          (segmentStart object.loadBase phdr).toNat / 4096 * 4096 := by
        rw [hregion.base, toNat_pageAlignDown]
      have hsum : (segmentStart object.loadBase phdr + phdr.memsz).toNat =
          (segmentStart object.loadBase phdr).toNat + phdr.memsz.toNat := by
        rw [BitVec.toNat_add]
        omega
      have hbrk := hsegments.brk phdr hphdr
      rw [segmentBrk, toNat_pageAlignUp, hsum] at hbrk
      omega

/-! ## A file with one segment -/

/-- A file with one `PT_LOAD` segment that is readable and executable: its type, the address
and the memory size of the segment.  The segment has four bytes of the file. -/
def oneSegmentFile (type : U8) (vaddr memsz : U64) : List U8 :=
  [0x7f, 0x45, 0x4c, 0x46, 2, 1, 1, 0, 0, 0, 0, 0, 0, 0, 0, 0, type, 0, 62, 0, 1, 0, 0, 0] ++
    LittleEndian.bytes vaddr ++ LittleEndian.bytes 64 ++ LittleEndian.bytes 0 ++
    [0, 0, 0, 0, 64, 0, 56, 0, 1, 0, 0, 0, 0, 0, 0, 0] ++
    [1, 0, 0, 0, 5, 0, 0, 0] ++
    LittleEndian.bytes 120 ++ LittleEndian.bytes vaddr ++ LittleEndian.bytes vaddr ++
    LittleEndian.bytes 4 ++ LittleEndian.bytes memsz ++ LittleEndian.bytes 0x1000 ++
    [0x0f, 0x0b, 0x0f, 0x0b]

/-- Host files that all have the same content. -/
def filesWith (data : List U8) : HostFiles where
  readFile := fun _ => .ok data
  pread := fun _ _ _ => .error .einval

/-- The segment of the file. -/
def oneSegment (vaddr memsz : U64) : LoaderPhdr where
  type := 1
  flags := 5
  vaddr := vaddr
  memsz := memsz
  offset := 120
  filesz := 4

/-- The only segment of a file whose table has been evaluated. -/
theorem segmentBelow_of_single {data : List U8} {only : LoaderPhdr}
    (hphnum : (ehdrOf data).phnum = 1) (hfirst : phdrAt data (ehdrOf data) 0 = .ok only)
    (htype : only.type = ptLoad) (phdr : LoaderPhdr) :
    SegmentBelow data (ehdrOf data) (ehdrOf data).phnum.toNat phdr ↔ phdr = only := by
  rw [hphnum]
  constructor
  · rintro ⟨i, hi, hphdr, -⟩
    rw [Nat.lt_one_iff.mp hi, hfirst] at hphdr
    cases hphdr
    rfl
  · rintro rfl
    exact ⟨0, Nat.one_pos, hfirst, htype⟩

/-- A segment of 16 bytes. -/
abbrev smallSegmentFile : List U8 :=
  oneSegmentFile 2 0x400800 0x10

/-- A segment of almost the whole address space. -/
abbrev wrappedSegmentFile : List U8 :=
  oneSegmentFile 2 0x400800 (-0x700)

/-- What `load_object` returns for both files. -/
abbrev oneSegmentObject : LoadedObject :=
  { entry := 0x400800, phdr := 64, phent := 56, phnum := 1, brkStart := 0x401000 }

/-- The small segment is fully loaded. -/
theorem loadObject_fullyLoaded_iff_small :
    ∃ object mmu', loadObject (filesWith smallSegmentFile) "a.out" executableDynBase {} =
        .ok object mmu' ∧
      FullyLoaded mmu' smallSegmentFile object := by
  have hrun : loadObject (filesWith smallSegmentFile) "a.out" executableDynBase {} =
      .ok oneSegmentObject _ := eq_ok_of_returned (by decide +kernel)
  refine ⟨_, _, hrun, (loadObject_fullyLoaded_iff reachable_empty rfl hrun).mpr ?_⟩
  intro phdr hphdr
  rw [(@segmentBelow_of_single _ (oneSegment 0x400800 0x10) (by decide)
    (by decide +kernel) rfl phdr).mp hphdr]
  unfold SizeFits
  decide

/-- The other segment is accepted too, and it gets one page. -/
theorem wrapped_segment_loaded :
    ∃ object mmu', loadObject (filesWith wrappedSegmentFile) "a.out" executableDynBase {} =
        .ok object mmu' ∧
      ¬FullyLoaded mmu' wrappedSegmentFile object := by
  have hrun : loadObject (filesWith wrappedSegmentFile) "a.out" executableDynBase {} =
      .ok oneSegmentObject _ := eq_ok_of_returned (by decide +kernel)
  refine ⟨_, _, hrun, fun hloaded => ?_⟩
  rcases loadObject_eq_ok reachable_empty.regionsWellFormed hrun with
    ⟨data, hdata, -, -, hsegments⟩
  cases hdata
  have hphdr := (@segmentBelow_of_single wrappedSegmentFile _ (by decide)
    (by decide +kernel) rfl (oneSegment 0x400800 (-0x700))).mpr rfl
  rcases hsegments.region _ hphdr with ⟨region, hmem, hregion⟩
  rw [← hsegments.base_eq] at hregion
  refine hregion.not_segmentLoaded hsegments.wellFormed hmem ?_ (hloaded.segments _ hphdr)
  unfold SizeFits
  decide

end LUE
