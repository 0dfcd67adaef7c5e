import LinuxUserspaceEmulator.LinuxSyscalls.MemoryMap
import LinuxUserspaceEmulator.SoftMMU.Runs

/-!
# What mmap does to the flat map

A `mmap` call first places a fresh mapping, fills it from the file when there is one, and
then sets initialization flags and permissions.  The placement decides what happens to
older mappings: free placement and `MAP_FIXED_NOREPLACE` touch none, `MAP_FIXED` replaces
what the range held.

Main results:

- Theorem `placeMmap_spec`: what a successful placement has put on the range.
- Theorem `finishMmap_spec`: flags and permissions of the range, nothing else.
- Theorem `sysMmap_anonymous`: the postcondition of an anonymous `mmap`.
- Theorem `sysMmap_error_iff`: when a failing `mmap` has changed nothing.
-/

namespace LUE

open StateExcept SoftMMU SegmentList

variable {mmu mmu' : SoftMMU} {address size flags offset : U64} {name : String}
  {path : Option String}

/-! ## The pages of a range -/

theorem isMapped_iff {address : U64} {count : Nat} :
    mmu.isMapped address count = true ↔
      ∀ i < count, mmu.addressMap (address + BitVec.ofNat 64 i) ≠ none := by
  simp [isMapped, addressMap, addressMapOf, findRegion, Option.isSome_iff_ne_none]

/-- A region that holds an address holds the first address of its page. -/
theorem addressMap_ne_none_of_page (hwf : RegionsWellFormed mmu.regions) {a page : U64}
    (ha : mmu.addressMap a ≠ none) (hpage : page.toNat = a.toNat / 4096 * 4096) :
    mmu.addressMap page ≠ none := by
  rw [Ne, addressMap_eq_none_iff] at ha ⊢
  intro hnone
  apply ha
  intro region hregion
  have hwfr := hwf.wellFormed region hregion
  have hbase := hwfr.base_mod
  have hsize := hwfr.size_mod
  have hout := hnone region hregion
  rw [Bool.eq_false_iff, Ne, hwfr.contains_iff] at hout ⊢
  omega

/-- Some address of a page-aligned range is mapped exactly when the first address of some page
is; the test of the last byte adds nothing. -/
theorem guestRangeIsMapped_iff (hwf : RegionsWellFormed mmu.regions)
    (hbase : address.toNat % 4096 = 0) (hsize : size.toNat % 4096 = 0)
    (hend : address.toNat + size.toNat ≤ 2 ^ 64) :
    guestRangeIsMapped address size mmu = true ↔
      ∃ a, within address size.toNat a = true ∧ mmu.addressMap a ≠ none := by
  have hone : ∀ a, mmu.isMapped a 1 = true ↔ mmu.addressMap a ≠ none := by
    intro a
    simp [isMapped_iff]
  unfold guestRangeIsMapped
  by_cases hzero : size = 0
  · subst hzero
    simp [within_iff]
  have hpos : 0 < size.toNat := by
    rw [Nat.pos_iff_ne_zero]
    intro hsize
    exact hzero (BitVec.eq_of_toNat_eq (by simpa using hsize))
  simp only [if_neg hzero, Bool.or_eq_true, List.any_eq_true, List.mem_range, hone]
  constructor
  · rintro (⟨i, hi, hmapped⟩ | hmapped)
    · refine ⟨_, ?_, hmapped⟩
      rw [within_iff, BitVec.toNat_add, BitVec.toNat_ofNat]
      omega
    · refine ⟨_, ?_, hmapped⟩
      have hlast : (address + size - 1).toNat = address.toNat + size.toNat - 1 := by
        rw [BitVec.toNat_sub, BitVec.toNat_add]
        simp only [BitVec.ofNat_eq_ofNat, BitVec.toNat_ofNat]
        omega
      rw [within_iff, hlast]
      omega
  · rintro ⟨a, ha, hmapped⟩
    rw [within_iff] at ha
    refine Or.inl ⟨(a.toNat - address.toNat) / 4096, by omega, ?_⟩
    apply addressMap_ne_none_of_page hwf hmapped
    rw [BitVec.toNat_add, BitVec.toNat_ofNat]
    omega

/-! ## Placement -/

/-- The flags under which a `mmap` call may replace older mappings. -/
def replacesMappings (flags : U64) : Bool :=
  hasFlag flags mapFixed && !hasFlag flags mapFixedNoreplace

/-- The cell that a fresh mapping has at an address. -/
def mmapCell (base : U64) (name : String) (path : Option String) (offset a : U64) : Cell where
  byte := 0
  initialized := true
  prot := protRead ||| protWrite
  name := name
  backing := .mmap path (offset + (a - base))

/-- A state in which a fresh mapping covers a range. -/
structure Placed (mmu mmu' : SoftMMU) (base size : U64) (name : String)
    (path : Option String) (offset : U64) : Prop where
  range : RangeChange.AlignedRange base size
  size_ne_zero : size ≠ 0
  wellFormed : RegionsWellFormed mmu'.regions
  regionInvariant : RegionInvariant mmu.regions → RegionInvariant mmu'.regions
  addressMap : mmu'.addressMap =
    mmu.addressMap.fill (within base size.toNat) (mmapCell base name path offset)

theorem ofMmap_cellAt {base size a : U64} {prot : Protection}
    (h : (Region.ofMmap base size prot name path offset).WellFormed)
    (ha : (Region.ofMmap base size prot name path offset).contains a = true) :
    (Region.ofMmap base size prot name path offset).cellAt a =
      { mmapCell base name path offset a with prot := prot } := by
  have hlt : (a - base).toNat < size.toNat := h.offset_lt ha
  simp only [Region.cellAt, Region.ofMmap, Region.ofZeroes, mmapCell, Backing.advance,
    List.getD_eq_getElem?_getD, List.getElem?_replicate, if_pos hlt, Option.getD_some]

/-- A fresh mapping fills its range with fresh cells. -/
theorem addressMap_withMmap {base : U64} {prot : Protection}
    (hwf : RegionsWellFormed mmu.regions)
    (hfree : mmu.Free (.ofMmap base size prot name path offset)) :
    (mmu.withRegion (.ofMmap base size prot name path offset)).addressMap =
      mmu.addressMap.fill (within base size.toNat)
        fun a => { mmapCell base name path offset a with prot := prot } := by
  have hregion := hfree.wellFormed
  rw [hfree.addressMap hwf]
  funext a
  have hsame : (Region.ofMmap base size prot name path offset).contains a =
      within base size.toNat a := by
    rw [Bool.eq_iff_iff, hregion.contains_iff, within_iff]
    rfl
  rw [AddressMap.fill_apply, AddressMap.fill_apply, ← hsame]
  split <;> rename_i ha
  · rw [ofMmap_cellAt hregion ha]
  · rfl

/-- The range of a fresh mapping is aligned and not empty. -/
theorem alignedRange_of_free {base : U64} {prot : Protection}
    (hfree : mmu.Free (.ofMmap base size prot name path offset)) :
    RangeChange.AlignedRange base size ∧ size ≠ 0 := by
  have hregion := hfree.wellFormed
  refine ⟨⟨hregion.base_mod, hregion.size_mod, hregion.end_lt⟩, ?_⟩
  rintro rfl
  exact absurd hfree.nonempty (by simp [Region.ofMmap, Region.ofZeroes])

/-- Pushing a fresh mapping places it. -/
theorem placed_withRegion {base : U64} (hwf : RegionsWellFormed mmu.regions)
    (hfree : mmu.Free (.ofMmap base size (protRead ||| protWrite) name path offset)) :
    Placed mmu (mmu.withRegion (.ofMmap base size (protRead ||| protWrite) name path offset))
      base size name path offset where
  range := (alignedRange_of_free hfree).1
  size_ne_zero := (alignedRange_of_free hfree).2
  wellFormed := hfree.regionsWellFormed hwf
  regionInvariant := hfree.regionInvariant
  addressMap := addressMap_withMmap hwf hfree

/-- The addresses of a free region are those of its range. -/
theorem free_of_within {base a : U64} {prot : Protection}
    (hfree : mmu.Free (.ofMmap base size prot name path offset))
    (hwf : RegionsWellFormed mmu.regions) (ha : within base size.toNat a = true) :
    mmu.addressMap a = none := by
  apply hfree.addressMap_eq_none hwf
  rw [hfree.wellFormed.contains_iff]
  exact within_iff.mp ha

/-- What a successful placement has put on the range, and when the range was free. -/
theorem placeMmap_spec {r : U64} (hwf : RegionsWellFormed mmu.regions)
    (hsize : size.toNat % 4096 = 0)
    (h : placeMmap address size flags offset name path mmu = .ok (.ok r) mmu') :
    Placed mmu mmu' r size name path offset ∧
      (replacesMappings flags = true → r = pageAlignDown address) ∧
      (replacesMappings flags = false →
        ∀ a, within r size.toNat a = true → mmu.addressMap a = none) := by
  have hround : pageAlignUp size = size := pageAlignUp_of_mod hsize
  unfold placeMmap at h
  split at h <;> rename_i hfixed
  · rw [bind_of_ok (get_apply mmu)] at h
    have haligned : pageAlignDown (pageAlignDown address) = pageAlignDown address :=
      pageAlignDown_of_mod (pageAlignDown_mod address)
    split at h <;> rename_i hcheck
    · cases h
    · obtain ⟨_, mmu₁, hunmap, hrest⟩ := bind_eq_ok_iff.mp h
      obtain ⟨_, mmu₂, hmap, hreturn⟩ := bind_eq_ok_iff.mp hrest
      cases hreturn
      obtain ⟨rfl, hfree⟩ := mapMmap_eq_ok hmap
      rw [haligned, hround] at hfree ⊢
      obtain ⟨hrange, hsize_ne⟩ := alignedRange_of_free hfree
      obtain ⟨mmu₂, hok, hedits⟩ := hrange.apply_eq_ok .unmap hsize_ne hwf
      rw [RangeChange.apply, hunmap] at hok
      cases hok
      have hplaced := placed_withRegion hedits.wellFormed hfree
      refine ⟨⟨hrange, hsize_ne, hplaced.wellFormed,
        fun hinv => hplaced.regionInvariant (hedits.regionInvariant hinv), ?_⟩, fun _ => rfl,
        ?_⟩
      · rw [hplaced.addressMap, hedits.addressMap]
        funext a
        simp only [AddressMap.fill_apply, AddressMap.change]
        split <;> rename_i ha
        · rfl
        · rfl
      · intro hreplaces a ha
        have hnoreplace : hasFlag flags mapFixedNoreplace = true := by
          simp only [replacesMappings] at hreplaces
          simp only [Bool.or_eq_true] at hfixed
          rcases hfixed with hfixed | hfixed
          · simpa [hfixed] using hreplaces
          · exact hfixed
        by_contra hmapped
        apply hcheck
        rw [hnoreplace, Bool.true_and,
          guestRangeIsMapped_iff hwf hrange.base_mod hrange.size_mod hrange.end_lt.le]
        exact ⟨a, ha, hmapped⟩
  · obtain ⟨r', mmu₁, hallocate, hreturn⟩ := bind_eq_ok_iff.mp h
    cases hreturn
    obtain ⟨hmod, hint, hint', rfl, hfree⟩ := allocateMmap_eq_ok hallocate
    rw [hround] at hfree ⊢
    have hwf' : RegionsWellFormed (mmu.withHint hint).regions := hwf
    have hplaced := placed_withRegion hwf' hfree
    have hnone : ∀ a, within r size.toNat a = true →
        (mmu.withHint hint).addressMap a = none := fun a ha => free_of_within hfree hwf' ha
    refine ⟨⟨hplaced.range, hplaced.size_ne_zero, hplaced.wellFormed, hplaced.regionInvariant,
      hplaced.addressMap⟩, ?_, fun _ => hnone⟩
    intro hreplaces
    simp only [Bool.or_eq_true, not_or, Bool.not_eq_true] at hfixed
    simp [replacesMappings, hfixed.1] at hreplaces

/-- A placement that returns an error has changed nothing. -/
theorem placeMmap_error {errno : Errno}
    (h : placeMmap address size flags offset name path mmu = .ok (.error errno) mmu') :
    mmu' = mmu := by
  unfold placeMmap at h
  split at h
  · rw [bind_of_ok (get_apply mmu)] at h
    split at h
    · cases h
      rfl
    · obtain ⟨_, mmu₁, -, hrest⟩ := bind_eq_ok_iff.mp h
      obtain ⟨_, mmu₂, -, hreturn⟩ := bind_eq_ok_iff.mp hrest
      cases hreturn
  · obtain ⟨r', mmu₁, -, hreturn⟩ := bind_eq_ok_iff.mp h
    cases hreturn

/-- A range that does not wrap can always be unmapped and mapped afresh. -/
theorem mapMmap_of_unmap {base : U64} (hwf : RegionsWellFormed mmu.regions)
    (hsize_ne : size ≠ 0) (hrange : RangeChange.AlignedRange base size) (prot : Protection) :
    ∃ mmu', unmap base size mmu = .ok () mmu' ∧
      mmu.Edits mmu' (mmu.addressMap.change (within base size.toNat) RangeChange.unmap.onCell) ∧
      mapMmap base size prot name path offset mmu' =
        .ok () (mmu'.withRegion (.ofMmap base size prot name path offset)) := by
  obtain ⟨mmu', hunmap, hedits⟩ := hrange.apply_eq_ok .unmap hsize_ne hwf
  have haligned : pageAlignDown base = base := pageAlignDown_of_mod hrange.base_mod
  have hround : pageAlignUp size = size := pageAlignUp_of_mod hrange.size_mod
  have hcheck : mmu'.ensureNoOverlap base size = .ok () := by
    rw [ensureNoOverlap_eq_ok_iff]
    refine ⟨?_, hrange.end_lt, ?_⟩
    · rw [Nat.pos_iff_ne_zero]
      intro hzero
      exact hsize_ne (BitVec.eq_of_toNat_eq (by simpa using hzero))
    · intro region hregion hmeets
      have houtside := RangeChange.not_meets_of_unmap hsize_ne hwf
        (hrange.fits.notWrappedIn mmu.regions) hunmap region hregion
      rw [RangeChange.endOf, haligned, hround] at houtside
      simp only [outsideRange, Bool.or_eq_true, decide_eq_true_eq, BitVec.le_def] at houtside
      simp only [gt_iff_lt, BitVec.lt_def] at hmeets
      omega
  refine ⟨mmu', hunmap, hedits, ?_⟩
  rw [mapMmap, haligned, hround, bind_of_ok (observe_ensureNoOverlap hcheck), pushRegion_apply]

/-- A `MAP_FIXED` range that does not wrap can always be placed. -/
theorem placeMmap_of_replaces (hwf : RegionsWellFormed mmu.regions)
    (hreplaces : replacesMappings flags = true) (hsize_ne : size ≠ 0)
    (hrange : RangeChange.AlignedRange (pageAlignDown address) size) :
    ∃ mmu', placeMmap address size flags offset name path mmu =
      .ok (.ok (pageAlignDown address)) mmu' := by
  simp only [replacesMappings, Bool.and_eq_true, Bool.not_eq_true'] at hreplaces
  obtain ⟨hfixed, hnoreplace⟩ := hreplaces
  obtain ⟨mmu₁, hunmap, -, hmap⟩ := mapMmap_of_unmap hwf hsize_ne hrange (protRead ||| protWrite)
  refine ⟨mmu₁.withRegion (.ofMmap (pageAlignDown address) size (protRead ||| protWrite) name
    path offset), ?_⟩
  rw [placeMmap, if_pos (by simp [hfixed]), bind_of_ok (get_apply mmu),
    if_neg (by simp [hnoreplace]), bind_of_ok hunmap, bind_of_ok hmap]
  rfl

/-! ## Flags and permissions -/

/-- Flags and permissions of the range, nothing else. -/
theorem finishMmap_spec (hwf : RegionsWellFormed mmu.regions)
    (hrange : RangeChange.AlignedRange address size) (hsize_ne : size ≠ 0)
    (hread : ∀ a, within address size.toNat a = true →
      ∃ cell, mmu.addressMap.access a protRead = .ok cell) (prot : U64) :
    ∃ mmu', finishMmap address size prot flags mmu = .ok () mmu' ∧
      mmu.Edits mmu' (mmu.addressMap.change (within address size.toNat) (Option.map fun cell =>
        { cell with
          initialized := if hasFlag flags mapUninitialized then false else cell.initialized
          prot := protFromLinux prot })) := by
  have hend := hrange.end_lt
  unfold finishMmap
  split <;> rename_i huninitialized
  · obtain ⟨mmu₁, hmark, hedits⟩ := markInitialized_of_readable hwf (Nat.le_of_lt hend)
      (fun i hi => hread _ (by
        rw [within_iff, BitVec.toNat_add, BitVec.toNat_ofNat]
        omega)) false
    obtain ⟨mmu₂, hprotect, hedits'⟩ := hrange.apply_eq_ok (.protect (protFromLinux prot))
      hsize_ne hedits.wellFormed
    refine ⟨mmu₂, ?_, ?_⟩
    · rw [bind_of_ok hmark]
      exact hprotect
    · have hmap := hedits.trans hedits'
      rw [hedits.addressMap] at hmap
      convert hmap using 1
      funext a
      simp only [AddressMap.change, AddressMap.editCells, RangeChange.onCell]
      split
      · rw [Option.map_map]
        rfl
      · rfl
  · obtain ⟨mmu₁, hprotect, hedits⟩ := hrange.apply_eq_ok (.protect (protFromLinux prot))
      hsize_ne hwf
    refine ⟨mmu₁, ?_, ?_⟩
    · exact hprotect
    · exact hedits

/-! ## The system call -/

section Syscall

variable {files : HostFiles} {emulator emulator' : Emulator} {length prot fd r : U64}

/-- The placement of this call. -/
def placementOf (emulator : Emulator) (address length flags fd offset : U64) :
    MMUProgram (Except Errno U64) :=
  placeMmap address (pageAlignUp length) flags offset
    (mmapIdentity emulator (hasFlag flags mapAnonymous) fd).1
    (mmapIdentity emulator (hasFlag flags mapAnonymous) fd).2

/-- A call whose placement succeeds goes on to fill the mapping. -/
theorem sysMmap_of_placed {mmu' : SoftMMU} (hlength : length ≠ 0)
    (h : placementOf emulator address length flags fd offset emulator.mmu = .ok (.ok r) mmu') :
    sysMmap files address length prot flags fd offset emulator =
      completeMmap files r (pageAlignUp length) prot flags fd offset
        (mmapIdentity emulator (hasFlag flags mapAnonymous) fd).2
        (emulator.withMMU mmu') := by
  have hplaced : onMMU (placementOf emulator address length flags fd offset) emulator =
      .ok (.ok r) (emulator.withMMU mmu') :=
    onMMU_eq_ok_iff.mpr ⟨mmu', h, rfl⟩
  unfold placementOf at hplaced
  rw [sysMmap, if_neg hlength, bind_of_ok (get_apply emulator)]
  exact bind_of_ok hplaced

/-- A call that returns has returned an error at once, or has placed its mapping. -/
theorem sysMmap_cases
    (h : sysMmap files address length prot flags fd offset emulator = .ok r emulator') :
    (IsErrno r ∧ emulator'.mmu = emulator.mmu) ∨
      length ≠ 0 ∧ ∃ base mmu',
        placementOf emulator address length flags fd offset emulator.mmu =
          .ok (.ok base) mmu' := by
  by_cases hlength : length = 0
  · rw [sysMmap, if_pos hlength] at h
    cases h
    exact Or.inl ⟨isErrno_syscallError _, rfl⟩
  · rw [sysMmap, if_neg hlength, bind_of_ok (get_apply emulator)] at h
    obtain ⟨placed, emulator₁, hplace, hrest⟩ := bind_eq_ok_iff.mp h
    obtain ⟨mmu', hplaced, rfl⟩ := onMMU_eq_ok_iff.mp hplace
    cases placed with
    | error errno =>
        have hsame := placeMmap_error hplaced
        cases hrest
        exact Or.inl ⟨isErrno_syscallError _, hsame⟩
    | ok base => exact Or.inr ⟨hlength, base, mmu', hplaced⟩

/-- The address of a placed mapping does not look like an error. -/
theorem Placed.not_isErrno {base : U64} (h : Placed mmu mmu' base size name path offset) :
    ¬IsErrno base := by
  have hend := h.range.end_lt
  have hbase := h.range.base_mod
  have hsize := h.range.size_mod
  have hpos : size.toNat ≠ 0 := fun hzero =>
    h.size_ne_zero (BitVec.eq_of_toNat_eq (by simpa using hzero))
  unfold IsErrno
  omega

/-- The cells of a placed mapping are readable. -/
theorem Placed.readable {base : U64} (h : Placed mmu mmu' base size name path offset) {a : U64}
    (ha : within base size.toNat a = true) :
    ∃ cell, mmu'.addressMap.access a protRead = .ok cell := by
  refine ⟨mmapCell base name path offset a, AddressMap.access_eq_ok_iff.mpr ⟨?_, ?_⟩⟩
  · rw [h.addressMap, AddressMap.fill_apply, if_pos ha]
  · change (protRead ||| protWrite) &&& protRead = protRead
    decide

/-- The end of an anonymous call: flags and permissions of the fresh mapping. -/
theorem completeMmap_anonymous (hanonymous : hasFlag flags mapAnonymous = true)
    (hplaced : Placed mmu emulator.mmu r size name path offset) :
    ∃ mmu', completeMmap files r size prot flags fd offset path emulator =
        .ok r (emulator.withMMU mmu') ∧
      emulator.mmu.Edits mmu' (emulator.mmu.addressMap.change (within r size.toNat)
        (Option.map fun cell =>
          { cell with
            initialized := if hasFlag flags mapUninitialized then false else cell.initialized
            prot := protFromLinux prot })) := by
  obtain ⟨mmu', hfinish, hedits⟩ := finishMmap_spec hplaced.wellFormed hplaced.range
    hplaced.size_ne_zero (fun a ha => hplaced.readable ha) prot
  refine ⟨mmu', ?_, hedits⟩
  have hfinished : onMMU (finishMmap r size prot flags) emulator =
      .ok () (emulator.withMMU mmu') := onMMU_eq_ok_iff.mpr ⟨mmu', hfinish, rfl⟩
  rw [completeMmap, if_pos hanonymous, bind_of_ok (pure_apply _ emulator)]
  exact bind_of_ok hfinished

/-- When the file cannot be read the call unmaps its range and returns the error. -/
theorem completeMmap_of_pread_error {errno : Errno}
    (hanonymous : hasFlag flags mapAnonymous = false)
    (hpread : files.pread (fd.setWidth 32) size.toNat offset = .error errno)
    (hplaced : Placed mmu emulator.mmu r size name path offset) :
    ∃ mmu', completeMmap files r size prot flags fd offset path emulator =
        .ok (syscallError errno) (emulator.withMMU mmu') ∧
      mmu'.addressMap = mmu.addressMap.erase (within r size.toNat) := by
  obtain ⟨mmu', hunmap, hedits⟩ := hplaced.range.apply_eq_ok .unmap hplaced.size_ne_zero
    hplaced.wellFormed
  refine ⟨mmu', ?_, ?_⟩
  · have hunmapped : onMMU (unmap r size) emulator = .ok () (emulator.withMMU mmu') :=
      onMMU_eq_ok_iff.mpr ⟨mmu', hunmap, rfl⟩
    have hfill : fillMmap files r size fd offset path emulator =
        .ok (.error errno) (emulator.withMMU mmu') := by
      unfold fillMmap
      rw [hpread]
      exact bind_of_ok hunmapped
    rw [completeMmap, if_neg (by simp [hanonymous])]
    exact bind_of_ok hfill
  · rw [hedits.addressMap, hplaced.addressMap]
    funext a
    simp only [AddressMap.change, AddressMap.fill_apply, AddressMap.erase_apply]
    split <;> rfl

/-- A call that has placed its mapping returns an error only when the read failed. -/
theorem pread_error_of_completeMmap
    (hplaced : Placed mmu emulator.mmu address size name path offset)
    (h : completeMmap files address size prot flags fd offset path emulator = .ok r emulator')
    (hr : IsErrno r) :
    hasFlag flags mapAnonymous = false ∧
      ∃ errno, files.pread (fd.setWidth 32) size.toNat offset = .error errno := by
  have hfinish : ∀ {emulator₁ : Emulator},
      ((do onMMU (finishMmap address size prot flags); return address) :
        EmulatorProgram U64) emulator₁ = .ok r emulator' → False := by
    intro emulator₁ hrun
    obtain ⟨_, emulator₂, -, hreturn⟩ := bind_eq_ok_iff.mp hrun
    cases hreturn
    exact hplaced.not_isErrno hr
  unfold completeMmap at h
  cases hanonymous : hasFlag flags mapAnonymous with
  | true =>
      rw [if_pos hanonymous, bind_of_ok (pure_apply _ emulator)] at h
      exact (hfinish h).elim
  | false =>
      refine ⟨rfl, ?_⟩
      rw [if_neg (by simp [hanonymous])] at h
      unfold fillMmap at h
      cases hpread : files.pread (fd.setWidth 32) size.toNat offset with
      | error errno => exact ⟨errno, rfl⟩
      | ok fileData =>
          rw [hpread] at h
          obtain ⟨filled, emulator₁, hfill, hrest⟩ := bind_eq_ok_iff.mp h
          obtain ⟨_, emulator₂, -, hregister⟩ := bind_eq_ok_iff.mp hfill
          cases hregister
          exact (hfinish hrest).elim

/-! ## The postcondition of an anonymous mmap -/

/-- An anonymous `mmap` that returns an address has put a fresh mapping on the range and
left everything else alone; without the fixed flags the range was free. -/
theorem sysMmap_anonymous (hinv : RegionInvariant emulator.mmu.regions)
    (hanonymous : hasFlag flags mapAnonymous = true)
    (h : sysMmap files address length prot flags fd offset emulator = .ok r emulator')
    (hr : ¬IsErrno r) :
    r.toNat % 4096 = 0 ∧ r.toNat + (pageAlignUp length).toNat < 2 ^ 64 ∧
      (∀ a, within r (pageAlignUp length).toNat a = true →
        ∃ cell, emulator'.mmu.addressMap a = some cell ∧ cell.byte = 0 ∧
          cell.initialized = !hasFlag flags mapUninitialized ∧
          cell.prot = protFromLinux prot) ∧
      (∀ a, within r (pageAlignUp length).toNat a = false →
        emulator'.mmu.addressMap a = emulator.mmu.addressMap a) ∧
      (hasFlag flags mapFixed = false → hasFlag flags mapFixedNoreplace = false →
        ∀ a, within r (pageAlignUp length).toNat a = true →
          emulator.mmu.addressMap a = none) ∧
      RegionInvariant emulator'.mmu.regions := by
  rcases sysMmap_cases h with ⟨herrno, -⟩ | ⟨hlength, base, mmu', hplace⟩
  · exact absurd herrno hr
  obtain ⟨hplaced, -, hfree⟩ := placeMmap_spec hinv.regionsWellFormed
    (pageAlignUp_mod length) hplace
  rw [sysMmap_of_placed hlength hplace] at h
  have hplaced' : Placed emulator.mmu (emulator.withMMU mmu').mmu base (pageAlignUp length)
      (mmapIdentity emulator (hasFlag flags mapAnonymous) fd).1
      (mmapIdentity emulator (hasFlag flags mapAnonymous) fd).2 offset := hplaced
  obtain ⟨mmu'', hcomplete, hedits⟩ := completeMmap_anonymous hanonymous hplaced'
  rw [hcomplete] at h
  cases h
  have hmap := hedits.addressMap
  rw [Emulator.withMMU_mmu, hplaced.addressMap] at hmap
  refine ⟨hplaced.range.base_mod, hplaced.range.end_lt, ?_, ?_, ?_, ?_⟩
  · intro a ha
    rw [Emulator.withMMU_mmu, hmap]
    simp only [AddressMap.change, AddressMap.fill_apply, if_pos ha, Option.map_some]
    refine ⟨_, rfl, rfl, ?_, rfl⟩
    cases hasFlag flags mapUninitialized <;> rfl
  · intro a ha
    have hnot : ¬within r (pageAlignUp length).toNat a = true := by simp [ha]
    rw [Emulator.withMMU_mmu, hmap]
    simp only [AddressMap.change, AddressMap.fill_apply, if_neg hnot]
  · intro hfixed _
    exact hfree (by simp [replacesMappings, hfixed])
  · exact hedits.regionInvariant (hplaced.regionInvariant hinv)

/-- A host without readable files: every `pread` fails with `EBADF`. -/
def unreadableFiles : HostFiles where
  readFile _ := .error .failedToOpen
  pread _ _ _ := .error ⟨9, by decide, by decide⟩

/-- One page at the start of the allocation area. -/
theorem sysMmap_anonymous_page :
    ∃ emulator', sysMmap unreadableFiles 0 0x1000 3 mapAnonymous 0 0 {} =
        .ok 0x700000000000 emulator' ∧
      ∀ a, within 0x700000000000 0x1000 a = true →
        ∃ cell, emulator'.mmu.addressMap a = some cell ∧ cell.byte = 0 := by
  have hrun : ∃ emulator', sysMmap unreadableFiles 0 0x1000 3 mapAnonymous 0 0 {} =
      .ok 0x700000000000 emulator' := by
    have hplace : ∃ mmu', placementOf {} 0 0x1000 mapAnonymous 0 0 {} =
        .ok (.ok 0x700000000000) mmu' := ⟨_, rfl⟩
    obtain ⟨mmu', hplace⟩ := hplace
    obtain ⟨hplaced, -⟩ := placeMmap_spec regionInvariant_nil.regionsWellFormed
      (pageAlignUp_mod 0x1000) hplace
    have hanonymous : hasFlag mapAnonymous mapAnonymous = true := by decide
    have hplaced' : Placed {} (Emulator.withMMU {} mmu').mmu 0x700000000000
        (pageAlignUp 0x1000) "[mmap]" none 0 := hplaced
    obtain ⟨mmu'', hcomplete, -⟩ := completeMmap_anonymous hanonymous hplaced'
    exact ⟨_, (sysMmap_of_placed (by decide) hplace).trans hcomplete⟩
  obtain ⟨emulator', h⟩ := hrun
  refine ⟨emulator', h, ?_⟩
  have hpost := sysMmap_anonymous regionInvariant_nil (by decide) h (by unfold IsErrno; decide)
  intro a ha
  obtain ⟨cell, hcell, hbyte, -⟩ := hpost.2.2.1 a ha
  exact ⟨cell, hcell, hbyte⟩

/-! ## Failing calls -/

/-- A call that replaces a mapping and then cannot read the file: `MAP_FIXED` without
`MAP_FIXED_NOREPLACE` over a range with a mapped address, and a failing `pread`. -/
structure LosesMapping (files : HostFiles) (mmu : SoftMMU)
    (address length flags fd offset : U64) : Prop where
  length_ne_zero : length ≠ 0
  file : hasFlag flags mapAnonymous = false
  replaces : replacesMappings flags = true
  fits : (pageAlignDown address).toNat + (pageAlignUp length).toNat < 2 ^ 64
  pread : ∃ errno, files.pread (fd.setWidth 32) (pageAlignUp length).toNat offset = .error errno
  mapped : ∃ a, within (pageAlignDown address) (pageAlignUp length).toNat a = true ∧
    mmu.addressMap a ≠ none

/-- Such a call returns the error and leaves its range unmapped. -/
theorem LosesMapping.sysMmap_eq
    (h : LosesMapping files emulator.mmu address length flags fd offset)
    (hwf : RegionsWellFormed emulator.mmu.regions) (prot : U64) :
    ∃ r emulator', sysMmap files address length prot flags fd offset emulator =
        .ok r emulator' ∧ IsErrno r ∧
      emulator'.mmu.addressMap = emulator.mmu.addressMap.erase
        (within (pageAlignDown address) (pageAlignUp length).toNat) := by
  obtain ⟨errno, hpread⟩ := h.pread
  obtain ⟨a, ha, -⟩ := h.mapped
  have hsize_ne : pageAlignUp length ≠ 0 := by
    intro hzero
    rw [hzero, within_iff] at ha
    simp only [BitVec.ofNat_eq_ofNat, BitVec.toNat_ofNat] at ha
    omega
  obtain ⟨mmu', hplace⟩ := placeMmap_of_replaces hwf h.replaces hsize_ne
    ⟨pageAlignDown_mod address, pageAlignUp_mod length, h.fits⟩
  obtain ⟨hplaced, -, -⟩ := placeMmap_spec hwf (pageAlignUp_mod length) hplace
  have hplaced' : Placed emulator.mmu (emulator.withMMU mmu').mmu (pageAlignDown address)
      (pageAlignUp length) (mmapIdentity emulator (hasFlag flags mapAnonymous) fd).1
      (mmapIdentity emulator (hasFlag flags mapAnonymous) fd).2 offset := hplaced
  obtain ⟨mmu'', hcomplete, hmap⟩ := completeMmap_of_pread_error h.file hpread hplaced'
  refine ⟨syscallError errno, (emulator.withMMU mmu').withMMU mmu'', ?_,
    isErrno_syscallError errno, hmap⟩
  rw [sysMmap_of_placed h.length_ne_zero hplace]
  exact hcomplete

/-- A call that returns an error has changed nothing, or has erased a range it was free to
take, or has lost a mapping. -/
theorem sysMmap_errno (hwf : RegionsWellFormed emulator.mmu.regions)
    (h : sysMmap files address length prot flags fd offset emulator = .ok r emulator')
    (hr : IsErrno r) (hkeeps : ¬LosesMapping files emulator.mmu address length flags fd offset) :
    emulator'.mmu.addressMap = emulator.mmu.addressMap := by
  rcases sysMmap_cases h with ⟨-, hsame⟩ | ⟨hlength, base, mmu', hplace⟩
  · rw [hsame]
  obtain ⟨hplaced, hbase, hfree⟩ := placeMmap_spec hwf (pageAlignUp_mod length) hplace
  have hplaced' : Placed emulator.mmu (emulator.withMMU mmu').mmu base (pageAlignUp length)
      (mmapIdentity emulator (hasFlag flags mapAnonymous) fd).1
      (mmapIdentity emulator (hasFlag flags mapAnonymous) fd).2 offset := hplaced
  rw [sysMmap_of_placed hlength hplace] at h
  obtain ⟨hfile, errno, hpread⟩ := pread_error_of_completeMmap hplaced' h hr
  obtain ⟨mmu'', hcomplete, hmap⟩ := completeMmap_of_pread_error hfile hpread hplaced'
  rw [hcomplete] at h
  cases h
  rw [Emulator.withMMU_mmu, hmap]
  have hunmapped : ∀ a, within base (pageAlignUp length).toNat a = true →
      emulator.mmu.addressMap a = none := by
    cases hreplaces : replacesMappings flags with
    | false => exact hfree hreplaces
    | true =>
        have hbase := hbase hreplaces
        subst hbase
        intro a ha
        by_contra hmapped
        exact hkeeps ⟨hlength, hfile, hreplaces, hplaced.range.end_lt, ⟨errno, hpread⟩,
          a, ha, hmapped⟩
  funext a
  rw [AddressMap.erase_apply]
  split <;> rename_i ha
  · exact (hunmapped a ha).symm
  · rfl

/-- From any reachable memory map, a failing `mmap` changes nothing exactly when it does
not lose a mapping. -/
theorem sysMmap_error_iff (hreachable : Reachable emulator.mmu) :
    (∀ r emulator', sysMmap files address length prot flags fd offset emulator =
        .ok r emulator' → IsErrno r →
      ∀ a, emulator'.mmu.addressMap a = emulator.mmu.addressMap a) ↔
      ¬LosesMapping files emulator.mmu address length flags fd offset := by
  have hwf := hreachable.regionsWellFormed
  constructor
  · intro hunchanged hloses
    obtain ⟨r, emulator', hrun, hr, hmap⟩ := hloses.sysMmap_eq hwf prot
    obtain ⟨a, ha, hmapped⟩ := hloses.mapped
    have hsame := hunchanged r emulator' hrun hr a
    rw [hmap, AddressMap.erase_apply, if_pos ha] at hsame
    exact hmapped hsame.symm
  · intro hkeeps r emulator' hrun hr a
    rw [sysMmap_errno hwf hrun hr hkeeps]

end Syscall

section FailingRead

/-- An emulator with one mapped page. -/
def onePageMapped : Emulator :=
  { mmu := { regions := [Region.ofZeroes 0x10000 0x1000 3 "data"] } }

theorem onePageMapped_reachable : onePageMapped.mmu.Reachable :=
  ⟨none, none, [.mapZeroed 0x10000 0x1000 3 "data"], rfl⟩

/-- A free page: the failing call changes nothing. -/
theorem sysMmap_error_iff_free :
    onePageMapped.mmu.Reachable ∧
      ∀ r emulator', sysMmap unreadableFiles 0x20000 0x1000 1 mapFixed 99 0 onePageMapped =
          .ok r emulator' → IsErrno r →
        ∀ a, emulator'.mmu.addressMap a = onePageMapped.mmu.addressMap a := by
  refine ⟨onePageMapped_reachable, (sysMmap_error_iff onePageMapped_reachable).mpr ?_⟩
  rintro ⟨-, -, -, -, -, a, ha, hmapped⟩
  have hbase : (pageAlignDown 0x20000).toNat = 0x20000 := by decide
  rw [within_iff, hbase] at ha
  apply hmapped
  rw [addressMap_eq_none_iff]
  intro region hregion
  have hwf := onePageMapped_reachable.regionsWellFormed.wellFormed region hregion
  rw [Bool.eq_false_iff, ne_eq, hwf.contains_iff, List.mem_singleton.mp hregion]
  change ¬(0x10000 ≤ a.toNat ∧ a.toNat < 0x10000 + 0x1000)
  omega

/-- The mapped page itself: the failing call unmaps it. -/
theorem sysMmap_loses_page :
    onePageMapped.mmu.Reachable ∧
      ¬∀ r emulator', sysMmap unreadableFiles 0x10000 0x1000 1 mapFixed 99 0 onePageMapped =
          .ok r emulator' → IsErrno r →
        ∀ a, emulator'.mmu.addressMap a = onePageMapped.mmu.addressMap a := by
  refine ⟨onePageMapped_reachable, ?_⟩
  intro hunchanged
  have hmapped : onePageMapped.mmu.addressMap 0x10000 ≠ none := by
    rw [ne_eq, addressMap_eq_none_iff]
    intro hnone
    exact absurd (hnone _ (List.mem_singleton.mpr rfl)) (by decide)
  have hin : within (pageAlignDown 0x10000) (pageAlignUp 0x1000).toNat 0x10000 = true := by
    decide
  have hloses : LosesMapping unreadableFiles onePageMapped.mmu 0x10000 0x1000 mapFixed 99 0 :=
    ⟨by decide, by decide, by decide, by decide, ⟨_, rfl⟩, 0x10000, hin, hmapped⟩
  obtain ⟨r, emulator', hrun, hr, hmap⟩ :=
    hloses.sysMmap_eq onePageMapped_reachable.regionsWellFormed 1
  have hsame := hunchanged r emulator' hrun hr 0x10000
  rw [hmap, AddressMap.erase_apply, if_pos hin] at hsame
  exact hmapped hsame.symm

end FailingRead

end LUE
