import LinuxUserspaceEmulator.LinuxSyscalls.Mmap

/-!
# MAP_FIXED_NOREPLACE

With `MAP_FIXED_NOREPLACE` the call looks at one address of each page of its range, and then
unmaps the whole range.  Regions are page-aligned, so the look misses nothing; everything that
follows, also when it raises or undoes the mapping, stays inside of the range.

Main results:

- Theorem `preserves_completeMmap`: what the call does after its placement stays in its range.
- Theorem `sysMmap_noreplace`: the call refuses exactly the ranges that are in use, and keeps
  every cell that was mapped.
-/

namespace LUE

open StateExcept SoftMMU SegmentList

/-! ## Outside of a range -/

/-- Every address outside of a range has the cell it had before. -/
structure KeepsOutside (before : AddressMap) (base size : U64) (mmu : SoftMMU) : Prop where
  wellFormed : RegionsWellFormed mmu.regions
  outside : ∀ a, within base size.toNat a = false → mmu.addressMap a = before a

section Outside

variable {before : AddressMap} {base size address : U64} {mmu mmu' : SoftMMU}

/-- An edit of a cell of the range. -/
theorem KeepsOutside.edit {cell : Cell} (h : KeepsOutside before base size mmu)
    (hin : within base size.toNat address = true)
    (hedits : mmu.Edits mmu' (mmu.addressMap.write address cell)) :
    KeepsOutside before base size mmu' where
  wellFormed := hedits.wellFormed
  outside := by
    intro a ha
    have hne : a ≠ address := by
      rintro rfl
      rw [hin] at ha
      cases ha
    rw [hedits.addressMap, AddressMap.write, Function.update_of_ne hne]
    exact h.outside a ha

/-- An `unmap` or `protect` of the range, also of one that wraps. -/
theorem preserves_rangeChange (call : RangeChange) (hbase : base.toNat % 4096 = 0)
    (hsize : size.toNat % 4096 = 0) :
    Preserves (KeepsOutside before base size) (call.apply base size) := by
  intro mmu hkeeps
  by_cases hzero : size = 0
  · rw [call.apply_of_size_eq_zero hzero]
    exact hkeeps
  by_cases hwrap : RangeChange.NotWrappedIn base size mmu.regions
  · rcases call.apply_eq_ok hzero hkeeps.wellFormed hwrap with ⟨mmu', hok, happlied⟩
    rw [hok]
    refine ⟨happlied.wellFormed, fun a ha => ?_⟩
    have hout : RangeChange.pageRange base size a = false := by
      rw [Bool.eq_false_iff, Ne, within_iff] at ha
      rw [Bool.eq_false_iff, Ne, RangeChange.pageRange, inRange_iff, RangeChange.endOf,
        pageAlignDown_of_mod hbase, pageAlignUp_of_mod hsize, BitVec.toNat_add]
      omega
    rw [finalState_ok, happlied.addressMap, AddressMap.change, hout]
    exact hkeeps.outside a ha
  · rw [call.apply_eq_error hzero hkeeps.wellFormed hwrap]
    exact hkeeps

theorem preserves_write8 (hin : within base size.toNat address = true) (value : U8) :
    Preserves (KeepsOutside before base size) (write8 address value) := by
  intro mmu hkeeps
  cases haccess : mmu.addressMap.access address protWrite with
  | ok cell =>
      rcases write8WithShadow_of_access hkeeps.wellFormed haccess (.initialized value) with
        ⟨mmu', hok, hedits⟩
      rw [write8, hok]
      exact hkeeps.edit hin hedits
  | error e =>
      rw [write8, write8WithShadow_of_error haccess]
      exact hkeeps

theorem preserves_markByte (hin : within base size.toNat address = true) (initialized : Bool) :
    Preserves (KeepsOutside before base size) (markByte address initialized) := by
  intro mmu hkeeps
  cases haccess : mmu.addressMap.access address protRead with
  | ok cell =>
      rcases markByte_of_access hkeeps.wellFormed haccess initialized with ⟨mmu', hok, hedits⟩
      rw [hok]
      exact hkeeps.edit hin hedits
  | error e =>
      rw [markByte_of_error haccess]
      exact hkeeps

/-! ## After the placement -/

variable {files : HostFiles} {prot flags fd offset : U64} {path : Option String}

/-- The flags and permissions of the range. -/
theorem preserves_finishMmap (hbase : base.toNat % 4096 = 0) (hsize : size.toNat % 4096 = 0)
    (hend : base.toNat + size.toNat ≤ 2 ^ 64) :
    Preserves (KeepsOutside before base size) (finishMmap base size prot flags) := by
  have hprotect : Preserves (KeepsOutside before base size)
      (protect base size (protFromLinux prot)) :=
    preserves_rangeChange (.protect (protFromLinux prot)) hbase hsize
  have hmark : Preserves (KeepsOutside before base size) (markInitialized base size false) := by
    rw [markInitialized_eq]
    exact Preserves.forOffsets_of_lt fun i hi => preserves_markByte (within_offset hend hi) false
  unfold finishMmap
  split
  · exact hmark.bind fun _ => hprotect
  · exact hprotect

/-- The bytes of the file, of which there are no more than the range has. -/
theorem preserves_copyToGuest {data : List U8} (hend : base.toNat + size.toNat ≤ 2 ^ 64)
    (hdata : data.length ≤ size.toNat) :
    Preserves (KeepsOutside before base size) (copyToGuest base data) :=
  Preserves.forOffsets_of_lt fun _ hi =>
    preserves_write8 (within_offset hend (Nat.lt_of_lt_of_le hi hdata)) _

/-- Everything that the call does after its placement stays in its range. -/
theorem preserves_completeMmap (hbase : base.toNat % 4096 = 0)
    (hsize : size.toNat % 4096 = 0) (hend : base.toNat + size.toNat ≤ 2 ^ 64)
    (hpread : ∀ data, files.pread (fd.setWidth 32) size.toNat offset = .ok data →
      data.length ≤ size.toNat) :
    Preserves (fun emulator => KeepsOutside before base size emulator.mmu)
      (completeMmap files base size prot flags fd offset path) := by
  have honMMU : ∀ {α : Type} {program : MMUProgram α},
      Preserves (KeepsOutside before base size) program →
      Preserves (fun emulator => KeepsOutside before base size emulator.mmu)
        (onMMU program) :=
    fun h => Preserves.onPart (fun _ _ => rfl) h
  have hfill : Preserves (fun emulator => KeepsOutside before base size emulator.mmu)
      (fillMmap files base size fd offset path) := by
    unfold fillMmap
    cases hread : files.pread (fd.setWidth 32) size.toNat offset with
    | error errno =>
        exact (honMMU (preserves_rangeChange .unmap hbase hsize)).bind fun _ =>
          Preserves.pure _
    | ok data =>
        refine (honMMU (preserves_copyToGuest hend (hpread data hread))).bind fun _ => ?_
        refine Preserves.bind (Preserves.modify fun emulator hkeeps => ?_) fun _ =>
          Preserves.pure _
        rw [registerMmapImage_mmu]
        exact hkeeps
  have hfinish := honMMU (@preserves_finishMmap before _ _ prot flags hbase hsize hend)
  unfold completeMmap
  split
  · rw [pure_bind]
    exact hfinish.bind fun _ => Preserves.pure _
  · refine hfill.bind fun filled => ?_
    cases filled with
    | error errno => exact Preserves.pure _
    | ok => exact hfinish.bind fun _ => Preserves.pure _

end Outside

/-! ## The placement -/

section Placement

variable {before : AddressMap} {base size address flags offset : U64} {mmu mmu' : SoftMMU}
  {name : String} {path : Option String}

/-- A fresh mapping of the range. -/
theorem preserves_mapMmap (hbase : base.toNat % 4096 = 0) (hsize : size.toNat % 4096 = 0)
    {prot : Protection} :
    Preserves (KeepsOutside before base size) (mapMmap base size prot name path offset) := by
  intro mmu hkeeps
  rcases mapMmap_mapsOrKeeps with ⟨region, hok, -⟩ | ⟨what, herror⟩
  · rcases mapMmap_eq_ok hok with ⟨hpushed, hfree⟩
    rw [pageAlignDown_of_mod hbase, pageAlignUp_of_mod hsize] at hpushed hfree
    rw [hok, hpushed]
    refine ⟨hfree.regionsWellFormed hkeeps.wellFormed, fun a ha => ?_⟩
    have hout : ¬within base size.toNat a = true := by simp [ha]
    rw [finalState_ok, addressMap_withMmap hkeeps.wellFormed hfree, AddressMap.fill_apply,
      if_neg hout]
    exact hkeeps.outside a ha
  · rw [herror]
    exact hkeeps

/-- A range that is in use is refused. -/
theorem placeMmap_of_mapped (hnoreplace : hasFlag flags mapFixedNoreplace = true)
    (hmapped : guestRangeIsMapped (pageAlignDown address) size mmu = true) :
    placeMmap address size flags offset name path mmu = .ok (.error .eexist) mmu := by
  rw [placeMmap, if_pos (by simp [hnoreplace]), bind_of_ok (get_apply mmu),
    if_pos (by simp [hnoreplace, hmapped])]
  rfl

/-- A range that is not in use is unmapped all the same, and then mapped: the placement gives
its base or raises, and stays in it. -/
theorem placeMmap_of_free (hwf : RegionsWellFormed mmu.regions) (hsize : size.toNat % 4096 = 0)
    (hnoreplace : hasFlag flags mapFixedNoreplace = true)
    (hfree : guestRangeIsMapped (pageAlignDown address) size mmu = false) :
    (∀ placed mmu', placeMmap address size flags offset name path mmu = .ok placed mmu' →
        placed = .ok (pageAlignDown address)) ∧
      KeepsOutside mmu.addressMap (pageAlignDown address) size
        (finalState (placeMmap address size flags offset name path mmu)) := by
  have hbase := pageAlignDown_mod address
  have hplace : placeMmap address size flags offset name path mmu =
      (do
        unmap (pageAlignDown address) size
        mapMmap (pageAlignDown address) size (protRead ||| protWrite) name path offset
        return Except.ok (pageAlignDown address) : MMUProgram (Except Errno U64)) mmu := by
    rw [placeMmap, if_pos (by simp [hnoreplace]), bind_of_ok (get_apply mmu),
      if_neg (by simp [hfree])]
  constructor
  · intro placed mmu' h
    rw [hplace] at h
    rcases bind_eq_ok_iff.mp h with ⟨_, unmapped, -, hrest⟩
    rcases bind_eq_ok_iff.mp hrest with ⟨_, mapped, -, hreturn⟩
    cases hreturn
    rfl
  · rw [hplace]
    refine ((preserves_rangeChange .unmap hbase hsize).bind fun _ => ?_) mmu
      ⟨hwf, fun _ _ => rfl⟩
    exact (preserves_mapMmap hbase hsize).bind fun _ => Preserves.pure _

end Placement

/-! ## The call -/

section Syscall

variable {files : HostFiles} {emulator : Emulator} {address length prot flags fd offset : U64}

/-- The call returns `-EEXIST` from its placement, which has not touched the map. -/
def RefusesRange (files : HostFiles) (emulator : Emulator)
    (address length prot flags fd offset : U64) : Prop :=
  placementOf emulator address length flags fd offset emulator.mmu =
      .ok (.error .eexist) emulator.mmu ∧
    sysMmap files address length prot flags fd offset emulator =
      .ok (syscallError .eexist) emulator

/-- A call whose placement refuses its range returns at once. -/
theorem refusesRange_of_mapped (hlength : length ≠ 0)
    (hnoreplace : hasFlag flags mapFixedNoreplace = true)
    (hmapped : guestRangeIsMapped (pageAlignDown address) (pageAlignUp length) emulator.mmu =
      true) : RefusesRange files emulator address length prot flags fd offset := by
  have hplace : placementOf emulator address length flags fd offset emulator.mmu =
      .ok (.error .eexist) emulator.mmu := placeMmap_of_mapped hnoreplace hmapped
  refine ⟨hplace, ?_⟩
  have hplaced : onMMU (placementOf emulator address length flags fd offset) emulator =
      .ok (.error .eexist) emulator := onMMU_eq_ok_iff.mpr ⟨_, hplace, rfl⟩
  unfold placementOf at hplaced
  rw [sysMmap, if_neg hlength, bind_of_ok (get_apply emulator), bind_of_ok hplaced]
  rfl

/-- A call whose range is not in use stays in it. -/
theorem keepsOutside_sysMmap (hwf : RegionsWellFormed emulator.mmu.regions)
    (hlength : length ≠ 0) (hnoreplace : hasFlag flags mapFixedNoreplace = true)
    (hend : (pageAlignDown address).toNat + (pageAlignUp length).toNat ≤ 2 ^ 64)
    (hpread : ∀ data, files.pread (fd.setWidth 32) (pageAlignUp length).toNat offset =
      .ok data → data.length ≤ (pageAlignUp length).toNat)
    (hfree : guestRangeIsMapped (pageAlignDown address) (pageAlignUp length) emulator.mmu =
      false) :
    KeepsOutside emulator.mmu.addressMap (pageAlignDown address) (pageAlignUp length)
      (finalState (sysMmap files address length prot flags fd offset emulator)).mmu := by
  have hbase := pageAlignDown_mod address
  have hsize := pageAlignUp_mod length
  have hplacement :
      (∀ placed mmu', placementOf emulator address length flags fd offset emulator.mmu =
          .ok placed mmu' → placed = .ok (pageAlignDown address)) ∧
        KeepsOutside emulator.mmu.addressMap (pageAlignDown address) (pageAlignUp length)
          (finalState (placementOf emulator address length flags fd offset emulator.mmu)) :=
    placeMmap_of_free hwf hsize hnoreplace hfree
  rcases hplacement with ⟨hreturned, hkeeps⟩
  cases hplace : placementOf emulator address length flags fd offset emulator.mmu with
  | ok placed mmu' =>
      rw [hplace] at hkeeps
      cases hreturned placed mmu' hplace
      rw [sysMmap_of_placed hlength hplace]
      exact preserves_completeMmap hbase hsize hend hpread (emulator.withMMU mmu') hkeeps
  | error e mmu' =>
      rw [hplace] at hkeeps
      have hraised : onMMU (placementOf emulator address length flags fd offset) emulator =
          .error e (emulator.withMMU mmu') := onMMU_eq_error_iff.mpr ⟨mmu', hplace, rfl⟩
      unfold placementOf at hraised
      rw [sysMmap, if_neg hlength, bind_of_ok (get_apply emulator), bind_of_error hraised]
      exact hkeeps

/-- With `MAP_FIXED_NOREPLACE` the call refuses exactly the ranges with a mapped address, before
it touches the map; and whatever it returns or raises, every cell that was mapped is as it was.
The host reads no more bytes than it is asked for. -/
theorem sysMmap_noreplace (hinv : RegionInvariant emulator.mmu.regions)
    (hlength : 0 < length.toNat) (hnoreplace : hasFlag flags mapFixedNoreplace = true)
    (hend : (pageAlignDown address).toNat + (pageAlignUp length).toNat ≤ 2 ^ 64)
    (hpread : ∀ data, files.pread (fd.setWidth 32) (pageAlignUp length).toNat offset =
      .ok data → data.length ≤ (pageAlignUp length).toNat) :
    (RefusesRange files emulator address length prot flags fd offset ↔
        ∃ a, within (pageAlignDown address) (pageAlignUp length).toNat a = true ∧
          emulator.mmu.addressMap a ≠ none) ∧
      ∀ a cell, emulator.mmu.addressMap a = some cell →
        (finalState (sysMmap files address length prot flags fd offset emulator)).mmu.addressMap
          a = some cell := by
  have hwf := hinv.regionsWellFormed
  have hne : length ≠ 0 := by
    rintro rfl
    simp at hlength
  have hmapped := guestRangeIsMapped_iff hwf (pageAlignDown_mod address)
    (pageAlignUp_mod length) hend
  cases hcheck : guestRangeIsMapped (pageAlignDown address) (pageAlignUp length)
      emulator.mmu with
  | true =>
      have hrefuses : RefusesRange files emulator address length prot flags fd offset :=
        refusesRange_of_mapped hne hnoreplace hcheck
      refine ⟨iff_of_true hrefuses (hmapped.mp hcheck), fun a cell hcell => ?_⟩
      rw [hrefuses.2]
      exact hcell
  | false =>
      have hnone : ¬∃ a, within (pageAlignDown address) (pageAlignUp length).toNat a = true ∧
          emulator.mmu.addressMap a ≠ none := by
        rw [← hmapped, hcheck]
        exact Bool.false_ne_true
      constructor
      · refine iff_of_false (fun hrefuses => ?_) hnone
        have hplaced := (placeMmap_of_free hwf (pageAlignUp_mod length) hnoreplace hcheck).1 _ _
          hrefuses.1
        cases hplaced
      · intro a cell hcell
        have hkeeps : KeepsOutside emulator.mmu.addressMap (pageAlignDown address)
            (pageAlignUp length)
            (finalState (sysMmap files address length prot flags fd offset emulator)).mmu :=
          keepsOutside_sysMmap hwf hne hnoreplace hend hpread hcheck
        rw [hkeeps.outside a, hcell]
        rw [Bool.eq_false_iff]
        intro hin
        exact hnone ⟨a, hin, by simp [hcell]⟩

/-- The mapped page is refused. -/
theorem sysMmap_noreplace_page :
    sysMmap unreadableFiles 0x10000 0x1000 1 mapFixedNoreplace 99 0 onePageMapped =
      .ok (syscallError .eexist) onePageMapped := by
  have hinv : RegionInvariant onePageMapped.mmu.regions :=
    regionInvariant_singleton (Region.ofZeroes_wellFormed (by decide) (by decide) (by decide) 3
      "data") (by decide)
  have hmapped : onePageMapped.mmu.addressMap 0x10000 ≠ none := by
    rw [ne_eq, addressMap_eq_none_iff]
    intro hnone
    exact absurd (hnone _ (List.mem_singleton.mpr rfl)) (by decide)
  have hrefuses : RefusesRange unreadableFiles onePageMapped 0x10000 0x1000 1
      mapFixedNoreplace 99 0 := by
    apply (sysMmap_noreplace hinv (by decide) (by decide) (by decide) ?_).1.mpr
    · exact ⟨0x10000, by decide, hmapped⟩
    · intro data hread
      cases hread
  exact hrefuses.2

end Syscall

end LUE
