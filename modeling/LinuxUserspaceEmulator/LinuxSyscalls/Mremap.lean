import LinuxUserspaceEmulator.LinuxSyscalls.Mmap
import LinuxUserspaceEmulator.SoftMMU.GuestBytes

/-!
# Moving and resizing a mapping

`mremap` shrinks a mapping in place, leaves it alone, or moves it: it places a fresh
mapping, copies byte by byte with the initialization flags, and unmaps the source.

Main results:

- Theorem `copyLoop_edits`: the copy loop on two ranges that do not meet.
- Theorem `moveMapping_remaps`: the moving part, for both placements.
- Theorem `sysMremap_remaps`: a call that returns an address has kept the contents and has
  touched nothing else.
-/

namespace LUE

open StateExcept SoftMMU

variable {mmu mmu' : SoftMMU} {source destination size : U64}

/-! ## The copy loop -/

/-- The edit of a cell that receives the byte and the flag of another. -/
def receive (from? : Option Cell) (cell : Cell) : Cell :=
  match from? with
  | some source => { cell with byte := source.byte, initialized := source.initialized }
  | none => cell

/-- A copy that returns has written the source cells over the destination cells. -/
theorem copyLoop_edits (count : Nat) (hwf : RegionsWellFormed mmu.regions)
    (hsource : source.toNat + count ≤ 2 ^ 64) (hdestination : destination.toNat + count ≤ 2 ^ 64)
    (hapart : RangesApart source count destination count)
    (h : forOffsets (fun i => do
        let byte ← read8WithShadow (source + BitVec.ofNat 64 i)
        write8WithShadow (destination + BitVec.ofNat 64 i) byte) count mmu = .ok () mmu') :
    RegionsWellFormed mmu'.regions ∧
      mmu'.addressMap = mmu.addressMap.editCells destination count
        fun i => receive (mmu.addressMap (source + BitVec.ofNat 64 i)) := by
  induction count generalizing mmu' with
  | zero =>
      cases h
      exact ⟨hwf, (AddressMap.editCells_zero _ _ _).symm⟩
  | succ count ih =>
      rcases forOffsets_succ_eq_ok_iff.mp h with ⟨copied, hcopied, hlast⟩
      have hbefore : RangesApart source count destination count := by
        intro a ha
        have hapart' := hapart a
        simp only [Bool.eq_false_iff, ne_eq, within_iff] at ha hapart' ⊢
        omega
      rcases ih (by omega) (by omega) hbefore hcopied with ⟨hwf₁, hmap⟩
      rcases bind_eq_ok_iff.mp hlast with ⟨value, observed, hread, hwrite⟩
      rcases read8WithShadow_eq_cell hread with ⟨cell, hcell, rfl, hobserved⟩
      have hregions : observed.regions = copied.regions := by rw [hobserved]
      have hobservedMap : observed.addressMap = copied.addressMap :=
        congrArg addressMapOf hregions
      rcases edits_of_write8WithShadow (hregions ▸ hwf₁) hwrite with ⟨old, hold, hedits⟩
      -- the source has not been written to
      have hkept : copied.addressMap (source + BitVec.ofNat 64 count) =
          mmu.addressMap (source + BitVec.ofNat 64 count) := by
        have hin : within source (count + 1) (source + BitVec.ofNat 64 count) = true :=
          (within_succ (by omega)).mpr (Or.inr rfl)
        have hout := hapart _ hin
        rw [hmap, AddressMap.editCells, if_neg]
        simp only [Bool.eq_false_iff, ne_eq, within_iff] at hout ⊢
        omega
      have hold' : mmu.addressMap (destination + BitVec.ofNat 64 count) = some old := by
        have hmapped := (AddressMap.access_eq_ok_iff.mp hold).1
        rwa [hobservedMap, hmap, AddressMap.editCells_last (by omega)] at hmapped
      have hcell' := (AddressMap.access_eq_ok_iff.mp hcell).1
      rw [hkept] at hcell'
      refine ⟨hedits.wellFormed, ?_⟩
      rw [hedits.addressMap, hobservedMap, AddressMap.editCells_succ (by omega) hold', ← hmap]
      simp [receive, hcell']

/-! ## The source range -/

/-- The source of a call that has passed the checks: aligned, mapped, and not wrapping. -/
structure SourceRange (mmu : SoftMMU) (oldAddress oldSize : U64) : Prop where
  range : RangeChange.AlignedRange oldAddress oldSize
  mapped : ∀ a, within oldAddress oldSize.toNat a = true → mmu.addressMap a ≠ none

/-- Nothing is mapped at the end of the address space, so a mapped range does not wrap. -/
theorem sourceRange_of_isMapped {oldAddress oldSize : U64}
    (hwf : RegionsWellFormed mmu.regions) (haligned : oldAddress.toNat % 4096 = 0)
    (hsize : oldSize.toNat % 4096 = 0)
    (h : mmu.isMapped oldAddress (if oldSize ≠ 0 then oldSize.toNat else 1) = true) :
    SourceRange mmu oldAddress oldSize := by
  rw [isMapped_iff] at h
  have hold := oldAddress.isLt
  by_cases hzero : oldSize = 0
  · subst hzero
    refine ⟨⟨haligned, hsize, hold⟩, fun a ha => ?_⟩
    simp [within_iff] at ha
    omega
  · rw [if_pos hzero] at h
    have hend : oldAddress.toNat + oldSize.toNat < 2 ^ 64 := by
      by_contra hwraps
      have hlast := h (2 ^ 64 - 1 - oldAddress.toNat) (by omega)
      rcases Option.ne_none_iff_exists'.mp hlast with ⟨cell, hcell⟩
      have hlt := lt_of_addressMap hwf hcell
      rw [BitVec.toNat_add, BitVec.toNat_ofNat] at hlt
      omega
    refine ⟨⟨haligned, hsize, hend⟩, fun a ha => ?_⟩
    have hoffset := eq_offset_of_within ha
    rw [within_iff] at ha
    rw [hoffset]
    exact h (a.toNat - oldAddress.toNat) (by omega)

/-! ## What a call does to the flat map -/

/-- The contents of the old range are at the new address, up to the smaller size; the rest of
the new range is zero; the rest of the old range is gone; and nothing else has changed. -/
structure Remapped (map map' : AddressMap) (oldAddress newAddress : U64)
    (oldSize newSize : Nat) : Prop where
  fits : newAddress.toNat + newSize ≤ 2 ^ 64
  moved : ∀ i, i < min oldSize newSize → ∃ cell cell',
    map (oldAddress + BitVec.ofNat 64 i) = some cell ∧
      map' (newAddress + BitVec.ofNat 64 i) = some cell' ∧
      cell'.byte = cell.byte ∧ cell'.initialized = cell.initialized
  fresh : ∀ i, min oldSize newSize ≤ i → i < newSize → ∃ cell',
    map' (newAddress + BitVec.ofNat 64 i) = some cell' ∧
      cell'.byte = 0 ∧ cell'.initialized = true
  dropped : ∀ a, within oldAddress oldSize a = true → within newAddress newSize a = false →
    map' a = none
  kept : ∀ a, within oldAddress oldSize a = false → within newAddress newSize a = false →
    map' a = map a

section Placed

variable {oldAddress oldSize newSize : U64} {prot : Protection} {name : String}

/-- The cell that the moved mapping has before the copy. -/
def freshCell (base : U64) (prot : Protection) (name : String) (a : U64) : Cell :=
  { mmapCell base name none 0 a with prot := prot }

/-- The state in which a fresh mapping has been placed at the destination, and what was there
before is gone. -/
structure DestinationPlaced (map : AddressMap) (mmu : SoftMMU) (destination newSize : U64)
    (prot : Protection) (name : String) : Prop where
  range : RangeChange.AlignedRange destination newSize
  wellFormed : RegionsWellFormed mmu.regions
  addressMap : mmu.addressMap =
    map.fill (within destination newSize.toNat) (freshCell destination prot name)

/-- A mapping of a range that has just been unmapped is placed there. -/
theorem destinationPlaced_of_mapMmap {newAddress : U64} {cleared placed : SoftMMU}
    (hwf : RegionsWellFormed mmu.regions) (hsize : newSize.toNat % 4096 = 0)
    (hclear : unmap (pageAlignDown newAddress) newSize mmu = .ok () cleared)
    (hmap : mapMmap (pageAlignDown newAddress) newSize prot name none 0 cleared =
      .ok () placed) :
    newSize ≠ 0 ∧
      cleared.addressMap =
        mmu.addressMap.erase (within (pageAlignDown newAddress) newSize.toNat) ∧
      DestinationPlaced mmu.addressMap placed (pageAlignDown newAddress) newSize prot name := by
  rcases mapMmap_eq_ok hmap with ⟨rfl, hfree⟩
  rw [pageAlignDown_of_mod (pageAlignDown_mod newAddress), pageAlignUp_of_mod hsize] at hfree ⊢
  rcases alignedRange_of_free hfree with ⟨hrange, hne⟩
  rcases hrange.apply_eq_ok .unmap hne hwf with ⟨cleared', hok, hedits⟩
  rw [RangeChange.apply, hclear] at hok
  cases hok
  refine ⟨hne, hedits.addressMap, hrange, hfree.regionsWellFormed hedits.wellFormed, ?_⟩
  rw [addressMap_withMmap hedits.wellFormed hfree, hedits.addressMap]
  funext a
  simp only [AddressMap.fill_apply, AddressMap.change]
  split <;> rfl

/-- The allocator places its mapping on free addresses. -/
theorem destinationPlaced_of_allocateMmap {placed : SoftMMU}
    (hwf : RegionsWellFormed mmu.regions) (hsize : newSize.toNat % 4096 = 0)
    (hplace : allocateMmap newSize pageSize prot name none 0 mmu = .ok destination placed) :
    newSize ≠ 0 ∧
      (∀ a, within destination newSize.toNat a = true → mmu.addressMap a = none) ∧
      DestinationPlaced mmu.addressMap placed destination newSize prot name := by
  rcases allocateMmap_eq_ok hplace with ⟨-, hint, hint', rfl, hfree⟩
  rw [pageAlignUp_of_mod hsize] at hfree ⊢
  have hwf' : RegionsWellFormed (mmu.withHint hint).regions := hwf
  have hnone : ∀ a, within destination newSize.toNat a = true →
      (mmu.withHint hint).addressMap a = none := fun a ha => free_of_within hfree hwf' ha
  rcases alignedRange_of_free hfree with ⟨hrange, hne⟩
  exact ⟨hne, hnone, hrange, hfree.regionsWellFormed hwf', addressMap_withMmap hwf' hfree⟩

/-- Copying to a placed destination and unmapping the source moves the contents. -/
theorem remapped_of_copy {copied : SoftMMU}
    (hold : SourceRange mmu oldAddress oldSize)
    (hplaced : DestinationPlaced mmu.addressMap mmu' destination newSize prot name)
    (hapart : RangesApart oldAddress oldSize.toNat destination newSize.toNat)
    (hcopy : copyWithShadow oldAddress destination (stdMin oldSize newSize) mmu' =
      .ok () copied) :
    ∃ mmu'', unmap oldAddress oldSize copied = .ok () mmu'' ∧
      Remapped mmu.addressMap mmu''.addressMap oldAddress destination oldSize.toNat
        newSize.toNat := by
  have hmin : (stdMin oldSize newSize).toNat = min oldSize.toNat newSize.toNat :=
    toNat_stdMin oldSize newSize
  have holdEnd := hold.range.end_lt
  have hnewEnd := hplaced.range.end_lt
  have hcopyApart : RangesApart oldAddress (stdMin oldSize newSize).toNat destination
      (stdMin oldSize newSize).toNat := by
    intro a ha
    have ha' := hapart a
    simp only [Bool.eq_false_iff, ne_eq, within_iff] at ha ha' ⊢
    omega
  rcases copyLoop_edits _ hplaced.wellFormed (by omega) (by omega) hcopyApart hcopy with
    ⟨hwf, hmap⟩
  -- unmapping the source, which does nothing for an empty one
  have hunmap : ∃ mmu'', unmap oldAddress oldSize copied = .ok () mmu'' ∧
      mmu''.addressMap = copied.addressMap.erase (within oldAddress oldSize.toNat) := by
    by_cases hzero : oldSize = 0
    · refine ⟨copied, RangeChange.apply_of_size_eq_zero .unmap hzero, ?_⟩
      funext a
      have hout : ¬within oldAddress oldSize.toNat a = true := by
        simp [within_iff, hzero]
      rw [AddressMap.erase_apply, if_neg hout]
    · rcases hold.range.apply_eq_ok .unmap hzero hwf with ⟨mmu'', hok, hedits⟩
      exact ⟨mmu'', hok, hedits.addressMap⟩
  rcases hunmap with ⟨mmu'', hok, herase⟩
  refine ⟨mmu'', hok, ?_⟩
  have hold_of_new : ∀ a, within destination newSize.toNat a = true →
      within oldAddress oldSize.toNat a = false := by
    intro a ha
    cases hin : within oldAddress oldSize.toNat a with
    | false => rfl
    | true => rw [hapart a hin] at ha; cases ha
  have hsource : ∀ i, i < min oldSize.toNat newSize.toNat →
      mmu'.addressMap (oldAddress + BitVec.ofNat 64 i) =
        mmu.addressMap (oldAddress + BitVec.ofNat 64 i) := by
    intro i hi
    have hout := hapart _ (within_offset (by omega) (by omega : i < oldSize.toNat))
    rw [hplaced.addressMap, AddressMap.fill_apply, if_neg (by simp [hout])]
  refine ⟨by omega, ?_, ?_, ?_, ?_⟩
  · intro i hi
    have hnew : within destination newSize.toNat (destination + BitVec.ofNat 64 i) = true :=
      within_offset (by omega) (by omega)
    have hcopied : i < (stdMin oldSize newSize).toNat := by omega
    have hmapped := hold.mapped _ (within_offset (by omega) (by omega : i < oldSize.toNat))
    rcases Option.ne_none_iff_exists'.mp hmapped with ⟨cell, hcell⟩
    refine ⟨cell, receive (some cell) (freshCell destination prot name
      (destination + BitVec.ofNat 64 i)), hcell, ?_, rfl, rfl⟩
    have hfresh : mmu'.addressMap (destination + BitVec.ofNat 64 i) =
        some (freshCell destination prot name (destination + BitVec.ofNat 64 i)) := by
      rw [hplaced.addressMap, AddressMap.fill_apply, if_pos hnew]
    rw [herase, AddressMap.erase_apply, if_neg (by simp [hold_of_new _ hnew]), hmap,
      AddressMap.editCells_offset (by omega) hcopied, hfresh, hsource i hi, hcell]
    rfl
  · intro i hmin' hi
    have hnew : within destination newSize.toNat (destination + BitVec.ofNat 64 i) = true :=
      within_offset (by omega) hi
    have hout : ¬within destination (stdMin oldSize newSize).toNat
        (destination + BitVec.ofNat 64 i) = true := by
      rw [within_iff, BitVec.toNat_add, BitVec.toNat_ofNat]
      omega
    refine ⟨freshCell destination prot name (destination + BitVec.ofNat 64 i), ?_, rfl, rfl⟩
    rw [herase, AddressMap.erase_apply, if_neg (by simp [hold_of_new _ hnew]), hmap,
      AddressMap.editCells, if_neg hout, hplaced.addressMap, AddressMap.fill_apply,
      if_pos hnew]
  · intro a ha _
    rw [herase, AddressMap.erase_apply, if_pos ha]
  · intro a hnotold hnotnew
    have hout : ¬within destination (stdMin oldSize newSize).toNat a = true := by
      simp only [Bool.eq_false_iff, ne_eq, within_iff] at hnotnew ⊢
      omega
    rw [herase, AddressMap.erase_apply, if_neg (by simp [hnotold]), hmap,
      AddressMap.editCells, if_neg hout, hplaced.addressMap, AddressMap.fill_apply,
      if_neg (by simp [hnotnew])]

/-- The moving part, once its destination is known not to meet the source. -/
theorem moveMapping_remaps {flags newAddress r : U64} (hwf : RegionsWellFormed mmu.regions)
    (hold : SourceRange mmu oldAddress oldSize) (hsize : newSize.toNat % 4096 = 0)
    (hunmaps : hasFlag flags mremapDontunmap = false)
    (hapart : hasFlag flags mremapFixed = true →
      (pageAlignDown newAddress).toNat + newSize.toNat < 2 ^ 64 → newSize ≠ 0 →
        RangesApart oldAddress oldSize.toNat (pageAlignDown newAddress) newSize.toNat)
    (h : moveMapping oldAddress oldSize newAddress newSize flags mmu = .ok (.ok r) mmu') :
    Remapped mmu.addressMap mmu'.addressMap oldAddress r oldSize.toNat newSize.toNat := by
  -- the end of both placements
  have hfinish : ∀ {placed : SoftMMU} {r' : U64} {prot : Protection} {name : String},
      DestinationPlaced mmu.addressMap placed r' newSize prot name →
      RangesApart oldAddress oldSize.toNat r' newSize.toNat →
      (do
        copyWithShadow oldAddress r' (stdMin oldSize newSize)
        unmap oldAddress oldSize
        return .ok r' : MMUProgram (Except Errno U64)) placed = .ok (.ok r) mmu' →
      Remapped mmu.addressMap mmu'.addressMap oldAddress r oldSize.toNat newSize.toNat := by
    intro placed r' prot name hplaced hapart' hrest
    rcases bind_eq_ok_iff.mp hrest with ⟨_, copied, hcopy, hunmap⟩
    rcases remapped_of_copy hold hplaced hapart' hcopy with ⟨mmu'', hok, hremapped⟩
    rw [bind_of_ok hok] at hunmap
    cases hunmap
    exact hremapped
  unfold moveMapping at h
  simp only [hunmaps, Bool.not_false, if_true] at h
  cases hfixed : hasFlag flags mremapFixed with
  | true =>
      simp only [hfixed, if_true] at h
      rcases bind_eq_ok_iff.mp h with ⟨_, cleared, hclear, hrest⟩
      rw [bind_of_ok (get_apply cleared)] at hrest
      cases hfound : cleared.findRegion oldAddress with
      | none =>
          simp only [hfound] at hrest
          cases hrest
      | some region =>
          simp only [hfound] at hrest
          rcases bind_eq_ok_iff.mp hrest with ⟨_, placed, hmap, hcopies⟩
          rw [bind_of_ok (pure_apply (pageAlignDown newAddress) placed)] at hcopies
          rcases destinationPlaced_of_mapMmap hwf hsize hclear hmap with ⟨hne, -, hplaced⟩
          exact hfinish hplaced (hapart hfixed hplaced.range.end_lt hne) hcopies
  | false =>
      simp only [hfixed, Bool.false_eq_true, if_false] at h
      rw [bind_of_ok (get_apply mmu)] at h
      cases hfound : mmu.findRegion oldAddress with
      | none =>
          simp only [hfound] at h
          cases h
      | some region =>
          simp only [hfound] at h
          rcases bind_eq_ok_iff.mp h with ⟨r', placed, hplace, hcopies⟩
          rcases destinationPlaced_of_allocateMmap hwf hsize hplace with ⟨-, hnone, hplaced⟩
          refine hfinish hplaced (fun a ha => ?_) hcopies
          rw [Bool.eq_false_iff]
          exact fun hnew => hold.mapped a ha (hnone a hnew)

end Placed

/-! ## The call -/

section Call

variable {oldAddress oldLength newLength flags newAddress r : U64}

/-- The address check of the call. -/
theorem mod_of_and_eq_zero {address : U64} (h : address &&& (pageSize - 1) = 0) :
    address.toNat % 4096 = 0 := by
  have hmask : (pageSize - 1).toNat = 2 ^ 12 - 1 := by decide
  have hzero : (address &&& (pageSize - 1)).toNat = 0 := by rw [h]; rfl
  rw [BitVec.toNat_and, hmask, Nat.and_two_pow_sub_one_eq_mod] at hzero
  exact hzero

/-- The overlap check of the call, when neither range wraps. -/
theorem rangesApart_of_check {oldSize destination newSize : U64}
    (hold : oldAddress.toNat + oldSize.toNat < 2 ^ 64)
    (hnew : destination.toNat + newSize.toNat < 2 ^ 64)
    (h : ¬(destination < oldAddress + oldSize ∧ destination + newSize > oldAddress)) :
    RangesApart oldAddress oldSize.toNat destination newSize.toNat := by
  intro a ha
  rw [gt_iff_lt, BitVec.lt_def, BitVec.lt_def, BitVec.toNat_add, BitVec.toNat_add,
    Nat.mod_eq_of_lt hold, Nat.mod_eq_of_lt hnew] at h
  simp only [Bool.eq_false_iff, ne_eq, within_iff] at ha ⊢
  omega

/-- Shrinking in place unmaps the end of the range. -/
theorem remapped_of_shrink {oldSize newSize : U64} (hwf : RegionsWellFormed mmu.regions)
    (hold : SourceRange mmu oldAddress oldSize) (hsize : newSize.toNat % 4096 = 0)
    (hlt : newSize < oldSize)
    (h : unmap (oldAddress + newSize) (oldSize - newSize) mmu = .ok () mmu') :
    Remapped mmu.addressMap mmu'.addressMap oldAddress oldAddress oldSize.toNat
      newSize.toNat := by
  have hend := hold.range.end_lt
  have hbase := hold.range.base_mod
  have hsize' := hold.range.size_mod
  rw [BitVec.lt_def] at hlt
  have hstart : (oldAddress + newSize).toNat = oldAddress.toNat + newSize.toNat := by
    rw [BitVec.toNat_add, Nat.mod_eq_of_lt (by omega)]
  have hrest : (oldSize - newSize).toNat = oldSize.toNat - newSize.toNat :=
    BitVec.toNat_sub_of_le (BitVec.le_def.mpr (by omega))
  have hrange : RangeChange.AlignedRange (oldAddress + newSize) (oldSize - newSize) :=
    ⟨by omega, by omega, by omega⟩
  have hne : oldSize - newSize ≠ 0 := by
    intro hzero
    rw [hzero] at hrest
    simp at hrest
    omega
  rcases hrange.apply_eq_ok .unmap hne hwf with ⟨mmu₁, hok, hedits⟩
  rw [RangeChange.apply, h] at hok
  cases hok
  have hmap : ∀ a, mmu'.addressMap a =
      if within (oldAddress + newSize) (oldSize - newSize).toNat a then none
      else mmu.addressMap a := fun a => by
    rw [hedits.addressMap]
    rfl
  refine ⟨by omega, ?_, fun i hi hi' => by omega, ?_, ?_⟩
  · intro i hi
    have hmapped := hold.mapped _ (within_offset (by omega) (by omega : i < oldSize.toNat))
    rcases Option.ne_none_iff_exists'.mp hmapped with ⟨cell, hcell⟩
    refine ⟨cell, cell, hcell, ?_, rfl, rfl⟩
    rw [hmap, if_neg, hcell]
    rw [within_iff, hstart, BitVec.toNat_add, BitVec.toNat_ofNat]
    omega
  · intro a ha hnew
    rw [hmap, if_pos]
    simp only [Bool.eq_false_iff, ne_eq, within_iff] at ha hnew ⊢
    omega
  · intro a hnotold _
    rw [hmap, if_neg]
    simp only [Bool.eq_false_iff, ne_eq, within_iff] at hnotold ⊢
    omega

/-- Keeping the size in place changes nothing. -/
theorem remapped_refl {size : U64} (hold : SourceRange mmu oldAddress size) :
    Remapped mmu.addressMap mmu.addressMap oldAddress oldAddress size.toNat size.toNat := by
  have hend := hold.range.end_lt
  refine ⟨by omega, fun i hi => ?_, fun i hi hi' => by omega, ?_, fun _ _ _ => rfl⟩
  · have hmapped := hold.mapped _ (within_offset (by omega) (by omega : i < size.toNat))
    rcases Option.ne_none_iff_exists'.mp hmapped with ⟨cell, hcell⟩
    exact ⟨cell, cell, hcell, hcell, rfl, rfl⟩
  · intro a ha hnew
    rw [ha] at hnew
    cases hnew

/-- A call that returns an address has remapped the rounded ranges. -/
theorem mremap_remaps (hwf : RegionsWellFormed mmu.regions)
    (hunmaps : hasFlag flags mremapDontunmap = false)
    (h : mremap oldAddress oldLength newLength flags newAddress mmu = .ok (.ok r) mmu') :
    Remapped mmu.addressMap mmu'.addressMap oldAddress r (pageAlignUp oldLength).toNat
      (pageAlignUp newLength).toNat := by
  unfold mremap at h
  rw [bind_of_ok (get_apply mmu)] at h
  generalize hnewSize : pageAlignUp newLength = newSize at h ⊢
  generalize holdSize : pageAlignUp oldLength = oldSize at h ⊢
  have hnewMod : newSize.toNat % 4096 = 0 := hnewSize ▸ pageAlignUp_mod newLength
  have holdMod : oldSize.toNat % 4096 = 0 := holdSize ▸ pageAlignUp_mod oldLength
  simp only [hunmaps, Bool.not_false, Bool.true_and] at h
  split at h
  · cases h
  split at h
  · cases h
  rename_i haligned
  have hmapped : mmu.isMapped oldAddress (if oldSize ≠ 0 then oldSize.toNat else 1) = true := by
    by_contra hunmapped
    rw [Bool.not_eq_true] at hunmapped
    rw [hunmapped] at h
    cases h
  have hold : SourceRange mmu oldAddress oldSize :=
    sourceRange_of_isMapped hwf (mod_of_and_eq_zero (not_not.mp haligned)) holdMod hmapped
  rw [hmapped] at h
  simp only [Bool.not_true, Bool.false_eq_true, if_false] at h
  split at h
  · rename_i hshrink
    rcases bind_eq_ok_iff.mp h with ⟨_, shrunk, hunmap, hreturn⟩
    cases hreturn
    exact remapped_of_shrink hwf hold hnewMod (by simp at hshrink; exact hshrink.1) hunmap
  split at h
  · rename_i hsame
    cases h
    have heq : newSize = oldSize := by simp at hsame; exact hsame.1
    subst heq
    exact remapped_refl hold
  split at h
  · split at h
    · cases h
    · rename_i hoverlap
      refine moveMapping_remaps hwf hold hnewMod hunmaps (fun _ hnewEnd _ => ?_) h
      exact rangesApart_of_check hold.range.end_lt hnewEnd (by simpa using hoverlap)
  · rename_i hnotfixed
    split at h
    · exact moveMapping_remaps hwf hold hnewMod hunmaps (fun hfixed => absurd hfixed hnotfixed) h
    · cases h

/-- `SYS_mremap` without `MREMAP_DONTUNMAP` that returns an address keeps the contents up to
the smaller rounded size, zeroes the rest of the new range, drops the rest of the old range,
and touches nothing else. -/
theorem sysMremap_remaps {emulator emulator' : Emulator}
    (hinv : RegionInvariant emulator.mmu.regions)
    (hunmaps : hasFlag flags mremapDontunmap = false)
    (h : sysMremap oldAddress oldLength newLength flags newAddress emulator = .ok r emulator')
    (hr : ¬IsErrno r) :
    Remapped emulator.mmu.addressMap emulator'.mmu.addressMap oldAddress r
      (pageAlignUp oldLength).toNat (pageAlignUp newLength).toNat := by
  rcases bind_eq_ok_iff.mp h with ⟨result, emulator₁, hcall, hreturn⟩
  rcases onMMU_eq_ok_iff.mp hcall with ⟨mmu₁, hremap, rfl⟩
  cases result with
  | ok address =>
      cases hreturn
      exact mremap_remaps hinv.regionsWellFormed hunmaps hremap
  | error errno =>
      cases hreturn
      exact absurd (isErrno_syscallError errno) hr

/-- Two pages. -/
def twoPagesMapped : Emulator :=
  { mmu := { regions := [Region.ofZeroes 0x10000 0x2000 3 "data"] } }

/-- Two pages shrink to one. -/
theorem sysMremap_remaps_shrink :
    ∃ emulator', sysMremap 0x10000 0x2000 0x1000 0 0 twoPagesMapped = .ok 0x10000 emulator' ∧
      Remapped twoPagesMapped.mmu.addressMap emulator'.mmu.addressMap 0x10000 0x10000
        (pageAlignUp 0x2000).toNat (pageAlignUp 0x1000).toNat := by
  have hinv : RegionInvariant twoPagesMapped.mmu.regions :=
    regionInvariant_singleton (Region.ofZeroes_wellFormed (by decide) (by decide) (by decide) 3
      "data") (by decide)
  have hrun : sysMremap 0x10000 0x2000 0x1000 0 0 twoPagesMapped = .ok 0x10000 _ :=
    eq_ok_of_returned (by decide +kernel)
  exact ⟨_, hrun, sysMremap_remaps hinv (by decide) hrun (by unfold IsErrno; decide)⟩

end Call

end LUE
