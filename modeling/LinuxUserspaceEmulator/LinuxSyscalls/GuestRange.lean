import LinuxUserspaceEmulator.LinuxSyscalls.MemoryMap
import LinuxUserspaceEmulator.SoftMMU.Runs

/-!
# munmap and mprotect on arbitrary guest arguments

The guest chooses both the address and the length, and `dispatch` forwards them as they
are.  The address is rounded down and the length is rounded up on its own, so the rounded
range can end before the last requested page, and it can wrap.  This file says exactly for
which arguments and memory maps such a call is safe.

Main results:

- Theorem `RangeChange.changesAllPages_iff`: when the call reaches every requested page.
- Theorem `RangeChange.not_slicesFit_of_wraps`: a range that wraps inside a region requests a
  slice that is empty or leaves its region.
- Theorem `GuestRangeCall.safeOn_iff_of_run`: over runs whose range changes meet the
  condition, the region invariant holds and the next call is safe exactly under it.
-/

namespace LUE

open StateExcept SoftMMU SegmentList

/-! ## The property -/

/-- An address on a page that meets `[address, address + length)`. -/
def OnRequestedPage (address length a : U64) : Prop :=
  ∃ x, address.toNat ≤ x ∧ x < address.toNat + length.toNat ∧ x / 4096 = a.toNat / 4096

namespace RangeChange

variable {call : RangeChange} {mmu mmu' : SoftMMU} {address length : U64}

/-- The slices a call requests of one region. -/
def slicesRequested (address length : U64) (region : Region) : List SliceRequest :=
  if length = 0 ∨ outsideRange (pageAlignDown address) (endOf address length) region then []
  else sliceRequests (pageAlignDown address) (endOf address length) region

/-- Every requested slice lies inside its region and is non-empty. -/
def SlicesFit (mmu : SoftMMU) (address length : U64) : Prop :=
  ∀ region ∈ mmu.regions, ∀ request ∈ slicesRequested address length region,
    request.offset.toNat + request.newSize.toNat ≤ region.size.toNat ∧ 0 < request.newSize.toNat

/-- The call takes effect on every page that meets the requested range. -/
def ChangesAllPages (call : RangeChange) (mmu mmu' : SoftMMU) (address length : U64) : Prop :=
  ∀ a, OnRequestedPage address length a →
    mmu'.addressMap a = call.onCell (mmu.addressMap a)

/-- The state after a safe call. -/
structure SafeResult (call : RangeChange) (mmu mmu' : SoftMMU) (address length : U64) :
    Prop where
  effect : mmu'.addressMap = mmu.addressMap ∨ call.ChangesAllPages mmu mmu' address length
  slices : SlicesFit mmu address length
  regionInvariant : RegionInvariant mmu'.regions

/-! ## The condition -/

/-- The end of the rounded range, computed without wrapping. -/
def roundedEnd (address length : U64) : Nat :=
  (pageAlignDown address).toNat + roundUpToPage length.toNat

/-- The call would change no cell between two addresses. -/
def Unaffected (call : RangeChange) (mmu : SoftMMU) (low high : Nat) : Prop :=
  ∀ a : U64, low ≤ a.toNat → a.toNat < high →
    call.onCell (mmu.addressMap a) = mmu.addressMap a

/-- The rounded range reaches every requested page, or there is nothing to change on the
page it misses, or there is nothing to change on the pages it reaches. -/
def ReachesPages (call : RangeChange) (mmu : SoftMMU) (address length : U64) : Prop :=
  address.toNat + length.toNat ≤ roundedEnd address length ∨
    call.Unaffected mmu (roundedEnd address length) (roundedEnd address length + 4096) ∨
    call.Unaffected mmu (pageAlignDown address).toNat (roundedEnd address length)

/-- The condition on the arguments and the memory map under which a call is safe: nothing is
requested, or the rounded range ends below the end of the address space and reaches the
pages it must, or it wraps and no region holds both of its ends. -/
def RangeOk (call : RangeChange) (mmu : SoftMMU) (address length : U64) : Prop :=
  length = 0 ∨
    (roundedEnd address length < 2 ^ 64 ∧ call.ReachesPages mmu address length) ∨
    (2 ^ 64 ≤ roundedEnd address length ∧ ∀ region ∈ mmu.regions,
      ¬(region.base.toNat < roundedEnd address length - 2 ^ 64 ∧
        (pageAlignDown address).toNat < region.base.toNat + region.size.toNat))

/-! ## Ranges that do not wrap -/

/-- The addresses of a rounded range that does not wrap. -/
theorem Fits.pageRange_iff (h : Fits address length) (a : U64) :
    pageRange address length a = true ↔
      (pageAlignDown address).toNat ≤ a.toNat ∧ a.toNat < roundedEnd address length := by
  rw [pageRange, inRange_iff, h.toNat_endOf, roundedEnd]

/-- The requested pages start with the page of the address. -/
theorem onRequestedPage_iff (hlength : 0 < length.toNat) (a : U64) :
    OnRequestedPage address length a ↔
      (pageAlignDown address).toNat ≤ a.toNat ∧
        a.toNat / 4096 * 4096 < address.toNat + length.toNat := by
  rw [toNat_pageAlignDown]
  constructor
  · rintro ⟨x, hle, hlt, hpage⟩
    omega
  · rintro ⟨hle, hlt⟩
    refine ⟨max address.toNat (a.toNat / 4096 * 4096), ?_, ?_, ?_⟩ <;> omega

theorem Fits.slicesFit (h : Fits address length) (hinv : RegionInvariant mmu.regions) :
    SlicesFit mmu address length := by
  intro region hregion request hrequest
  unfold slicesRequested at hrequest
  split at hrequest <;> rename_i hskip
  · simp at hrequest
  · simp only [not_or, Bool.not_eq_true] at hskip
    have hlt := h.lt_endOf hskip.1
    have hfacts := sliceRequests_fit (hinv.wellFormed region hregion)
      (pageAlignDown_mod address) (endOf_mod address length) (Nat.le_of_lt hlt) hskip.2
      request hrequest
    exact ⟨hfacts.fits.inside, hfacts.nonempty hlt (hinv.nonempty region hregion)⟩

/-- When the rounded range does not wrap, the call leaves the map unchanged or reaches
every requested page exactly when `ReachesPages` says so. -/
theorem changesAllPages_iff (h : Fits address length) (hlength : 0 < length.toNat)
    (happlied : call.Applied address length mmu mmu') :
    (mmu'.addressMap = mmu.addressMap ∨ call.ChangesAllPages mmu mmu' address length) ↔
      call.ReachesPages mmu address length := by
  have hmap : ∀ a, mmu'.addressMap a =
      if pageRange address length a then call.onCell (mmu.addressMap a)
      else mmu.addressMap a := fun a => congrFun happlied.addressMap a
  have hend : roundedEnd address length < 2 ^ 64 := h
  have hround := le_roundUpToPage length.toNat
  have hmod := roundUpToPage_mod length.toNat
  have hdown := toNat_pageAlignDown address
  have hrounded : roundedEnd address length =
      (pageAlignDown address).toNat + roundUpToPage length.toNat := rfl
  constructor
  · rintro (hsame | hchanges)
    · right; right
      intro a hlow hhigh
      have hat := hmap a
      rw [hsame, if_pos ((h.pageRange_iff a).mpr ⟨hlow, hhigh⟩)] at hat
      exact hat.symm
    · by_cases hreach : address.toNat + length.toNat ≤ roundedEnd address length
      · exact Or.inl hreach
      · right; left
        -- the rounded range misses the last requested page
        intro a hlow hhigh
        have hat := hmap a
        rw [if_neg (by rw [h.pageRange_iff]; omega)] at hat
        have hpage : OnRequestedPage address length a := by
          rw [onRequestedPage_iff hlength]
          omega
        rw [hchanges a hpage] at hat
        exact hat
  · rintro (hreach | hlast | hnone)
    · right
      intro a hpage
      rw [onRequestedPage_iff hlength] at hpage
      rw [hmap a, if_pos (by rw [h.pageRange_iff]; omega)]
    · right
      intro a hpage
      rw [onRequestedPage_iff hlength] at hpage
      rw [hmap a]
      split <;> rename_i hin
      · rfl
      · rw [h.pageRange_iff] at hin
        exact (hlast a (by omega) (by omega)).symm
    · left
      funext a
      rw [hmap a]
      split <;> rename_i hin
      · rw [h.pageRange_iff] at hin
        exact hnone a hin.1 hin.2
      · rfl

/-! ## Ranges that wrap -/

/-- A rounded range that wraps ends at or before its base. -/
theorem toNat_endOf_of_wraps (h : 2 ^ 64 ≤ roundedEnd address length) :
    (endOf address length).toNat = roundedEnd address length - 2 ^ 64 ∧
      (endOf address length).toNat ≤ (pageAlignDown address).toNat := by
  have haddress := (pageAlignDown address).isLt
  have hlength := length.isLt
  have hlt := roundUpToPage_lt length.toNat
  have hup : (pageAlignUp length).toNat = roundUpToPage length.toNat % 2 ^ 64 := by
    rw [toNat_pageAlignUp, roundUpToPage]
    omega
  have hle : roundUpToPage length.toNat ≤ 2 ^ 64 := by
    unfold roundUpToPage
    omega
  unfold roundedEnd at h ⊢
  rw [endOf, BitVec.toNat_add, hup]
  omega

/-- A region that holds both ends of a wrapped range is asked for a slice that is empty or
leaves it. -/
theorem not_slicesFit_of_wraps {region : Region} (h : 2 ^ 64 ≤ roundedEnd address length)
    (hlength : length ≠ 0) (hregion : region ∈ mmu.regions) (hwf : region.WellFormed)
    (hmeets : outsideRange (pageAlignDown address) (endOf address length) region = false) :
    ¬SlicesFit mmu address length := by
  intro hfits
  obtain ⟨-, hle⟩ := toNat_endOf_of_wraps h
  have hre := hwf.end_lt
  have hmeets' := (outsideRange_eq_false_iff hwf).mp hmeets
  have hmax := toNat_stdMax (pageAlignDown address) region.base
  have hmin := toNat_stdMin (endOf address length) region.endAddress
  rw [hwf.toNat_endAddress] at hmin
  have hrequested := hfits region hregion
    ⟨stdMax (pageAlignDown address) region.base,
      stdMax (pageAlignDown address) region.base - region.base,
      stdMin (endOf address length) region.endAddress -
        stdMax (pageAlignDown address) region.base⟩ (by
      rw [slicesRequested, if_neg (by simp only [hlength, hmeets]; decide)]
      simp [sliceRequests])
  rw [BitVec.toNat_sub_of_le (by rw [BitVec.le_def]; omega), BitVec.toNat_sub] at hrequested
  omega

/-- A wrapped range whose ends no region holds. -/
theorem outsideRange_of_wraps (h : 2 ^ 64 ≤ roundedEnd address length)
    (hwf : RegionsWellFormed mmu.regions)
    (hout : ∀ region ∈ mmu.regions,
      ¬(region.base.toNat < roundedEnd address length - 2 ^ 64 ∧
        (pageAlignDown address).toNat < region.base.toNat + region.size.toNat)) :
    ∀ region ∈ mmu.regions,
      outsideRange (pageAlignDown address) (endOf address length) region = true := by
  intro region hregion
  have hends := toNat_endOf_of_wraps h
  have hnot := hout region hregion
  rw [outsideRange_iff (hwf.wellFormed region hregion)]
  omega

/-- A call whose range misses every region changes nothing but the order of the list. -/
theorem safe_of_outside (call : RangeChange) (hlength : length ≠ 0)
    (hinv : RegionInvariant mmu.regions)
    (hends : (endOf address length).toNat ≤ (pageAlignDown address).toNat)
    (hout : ∀ region ∈ mmu.regions,
      outsideRange (pageAlignDown address) (endOf address length) region = true) :
    ∃ mmu', call.apply address length mmu = .ok () mmu' ∧
      call.SafeResult mmu mmu' address length := by
  have hwf := hinv.regionsWellFormed
  have hnot : NotWrappedIn address length mmu.regions := fun region hregion =>
    Or.inl (hout region hregion)
  obtain ⟨mmu', hok, happlied⟩ := call.apply_eq_ok hlength hwf hnot
  refine ⟨mmu', hok, Or.inl ?_, ?_, ?_⟩
  · funext a
    rw [happlied.addressMap]
    have hin : pageRange address length a = false := by
      rw [Bool.eq_false_iff, ne_eq, pageRange, inRange_iff]
      omega
    simp [AddressMap.change, hin]
  · intro region hregion request hrequest
    rw [slicesRequested, if_pos (Or.inr (hout region hregion))] at hrequest
    simp at hrequest
  · apply happlied.wellFormed.regionInvariant
    have heq := call.apply_eq_splitRegions hlength hwf hnot
    rw [hok] at heq
    cases heq
    apply call.onRegions_nonempty
    intro piece hpiece
    obtain ⟨region, hregion, hpiece⟩ := List.mem_flatMap.mp (mem_sortRegions.mp hpiece)
    rw [splitPieces, if_pos (hout region hregion), List.mem_singleton] at hpiece
    exact hpiece ▸ hinv.nonempty region hregion

/-! ## Exactly when a call is safe -/

/-- From a memory map with the region invariant, a call is safe exactly under `RangeOk`. -/
theorem safe_iff (call : RangeChange) (hinv : RegionInvariant mmu.regions) :
    (∃ mmu', call.apply address length mmu = .ok () mmu' ∧
      call.SafeResult mmu mmu' address length) ↔ call.RangeOk mmu address length := by
  have hwf := hinv.regionsWellFormed
  by_cases hlength : length = 0
  · refine iff_of_true ⟨mmu, call.apply_of_size_eq_zero hlength, Or.inl rfl, ?_, hinv⟩
      (Or.inl hlength)
    intro region _ request hrequest
    rw [slicesRequested, if_pos (Or.inl hlength)] at hrequest
    simp at hrequest
  · have hpos : 0 < length.toNat := by
      rw [Nat.pos_iff_ne_zero]
      exact fun hzero => hlength (BitVec.eq_of_toNat_eq hzero)
    by_cases hfits : roundedEnd address length < 2 ^ 64
    · -- the range does not wrap: only the reach of the call is in question
      obtain ⟨mmu', hok, happlied⟩ := call.apply_eq_ok hlength hwf
        (Fits.notWrappedIn hfits mmu.regions)
      have hreach := changesAllPages_iff hfits hpos happlied
      constructor
      · rintro ⟨mmu'', hok', hsafe⟩
        rw [hok] at hok'
        cases hok'
        exact Or.inr (Or.inl ⟨hfits, hreach.mp hsafe.effect⟩)
      · rintro (hzero | ⟨-, hpages⟩ | ⟨hwraps, -⟩)
        · exact absurd hzero hlength
        · exact ⟨mmu', hok, hreach.mpr hpages, Fits.slicesFit hfits hinv,
            happlied.regionInvariant (Fits.lt_endOf hfits hlength) hinv⟩
        · omega
    · -- the range wraps: a region that holds both ends is cut wrongly
      have hwraps : 2 ^ 64 ≤ roundedEnd address length := by omega
      have hends := toNat_endOf_of_wraps hwraps
      constructor
      · rintro ⟨mmu', -, hsafe⟩
        refine Or.inr (Or.inr ⟨hwraps, ?_⟩)
        rintro region hregion ⟨hlow, hhigh⟩
        refine not_slicesFit_of_wraps hwraps hlength hregion (hwf.wellFormed region hregion) ?_
          hsafe.slices
        rw [outsideRange_eq_false_iff (hwf.wellFormed region hregion)]
        omega
      · rintro (hzero | ⟨hlt, -⟩ | ⟨-, hout⟩)
        · exact absurd hzero hlength
        · omega
        · exact call.safe_of_outside hlength hinv hends.2
            (outsideRange_of_wraps hwraps hwf hout)

end RangeChange

/-! ## The system calls -/

/-- A `munmap` or `mprotect` system call with the arguments of the guest. -/
inductive GuestRangeCall where
  | munmap (address length : U64)
  | mprotect (address length prot : U64)
deriving DecidableEq, Repr

namespace GuestRangeCall

/-- The case of `dispatch`. -/
def exec : GuestRangeCall → EmulatorProgram U64
  | munmap address length => sysMunmap address length
  | mprotect address length prot => sysMprotect address length prot

/-- The range change the call asks for. -/
def change : GuestRangeCall → RangeChange
  | munmap _ _ => .unmap
  | mprotect _ _ prot => .protect (protFromLinux prot)

def address : GuestRangeCall → U64
  | munmap address _ => address
  | mprotect address _ _ => address

def length : GuestRangeCall → U64
  | munmap _ length => length
  | mprotect _ length _ => length

/-- The call returns to the guest and is safe. -/
def SafeOn (call : GuestRangeCall) (emulator : Emulator) : Prop :=
  ∃ emulator', call.exec emulator = .ok 0 emulator' ∧
    call.change.SafeResult emulator.mmu emulator'.mmu call.address call.length

/-- The condition of the call on a memory map. -/
def RangeOk (call : GuestRangeCall) (mmu : SoftMMU) : Prop :=
  call.change.RangeOk mmu call.address call.length

theorem exec_eq (call : GuestRangeCall) :
    call.exec = do
      onMMU (call.change.apply call.address call.length)
      return 0 := by
  cases call <;> rfl

theorem safeOn_iff {call : GuestRangeCall} {emulator : Emulator}
    (hinv : RegionInvariant emulator.mmu.regions) :
    call.SafeOn emulator ↔ call.RangeOk emulator.mmu := by
  rw [RangeOk, ← call.change.safe_iff hinv, SafeOn, call.exec_eq]
  constructor
  · rintro ⟨emulator', hrun, hsafe⟩
    obtain ⟨u, t, hmmu, hreturn⟩ := bind_eq_ok_iff.mp hrun
    cases hreturn
    obtain ⟨mmu', hok, rfl⟩ := onMMU_eq_ok_iff.mp hmmu
    exact ⟨mmu', hok, hsafe⟩
  · rintro ⟨mmu', hok, hsafe⟩
    exact ⟨emulator.withMMU mmu', bind_of_ok (onMMU_eq_ok_iff.mpr ⟨mmu', hok, rfl⟩), hsafe⟩

end GuestRangeCall

/-! ## Whole runs -/

namespace MMUCall

/-- A call whose range change, if it is one, meets `RangeOk` where it is made. -/
def StepOk : MMUCall → SoftMMU → Prop
  | unmap base size, mmu => RangeChange.unmap.RangeOk mmu base size
  | protect base size prot, mmu => (RangeChange.protect prot).RangeOk mmu base size
  | _, _ => True

theorem regionInvariant_of_rangeOk (change : RangeChange) {base size : U64} {mmu : SoftMMU}
    (hinv : RegionInvariant mmu.regions) (hok : change.RangeOk mmu base size) :
    RegionInvariant (finalState (change.apply base size mmu)).regions := by
  obtain ⟨mmu', hrun, hsafe⟩ := (change.safe_iff hinv).mpr hok
  rw [hrun]
  exact hsafe.regionInvariant

/-- A call that meets its condition keeps the region invariant. -/
theorem regionInvariant_of_stepOk (call : MMUCall) (mmu : SoftMMU)
    (hinv : RegionInvariant mmu.regions) (hok : call.StepOk mmu) :
    RegionInvariant (finalState (call.exec mmu)).regions := by
  by_cases hadmissible : call.Admissible
  · exact (call.sound_of_admissible hadmissible).preserves mmu hinv
  · cases call with
    | unmap base size => exact regionInvariant_of_rangeOk .unmap hinv hok
    | protect base size prot =>
        exact regionInvariant_of_rangeOk (.protect prot) hinv hok
    | _ => exact absurd trivial hadmissible

end MMUCall

/-- After any run whose range changes all meet the condition, the region invariant holds,
and the next `munmap` or `mprotect` is safe exactly when it meets the condition too. -/
theorem GuestRangeCall.safeOn_iff_of_run (writeObserver readObserver : Option (List U64))
    (calls : List MMUCall)
    (hcalls : StepsMeet MMUCall.exec MMUCall.StepOk calls (.empty writeObserver readObserver))
    (emulator : Emulator)
    (hmmu : emulator.mmu = runAll MMUCall.exec calls (.empty writeObserver readObserver)) :
    RegionInvariant emulator.mmu.regions ∧
      ∀ call : GuestRangeCall, call.SafeOn emulator ↔ call.RangeOk emulator.mmu := by
  have hinv : RegionInvariant emulator.mmu.regions := by
    rw [hmmu]
    exact runAll_invariant_of_stepsMeet (P := SoftMMU.Has RegionInvariant)
      MMUCall.regionInvariant_of_stepOk hcalls regionInvariant_nil
  exact ⟨hinv, fun call => safeOn_iff hinv⟩

section FourPages

/-- An emulator with four mapped pages. -/
def fourPagesMapped : Emulator :=
  { mmu := { regions := [Region.ofZeroes 0x10000 0x4000 3 "data"] } }

theorem fourPagesMapped_regionInvariant : RegionInvariant fourPagesMapped.mmu.regions :=
  regionInvariant_singleton
    (Region.ofZeroes_wellFormed (by decide) (by decide) (by decide) 3 "data") (by decide)

/-- An unaligned address whose request stays on the rounded pages. -/
theorem GuestRangeCall.safeOn_iff_of_run_unaligned :
    (GuestRangeCall.mprotect 0x10800 0x800 1).SafeOn fourPagesMapped :=
  ((GuestRangeCall.safeOn_iff_of_run none none [.mapZeroed 0x10000 0x4000 3 "data"]
    ⟨trivial, trivial⟩ fourPagesMapped rfl).2 _).mpr
    (Or.inr (Or.inl ⟨by decide, Or.inl (by decide)⟩))

theorem fourPagesMapped_addressMap {a : U64} (hlow : 0x10000 ≤ a.toNat)
    (hhigh : a.toNat < 0x14000) : fourPagesMapped.mmu.addressMap a ≠ none := by
  have hwf := fourPagesMapped_regionInvariant.wellFormed _ (List.mem_singleton.mpr rfl)
  rw [ne_eq, addressMap_eq_none_iff]
  intro hnone
  have hnot := hnone _ (List.mem_singleton.mpr rfl)
  rw [Bool.eq_false_iff, ne_eq, hwf.contains_iff] at hnot
  exact hnot ⟨hlow, hhigh⟩

/-- A wrapping length cuts the mapping at the wrong places, and an unaligned address leaves
the last requested page mapped. -/
theorem GuestRangeCall.not_safeOn_fourPagesMapped :
    fourPagesMapped.mmu.Reachable ∧
      ¬(GuestRangeCall.munmap 0x12000 0xfffffffffffff000).SafeOn fourPagesMapped ∧
      ¬(GuestRangeCall.munmap 0x10800 0x1000).SafeOn fourPagesMapped := by
  refine ⟨⟨none, none, [.mapZeroed 0x10000 0x4000 3 "data"], rfl⟩, ?_, ?_⟩
  · rw [safeOn_iff fourPagesMapped_regionInvariant]
    rintro (hzero | ⟨hlt, -⟩ | ⟨-, hout⟩)
    · exact absurd hzero (by decide)
    · exact absurd hlt (by decide)
    · exact hout _ (List.mem_singleton.mpr rfl) (by decide)
  · have haffected : ∀ a : U64, 0x10000 ≤ a.toNat → a.toNat < 0x14000 →
        RangeChange.unmap.onCell (fourPagesMapped.mmu.addressMap a) ≠
          fourPagesMapped.mmu.addressMap a := fun a hlow hhigh =>
      (fourPagesMapped_addressMap hlow hhigh).symm
    rw [safeOn_iff fourPagesMapped_regionInvariant]
    rintro (hzero | ⟨-, hreach | hlast | hnone⟩ | ⟨hwraps, -⟩)
    · exact absurd hzero (by decide)
    · exact absurd hreach (by decide)
    · exact haffected 0x11000 (by decide) (by decide) (hlast 0x11000 (by decide) (by decide))
    · exact haffected 0x10000 (by decide) (by decide) (hnone 0x10000 (by decide) (by decide))
    · exact absurd hwraps (by decide)

end FourPages

end LUE
