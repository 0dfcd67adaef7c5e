import LinuxUserspaceEmulator.SoftMMU.Mapping
import LinuxUserspaceEmulator.SoftMMU.RangeChange
import LinuxUserspaceEmulator.SoftMMU.Writing

/-!
# Runs of the memory-management unit

Any sequence of calls that change the memory map or its contents.  Each call keeps the
region lists well formed, also when it raises; the calls whose ranges do not wrap keep the
full region invariant and never leave the host containers.

Main results:

- Theorem `MMUCall.preserves_regionsWellFormed`: every call, with any arguments, keeps the
  region list well formed.
- Theorem `MMUCall.sound_of_admissible`: every admissible call keeps the region invariant.
- Theorem `regionInvariant_of_run`: the region invariant over whole runs.
-/

namespace LUE

open SegmentList StateExcept

/-- A call of a member function of `SoftMMU` that changes the memory map or its contents. -/
inductive MMUCall where
  | mapZeroed (base size : U64) (prot : Protection) (name : String)
  | mapBytes (base size : U64) (prot : Protection) (source : List U8) (destinationOffset : U64)
      (name : String)
  | mapMmap (base size : U64) (prot : Protection) (name : String) (path : Option String)
      (fileOffset : U64)
  | allocate (size : U64) (prot : Protection) (name : String)
  | allocateMmap (size : U64) (prot : Protection) (name : String) (path : Option String)
      (fileOffset : U64)
  | unmap (base size : U64)
  | protect (base size : U64) (prot : Protection)
  | write8WithShadow (address : U64) (value : ValueWithShadow 8)
  | markInitialized (address size : U64) (initialized : Bool)
deriving DecidableEq, Repr

namespace MMUCall

/-- Run the call; the allocations use page alignment. -/
def exec : MMUCall → MMUProgram Unit
  | mapZeroed base size prot name => SoftMMU.mapZeroed base size prot name
  | mapBytes base size prot source destinationOffset name =>
      SoftMMU.mapBytes base size prot source destinationOffset name
  | mapMmap base size prot name path fileOffset =>
      SoftMMU.mapMmap base size prot name path fileOffset
  | allocate size prot name => do
      let _ ← SoftMMU.allocate size pageSize prot name
      return ()
  | allocateMmap size prot name path fileOffset => do
      let _ ← SoftMMU.allocateMmap size pageSize prot name path fileOffset
      return ()
  | unmap base size => SoftMMU.unmap base size
  | protect base size prot => SoftMMU.protect base size prot
  | write8WithShadow address value => SoftMMU.write8WithShadow address value
  | markInitialized address size initialized =>
      SoftMMU.markInitialized address size initialized

/-- The calls that add a mapping. -/
def IsMapping : MMUCall → Prop
  | mapZeroed .. | mapBytes .. | mapMmap .. | allocate .. | allocateMmap .. => True
  | unmap .. | protect .. | write8WithShadow .. | markInitialized .. => False

/-- The ranges given to `unmap` and `protect` do not wrap. -/
def Admissible : MMUCall → Prop
  | unmap base size => RangeChange.Fits base size
  | protect base size _ => RangeChange.Fits base size
  | _ => True

end MMUCall

/-- An error the emulator raises on purpose. -/
def Raise.IsEmulatorError (e : Raise) : Prop :=
  ∃ what, e = .emulatorError what

/-! ## Invariants of region lists -/

/-- What the proofs below need of an invariant: it makes the list well formed, it is kept
by adding a free region, and it is kept by edits of cells. -/
structure ListInvariant (inv : List Region → Prop) : Prop where
  regionsWellFormed : ∀ {regions}, inv regions → RegionsWellFormed regions
  push : ∀ {mmu : SoftMMU} {region}, mmu.Free region → inv mmu.regions →
    inv (mmu.withRegion region).regions
  edits : ∀ {mmu mmu' : SoftMMU} {map}, mmu.Edits mmu' map → inv mmu.regions → inv mmu'.regions

theorem listInvariant_regionsWellFormed : ListInvariant RegionsWellFormed :=
  ⟨id, fun hfree hwf => hfree.regionsWellFormed hwf, fun hedits _ => hedits.wellFormed⟩

theorem listInvariant_regionInvariant : ListInvariant RegionInvariant :=
  ⟨fun hinv => hinv.regionsWellFormed, fun hfree hinv => hfree.regionInvariant hinv,
    fun hedits hinv => hedits.regionInvariant hinv⟩

/-- An invariant of the region list as a property of the state. -/
def SoftMMU.Has (inv : List Region → Prop) (mmu : SoftMMU) : Prop :=
  inv mmu.regions

/-- From a state with the invariant the program leaves a state with it, and it raises
nothing but emulator errors. -/
structure Sound {α : Type} (inv : List Region → Prop) (program : MMUProgram α) : Prop where
  preserves : Preserves (SoftMMU.Has inv) program
  raisesOnly : RaisesOnly (SoftMMU.Has inv) Raise.IsEmulatorError program

namespace ListInvariant

variable {inv : List Region → Prop}

theorem sound_map (hinv : ListInvariant inv) {map : MMUProgram Unit}
    (hmap : ∀ mmu, SoftMMU.MapsOrKeeps map mmu) : Sound inv map := by
  constructor
  · intro mmu hmmu
    rcases hmap mmu with ⟨region, hok, hfree⟩ | ⟨what, herror⟩
    · rw [hok]
      exact hinv.push hfree hmmu
    · rw [herror]
      exact hmmu
  · intro mmu _ e mmu' h
    rcases hmap mmu with ⟨region, hok, -⟩ | ⟨what, herror⟩
    · simp [hok] at h
    · rw [herror] at h
      cases h
      exact ⟨what, rfl⟩

theorem sound_allocate (hinv : ListInvariant inv) {allocate : MMUProgram U64}
    (hallocate : ∀ mmu, RegionsWellFormed mmu.regions → SoftMMU.AllocatesOrKeeps allocate mmu) :
    Sound inv (do let _ ← allocate; return ()) := by
  have hpreserves : Preserves (SoftMMU.Has inv) allocate := by
    intro mmu hmmu
    rcases hallocate mmu (hinv.regionsWellFormed hmmu) with
      ⟨address, region, hint, hint', hok, hfree⟩ | ⟨what, hint, herror⟩
    · rw [hok]
      exact hinv.push hfree hmmu
    · rw [herror]
      exact hmmu
  have hraises : RaisesOnly (SoftMMU.Has inv) Raise.IsEmulatorError allocate := by
    intro mmu hmmu e mmu' h
    rcases hallocate mmu (hinv.regionsWellFormed hmmu) with
      ⟨address, region, hint, hint', hok, -⟩ | ⟨what, hint, herror⟩
    · simp [hok] at h
    · rw [herror] at h
      cases h
      exact ⟨what, rfl⟩
  exact ⟨hpreserves.bind fun _ => Preserves.pure _,
    hraises.bind hpreserves fun _ => RaisesOnly.pure _⟩

/-- A program that replaces a cell of an address when the access is permitted, and else
raises what the access check says. -/
theorem sound_edit (hinv : ListInvariant inv) {program : MMUProgram Unit} {address : U64}
    {requiredProt : Protection}
    (hok : ∀ mmu cell, RegionsWellFormed mmu.regions →
      mmu.addressMap.access address requiredProt = .ok cell →
      ∃ mmu' map, program mmu = .ok () mmu' ∧ mmu.Edits mmu' map)
    (herror : ∀ (mmu : SoftMMU) e, mmu.addressMap.access address requiredProt = .error e →
      program mmu = .error e mmu) : Sound inv program := by
  constructor
  · intro mmu hmmu
    cases haccess : mmu.addressMap.access address requiredProt with
    | ok cell =>
        obtain ⟨mmu', map, hrun, hedits⟩ := hok mmu cell (hinv.regionsWellFormed hmmu) haccess
        rw [hrun]
        exact hinv.edits hedits hmmu
    | error e =>
        rw [herror mmu e haccess]
        exact hmmu
  · intro mmu hmmu e mmu' h
    cases haccess : mmu.addressMap.access address requiredProt with
    | ok cell =>
        obtain ⟨mmu'', map, hrun, -⟩ := hok mmu cell (hinv.regionsWellFormed hmmu) haccess
        simp [hrun] at h
    | error e' =>
        rw [herror mmu e' haccess] at h
        cases h
        exact AddressMap.access_error haccess

theorem sound_write8WithShadow (hinv : ListInvariant inv) (address : U64)
    (value : ValueWithShadow 8) : Sound inv (SoftMMU.write8WithShadow address value) := by
  apply hinv.sound_edit
  · intro mmu cell hwf haccess
    obtain ⟨mmu', hrun, hedits⟩ := SoftMMU.write8WithShadow_of_access hwf haccess value
    exact ⟨mmu', _, hrun, hedits⟩
  · intro mmu e haccess
    exact SoftMMU.write8WithShadow_of_error haccess value

theorem sound_markInitialized (hinv : ListInvariant inv) (address size : U64)
    (initialized : Bool) : Sound inv (SoftMMU.markInitialized address size initialized) := by
  have hbyte : ∀ i : Nat,
      Sound inv (SoftMMU.markByte (address + BitVec.ofNat 64 i) initialized) := by
    intro i
    apply hinv.sound_edit
    · intro mmu cell hwf haccess
      obtain ⟨mmu', hrun, hedits⟩ := SoftMMU.markByte_of_access hwf haccess initialized
      exact ⟨mmu', _, hrun, hedits⟩
    · intro mmu e haccess
      exact SoftMMU.markByte_of_error haccess initialized
  rw [SoftMMU.markInitialized_eq]
  exact ⟨Preserves.forOffsets (fun i => (hbyte i).preserves) _,
    RaisesOnly.forOffsets (fun i => (hbyte i).raisesOnly) (fun i => (hbyte i).preserves) _⟩

end ListInvariant

/-! ## Range changes -/

/-- Any `unmap` or `protect` keeps the list well formed. -/
theorem RangeChange.preserves_regionsWellFormed (call : RangeChange) (base size : U64) :
    Preserves (SoftMMU.Has RegionsWellFormed) (call.apply base size) := by
  intro mmu hwf
  by_cases hsize : size = 0
  · rw [call.apply_of_size_eq_zero hsize]
    exact hwf
  · by_cases hwrap : NotWrappedIn base size mmu.regions
    · obtain ⟨mmu', hok, happlied⟩ := call.apply_eq_ok hsize hwf hwrap
      rw [hok]
      exact happlied.wellFormed
    · rw [call.apply_eq_error hsize hwf hwrap]
      exact hwf

/-- An `unmap` or `protect` of a range that does not wrap keeps the region invariant. -/
theorem RangeChange.sound_of_fits (call : RangeChange) {base size : U64}
    (hfits : Fits base size) : Sound RegionInvariant (call.apply base size) := by
  by_cases hsize : size = 0
  · constructor
    · intro mmu hmmu
      rw [call.apply_of_size_eq_zero hsize]
      exact hmmu
    · intro mmu _ e mmu' h
      simp [call.apply_of_size_eq_zero hsize] at h
  · have hrun : ∀ mmu : SoftMMU, RegionInvariant mmu.regions →
        ∃ mmu', call.apply base size mmu = .ok () mmu' ∧ RegionInvariant mmu'.regions := by
      intro mmu hinv
      obtain ⟨mmu', hok, happlied⟩ := call.apply_eq_ok hsize hinv.regionsWellFormed
        (hfits.notWrappedIn mmu.regions)
      exact ⟨mmu', hok, happlied.regionInvariant (hfits.lt_endOf hsize) hinv⟩
    constructor
    · intro mmu hmmu
      obtain ⟨mmu', hok, hinv⟩ := hrun mmu hmmu
      rw [hok]
      exact hinv
    · intro mmu hmmu e mmu' h
      obtain ⟨mmu'', hok, -⟩ := hrun mmu hmmu
      simp [hok] at h

namespace MMUCall

/-- Every call, with any arguments, keeps the region list well formed. -/
theorem preserves_regionsWellFormed (call : MMUCall) :
    Preserves (SoftMMU.Has RegionsWellFormed) call.exec := by
  have hinv := listInvariant_regionsWellFormed
  cases call with
  | mapZeroed => exact (hinv.sound_map fun _ => SoftMMU.mapZeroed_mapsOrKeeps).preserves
  | mapBytes => exact (hinv.sound_map fun _ => SoftMMU.mapBytes_mapsOrKeeps).preserves
  | mapMmap => exact (hinv.sound_map fun _ => SoftMMU.mapMmap_mapsOrKeeps).preserves
  | allocate =>
      exact (hinv.sound_allocate fun _ => SoftMMU.allocate_allocatesOrKeeps).preserves
  | allocateMmap =>
      exact (hinv.sound_allocate fun _ => SoftMMU.allocateMmap_allocatesOrKeeps).preserves
  | unmap base size => exact RangeChange.unmap.preserves_regionsWellFormed base size
  | protect base size prot =>
      exact (RangeChange.protect prot).preserves_regionsWellFormed base size
  | write8WithShadow address value => exact (hinv.sound_write8WithShadow address value).preserves
  | markInitialized address size initialized =>
      exact (hinv.sound_markInitialized address size initialized).preserves

/-- Every admissible call keeps the region invariant and raises only emulator errors. -/
theorem sound_of_admissible (call : MMUCall) (h : call.Admissible) :
    Sound RegionInvariant call.exec := by
  have hinv := listInvariant_regionInvariant
  cases call with
  | mapZeroed => exact hinv.sound_map fun _ => SoftMMU.mapZeroed_mapsOrKeeps
  | mapBytes => exact hinv.sound_map fun _ => SoftMMU.mapBytes_mapsOrKeeps
  | mapMmap => exact hinv.sound_map fun _ => SoftMMU.mapMmap_mapsOrKeeps
  | allocate => exact hinv.sound_allocate fun _ => SoftMMU.allocate_allocatesOrKeeps
  | allocateMmap => exact hinv.sound_allocate fun _ => SoftMMU.allocateMmap_allocatesOrKeeps
  | unmap base size => exact RangeChange.unmap.sound_of_fits h
  | protect base size prot => exact (RangeChange.protect prot).sound_of_fits h
  | write8WithShadow address value => exact hinv.sound_write8WithShadow address value
  | markInitialized address size initialized =>
      exact hinv.sound_markInitialized address size initialized

/-- A mapping or allocation call that raises leaves the region list as it was. -/
theorem regions_eq_of_error {call : MMUCall} (hmapping : call.IsMapping) {mmu mmu' : SoftMMU}
    (hwf : RegionsWellFormed mmu.regions) {e : Raise} (h : call.exec mmu = .error e mmu') :
    mmu'.regions = mmu.regions := by
  have hmap : ∀ {map : MMUProgram Unit}, SoftMMU.MapsOrKeeps map mmu →
      map mmu = .error e mmu' → mmu'.regions = mmu.regions := by
    intro map hkeeps herror
    rcases hkeeps with ⟨region, hok, -⟩ | ⟨what, hkept⟩
    · simp [hok] at herror
    · rw [hkept] at herror
      cases herror
      rfl
  have hallocate : ∀ {allocate : MMUProgram U64}, SoftMMU.AllocatesOrKeeps allocate mmu →
      (do let _ ← allocate; return () : MMUProgram Unit) mmu = .error e mmu' →
      mmu'.regions = mmu.regions := by
    intro allocate hkeeps herror
    rcases hkeeps with ⟨address, region, hint, hint', hok, -⟩ | ⟨what, hint, hkept⟩
    · rw [bind_of_ok hok] at herror
      cases herror
    · rw [bind_of_error hkept] at herror
      cases herror
      rfl
  cases call with
  | mapZeroed => exact hmap SoftMMU.mapZeroed_mapsOrKeeps h
  | mapBytes => exact hmap SoftMMU.mapBytes_mapsOrKeeps h
  | mapMmap => exact hmap SoftMMU.mapMmap_mapsOrKeeps h
  | allocate => exact hallocate (SoftMMU.allocate_allocatesOrKeeps hwf) h
  | allocateMmap => exact hallocate (SoftMMU.allocateMmap_allocatesOrKeeps hwf) h
  | unmap => exact hmapping.elim
  | protect => exact hmapping.elim
  | write8WithShadow => exact hmapping.elim
  | markInitialized => exact hmapping.elim

end MMUCall

/-! ## Whole runs -/

/-- The memory map before the first call, with observers installed or not. -/
def SoftMMU.empty (writeObserver readObserver : Option (List U64)) : SoftMMU :=
  { writeObserver := writeObserver, readObserver := readObserver }

/-- Any run of calls with any arguments keeps the region list well formed. -/
theorem regionsWellFormed_of_run (writeObserver readObserver : Option (List U64))
    (calls : List MMUCall) :
    RegionsWellFormed
      (runAll MMUCall.exec calls (.empty writeObserver readObserver)).regions :=
  runAll_invariant (P := SoftMMU.Has RegionsWellFormed)
    (fun call _ => call.preserves_regionsWellFormed) regionInvariant_nil.regionsWellFormed

/-- The memory map is one that some run of calls with any arguments reaches. -/
def SoftMMU.Reachable (mmu : SoftMMU) : Prop :=
  ∃ writeObserver readObserver calls,
    mmu.regions = (runAll MMUCall.exec calls (.empty writeObserver readObserver)).regions

theorem SoftMMU.reachable_empty : ({} : SoftMMU).Reachable :=
  ⟨none, none, [], rfl⟩

theorem SoftMMU.Reachable.regionsWellFormed {mmu : SoftMMU} (h : mmu.Reachable) :
    RegionsWellFormed mmu.regions := by
  obtain ⟨writeObserver, readObserver, calls, hregions⟩ := h
  rw [hregions]
  exact regionsWellFormed_of_run writeObserver readObserver calls

/-- After any run of admissible calls the region invariant holds.  The next call, when it
maps or allocates and raises, leaves the regions as they were, and when it is admissible
it raises nothing but emulator errors. -/
theorem regionInvariant_of_run (writeObserver readObserver : Option (List U64))
    (calls : List MMUCall) (hcalls : ∀ call ∈ calls, call.Admissible) :
    let mmu := runAll MMUCall.exec calls (.empty writeObserver readObserver)
    RegionInvariant mmu.regions ∧
      (∀ call : MMUCall, call.IsMapping → ∀ e mmu', call.exec mmu = .error e mmu' →
        mmu'.regions = mmu.regions) ∧
      (∀ call : MMUCall, call.Admissible → ∀ e mmu', call.exec mmu = .error e mmu' →
        e.IsEmulatorError) := by
  intro mmu
  have hinv : RegionInvariant mmu.regions :=
    runAll_invariant (P := SoftMMU.Has RegionInvariant)
      (fun call hcall => (call.sound_of_admissible (hcalls call hcall)).preserves)
      regionInvariant_nil
  refine ⟨hinv, ?_, ?_⟩
  · intro call hmapping e mmu' h
    exact MMUCall.regions_eq_of_error hmapping hinv.regionsWellFormed h
  · intro call hadmissible e mmu' h
    exact (call.sound_of_admissible hadmissible).raisesOnly mmu hinv e mmu' h

/-- Two pages and a bit are mapped at an unaligned base, the middle page is unmapped, and
the rest is made read-only. -/
theorem regionInvariant_of_run_cut :
    RegionInvariant (runAll MMUCall.exec
      [.mapZeroed 0x1234 0x2001 3 "data", .unmap 0x2000 0x1000, .protect 0x1000 0x3000 1]
      (.empty none none)).regions :=
  (regionInvariant_of_run none none _ (by
    simp [MMUCall.Admissible, RangeChange.Fits, roundUpToPage])).1

end LUE
