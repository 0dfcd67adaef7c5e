import LinuxUserspaceEmulator.LinuxSyscalls.Mmap
import Mathlib.Data.List.GetD

/-!
# The program break

`set_brk` extends the heap page by page as the break moves up, and never gives pages back.
The rounding of a request to pages wraps to zero in the last page of the address space; such
a request moves the break without mapping anything.

Main results:

- Theorem `heapInvariant_setBrk_iff`: one call keeps the heap exactly when its request can
  be rounded up to a page.
- Theorem `setBrk_run_iff`: in every run of such calls the heap is usable up to the break,
  and the next call keeps it so exactly when its request can be rounded up.
-/

namespace LUE

open StateExcept SoftMMU

namespace Emulator

/-! ## The heap -/

/-- The part of `load` that sets the initial break. -/
def initBrk (brkStart : U64) (emulator : Emulator) : Emulator :=
  { emulator with
    brkStart := pageAlignUp brkStart
    brk := pageAlignUp brkStart
    brkRegionEnd := pageAlignUp brkStart }

/-- An address of the heap, from its start to the end of its mapped pages. -/
def InHeap (emulator : Emulator) (a : U64) : Prop :=
  emulator.brkStart ≤ a ∧ a < emulator.brkRegionEnd

/-- The break lies in the heap, the heap ends at a page, and all of it can be read and
written. -/
structure HeapInvariant (emulator : Emulator) : Prop where
  start_le : emulator.brkStart ≤ emulator.brk
  brk_le : emulator.brk ≤ emulator.brkRegionEnd
  end_mod : emulator.brkRegionEnd.toNat % 4096 = 0
  usable : ∀ a, emulator.InHeap a → ∃ cell, emulator.mmu.addressMap a = some cell ∧
    cell.prot &&& protRead = protRead ∧ cell.prot &&& protWrite = protWrite

/-- What the calls keep besides the heap itself. -/
structure HeapState (emulator : Emulator) : Prop extends HeapInvariant emulator where
  wellFormed : RegionsWellFormed emulator.mmu.regions
  start_mod : emulator.brkStart.toNat % 4096 = 0

/-- The initial heap is empty. -/
theorem heapState_initBrk {emulator : Emulator} (brkStart : U64)
    (hwf : RegionsWellFormed emulator.mmu.regions) : HeapState (emulator.initBrk brkStart) where
  start_le := BitVec.le_refl _
  brk_le := BitVec.le_refl _
  end_mod := pageAlignUp_mod brkStart
  usable := by
    intro a ha
    have hle : (pageAlignUp brkStart).toNat ≤ a.toNat := ha.1
    have hlt : a.toNat < (pageAlignUp brkStart).toNat := ha.2
    omega
  wellFormed := hwf
  start_mod := pageAlignUp_mod brkStart

/-- A step of the rest of the emulator that leaves the heap alone: the break does not move
and no page of the heap is unmapped or protected. -/
structure KeepsHeap (emulator emulator' : Emulator) : Prop where
  brkStart : emulator'.brkStart = emulator.brkStart
  brk : emulator'.brk = emulator.brk
  brkRegionEnd : emulator'.brkRegionEnd = emulator.brkRegionEnd
  wellFormed : RegionsWellFormed emulator.mmu.regions → RegionsWellFormed emulator'.mmu.regions
  prot : ∀ a, emulator.InHeap a →
    (emulator'.mmu.addressMap a).map Cell.prot = (emulator.mmu.addressMap a).map Cell.prot

theorem HeapState.of_keepsHeap {emulator emulator' : Emulator} (h : HeapState emulator)
    (hkeeps : KeepsHeap emulator emulator') : HeapState emulator' := by
  have hin : ∀ a, emulator'.InHeap a → emulator.InHeap a := by
    intro a ha
    rwa [InHeap, hkeeps.brkStart, hkeeps.brkRegionEnd] at ha
  refine ⟨⟨?_, ?_, ?_, ?_⟩, hkeeps.wellFormed h.wellFormed, ?_⟩
  · rw [hkeeps.brkStart, hkeeps.brk]
    exact h.start_le
  · rw [hkeeps.brk, hkeeps.brkRegionEnd]
    exact h.brk_le
  · rw [hkeeps.brkRegionEnd]
    exact h.end_mod
  · intro a ha
    rcases h.usable a (hin a ha) with ⟨cell, hcell, hread, hwrite⟩
    have hprot := hkeeps.prot a (hin a ha)
    rw [hcell] at hprot
    rcases Option.map_eq_some_iff.mp hprot with ⟨cell', hcell', hsame⟩
    exact ⟨cell', hcell', by rw [hsame]; exact hread, by rw [hsame]; exact hwrite⟩
  · rw [hkeeps.brkStart]
    exact h.start_mod

/-! ## One call -/

section Call

variable {emulator emulator' : Emulator} {requested r : U64}

/-- The ways in which a call of `set_brk` can return. -/
inductive SetBrkOutcome (requested : U64) (emulator : Emulator) : U64 → Emulator → Prop where
  | query (h : requested = 0 ∨ requested < emulator.brkStart) :
      SetBrkOutcome requested emulator emulator.brk emulator
  | move (hstart : emulator.brkStart ≤ requested)
      (h : requested ≤ emulator.brkRegionEnd ∨ pageAlignUp requested ≤ emulator.brkRegionEnd) :
      SetBrkOutcome requested emulator requested { emulator with brk := requested }
  | extend {mmu : SoftMMU} (hstart : emulator.brkStart ≤ requested)
      (hend : emulator.brkRegionEnd < requested)
      (hnew : emulator.brkRegionEnd < pageAlignUp requested)
      (hmap : mapZeroed emulator.brkRegionEnd (pageAlignUp requested - emulator.brkRegionEnd)
        (protRead ||| protWrite) "[brk]" emulator.mmu = .ok () mmu) :
      SetBrkOutcome requested emulator requested
        { emulator with mmu := mmu, brk := requested, brkRegionEnd := pageAlignUp requested }

theorem setBrk_outcome (h : setBrk requested emulator = .ok r emulator') :
    SetBrkOutcome requested emulator r emulator' := by
  unfold setBrk at h
  rw [bind_of_ok (get_apply emulator)] at h
  by_cases hzero : requested = 0
  · rw [if_pos hzero] at h
    cases h
    exact .query (Or.inl hzero)
  rw [if_neg hzero] at h
  by_cases hbelow : requested < emulator.brkStart
  · rw [if_pos hbelow] at h
    cases h
    exact .query (Or.inr hbelow)
  rw [if_neg hbelow] at h
  have hstart : emulator.brkStart ≤ requested := BitVec.not_lt.mp hbelow
  by_cases hpast : requested > emulator.brkRegionEnd
  · rw [if_pos hpast] at h
    by_cases hnew : pageAlignUp requested > emulator.brkRegionEnd
    · simp only [if_pos hnew] at h
      rcases bind_eq_ok_iff.mp h with ⟨_, mapped, hmapped, hrest⟩
      rcases onMMU_eq_ok_iff.mp hmapped with ⟨mmu, hmap, rfl⟩
      cases hrest
      exact .extend hstart hpast hnew hmap
    · simp only [if_neg hnew] at h
      cases h
      exact .move hstart (Or.inr (BitVec.not_lt.mp hnew))
  · rw [if_neg hpast] at h
    cases h
    exact .move hstart (Or.inl (BitVec.not_lt.mp hpast))

/-- A request that rounds up to a page. -/
def RoundsUp (requested : U64) : Prop :=
  requested.toNat ≤ 2 ^ 64 - 4096

theorem RoundsUp.le_pageAlignUp (h : RoundsUp requested) :
    requested.toNat ≤ (pageAlignUp requested).toNat := by
  rw [toNat_pageAlignUp_of_le h]
  exact le_roundUpToPage requested.toNat

theorem pageAlignUp_eq_zero (h : ¬RoundsUp requested) : (pageAlignUp requested).toNat = 0 :=
  toNat_pageAlignUp_of_gt (by unfold RoundsUp at h; omega)

/-- Mapping zeroed pages behind the heap: the new pages were free and are zero, all others are
as before. -/
theorem mapZeroed_pages {mmu mmu' : SoftMMU} {start finish : U64} {prot : Protection}
    {name : String} (hwf : RegionsWellFormed mmu.regions) (hstart : start.toNat % 4096 = 0)
    (hfinish : finish.toNat % 4096 = 0) (hlt : start < finish)
    (hmap : mapZeroed start (finish - start) prot name mmu = .ok () mmu') :
    RegionsWellFormed mmu'.regions ∧
      (∀ a, inRange start finish a = true → mmu.addressMap a = none ∧
        ∃ cell, mmu'.addressMap a = some cell ∧ cell.byte = 0 ∧ cell.prot = prot) ∧
      ∀ a, inRange start finish a = false → mmu'.addressMap a = mmu.addressMap a := by
  rw [BitVec.lt_def] at hlt
  have hbound := finish.isLt
  have hsize : (finish - start).toNat = finish.toNat - start.toNat :=
    BitVec.toNat_sub_of_le (BitVec.le_def.mpr (by omega))
  have hround : pageAlignUp (finish - start) = finish - start :=
    pageAlignUp_of_mod (by omega)
  rcases mapZeroed_eq_ok hmap with ⟨rfl, hfree⟩
  rw [pageAlignDown_of_mod hstart, hround] at hfree ⊢
  have hcontains : ∀ a, (Region.ofZeroes start (finish - start) prot name).contains a =
      inRange start finish a := by
    intro a
    rw [Bool.eq_iff_iff, hfree.wellFormed.contains_iff, inRange_iff]
    simp only [Region.ofZeroes, hsize]
    omega
  refine ⟨hfree.regionsWellFormed hwf, fun a ha => ?_, fun a ha => ?_⟩
  · refine ⟨hfree.addressMap_eq_none hwf (by rw [hcontains, ha]),
      Region.cellAt (.ofZeroes start (finish - start) prot name) a, ?_, ?_, rfl⟩
    · rw [hfree.addressMap hwf, AddressMap.fill_apply, hcontains, if_pos ha]
    · change (List.replicate _ (0 : U8)).getD _ 0 = 0
      rw [List.getD_eq_getElem?_getD]
      exact List.getElem?_getD_replicate_default_eq _ _ _
  · rw [hfree.addressMap hwf, AddressMap.fill_apply, hcontains, if_neg (by simp [ha])]

/-- What holds of the cells of a range, and of new cells behind it, holds of the longer range. -/
theorem exists_cell_extend {mmu mmu' : SoftMMU} {start finish finish' : U64}
    {P : U64 → Cell → Prop}
    (hnew : ∀ a, inRange finish finish' a = true →
      ∃ cell, mmu'.addressMap a = some cell ∧ P a cell)
    (hkept : ∀ a, inRange finish finish' a = false → mmu'.addressMap a = mmu.addressMap a)
    (hold : ∀ a, start ≤ a ∧ a < finish → ∃ cell, mmu.addressMap a = some cell ∧ P a cell) :
    ∀ a, start ≤ a ∧ a < finish' → ∃ cell, mmu'.addressMap a = some cell ∧ P a cell := by
  rintro a ⟨hstart, hfinish⟩
  cases hin : inRange finish finish' a with
  | true => exact hnew a hin
  | false =>
      have hlt : a < finish := by
        rw [Bool.eq_false_iff, Ne, inRange_iff] at hin
        rw [BitVec.lt_def] at hfinish ⊢
        omega
      rw [hkept a hin]
      exact hold a ⟨hstart, hlt⟩

/-- The heap after an extension. -/
theorem heapState_extend {mmu : SoftMMU} (hheap : HeapState emulator)
    (hend : emulator.brkRegionEnd < requested)
    (hnew : emulator.brkRegionEnd < pageAlignUp requested)
    (hmap : mapZeroed emulator.brkRegionEnd (pageAlignUp requested - emulator.brkRegionEnd)
      (protRead ||| protWrite) "[brk]" emulator.mmu = .ok () mmu) :
    HeapState
      { emulator with mmu := mmu, brk := requested, brkRegionEnd := pageAlignUp requested } := by
  rcases mapZeroed_pages hheap.wellFormed hheap.end_mod (pageAlignUp_mod requested) hnew hmap with
    ⟨hwf, hfresh, hkept⟩
  rw [BitVec.lt_def] at hnew hend
  have hle : requested.toNat ≤ (pageAlignUp requested).toNat := by
    apply RoundsUp.le_pageAlignUp
    by_contra hwraps
    rw [pageAlignUp_eq_zero hwraps] at hnew
    omega
  refine ⟨⟨?_, BitVec.le_def.mpr hle, pageAlignUp_mod requested,
    exists_cell_extend (fun a hin => ?_) hkept hheap.usable⟩, hwf, hheap.start_mod⟩
  · have hstart := BitVec.le_def.mp hheap.start_le
    have hbrk := BitVec.le_def.mp hheap.brk_le
    rw [BitVec.le_def]
    change emulator.brkStart.toNat ≤ requested.toNat
    omega
  · rcases hfresh a hin with ⟨-, cell, hcell, -, hprot⟩
    refine ⟨cell, hcell, ?_⟩
    rw [hprot]
    decide

/-- A call whose request rounds up keeps the heap usable up to the break it returns. -/
theorem heapState_setBrk (hheap : HeapState emulator) (hrequested : RoundsUp requested)
    (h : setBrk requested emulator = .ok r emulator') :
    HeapState emulator' ∧ r = emulator'.brk := by
  cases setBrk_outcome h with
  | query => exact ⟨hheap, rfl⟩
  | move hstart hwithin =>
      have hup := hrequested.le_pageAlignUp
      have hle : requested ≤ emulator.brkRegionEnd := by
        rcases hwithin with hle | hle
        · exact hle
        · rw [BitVec.le_def] at hle ⊢
          omega
      exact ⟨⟨⟨hstart, hle, hheap.end_mod, hheap.usable⟩, hheap.wellFormed, hheap.start_mod⟩,
        rfl⟩
  | extend hstart hend hnew hmap => exact ⟨heapState_extend hheap hend hnew hmap, rfl⟩

/-- A request in the last page moves the break past the heap. -/
theorem not_heapInvariant_setBrk (hheap : HeapState emulator) (hrequested : ¬RoundsUp requested)
    (h : setBrk requested emulator = .ok r emulator') : ¬HeapInvariant emulator' := by
  have hzero := pageAlignUp_eq_zero hrequested
  have hstartMod := hheap.start_mod
  have hendMod := hheap.end_mod
  have hstartLt := emulator.brkStart.isLt
  have hendLt := emulator.brkRegionEnd.isLt
  unfold RoundsUp at hrequested
  intro hinv
  cases setBrk_outcome h with
  | query hquery =>
      rcases hquery with rfl | hlt
      · simp at hrequested
      · rw [BitVec.lt_def] at hlt
        omega
  | move hstart hwithin =>
      have hle : requested.toNat ≤ emulator.brkRegionEnd.toNat := hinv.brk_le
      omega
  | extend hstart hend hnew hmap =>
      rw [BitVec.lt_def] at hnew
      omega

theorem heapInvariant_setBrk_iff (hheap : HeapState emulator)
    (h : setBrk requested emulator = .ok r emulator') :
    HeapInvariant emulator' ∧ r = emulator'.brk ↔ RoundsUp requested := by
  constructor
  · intro hinv
    by_contra hrequested
    exact not_heapInvariant_setBrk hheap hrequested h hinv.1
  · intro hrequested
    have hstate := heapState_setBrk hheap hrequested h
    exact ⟨hstate.1.toHeapInvariant, hstate.2⟩

end Call

/-! ## Runs -/

/-- The runs from one state: calls of `set_brk` that return, and steps of the rest of the
emulator that leave the heap alone. -/
inductive BrkRun (start : Emulator) : List U64 → Emulator → Prop where
  | start : BrkRun start [] start
  | call {requests : List U64} {requested r : U64} {emulator emulator' : Emulator}
      (run : BrkRun start requests emulator)
      (h : setBrk requested emulator = .ok r emulator') :
      BrkRun start (requests ++ [requested]) emulator'
  | other {requests : List U64} {emulator emulator' : Emulator}
      (run : BrkRun start requests emulator) (h : KeepsHeap emulator emulator') :
      BrkRun start requests emulator'

/-- A run whose requests all round up keeps the heap. -/
theorem heapState_of_run {start emulator : Emulator} {requests : List U64}
    (hstart : HeapState start) (hrun : BrkRun start requests emulator)
    (hrequests : ∀ requested ∈ requests, RoundsUp requested) : HeapState emulator := by
  induction hrun with
  | start => exact hstart
  | call run h ih =>
      have hbefore := ih fun requested hmem => hrequests requested (by simp [hmem])
      exact (heapState_setBrk hbefore (hrequests _ (by simp)) h).1
  | other run h ih => exact (ih hrequests).of_keepsHeap h

/-- After every run of calls whose requests round up to a page, the heap can be read and
written up to its end and the break lies in it; and the next call that returns keeps it so,
returning the new break, exactly when its request rounds up. -/
theorem setBrk_run_iff {initial emulator : Emulator} {brkStart : U64} {requests : List U64}
    (hwf : RegionsWellFormed initial.mmu.regions)
    (hrun : BrkRun (initial.initBrk brkStart) requests emulator)
    (hrequests : ∀ requested ∈ requests, RoundsUp requested) :
    HeapInvariant emulator ∧
      ∀ requested r emulator', setBrk requested emulator = .ok r emulator' →
        (HeapInvariant emulator' ∧ r = emulator'.brk ↔ RoundsUp requested) := by
  have hheap := heapState_of_run (heapState_initBrk brkStart hwf) hrun hrequests
  exact ⟨hheap.toHeapInvariant, fun _ _ _ h => heapInvariant_setBrk_iff hheap h⟩

/-- A heap of one page, half of it used. -/
theorem setBrk_run_iff_page :
    ∃ emulator, BrkRun (({} : Emulator).initBrk 0x10000) [0x10800] emulator ∧
      HeapInvariant emulator ∧
      ∀ requested r emulator', setBrk requested emulator = .ok r emulator' →
        (HeapInvariant emulator' ∧ r = emulator'.brk ↔ RoundsUp requested) := by
  have hcall : setBrk 0x10800 (({} : Emulator).initBrk 0x10000) = .ok 0x10800 _ :=
    eq_ok_of_returned (by decide)
  have hrun : BrkRun (({} : Emulator).initBrk 0x10000) [0x10800] _ := .call .start hcall
  refine ⟨_, hrun, setBrk_run_iff regionInvariant_nil.regionsWellFormed hrun ?_⟩
  simp [RoundsUp]

/-- The last address of the address space as the break, with no memory behind it. -/
theorem setBrk_leaves_heap :
    ¬∀ requested r emulator', setBrk requested (({} : Emulator).initBrk 0x10000) =
        .ok r emulator' → HeapInvariant emulator' := by
  intro hkeeps
  have hcall : setBrk 0xffffffffffffffff (({} : Emulator).initBrk 0x10000) =
      .ok 0xffffffffffffffff _ :=
    eq_ok_of_returned (by decide)
  have hle := (hkeeps _ _ _ hcall).brk_le
  exact absurd hle (by decide)

end Emulator

end LUE
