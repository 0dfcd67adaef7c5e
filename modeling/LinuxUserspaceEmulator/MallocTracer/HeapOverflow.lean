import LinuxUserspaceEmulator.MallocTracer.UseAfterFree

/-!
# Heap-overflow reports

A write is reported as a heap overflow when its address lies in the red zone after some live
allocation.  The test does not ask whether the address belongs to another allocation, so a
write into a block that begins in the red zone of the block before it is reported as well.

Main results:

- Theorem `overflowedAllocation_eq_none_iff`: what the search for a red zone finds.
- Theorem `onMemoryWrite_heapOverflows_iff`: a write is reported exactly when it is diagnosed
  and lies in a red zone.
- Theorem `heapOverflow_of_adjacent`: the write into a block right behind another one is
  reported.
-/

namespace LUE

open TracedEmulator

namespace MallocTracer

variable {tracer : MallocTracer} {emulator : Emulator} {address : U64}

/-! ## Red zones -/

/-- The address lies in the red zone after a live allocation. -/
def InRedZone (tracer : MallocTracer) (address : U64) : Prop :=
  ∃ ptr size, HasBlock tracer.allocations ptr size ∧
    ptr + size ≤ address ∧ address < ptr + size + redzoneSize

/-- The search for a red zone finds none exactly when the address lies in none. -/
theorem overflowedAllocation_eq_none_iff :
    tracer.overflowedAllocation address = none ↔ ¬tracer.InRedZone address := by
  rw [overflowedAllocation, List.find?_eq_none]
  simp only [Bool.and_eq_true, decide_eq_true_eq]
  constructor
  · rintro hnone ⟨ptr, size, ⟨record, hmem, rfl⟩, hle, hlt⟩
    exact hnone _ hmem ⟨hle, hlt⟩
  · rintro hnone ⟨ptr, record⟩ hmem ⟨hle, hlt⟩
    exact hnone ⟨ptr, record.size, ⟨record, hmem, rfl⟩, hle, hlt⟩

/-- Remembering a write moves no red zone. -/
theorem inRedZone_rememberWrite (written : U64) :
    (rememberWrite written tracer).InRedZone address ↔ tracer.InRedZone address := by
  simp only [InRedZone, hasBlock_rememberWrite]

/-! ## Reports -/

/-- A report of a heap overflow. -/
def Report.isHeapOverflow : Report → Bool
  | .heapOverflow _ _ _ => true
  | _ => false

/-- The heap overflows that have been reported. -/
def heapOverflows (tracer : MallocTracer) : List Report :=
  tracer.reports.filter Report.isHeapOverflow

/-- A write to the address is looked at for an overflow: the tracer is on, the write comes
from the guest's own code, the address is in no freed block, and no overflow at it has been
reported. -/
structure DiagnosesWrite (emulator : Emulator) (address : U64) (tracer : MallocTracer) :
    Prop where
  enabled : tracer.enabled = true
  guest : ignoresAccess emulator tracer = false
  notFreed : tracer.freedAllocationContaining address = none
  unreported : ErrorKey.overflow address ∉ tracer.reportedMemoryErrors

theorem heapOverflows_reportOnce_other (key : ErrorKey) {what : Report}
    (h : what.isHeapOverflow = false) :
    (reportOnce key what tracer).heapOverflows = tracer.heapOverflows := by
  unfold reportOnce
  split
  · rfl
  · simp [heapOverflows, h]

/-- An overflow is reported exactly when it has not been before. -/
theorem heapOverflows_reportOnce_iff {key : ErrorKey} {what : Report}
    (h : what.isHeapOverflow = true) :
    (reportOnce key what tracer).heapOverflows = tracer.heapOverflows ↔
      key ∈ tracer.reportedMemoryErrors := by
  unfold reportOnce
  split <;> rename_i hkey
  · exact iff_of_true rfl hkey
  · refine iff_of_false ?_ hkey
    simp [heapOverflows, h]

/-- What remembering a write keeps. -/
theorem rememberWrite_keeps (emulator : Emulator) (written : U64) (tracer : MallocTracer) :
    (rememberWrite written tracer).enabled = tracer.enabled ∧
      ignoresAccess emulator (rememberWrite written tracer) = ignoresAccess emulator tracer ∧
      (rememberWrite written tracer).reportedMemoryErrors = tracer.reportedMemoryErrors ∧
      (rememberWrite written tracer).reports = tracer.reports := by
  unfold rememberWrite
  split <;> exact ⟨rfl, rfl, rfl, rfl⟩

/-- A write is reported as a heap overflow exactly when it is looked at for one and its
address lies in a red zone. -/
theorem onMemoryWrite_heapOverflows_iff (emulator : Emulator) (address : U64)
    (tracer : MallocTracer) :
    (onMemoryWrite emulator address tracer).heapOverflows = tracer.heapOverflows ↔
      ¬(DiagnosesWrite emulator address tracer ∧ tracer.InRedZone address) := by
  rcases rememberWrite_keeps emulator address tracer with ⟨henabled, hignores, herrors, hreports⟩
  have hkept : (rememberWrite address tracer).heapOverflows = tracer.heapOverflows := by
    rw [heapOverflows, hreports, heapOverflows]
  have hfreed : (rememberWrite address tracer).freedAllocationContaining address =
      tracer.freedAllocationContaining address := by
    rw [freedAllocationContaining, rememberWrite_freed, freedAllocationContaining]
  unfold onMemoryWrite
  cases hon : tracer.enabled with
  | false => exact iff_of_true rfl fun h => absurd h.1.enabled (by rw [hon]; decide)
  | true =>
      rw [if_neg (by simp)]
      dsimp only
      rw [hignores, hfreed]
      cases hguest : ignoresAccess emulator tracer with
      | true => exact iff_of_true hkept fun h => absurd h.1.guest (by rw [hguest]; decide)
      | false =>
          rw [if_neg Bool.false_ne_true]
          cases hfound : tracer.freedAllocationContaining address with
          | some entry =>
              refine iff_of_true ?_ fun h => absurd h.1.notFreed (by rw [hfound]; simp)
              exact (heapOverflows_reportOnce_other _ rfl).trans hkept
          | none =>
              dsimp only
              cases hzone : (rememberWrite address tracer).overflowedAllocation address with
              | none =>
                  rw [overflowedAllocation_eq_none_iff, inRedZone_rememberWrite] at hzone
                  exact iff_of_true hkept fun h => hzone h.2
              | some entry =>
                  have hin : tracer.InRedZone address := by
                    by_contra hout
                    rw [← inRedZone_rememberWrite address,
                      ← overflowedAllocation_eq_none_iff, hzone] at hout
                    cases hout
                  dsimp only
                  rw [← hkept, heapOverflows_reportOnce_iff rfl, herrors]
                  constructor
                  · exact fun hreported h => h.1.unreported hreported
                  · intro h
                    by_contra hnew
                    exact h ⟨⟨hon, hguest, hfound, hnew⟩, hin⟩

/-! ## Blocks without a gap -/

/-- Two blocks of 16 bytes, one right behind the other. -/
def adjacentBlocks : MallocTracer :=
  keepAllocation 0x1010 16 false (keepAllocation 0x1000 16 false { enabled := true })

/-- The write of the first byte of the second block is reported, though the blocks are
disjoint. -/
theorem heapOverflow_of_adjacent :
    ¬∀ (emulator : Emulator) (tracer : MallocTracer) (address : U64),
      (∀ p n q m, HasBlock tracer.allocations p n → HasBlock tracer.allocations q m →
        p ≠ q → RangesApart p n.toNat q m.toNat) →
      tracer.InLiveAllocation address →
      (onMemoryWrite emulator address tracer).heapOverflows = tracer.heapOverflows := by
  intro hnone
  have hblocks : ∀ p n, HasBlock adjacentBlocks.allocations p n →
      (p, n) = (0x1010, 16) ∨ (p, n) = (0x1000, 16) := by
    intro p n hblock
    rcases hasBlock_insert_iff.mp hblock with ⟨rfl, rfl⟩ | ⟨hblock, -⟩
    · exact Or.inl rfl
    rcases hasBlock_insert_iff.mp hblock with ⟨rfl, rfl⟩ | ⟨⟨record, hmem, -⟩, -⟩
    · exact Or.inr rfl
    · cases hmem
  have happart : RangesApart 0x1000 16 0x1010 16 := by
    intro address hin
    have hlt := (within_iff.mp hin).2
    rw [Bool.eq_false_iff, Ne, within_iff]
    change address.toNat < 0x1010 at hlt
    change ¬(0x1010 ≤ address.toNat ∧ address.toNat < 0x1010 + 16)
    omega
  have hsilent := hnone {} adjacentBlocks 0x1010 ?_ ?_
  · exact absurd hsilent (by decide)
  · intro p n q m hp hq hne
    rcases hblocks p n hp with hp | hp
    · cases hp
      rcases hblocks q m hq with hq | hq <;> cases hq
      · exact absurd rfl hne
      · exact happart.symm
    · cases hp
      rcases hblocks q m hq with hq | hq <;> cases hq
      · exact happart
      · exact absurd rfl hne
  · exact inLiveAllocation_of_find 0x1010 16 (by decide) (by decide)

end MallocTracer

end LUE
