import LinuxUserspaceEmulator.MallocTracer.Calls
import LinuxUserspaceEmulator.MallocTracer.HeapScan

/-!
# Reachable allocations

When the live allocations are disjoint and readable, the scan of the heap returns, and it
finds exactly the allocations that a chain of words leads to from a root.

Main results:

- Theorem `containing_eq_iff`: the interval lookup finds the block of a value.
- Theorem `scanned_iff_reachable`: the scan comes to what a chain of words leads to.
- Theorem `computeReachableAllocations_eq_ok`: the search ends, and its result is exactly
  the allocations that a chain of words leads to.
-/

namespace LUE

open StateExcept SoftMMU

/-! ## Chains of words -/

namespace MallocTracer

/-- A value lies in a live allocation. -/
def InBlock (tracer : MallocTracer) (ptr size value : U64) : Prop :=
  HasBlock tracer.allocations ptr size ∧ within ptr size.toNat value = true

end MallocTracer

namespace TracedEmulator

open MallocTracer

/-- A root: a general register, or a word of writable memory at a multiple of eight from the
base of its region whose address is in no live allocation. -/
inductive RootWord (traced : TracedEmulator) : U64 → Prop where
  | register (register : Register) : RootWord traced (traced.emulator.cpu.reg register)
  | memory {region : Region} {k : Nat} {value : U64}
      (hregion : region ∈ traced.emulator.mmu.regions) (hwritable : region.writable = true)
      (hfits : 8 * k + 8 ≤ region.size.toNat)
      (hfree : ∀ ptr size,
        ¬traced.tracer.InBlock ptr size (region.base + BitVec.ofNat 64 (8 * k)))
      (hword : WordAt traced.emulator.mmu (region.base + BitVec.ofNat 64 (8 * k)) value) :
      RootWord traced value

/-- The words of the finite chains from a root: each next one is a whole word of the
allocation that the one before points into, at a multiple of eight from its start. -/
inductive ChainWord (traced : TracedEmulator) : U64 → Prop where
  | root {value : U64} (h : RootWord traced value) : ChainWord traced value
  | link {value next ptr size : U64} {k : Nat} (h : ChainWord traced value)
      (hin : traced.tracer.InBlock ptr size value) (hfits : 8 * k + 8 ≤ size.toNat)
      (hword : WordAt traced.emulator.mmu (ptr + BitVec.ofNat 64 (8 * k)) next) :
      ChainWord traced next

/-- An allocation that a chain of words leads to. -/
def Reachable (traced : TracedEmulator) (ptr : U64) : Prop :=
  ∃ size value, ChainWord traced value ∧ traced.tracer.InBlock ptr size value

/-- The live allocations are pairwise disjoint, of positive size, and readable, and none is
at the null pointer. -/
structure AllocationsReadable (traced : TracedEmulator) : Prop where
  regions : RegionsWellFormed traced.emulator.mmu.regions
  ne_zero : ∀ ptr size, HasBlock traced.tracer.allocations ptr size → ptr ≠ 0
  apart : ∀ p n q m, HasBlock traced.tracer.allocations p n →
    HasBlock traced.tracer.allocations q m → p ≠ q → RangesApart p n.toNat q m.toNat
  size_pos : ∀ ptr size, HasBlock traced.tracer.allocations ptr size → 0 < size.toNat
  readable : ∀ ptr size, HasBlock traced.tracer.allocations ptr size → ∀ i < size.toNat,
    ∃ cell, traced.emulator.mmu.addressMap.access (ptr + BitVec.ofNat 64 i) protRead = .ok cell

end TracedEmulator

/-! ## The interval lookup -/

namespace TracedEmulator

open MallocTracer

variable {traced : TracedEmulator} {value ptr size : U64}

/-- A live allocation ends below the end of the address space. -/
theorem AllocationsReadable.end_lt (h : traced.AllocationsReadable)
    (hblock : HasBlock traced.tracer.allocations ptr size) :
    ptr.toNat + size.toNat < 2 ^ 64 - 4096 + 1 := by
  have hmapped : ∀ i < size.toNat, (ptr + BitVec.ofNat 64 i).toNat < 2 ^ 64 - 4096 := by
    intro i hi
    rcases h.readable ptr size hblock i hi with ⟨cell, hcell⟩
    exact lt_of_addressMap h.regions (AddressMap.access_eq_ok_iff.mp hcell).1
  by_contra hend
  -- the allocation would contain the first address of the last page
  have hfirst := hmapped 0 (h.size_pos ptr size hblock)
  rw [BitVec.toNat_add, BitVec.toNat_ofNat] at hfirst
  have hpage := hmapped (2 ^ 64 - 4096 - ptr.toNat) (by omega)
  rw [BitVec.toNat_add, BitVec.toNat_ofNat] at hpage
  omega

/-- The interval lookup finds the block of a value. -/
theorem recordContaining_of_inBlock (h : traced.AllocationsReadable)
    (hin : traced.tracer.InBlock ptr size value) :
    ∃ record, recordContaining traced.tracer.allocations value = some (ptr, record) := by
  rcases hin with ⟨⟨record, hmem, rfl⟩, hwithin⟩
  have hfits : ∀ p n, HasBlock traced.tracer.allocations p n → p.toNat + n.toNat < 2 ^ 64 := by
    intro p n hblock
    have hend := h.end_lt hblock
    omega
  refine ⟨record, (recordContaining_eq_some_iff hfits ?_).mpr ⟨hmem, hwithin⟩⟩
  intro p n q m hp hq hne
  have hpos := h.size_pos _ _ hq
  have hstart : within q m.toNat q = true := by
    rw [within_iff]
    omega
  exact (h.apart _ _ _ _ hq hp hne.symm) q hstart

theorem containing_eq_iff (h : traced.AllocationsReadable) :
    traced.tracer.containing value = ptr ∧ ptr ≠ 0 ↔
      ∃ size, traced.tracer.InBlock ptr size value := by
  constructor
  · rintro ⟨hptr, hne⟩
    unfold containing at hptr
    split at hptr <;> rename_i hfound
    · subst hptr
      rcases recordContaining_eq_some hfound with ⟨hblock, hwithin⟩
      exact ⟨_, hblock, hwithin⟩
    · exact absurd hptr.symm hne
  · rintro ⟨size, hin⟩
    rcases recordContaining_of_inBlock h hin with ⟨record, hfound⟩
    exact ⟨by rw [containing, hfound], h.ne_zero ptr size hin.1⟩

theorem containing_eq_zero_iff (h : traced.AllocationsReadable) :
    traced.tracer.containing value = 0 ↔ ∀ ptr size, ¬traced.tracer.InBlock ptr size value := by
  constructor
  · intro hzero ptr size hin
    rcases (containing_eq_iff h).mpr ⟨size, hin⟩ with ⟨hptr, hne⟩
    exact hne (hptr.symm.trans hzero)
  · intro hnone
    by_contra hne
    rcases (containing_eq_iff h).mp ⟨rfl, hne⟩ with ⟨size, hin⟩
    exact hnone _ size hin

/-! ## Reachability -/

theorem pointsTo_iff (h : traced.AllocationsReadable) :
    traced.PointsTo value ptr ↔ ∃ size, traced.tracer.InBlock ptr size value :=
  containing_eq_iff h

/-- The scan starts from the root words. -/
theorem scanRoot_iff (h : traced.AllocationsReadable) :
    ScanRoot traced value ↔ RootWord traced value := by
  constructor
  · rintro (register | ⟨hregion, hwritable, hfits, hfree, hword⟩)
    · exact .register register
    · exact .memory hregion hwritable hfits ((containing_eq_zero_iff h).mp hfree) hword
  · rintro (register | ⟨hregion, hwritable, hfits, hfree, hword⟩)
    · exact .register register
    · exact .memory hregion hwritable hfits ((containing_eq_zero_iff h).mpr hfree) hword

/-- The scan comes to exactly the allocations that a chain of words leads to. -/
theorem scanned_iff_reachable (h : traced.AllocationsReadable) :
    Scanned traced ptr ↔ traced.Reachable ptr := by
  constructor
  · intro hscanned
    induction hscanned with
    | root hroot hpoints =>
        rcases (pointsTo_iff h).mp hpoints with ⟨size, hin⟩
        exact ⟨size, _, .root ((scanRoot_iff h).mp hroot), hin⟩
    | link _ hblock hfits hword hpoints ih =>
        rcases ih with ⟨size, value, hchain, hin⟩
        rcases (pointsTo_iff h).mp hpoints with ⟨size', hin'⟩
        rw [hblock.eq_size hin.1] at hfits
        exact ⟨size', _, .link hchain hin hfits hword, hin'⟩
  · rintro ⟨size, value, hchain, hin⟩
    induction hchain generalizing ptr size with
    | root hroot =>
        exact .root ((scanRoot_iff h).mpr hroot) ((pointsTo_iff h).mpr ⟨size, hin⟩)
    | link _ hin' hfits hword ih =>
        exact .link (ih _ hin') hin'.1 hfits hword ((pointsTo_iff h).mpr ⟨size, hin⟩)

theorem AllocationsReadable.blockReadable (h : traced.AllocationsReadable)
    (hblock : HasBlock traced.tracer.allocations ptr size) : traced.BlockReadable ptr size := by
  intro k hfits i hi
  rw [BitVec.add_assoc, ← BitVec.ofNat_add]
  exact permits_iff_access.mpr (h.readable ptr size hblock _ (by omega))

/-- The search ends, and its result is exactly the allocations that a chain of words from a
root leads to. -/
theorem computeReachableAllocations_eq_ok (h : traced.AllocationsReadable) :
    ∃ reachable, traced.computeReachableAllocations = .ok reachable ∧
      ∀ ptr, ptr ∈ reachable ↔ traced.Reachable ptr := by
  rcases (computeReachableAllocations_returns_iff h.regions).mpr
    fun ptr size _ hblock => h.blockReadable hblock with ⟨reachable, hrun⟩
  refine ⟨reachable, hrun, fun ptr => ?_⟩
  rw [mem_computeReachableAllocations_iff h.regions hrun, scanned_iff_reachable h]

/-- Two allocations in a page of zeroes; the register RAX points to the first one, whose
second word points into the second one. -/
def linkedAllocations : TracedEmulator where
  emulator :=
    { mmu := { regions := [Emulator.pageOf 0x1000 (protRead ||| protWrite)
        (List.replicate 24 0 ++ [0x24, 0x10])] }
      cpu := ({} : SoftCPU64).setReg .rax 0x1010 }
  tracer :=
    { enabled := true
      allocations := (OrderedMap.empty.insert 0x1010 ⟨0x1010, 16, [], false, []⟩).insert 0x1020
        ⟨0x1020, 8, [], false, []⟩ }

theorem linkedAllocations_readable : linkedAllocations.AllocationsReadable := by
  have hblock : ∀ ptr size, HasBlock linkedAllocations.tracer.allocations ptr size →
      ptr = 0x1010 ∧ size = 16 ∨ ptr = 0x1020 ∧ size = 8 := by
    rintro ptr size ⟨record, hmem, rfl⟩
    have hentries : linkedAllocations.tracer.allocations.entries =
        [(0x1010, ⟨0x1010, 16, [], false, []⟩), (0x1020, ⟨0x1020, 8, [], false, []⟩)] := by
      decide
    rw [hentries] at hmem
    simp only [List.mem_cons, Prod.mk.injEq, List.not_mem_nil, or_false] at hmem
    rcases hmem with ⟨rfl, rfl⟩ | ⟨rfl, rfl⟩
    · exact Or.inl ⟨rfl, rfl⟩
    · exact Or.inr ⟨rfl, rfl⟩
  have hapart : RangesApart 0x1010 16 0x1020 8 := by
    intro a ha
    rw [within_iff] at ha
    rw [Bool.eq_false_iff, ne_eq, within_iff]
    change 0x1010 ≤ a.toNat ∧ a.toNat < 0x1010 + 16 at ha
    change ¬(0x1020 ≤ a.toNat ∧ a.toNat < 0x1020 + 8)
    omega
  refine ⟨?_, ?_, ?_, ?_, ?_⟩
  · exact Emulator.regionsWellFormed_pageOf (by decide) (by decide) (by decide)
  · intro ptr size h
    rcases hblock ptr size h with ⟨rfl, rfl⟩ | ⟨rfl, rfl⟩ <;> decide
  · intro p n q m hp hq hne
    rcases hblock p n hp with ⟨rfl, rfl⟩ | ⟨rfl, rfl⟩ <;>
      rcases hblock q m hq with ⟨rfl, rfl⟩ | ⟨rfl, rfl⟩
    · exact absurd rfl hne
    · exact hapart
    · exact hapart.symm
    · exact absurd rfl hne
  · intro ptr size h
    rcases hblock ptr size h with ⟨rfl, rfl⟩ | ⟨rfl, rfl⟩ <;> decide
  · intro ptr size h i hi
    rcases hblock ptr size h with ⟨rfl, rfl⟩ | ⟨rfl, rfl⟩
    · have hcells : ∀ i < 16, (linkedAllocations.emulator.mmu.addressMap.access
          (0x1010 + BitVec.ofNat 64 i) protRead).isOk = true := by
        decide
      exact exists_eq_ok_of_isOk (hcells i hi)
    · have hcells : ∀ i < 8, (linkedAllocations.emulator.mmu.addressMap.access
          (0x1020 + BitVec.ofNat 64 i) protRead).isOk = true := by
        decide
      exact exists_eq_ok_of_isOk (hcells i hi)

/-- Both allocations are reachable, and nothing else. -/
theorem computeReachableAllocations_eq_ok_linked :
    ∃ reachable, linkedAllocations.computeReachableAllocations = .ok reachable ∧
      ∀ ptr, ptr ∈ reachable ↔ linkedAllocations.Reachable ptr :=
  computeReachableAllocations_eq_ok linkedAllocations_readable

end TracedEmulator

end LUE
