import LinuxUserspaceEmulator.MallocTracer.UseAfterFree

/-!
# Reallocations

When the guest's `realloc` returns, the tracer moves the record of the old block to the freed
ones, whether or not there is a new block, and starts a record for the new block whose
preserved bytes are all marked as written.

Main results:

- Theorem `onReallocLeave_null`: a failed reallocation loses the old block.
- Theorem `onReallocLeave_initialized_iff`: the marks of the old block are carried over exactly
  when all of its preserved bytes were marked.
-/

namespace LUE

open StateExcept TracedEmulator

/-! ## A block that is reallocated -/

namespace TracedEmulator

open MallocTracer

/-- The guest of `allocatingGuest`, whose `realloc` is at `0x300`. -/
def reallocatingGuest (rip rax rdi rsi : U64) : Emulator :=
  let guest := allocatingGuest rip rax rdi
  { guest with
    reallocSymbol := { start := 0x300 }
    cpu := guest.cpu.setReg .rsi rsi }

/-- A block of 64 bytes is being reallocated to 128 bytes. -/
def duringRealloc : TracedEmulator :=
  afterMalloc.follow (reallocatingGuest 0x300 0 0x1000 128)

/-- The record of the block, of which the guest has written no byte. -/
def unwrittenRecord : AllocationRecord where
  ptr := 0x1000
  size := 64
  backtrace := [0x100]
  freed := false
  initialized := List.replicate 64 false

theorem duringRealloc_args : duringRealloc.tracer.entryArgs = (0x1000, 128) := by
  decide

theorem duringRealloc_live :
    duringRealloc.tracer.allocations.find? 0x1000 = some unwrittenRecord := by
  decide

end TracedEmulator

namespace MallocTracer

variable {tracer : MallocTracer} {ptr size result : U64} {record : AllocationRecord}

/-! ## Failed reallocations -/

/-- Reallocating a live block frees its record. -/
theorem releaseReallocated_of_live (hlive : tracer.allocations.find? ptr = some record) :
    releaseReallocated ptr tracer =
      { tracer with
        allocations := tracer.allocations.erase ptr
        freed := tracer.freed.insert ptr { record with freed := true } } := by
  simp only [releaseReallocated, hlive, moveToFreed]

/-- When `realloc` returns `NULL` the old block, which is still the guest's, is no longer live
but freed. -/
theorem onReallocLeave_null {traced traced' : TracedEmulator}
    (hargs : traced.tracer.entryArgs = (ptr, size)) (hptr : ptr ≠ 0) (hsize : size ≠ 0)
    (hlive : traced.tracer.allocations.find? ptr = some record)
    (h : onReallocLeave 0 traced = .ok () traced') :
    traced'.tracer.allocations.find? ptr = none ∧
      traced'.tracer.freed.find? ptr = some { record with freed := true } ∧
      ¬(traced'.tracer.allocations = traced.tracer.allocations ∧
        traced'.tracer.freed = traced.tracer.freed) := by
  have hfst : traced.tracer.entryArgs.1 = ptr := congrArg Prod.fst hargs
  have hsnd : traced.tracer.entryArgs.2 = size := congrArg Prod.snd hargs
  have htracer := onReallocLeave_tracer (by rwa [hfst]) (by rwa [hsnd]) h
  rw [if_pos rfl, hfst, releaseReallocated_of_live hlive] at htracer
  have hgone : traced'.tracer.allocations.find? ptr = none := by
    rw [htracer]
    exact OrderedMap.find?_erase_self
  refine ⟨hgone, ?_, ?_⟩
  · rw [htracer]
    exact OrderedMap.find?_insert_self
  · rintro ⟨hsame, -⟩
    rw [hsame, hlive] at hgone
    cases hgone

/-- The block of 64 bytes is lost when there is no room for 128 bytes. -/
theorem onReallocLeave_null_unwritten :
    (finalState (onReallocLeave 0 duringRealloc)).tracer.allocations.find? 0x1000 = none ∧
      (finalState (onReallocLeave 0 duringRealloc)).tracer.freed.find? 0x1000 =
        some { unwrittenRecord with freed := true } := by
  have hfailed := onReallocLeave_null duringRealloc_args (by decide) (by decide)
    duringRealloc_live (eq_ok_of_returned (by decide))
  exact ⟨hfailed.1, hfailed.2.1⟩

/-- The maps do not stay as they are. -/
theorem onReallocLeave_loses_block :
    ¬∀ (traced traced' : TracedEmulator) (ptr size : U64) (record : AllocationRecord),
      traced.tracer.entryArgs = (ptr, size) → ptr ≠ 0 → size ≠ 0 →
      traced.tracer.allocations.find? ptr = some record →
      onReallocLeave 0 traced = .ok () traced' →
      traced'.tracer.allocations = traced.tracer.allocations ∧
        traced'.tracer.freed = traced.tracer.freed := by
  intro hkept
  have hsame := (hkept _ _ _ _ _ duringRealloc_args (by decide) (by decide) duringRealloc_live
    (eq_ok_of_returned (by decide))).2
  have hfreed := congrArg (fun freed => (freed.find? 0x1000).isSome) hsame
  exact absurd hfreed (by decide)

/-! ## Marks -/

/-- Marking a byte of a record marks this byte and keeps the other marks. -/
theorem markByteInitialized_marked (record : AllocationRecord) {k i : Nat} (hk : k < 2 ^ 64) :
    (markByteInitialized record (record.ptr + BitVec.ofNat 64 k)).initialized[i]? = some true ↔
      i = k ∧ i < record.initialized.length ∨ record.initialized[i]? = some true := by
  have hoffset : (record.ptr + BitVec.ofNat 64 k - record.ptr).toNat = k := by
    rw [BitVec.add_comm, BitVec.add_sub_cancel, BitVec.toNat_ofNat, Nat.mod_eq_of_lt hk]
  unfold markByteInitialized
  dsimp only
  split <;> rename_i hempty
  · rw [List.isEmpty_iff.mp hempty]
    simp
  rw [hoffset]
  split <;> rename_i hin
  · rw [List.getElem?_set]
    by_cases hi : k = i
    · subst hi
      simp [hin]
    · simp [hi, Ne.symm hi]
  · constructor
    · exact Or.inr
    · rintro (⟨rfl, hlt⟩ | h)
      · exact absurd hlt hin
      · exact h

/-- Marking the first bytes of a record marks these bytes and keeps the other marks. -/
theorem markBytesInitialized_marked (record : AllocationRecord) {count : Nat}
    (hcount : count ≤ 2 ^ 64) (i : Nat) :
    (markBytesInitialized record record.ptr count).initialized[i]? = some true ↔
      i < count ∧ i < record.initialized.length ∨ record.initialized[i]? = some true := by
  induction count with
  | zero => simp [markBytesInitialized]
  | succ count ih =>
      have hbyte := markByteInitialized_marked (i := i)
        (markBytesInitialized record record.ptr count) (show count < 2 ^ 64 by omega)
      rw [markBytesInitialized_ptr, markBytesInitialized_length, ih (by omega)] at hbyte
      rw [markBytesInitialized, hbyte]
      constructor
      · rintro (⟨rfl, hlt⟩ | ⟨hi, hlt⟩ | h)
        · exact Or.inl ⟨by omega, hlt⟩
        · exact Or.inl ⟨by omega, hlt⟩
        · exact Or.inr h
      · rintro (⟨hi, hlt⟩ | h)
        · rcases Nat.lt_succ_iff_lt_or_eq.mp hi with hi | rfl
          · exact Or.inr (Or.inl ⟨hi, hlt⟩)
          · exact Or.inl ⟨rfl, hlt⟩
        · exact Or.inr (Or.inr h)

/-- The new block is found at its first byte, unless it reaches the end of the address
space. -/
theorem liveAllocationContaining_keepAllocation :
    (keepAllocation result size false tracer).liveAllocationContaining result =
      if size ≠ 0 ∧ result.toNat + size.toNat < 2 ^ 64 then
        some (result, tracer.newRecord result size false)
      else none := by
  have hfloor : (keepAllocation result size false tracer).allocations.floor? result =
      some (result, tracer.newRecord result size false) := by
    rw [OrderedMap.floor?_eq_some_iff]
    refine ⟨OrderedMap.mem_insert_iff.mpr (Or.inl rfl), le_refl _, ?_⟩
    intro entry _ hle
    exact hle
  rw [liveAllocationContaining, recordContaining, hfloor]
  have hsize : size ≠ 0 ↔ 0 < size.toNat := by
    rw [Nat.pos_iff_ne_zero, Ne, Ne, BitVec.toNat_eq]
    rfl
  have hin : (result ≥ result ∧ result < result + (tracer.newRecord result size false).size) ↔
      size ≠ 0 ∧ result.toNat + size.toNat < 2 ^ 64 := by
    rw [hsize]
    change (result ≤ result ∧ result < result + size) ↔ _
    rw [BitVec.le_def, BitVec.lt_def, BitVec.toNat_add]
    have hresult := result.isLt
    have hbound := size.isLt
    omega
  exact if_congr hin rfl rfl

/-- The new record marks the preserved bytes, unless it reaches the end of the address space:
then it marks none. -/
theorem keepPreserved_marked (tracer : MallocTracer) (result : U64) {preserved : U64}
    (hsize : size ≤ maxTrackedInitBytes) (hne : size ≠ 0)
    (hle : preserved.toNat ≤ size.toNat) :
    ∃ new, (keepPreserved result preserved
        (keepAllocation result size false tracer)).allocations.find? result = some new ∧
      ∀ i : Nat, new.initialized[i]? = some true ↔
        i < preserved.toNat ∧ result.toNat + size.toNat < 2 ^ 64 := by
  have hnew : (tracer.newRecord result size false).initialized =
      List.replicate size.toNat false := if_pos hsize
  have hunmarked : ∀ i : Nat, (tracer.newRecord result size false).initialized[i]? ≠ some true := by
    intro i hmarked
    rw [hnew] at hmarked
    have hfalse := List.eq_of_mem_replicate (List.mem_of_getElem? hmarked)
    cases hfalse
  rw [keepPreserved, liveAllocationContaining_keepAllocation]
  by_cases hwrap : result.toNat + size.toNat < 2 ^ 64
  · rw [if_pos ⟨hne, hwrap⟩]
    refine ⟨_, OrderedMap.find?_insert_self, fun i : Nat => ?_⟩
    have hmarked := markBytesInitialized_marked (tracer.newRecord result size false)
      preserved.isLt.le i
    refine Iff.trans hmarked ?_
    constructor
    · rintro (⟨hi, -⟩ | h)
      · exact ⟨hi, hwrap⟩
      · exact absurd h (hunmarked i)
    · rintro ⟨hi, -⟩
      refine Or.inl ⟨hi, ?_⟩
      rw [hnew, List.length_replicate]
      exact hi.trans_le hle
  · rw [if_neg fun h => hwrap h.2]
    refine ⟨_, OrderedMap.find?_insert_self, fun i : Nat => ?_⟩
    constructor
    · exact fun h => absurd h (hunmarked i)
    · exact fun h => absurd h.2 hwrap

/-- The marks of the old block are carried over exactly when every preserved byte was marked,
or, for a new block that reaches the end of the address space, when none was. -/
theorem onReallocLeave_initialized_iff {traced traced' : TracedEmulator}
    (hargs : traced.tracer.entryArgs = (ptr, size)) (hptr : ptr ≠ 0) (hsize : size ≠ 0)
    (hresult : result ≠ 0) (hlive : traced.tracer.allocations.find? ptr = some record)
    (hnew : size ≤ maxTrackedInitBytes)
    (h : onReallocLeave result traced = .ok () traced') :
    (∃ new, traced'.tracer.allocations.find? result = some new ∧
      ∀ i : Nat, new.initialized[i]? = some true ↔
        i < min record.size.toNat size.toNat ∧ record.initialized[i]? = some true) ↔
    ∀ i < min record.size.toNat size.toNat,
      (record.initialized[i]? = some true ↔ result.toNat + size.toNat < 2 ^ 64) := by
  have hfst : traced.tracer.entryArgs.1 = ptr := congrArg Prod.fst hargs
  have hsnd : traced.tracer.entryArgs.2 = size := congrArg Prod.snd hargs
  have htracer := onReallocLeave_tracer (by rwa [hfst]) (by rwa [hsnd]) h
  have hliveSize : liveSize traced.tracer ptr = record.size := by rw [liveSize, hlive]
  have hpreserved := toNat_stdMin record.size size
  rw [if_neg hresult, hfst, hsnd, hliveSize] at htracer
  have hle : (stdMin record.size size).toNat ≤ size.toNat := by
    rw [hpreserved]
    exact Nat.min_le_right _ _
  rcases keepPreserved_marked (releaseReallocated ptr traced.tracer) result hnew hsize hle with
    ⟨found, hfound, hmarked⟩
  rw [htracer, hfound]
  simp only [Option.some.injEq, exists_eq_left', hmarked, hpreserved]
  constructor
  · intro hcarried i hi
    have hbyte := hcarried i
    tauto
  · intro hbytes i
    have hbyte := hbytes i
    tauto

/-- Reallocating the unwritten block marks its bytes: they are not carried over. -/
theorem onReallocLeave_initialized_unwritten :
    ¬∃ new, (finalState (onReallocLeave 0x1000 duringRealloc)).tracer.allocations.find? 0x1000 =
        some new ∧
      ∀ i : Nat, new.initialized[i]? = some true ↔
        i < 64 ∧ unwrittenRecord.initialized[i]? = some true := by
  intro hcarried
  have hmarks := (onReallocLeave_initialized_iff duringRealloc_args (by decide) (by decide)
    (by decide) duringRealloc_live (by decide) (eq_ok_of_returned (by decide +kernel))).mp
    hcarried
  exact absurd (hmarks 0 (by decide)) (by decide)

/-- The marks are not always carried over. -/
theorem onReallocLeave_marks_unwritten :
    ¬∀ (traced traced' : TracedEmulator) (ptr size result : U64) (record : AllocationRecord),
      traced.tracer.entryArgs = (ptr, size) → ptr ≠ 0 → size ≠ 0 → result ≠ 0 →
      traced.tracer.allocations.find? ptr = some record →
      record.initialized.length = record.size.toNat →
      record.size ≤ maxTrackedInitBytes → size ≤ maxTrackedInitBytes →
      onReallocLeave result traced = .ok () traced' →
      ∃ new, traced'.tracer.allocations.find? result = some new ∧
        ∀ i : Nat, new.initialized[i]? = some true ↔
          i < min record.size.toNat size.toNat ∧ record.initialized[i]? = some true := by
  intro hcarried
  rcases hcarried _ (finalState (onReallocLeave 0x1000 duringRealloc)) _ _ 0x1000 _
    duringRealloc_args (by decide) (by decide) (by decide) duringRealloc_live (by decide)
    (by decide) (by decide) (eq_ok_of_returned (by decide +kernel)) with ⟨new, hnew, hmarks⟩
  have hfirst : ((finalState (onReallocLeave 0x1000 duringRealloc)).tracer.allocations.find?
      0x1000).bind (fun new => new.initialized[0]?) = some true := by decide +kernel
  rw [hnew] at hfirst
  exact absurd ((hmarks 0).mp hfirst) (by decide)

end MallocTracer

end LUE
