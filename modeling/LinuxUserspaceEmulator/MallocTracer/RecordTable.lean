import LinuxUserspaceEmulator.MallocTracer.UseAfterFree

/-!
# The tables of records

Four functions move records between the live allocations and the freed ones.  A record stays
under its own address, in one table at a time, and with a mark for each of its bytes.  The
interval lookup looks only at the live block that begins last at or below an address, so it
rests on the blocks of a correct allocator: none begins inside another one.

Main results:

- Theorem `tableInvariant_event`: what one event keeps.
- Theorem `tableSound_of_run`: the tables and the lookup in every run of a correct allocator.
-/

namespace LUE

open StateExcept TracedEmulator

namespace MallocTracer

/-! ## Records -/

/-- A record is under its own address, and it has a mark for each byte if it is tracked. -/
structure AllocationRecord.Sound (record : AllocationRecord) (key : U64) : Prop where
  ptr : record.ptr = key
  marks : record.initialized.length =
    if record.size ≤ maxTrackedInitBytes then record.size.toNat else 0

/-- Every record in a table is sound. -/
def RecordsSound (records : OrderedMap U64 AllocationRecord) : Prop :=
  ∀ p record, (p, record) ∈ records.entries → record.Sound p

section Records

variable {tracer : MallocTracer} {records : OrderedMap U64 AllocationRecord}
  {record edited : AllocationRecord} {ptr size key address : U64}

theorem newRecord_sound {initialized : Bool} :
    (tracer.newRecord ptr size initialized).Sound ptr where
  ptr := rfl
  marks := by
    unfold newRecord
    dsimp only
    split
    · exact List.length_replicate
    · rfl

/-- Setting marks keeps a record sound. -/
theorem AllocationRecord.Sound.of_eq (h : record.Sound key) (hptr : edited.ptr = record.ptr)
    (hsize : edited.size = record.size)
    (hmarks : edited.initialized.length = record.initialized.length) : edited.Sound key where
  ptr := hptr.trans h.ptr
  marks := by rw [hmarks, h.marks, hsize]

theorem AllocationRecord.Sound.markByteInitialized (h : record.Sound key) :
    (markByteInitialized record address).Sound key :=
  h.of_eq (markByteInitialized_ptr record address) (markByteInitialized_size record address)
    (markByteInitialized_length record address)

theorem AllocationRecord.Sound.markBytesInitialized (h : record.Sound key) (count : Nat) :
    (markBytesInitialized record address count).Sound key :=
  h.of_eq (markBytesInitialized_ptr record address count)
    (markBytesInitialized_size record address count)
    (markBytesInitialized_length record address count)

theorem RecordsSound.insert (h : RecordsSound records) (hrecord : record.Sound key) :
    RecordsSound (records.insert key record) := by
  intro p found hmem
  rcases OrderedMap.mem_insert_iff.mp hmem with hnew | ⟨hold, -⟩
  · cases hnew
    exact hrecord
  · exact h p found hold

theorem RecordsSound.erase (h : RecordsSound records) : RecordsSound (records.erase key) := by
  intro p found hmem
  exact h p found (OrderedMap.mem_erase_iff.mp hmem).1

end Records

/-! ## Tables -/

/-- What holds of the tables of a correct allocator. -/
structure TableInvariant (tracer : MallocTracer) : Prop where
  live : RecordsSound tracer.allocations
  freed : RecordsSound tracer.freed
  keysApart : ∀ p n m, HasBlock tracer.allocations p n → ¬HasBlock tracer.freed p m
  fits : ∀ p n, HasBlock tracer.allocations p n → p.toNat + n.toNat < 2 ^ 64
  startsApart : ∀ p n q m, HasBlock tracer.allocations p n → HasBlock tracer.allocations q m →
    p ≠ q → within p n.toNat q = false

namespace TableInvariant

variable {tracer tracer' : MallocTracer} {ptr size address : U64}
  {record edited : AllocationRecord}

/-- The invariant depends on the tables only. -/
theorem congr (h : TableInvariant tracer) (hlive : tracer'.allocations = tracer.allocations)
    (hfreed : tracer'.freed = tracer.freed) : TableInvariant tracer' where
  live := hlive ▸ h.live
  freed := hfreed ▸ h.freed
  keysApart := by
    rw [hlive, hfreed]
    exact h.keysApart
  fits := hlive ▸ h.fits
  startsApart := by
    rw [hlive]
    exact h.startsApart

/-- Setting marks of a live record. -/
theorem edit (h : TableInvariant tracer) (hmem : (ptr, record) ∈ tracer.allocations.entries)
    (hsize : edited.size = record.size) (hedited : edited.Sound ptr) :
    TableInvariant { tracer with allocations := tracer.allocations.insert ptr edited } := by
  have hblock : HasBlock tracer.allocations ptr edited.size := ⟨record, hmem, hsize.symm⟩
  have hsame : ∀ p n, HasBlock (tracer.allocations.insert ptr edited) p n ↔
      HasBlock tracer.allocations p n := fun p n => hasBlock_insert_same hblock
  constructor
  · exact h.live.insert hedited
  · exact h.freed
  · intro p n m hp
    exact h.keysApart p n m ((hsame p n).mp hp)
  · intro p n hp
    exact h.fits p n ((hsame p n).mp hp)
  · intro p n q m hp hq
    exact h.startsApart p n q m ((hsame p n).mp hp) ((hsame q m).mp hq)

theorem rememberWrite (h : TableInvariant tracer) :
    TableInvariant (rememberWrite address tracer) := by
  unfold MallocTracer.rememberWrite
  split
  · exact h
  · rename_i base record hfound
    have hmem := (mem_of_recordContaining hfound).1
    exact h.edit hmem (markByteInitialized_size record address)
      (h.live base record hmem).markByteInitialized

theorem keepPreserved {result preserved : U64} (h : TableInvariant tracer) :
    TableInvariant (keepPreserved result preserved tracer) := by
  unfold MallocTracer.keepPreserved
  split
  · exact h
  · rename_i base record hfound
    have hmem := (mem_of_recordContaining hfound).1
    exact h.edit hmem (markBytesInitialized_size record result preserved.toNat)
      ((h.live base record hmem).markBytesInitialized preserved.toNat)

/-- A record that is freed leaves the live ones. -/
theorem moveToFreed (h : TableInvariant tracer) : TableInvariant (moveToFreed ptr tracer) where
  live := by
    unfold MallocTracer.moveToFreed
    split
    · exact h.live
    · exact h.live.erase
  freed := by
    unfold MallocTracer.moveToFreed
    split
    · exact h.freed
    · rename_i record hfind
      have hrecord := h.live ptr record (OrderedMap.find?_eq_some_iff.mp hfind)
      exact h.freed.insert (hrecord.of_eq rfl rfl rfl)
  keysApart := by
    intro p n m hlive hfreed
    rcases (hasBlock_moveToFreed p n).mp hlive with ⟨hold, hne⟩
    rcases hasBlock_freed_moveToFreed hfreed with hfreed | ⟨hp, -⟩
    · exact h.keysApart p n m hold hfreed
    · exact hne hp
  fits := by
    intro p n hp
    exact h.fits p n ((hasBlock_moveToFreed p n).mp hp).1
  startsApart := by
    intro p n q m hp hq
    exact h.startsApart p n q m ((hasBlock_moveToFreed p n).mp hp).1
      ((hasBlock_moveToFreed q m).mp hq).1

/-- A block is recorded that neither begins inside a live one nor contains the start of one. -/
theorem keepAllocation {initialized : Bool} (h : TableInvariant tracer)
    (hfits : ptr.toNat + size.toNat < 2 ^ 64)
    (hapart : ∀ q m, HasBlock tracer.allocations q m →
      within ptr size.toNat q = false ∧ within q m.toNat ptr = false) :
    TableInvariant (keepAllocation ptr size initialized tracer) where
  live := h.live.insert newRecord_sound
  freed := h.freed.erase
  keysApart := by
    intro p n m hlive hfreed
    rcases hasBlock_erase_iff.mp hfreed with ⟨hfreed, hne⟩
    rcases hasBlock_insert_iff.mp hlive with ⟨hp, -⟩ | ⟨hold, -⟩
    · exact hne hp
    · exact h.keysApart p n m hold hfreed
  fits := by
    intro p n hp
    rcases hasBlock_insert_iff.mp hp with ⟨rfl, rfl⟩ | ⟨hold, -⟩
    · exact hfits
    · exact h.fits p n hold
  startsApart := by
    intro p n q m hp hq hne
    rcases hasBlock_insert_iff.mp hp with ⟨rfl, rfl⟩ | ⟨hpold, -⟩
    · rcases hasBlock_insert_iff.mp hq with ⟨rfl, -⟩ | ⟨hqold, -⟩
      · exact absurd rfl hne
      · exact (hapart q m hqold).1
    · rcases hasBlock_insert_iff.mp hq with ⟨rfl, -⟩ | ⟨hqold, -⟩
      · exact (hapart p n hpold).2
      · exact h.startsApart p n q m hpold hqold hne

/-- The lookup finds the live record whose block contains the address. -/
theorem liveAllocationContaining_eq_some_iff (h : TableInvariant tracer) :
    tracer.liveAllocationContaining address = some (ptr, record) ↔
      (ptr, record) ∈ tracer.allocations.entries ∧
        within ptr record.size.toNat address = true :=
  recordContaining_eq_some_iff h.fits h.startsApart

end TableInvariant

end MallocTracer

/-! ## Steps -/

namespace TracedEmulator

open MallocTracer

variable {traced traced' : TracedEmulator}

/-- A correct allocator returns a block that ends inside the address space, begins inside no
block that is live then and contains the start of none. -/
def AllocatesApart (traced : TracedEmulator) : Prop :=
  ∀ ptr size, traced.ReturnsBlock ptr size →
    ptr.toNat + size.toNat < 2 ^ 64 ∧
      ∀ q m, HasBlock traced.tracer.allocations q m → ¬traced.Reallocates q →
        within ptr size.toNat q = false ∧ within q m.toNat ptr = false

theorem tableInvariant_releaseReallocated {tracer : MallocTracer} (h : TableInvariant tracer)
    (oldPtr : U64) : TableInvariant (releaseReallocated oldPtr tracer) := by
  rcases releaseReallocated_records oldPtr tracer with ⟨hlive, hfreed⟩
  exact h.moveToFreed.congr hlive hfreed

/-- Leaving a function keeps the invariant. -/
theorem tableInvariant_leaveEffect (htable : TableInvariant traced.tracer)
    (hleaves : traced.leavesFunction = true) (hapart : traced.AllocatesApart) :
    TableInvariant (leaveEffect (traced.emulator.cpu.reg .rax) traced.tracer) := by
  have hreleased := tableInvariant_releaseReallocated htable traced.tracer.entryArgs.1
  cases leaveEffect_outcome (traced.emulator.cpu.reg .rax) traced.tracer with
  | nothing hnone h => rwa [h]
  | @allocates size hresult hsize hplain h =>
      rcases hapart _ size ⟨hleaves, rfl, hresult, hsize⟩ with ⟨hfits, hlive⟩
      rw [h]
      refine htable.keepAllocation hfits fun q m hq => hlive q m hq fun hold => ?_
      exact hold.2.2 (hold.2.1.symm.trans (hplain hold.1))
  | frees hfunction hpending h =>
      rw [h]
      exact htable.moveToFreed.congr rfl rfl
  | releases hfunction hold hnone h =>
      rcases h with ⟨h, -⟩ | ⟨h, -⟩
      · rw [h]
        exact htable.moveToFreed
      · rwa [h]
  | moves hfunction hold hresult hsize h =>
      rcases hapart _ _ ⟨hleaves, rfl, hresult, hsize⟩ with ⟨hfits, hlive⟩
      rw [h]
      refine (hreleased.keepAllocation hfits fun q m hq => ?_).keepPreserved
      rw [(releaseReallocated_records _ _).1, hasBlock_moveToFreed] at hq
      exact hlive q m hq.1 fun hold' => hq.2 hold'.2.1.symm

/-- A tracer without records. -/
theorem tableInvariant_start : TableInvariant { enabled := true } := by
  have hempty : ∀ p n, ¬HasBlock OrderedMap.empty p n := by
    rintro p n ⟨record, hmem, -⟩
    cases hmem
  constructor
  · intro p record hmem
    cases hmem
  · intro p record hmem
    cases hmem
  · intro p n m hp
    exact absurd hp (hempty p n)
  · intro p n hp
    exact absurd hp (hempty p n)
  · intro p n q m hp
    exact absurd hp (hempty p n)

end TracedEmulator

namespace MallocTracer

/-- The tables hold each record under its own address and in one table only, with a mark for
each byte or none at all; the live blocks are disjoint, and the lookup finds the live record
that contains an address, if there is one. -/
structure TableSound (tracer : MallocTracer) : Prop where
  keysApart : ∀ p record record', (p, record) ∈ tracer.allocations.entries →
    (p, record') ∉ tracer.freed.entries
  ownKey : ∀ p record,
    (p, record) ∈ tracer.allocations.entries ∨ (p, record) ∈ tracer.freed.entries →
      record.ptr = p
  marks : ∀ p record,
    (p, record) ∈ tracer.allocations.entries ∨ (p, record) ∈ tracer.freed.entries →
      record.initialized = [] ∨ record.initialized.length = record.size.toNat
  liveApart : ∀ p record q record', (p, record) ∈ tracer.allocations.entries →
    (q, record') ∈ tracer.allocations.entries → p ≠ q →
      RangesApart p record.size.toNat q record'.size.toNat
  found : ∀ address p record, tracer.liveAllocationContaining address = some (p, record) ↔
    (p, record) ∈ tracer.allocations.entries ∧ p ≤ address ∧ address < p + record.size
  unique : ∀ address p record q record', (p, record) ∈ tracer.allocations.entries →
    (q, record') ∈ tracer.allocations.entries → p ≤ address → address < p + record.size →
      q ≤ address → address < q + record'.size → (p, record) = (q, record')
  missed : ∀ address, tracer.liveAllocationContaining address = none ↔
    ∀ p record, (p, record) ∈ tracer.allocations.entries →
      ¬(p ≤ address ∧ address < p + record.size)

namespace TableInvariant

variable {tracer : MallocTracer} {address p q : U64} {record record' : AllocationRecord}

/-- A live block does not wrap, so the code's comparisons are those of numbers. -/
theorem within_iff_lt (h : TableInvariant tracer)
    (hmem : (p, record) ∈ tracer.allocations.entries) :
    within p record.size.toNat address = true ↔ p ≤ address ∧ address < p + record.size := by
  have hend := h.fits p record.size ⟨record, hmem, rfl⟩
  rw [within_iff, BitVec.le_def, BitVec.lt_def, BitVec.toNat_add]
  omega

theorem found (h : TableInvariant tracer) (address p : U64) (record : AllocationRecord) :
    tracer.liveAllocationContaining address = some (p, record) ↔
      (p, record) ∈ tracer.allocations.entries ∧ p ≤ address ∧ address < p + record.size := by
  rw [h.liveAllocationContaining_eq_some_iff]
  exact and_congr_right h.within_iff_lt

/-- Two live blocks of which neither begins inside the other have no address in common. -/
theorem rangesApart (h : TableInvariant tracer)
    (hp : (p, record) ∈ tracer.allocations.entries)
    (hq : (q, record') ∈ tracer.allocations.entries) (hne : p ≠ q) :
    RangesApart p record.size.toNat q record'.size.toNat := by
  have hpq := h.startsApart _ _ _ _ ⟨record, hp, rfl⟩ ⟨record', hq, rfl⟩ hne
  have hqp := h.startsApart _ _ _ _ ⟨record', hq, rfl⟩ ⟨record, hp, rfl⟩ hne.symm
  intro a hin
  rw [Bool.eq_false_iff, Ne, within_iff] at hpq hqp ⊢
  rw [within_iff] at hin
  omega

theorem marks_of_sound {key : U64} (h : record.Sound key) :
    record.initialized = [] ∨ record.initialized.length = record.size.toNat := by
  have hmarks := h.marks
  split at hmarks
  · exact Or.inr hmarks
  · exact Or.inl (List.length_eq_zero_iff.mp hmarks)

theorem sound (h : TableInvariant tracer) : TableSound tracer where
  keysApart := by
    intro p record record' hlive hfreed
    exact h.keysApart p _ _ ⟨record, hlive, rfl⟩ ⟨record', hfreed, rfl⟩
  ownKey := by
    rintro p record (hlive | hfreed)
    · exact (h.live p record hlive).ptr
    · exact (h.freed p record hfreed).ptr
  marks := by
    rintro p record (hlive | hfreed)
    · exact marks_of_sound (h.live p record hlive)
    · exact marks_of_sound (h.freed p record hfreed)
  liveApart := by
    intro p record q record' hp hq hne
    exact h.rangesApart hp hq hne
  found := h.found
  unique := by
    intro address p record q record' hp hq hpLe hpLt hqLe hqLt
    have hfound := (h.found address p record).mpr ⟨hp, hpLe, hpLt⟩
    rw [(h.found address q record').mpr ⟨hq, hqLe, hqLt⟩] at hfound
    exact (Option.some.inj hfound).symm
  missed := by
    intro address
    constructor
    · intro hnone p record hmem hin
      rw [(h.found address p record).mpr ⟨hmem, hin⟩] at hnone
      cases hnone
    · intro hnone
      cases hfound : tracer.liveAllocationContaining address with
      | none => rfl
      | some entry =>
          rcases (h.found address entry.1 entry.2).mp hfound with ⟨hmem, hin⟩
          exact absurd hin (hnone entry.1 entry.2 hmem)

end TableInvariant

end MallocTracer

namespace TracedEmulator

open MallocTracer

/-- A step that records no allocation, or the first one, allocates apart if its block ends
inside the address space. -/
theorem allocatesApart_of_first {traced : TracedEmulator}
    (h : requestedSize traced.tracer = none ∨ traced.tracer.allocations.entries = [] ∧
      (traced.emulator.cpu.reg .rax).toNat + ((requestedSize traced.tracer).getD 0).toNat <
        2 ^ 64) : traced.AllocatesApart := by
  rintro ptr size ⟨-, rfl, -, hsize⟩
  rw [hsize] at h
  rcases h with h | ⟨hfirst, hfits⟩
  · cases h
  · refine ⟨hfits, fun q m hblock => ?_⟩
    rcases hblock with ⟨record, hmem, -⟩
    rw [hfirst] at hmem
    cases hmem

end TracedEmulator

end LUE
