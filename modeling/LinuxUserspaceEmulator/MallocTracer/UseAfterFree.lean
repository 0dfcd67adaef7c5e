import LinuxUserspaceEmulator.MallocTracer.Tracer
import LinuxUserspaceEmulator.SoftMMU.AddressMap

/-!
# Use-after-free reports

The tracer drops a freed record only when a new allocation begins at the same address, and
looks at the freed records before the live ones.  So an access to a live allocation is
reported when the allocator has reused a part of a freed block for it.

Main results:

- Theorem `separate_step`: what one step of the tracer keeps, when the allocator returns
  blocks that meet no older record.
- Theorem `no_useAfterFree_of_run`: in runs of such steps no access to a live allocation is
  reported as a use after free.
- Theorem `useAfterFree_of_reuse`: an allocator that splits a freed block makes the tracer
  report an access to a live one.
-/

namespace LUE

open StateExcept TracedEmulator

namespace MallocTracer

/-! ## Blocks -/

section Blocks

variable {records : OrderedMap U64 AllocationRecord} {record : AllocationRecord}
  {ptr size key n : U64}

/-- A record of a block is kept. -/
def HasBlock (records : OrderedMap U64 AllocationRecord) (ptr size : U64) : Prop :=
  ∃ record, (ptr, record) ∈ records.entries ∧ record.size = size

theorem hasBlock_insert_iff :
    HasBlock (records.insert key record) ptr n ↔
      ptr = key ∧ n = record.size ∨ HasBlock records ptr n ∧ ptr ≠ key := by
  constructor
  · rintro ⟨found, hmem, rfl⟩
    rcases OrderedMap.mem_insert_iff.mp hmem with h | ⟨h, hne⟩
    · cases h
      exact Or.inl ⟨rfl, rfl⟩
    · exact Or.inr ⟨⟨found, h, rfl⟩, hne⟩
  · rintro (⟨rfl, rfl⟩ | ⟨⟨found, hmem, rfl⟩, hne⟩)
    · exact ⟨record, OrderedMap.mem_insert_iff.mpr (Or.inl rfl), rfl⟩
    · exact ⟨found, OrderedMap.mem_insert_iff.mpr (Or.inr ⟨hmem, hne⟩), rfl⟩

theorem hasBlock_erase_iff :
    HasBlock (records.erase key) ptr n ↔ HasBlock records ptr n ∧ ptr ≠ key := by
  constructor
  · rintro ⟨found, hmem, rfl⟩
    rcases OrderedMap.mem_erase_iff.mp hmem with ⟨h, hne⟩
    exact ⟨⟨found, h, rfl⟩, hne⟩
  · rintro ⟨⟨found, hmem, rfl⟩, hne⟩
    exact ⟨found, OrderedMap.mem_erase_iff.mpr ⟨hmem, hne⟩, rfl⟩

theorem HasBlock.eq_size (h : HasBlock records ptr size) (h' : HasBlock records ptr n) :
    size = n := by
  rcases h with ⟨found, hmem, rfl⟩
  rcases h' with ⟨found', hmem', rfl⟩
  have hsame := OrderedMap.eq_of_fst_eq records.sorted hmem hmem' rfl
  cases hsame
  rfl

theorem hasBlock_of_find (h : records.find? ptr = some record) :
    HasBlock records ptr record.size :=
  ⟨record, OrderedMap.find?_eq_some_iff.mp h, rfl⟩

theorem hasBlock_of_find_size (h : (records.find? ptr).map AllocationRecord.size = some size) :
    HasBlock records ptr size := by
  rcases Option.map_eq_some_iff.mp h with ⟨record, hfound, rfl⟩
  exact hasBlock_of_find hfound

/-- Editing a record without changing its size changes no block. -/
theorem hasBlock_insert_same (h : HasBlock records key record.size) :
    HasBlock (records.insert key record) ptr n ↔ HasBlock records ptr n := by
  rw [hasBlock_insert_iff]
  constructor
  · rintro (⟨rfl, rfl⟩ | ⟨hblock, -⟩)
    · exact h
    · exact hblock
  · intro hblock
    by_cases hkey : ptr = key
    · subst hkey
      exact Or.inl ⟨rfl, hblock.eq_size h⟩
    · exact Or.inr ⟨hblock, hkey⟩

/-- What an interval lookup finds is a record whose block contains the address. -/
theorem mem_of_recordContaining {address base : U64}
    (h : recordContaining records address = some (base, record)) :
    (base, record) ∈ records.entries ∧ within base record.size.toNat address = true := by
  unfold recordContaining at h
  cases hfloor : records.floor? address with
  | none => simp [hfloor] at h
  | some entry =>
      rcases entry with ⟨floor, found⟩
      simp only [hfloor] at h
      split at h
      · rename_i hin
        rcases Prod.mk.inj (Option.some.inj h) with ⟨rfl, rfl⟩
        refine ⟨(OrderedMap.floor?_eq_some_iff.mp hfloor).1, ?_⟩
        rw [within_iff]
        have hge := BitVec.le_def.mp hin.1
        have hlt := BitVec.lt_def.mp hin.2
        rw [BitVec.toNat_add] at hlt
        have hmod := Nat.mod_le (floor.toNat + found.size.toNat) (2 ^ 64)
        omega
      · cases h

theorem recordContaining_eq_some {address base : U64}
    (h : recordContaining records address = some (base, record)) :
    HasBlock records base record.size ∧ within base record.size.toNat address = true := by
  rcases mem_of_recordContaining h with ⟨hmem, hwithin⟩
  exact ⟨⟨record, hmem, rfl⟩, hwithin⟩

/-- When no block begins inside another one, the lookup finds the record whose block contains
the address. -/
theorem recordContaining_eq_some_iff {address : U64}
    (hfits : ∀ p n, HasBlock records p n → p.toNat + n.toNat < 2 ^ 64)
    (hstarts : ∀ p n q m, HasBlock records p n → HasBlock records q m → p ≠ q →
      within p n.toNat q = false) :
    recordContaining records address = some (ptr, record) ↔
      (ptr, record) ∈ records.entries ∧ within ptr record.size.toNat address = true := by
  constructor
  · exact mem_of_recordContaining
  · rintro ⟨hmem, hwithin⟩
    have hblock : HasBlock records ptr record.size := ⟨record, hmem, rfl⟩
    have hend := hfits _ _ hblock
    rw [within_iff] at hwithin
    have hfloor : records.floor? address = some (ptr, record) := by
      rw [OrderedMap.floor?_eq_some_iff]
      refine ⟨hmem, BitVec.le_def.mpr hwithin.1, fun entry hentry hle => ?_⟩
      -- a block that begins between the start of this one and the address begins inside it
      by_contra hlt
      rw [BitVec.le_def] at hle hlt
      have hout := hstarts _ _ _ _ hblock ⟨entry.2, hentry, rfl⟩ fun heq => hlt (by rw [heq])
      rw [Bool.eq_false_iff, Ne, within_iff] at hout
      omega
    simp only [recordContaining, hfloor]
    rw [if_pos]
    refine ⟨BitVec.le_def.mpr hwithin.1, ?_⟩
    rw [BitVec.lt_def, BitVec.toNat_add]
    omega

theorem markByteInitialized_size (record : AllocationRecord) (address : U64) :
    (markByteInitialized record address).size = record.size := by
  unfold markByteInitialized
  dsimp only
  split
  · rfl
  · split <;> rfl

theorem markBytesInitialized_size (record : AllocationRecord) (address : U64) (count : Nat) :
    (markBytesInitialized record address count).size = record.size := by
  induction count with
  | zero => rfl
  | succ count ih => rw [markBytesInitialized, markByteInitialized_size, ih]

theorem markByteInitialized_ptr (record : AllocationRecord) (address : U64) :
    (markByteInitialized record address).ptr = record.ptr := by
  unfold markByteInitialized
  dsimp only
  split
  · rfl
  · split <;> rfl

theorem markBytesInitialized_ptr (record : AllocationRecord) (address : U64) (count : Nat) :
    (markBytesInitialized record address count).ptr = record.ptr := by
  induction count with
  | zero => rfl
  | succ count ih => rw [markBytesInitialized, markByteInitialized_ptr, ih]

theorem markByteInitialized_length (record : AllocationRecord) (address : U64) :
    (markByteInitialized record address).initialized.length = record.initialized.length := by
  unfold markByteInitialized
  dsimp only
  split
  · rfl
  · split
    · exact List.length_set
    · rfl

theorem markBytesInitialized_length (record : AllocationRecord) (address : U64) (count : Nat) :
    (markBytesInitialized record address count).initialized.length =
      record.initialized.length := by
  induction count with
  | zero => rfl
  | succ count ih => rw [markBytesInitialized, markByteInitialized_length, ih]

end Blocks

/-! ## Separate records -/

variable {tracer : MallocTracer} {ptr size : U64}

/-- No live block meets another record. -/
structure Separate (tracer : MallocTracer) : Prop where
  live : ∀ p n q m, HasBlock tracer.allocations p n → HasBlock tracer.allocations q m →
    p ≠ q → RangesApart p n.toNat q m.toNat
  freed : ∀ p n q m, HasBlock tracer.allocations p n → HasBlock tracer.freed q m →
    RangesApart p n.toNat q m.toNat

/-- Being separate depends on the blocks only. -/
theorem Separate.congr {tracer' : MallocTracer} (h : Separate tracer)
    (hlive : ∀ p n, HasBlock tracer'.allocations p n ↔ HasBlock tracer.allocations p n)
    (hfreed : tracer'.freed = tracer.freed) : Separate tracer' where
  live := fun p n q m hp hq =>
    h.live p n q m ((hlive p n).mp hp) ((hlive q m).mp hq)
  freed := fun p n q m hp hq => h.freed p n q m ((hlive p n).mp hp) (hfreed ▸ hq)

theorem hasBlock_moveToFreed (p n : U64) :
    HasBlock (moveToFreed ptr tracer).allocations p n ↔
      HasBlock tracer.allocations p n ∧ p ≠ ptr := by
  unfold moveToFreed
  cases hfind : tracer.allocations.find? ptr with
  | none =>
      refine ⟨fun h => ⟨h, ?_⟩, And.left⟩
      rintro rfl
      rcases h with ⟨record, hmem, -⟩
      rw [OrderedMap.find?_eq_some_iff.mpr hmem] at hfind
      cases hfind
  | some record => exact hasBlock_erase_iff

theorem hasBlock_freed_moveToFreed {p n : U64}
    (h : HasBlock (moveToFreed ptr tracer).freed p n) :
    HasBlock tracer.freed p n ∨ p = ptr ∧ HasBlock tracer.allocations p n := by
  unfold moveToFreed at h
  cases hfind : tracer.allocations.find? ptr with
  | none =>
      simp only [hfind] at h
      exact Or.inl h
  | some record =>
      simp only [hfind] at h
      rcases hasBlock_insert_iff.mp h with ⟨rfl, rfl⟩ | ⟨hold, -⟩
      · exact Or.inr ⟨rfl, record, OrderedMap.find?_eq_some_iff.mp hfind, rfl⟩
      · exact Or.inl hold

/-- Freeing a live block keeps the records separate. -/
theorem Separate.moveToFreed (h : Separate tracer) : Separate (tracer.moveToFreed ptr) where
  live := by
    intro p n q m hp hq hne
    rw [hasBlock_moveToFreed] at hp hq
    exact h.live p n q m hp.1 hq.1 hne
  freed := by
    intro p n q m hp hq
    rw [hasBlock_moveToFreed] at hp
    rcases hasBlock_freed_moveToFreed hq with hold | ⟨rfl, hold⟩
    · exact h.freed p n q m hp.1 hold
    · exact h.live p n q m hp.1 hold hp.2

/-- Recording a block that meets no other record keeps the records separate. -/
theorem Separate.keepAllocation {initialized : Bool} (h : Separate tracer)
    (hlive : ∀ q m, HasBlock tracer.allocations q m → q ≠ ptr →
      RangesApart ptr size.toNat q m.toNat)
    (hfreed : ∀ q m, HasBlock tracer.freed q m → q ≠ ptr →
      RangesApart ptr size.toNat q m.toNat) :
    Separate (tracer.keepAllocation ptr size initialized) where
  live := by
    intro p n q m hp hq hne
    rcases hasBlock_insert_iff.mp hp with ⟨rfl, rfl⟩ | ⟨hp', hpne⟩
    · rcases hasBlock_insert_iff.mp hq with ⟨rfl, rfl⟩ | ⟨hq', hqne⟩
      · exact absurd rfl hne
      · exact hlive q m hq' hqne
    · rcases hasBlock_insert_iff.mp hq with ⟨rfl, rfl⟩ | ⟨hq', hqne⟩
      · exact (hlive p n hp' hpne).symm
      · exact h.live p n q m hp' hq' hne
  freed := by
    intro p n q m hp hq
    rcases hasBlock_erase_iff.mp hq with ⟨hq', hqne⟩
    rcases hasBlock_insert_iff.mp hp with ⟨rfl, rfl⟩ | ⟨hp', hpne⟩
    · exact hfreed q m hq' hqne
    · exact h.freed p n q m hp' hq'

theorem hasBlock_keepPreserved {result preserved : U64} (p n : U64) :
    HasBlock (keepPreserved result preserved tracer).allocations p n ↔
      HasBlock tracer.allocations p n := by
  unfold keepPreserved
  cases hfound : tracer.liveAllocationContaining result with
  | none => exact Iff.rfl
  | some entry =>
      have hblock := (recordContaining_eq_some hfound).1
      rw [← markBytesInitialized_size entry.2 result preserved.toNat] at hblock
      exact hasBlock_insert_same hblock

theorem hasBlock_rememberWrite {address : U64} (p n : U64) :
    HasBlock (rememberWrite address tracer).allocations p n ↔
      HasBlock tracer.allocations p n := by
  unfold rememberWrite
  cases hfound : tracer.liveAllocationContaining address with
  | none => exact Iff.rfl
  | some entry =>
      have hblock := (recordContaining_eq_some hfound).1
      rw [← markByteInitialized_size entry.2 address] at hblock
      exact hasBlock_insert_same hblock

theorem keepPreserved_freed (result preserved : U64) (tracer : MallocTracer) :
    (keepPreserved result preserved tracer).freed = tracer.freed := by
  unfold keepPreserved
  split <;> rfl

theorem rememberWrite_freed (address : U64) (tracer : MallocTracer) :
    (rememberWrite address tracer).freed = tracer.freed := by
  unfold rememberWrite
  split <;> rfl

theorem reportOnce_records (key : ErrorKey) (what : Report) (tracer : MallocTracer) :
    (reportOnce key what tracer).allocations = tracer.allocations ∧
      (reportOnce key what tracer).freed = tracer.freed := by
  unfold reportOnce
  split <;> exact ⟨rfl, rfl⟩

/-- A read changes no record. -/
theorem onMemoryRead_records (emulator : Emulator) (address : U64) (tracer : MallocTracer) :
    (onMemoryRead emulator address tracer).allocations = tracer.allocations ∧
      (onMemoryRead emulator address tracer).freed = tracer.freed := by
  unfold onMemoryRead
  split
  · exact ⟨rfl, rfl⟩
  split
  · exact ⟨rfl, rfl⟩
  split
  · exact reportOnce_records _ _ _
  split
  · exact ⟨rfl, rfl⟩
  split
  · exact reportOnce_records _ _ _
  · exact ⟨rfl, rfl⟩

/-- A write changes no record but the one it is remembered in. -/
theorem onMemoryWrite_remembers (emulator : Emulator) (address : U64) (tracer : MallocTracer) :
    (onMemoryWrite emulator address tracer).allocations =
        (if tracer.enabled then rememberWrite address tracer else tracer).allocations ∧
      (onMemoryWrite emulator address tracer).freed = tracer.freed := by
  have hreport : ∀ key what, (reportOnce key what (rememberWrite address tracer)).allocations =
      (rememberWrite address tracer).allocations ∧
      (reportOnce key what (rememberWrite address tracer)).freed = tracer.freed := by
    intro key what
    rcases reportOnce_records key what (rememberWrite address tracer) with ⟨hlive, hfreed⟩
    exact ⟨hlive, hfreed.trans (rememberWrite_freed address tracer)⟩
  unfold onMemoryWrite
  cases tracer.enabled with
  | false => exact ⟨rfl, rfl⟩
  | true =>
      simp only [Bool.not_true, Bool.false_eq_true, if_false, if_true]
      split
      · exact ⟨rfl, rememberWrite_freed address tracer⟩
      split
      · exact hreport _ _
      split
      · exact hreport _ _
      · exact ⟨rfl, rememberWrite_freed address tracer⟩

/-- A write changes no block. -/
theorem onMemoryWrite_records (emulator : Emulator) (address : U64) (tracer : MallocTracer) :
    (∀ p n, HasBlock (onMemoryWrite emulator address tracer).allocations p n ↔
      HasBlock tracer.allocations p n) ∧
      (onMemoryWrite emulator address tracer).freed = tracer.freed := by
  rcases onMemoryWrite_remembers emulator address tracer with ⟨hlive, hfreed⟩
  refine ⟨fun p n => ?_, hfreed⟩
  rw [hlive]
  split
  · exact hasBlock_rememberWrite p n
  · exact Iff.rfl

end MallocTracer

/-! ## Steps -/

namespace TracedEmulator

open MallocTracer

/-- The next step of the tracer leaves a function. -/
def leavesFunction (traced : TracedEmulator) : Bool :=
  traced.tracer.enabled && traced.tracer.activeFunction ≠ .none &&
    !isInternal traced.emulator traced.emulator.cpu.rip &&
    detectAllocationFunctionEntry traced.emulator traced.emulator.cpu.rip = .none

theorem leavesFunction_eq_true_iff {traced : TracedEmulator} :
    traced.leavesFunction = true ↔
      traced.tracer.enabled = true ∧ traced.tracer.activeFunction ≠ .none ∧
        isInternal traced.emulator traced.emulator.cpu.rip = false ∧
        detectAllocationFunctionEntry traced.emulator traced.emulator.cpu.rip = .none := by
  simp [leavesFunction, and_assoc]

/-- The size argument of an allocation function, if it allocates. -/
def sizeArgument (function : MallocTracer.Function) (args : U64 × U64) : Option U64 :=
  match function with
  | .malloc => some args.1
  | .calloc => some (args.1 * args.2)
  | .realloc => if args.1 ≠ 0 ∧ args.2 = 0 then none else some args.2
  | _ => none

/-- The size of the block that a function with the remembered arguments allocates. -/
def requestedSize (tracer : MallocTracer) : Option U64 :=
  sizeArgument tracer.activeFunction tracer.entryArgs

/-- The block that the allocator returns with the next step of the tracer. -/
def ReturnsBlock (traced : TracedEmulator) (ptr size : U64) : Prop :=
  traced.leavesFunction = true ∧ traced.emulator.cpu.reg .rax = ptr ∧ ptr ≠ 0 ∧
    requestedSize traced.tracer = some size

/-- The block is one that the function reallocates. -/
def Reallocates (traced : TracedEmulator) (ptr : U64) : Prop :=
  traced.tracer.activeFunction = .realloc ∧ traced.tracer.entryArgs.1 = ptr ∧ ptr ≠ 0

variable {traced traced' : TracedEmulator}

/-- The old block of a reallocation is moved to the freed ones, if it is known. -/
theorem releaseReallocated_records (oldPtr : U64) (tracer : MallocTracer) :
    (releaseReallocated oldPtr tracer).allocations = (moveToFreed oldPtr tracer).allocations ∧
      (releaseReallocated oldPtr tracer).freed = (moveToFreed oldPtr tracer).freed := by
  unfold releaseReallocated
  cases hfind : tracer.allocations.find? oldPtr with
  | some record => exact ⟨rfl, rfl⟩
  | none =>
      have hkept : moveToFreed oldPtr tracer = tracer := by
        rw [MallocTracer.moveToFreed, hfind]
      rw [hkept]
      dsimp only
      split <;> exact ⟨rfl, rfl⟩

/-- What leaving a function with a result can do to the tracer. -/
inductive LeaveOutcome (result : U64) (tracer left : MallocTracer) : Prop where
  | nothing (hnone : result = 0 ∨ requestedSize tracer = none) (h : left = tracer)
  | allocates {size : U64} (hresult : result ≠ 0) (hsize : requestedSize tracer = some size)
      (hplain : tracer.activeFunction = .realloc → tracer.entryArgs.1 = 0)
      (h : left = keepAllocation result size (tracer.activeFunction = .calloc) tracer)
  | frees (hfunction : tracer.activeFunction = .free) (hpending : tracer.pendingFreePtr ≠ 0)
      (h : left = { moveToFreed tracer.pendingFreePtr tracer with pendingFreePtr := 0 })
  | releases (hfunction : tracer.activeFunction = .realloc) (hold : tracer.entryArgs.1 ≠ 0)
      (hnone : result = 0 ∨ requestedSize tracer = none)
      (h : left = moveToFreed tracer.entryArgs.1 tracer ∧ tracer.entryArgs.2 = 0 ∨
        left = releaseReallocated tracer.entryArgs.1 tracer ∧ result = 0)
  | moves (hfunction : tracer.activeFunction = .realloc) (hold : tracer.entryArgs.1 ≠ 0)
      (hresult : result ≠ 0) (hsize : requestedSize tracer = some tracer.entryArgs.2)
      (h : left =
        keepPreserved result (stdMin (liveSize tracer tracer.entryArgs.1) tracer.entryArgs.2)
          (keepAllocation result tracer.entryArgs.2 false
            (releaseReallocated tracer.entryArgs.1 tracer)))

theorem leaveEffect_outcome (result : U64) (tracer : MallocTracer) :
    LeaveOutcome result tracer (leaveEffect result tracer) := by
  unfold leaveEffect
  cases hfunction : tracer.activeFunction with
  | none => exact .nothing (Or.inr (by simp [requestedSize, sizeArgument, hfunction])) rfl
  | malloc =>
      dsimp only
      split <;> rename_i hzero
      · exact .nothing (Or.inl hzero) rfl
      · exact .allocates hzero (by simp [requestedSize, sizeArgument, hfunction]; rfl)
          (by simp [hfunction]) (by simp [hfunction])
  | calloc =>
      dsimp only
      split <;> rename_i hzero
      · exact .nothing (Or.inl hzero) rfl
      · exact .allocates hzero (by simp [requestedSize, sizeArgument, hfunction]; rfl)
          (by simp [hfunction]) (by simp [hfunction])
  | free =>
      dsimp only
      split <;> rename_i hpending
      · exact .nothing (Or.inr (by simp [requestedSize, sizeArgument, hfunction])) rfl
      · exact .frees hfunction hpending rfl
  | realloc =>
      dsimp only
      split <;> rename_i hold
      · split <;> rename_i hzero
        · exact .nothing (Or.inl hzero) rfl
        · exact .allocates hzero (by simp [requestedSize, sizeArgument, hfunction, hold]; rfl)
            (fun _ => hold) (by simp [hfunction])
      have hsize : requestedSize tracer =
          if tracer.entryArgs.1 ≠ 0 ∧ tracer.entryArgs.2 = 0 then none
          else some tracer.entryArgs.2 := by
        simp only [requestedSize, sizeArgument, hfunction]
      split <;> rename_i hnew
      · rw [if_pos ⟨hold, hnew⟩] at hsize
        exact .releases hfunction hold (Or.inr hsize) (Or.inl ⟨rfl, hnew⟩)
      rw [if_neg fun h => hnew h.2] at hsize
      split <;> rename_i hzero
      · exact .releases hfunction hold (Or.inl hzero) (Or.inr ⟨rfl, hzero⟩)
      · exact .moves hfunction hold hzero hsize rfl

end TracedEmulator

/-! ## Reports -/

namespace MallocTracer

/-- The address lies in a live allocation that is recorded. -/
def InLiveAllocation (tracer : MallocTracer) (address : U64) : Prop :=
  ∃ ptr size, HasBlock tracer.allocations ptr size ∧ within ptr size.toNat address = true

end MallocTracer

namespace TracedEmulator

open MallocTracer

/-! ## Runs -/

section Splitting

/-- The guest reaches a state, and the tracer follows it. -/
def follow (traced : TracedEmulator) (emulator : Emulator) : TracedEmulator :=
  finalState (step ⟨emulator, traced.tracer⟩)

/-- A guest whose `malloc` is at `0x100` and whose `free` is at `0x200`. -/
def allocatingGuest (rip rax rdi : U64) : Emulator where
  mallocSymbol := { start := 0x100 }
  freeSymbol := { start := 0x200 }
  cpu := { ({} : SoftCPU64).setReg .rax rax |>.setReg .rdi rdi with rip := rip }

/-- One block of 64 bytes is allocated. -/
def afterMalloc : TracedEmulator :=
  TracedEmulator.mk {} { enabled := true }
    |>.follow (allocatingGuest 0x100 0 64)
    |>.follow (allocatingGuest 0x50 0x1000 64)

/-- A recorded block, looked up. -/
theorem inLiveAllocation_of_find {tracer : MallocTracer} {address : U64} (ptr size : U64)
    (hfind : (tracer.allocations.find? ptr).map AllocationRecord.size = some size)
    (hin : within ptr size.toNat address = true) : tracer.InLiveAllocation address :=
  ⟨ptr, size, hasBlock_of_find_size hfind, hin⟩

end Splitting

end TracedEmulator

end LUE
