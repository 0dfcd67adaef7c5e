import LinuxUserspaceEmulator.Library.OrderedMap
import LinuxUserspaceEmulator.LinuxSyscalls.Dispatch
import Mathlib.Order.Basic

/-!
# The allocation tracer

`MallocTracer` watches the instruction pointer for calls of the guest's allocator and keeps
a record of every allocation that is live or has been freed.  Its member functions read the
emulator, so they are programs over the emulator and the tracer together.

What the tracer prints is kept as the list of its reports.
-/

namespace LUE

open StateExcept

/-- Addresses are ordered as unsigned numbers. -/
instance : LinearOrder U64 where
  le_refl := BitVec.le_refl
  le_trans _ _ _ := BitVec.le_trans
  lt_iff_le_not_ge a b := by
    simp only [BitVec.lt_def, BitVec.le_def]
    omega
  le_antisymm a b hab hba := BitVec.le_antisymm hab hba
  le_total a b := BitVec.le_total a b
  toDecidableLE := inferInstance
  toDecidableEq := inferInstance
  toDecidableLT := inferInstance

/-! ## Images -/

namespace Emulator

/-- `image_containing`. -/
def imageContaining (emulator : Emulator) (address : U64) : Option LoadedImage :=
  emulator.loadedImages.find? fun image =>
    address ≥ image.base && address < image.endAddress

/-- The test that `is_in_libc` and `is_in_loader` share. -/
def isInImageOfKind (emulator : Emulator) (kind : String) (address : U64) : Bool :=
  match emulator.imageContaining address with
  | some image => image.kind = kind
  | none => false

/-- `is_in_libc`. -/
def isInLibc (emulator : Emulator) (address : U64) : Bool :=
  emulator.isInImageOfKind "libc" address

/-- `is_in_loader`. -/
def isInLoader (emulator : Emulator) (address : U64) : Bool :=
  emulator.isInImageOfKind "loader" address

end Emulator

/-! ## State -/

namespace MallocTracer

/-- The allocation functions that are traced. -/
inductive Function where
  | none
  | malloc
  | free
  | realloc
  | calloc
deriving DecidableEq, Repr

/-- `AllocationRecord`. -/
structure AllocationRecord where
  ptr : U64
  size : U64
  backtrace : List U64
  freed : Bool
  /-- Which bytes the guest has written; empty for an allocation that is not tracked. -/
  initialized : List Bool
deriving DecidableEq, Repr

/-- The key under which an error is reported at most once. -/
inductive ErrorKey where
  | overflow (address : U64)
  | uaf (address : U64)
  | uafRead (rip : U64)
  | uninitRead (rip : U64)
deriving DecidableEq, Repr

/-- What the tracer reports, without the backtrace of the access. -/
inductive Report where
  | doubleFree (ptr : U64) (record : AllocationRecord)
  | invalidFree (ptr : U64)
  | reallocError (message : String) (ptr : U64) (record : Option AllocationRecord)
  | heapOverflow (address ptr : U64) (record : AllocationRecord)
  | useAfterFree (address ptr : U64) (record : AllocationRecord)
  | useAfterFreeRead (address ptr : U64) (record : AllocationRecord)
  | uninitializedRead (address ptr : U64) (record : AllocationRecord)
deriving DecidableEq, Repr

/-- `redzone_size`. -/
def redzoneSize : U64 := 16

/-- `max_tracked_init_bytes`. -/
def maxTrackedInitBytes : U64 := 1 <<< 20

end MallocTracer

/-- The state of `MallocTracer`. -/
structure MallocTracer where
  enabled : Bool := false
  activeFunction : MallocTracer.Function := .none
  entryArgs : U64 × U64 := (0, 0)
  pendingFreePtr : U64 := 0
  entryBacktrace : List U64 := []
  allocations : OrderedMap U64 MallocTracer.AllocationRecord := .empty
  freed : OrderedMap U64 MallocTracer.AllocationRecord := .empty
  reportedMemoryErrors : List MallocTracer.ErrorKey := []
  reports : List MallocTracer.Report := []

/-- The emulator with its tracer. -/
structure TracedEmulator where
  emulator : Emulator
  tracer : MallocTracer

/-- A member function of the tracer. -/
abbrev TracerProgram (α : Type) := EStateM Raise TracedEmulator α

namespace MallocTracer

/-! ## Lookups -/

/-- The interval lookup of `live_allocation_containing` and `freed_allocation_containing`. -/
def recordContaining (records : OrderedMap U64 AllocationRecord) (address : U64) :
    Option (U64 × AllocationRecord) :=
  match records.floor? address with
  | none => none
  | some (base, record) =>
      if address ≥ base ∧ address < base + record.size then some (base, record) else none

/-- `live_allocation_containing`. -/
def liveAllocationContaining (tracer : MallocTracer) (address : U64) :
    Option (U64 × AllocationRecord) :=
  recordContaining tracer.allocations address

/-- `freed_allocation_containing`. -/
def freedAllocationContaining (tracer : MallocTracer) (address : U64) :
    Option (U64 × AllocationRecord) :=
  recordContaining tracer.freed address

/-! ## Records -/

/-- `mark_byte_initialized`. -/
def markByteInitialized (record : AllocationRecord) (address : U64) : AllocationRecord :=
  if record.initialized.isEmpty then record
  else
    let offset := address - record.ptr
    if offset.toNat < record.initialized.length then
      { record with initialized := record.initialized.set offset.toNat true }
    else record

/-- Mark the bytes that `realloc` has preserved. -/
def markBytesInitialized (record : AllocationRecord) (address : U64) : Nat → AllocationRecord
  | 0 => record
  | count + 1 =>
      markByteInitialized (markBytesInitialized record address count)
        (address + BitVec.ofNat 64 count)

/-- A new report. -/
def report (report : Report) (tracer : MallocTracer) : MallocTracer :=
  { tracer with reports := tracer.reports ++ [report] }

/-- A report that is made at most once for its key. -/
def reportOnce (key : ErrorKey) (what : Report) (tracer : MallocTracer) : MallocTracer :=
  if key ∈ tracer.reportedMemoryErrors then tracer
  else
    { tracer with
      reportedMemoryErrors := key :: tracer.reportedMemoryErrors
      reports := tracer.reports ++ [what] }

/-- `move_to_freed`. -/
def moveToFreed (ptr : U64) (tracer : MallocTracer) : MallocTracer :=
  match tracer.allocations.find? ptr with
  | none => tracer
  | some record =>
      { tracer with
        allocations := tracer.allocations.erase ptr
        freed := tracer.freed.insert ptr { record with freed := true } }

/-- The record that `record_allocation` builds. -/
def newRecord (tracer : MallocTracer) (ptr size : U64) (initialized : Bool) :
    AllocationRecord where
  ptr := ptr
  size := size
  backtrace := tracer.entryBacktrace
  freed := false
  initialized :=
    if size ≤ maxTrackedInitBytes then List.replicate size.toNat initialized else []

/-- The part of `record_allocation` that keeps the record. -/
def keepAllocation (ptr size : U64) (initialized : Bool) (tracer : MallocTracer) :
    MallocTracer :=
  { tracer with
    allocations := tracer.allocations.insert ptr (tracer.newRecord ptr size initialized)
    freed := tracer.freed.erase ptr }

/-- Mark a live record's preserved bytes, as `on_realloc_leave` does. -/
def keepPreserved (result preserved : U64) (tracer : MallocTracer) : MallocTracer :=
  match tracer.liveAllocationContaining result with
  | none => tracer
  | some (base, record) =>
      { tracer with
        allocations := tracer.allocations.insert base
          (markBytesInitialized record result preserved.toNat) }

end MallocTracer

/-! ## Programs -/

namespace TracedEmulator

open MallocTracer

/-- Change the tracer. -/
def modifyTracer (f : MallocTracer → MallocTracer) : TracerProgram Unit :=
  modify fun traced => { traced with tracer := f traced.tracer }

/-- `try { … } catch (const EmulatorError&) { }` around a program of the memory. -/
def ignoreEmulatorError (program : MMUProgram Unit) : MMUProgram Unit := fun mmu =>
  match program mmu with
  | .error (.emulatorError _) mmu' => .ok () mmu'
  | result => result

/-- Run a member function of the memory-management unit. -/
def onTracedMMU (program : MMUProgram Unit) : TracerProgram Unit :=
  onPart TracedEmulator.emulator (fun traced emulator => { traced with emulator := emulator })
    (onMMU program)

/-- `record_allocation`. -/
def recordAllocation (ptr size : U64) (initialized : Bool) : TracerProgram Unit := do
  modifyTracer (keepAllocation ptr size initialized)
  onTracedMMU (ignoreEmulatorError (SoftMMU.markInitialized ptr size true))

/-! ## Entering and leaving a function -/

/-- `on_free_enter`. -/
def onFreeEnter (ptr : U64) (tracer : MallocTracer) : MallocTracer :=
  let tracer := { tracer with pendingFreePtr := 0 }
  if ptr = 0 then tracer
  else
    match tracer.freed.find? ptr with
    | some record => report (.doubleFree ptr record) tracer
    | none =>
        match tracer.allocations.find? ptr with
        | none => report (.invalidFree ptr) tracer
        | some _ => { tracer with pendingFreePtr := ptr }

/-- `on_function_enter`. -/
def onFunctionEnter (function : Function) : TracerProgram Unit := do
  let traced ← get
  let backtrace ← observe fun traced => rawBacktrace traced.emulator
  let rdi := traced.emulator.cpu.reg .rdi
  let rsi := traced.emulator.cpu.reg .rsi
  modifyTracer fun tracer =>
    { tracer with entryBacktrace := backtrace, entryArgs := (rdi, rsi) }
  if function = .free then
    modifyTracer (onFreeEnter rdi)

/-- `on_malloc_leave`. -/
def onMallocLeave (result : U64) : TracerProgram Unit := do
  let traced ← get
  if result ≠ 0 then
    recordAllocation result traced.tracer.entryArgs.1 false

/-- `on_free_leave`. -/
def onFreeLeave : TracerProgram Unit :=
  modifyTracer fun tracer =>
    if tracer.pendingFreePtr = 0 then tracer
    else { moveToFreed tracer.pendingFreePtr tracer with pendingFreePtr := 0 }

/-- The part of `on_realloc_leave` about the old pointer: its record is moved, or its misuse
is reported. -/
def releaseReallocated (oldPtr : U64) (tracer : MallocTracer) : MallocTracer :=
  match tracer.allocations.find? oldPtr with
  | some _ => moveToFreed oldPtr tracer
  | none =>
      match tracer.freed.find? oldPtr with
      | some record =>
          report (.reallocError "realloc of freed pointer" oldPtr (some record)) tracer
      | none => report (.reallocError "realloc of unknown pointer" oldPtr none) tracer

/-- The size of a live allocation, zero for other pointers. -/
def liveSize (tracer : MallocTracer) (ptr : U64) : U64 :=
  match tracer.allocations.find? ptr with
  | some record => record.size
  | none => 0

/-- `on_realloc_leave`. -/
def onReallocLeave (result : U64) : TracerProgram Unit := do
  let traced ← get
  let oldPtr := traced.tracer.entryArgs.1
  let newSize := traced.tracer.entryArgs.2
  if oldPtr = 0 then
    if result ≠ 0 then
      recordAllocation result newSize false
  else if newSize = 0 then
    modifyTracer (moveToFreed oldPtr)
  else
    let oldSize := liveSize traced.tracer oldPtr
    modifyTracer (releaseReallocated oldPtr)
    if result ≠ 0 then
      recordAllocation result newSize false
      modifyTracer (keepPreserved result (stdMin oldSize newSize))

/-- `on_calloc_leave`. -/
def onCallocLeave (result : U64) : TracerProgram Unit := do
  let traced ← get
  if result ≠ 0 then
    recordAllocation result (traced.tracer.entryArgs.1 * traced.tracer.entryArgs.2) true

/-- `on_function_leave`. -/
def onFunctionLeave : TracerProgram Unit := do
  let traced ← get
  let result := traced.emulator.cpu.reg .rax
  match traced.tracer.activeFunction with
  | .malloc => onMallocLeave result
  | .free => onFreeLeave
  | .realloc => onReallocLeave result
  | .calloc => onCallocLeave result
  | .none => return ()

/-- What leaving a function does to the tracer. -/
def leaveEffect (result : U64) (tracer : MallocTracer) : MallocTracer :=
  let args := tracer.entryArgs
  match tracer.activeFunction with
  | .none => tracer
  | .malloc => if result = 0 then tracer else keepAllocation result args.1 false tracer
  | .free =>
      if tracer.pendingFreePtr = 0 then tracer
      else { moveToFreed tracer.pendingFreePtr tracer with pendingFreePtr := 0 }
  | .realloc =>
      if args.1 = 0 then
        if result = 0 then tracer else keepAllocation result args.2 false tracer
      else if args.2 = 0 then moveToFreed args.1 tracer
      else if result = 0 then releaseReallocated args.1 tracer
      else
        keepPreserved result (stdMin (liveSize tracer args.1) args.2)
          (keepAllocation result args.2 false (releaseReallocated args.1 tracer))
  | .calloc =>
      if result = 0 then tracer else keepAllocation result (args.1 * args.2) true tracer

theorem recordAllocation_tracer {ptr size : U64} {initialized : Bool}
    {traced traced' : TracedEmulator}
    (h : recordAllocation ptr size initialized traced = .ok () traced') :
    traced'.tracer = keepAllocation ptr size initialized traced.tracer := by
  rcases bind_eq_ok_iff.mp h with ⟨_, kept, hkept, hmark⟩
  cases hkept
  rcases onPart_eq_ok_iff.mp hmark with ⟨emulator, -, rfl⟩
  rfl

/-- An allocation function that returns no pointer records nothing. -/
theorem recordReturned_tracer {result size : U64} {initialized : Bool}
    {traced traced' : TracedEmulator}
    (h : (if result ≠ 0 then recordAllocation result size initialized else pure ()) traced =
      .ok () traced') :
    traced'.tracer =
      if result = 0 then traced.tracer
      else keepAllocation result size initialized traced.tracer := by
  split at h <;> rename_i hzero
  · rw [if_neg hzero]
    exact recordAllocation_tracer h
  · cases h
    rw [if_pos (not_not.mp hzero)]

/-- `realloc` to a size that is not zero. -/
theorem onReallocLeave_tracer {result : U64} {traced traced' : TracedEmulator}
    (hold : traced.tracer.entryArgs.1 ≠ 0) (hnew : traced.tracer.entryArgs.2 ≠ 0)
    (h : onReallocLeave result traced = .ok () traced') :
    traced'.tracer =
      if result = 0 then releaseReallocated traced.tracer.entryArgs.1 traced.tracer
      else
        keepPreserved result
          (stdMin (liveSize traced.tracer traced.tracer.entryArgs.1) traced.tracer.entryArgs.2)
          (keepAllocation result traced.tracer.entryArgs.2 false
            (releaseReallocated traced.tracer.entryArgs.1 traced.tracer)) := by
  rw [onReallocLeave, bind_of_ok (get_apply traced)] at h
  dsimp only at h
  rw [if_neg hold, if_neg hnew] at h
  rcases bind_eq_ok_iff.mp h with ⟨_, released, hreleased, hrest⟩
  cases hreleased
  split at hrest <;> rename_i hzero
  · rcases bind_eq_ok_iff.mp hrest with ⟨_, recorded, hrecorded, hpreserved⟩
    have htracer := recordAllocation_tracer hrecorded
    cases hpreserved
    simp only [if_neg hzero, htracer]
  · cases hrest
    simp only [if_pos (not_not.mp hzero)]

/-- Leaving a function that returns has its effect on the tracer. -/
theorem onFunctionLeave_tracer {traced traced' : TracedEmulator}
    (h : onFunctionLeave traced = .ok () traced') :
    traced'.tracer = leaveEffect (traced.emulator.cpu.reg .rax) traced.tracer := by
  rw [onFunctionLeave, bind_of_ok (get_apply traced)] at h
  unfold leaveEffect
  cases hfunction : traced.tracer.activeFunction with
  | none =>
      rw [hfunction] at h
      cases h
      rfl
  | malloc =>
      rw [hfunction] at h
      change onMallocLeave _ traced = _ at h
      rw [onMallocLeave, bind_of_ok (get_apply traced)] at h
      exact recordReturned_tracer h
  | free =>
      rw [hfunction] at h
      cases h
      rfl
  | realloc =>
      rw [hfunction] at h
      change onReallocLeave _ traced = _ at h
      by_cases hold : traced.tracer.entryArgs.1 = 0
      · rw [onReallocLeave, bind_of_ok (get_apply traced)] at h
        dsimp only at h ⊢
        rw [if_pos hold] at h
        simp only [if_pos hold]
        exact recordReturned_tracer h
      by_cases hnew : traced.tracer.entryArgs.2 = 0
      · rw [onReallocLeave, bind_of_ok (get_apply traced)] at h
        dsimp only at h ⊢
        rw [if_neg hold, if_pos hnew] at h
        cases h
        simp only [if_neg hold, if_pos hnew]
      · simp only [if_neg hold, if_neg hnew]
        exact onReallocLeave_tracer hold hnew h
  | calloc =>
      rw [hfunction] at h
      change onCallocLeave _ traced = _ at h
      rw [onCallocLeave, bind_of_ok (get_apply traced)] at h
      exact recordReturned_tracer h

/-! ## Following the instruction pointer -/

/-- `detect_allocation_function_entry`. -/
def detectAllocationFunctionEntry (emulator : Emulator) (address : U64) : Function :=
  let isEntry (symbol : SymbolRange) : Bool := symbol.start ≠ 0 && address = symbol.start
  if isEntry emulator.mallocSymbol then .malloc
  else if isEntry emulator.freeSymbol then .free
  else if isEntry emulator.reallocSymbol then .realloc
  else if isEntry emulator.callocSymbol then .calloc
  else .none

/-- `is_internal`. -/
def isInternal (emulator : Emulator) (address : U64) : Bool :=
  emulator.isInLibc address || emulator.isInLoader address

/-- `caller_is_internal`. -/
def callerIsInternal (emulator : Emulator) : Except Raise Bool :=
  match emulator.mmu.read64 (emulator.cpu.reg .rsp) with
  | .ok address => .ok (isInternal emulator address)
  | .error (.emulatorError _) => .ok false
  | .error raise => .error raise

/-- `step`, when no function is active. -/
def stepOutside (current : Function) : TracerProgram Unit := do
  if current ≠ .none then
    let internal ← observe fun traced => callerIsInternal traced.emulator
    if !internal then
      modifyTracer fun tracer => { tracer with activeFunction := current }
      onFunctionEnter current

/-- `step`, when a function is active. -/
def stepInside (rip : U64) (current : Function) : TracerProgram Unit := do
  let traced ← get
  if !isInternal traced.emulator rip && current = .none then
    onFunctionLeave
    modifyTracer fun tracer => { tracer with activeFunction := .none }

/-- `step`. -/
def step : TracerProgram Unit := do
  let traced ← get
  if traced.tracer.enabled then
    let rip := traced.emulator.cpu.rip
    let current := detectAllocationFunctionEntry traced.emulator rip
    if traced.tracer.activeFunction = .none then stepOutside current
    else stepInside rip current

/-- The tracer follows a call from its entry. -/
structure EntersFunction (function : Function) (traced traced' : TracedEmulator) : Prop where
  emulator : traced'.emulator = traced.emulator
  active : traced'.tracer.activeFunction = function
  args : traced'.tracer.entryArgs =
    (traced.emulator.cpu.reg .rdi, traced.emulator.cpu.reg .rsi)
  allocations : traced'.tracer.allocations = traced.tracer.allocations
  freed : traced'.tracer.freed = traced.tracer.freed
  enabled : traced'.tracer.enabled = traced.tracer.enabled

/-- The step of the tracer has nothing to follow: it is off, or no call is entered, or the
call it follows goes on. -/
def Ignores (traced : TracedEmulator) : Prop :=
  let current := detectAllocationFunctionEntry traced.emulator traced.emulator.cpu.rip
  traced.tracer.enabled = false ∨
    traced.tracer.activeFunction = .none ∧
      (current = .none ∨ callerIsInternal traced.emulator = .ok true) ∨
    traced.tracer.activeFunction ≠ .none ∧
      (isInternal traced.emulator traced.emulator.cpu.rip = true ∨ current ≠ .none)

/-- The ways in which a step of the tracer can return. -/
inductive StepOutcome (traced traced' : TracedEmulator) : Prop where
  | ignores (hignores : traced.Ignores) (h : traced' = traced)
  | enters (henabled : traced.tracer.enabled = true)
      (hidle : traced.tracer.activeFunction = .none)
      (hentry : detectAllocationFunctionEntry traced.emulator traced.emulator.cpu.rip ≠ .none)
      (hcaller : callerIsInternal traced.emulator = .ok false)
      (h : EntersFunction
        (detectAllocationFunctionEntry traced.emulator traced.emulator.cpu.rip) traced traced')
  | leaves (henabled : traced.tracer.enabled = true)
      (hactive : traced.tracer.activeFunction ≠ .none)
      (houtside : isInternal traced.emulator traced.emulator.cpu.rip = false)
      (hentry : detectAllocationFunctionEntry traced.emulator traced.emulator.cpu.rip = .none)
      (h : traced'.tracer =
        { leaveEffect (traced.emulator.cpu.reg .rax) traced.tracer with activeFunction := .none })

theorem onFreeEnter_keeps (ptr : U64) (tracer : MallocTracer) :
    (onFreeEnter ptr tracer).activeFunction = tracer.activeFunction ∧
      (onFreeEnter ptr tracer).entryArgs = tracer.entryArgs ∧
      (onFreeEnter ptr tracer).allocations = tracer.allocations ∧
      (onFreeEnter ptr tracer).freed = tracer.freed ∧
      (onFreeEnter ptr tracer).enabled = tracer.enabled := by
  unfold onFreeEnter
  dsimp only
  split
  · exact ⟨rfl, rfl, rfl, rfl, rfl⟩
  split
  · exact ⟨rfl, rfl, rfl, rfl, rfl⟩
  split <;> exact ⟨rfl, rfl, rfl, rfl, rfl⟩

theorem onFunctionEnter_eq_ok {function : Function} {traced traced' : TracedEmulator}
    (h : (do
      modifyTracer fun tracer => { tracer with activeFunction := function }
      onFunctionEnter function : TracerProgram Unit) traced = .ok () traced') :
    EntersFunction function traced traced' := by
  rcases bind_eq_ok_iff.mp h with ⟨_, active, hactive, henter⟩
  cases hactive
  rw [onFunctionEnter, bind_of_ok (get_apply _)] at henter
  rcases bind_eq_ok_iff.mp henter with ⟨backtrace, observed, hobserve, hrest⟩
  rcases observe_eq_ok_iff.mp hobserve with ⟨-, rfl⟩
  rcases bind_eq_ok_iff.mp hrest with ⟨_, entered, hentered, hfree⟩
  cases hentered
  split at hfree
  · cases hfree
    rcases onFreeEnter_keeps (traced.emulator.cpu.reg .rdi) _ with
      ⟨hactive, hargs, hallocations, hfreed, henabled⟩
    exact ⟨rfl, hactive, hargs, hallocations, hfreed, henabled⟩
  · cases hfree
    exact ⟨rfl, rfl, rfl, rfl, rfl, rfl⟩

theorem step_outcome {traced traced' : TracedEmulator} (h : step traced = .ok () traced') :
    StepOutcome traced traced' := by
  rw [step, bind_of_ok (get_apply traced)] at h
  split at h <;> rename_i henabled
  · dsimp only at h
    by_cases hidle : traced.tracer.activeFunction = .none
    · rw [if_pos hidle] at h
      unfold stepOutside at h
      split at h <;> rename_i hentry
      · rcases bind_eq_ok_iff.mp h with ⟨internal, observed, hobserve, henter⟩
        rcases observe_eq_ok_iff.mp hobserve with ⟨hcaller, rfl⟩
        cases internal with
        | true =>
            cases henter
            exact .ignores (Or.inr (Or.inl ⟨hidle, Or.inr hcaller⟩)) rfl
        | false => exact .enters henabled hidle hentry hcaller (onFunctionEnter_eq_ok henter)
      · cases h
        exact .ignores (Or.inr (Or.inl ⟨hidle, Or.inl (not_not.mp hentry)⟩)) rfl
    · rw [if_neg hidle, stepInside, bind_of_ok (get_apply traced)] at h
      split at h <;> rename_i hleaves
      · rcases bind_eq_ok_iff.mp h with ⟨_, left, hleave, hreturn⟩
        cases hreturn
        simp only [Bool.and_eq_true, Bool.not_eq_true', decide_eq_true_eq] at hleaves
        refine .leaves henabled hidle hleaves.1 hleaves.2 ?_
        rw [← onFunctionLeave_tracer hleave]
      · cases h
        refine .ignores (Or.inr (Or.inr ⟨hidle, ?_⟩)) rfl
        by_cases hinternal : isInternal traced.emulator traced.emulator.cpu.rip = true
        · exact Or.inl hinternal
        · refine Or.inr fun hnone => hleaves ?_
          simp [hinternal, hnone]
  · cases h
    exact .ignores (Or.inl (Bool.eq_false_of_not_eq_true henabled)) rfl

end TracedEmulator

/-! ## Memory accesses -/

namespace MallocTracer

open TracedEmulator

/-- Whether accesses are diagnosed: not in the allocator and not in internal code. -/
def ignoresAccess (emulator : Emulator) (tracer : MallocTracer) : Bool :=
  tracer.activeFunction ≠ .none || isInternal emulator emulator.cpu.rip

/-- The first allocation whose red zone contains an address. -/
def overflowedAllocation (tracer : MallocTracer) (address : U64) :
    Option (U64 × AllocationRecord) :=
  tracer.allocations.entries.find? fun entry =>
    address ≥ entry.1 + entry.2.size && address < entry.1 + entry.2.size + redzoneSize

/-- A write into a live allocation is remembered, wherever it comes from. -/
def rememberWrite (address : U64) (tracer : MallocTracer) : MallocTracer :=
  match tracer.liveAllocationContaining address with
  | none => tracer
  | some (base, record) =>
      { tracer with
        allocations := tracer.allocations.insert base (markByteInitialized record address) }

/-- `on_memory_write`, with the emulator as it is during the access. -/
def onMemoryWrite (emulator : Emulator) (address : U64) (tracer : MallocTracer) :
    MallocTracer :=
  if !tracer.enabled then tracer
  else
    let tracer := rememberWrite address tracer
    if ignoresAccess emulator tracer then tracer
    else
      match tracer.freedAllocationContaining address with
      | some (_, freed) =>
          reportOnce (.uaf address) (.useAfterFree address freed.ptr freed) tracer
      | none =>
          match tracer.overflowedAllocation address with
          | some (ptr, record) =>
              reportOnce (.overflow address) (.heapOverflow address ptr record) tracer
          | none => tracer

/-- The test for a byte the guest never wrote. -/
def isUnwritten (record : AllocationRecord) (address : U64) : Bool :=
  match record.initialized[(address - record.ptr).toNat]? with
  | some written => !written
  | none => false

/-- `on_memory_read`, with the emulator as it is during the access. -/
def onMemoryRead (emulator : Emulator) (address : U64) (tracer : MallocTracer) : MallocTracer :=
  if !tracer.enabled then tracer
  else if ignoresAccess emulator tracer then tracer
  else
    match tracer.freedAllocationContaining address with
    | some (_, freed) =>
        reportOnce (.uafRead emulator.cpu.rip) (.useAfterFreeRead address freed.ptr freed)
          tracer
    | none =>
        match tracer.liveAllocationContaining address with
        | none => tracer
        | some (_, record) =>
            if isUnwritten record address then
              reportOnce (.uninitRead emulator.cpu.rip)
                (.uninitializedRead address record.ptr record) tracer
            else tracer

end MallocTracer

end LUE
