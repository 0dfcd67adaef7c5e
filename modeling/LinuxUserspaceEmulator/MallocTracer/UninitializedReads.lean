import LinuxUserspaceEmulator.MallocTracer.Calls
import LinuxUserspaceEmulator.MallocTracer.RecordTable
import LinuxUserspaceEmulator.MallocTracer.Reallocation

/-!
# Reads of uninitialized memory

A record has a mark for each of its bytes, set by every write that the observer of the memory
hears of: those of the guest, of its C library and of system calls.  A read from the guest's
own code at an unmarked byte is reported.

Main results:

- Theorem `marksFollow_event`: one event keeps the marks in step with the history.
- Theorem `uninitializedRead_iff_of_run`: a read is reported exactly when the block is from
  `malloc` and the byte has not been written since.
-/

namespace LUE

open StateExcept TracedEmulator MallocTracer

/-! ## Histories -/

/-- What the history of a run keeps of its events. -/
inductive Happening where
  | recorded (ptr : U64) (function : MallocTracer.Function)
  | wrote (address : U64)
deriving DecidableEq, Repr

/-- The block at a pointer is from `malloc`, and no write to an address has happened since it
was recorded.  The latest happening comes first. -/
def NeverWritten (ptr address : U64) (history : List Happening) : Prop :=
  ∃ later earlier, history = later ++ .recorded ptr .malloc :: earlier ∧
    (∀ function, .recorded ptr function ∉ later) ∧ .wrote address ∉ later

section Histories

variable {ptr address other : U64} {function : MallocTracer.Function}
  {history : List Happening}

theorem neverWritten_wrote_iff :
    NeverWritten ptr address (.wrote other :: history) ↔
      other ≠ address ∧ NeverWritten ptr address history := by
  constructor
  · rintro ⟨later, earlier, hsplit, hrecorded, hwrote⟩
    cases later with
    | nil => cases hsplit
    | cons happening later =>
        cases hsplit
        simp only [List.mem_cons, not_or] at hrecorded hwrote
        refine ⟨fun heq => hwrote.1 (by rw [heq]), later, earlier, rfl, ?_, hwrote.2⟩
        exact fun function => (hrecorded function).2
  · rintro ⟨hne, later, earlier, rfl, hrecorded, hwrote⟩
    refine ⟨.wrote other :: later, earlier, rfl, ?_, ?_⟩
    · simpa using hrecorded
    · simpa [Ne.symm hne] using hwrote

/-- The block that has just been recorded. -/
theorem neverWritten_recorded_self_iff :
    NeverWritten ptr address (.recorded ptr function :: history) ↔ function = .malloc := by
  constructor
  · rintro ⟨later, earlier, hsplit, hrecorded, -⟩
    cases later with
    | nil =>
        cases hsplit
        rfl
    | cons happening later =>
        cases hsplit
        exact absurd List.mem_cons_self (hrecorded function)
  · rintro rfl
    exact ⟨[], history, rfl, by simp, by simp⟩

/-- Recording a block says nothing of the others. -/
theorem neverWritten_recorded_iff (hne : other ≠ ptr) :
    NeverWritten ptr address (.recorded other function :: history) ↔
      NeverWritten ptr address history := by
  constructor
  · rintro ⟨later, earlier, hsplit, hrecorded, hwrote⟩
    cases later with
    | nil =>
        cases hsplit
        exact absurd rfl hne
    | cons happening later =>
        cases hsplit
        simp only [List.mem_cons, not_or] at hrecorded hwrote
        exact ⟨later, earlier, rfl, fun function => (hrecorded function).2, hwrote.2⟩
  · rintro ⟨later, earlier, rfl, hrecorded, hwrote⟩
    refine ⟨.recorded other function :: later, earlier, rfl, ?_, ?_⟩
    · simpa [Ne.symm hne] using hrecorded
    · simpa using hwrote

end Histories

/-! ## Runs -/

/-- The block that the next step of the tracer records, and the function it is from. -/
def recordings (traced : TracedEmulator) : List Happening :=
  (recordedBlock traced).toList.map fun block =>
    .recorded block.1 traced.tracer.activeFunction

/-- A correct allocator, of which the guest does not call `realloc`. -/
def AllocatesWithoutRealloc (traced : TracedEmulator) : Prop :=
  traced.AllocatesApart ∧ traced.tracer.activeFunction ≠ .realloc

/-- An event, with what the history keeps of it. -/
inductive LoggedEvent : TracedEmulator → List Happening → TracedEmulator → Prop where
  | guest {emulator emulator' : Emulator} {tracer : MallocTracer} :
      LoggedEvent ⟨emulator, tracer⟩ [] ⟨emulator', tracer⟩
  | step {traced traced' : TracedEmulator} (hallowed : AllocatesWithoutRealloc traced)
      (h : TracedEmulator.step traced = .ok () traced') :
      LoggedEvent traced (recordings traced) traced'
  | read {emulator : Emulator} {tracer : MallocTracer} (address : U64) :
      LoggedEvent ⟨emulator, tracer⟩ [] ⟨emulator, onMemoryRead emulator address tracer⟩
  | write {emulator : Emulator} {tracer : MallocTracer} (address : U64) :
      LoggedEvent ⟨emulator, tracer⟩ [.wrote address]
        ⟨emulator, onMemoryWrite emulator address tracer⟩

/-- A run with its history. -/
inductive LoggedRun (start : TracedEmulator) : TracedEmulator → List Happening → Prop where
  | start : LoggedRun start start []
  | event {traced traced' : TracedEmulator} {history happened : List Happening}
      (run : LoggedRun start traced history) (h : LoggedEvent traced happened traced') :
      LoggedRun start traced' (happened ++ history)

/-! ## Marks -/

/-- The unmarked bytes of the tracked live blocks are those that were never written. -/
structure MarksFollow (tracer : MallocTracer) (history : List Happening) : Prop where
  table : TableInvariant tracer
  enabled : tracer.enabled = true
  unmarked : ∀ p record, (p, record) ∈ tracer.allocations.entries →
    record.size ≤ maxTrackedInitBytes → ∀ i < record.size.toNat,
      (record.initialized[i]? = some false ↔
        NeverWritten p (p + BitVec.ofNat 64 i) history)

namespace MarksFollow

variable {tracer tracer' : MallocTracer} {history : List Happening}
  {record : AllocationRecord} {ptr size address : U64}

/-- The marks are those of the live records. -/
theorem congr (h : MarksFollow tracer history) (hlive : tracer'.allocations = tracer.allocations)
    (hfreed : tracer'.freed = tracer.freed) (henabled : tracer'.enabled = tracer.enabled) :
    MarksFollow tracer' history where
  table := h.table.congr hlive hfreed
  enabled := henabled.trans h.enabled
  unmarked := by
    rw [hlive]
    exact h.unmarked

/-- The mark of a byte that exists is set or not. -/
theorem getElem?_eq_some_false_iff {marks : List Bool} {i : Nat} (hi : i < marks.length) :
    marks[i]? = some false ↔ ¬marks[i]? = some true := by
  rw [List.getElem?_eq_getElem hi]
  simp

/-- Writing a byte of a record leaves the other bytes unmarked that were. -/
theorem markByteInitialized_unmarked {i : Nat} (hi : i < record.initialized.length)
    (haddress : within record.ptr record.size.toNat address = true)
    (hfits : record.ptr.toNat + i < 2 ^ 64) :
    (markByteInitialized record address).initialized[i]? = some false ↔
      address ≠ record.ptr + BitVec.ofNat 64 i ∧ record.initialized[i]? = some false := by
  have hoffset := eq_offset_of_within haddress
  rw [within_iff] at haddress
  have hsame : address = record.ptr + BitVec.ofNat 64 i ↔
      i = address.toNat - record.ptr.toNat := by
    rw [← BitVec.toNat_inj, BitVec.toNat_add, BitVec.toNat_ofNat]
    omega
  have hmarked := markByteInitialized_marked (i := i) record
    (show address.toNat - record.ptr.toNat < 2 ^ 64 by omega)
  rw [← hoffset] at hmarked
  rw [getElem?_eq_some_false_iff (by rwa [markByteInitialized_length]),
    getElem?_eq_some_false_iff hi, hmarked, Ne, hsame]
  tauto

/-- A write sets its mark, and the history keeps it. -/
theorem rememberWrite (h : MarksFollow tracer history) :
    MarksFollow (tracer.rememberWrite address) (.wrote address :: history) where
  table := h.table.rememberWrite
  enabled := by
    unfold MallocTracer.rememberWrite
    split <;> exact h.enabled
  unmarked := by
    intro p edited hmem hsize i hi
    rw [neverWritten_wrote_iff]
    -- a record whose block the address is not in
    have hother : ∀ record, (p, record) ∈ tracer.allocations.entries →
        record.size ≤ maxTrackedInitBytes → i < record.size.toNat →
        tracer.liveAllocationContaining address ≠ some (p, record) →
        (record.initialized[i]? = some false ↔
          address ≠ p + BitVec.ofNat 64 i ∧
            NeverWritten p (p + BitVec.ofNat 64 i) history) := by
      intro record hlive hsize hi hfound
      have hend := h.table.fits p record.size ⟨record, hlive, rfl⟩
      have hne : address ≠ p + BitVec.ofNat 64 i := by
        rintro rfl
        exact hfound (h.table.liveAllocationContaining_eq_some_iff.mpr
          ⟨hlive, within_offset hend.le hi⟩)
      rw [h.unmarked p record hlive hsize i hi]
      simp [hne]
    unfold MallocTracer.rememberWrite at hmem
    cases hfound : tracer.liveAllocationContaining address with
    | none =>
        rw [hfound] at hmem
        exact hother edited hmem hsize hi (by simp [hfound])
    | some entry =>
        rcases entry with ⟨base, record⟩
        rw [hfound] at hmem
        rcases h.table.liveAllocationContaining_eq_some_iff.mp hfound with ⟨hlive, hin⟩
        rcases OrderedMap.mem_insert_iff.mp hmem with hedited | ⟨hold, hne⟩
        · cases hedited
          have hsound := h.table.live p record hlive
          have hend := h.table.fits p record.size ⟨record, hlive, rfl⟩
          rw [markByteInitialized_size] at hsize hi
          have hlength := hsound.marks
          rw [if_pos hsize] at hlength
          have hptr := hsound.ptr
          subst hptr
          rw [markByteInitialized_unmarked (by rwa [hlength]) hin (by omega),
            h.unmarked _ record hlive hsize i hi]
        · refine hother edited hold hsize hi ?_
          rw [hfound]
          intro heq
          cases heq
          exact hne rfl

theorem onMemoryWrite (h : MarksFollow tracer history) (emulator : Emulator) :
    MarksFollow (tracer.onMemoryWrite emulator address) (.wrote address :: history) := by
  rcases onMemoryWrite_remembers emulator address tracer with ⟨hlive, hfreed⟩
  rw [if_pos h.enabled] at hlive
  have hremembered : MarksFollow (tracer.rememberWrite address) (.wrote address :: history) :=
    h.rememberWrite
  refine hremembered.congr hlive (hfreed.trans (rememberWrite_freed address tracer).symm) ?_
  rw [hremembered.enabled, (KeepsCall.onMemoryWrite emulator address tracer).enabled, h.enabled]

theorem onMemoryRead (h : MarksFollow tracer history) (emulator : Emulator) :
    MarksFollow (tracer.onMemoryRead emulator address) history := by
  rcases onMemoryRead_records emulator address tracer with ⟨hlive, hfreed⟩
  exact h.congr hlive hfreed (KeepsCall.onMemoryRead emulator address tracer).enabled

/-- A block that has just been recorded has the marks of its function. -/
theorem keepAllocation {function : MallocTracer.Function}
    (h : MarksFollow tracer history)
    (htable : TableInvariant (tracer.keepAllocation ptr size (function = .calloc)))
    (hfunction : function = .malloc ∨ function = .calloc) :
    MarksFollow (tracer.keepAllocation ptr size (function = .calloc))
      (.recorded ptr function :: history) where
  table := htable
  enabled := h.enabled
  unmarked := by
    intro p record hmem hsize i hi
    rcases OrderedMap.mem_insert_iff.mp hmem with hnew | ⟨hold, hne⟩
    · cases hnew
      have hmarks : (tracer.newRecord ptr size (function = .calloc)).initialized =
          List.replicate size.toNat (decide (function = .calloc)) := if_pos hsize
      rw [neverWritten_recorded_self_iff, hmarks,
        List.getElem?_replicate_of_lt (show i < size.toNat from hi)]
      rcases hfunction with rfl | rfl <;> simp
    · rw [neverWritten_recorded_iff (Ne.symm hne)]
      exact h.unmarked p record hold hsize i hi

/-- Freeing a block changes no mark of the others. -/
theorem moveToFreed (h : MarksFollow tracer history) :
    MarksFollow (tracer.moveToFreed ptr) history where
  table := h.table.moveToFreed
  enabled := by
    unfold MallocTracer.moveToFreed
    split <;> exact h.enabled
  unmarked := by
    intro p record hmem
    have hold : (p, record) ∈ tracer.allocations.entries := by
      unfold MallocTracer.moveToFreed at hmem
      split at hmem
      · exact hmem
      · exact (OrderedMap.mem_erase_iff.mp hmem).1
    exact h.unmarked p record hold

end MarksFollow

/-! ## Steps -/

variable {traced traced' : TracedEmulator} {history happened : List Happening}

theorem recordings_of_none (h : recordedBlock traced = none) : recordings traced = [] := by
  rw [recordings, h]
  rfl

/-- Leaving a function keeps the marks in step. -/
theorem marksFollow_leaveEffect (h : MarksFollow traced.tracer history)
    (hleaves : traced.leavesFunction = true) (hallowed : AllocatesWithoutRealloc traced) :
    MarksFollow (leaveEffect (traced.emulator.cpu.reg .rax) traced.tracer)
      (recordings traced ++ history) := by
  have htable := tableInvariant_leaveEffect h.table hleaves hallowed.1
  cases leaveEffect_outcome (traced.emulator.cpu.reg .rax) traced.tracer with
  | nothing hnone hleft =>
      have hrecorded : recordedBlock traced = none := by
        unfold recordedBlock
        split <;> rename_i hboth
        · rcases hnone with hzero | hsize
          · exact absurd hzero hboth.2
          · rw [hsize]
            rfl
        · rfl
      rwa [recordings_of_none hrecorded, hleft]
  | @allocates size hresult hsize hplain hleft =>
      have hrecorded := recordedBlock_eq_some_iff.mpr ⟨hleaves, rfl, hresult, hsize⟩
      have hfunction : traced.tracer.activeFunction = .malloc ∨
          traced.tracer.activeFunction = .calloc := by
        have hnot := hallowed.2
        unfold requestedSize at hsize
        cases hactive : traced.tracer.activeFunction <;> simp_all [sizeArgument]
      rw [hleft] at htable ⊢
      rw [recordings, hrecorded]
      exact h.keepAllocation htable hfunction
  | frees hfunction hpending hleft =>
      have hrecorded : recordedBlock traced = none := by
        simp [recordedBlock, requestedSize, sizeArgument, hfunction]
      rw [recordings_of_none hrecorded, hleft]
      exact h.moveToFreed.congr rfl rfl rfl
  | releases hfunction => exact absurd hfunction hallowed.2
  | moves hfunction => exact absurd hfunction hallowed.2

/-- One step of the tracer keeps the marks in step. -/
theorem marksFollow_step (h : MarksFollow traced.tracer history)
    (hallowed : AllocatesWithoutRealloc traced)
    (hstep : TracedEmulator.step traced = .ok () traced') :
    MarksFollow traced'.tracer (recordings traced ++ history) := by
  cases step_outcome hstep with
  | ignores hignores hkept =>
      rw [recordings_of_none (recordedBlock_of_not_leaves hignores.not_leaves)]
      exact hkept ▸ h
  | enters henabled hidle hentry hcaller henters =>
      have hstays : traced.leavesFunction ≠ true := fun hleaves =>
        (leavesFunction_eq_true_iff.mp hleaves).2.1 hidle
      rw [recordings_of_none (recordedBlock_of_not_leaves hstays)]
      exact h.congr henters.allocations henters.freed henters.enabled
  | leaves henabled hbusy houtside hnone hleft =>
      have hleaves : traced.leavesFunction = true :=
        leavesFunction_eq_true_iff.mpr ⟨henabled, hbusy, houtside, hnone⟩
      rw [hleft]
      exact (marksFollow_leaveEffect h hleaves hallowed).congr rfl rfl rfl

/-- An event keeps the marks in step with the history. -/
theorem marksFollow_event (hevent : LoggedEvent traced happened traced')
    (h : MarksFollow traced.tracer history) :
    MarksFollow traced'.tracer (happened ++ history) := by
  cases hevent with
  | guest => exact h
  | step hallowed hstep => exact marksFollow_step h hallowed hstep
  | read address => exact h.onMemoryRead _
  | write address => exact h.onMemoryWrite _

theorem marksFollow_of_run {emulator : Emulator}
    (hrun : LoggedRun ⟨emulator, { enabled := true }⟩ traced history) :
    MarksFollow traced.tracer history := by
  induction hrun with
  | start =>
      refine ⟨tableInvariant_start, rfl, ?_⟩
      intro p record hmem
      cases hmem
  | event _ hevent ih => exact marksFollow_event hevent ih

/-! ## Reports -/

/-- The read at an address is reported as one of an uninitialized byte of a block. -/
def ReportsUninitializedRead (traced : TracedEmulator) (ptr address : U64) : Prop :=
  ∃ record, (onMemoryRead traced.emulator address traced.tracer).reports =
    traced.tracer.reports ++ [.uninitializedRead address ptr record]

/-- The instruction has not been reported for such a read yet. -/
def InstructionUnreported (traced : TracedEmulator) : Prop :=
  .uninitRead traced.emulator.cpu.rip ∉ traced.tracer.reportedMemoryErrors

/-- The test of the tracer finds the bytes that were never written. -/
theorem isUnwritten_iff {tracer : MallocTracer} {record : AllocationRecord} {ptr address : U64}
    (h : MarksFollow tracer history) (hmem : (ptr, record) ∈ tracer.allocations.entries)
    (hsize : record.size ≤ maxTrackedInitBytes)
    (hin : within ptr record.size.toNat address = true) :
    isUnwritten record address = true ↔ NeverWritten ptr address history := by
  have hptr := (h.table.live ptr record hmem).ptr
  rw [within_iff] at hin
  have hoffset : (address - ptr).toNat = address.toNat - ptr.toNat := by
    rw [BitVec.toNat_sub]
    omega
  have haddress : ptr + BitVec.ofNat 64 (address - ptr).toNat = address := by
    rw [BitVec.ofNat_toNat, BitVec.setWidth_eq, BitVec.add_comm, BitVec.sub_add_cancel]
  have hmark := h.unmarked ptr record hmem hsize (address - ptr).toNat (by omega)
  rw [haddress] at hmark
  rw [← hmark, isUnwritten, hptr]
  cases record.initialized[(address - ptr).toNat]? with
  | none => simp
  | some written => simp

/-- The guest's own code reads a live block at an address in no freed one. -/
theorem onMemoryRead_of_live {emulator : Emulator} {tracer : MallocTracer}
    {record : AllocationRecord} {ptr address : U64} (h : MarksFollow tracer history)
    (hidle : tracer.activeFunction = .none)
    (hguest : isInternal emulator emulator.cpu.rip = false)
    (hmem : (ptr, record) ∈ tracer.allocations.entries)
    (hin : within ptr record.size.toNat address = true)
    (hfreed : ∀ q m, HasBlock tracer.freed q m → within q m.toNat address = false) :
    onMemoryRead emulator address tracer =
      if isUnwritten record address then
        reportOnce (.uninitRead emulator.cpu.rip) (.uninitializedRead address ptr record) tracer
      else tracer := by
  have hmissed : tracer.freedAllocationContaining address = none := by
    cases hfound : tracer.freedAllocationContaining address with
    | none => rfl
    | some entry =>
        rcases recordContaining_eq_some hfound with ⟨hblock, hin'⟩
        rw [hfreed _ _ hblock] at hin'
        cases hin'
  have hfound := h.table.liveAllocationContaining_eq_some_iff.mpr ⟨hmem, hin⟩
  have hptr := (h.table.live ptr record hmem).ptr
  have hheard : ignoresAccess emulator tracer = false := by
    simp [ignoresAccess, hidle, hguest]
  simp only [onMemoryRead, h.enabled, hheard, hmissed, hfound, hptr, Bool.not_true,
    Bool.false_eq_true, if_false]

/-- In every run of a correct allocator without `realloc`, a read of a live block from the
guest's own code is reported exactly when the block is from `malloc` and the byte was never
written, once for each instruction; a read that is not reported changes nothing. -/
theorem uninitializedRead_iff_of_run {emulator : Emulator} {ptr size address : U64}
    (hrun : LoggedRun ⟨emulator, { enabled := true }⟩ traced history)
    (hidle : traced.tracer.activeFunction = .none)
    (hguest : isInternal traced.emulator traced.emulator.cpu.rip = false)
    (hblock : HasBlock traced.tracer.allocations ptr size)
    (hsize : size ≤ maxTrackedInitBytes) (hin : within ptr size.toNat address = true)
    (hfreed : ∀ q m, HasBlock traced.tracer.freed q m → within q m.toNat address = false) :
    (ReportsUninitializedRead traced ptr address ↔
        NeverWritten ptr address history ∧ InstructionUnreported traced) ∧
      (¬ReportsUninitializedRead traced ptr address →
        onMemoryRead traced.emulator address traced.tracer = traced.tracer) := by
  have hfollow := marksFollow_of_run hrun
  rcases hblock with ⟨record, hmem, rfl⟩
  have hread := onMemoryRead_of_live hfollow hidle hguest hmem hin hfreed
  unfold ReportsUninitializedRead InstructionUnreported
  rw [hread, ← isUnwritten_iff hfollow hmem hsize hin]
  cases isUnwritten record address with
  | false => simp
  | true =>
      unfold reportOnce
      by_cases hreported :
          ErrorKey.uninitRead traced.emulator.cpu.rip ∈ traced.tracer.reportedMemoryErrors
      · simp [hreported]
      · simp [hreported]

/-! ## An unwritten byte -/

theorem loggedRun_follow {start : TracedEmulator}
    (hrun : LoggedRun start traced history) (emulator : Emulator)
    (hallowed : AllocatesWithoutRealloc ⟨emulator, traced.tracer⟩)
    (hreturned : returned (TracedEmulator.step ⟨emulator, traced.tracer⟩) = some ()) :
    LoggedRun start (traced.follow emulator)
      (recordings ⟨emulator, traced.tracer⟩ ++ history) :=
  (hrun.event .guest).event (.step hallowed (eq_ok_of_returned hreturned))

/-- A block of 64 bytes, of which the guest reads one that it has not written. -/
theorem uninitializedRead_iff_of_run_malloc :
    ReportsUninitializedRead ⟨allocatingGuest 0x60 0 0, afterMalloc.tracer⟩ 0x1000 0x1010 := by
  have hstart : LoggedRun ⟨{}, { enabled := true }⟩ ⟨{}, { enabled := true }⟩ [] := .start
  have hentered := loggedRun_follow hstart (allocatingGuest 0x100 0 64)
    ⟨allocatesApart_of_first (by decide), by decide⟩ (by decide)
  have hleft := loggedRun_follow hentered (allocatingGuest 0x50 0x1000 64)
    ⟨allocatesApart_of_first (by decide), by decide⟩ (by decide)
  have hrun : LoggedRun ⟨{}, { enabled := true }⟩
      ⟨allocatingGuest 0x60 0 0, afterMalloc.tracer⟩ [.recorded 0x1000 .malloc] :=
    hleft.event .guest
  have hblock : HasBlock afterMalloc.tracer.allocations 0x1000 64 :=
    hasBlock_of_find_size (by decide)
  have hfreed : ∀ q m, HasBlock afterMalloc.tracer.freed q m →
      within q m.toNat 0x1010 = false := by
    have hnone : afterMalloc.tracer.freed.entries = [] := by decide
    rintro q m ⟨record, hmem, -⟩
    rw [hnone] at hmem
    cases hmem
  have hunreported :
      InstructionUnreported ⟨allocatingGuest 0x60 0 0, afterMalloc.tracer⟩ := by
    unfold InstructionUnreported
    decide
  have hiff := (uninitializedRead_iff_of_run hrun (by decide) (by decide) hblock
    (by decide) (by decide) hfreed).1
  exact hiff.mpr ⟨neverWritten_recorded_self_iff.mpr rfl, hunreported⟩

end LUE
