import LinuxUserspaceEmulator.Emulator.Backtrace
import LinuxUserspaceEmulator.MallocTracer.Calls
import LinuxUserspaceEmulator.MallocTracer.HeapScan
import Mathlib.Data.BitVec

/-!
# The leak report

When the guest exits or the emulator gives up, `exec` prints the leak report, a backtrace
and the state.  Each of them follows pointers of the guest.

Main results:

- Theorem `diagnostics_return_iff`: the diagnostics return when the frames and the
  allocations that they come to can be read.
- Theorem `registerHeld_reported_iff`: a block whose base is in a register is reported as
  reachable when it has a byte.
-/

namespace LUE

open StateExcept SoftMMU MallocTracer TracedEmulator

/-! ## The report -/

/-- The lines of the leak report about one allocation. -/
structure LeakEntry where
  ptr : U64
  size : U64
  /-- "still reachable" or "definitely lost". -/
  stillReachable : Bool
  backtrace : List U64
deriving DecidableEq, Repr

/-- What `dump_leak_report` prints. -/
inductive LeakReport where
  /-- Nothing: the tracer is off. -/
  | disabled
  | noLeaks
  | leaks (totalLeaked : U64) (lostCount : Nat) (entries : List LeakEntry)
deriving DecidableEq, Repr

namespace TracedEmulator

/-- `dump_leak_report`. -/
def dumpLeakReport (traced : TracedEmulator) : Except Raise LeakReport :=
  if !traced.tracer.enabled then .ok .disabled
  else if traced.tracer.allocations.entries.isEmpty then .ok .noLeaks
  else do
    let reachable ← traced.computeReachableAllocations
    let entries := traced.tracer.allocations.entries.map fun (ptr, record) =>
      { ptr := ptr, size := record.size, stillReachable := ptr ∈ reachable,
        backtrace := record.backtrace : LeakEntry }
    return .leaks (entries.map LeakEntry.size).sum
      (entries.countP fun entry => !entry.stillReachable) entries

end TracedEmulator

/-- The report has a line for the allocation. -/
def LeakReport.Tells (report : LeakReport) (ptr : U64) (stillReachable : Bool) : Prop :=
  ∃ totalLeaked lostCount entries, report = .leaks totalLeaked lostCount entries ∧
    ∃ entry ∈ entries, entry.ptr = ptr ∧ entry.stillReachable = stillReachable

variable {traced : TracedEmulator} {ptr size : U64}

/-- The report returns when the tracer is off or the scan returns. -/
theorem dumpLeakReport_returns_iff (hwf : RegionsWellFormed traced.emulator.mmu.regions) :
    (∃ report, traced.dumpLeakReport = .ok report) ↔
      (traced.tracer.enabled = true → ScannedReadable traced) := by
  rw [← computeReachableAllocations_returns_iff hwf]
  unfold dumpLeakReport
  cases henabled : traced.tracer.enabled with
  | false => simp
  | true =>
      simp only [Bool.not_true, Bool.false_eq_true, if_false, forall_const]
      split <;> rename_i hempty
      · exact ⟨fun _ => ⟨∅, by rw [computeReachableAllocations, if_pos hempty]⟩,
          fun _ => ⟨_, rfl⟩⟩
      · constructor
        · rintro ⟨report, h⟩
          obtain ⟨reachable, hscan, -⟩ := except_bind_eq_ok_iff.mp h
          exact ⟨reachable, hscan⟩
        · rintro ⟨reachable, hscan⟩
          exact ⟨_, except_bind_of_ok hscan⟩

/-- Where every mapping can be read, every mapped frame can. -/
theorem framesReadable_of_readable {mmu : SoftMMU} (hwf : RegionsWellFormed mmu.regions)
    (h : ∀ region ∈ mmu.regions, region.prot &&& protRead = protRead) (start : U64) :
    FramesReadable mmu start := by
  intro depth _ frame _ _ hmapped i hi
  obtain ⟨cell, hcell⟩ := Option.ne_none_iff_exists'.mp (hmapped i hi)
  obtain ⟨region, hregion, -, hcellAt⟩ := (addressMap_eq_some_iff hwf).mp hcell
  exact permits_iff_access.mpr ⟨cell, AddressMap.access_eq_ok_iff.mpr
    ⟨hcell, by rw [← hcellAt]; exact h region hregion⟩⟩

/-! ## Blocks whose base is in a register -/

/-- The block has a byte, it ends before the end of the address space, and it is not at the
null pointer. -/
structure ProperBlock (ptr size : U64) : Prop where
  ne_zero : ptr ≠ 0
  size_pos : 0 < size.toNat
  end_lt : ptr.toNat + size.toNat < 2 ^ 64

/-- Only into such a block does a value point. -/
theorem TracedEmulator.PointsTo.properBlock {value : U64} (h : traced.PointsTo value ptr)
    (hblock : HasBlock traced.tracer.allocations ptr size) : ProperBlock ptr size := by
  obtain ⟨hbase, hne⟩ := h
  unfold containing at hbase
  split at hbase <;> rename_i record hfound
  · subst hbase
    unfold recordContaining at hfound
    split at hfound
    · cases hfound
    · split at hfound <;> rename_i hinside
      · cases hfound
        rw [ge_iff_le, BitVec.le_def, BitVec.lt_def, BitVec.toNat_add] at hinside
        rename_i hfloor
        have hmem := (OrderedMap.floor?_eq_some_iff.mp hfloor).1
        rw [hblock.eq_size ⟨_, hmem, rfl⟩]
        exact ⟨hne, by omega, by omega⟩
      · cases hfound
  · exact absurd hbase.symm hne

/-- The base of such a block points into it, whatever the other blocks are. -/
theorem ProperBlock.pointsTo_self (h : ProperBlock ptr size)
    (hblock : HasBlock traced.tracer.allocations ptr size) : traced.PointsTo ptr ptr := by
  rcases hblock with ⟨record, hrecord, rfl⟩
  have hfloor : traced.tracer.allocations.floor? ptr = some (ptr, record) :=
    OrderedMap.floor?_eq_some_iff.mpr ⟨hrecord, le_refl ptr, fun _ _ hle => hle⟩
  have hinside : ptr ≥ ptr ∧ ptr < ptr + record.size := by
    refine ⟨le_refl ptr, ?_⟩
    have hpos := h.size_pos
    have hend := h.end_lt
    rw [BitVec.lt_def, BitVec.toNat_add]
    omega
  refine ⟨?_, h.ne_zero⟩
  simp only [containing, recordContaining, hfloor]
  rw [if_pos hinside]

/-- The scan comes to a block whose base is in a register exactly when the block has a byte. -/
theorem scanned_iff_of_register {register : Register}
    (hheld : traced.emulator.cpu.reg register = ptr)
    (hblock : HasBlock traced.tracer.allocations ptr size) :
    Scanned traced ptr ↔ ProperBlock ptr size := by
  constructor
  · intro hscanned
    cases hscanned with
    | root _ hpoints => exact hpoints.properBlock hblock
    | link _ _ _ _ hpoints => exact hpoints.properBlock hblock
  · intro hproper
    have hroot : ScanRoot traced (traced.emulator.cpu.reg register) := .register register
    rw [hheld] at hroot
    exact .root hroot (hproper.pointsTo_self hblock)

/-- What the report of a run with a live allocation tells about it. -/
theorem tells_iff {report : LeakReport} (henabled : traced.tracer.enabled = true)
    (hreport : traced.dumpLeakReport = .ok report)
    (hblock : HasBlock traced.tracer.allocations ptr size) :
    ∃ reachable, traced.computeReachableAllocations = .ok reachable ∧
      ∀ told, report.Tells ptr told ↔ told = decide (ptr ∈ reachable) := by
  rcases hblock with ⟨record, hrecord, -⟩
  have hnonempty : traced.tracer.allocations.entries.isEmpty ≠ true := by
    intro hempty
    rw [List.isEmpty_iff.mp hempty] at hrecord
    cases hrecord
  rw [dumpLeakReport, henabled, if_neg (by decide), if_neg hnonempty] at hreport
  obtain ⟨reachable, hscan, hend⟩ := except_bind_eq_ok_iff.mp hreport
  refine ⟨reachable, hscan, fun told => ?_⟩
  cases hend
  constructor
  · rintro ⟨_, _, _, heq, entry, hentry, hptr, rfl⟩
    cases heq
    obtain ⟨⟨key, found⟩, -, rfl⟩ := List.mem_map.mp hentry
    exact congrArg (fun p => decide (p ∈ reachable)) hptr
  · rintro rfl
    exact ⟨_, _, _, rfl, _, List.mem_map.mpr ⟨_, hrecord, rfl⟩, rfl, rfl⟩

/-! ## A page with a frame and an allocation -/

/-- A page that holds a frame and an allocation whose base is in RAX, with the permission of
the page and the size of the allocation. -/
def framedPage (prot : Protection) (size : U64) : TracedEmulator where
  emulator :=
    { mmu := { regions := [Emulator.pageOf 0x1000 prot [0x20, 0x10, 0, 0, 0, 0, 0, 0, 1]] }
      cpu := (({} : SoftCPU64).setReg .rbp 0x1000).setReg .rax 0x1100 }
  tracer :=
    { enabled := true
      allocations := OrderedMap.empty.insert 0x1100 ⟨0x1100, size, [], false, []⟩ }

section FramedPage

variable (prot : Protection) (size : U64)

theorem framedPage_wellFormed : RegionsWellFormed (framedPage prot size).emulator.mmu.regions :=
  Emulator.regionsWellFormed_pageOf (by decide) (by decide) (by decide)

theorem framedPage_hasBlock {ptr n : U64} :
    HasBlock (framedPage prot size).tracer.allocations ptr n ↔ ptr = 0x1100 ∧ n = size := by
  change HasBlock (OrderedMap.empty.insert _ _) ptr n ↔ _
  rw [hasBlock_insert_iff]
  constructor
  · rintro (hfound | ⟨⟨record, hmem, -⟩, -⟩)
    · exact hfound
    · cases hmem
  · exact Or.inl

/-- The permissions in the page. -/
theorem framedPage_permits {address : U64} (hlow : 0x1000 ≤ address.toNat)
    (hhigh : address.toNat < 0x2000) (requiredProt : Protection) :
    Permits (framedPage prot size).emulator.mmu address requiredProt ↔
      prot &&& requiredProt = requiredProt := by
  have hwf := framedPage_wellFormed prot size
  have hmem : Emulator.pageOf 0x1000 prot [0x20, 0x10, 0, 0, 0, 0, 0, 0, 1] ∈
      (framedPage prot size).emulator.mmu.regions := List.mem_singleton_self _
  have hcontains : (Emulator.pageOf 0x1000 prot [0x20, 0x10, 0, 0, 0, 0, 0, 0, 1]).contains
      address = true := by
    rw [(hwf.wellFormed _ hmem).contains_iff]
    change 0x1000 ≤ address.toNat ∧ address.toNat < 0x1000 + 4096
    omega
  have hcell := (addressMap_eq_some_iff hwf).mpr ⟨_, hmem, hcontains, rfl⟩
  have hprot : protections (framedPage prot size).emulator.mmu address = some prot := by
    rw [protections, hcell]
    rfl
  simp [Permits, hprot]

/-- In a readable page everything is readable. -/
theorem framedPage_readable (hprot : prot &&& protRead = protRead) (hsize : size.toNat ≤ 0xf00) :
    FramesReadable (framedPage prot size).emulator.mmu
        ((framedPage prot size).emulator.cpu.reg .rbp) ∧
      ScannedReadable (framedPage prot size) := by
  constructor
  · apply framesReadable_of_readable (framedPage_wellFormed prot size)
    intro region hregion
    rw [List.mem_singleton.mp hregion]
    exact hprot
  · intro ptr n _ hblock k hk i hi
    obtain ⟨rfl, rfl⟩ := (framedPage_hasBlock prot size).mp hblock
    have haddress : (0x1100 + BitVec.ofNat 64 (8 * k) + BitVec.ofNat 64 i : U64).toNat =
        0x1100 + 8 * k + i := by
      have hbase : (0x1100 : U64).toNat = 0x1100 := rfl
      rw [BitVec.toNat_add, BitVec.toNat_add, BitVec.toNat_ofNat, BitVec.toNat_ofNat, hbase]
      omega
    exact (framedPage_permits prot _ (by omega) (by omega) protRead).mpr hprot

end FramedPage

/-! ## Main results -/

/-- The diagnostics of an exit or a crash return exactly when every frame of the walk that is
mapped can be read, and, with the tracer, every allocation that the scan comes to. -/
theorem diagnostics_return_iff (hwf : RegionsWellFormed traced.emulator.mmu.regions) :
    ((∃ backtrace, rawBacktrace traced.emulator = .ok backtrace) ∧
        (∃ dump, dumpState traced.emulator = .ok dump) ∧
        ∃ report, traced.dumpLeakReport = .ok report) ↔
      FramesReadable traced.emulator.mmu (traced.emulator.cpu.reg .rbp) ∧
        (traced.tracer.enabled = true → ScannedReadable traced) := by
  rw [rawBacktrace_returns_iff hwf, dumpState_returns_iff hwf, dumpLeakReport_returns_iff hwf,
    ← and_assoc, and_self]

/-- The diagnostics of a guest with a readable page return. -/
theorem diagnostics_return_iff_readable :
    (∃ backtrace, rawBacktrace (framedPage (protRead ||| protWrite) 16).emulator =
        .ok backtrace) ∧
      (∃ dump, dumpState (framedPage (protRead ||| protWrite) 16).emulator = .ok dump) ∧
      ∃ report, (framedPage (protRead ||| protWrite) 16).dumpLeakReport = .ok report := by
  obtain ⟨hframes, hscanned⟩ := framedPage_readable (protRead ||| protWrite) 16 (by decide)
    (by decide)
  exact (diagnostics_return_iff (framedPage_wellFormed _ _)).mpr ⟨hframes, fun _ => hscanned⟩

/-- They raise in a guest that keeps the page for writing only. -/
theorem diagnostics_raise :
    rawBacktrace (framedPage protWrite 16).emulator =
        .error (.emulatorError "guest memory permission fault at 0x1000 in ") ∧
      dumpState (framedPage protWrite 16).emulator =
        .error (.emulatorError "guest memory permission fault at 0x1000 in ") ∧
      ¬∃ report, (framedPage protWrite 16).dumpLeakReport = .ok report := by
  have hbacktrace : rawBacktrace (framedPage protWrite 16).emulator =
      .error (.emulatorError "guest memory permission fault at 0x1000 in ") := by
    decide
  refine ⟨hbacktrace, by rw [dumpState, hbacktrace]; rfl, ?_⟩
  rw [dumpLeakReport_returns_iff (framedPage_wellFormed _ _)]
  intro hreadable
  have hblock := (framedPage_hasBlock protWrite 16).mpr ⟨rfl, rfl⟩
  have hscanned : Scanned (framedPage protWrite 16) 0x1100 :=
    (@scanned_iff_of_register _ _ _ .rax rfl hblock).mpr ⟨by decide, by decide, by decide⟩
  have hpermits := hreadable rfl _ _ hscanned hblock 0 (by decide) 0 (by decide)
  rw [framedPage_permits protWrite 16 (by decide) (by decide)] at hpermits
  exact absurd hpermits (by decide)

/-- A live allocation whose base is in a register is found and reported as reachable exactly
when it has a byte. -/
theorem registerHeld_reported_iff (hwf : RegionsWellFormed traced.emulator.mmu.regions)
    (henabled : traced.tracer.enabled = true) {report : LeakReport}
    (hreport : traced.dumpLeakReport = .ok report) {register : Register}
    (hheld : traced.emulator.cpu.reg register = ptr)
    (hblock : HasBlock traced.tracer.allocations ptr size) :
    (∃ reachable, traced.computeReachableAllocations = .ok reachable ∧ ptr ∈ reachable) ∧
        report.Tells ptr true ↔
      ProperBlock ptr size := by
  obtain ⟨reachable, hscan, htells⟩ := tells_iff henabled hreport hblock
  rw [← scanned_iff_of_register hheld hblock, ← mem_computeReachableAllocations_iff hwf hscan,
    htells, eq_comm, decide_eq_true_eq]
  constructor
  · exact And.right
  · exact fun hmem => ⟨⟨reachable, hscan, hmem⟩, hmem⟩

/-- A block of sixteen bytes. -/
theorem registerHeld_reported_iff_sixteen :
    ∃ report, (framedPage (protRead ||| protWrite) 16).dumpLeakReport = .ok report ∧
      (∃ reachable, (framedPage (protRead ||| protWrite) 16).computeReachableAllocations =
        .ok reachable ∧ 0x1100 ∈ reachable) ∧ report.Tells 0x1100 true := by
  have hwf := framedPage_wellFormed (protRead ||| protWrite) 16
  obtain ⟨report, hreport⟩ := (dumpLeakReport_returns_iff hwf).mpr fun _ =>
    (framedPage_readable (protRead ||| protWrite) 16 (by decide) (by decide)).2
  have hblock := (framedPage_hasBlock (protRead ||| protWrite) 16).mpr ⟨rfl, rfl⟩
  exact ⟨report, hreport, (@registerHeld_reported_iff _ _ _ hwf rfl _ hreport .rax rfl hblock).mpr
    ⟨by decide, by decide, by decide⟩⟩

/-- An empty block whose base is in RAX is reported as lost. -/
theorem empty_block_lost :
    ∃ report, (framedPage (protRead ||| protWrite) 0).dumpLeakReport = .ok report ∧
      HasBlock (framedPage (protRead ||| protWrite) 0).tracer.allocations 0x1100 0 ∧
      (framedPage (protRead ||| protWrite) 0).emulator.cpu.reg .rax = 0x1100 ∧
      report.Tells 0x1100 false ∧ ¬report.Tells 0x1100 true := by
  have hwf := framedPage_wellFormed (protRead ||| protWrite) 0
  obtain ⟨report, hreport⟩ := (dumpLeakReport_returns_iff hwf).mpr fun _ =>
    (framedPage_readable (protRead ||| protWrite) 0 (by decide) (by decide)).2
  have hblock := (framedPage_hasBlock (protRead ||| protWrite) 0).mpr ⟨rfl, rfl⟩
  obtain ⟨reachable, hscan, htells⟩ := tells_iff rfl hreport hblock
  have hnot : ¬(0x1100 : U64) ∈ reachable := by
    intro hmem
    have hscanned := (mem_computeReachableAllocations_iff hwf hscan).mp hmem
    have hproper := (@scanned_iff_of_register _ _ _ .rax rfl hblock).mp hscanned
    exact absurd hproper.size_pos (by decide)
  refine ⟨report, hreport, hblock, rfl, ?_, ?_⟩
  · exact (htells false).mpr (decide_eq_false hnot).symm
  · intro htold
    exact hnot (of_decide_eq_true ((htells true).mp htold).symm)

end LUE
