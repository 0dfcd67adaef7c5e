import LinuxUserspaceEmulator.LinuxSyscalls.Brk
import LinuxUserspaceEmulator.SoftMMU.Writing

/-!
# Pages that the break gains, and requests that cannot be met

`set_brk` maps zeroed pages behind the heap, and keeps the pages of the heap when the break
moves down.  When the break moves up again over these pages, the guest finds what it wrote
there before.

A request that overlaps another mapping raises; a request whose end cannot be rounded up moves
the break over memory that nobody has mapped.

Main results:

- Theorem `heapHolds_of_run`: in every run the heap holds what the guest wrote last, and zeros
  elsewhere.
- Theorem `raisedPages_zero_iff`: the whole pages that a call adds below the break read as zero
  exactly when the guest has written nothing else to those that were mapped.
- Theorem `setBrk_failsClosed_iff`: a request that cannot be met leaves the break exactly when
  it asks for the current one.
-/

namespace LUE

open StateExcept SoftMMU

namespace Emulator

/-! ## The pages of the heap -/

/-- What every call keeps: the heap ends at a page behind its start. -/
structure HeapPages (emulator : Emulator) : Prop where
  wellFormed : RegionsWellFormed emulator.mmu.regions
  start_le : emulator.brkStart ≤ emulator.brk
  start_le_end : emulator.brkStart ≤ emulator.brkRegionEnd
  end_mod : emulator.brkRegionEnd.toNat % 4096 = 0

variable {emulator emulator' : Emulator} {requested r : U64}

theorem heapPages_initBrk (brkStart : U64) (hwf : RegionsWellFormed emulator.mmu.regions) :
    HeapPages (emulator.initBrk brkStart) :=
  ⟨hwf, BitVec.le_refl _, BitVec.le_refl _, pageAlignUp_mod brkStart⟩

/-- A step of the rest of the emulator that does not move the break; it may unmap pages of the
heap. -/
structure KeepsBreak (emulator emulator' : Emulator) : Prop where
  brkStart : emulator'.brkStart = emulator.brkStart
  brk : emulator'.brk = emulator.brk
  brkRegionEnd : emulator'.brkRegionEnd = emulator.brkRegionEnd
  wellFormed : RegionsWellFormed emulator.mmu.regions → RegionsWellFormed emulator'.mmu.regions

theorem KeepsHeap.keepsBreak (h : KeepsHeap emulator emulator') : KeepsBreak emulator emulator' :=
  ⟨h.brkStart, h.brk, h.brkRegionEnd, h.wellFormed⟩

theorem HeapPages.of_keepsBreak (h : HeapPages emulator) (hkeeps : KeepsBreak emulator emulator') :
    HeapPages emulator' := by
  refine ⟨hkeeps.wellFormed h.wellFormed, ?_, ?_, ?_⟩
  · rw [hkeeps.brkStart, hkeeps.brk]
    exact h.start_le
  · rw [hkeeps.brkStart, hkeeps.brkRegionEnd]
    exact h.start_le_end
  · rw [hkeeps.brkRegionEnd]
    exact h.end_mod

/-- A call keeps the pages, whatever is requested. -/
theorem HeapPages.setBrk (h : HeapPages emulator)
    (hcall : setBrk requested emulator = .ok r emulator') : HeapPages emulator' := by
  cases setBrk_outcome hcall with
  | query => exact h
  | move hstart hwithin => exact ⟨h.wellFormed, hstart, h.start_le_end, h.end_mod⟩
  | extend hstart hend hnew hmap =>
      have hmapped := mapZeroed_pages h.wellFormed h.end_mod (pageAlignUp_mod requested) hnew hmap
      refine ⟨hmapped.1, hstart, ?_, pageAlignUp_mod requested⟩
      have hle := BitVec.le_def.mp h.start_le_end
      rw [BitVec.lt_def] at hnew
      rw [BitVec.le_def]
      change emulator.brkStart.toNat ≤ (pageAlignUp requested).toNat
      omega

/-- The states that calls of `set_brk` that return and steps of the rest of the emulator
lead to. -/
inductive BreakRun (start : Emulator) : Emulator → Prop where
  | start : BreakRun start start
  | call {requested r : U64} {emulator emulator' : Emulator} (run : BreakRun start emulator)
      (h : setBrk requested emulator = .ok r emulator') : BreakRun start emulator'
  | other {emulator emulator' : Emulator} (run : BreakRun start emulator)
      (h : KeepsBreak emulator emulator') : BreakRun start emulator'

theorem heapPages_of_run {initial : Emulator} {brkStart : U64}
    (hwf : RegionsWellFormed initial.mmu.regions)
    (hrun : BreakRun (initial.initBrk brkStart) emulator) : HeapPages emulator := by
  induction hrun with
  | start => exact heapPages_initBrk brkStart hwf
  | call run h ih => exact ih.setBrk h
  | other run h ih => exact ih.of_keepsBreak h

/-! ## What the guest has written -/

/-- The runs from one state, with the byte that the guest wrote last at every address: calls
of `set_brk` that return, writes of the guest to the heap, and steps of the rest of the emulator
that leave the heap alone. -/
inductive HeapRun (start : Emulator) : (U64 → U8) → Emulator → Prop where
  | start : HeapRun start (fun _ => 0) start
  | call {written : U64 → U8} {requested r : U64} {emulator emulator' : Emulator}
      (run : HeapRun start written emulator)
      (h : setBrk requested emulator = .ok r emulator') : HeapRun start written emulator'
  | write {written : U64 → U8} {emulator : Emulator} {mmu : SoftMMU} {address : U64}
      {value : ValueWithShadow 8} (run : HeapRun start written emulator)
      (hin : emulator.InHeap address)
      (h : write8WithShadow address value emulator.mmu = .ok () mmu) :
      HeapRun start (Function.update written address value.value) { emulator with mmu := mmu }
  | other {written : U64 → U8} {emulator emulator' : Emulator}
      (run : HeapRun start written emulator) (h : KeepsHeap emulator emulator')
      (hbytes : ∀ a, emulator.InHeap a → (emulator'.mmu.addressMap a).map Cell.byte =
        (emulator.mmu.addressMap a).map Cell.byte) :
      HeapRun start written emulator'

/-- The heap can be read and written, and holds what the guest has written; there is nothing
written behind it. -/
structure HeapHolds (written : U64 → U8) (emulator : Emulator) : Prop
    extends HeapPages emulator where
  holds : ∀ a, emulator.InHeap a → ∃ cell, emulator.mmu.addressMap a = some cell ∧
    cell.byte = written a ∧ cell.prot &&& protRead = protRead ∧
    cell.prot &&& protWrite = protWrite
  unwritten : ∀ a, ¬a < emulator.brkRegionEnd → written a = 0

variable {written : U64 → U8}

theorem heapHolds_initBrk (brkStart : U64) (hwf : RegionsWellFormed emulator.mmu.regions) :
    HeapHolds (fun _ => 0) (emulator.initBrk brkStart) where
  toHeapPages := heapPages_initBrk brkStart hwf
  holds := by
    intro a ha
    have hle : (pageAlignUp brkStart).toNat ≤ a.toNat := ha.1
    have hlt : a.toNat < (pageAlignUp brkStart).toNat := ha.2
    omega
  unwritten _ _ := rfl

/-- The bytes of the heap are the ones that were written. -/
theorem HeapHolds.read8 (h : HeapHolds written emulator) {a : U64} (ha : emulator.InHeap a) :
    emulator.mmu.read8 a = .ok (written a) := by
  rcases h.holds a ha with ⟨cell, hcell, hbyte, hread, -⟩
  rw [read8_eq_access h.wellFormed, AddressMap.access_eq_ok_iff.mpr ⟨hcell, hread⟩, ← hbyte]
  rfl

/-- The guest can write every byte of the heap. -/
theorem HeapHolds.write8 (h : HeapHolds written emulator) {a : U64} (ha : emulator.InHeap a)
    (value : ValueWithShadow 8) :
    ∃ mmu, write8WithShadow a value emulator.mmu = .ok () mmu := by
  rcases h.holds a ha with ⟨cell, hcell, -, -, hwrite⟩
  rcases write8WithShadow_of_access h.wellFormed
    (AddressMap.access_eq_ok_iff.mpr ⟨hcell, hwrite⟩) value with ⟨mmu, hwritten, -⟩
  exact ⟨mmu, hwritten⟩

/-- A call keeps what the heap holds, and adds zeros. -/
theorem HeapHolds.setBrk (h : HeapHolds written emulator)
    (hcall : setBrk requested emulator = .ok r emulator') : HeapHolds written emulator' := by
  have hpages := h.toHeapPages.setBrk hcall
  cases setBrk_outcome hcall with
  | query => exact h
  | move hstart hwithin => exact ⟨hpages, h.holds, h.unwritten⟩
  | @extend mmu hstart hend hnew hmap =>
      rcases mapZeroed_pages h.wellFormed h.end_mod (pageAlignUp_mod requested) hnew hmap with
        ⟨-, hfresh, hkept⟩
      refine ⟨hpages, exists_cell_extend (fun a hin => ?_) hkept h.holds,
        fun a ha => h.unwritten a fun hlt => ha ?_⟩
      · rcases hfresh a hin with ⟨-, cell, hcell, hbyte, hprot⟩
        have hzero : written a = 0 := by
          apply h.unwritten a
          rw [BitVec.lt_def, Nat.not_lt]
          exact (inRange_iff.mp hin).1
        refine ⟨cell, hcell, hbyte.trans hzero.symm, ?_⟩
        rw [hprot]
        decide
      · exact BitVec.lt_trans hlt hnew

/-- A write changes the byte it writes. -/
theorem HeapHolds.of_write (h : HeapHolds written emulator) {mmu : SoftMMU} {address : U64}
    {value : ValueWithShadow 8} (hin : emulator.InHeap address)
    (hwrite : write8WithShadow address value emulator.mmu = .ok () mmu) :
    HeapHolds (Function.update written address value.value) { emulator with mmu := mmu } := by
  rcases edits_of_write8WithShadow h.wellFormed hwrite with ⟨cell, haccess, hedits⟩
  refine ⟨⟨hedits.wellFormed, h.start_le, h.start_le_end, h.end_mod⟩, fun a ha => ?_,
    fun a ha => ?_⟩
  · change ∃ cell, mmu.addressMap a = some cell ∧ _
    rcases h.holds a ha with ⟨old, hold, hbyte, hprot⟩
    rw [hedits.addressMap, AddressMap.write]
    by_cases hsame : a = address
    · subst hsame
      rw [(AddressMap.access_eq_ok_iff.mp haccess).1] at hold
      cases hold
      simp only [Function.update_self]
      exact ⟨_, rfl, rfl, hprot⟩
    · simp only [Function.update_of_ne hsame]
      exact ⟨old, hold, hbyte, hprot⟩
  · have hne : a ≠ address := by
      rintro rfl
      exact ha hin.2
    rw [Function.update_of_ne hne]
    exact h.unwritten a ha

theorem HeapHolds.of_keepsHeap (h : HeapHolds written emulator)
    (hkeeps : KeepsHeap emulator emulator')
    (hbytes : ∀ a, emulator.InHeap a → (emulator'.mmu.addressMap a).map Cell.byte =
      (emulator.mmu.addressMap a).map Cell.byte) : HeapHolds written emulator' := by
  refine ⟨h.toHeapPages.of_keepsBreak hkeeps.keepsBreak, fun a ha => ?_, ?_⟩
  · rw [InHeap, hkeeps.brkStart, hkeeps.brkRegionEnd] at ha
    rcases h.holds a ha with ⟨cell, hcell, hbyte, hread, hwrite⟩
    have hprot := hkeeps.prot a ha
    have hsame := hbytes a ha
    rw [hcell] at hprot hsame
    rcases Option.map_eq_some_iff.mp hprot with ⟨cell', hcell', hprot'⟩
    rw [hcell'] at hsame
    have hbyte' : cell'.byte = cell.byte := Option.some.inj hsame
    refine ⟨cell', hcell', hbyte'.trans hbyte, ?_⟩
    rw [hprot']
    exact ⟨hread, hwrite⟩
  · rw [hkeeps.brkRegionEnd]
    exact h.unwritten

/-- In every run the heap holds what the guest wrote last. -/
theorem heapHolds_of_run {initial : Emulator} {brkStart : U64}
    (hwf : RegionsWellFormed initial.mmu.regions)
    (hrun : HeapRun (initial.initBrk brkStart) written emulator) : HeapHolds written emulator := by
  induction hrun with
  | start => exact heapHolds_initBrk brkStart hwf
  | call run h ih => exact ih.setBrk h
  | write run hin h ih => exact ih.of_write hin h
  | other run h hbytes ih => exact ih.of_keepsHeap h hbytes

/-! ## Raising the break -/

/-- The addresses of the whole pages between two breaks. -/
def InRaisedPages (oldBrk newBrk a : U64) : Prop :=
  roundUpToPage oldBrk.toNat ≤ a.toNat ∧ a.toNat / 4096 * 4096 + 4096 ≤ newBrk.toNat

/-- The byte reads as zero once the break is at the requested address: it is in the heap and
nothing else has been written to it, or it is behind the heap and will be mapped, or it is no
memory of the heap at all and reads as zero already. -/
def ReadsZeroAfter (written : U64 → U8) (emulator : Emulator) (requested a : U64) : Prop :=
  if a < emulator.brkRegionEnd then written a = 0
  else RoundsUp requested ∨ emulator.mmu.read8 a = .ok 0

/-- A byte of a whole page that a call adds below the break. -/
theorem HeapHolds.raised_read8_iff (h : HeapHolds written emulator)
    (hcall : LUE.setBrk requested emulator = .ok r emulator')
    (hraised : emulator.brk < emulator'.brk) {a : U64}
    (ha : InRaisedPages emulator.brk requested a) :
    emulator'.mmu.read8 a = .ok 0 ↔ ReadsZeroAfter written emulator requested a := by
  have hlow : emulator.brkStart ≤ a := by
    have hstart := BitVec.le_def.mp h.start_le
    have hround := le_roundUpToPage emulator.brk.toNat
    rw [BitVec.le_def]
    have hbelow := ha.1
    omega
  have hhigh : a.toNat < requested.toNat := by
    have habove := ha.2
    omega
  have hcell : ∀ {b b' : U8}, (Except.ok b : Except Raise U8) = .ok b' ↔ b = b' := by simp
  unfold ReadsZeroAfter
  cases setBrk_outcome hcall with
  | query => exact absurd hraised (BitVec.lt_irrefl _)
  | move hstart hwithin =>
      change emulator.mmu.read8 a = .ok 0 ↔ _
      split <;> rename_i hin
      · rw [h.read8 ⟨hlow, hin⟩, hcell]
      · have hwraps : ¬RoundsUp requested := by
          intro hrounds
          have hup := hrounds.le_pageAlignUp
          rw [BitVec.lt_def] at hin
          rcases hwithin with hle | hle <;> rw [BitVec.le_def] at hle <;> omega
        simp [hwraps]
  | @extend mmu hstart hend hnew hmap =>
      change mmu.read8 a = .ok 0 ↔ _
      have hrounds : RoundsUp requested := by
        by_contra hwraps
        rw [BitVec.lt_def, pageAlignUp_eq_zero hwraps] at hnew
        omega
      have hup := hrounds.le_pageAlignUp
      have hheap : HeapHolds written
          { emulator with mmu := mmu, brk := requested, brkRegionEnd := pageAlignUp requested } :=
        h.setBrk hcall
      have hread := hheap.read8 (a := a) ⟨hlow, by
        rw [BitVec.lt_def]
        change a.toNat < (pageAlignUp requested).toNat
        omega⟩
      rw [hread, hcell]
      split <;> rename_i hin
      · exact Iff.rfl
      · exact iff_of_true (h.unwritten a hin) (Or.inl hrounds)

/-- In every run, the whole pages that a call adds below the break read as zero exactly when
the guest's last write to each of their bytes that is mapped already was a zero and the pages
that are not mapped yet can be mapped. -/
theorem raisedPages_zero_iff {initial : Emulator} {brkStart : U64}
    (hwf : RegionsWellFormed initial.mmu.regions)
    (hrun : HeapRun (initial.initBrk brkStart) written emulator)
    (hcall : setBrk requested emulator = .ok r emulator')
    (hraised : emulator.brk < emulator'.brk) :
    (∀ a, InRaisedPages emulator.brk emulator'.brk a → emulator'.mmu.read8 a = .ok 0) ↔
      ∀ a, InRaisedPages emulator.brk requested a →
        ReadsZeroAfter written emulator requested a := by
  have hholds := heapHolds_of_run hwf hrun
  have hbrk : emulator'.brk = requested := by
    cases setBrk_outcome hcall with
    | query => exact absurd hraised (BitVec.lt_irrefl _)
    | move => rfl
    | extend => rfl
  rw [hbrk]
  constructor
  · exact fun h a ha => (hholds.raised_read8_iff hcall hraised ha).mp (h a ha)
  · exact fun h a ha => (hholds.raised_read8_iff hcall hraised ha).mpr (h a ha)

/-- A request inside the heap only moves the break. -/
theorem setBrk_within (hzero : requested ≠ 0) (hstart : emulator.brkStart ≤ requested)
    (hend : requested ≤ emulator.brkRegionEnd) :
    setBrk requested emulator = .ok requested { emulator with brk := requested } := by
  rw [setBrk, bind_of_ok (get_apply emulator), if_neg hzero,
    if_neg (BitVec.not_lt.mpr hstart), if_neg (BitVec.not_lt.mpr hend)]
  rfl

/-- A heap of one page. -/
def onePageHeap : Emulator :=
  finalState (setBrk 0x11000 (({} : Emulator).initBrk 0x10000))

theorem onePageHeap_run :
    HeapRun (({} : Emulator).initBrk 0x10000) (fun _ => 0) onePageHeap :=
  .call (r := 0x11000) .start (eq_ok_of_returned (by decide))

/-- Moving the break of this heap, whatever is in its memory. -/
theorem onePageHeap_setBrk (mmu : SoftMMU) (brk : U64) {requested : U64}
    (hrequested : requested = 0x10000 ∨ requested = 0x11000) :
    setBrk requested { onePageHeap with mmu := mmu, brk := brk } =
      .ok requested { onePageHeap with mmu := mmu, brk := requested } := by
  apply setBrk_within
  · rcases hrequested with rfl | rfl <;> decide
  · change onePageHeap.brkStart ≤ requested
    rcases hrequested with rfl | rfl <;> decide
  · change requested ≤ onePageHeap.brkRegionEnd
    rcases hrequested with rfl | rfl <;> decide

/-- Giving the page back and asking for it again, with nothing written. -/
theorem raisedPages_zero_unwritten :
    InRaisedPages 0x10000 0x11000 0x10000 ∧ onePageHeap.mmu.read8 0x10000 = .ok 0 := by
  have hlower := onePageHeap_setBrk onePageHeap.mmu onePageHeap.brk (Or.inl rfl)
  have hraise := onePageHeap_setBrk onePageHeap.mmu 0x10000 (Or.inr rfl)
  have hpage : InRaisedPages 0x10000 0x11000 0x10000 := ⟨by decide, by decide⟩
  refine ⟨hpage, (raisedPages_zero_iff regionInvariant_nil.regionsWellFormed
    (onePageHeap_run.call hlower) hraise (by decide)).mpr (fun a ha => ?_) 0x10000 hpage⟩
  refine (if_pos ?_).mpr rfl
  have habove : a.toNat / 4096 * 4096 + 4096 ≤ 0x11000 := ha.2
  change a.toNat < 0x11000
  omega

/-- What the guest wrote before it gave the page back is still there when it gets it again. -/
theorem raisedPages_not_zero :
    ¬∀ (initial emulator emulator' : Emulator) (brkStart requested r : U64)
        (written : U64 → U8), RegionsWellFormed initial.mmu.regions →
      HeapRun (initial.initBrk brkStart) written emulator →
      setBrk requested emulator = .ok r emulator' → emulator.brk < emulator'.brk →
      ∀ a, InRaisedPages emulator.brk emulator'.brk a → emulator'.mmu.read8 a = .ok 0 := by
  intro hzero
  have hin : onePageHeap.InHeap 0x10000 := ⟨by decide, by decide⟩
  have hholds := heapHolds_of_run regionInvariant_nil.regionsWellFormed onePageHeap_run
  rcases hholds.write8 hin (.initialized 1) with ⟨mmu, hwrite⟩
  have hlower := onePageHeap_setBrk mmu onePageHeap.brk (Or.inl rfl)
  have hraise := onePageHeap_setBrk mmu 0x10000 (Or.inr rfl)
  have hrun := (onePageHeap_run.write hin hwrite).call hlower
  have hraised : (0x10000 : U64) < 0x11000 := by decide
  have hpage : InRaisedPages 0x10000 0x11000 0x10000 := ⟨by decide, by decide⟩
  have hread := hzero _ _ _ _ _ _ _ regionInvariant_nil.regionsWellFormed hrun hraise hraised
    0x10000 hpage
  have hbyte := (heapHolds_of_run regionInvariant_nil.regionsWellFormed
    (hrun.call hraise)).read8 hin
  rw [Function.update_self, hread] at hbyte
  cases hbyte

/-! ## Requests that cannot be met -/

/-- The request is behind the heap, and its end wraps past the end of the address space or the
pages that are to be added overlap a mapping. -/
def CannotHonour (requested : U64) (emulator : Emulator) : Prop :=
  emulator.brkRegionEnd < requested ∧
    (¬RoundsUp requested ∨
      ∃ a, inRange emulator.brkRegionEnd (pageAlignUp requested) a = true ∧
        emulator.mmu.addressMap a ≠ none)

/-- The call returns the current break and changes nothing. -/
def FailsClosed (requested : U64) (emulator : Emulator) : Prop :=
  setBrk requested emulator = .ok emulator.brk emulator

/-- A request that wraps moves the break and maps nothing. -/
theorem HeapPages.setBrk_of_wraps (h : HeapPages emulator)
    (hend : emulator.brkRegionEnd < requested) (hwraps : ¬RoundsUp requested) :
    LUE.setBrk requested emulator = .ok requested { emulator with brk := requested } := by
  have hstart := BitVec.le_def.mp h.start_le_end
  have hzero : requested ≠ 0 := by
    rintro rfl
    simp [BitVec.lt_def] at hend
  have hlow : ¬requested < emulator.brkStart := by
    rw [BitVec.lt_def] at hend ⊢
    omega
  have hnone : ¬pageAlignUp requested > emulator.brkRegionEnd := by
    rw [gt_iff_lt, BitVec.lt_def, pageAlignUp_eq_zero hwraps]
    omega
  rw [LUE.setBrk, bind_of_ok (get_apply emulator), if_neg hzero, if_neg hlow, if_pos hend]
  dsimp only
  rw [if_neg hnone]
  rfl

/-- A request that overlaps a mapping raises out of the system call. -/
theorem HeapPages.setBrk_of_overlap (h : HeapPages emulator)
    (hend : emulator.brkRegionEnd < requested) (hrounds : RoundsUp requested) {a : U64}
    (ha : inRange emulator.brkRegionEnd (pageAlignUp requested) a = true)
    (hmapped : emulator.mmu.addressMap a ≠ none) (r : U64) (emulator' : Emulator) :
    LUE.setBrk requested emulator ≠ .ok r emulator' := by
  intro hcall
  have hup := hrounds.le_pageAlignUp
  rw [BitVec.lt_def] at hend
  cases setBrk_outcome hcall with
  | query hquery =>
      have hstart := BitVec.le_def.mp h.start_le_end
      rcases hquery with rfl | hlt
      · simp at hend
      · rw [BitVec.lt_def] at hlt
        omega
  | move hstart hwithin =>
      rcases hwithin with hle | hle <;> rw [BitVec.le_def] at hle <;> omega
  | extend hstart hend hnew hmap =>
      have hpages := mapZeroed_pages h.wellFormed h.end_mod (pageAlignUp_mod requested) hnew hmap
      exact hmapped (hpages.2.1 a ha).1

/-- In every run, a request that cannot be met fails closed exactly when it wraps past the end
of the address space and the break is already there. -/
theorem setBrk_failsClosed_iff {initial : Emulator} {brkStart : U64}
    (hwf : RegionsWellFormed initial.mmu.regions)
    (hrun : BreakRun (initial.initBrk brkStart) emulator)
    (hcannot : CannotHonour requested emulator) :
    FailsClosed requested emulator ↔ ¬RoundsUp requested ∧ requested = emulator.brk := by
  have hpages := heapPages_of_run hwf hrun
  rcases hcannot with ⟨hend, hcannot⟩
  rw [FailsClosed]
  by_cases hwraps : RoundsUp requested
  · rcases hcannot with hnot | ⟨a, ha, hmapped⟩
    · exact absurd hwraps hnot
    · exact iff_of_false (hpages.setBrk_of_overlap hend hwraps ha hmapped _ _)
        fun h => h.1 hwraps
  · rw [hpages.setBrk_of_wraps hend hwraps]
    constructor
    · intro h
      cases h
      exact ⟨hwraps, rfl⟩
    · rintro ⟨-, rfl⟩
      rfl

/-- An empty heap whose break is the last address of the address space. -/
def breakAtLast : Emulator :=
  { ({} : Emulator).initBrk 0x10000 with brk := 0xffffffffffffffff }

/-- That break, asked for once more. -/
theorem setBrk_failsClosed_last : FailsClosed 0xffffffffffffffff breakAtLast := by
  have hwraps : ¬RoundsUp 0xffffffffffffffff := by simp [RoundsUp]
  have hpages : HeapPages (({} : Emulator).initBrk 0x10000) :=
    heapPages_initBrk 0x10000 regionInvariant_nil.regionsWellFormed
  have hrun : BreakRun (({} : Emulator).initBrk 0x10000) breakAtLast :=
    .call .start (hpages.setBrk_of_wraps (by decide) hwraps)
  exact (setBrk_failsClosed_iff regionInvariant_nil.regionsWellFormed hrun
    ⟨by decide, Or.inl hwraps⟩).mpr ⟨hwraps, rfl⟩

/-- A page is mapped one page behind the initial break. -/
def mappedBehind : Emulator :=
  { mmu := { regions := [.ofZeroes 0x11000 0x1000 protRead "mapped"] } }

theorem mappedBehind_wellFormed : RegionsWellFormed mappedBehind.mmu.regions :=
  (regionInvariant_singleton (Region.ofZeroes_wellFormed (by decide) (by decide) (by decide)
    _ _) (by decide)).regionsWellFormed

/-- Asking for the break behind that page raises. -/
theorem setBrk_not_failsClosed :
    ¬∀ (initial emulator : Emulator) (brkStart requested : U64),
      RegionsWellFormed initial.mmu.regions →
      BreakRun (initial.initBrk brkStart) emulator →
      CannotHonour requested emulator → FailsClosed requested emulator := by
  intro hcloses
  have hmapped : (mappedBehind.initBrk 0x10000).mmu.addressMap 0x11000 ≠ none := by
    rw [Ne, addressMap_eq_none_iff]
    intro hnone
    have hcontains := hnone _ (List.mem_singleton_self _)
    exact absurd hcontains (by decide)
  have hin : inRange 0x10000 (pageAlignUp 0x12000) 0x11000 = true := by decide
  have hcannot : CannotHonour 0x12000 (mappedBehind.initBrk 0x10000) :=
    ⟨by decide, Or.inr ⟨0x11000, hin, hmapped⟩⟩
  have hpages := heapPages_initBrk 0x10000 mappedBehind_wellFormed
  exact hpages.setBrk_of_overlap hcannot.1 (by simp [RoundsUp]) hin hmapped _ _
    (hcloses _ _ 0x10000 0x12000 mappedBehind_wellFormed .start hcannot)

end Emulator

end LUE
