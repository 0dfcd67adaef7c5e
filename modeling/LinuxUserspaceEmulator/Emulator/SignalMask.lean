import LinuxUserspaceEmulator.Emulator.SignalReturn
import LinuxUserspaceEmulator.Emulator.UnblockableSignals
import LinuxUserspaceEmulator.SoftCPU64.SameInitialized
import LinuxUserspaceEmulator.SoftMMU.Words

/-!
# Aliased mask words

`set_signal_mask` stores the old mask before it reads the new one.  When the two words of
`rt_sigprocmask` overlap, bits of the old mask are read as input; and a call with an invalid
`how` has stored the old mask by the time it fails.

Main results:

- Theorem `requestedMask_eq_iff`: the bits of the input that decide the new mask.
- Theorem `sysRtSigprocmask_iff`: when the call is as if it read its input first.
- Theorem `sysRtSigprocmask_aliased`: a call with one variable for both words.
-/

namespace LUE

open StateExcept SoftMMU Emulator

variable {emulator : Emulator} {how set oldSet word : U64}

/-! ## Requested masks -/

/-- `SIG_BLOCK`, `SIG_UNBLOCK` and `SIG_SETMASK`. -/
def ValidHow (how : Int) : Prop :=
  how = 0 ∨ how = 1 ∨ how = 2

instance (how : Int) : Decidable (ValidHow how) :=
  inferInstanceAs (Decidable (_ ∨ _))

/-- The union, the difference or the replacement that a call asks for. -/
def requestedMask (how : Int) (mask word : U64) : U64 :=
  if how = 0 then mask ||| settableMask word
  else if how = 1 then mask &&& ~~~settableMask word
  else settableMask word

/-- A bit of the input decides a bit of the new mask: the signal can be blocked, and the old mask
does not decide it already. -/
def DecidesMask (how : Int) (mask : U64) (i : Nat) : Prop :=
  i ≠ 8 ∧ i ≠ 18 ∧ (how = 0 → mask.getLsbD i = false) ∧ (how = 1 → mask.getLsbD i = true)

/-- The bits of the input that decide the new mask. -/
theorem requestedMask_eq_iff {how : Int} {mask word word' : U64} :
    requestedMask how mask word = requestedMask how mask word' ↔
      ∀ i < 64, DecidesMask how mask i → word.getLsbD i = word'.getLsbD i := by
  have hbits : requestedMask how mask word = requestedMask how mask word' ↔
      ∀ i < 64, (requestedMask how mask word).getLsbD i =
        (requestedMask how mask word').getLsbD i :=
    ⟨fun h i _ => by rw [h], fun h => BitVec.eq_of_getLsbD_eq h⟩
  refine hbits.trans (forall_congr' fun i => forall_congr' fun hi => ?_)
  unfold requestedMask DecidesMask
  clear hbits
  by_cases hblock : how = 0
  · subst hblock
    simp only [if_true, BitVec.getLsbD_or, getLsbD_settableMask]
    grind
  · by_cases hunblock : how = 1
    · subst hunblock
      simp only [hblock, if_false, if_true, BitVec.getLsbD_and, BitVec.getLsbD_not,
        getLsbD_settableMask, hi]
      grind
    · simp only [hblock, hunblock, if_false, getLsbD_settableMask]
      grind

/-! ## The call -/

/-- The call is as if it read its input before it wrote its output: with a valid `how` the new
mask comes from the word that was there before the call, and the other word holds the old mask;
with an invalid one the call fails and nothing has changed. -/
def ReadsInputFirst (how set oldSet word : U64) (emulator : Emulator) : Prop :=
  if ValidHow (intArgument how) then
    ∃ final, sysRtSigprocmask how set oldSet 8 emulator = .ok 0 final ∧
      final.signalMask = requestedMask (intArgument how) emulator.signalMask word ∧
      (oldSet ≠ 0 → HoldsWord final.mmu oldSet emulator.signalMask)
  else
    ∃ final, sysRtSigprocmask how set oldSet 8 emulator = .ok (syscallError .einval) final ∧
      final.signalMask = emulator.signalMask ∧ final.mmu.guestByte = emulator.mmu.guestByte

/-- The offset of a byte of the input in the output word. -/
def offsetInOutput (set oldSet : U64) (i : Nat) : Nat :=
  (set + BitVec.ofNat 64 i - oldSet).toNat

/-- The bits of the input that the old mask overwrites and that decide the new mask are those of
the old mask anyway. -/
def InputIntact (how set oldSet word mask : U64) : Prop :=
  ∀ i < 64, DecidesMask (intArgument how) mask i → offsetInOutput set oldSet (i / 8) < 8 →
    mask.getLsbD (8 * offsetInOutput set oldSet (i / 8) + i % 8) = word.getLsbD i

/-- What the call does with the word that it reads. -/
theorem sysRtSigprocmask_of_read {stored : SoftMMU} (hset : set ≠ 0)
    (hstore : (if oldSet ≠ 0 then onMMU (SoftMMU.write64 oldSet emulator.signalMask)
      else pure () : EmulatorProgram Unit) emulator = .ok () (emulator.withMMU stored))
    (hread : stored.read64 set = .ok word) :
    sysRtSigprocmask how set oldSet 8 emulator =
      if ValidHow (intArgument how) then
        .ok 0 { emulator.withMMU stored with
          signalMask := requestedMask (intArgument how) emulator.signalMask word }
      else .ok (syscallError .einval) (emulator.withMMU stored) := by
  have hrest : setSignalMask (intArgument how) set oldSet emulator =
      if ValidHow (intArgument how) then
        .ok (.ok ()) { emulator.withMMU stored with
          signalMask := requestedMask (intArgument how) emulator.signalMask word }
      else .ok (.error .einval) (emulator.withMMU stored) := by
    rw [setSignalMask, bind_of_ok (get_apply emulator)]
    refine (congrFun (ite_bind_eq _ _) emulator).trans ((bind_of_ok hstore).trans ?_)
    rw [if_neg hset]
    refine (bind_of_ok (readMMU_eq_ok_iff.mpr ⟨hread, rfl⟩)).trans ?_
    dsimp only
    by_cases hblock : intArgument how = 0
    · have hvalid : ValidHow (intArgument how) := Or.inl hblock
      rw [if_pos hblock, if_pos hvalid, requestedMask, if_pos hblock]
      rfl
    · rw [if_neg hblock]
      by_cases hunblock : intArgument how = 1
      · have hvalid : ValidHow (intArgument how) := Or.inr (Or.inl hunblock)
        rw [if_pos hunblock, if_pos hvalid, requestedMask, if_neg hblock, if_pos hunblock]
        rfl
      · rw [if_neg hunblock]
        by_cases hassign : intArgument how = 2
        · have hvalid : ValidHow (intArgument how) := Or.inr (Or.inr hassign)
          rw [if_pos hassign, if_pos hvalid, requestedMask, if_neg hblock, if_neg hunblock]
          rfl
        · have hinvalid : ¬ValidHow (intArgument how) := by
            rintro (h | h | h)
            exacts [hblock h, hunblock h, hassign h]
          rw [if_neg hassign, if_neg hinvalid]
          rfl
  have hsize : ¬((8 : U64) ≠ 8) := fun h => h rfl
  rw [sysRtSigprocmask, if_neg hsize]
  by_cases hvalid : ValidHow (intArgument how)
  · rw [if_pos hvalid] at hrest ⊢
    rw [bind_of_ok hrest]
    rfl
  · rw [if_neg hvalid] at hrest ⊢
    rw [bind_of_ok hrest]
    rfl

/-- The word that is read after the old mask was stored. -/
def overlaid (set oldSet word mask : U64) : U64 :=
  LittleEndian.assemble (fun i =>
    if offsetInOutput set oldSet i < 8 then
      LittleEndian.byte mask (offsetInOutput set oldSet i)
    else LittleEndian.byte word i) 8

theorem getLsbD_overlaid (set oldSet word mask : U64) {i : Nat} (hi : i < 64) :
    (overlaid set oldSet word mask).getLsbD i =
      if offsetInOutput set oldSet (i / 8) < 8 then
        mask.getLsbD (8 * offsetInOutput set oldSet (i / 8) + i % 8)
      else word.getLsbD i := by
  have hbyte : ∀ (value : U64) (j : Nat), (LittleEndian.byte value j).getLsbD (i % 8) =
      value.getLsbD (8 * j + i % 8) := by
    intro value j
    rw [SoftCPU64.getLsbD_byte value j (Nat.mod_lt i (by decide)), Nat.mul_comm]
  have hindex : 8 * (i / 8) + i % 8 = i := Nat.div_add_mod i 8
  have hbound : i < 8 * 8 := hi
  rw [overlaid, LittleEndian.getLsbD_assemble (Nat.le_refl 8), decide_eq_true hbound,
    Bool.true_and]
  by_cases hoverlap : offsetInOutput set oldSet (i / 8) < 8
  · rw [if_pos hoverlap, if_pos hoverlap, hbyte]
  · rw [if_neg hoverlap, if_neg hoverlap, hbyte, hindex]

/-- The input decides the same mask after the old one was stored. -/
theorem requestedMask_overlaid_iff {how set oldSet word mask : U64} :
    requestedMask (intArgument how) mask (overlaid set oldSet word mask) =
        requestedMask (intArgument how) mask word ↔ InputIntact how set oldSet word mask := by
  rw [requestedMask_eq_iff]
  refine forall_congr' fun i => forall_congr' fun hi => forall_congr' fun _ => ?_
  rw [getLsbD_overlaid _ _ _ _ hi]
  by_cases hoverlap : offsetInOutput set oldSet (i / 8) < 8
  · rw [if_pos hoverlap, forall_prop_of_true hoverlap]
  · rw [if_neg hoverlap]
    exact iff_of_true rfl fun h => absurd h hoverlap

/-- What is held after the old mask was stored: the bytes of the input are read with it on top. -/
theorem holdsWord_overlaid {stored : SoftMMU} {mask : U64} (hword : HoldsWord emulator.mmu set word)
    (hstore : SoftMMU.write64 oldSet mask emulator.mmu = .ok () stored) :
    HoldsWord stored set (overlaid set oldSet word mask) := by
  intro i hi
  rw [guestByte_of_write64 hstore, overlaid, LittleEndian.byte_assemble (Nat.le_refl 8) hi]
  change (if offsetInOutput set oldSet i < 8 then
    some (LittleEndian.byte mask (offsetInOutput set oldSet i)) else _) = _
  by_cases hoverlap : offsetInOutput set oldSet i < 8
  · rw [if_pos hoverlap, if_pos hoverlap]
  · rw [if_neg hoverlap, if_neg hoverlap, hword i hi]

/-- Storing a word changes nothing exactly when the word is held already. -/
theorem guestByte_write64_eq_iff {stored : SoftMMU} {mask : U64}
    (hstore : SoftMMU.write64 oldSet mask emulator.mmu = .ok () stored) :
    stored.guestByte = emulator.mmu.guestByte ↔ HoldsWord emulator.mmu oldSet mask := by
  constructor
  · intro hsame i hi
    rw [← hsame]
    exact holdsWord_write64 hstore i hi
  · intro hholds
    funext other
    rw [guestByte_of_write64 hstore]
    by_cases hoffset : (other - oldSet).toNat < 8
    · have hbyte := hholds _ hoffset
      rw [BitVec.ofNat_toNat, BitVec.setWidth_eq, BitVec.add_comm, BitVec.sub_add_cancel] at hbyte
      rw [if_pos hoffset, hbyte]
    · rw [if_neg hoffset]

/-- The call with both words mapped is as if it read its input first exactly when there is no
output word; or, with a valid `how`, the overwritten bits of the input do not matter; or, with
an invalid one, the output word holds the old mask already. -/
theorem sysRtSigprocmask_iff (hwf : RegionsWellFormed emulator.mmu.regions) (hset : set ≠ 0)
    (hword : HoldsWord emulator.mmu set word)
    (hreadable : ∀ i < 8, Permits emulator.mmu (set + BitVec.ofNat 64 i) protRead)
    (hwritable : ∀ i < 8, Permits emulator.mmu (oldSet + BitVec.ofNat 64 i) protWrite) :
    ReadsInputFirst how set oldSet word emulator ↔
      oldSet = 0 ∨
        if ValidHow (intArgument how) then InputIntact how set oldSet word emulator.signalMask
        else HoldsWord emulator.mmu oldSet emulator.signalMask := by
  unfold ReadsInputFirst
  by_cases hnull : oldSet = 0
  · subst hnull
    have hread := read64_of_holdsWord hwf hword hreadable
    have hstore : (if (0 : U64) ≠ 0 then onMMU (SoftMMU.write64 0 emulator.signalMask)
        else pure () : EmulatorProgram Unit) emulator =
          .ok () (emulator.withMMU emulator.mmu) := rfl
    have hrun : sysRtSigprocmask how set 0 8 emulator = _ :=
      sysRtSigprocmask_of_read hset hstore hread
    refine iff_of_true ?_ (Or.inl rfl)
    by_cases hvalid : ValidHow (intArgument how)
    · rw [if_pos hvalid] at hrun ⊢
      exact ⟨_, hrun, rfl, fun hne => absurd rfl hne⟩
    · rw [if_neg hvalid] at hrun ⊢
      exact ⟨_, hrun, rfl, rfl⟩
  · rcases writeBytes_of_permits hwf hwritable with ⟨stored, hstore, hstoredwf, hprot⟩
    have hstored : SoftMMU.write64 oldSet emulator.signalMask emulator.mmu = .ok () stored := hstore
    have hread := read64_of_holdsWord hstoredwf (holdsWord_overlaid hword hstored)
      fun i hi => (permits_congr hprot).mpr (hreadable i hi)
    have hfirst : (if oldSet ≠ 0 then onMMU (SoftMMU.write64 oldSet emulator.signalMask)
        else pure () : EmulatorProgram Unit) emulator = .ok () (emulator.withMMU stored) := by
      rw [if_pos hnull]
      exact onMMU_eq_ok_iff.mpr ⟨stored, hstored, rfl⟩
    have hrun : sysRtSigprocmask how set oldSet 8 emulator = _ :=
      sysRtSigprocmask_of_read hset hfirst hread
    rw [or_iff_right hnull]
    by_cases hvalid : ValidHow (intArgument how)
    · rw [if_pos hvalid] at hrun
      rw [if_pos hvalid, if_pos hvalid, ← requestedMask_overlaid_iff, hrun]
      constructor
      · rintro ⟨final, hfinal, hmask, -⟩
        cases hfinal
        exact hmask
      · intro hmask
        exact ⟨_, rfl, hmask, fun _ => holdsWord_write64 hstored⟩
    · rw [if_neg hvalid] at hrun
      rw [if_neg hvalid, if_neg hvalid, ← guestByte_write64_eq_iff hstored, hrun]
      constructor
      · rintro ⟨final, hfinal, -, hsame⟩
        cases hfinal
        exact hsame
      · intro hsame
        exact ⟨_, rfl, rfl, hsame⟩

section Examples

/-- A page with a signal set at its start, and nothing blocked. -/
def withSignalSet (bytes : List U8) : Emulator where
  mmu := { regions := [Emulator.pageOf 0x1000 (protRead ||| protWrite) bytes] }

/-- Blocking SIGINT with separate words. -/
theorem sysRtSigprocmask_iff_separate :
    ReadsInputFirst 0 0x1000 0x1008 2 (withSignalSet [2]) := by
  have hwf : RegionsWellFormed (withSignalSet [2]).mmu.regions :=
    Emulator.regionsWellFormed_pageOf (by decide) (by decide) (by decide)
  have hmapped : ∀ i < 16, protections (withSignalSet [2]).mmu (0x1000 + BitVec.ofNat 64 i) =
      some (protRead ||| protWrite) := by
    decide
  have hinput : HoldsWord (withSignalSet [2]).mmu 0x1000 2 := by
    unfold HoldsWord
    decide
  have hreadable : ∀ i < 8, Permits (withSignalSet [2]).mmu (0x1000 + BitVec.ofNat 64 i)
      protRead := fun i hi => ⟨_, hmapped i (by omega), by decide⟩
  have hwritable : ∀ i < 8, Permits (withSignalSet [2]).mmu (0x1008 + BitVec.ofNat 64 i)
      protWrite := by
    intro i hi
    have hoffset : (0x1008 : U64) + BitVec.ofNat 64 i = 0x1000 + BitVec.ofNat 64 (8 + i) := by
      rw [BitVec.ofNat_add, ← BitVec.add_assoc]
      rfl
    rw [hoffset]
    exact ⟨_, hmapped (8 + i) (by omega), by decide⟩
  have hintact : InputIntact 0 0x1000 0x1008 2 (withSignalSet [2]).signalMask := by
    have hapart : ∀ i < 8, ¬offsetInOutput 0x1000 0x1008 i < 8 := by decide
    intro i hi _ hoverlap
    exact absurd hoverlap (hapart _ (by omega))
  have hvalid : ValidHow (intArgument 0) := by decide
  have hset : (0x1000 : U64) ≠ 0 := by decide
  refine (sysRtSigprocmask_iff hwf hset hinput hreadable hwritable).mpr (Or.inr ?_)
  rw [if_pos hvalid]
  exact hintact

/-- Blocking SIGINT with one variable for both words: nothing is blocked, because the old mask
has replaced the set before it is read. -/
theorem sysRtSigprocmask_aliased :
    ∃ final, sysRtSigprocmask 0 0x1000 0x1000 8 (withSignalSet [2]) = .ok 0 final ∧
      final.signalMask = 0 ∧ requestedMask 0 (withSignalSet [2]).signalMask 2 = 2 ∧
      ¬ReadsInputFirst 0 0x1000 0x1000 2 (withSignalSet [2]) := by
  have hrun : returned (sysRtSigprocmask 0 0x1000 0x1000 8 (withSignalSet [2])) = some 0 ∧
      (finalState (sysRtSigprocmask 0 0x1000 0x1000 8 (withSignalSet [2]))).signalMask = 0 := by
    decide +kernel
  have hok := eq_ok_of_returned hrun.1
  have hmask := hrun.2
  generalize finalState (sysRtSigprocmask 0 0x1000 0x1000 8 (withSignalSet [2])) = final
    at hok hmask
  refine ⟨final, hok, hmask, by decide, fun hfirst => ?_⟩
  have hvalid : ValidHow (intArgument 0) := by decide
  rw [ReadsInputFirst, if_pos hvalid, hok] at hfirst
  rcases hfirst with ⟨_, hfinal, hrequested, -⟩
  cases hfinal
  rw [hmask] at hrequested
  exact absurd hrequested (by decide)

end Examples

end LUE
