import LinuxUserspaceEmulator.Emulator.SignalRuns

/-!
# Signals that cannot be blocked

`set_signal_mask` filters SIGKILL and SIGSTOP out of the mask it reads.  The mask of an action
and the mask of a signal frame reach the signal mask as they are, so a guest can block both.

Main results:

- Theorem `unblockable_of_run`: both stay out of the mask in every run whose handlers and
  frames have masks without them.
- Theorem `sigKill_blocked`: a signal frame that blocks SIGKILL.
-/

namespace LUE

open StateExcept

namespace Emulator

/-- The mask has neither SIGKILL nor SIGSTOP. -/
def LeavesUnblockable (mask : U64) : Prop :=
  mask &&& signalBit sigKill = 0 ∧ mask &&& signalBit sigStop = 0

instance (mask : U64) : Decidable (LeavesUnblockable mask) :=
  inferInstanceAs (Decidable (_ ∧ _))

theorem leavesUnblockable_iff (mask : U64) :
    LeavesUnblockable mask ↔ mask.getLsbD 8 = false ∧ mask.getLsbD 18 = false := by
  have hzero : ∀ i < 63, mask &&& signalBit ((i + 1 : Nat) : Int) = 0 ↔
      mask.getLsbD i = false := by
    intro i hi
    rw [← and_signalBit_ne_zero mask hi, bne_eq_false_iff_eq]
  exact and_congr (hzero 8 (by decide)) (hzero 18 (by decide))

/-- The filter of `set_signal_mask` takes two bits out of a mask. -/
theorem getLsbD_settableMask (mask : U64) (i : Nat) :
    (settableMask mask).getLsbD i =
      (mask.getLsbD i && (!decide (8 = i) && !decide (18 = i))) := by
  have hkill : (signalBit sigKill).getLsbD i = decide (8 = i) :=
    getLsbD_signalBit (i := 8) (by decide) i
  have hstop : (signalBit sigStop).getLsbD i = decide (18 = i) :=
    getLsbD_signalBit (i := 18) (by decide) i
  by_cases hi : i < 64
  · simp only [settableMask, BitVec.getLsbD_and, BitVec.getLsbD_not, hkill, hstop, hi,
      decide_true, Bool.true_and, Bool.and_assoc]
  · rw [BitVec.getLsbD_of_ge _ _ (Nat.le_of_not_lt hi),
      BitVec.getLsbD_of_ge mask _ (Nat.le_of_not_lt hi), Bool.false_and]

theorem leavesUnblockable_or {mask mask' : U64} (h : LeavesUnblockable mask)
    (h' : LeavesUnblockable mask') : LeavesUnblockable (mask ||| mask') := by
  rw [leavesUnblockable_iff] at h h' ⊢
  rw [BitVec.getLsbD_or, BitVec.getLsbD_or, h.1, h.2, h'.1, h'.2]
  exact ⟨rfl, rfl⟩

theorem leavesUnblockable_and {mask : U64} (h : LeavesUnblockable mask) (other : U64) :
    LeavesUnblockable (mask &&& other) := by
  rw [leavesUnblockable_iff] at h ⊢
  rw [BitVec.getLsbD_and, BitVec.getLsbD_and, h.1, h.2]
  exact ⟨rfl, rfl⟩

theorem leavesUnblockable_settableMask (mask : U64) : LeavesUnblockable (settableMask mask) := by
  rw [leavesUnblockable_iff, getLsbD_settableMask, getLsbD_settableMask]
  simp

/-- The bit of another signal. -/
theorem leavesUnblockable_signalBit {i : Nat} (hi : i < 63) (hkill : i ≠ 8) (hstop : i ≠ 18) :
    LeavesUnblockable (signalBit ((i + 1 : Nat) : Int)) := by
  rw [leavesUnblockable_iff, getLsbD_signalBit hi, getLsbD_signalBit hi]
  simp [hkill, hstop]

/-! ## Runs -/

/-- The mask that a step takes over unfiltered, from the action of a handler it enters or from
the frame it returns through, has neither of the two signals. -/
def SignalStep.TakesNoUnblockable (step : SignalStep) (emulator : Emulator) : Prop :=
  match step with
  | .dispatch => ∀ i < 63, Deliverable emulator i → emulator.HasGuestHandler (i + 1) →
      LeavesUnblockable (emulator.signalActions (i + 1)).mask
  | .sigreturn => ∀ mask, emulator.frameMagic = .ok signalFrameMagic →
      emulator.frameMask = .ok mask → LeavesUnblockable mask
  | _ => True

/-- Neither signal is in the mask, and neither has a guest handler that would put its own bit
there. -/
structure UnblockableInvariant (emulator : Emulator) : Prop where
  mask : LeavesUnblockable emulator.signalMask
  kill : (emulator.signalActions 9).handler = 0
  stop : (emulator.signalActions 19).handler = 0

theorem UnblockableInvariant.step {emulator : Emulator} {step : SignalStep}
    (h : UnblockableInvariant emulator) (hstep : step.TakesNoUnblockable emulator) :
    UnblockableInvariant (step.next emulator) := by
  cases step with
  | deliver signum =>
      rw [SignalStep.next_deliver, deliverSignal_effect]
      exact ⟨h.mask, h.kill, h.stop⟩
  | setMask how setAddress oldSetAddress =>
      rw [SignalStep.next_setMask]
      rcases setSignalMask_effect emulator how setAddress oldSetAddress with
        ⟨mmu, hnext⟩ | ⟨mmu, mask, hnext | hnext | hnext⟩
      · rw [hnext]
        exact ⟨h.mask, h.kill, h.stop⟩
      · rw [hnext]
        exact ⟨leavesUnblockable_or h.mask (leavesUnblockable_settableMask mask), h.kill, h.stop⟩
      · rw [hnext]
        exact ⟨leavesUnblockable_and h.mask _, h.kill, h.stop⟩
      · rw [hnext]
        exact ⟨leavesUnblockable_settableMask mask, h.kill, h.stop⟩
  | setAction signum updateAction action oldActionAddress =>
      rw [SignalStep.next_setAction]
      rcases setSignalAction_effect emulator signum updateAction action oldActionAddress with
        ⟨mmu, hnext⟩ | ⟨hkill, hstop, mmu, hnext⟩
      · rw [hnext]
        exact ⟨h.mask, h.kill, h.stop⟩
      · rw [sigKill] at hkill
        rw [sigStop] at hstop
        have hnine : 9 ≠ signum.toNat := by omega
        have hnineteen : 19 ≠ signum.toNat := by omega
        rw [hnext]
        refine ⟨h.mask, ?_, ?_⟩
        · change (Function.update emulator.signalActions signum.toNat action 9).handler = 0
          rw [Function.update_of_ne hnine]
          exact h.kill
        · change (Function.update emulator.signalActions signum.toNat action 19).handler = 0
          rw [Function.update_of_ne hnineteen]
          exact h.stop
  | sigreturn =>
      rw [SignalStep.next_sigreturn]
      rcases handleSigreturn_effect emulator with ⟨cpu, restored, mask, hnext, hmask⟩
      rw [hnext]
      refine ⟨?_, h.kill, h.stop⟩
      rcases hmask with rfl | ⟨hmagic, hmask⟩
      · exact h.mask
      · exact hstep mask hmagic hmask
  | guest mmu cpu => exact ⟨h.mask, h.kill, h.stop⟩
  | dispatch =>
      have heffect := dispatchPendingSignal_effect emulator
      change DispatchEffect emulator (SignalStep.dispatch.next emulator) at heffect
      generalize SignalStep.dispatch.next emulator = next at heffect
      cases heffect with
      | idle _ => exact h
      | consumed _ _ => exact ⟨h.mask, h.kill, h.stop⟩
      | @entered i mmu hi hdeliverable hhandler =>
          have hkill : i ≠ 8 := by
            rintro rfl
            exact hhandler.1 h.kill
          have hstop : i ≠ 18 := by
            rintro rfl
            exact hhandler.1 h.stop
          have haction := hstep i hi hdeliverable hhandler
          exact ⟨leavesUnblockable_or (leavesUnblockable_or h.mask haction)
            (leavesUnblockable_signalBit hi hkill hstop), h.kill, h.stop⟩

/-- In a state with the invariant a pending SIGKILL is dispatched, unless a lower-numbered signal
comes first. -/
theorem UnblockableInvariant.dispatch_sigKill {emulator : Emulator}
    (h : UnblockableInvariant emulator) (hpending : emulator.pendingSignals.getLsbD 8 = true) :
    raised (dispatchPendingSignal emulator) = some (.guestExit (128 + 9)) ∨
      ∃ i < 8, Deliverable emulator i := by
  have hunblocked := ((leavesUnblockable_iff _).mp h.mask).1
  rcases exists_deliverable hpending hunblocked with ⟨i, hle, hdeliverable⟩
  rcases Nat.lt_or_eq_of_le hle with hlt | rfl
  · exact Or.inr ⟨i, hlt, hdeliverable⟩
  · refine Or.inl ?_
    rw [dispatchPendingSignal_of_some
      (nextPendingSignal_eq_some_iff.mpr ⟨8, by decide, rfl, hdeliverable⟩), applyDisposition]
    rw [h.kill]
    rfl

/-- A guest at its start: nothing is blocked and every disposition is the default one. -/
structure AtStart (emulator : Emulator) : Prop where
  mask : emulator.signalMask = 0
  actions : emulator.signalActions = fun _ => {}

/-- SIGKILL and SIGSTOP are never blocked in a run whose handlers and frames bring no mask with
one of them, and a pending SIGKILL is dispatched after the lower-numbered signals. -/
theorem unblockable_of_run {start : Emulator} {steps : List SignalStep} (hstart : AtStart start)
    (hsteps : StepsMeet SignalStep.exec SignalStep.TakesNoUnblockable steps start) :
    let reached := runAll SignalStep.exec steps start
    LeavesUnblockable reached.signalMask ∧
      (reached.pendingSignals.getLsbD 8 = true →
        raised (dispatchPendingSignal reached) = some (.guestExit (128 + 9)) ∨
          ∃ i < 8, Deliverable reached i) := by
  have hfirst : UnblockableInvariant start := by
    refine ⟨?_, ?_, ?_⟩
    · rw [hstart.mask]
      decide
    · rw [hstart.actions]
    · rw [hstart.actions]
  have hreached := runAll_invariant_of_stepsMeet (P := UnblockableInvariant)
    (fun _ _ h hstep => h.step hstep) hsteps hfirst
  exact ⟨hreached.mask, hreached.dispatch_sigKill⟩

section Examples

/-- Memory with a signal frame that has the magic value and a mask. -/
def frameMemory (mask : U64) : SoftMMU where
  regions := [{ Region.ofZeroes 0x1000 0xb0 (protRead ||| protWrite) "[stack]" with
    bytes := (List.range 8).map (LittleEndian.byte signalFrameMagic) ++
      (List.range 8).map (LittleEndian.byte mask) ++ List.replicate 0xa0 0 }]

/-- The guest writes a frame, returns through it, and is sent SIGKILL. -/
def killAfterReturn (mask : U64) : List SignalStep :=
  [.guest (frameMemory mask) { gpr := fun register => if register = .rsp then 0x1000 else 0 },
    .sigreturn, .deliver 9]

/-- A frame whose mask has SIGUSR2. -/
theorem unblockable_of_run_sigUsr2 :
    let reached := runAll SignalStep.exec (killAfterReturn (signalBit 12)) {}
    LeavesUnblockable reached.signalMask ∧
      (reached.pendingSignals.getLsbD 8 = true →
        raised (dispatchPendingSignal reached) = some (.guestExit (128 + 9)) ∨
          ∃ i < 8, Deliverable reached i) := by
  have hframe : ({ mmu := frameMemory (signalBit 12), cpu := {
      gpr := fun register => if register = .rsp then 0x1000 else 0 } } : Emulator).frameMask =
        .ok (signalBit 12) := by
    decide
  refine unblockable_of_run ⟨rfl, rfl⟩ ⟨trivial, fun mask _ hmask => ?_, trivial, trivial⟩
  rw [← Except.ok.inj (hframe.symm.trans hmask)]
  decide

/-- A frame whose mask has SIGKILL: the signal stays pending, and a dispatch does nothing. -/
theorem sigKill_blocked :
    let reached := runAll SignalStep.exec (killAfterReturn (signalBit sigKill)) {}
    AtStart {} ∧ reached.pendingSignals.getLsbD 8 = true ∧
      ¬LeavesUnblockable reached.signalMask ∧
      dispatchPendingSignal reached = .ok () reached := by
  intro reached
  have hnone : reached.nextPendingSignal = none := by
    decide
  have hpending : reached.pendingSignals.getLsbD 8 = true := by
    decide
  have hblocked : reached.signalMask.getLsbD 8 = true := by
    decide
  refine ⟨⟨rfl, rfl⟩, hpending, fun hmask => ?_, dispatchPendingSignal_of_none hnone⟩
  rw [leavesUnblockable_iff, hblocked] at hmask
  cases hmask.1

end Examples

end Emulator

end LUE
