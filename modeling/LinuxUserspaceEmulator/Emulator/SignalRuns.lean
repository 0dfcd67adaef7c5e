import LinuxUserspaceEmulator.Emulator.Exec
import LinuxUserspaceEmulator.SoftCPU64.Flags

/-!
# Runs of signal operations

The operations on the signal state in any order, between which the guest changes its memory
and its registers as it likes: delivery, the mask and action system calls, the dispatch of a
pending signal, and the return from a handler.  Each operation has one theorem that says what
it can do to the signal state; the theorems about runs are read off these.

Main results:

- Theorem `nextPendingSignal_eq_some_iff`: the scan finds the lowest pending bit that is not
  in the mask.
- Theorems `deliverSignal_effect` to `handleSigreturn_effect`: what one operation can do.
- Theorem `signals_of_run`: pending signals are neither lost nor delivered while blocked.
-/

namespace LUE

open StateExcept

namespace Emulator

/-! ## Signals as bits -/

/-- The bit of a signal number. -/
theorem getLsbD_signalBit {i : Nat} (hi : i < 63) (j : Nat) :
    (signalBit ((i + 1 : Nat) : Int)).getLsbD j = decide (i = j) := by
  have hvalid : ¬(((i + 1 : Nat) : Int) ≤ 0 ∨ ((i + 1 : Nat) : Int) ≥ 64) := by omega
  have hindex : (((i + 1 : Nat) : Int) - 1).toNat = i := by omega
  rw [signalBit, if_neg hvalid, hindex]
  exact SoftCPU64.getLsbD_one_shiftLeft (by omega) j

theorem and_signalBit_ne_zero (value : U64) {i : Nat} (hi : i < 63) :
    (value &&& signalBit ((i + 1 : Nat) : Int) != 0) = value.getLsbD i := by
  have hvalid : ¬(((i + 1 : Nat) : Int) ≤ 0 ∨ ((i + 1 : Nat) : Int) ≥ 64) := by omega
  have hindex : (((i + 1 : Nat) : Int) - 1).toNat = i := by omega
  rw [signalBit, if_neg hvalid, hindex]
  exact SoftCPU64.and_one_shiftLeft_ne_zero value (by omega)

/-- The bit is the lowest-numbered pending one that is not in the mask. -/
structure Deliverable (emulator : Emulator) (i : Nat) : Prop where
  pending : emulator.pendingSignals.getLsbD i = true
  unblocked : emulator.signalMask.getLsbD i = false
  lowest : ∀ j < i, emulator.pendingSignals.getLsbD j = true →
    emulator.signalMask.getLsbD j = true

theorem Deliverable.unique {emulator : Emulator} {i j : Nat} (hi : Deliverable emulator i)
    (hj : Deliverable emulator j) : i = j := by
  rcases Nat.lt_trichotomy i j with hlt | heq | hlt
  · have hblocked := hj.lowest i hlt hi.pending
    rw [hi.unblocked] at hblocked
    cases hblocked
  · exact heq
  · have hblocked := hi.lowest j hlt hj.pending
    rw [hj.unblocked] at hblocked
    cases hblocked

/-- Below a pending bit that is not in the mask there is a deliverable one. -/
theorem exists_deliverable {emulator : Emulator} {i : Nat}
    (hpending : emulator.pendingSignals.getLsbD i = true)
    (hunblocked : emulator.signalMask.getLsbD i = false) : ∃ j ≤ i, Deliverable emulator j := by
  induction i using Nat.strongRecOn with
  | ind i ih =>
      by_cases hlower : ∃ j < i, emulator.pendingSignals.getLsbD j = true ∧
          emulator.signalMask.getLsbD j = false
      · rcases hlower with ⟨j, hj, hearlier, hopen⟩
        rcases ih j hj hearlier hopen with ⟨k, hk, hdeliverable⟩
        exact ⟨k, by omega, hdeliverable⟩
      · refine ⟨i, Nat.le_refl i, hpending, hunblocked, fun j hj hearlier => ?_⟩
        by_contra hopen
        exact hlower ⟨j, hj, hearlier, by simpa using hopen⟩

/-- The scan of `dispatch_pending_signal` finds the lowest pending bit that is not in the
mask. -/
theorem nextPendingSignal_eq_some_iff {emulator : Emulator} {signum : Nat} :
    emulator.nextPendingSignal = some signum ↔
      ∃ i < 63, signum = i + 1 ∧ Deliverable emulator i := by
  have hscan : ∀ i < 63, (emulator.pendingSignals &&& signalBit ((i + 1 : Nat) : Int) != 0 &&
      !emulator.isSignalBlocked (i + 1)) =
        (emulator.pendingSignals.getLsbD i && !emulator.signalMask.getLsbD i) := by
    intro i hi
    rw [isSignalBlocked, and_signalBit_ne_zero _ hi, and_signalBit_ne_zero _ hi]
  rw [nextPendingSignal, signalNumbers, List.find?_range'_eq_some]
  constructor
  · rintro ⟨hfound, hmem, hfirst⟩
    rw [List.mem_range'_1] at hmem
    rcases Nat.exists_eq_add_of_le' hmem.1 with ⟨i, rfl⟩
    have hi : i < 63 := by omega
    rw [hscan i hi, Bool.and_eq_true, Bool.not_eq_true'] at hfound
    refine ⟨i, hi, rfl, hfound.1, hfound.2, fun j hj hpending => ?_⟩
    have hearlier := hfirst (j + 1) (by omega) (by omega)
    rw [hscan j (by omega), hpending, Bool.true_and, Bool.not_not] at hearlier
    exact hearlier
  · rintro ⟨i, hi, rfl, hdeliverable⟩
    refine ⟨?_, ?_, fun j hpos hj => ?_⟩
    · rw [hscan i hi, hdeliverable.pending, hdeliverable.unblocked]
      rfl
    · rw [List.mem_range'_1]
      omega
    · rcases Nat.exists_eq_add_of_le' hpos with ⟨j, rfl⟩
      have hlower := hdeliverable.lowest j (by omega)
      rw [hscan j (by omega)]
      cases hpending : emulator.pendingSignals.getLsbD j with
      | false => rfl
      | true =>
          rw [hlower hpending]
          rfl

/-! ## What one operation can do -/

section Effects

variable (emulator : Emulator)

/-- The emulator with other memory. -/
def OnlyMemory (next : Emulator) : Prop :=
  ∃ mmu, next = emulator.withMMU mmu

theorem preserves_onlyMemory_onMMU {α : Type} (program : MMUProgram α) :
    Preserves (OnlyMemory emulator) (onMMU program) := by
  rintro _ ⟨mmu, rfl⟩
  unfold onMMU onPart
  cases program (emulator.withMMU mmu).mmu <;> exact ⟨_, rfl⟩

/-- A delivery adds the bit of a valid signal. -/
theorem deliverSignal_effect (signum : Int) :
    finalState (deliverSignal signum emulator) =
      { emulator with
        pendingSignals := emulator.pendingSignals |||
          if isInvalidSignal signum then 0 else signalBit signum } := by
  unfold deliverSignal
  split
  · simp
  · rfl

/-- What a change of an action leaves: the old action may have been written to memory. -/
def ActionEffect (signum : Int) (action : SignalAction) (next : Emulator) : Prop :=
  OnlyMemory emulator next ∨
    (signum ≠ sigKill ∧ signum ≠ sigStop ∧ ∃ mmu,
      next = { emulator.withMMU mmu with
        signalActions := Function.update emulator.signalActions signum.toNat action })

theorem setSignalAction_effect (signum : Int) (updateAction : Bool) (action : SignalAction)
    (oldActionAddress : U64) :
    ActionEffect emulator signum action
      (finalState (setSignalAction signum updateAction action oldActionAddress emulator)) := by
  suffices hleads : LeadsTo (OnlyMemory emulator) (ActionEffect emulator signum action)
      (setSignalAction signum updateAction action oldActionAddress) from
    hleads emulator ⟨emulator.mmu, rfl⟩
  have hkept : ∀ next, OnlyMemory emulator next → ActionEffect emulator signum action next :=
    fun _ => Or.inl
  have hwrite := fun address value =>
    preserves_onlyMemory_onMMU emulator (SoftMMU.write64 address value)
  refine .ite (fun _ => .pure hkept _) fun _ => .ite (fun _ => .pure hkept _) fun hsettable => ?_
  rw [not_or] at hsettable
  have hupdate : LeadsTo (OnlyMemory emulator) (ActionEffect emulator signum action)
      (if updateAction then do
        modify fun emulator : Emulator =>
          { emulator with
            signalActions := Function.update emulator.signalActions signum.toNat action }
        pure (Except.ok ())
      else pure (Except.ok ()) : EmulatorProgram (Except Errno Unit)) := by
    refine .ite (fun _ => .modify_bind ?_ fun _ => .pure _) fun _ => .pure hkept _
    rintro _ ⟨mmu, rfl⟩
    exact Or.inr ⟨hsettable.1, hsettable.2, mmu, rfl⟩
  refine .ite (fun _ => ?_) fun _ => hupdate
  refine .bind (fun _ h => h) hkept fun old => .bind (hwrite _ _) hkept fun _ =>
    .bind (hwrite _ _) hkept fun _ => .bind (hwrite _ _) hkept fun _ =>
      .bind (hwrite _ _) hkept fun _ => hupdate

/-- The mask that `set_signal_mask` takes from memory: without the signals that cannot be
blocked. -/
def settableMask (mask : U64) : U64 :=
  mask &&& ~~~signalBit sigKill &&& ~~~signalBit sigStop

/-- What a change of the mask leaves: it adds, removes or assigns signals that can be blocked. -/
def MaskEffect (next : Emulator) : Prop :=
  OnlyMemory emulator next ∨ ∃ mmu mask,
    (next = { emulator.withMMU mmu with signalMask := emulator.signalMask ||| settableMask mask } ∨
      next = { emulator.withMMU mmu with
        signalMask := emulator.signalMask &&& ~~~settableMask mask } ∨
      next = { emulator.withMMU mmu with signalMask := settableMask mask })

theorem setSignalMask_effect (how : Int) (setAddress oldSetAddress : U64) :
    MaskEffect emulator (finalState (setSignalMask how setAddress oldSetAddress emulator)) := by
  have hself : OnlyMemory emulator emulator := ⟨emulator.mmu, rfl⟩
  have hkept : ∀ next, OnlyMemory emulator next → MaskEffect emulator next := fun _ => Or.inl
  rw [setSignalMask, bind_of_ok (get_apply emulator)]
  have hread : Preserves (OnlyMemory emulator) (readMMU fun mmu => mmu.read64 setAddress) :=
    Preserves.observe _
  suffices hset : LeadsTo (OnlyMemory emulator) (MaskEffect emulator)
      (if setAddress = 0 then pure (Except.ok ())
        else _ : EmulatorProgram (Except Errno Unit)) from
    LeadsTo.ite (fun _ => .bind (preserves_onlyMemory_onMMU emulator _) hkept fun _ => hset)
      (fun _ => hset) emulator hself
  refine .ite (fun _ => .pure hkept _) fun _ => .bind hread hkept fun mask => ?_
  refine .ite (fun _ => .modify_bind ?_ fun _ => .pure _) fun _ =>
    .ite (fun _ => .modify_bind ?_ fun _ => .pure _) fun _ =>
      .ite (fun _ => .modify_bind ?_ fun _ => .pure _) fun _ => .pure hkept _
  · rintro _ ⟨mmu, rfl⟩
    exact Or.inr ⟨mmu, mask, Or.inl rfl⟩
  · rintro _ ⟨mmu, rfl⟩
    exact Or.inr ⟨mmu, mask, Or.inr (Or.inl rfl)⟩
  · rintro _ ⟨mmu, rfl⟩
    exact Or.inr ⟨mmu, mask, Or.inr (Or.inr rfl)⟩

theorem dispatchPendingSignal_of_none {emulator : Emulator}
    (h : emulator.nextPendingSignal = none) :
    dispatchPendingSignal emulator = .ok () emulator := by
  rw [dispatchPendingSignal, bind_of_ok (get_apply emulator), h]
  rfl

/-- What a dispatch leaves: nothing was deliverable; or the deliverable signal was taken off, and
it was ignored, it ended the guest, or its frame could not be written; or its handler was
entered. -/
inductive DispatchEffect : Emulator → Prop
  | idle (hnone : ∀ i < 63, ¬Deliverable emulator i) : DispatchEffect emulator
  | consumed {i : Nat} {mmu : SoftMMU} (hi : i < 63) (hdeliverable : Deliverable emulator i) :
      DispatchEffect ((consumePending (i + 1) emulator).withMMU mmu)
  | entered {i : Nat} {mmu : SoftMMU} (hi : i < 63) (hdeliverable : Deliverable emulator i)
      (hhandler : emulator.HasGuestHandler (i + 1)) :
      DispatchEffect (emulator.delivered (i + 1) mmu)

theorem dispatchPendingSignal_effect :
    DispatchEffect emulator (finalState (dispatchPendingSignal emulator)) := by
  cases hpending : emulator.nextPendingSignal with
  | none =>
      have hnone : ∀ i < 63, ¬Deliverable emulator i := by
        intro i hi hdeliverable
        rw [nextPendingSignal_eq_some_iff.mpr ⟨i, hi, rfl, hdeliverable⟩] at hpending
        cases hpending
      rw [dispatchPendingSignal_of_none hpending]
      exact .idle hnone
  | some signum =>
      rcases nextPendingSignal_eq_some_iff.mp hpending with ⟨i, hi, rfl, hdeliverable⟩
      have hkept : ∀ mmu, DispatchEffect emulator
          ((consumePending (i + 1) emulator).withMMU mmu) :=
        fun _ => .consumed hi hdeliverable
      rw [dispatchPendingSignal_of_some hpending, applyDisposition]
      split
      · exact hkept _
      · rename_i hignored
        split
        · split
          · exact hkept _
          · exact hkept _
        · rename_i hdefault
          rw [enterHandler, bind_of_ok (get_apply _)]
          generalize hframe : onMMU (saveSignalFrame _ _ _ _) (consumePending (i + 1) emulator) =
            outcome
          cases outcome with
          | error e next =>
              rcases onMMU_eq_error_iff.mp hframe with ⟨mmu, -, rfl⟩
              rw [bind_of_error hframe]
              exact hkept mmu
          | ok u next =>
              rcases onMMU_eq_ok_iff.mp hframe with ⟨mmu, -, rfl⟩
              rw [bind_of_ok hframe]
              exact .entered hi hdeliverable ⟨hdefault, hignored⟩

/-- The magic value of the frame that the stack pointer points to. -/
def frameMagic : Except Raise U64 :=
  emulator.mmu.read64 (emulator.cpu.reg .rsp + SignalFrameOffset.magic)

/-- The mask word of that frame. -/
def frameMask : Except Raise U64 :=
  emulator.mmu.read64 (emulator.cpu.reg .rsp + SignalFrameOffset.mask)

/-- What a return from a handler leaves: the mask is the one of the frame, or it stays because
the frame is not one or cannot be read. -/
def SigreturnEffect (next : Emulator) : Prop :=
  ∃ cpu restored mask,
    next = { emulator.withCPU cpu with
      signalMask := mask, restoredContextFromSigreturn := restored } ∧
    (mask = emulator.signalMask ∨
      (emulator.frameMagic = .ok signalFrameMagic ∧ emulator.frameMask = .ok mask))

theorem handleSigreturn_effect :
    SigreturnEffect emulator (finalState (handleSigreturn emulator)) := by
  have hself : SigreturnEffect emulator emulator := ⟨emulator.cpu, _, _, rfl, Or.inl rfl⟩
  have hraise : ∀ {f : SoftMMU → Except Raise U64} {e : Raise}, f emulator.mmu = .error e →
      readMMU f emulator = .error e emulator := fun h => observe_eq_error_iff.mpr ⟨h, rfl⟩
  rw [handleSigreturn, bind_of_ok (getCPU_apply emulator)]
  cases hmagic : emulator.frameMagic with
  | error e =>
      rw [bind_of_error (hraise hmagic)]
      exact hself
  | ok magic =>
      rw [bind_of_ok (readMMU_eq_ok_iff.mpr ⟨hmagic, rfl⟩)]
      split
      · exact hself
      · rename_i hequal
        rw [ne_eq, not_not] at hequal
        rw [hequal] at hmagic
        cases hmask : emulator.frameMask with
        | error e =>
            rw [bind_of_error (hraise hmask)]
            exact hself
        | ok mask =>
            rw [bind_of_ok (readMMU_eq_ok_iff.mpr ⟨hmask, rfl⟩), bind_of_ok (modify_apply _ _)]
            have hread : ∀ {α : Type} (f : SoftMMU → Except Raise α),
                Preserves (SigreturnEffect emulator) (readMMU f) := fun f => Preserves.observe _
            have hcpu : ∀ f, Preserves (SigreturnEffect emulator) (modifyCPU f) := by
              rintro f _ ⟨cpu, restored, mask, rfl, hmask⟩
              exact ⟨_, _, _, rfl, hmask⟩
            have hflag : Preserves (SigreturnEffect emulator)
                (modify (fun emulator =>
                  { emulator with restoredContextFromSigreturn := true }) :
                  EmulatorProgram Unit) := by
              rintro _ ⟨cpu, restored, mask, rfl, hmask⟩
              exact ⟨_, _, _, rfl, hmask⟩
            refine ((hread _).bind fun _ => (hread _).bind fun _ => (hread _).bind fun _ =>
              (hread _).bind fun _ => (hread _).bind fun _ => (hcpu _).bind fun _ =>
                hflag.bind fun _ => Preserves.pure _) _ ?_
            exact ⟨emulator.cpu, _, mask, rfl, Or.inr ⟨hmagic, hmask⟩⟩

end Effects

/-! ## Runs -/

/-- An operation on the signal state, or what the guest does between two of them: it may leave
any memory and any registers behind. -/
inductive SignalStep where
  | deliver (signum : Int)
  | setMask (how : Int) (setAddress oldSetAddress : U64)
  | setAction (signum : Int) (updateAction : Bool) (action : SignalAction)
      (oldActionAddress : U64)
  | dispatch
  | sigreturn
  | guest (mmu : SoftMMU) (cpu : SoftCPU64)

namespace SignalStep

def exec : SignalStep → EmulatorProgram Unit
  | deliver signum => do
      let _ ← deliverSignal signum
      return ()
  | setMask how setAddress oldSetAddress => do
      let _ ← setSignalMask how setAddress oldSetAddress
      return ()
  | setAction signum updateAction action oldActionAddress => do
      let _ ← setSignalAction signum updateAction action oldActionAddress
      return ()
  | dispatch => dispatchPendingSignal
  | sigreturn => do
      let _ ← handleSigreturn
      return ()
  | guest mmu cpu => modify fun emulator => (emulator.withMMU mmu).withCPU cpu

/-- The state after a step, whether it returned or raised. -/
def next (step : SignalStep) (emulator : Emulator) : Emulator :=
  finalState (step.exec emulator)

/-- The step changes the mask on behalf of the guest. -/
def ChangesMask : SignalStep → Prop
  | setMask _ _ _ => True
  | sigreturn => True
  | _ => False

variable (emulator : Emulator)

theorem next_deliver (signum : Int) :
    (deliver signum).next emulator = finalState (deliverSignal signum emulator) :=
  finalState_bind_of_keeps id (fun _ _ => rfl) emulator

theorem next_setMask (how : Int) (setAddress oldSetAddress : U64) :
    (setMask how setAddress oldSetAddress).next emulator =
      finalState (setSignalMask how setAddress oldSetAddress emulator) :=
  finalState_bind_of_keeps id (fun _ _ => rfl) emulator

theorem next_setAction (signum : Int) (updateAction : Bool) (action : SignalAction)
    (oldActionAddress : U64) :
    (setAction signum updateAction action oldActionAddress).next emulator =
      finalState (setSignalAction signum updateAction action oldActionAddress emulator) :=
  finalState_bind_of_keeps id (fun _ _ => rfl) emulator

theorem next_sigreturn :
    sigreturn.next emulator = finalState (handleSigreturn emulator) :=
  finalState_bind_of_keeps id (fun _ _ => rfl) emulator

variable {emulator}

/-- A pending bit leaves in a dispatch only, and then it is the deliverable one. -/
theorem dispatch_of_left {step : SignalStep} {i : Nat}
    (hbefore : emulator.pendingSignals.getLsbD i = true)
    (hafter : (step.next emulator).pendingSignals.getLsbD i = false) :
    step = .dispatch ∧ Deliverable emulator i := by
  cases step with
  | deliver signum =>
      rw [next_deliver, deliverSignal_effect, BitVec.getLsbD_or, hbefore] at hafter
      cases hafter
  | setMask how setAddress oldSetAddress =>
      rw [next_setMask] at hafter
      rcases setSignalMask_effect emulator how setAddress oldSetAddress with
        ⟨mmu, hnext⟩ | ⟨mmu, mask, hnext | hnext | hnext⟩ <;>
      · rw [hnext] at hafter
        exact absurd (hbefore.symm.trans hafter) (by decide)
  | setAction signum updateAction action oldActionAddress =>
      rw [next_setAction] at hafter
      rcases setSignalAction_effect emulator signum updateAction action oldActionAddress with
        ⟨mmu, hnext⟩ | ⟨-, -, mmu, hnext⟩ <;>
      · rw [hnext] at hafter
        exact absurd (hbefore.symm.trans hafter) (by decide)
  | sigreturn =>
      rw [next_sigreturn] at hafter
      rcases handleSigreturn_effect emulator with ⟨cpu, restored, mask, hnext, -⟩
      rw [hnext] at hafter
      exact absurd (hbefore.symm.trans hafter) (by decide)
  | guest mmu cpu => exact absurd (hbefore.symm.trans hafter) (by decide)
  | dispatch =>
      have htaken : ∀ j < 63, Deliverable emulator j →
          (emulator.pendingSignals &&& ~~~signalBit ((j + 1 : Nat) : Int)).getLsbD i = false →
            Deliverable emulator i := by
        intro j hj hdeliverable hleft
        have hin := BitVec.lt_of_getLsbD hbefore
        rw [BitVec.getLsbD_and, hbefore, Bool.true_and, BitVec.getLsbD_not,
          getLsbD_signalBit hj, decide_eq_true hin, Bool.true_and] at hleft
        have hsame : j = i := by simpa using hleft
        rwa [← hsame]
      refine ⟨rfl, ?_⟩
      generalize hnext : SignalStep.dispatch.next emulator = next at hafter
      have heffect := dispatchPendingSignal_effect emulator
      change DispatchEffect emulator (SignalStep.dispatch.next emulator) at heffect
      rw [hnext] at heffect
      cases heffect with
      | idle _ => exact absurd (hbefore.symm.trans hafter) (by decide)
      | consumed hj hdeliverable => exact htaken _ hj hdeliverable hafter
      | entered hj hdeliverable _ => exact htaken _ hj hdeliverable hafter

/-- Only the mask system call and the return from a handler take a bit out of the mask. -/
theorem blocked_of_blocked {step : SignalStep} {i : Nat} (hstep : ¬step.ChangesMask)
    (hblocked : emulator.signalMask.getLsbD i = true) :
    (step.next emulator).signalMask.getLsbD i = true := by
  cases step with
  | deliver signum => rwa [next_deliver, deliverSignal_effect]
  | setMask how setAddress oldSetAddress => exact absurd trivial hstep
  | setAction signum updateAction action oldActionAddress =>
      rw [next_setAction]
      rcases setSignalAction_effect emulator signum updateAction action oldActionAddress with
        ⟨mmu, hnext⟩ | ⟨-, -, mmu, hnext⟩ <;>
      · rw [hnext]
        exact hblocked
  | sigreturn => exact absurd trivial hstep
  | guest mmu cpu => exact hblocked
  | dispatch =>
      have heffect := dispatchPendingSignal_effect emulator
      change DispatchEffect emulator (SignalStep.dispatch.next emulator) at heffect
      generalize SignalStep.dispatch.next emulator = next at heffect
      cases heffect with
      | idle _ => exact hblocked
      | consumed _ _ => exact hblocked
      | entered _ _ _ =>
          change (_ ||| _ ||| _ : U64).getLsbD i = true
          rw [BitVec.getLsbD_or, BitVec.getLsbD_or, hblocked, Bool.true_or, Bool.true_or]

end SignalStep

/-- The bit was pending and is not any more. -/
def Left (i : Nat) (here next : Emulator) : Prop :=
  here.pendingSignals.getLsbD i = true ∧ next.pendingSignals.getLsbD i = false

/-- The guest handler of a signal was entered: its bit was taken off, the mask grew by the mask
of its action and by its own bit, and the CPU is at the entry of the handler. -/
structure HandlerEntered (i : Nat) (here next : Emulator) : Prop where
  deliverable : Deliverable here i
  left : Left i here next
  mask : next.signalMask =
    here.signalMask ||| (here.signalActions (i + 1)).mask ||| signalBit ((i + 1 : Nat) : Int)
  cpu : next.cpu = handlerEntry here.cpu (i + 1) (here.signalActions (i + 1)).handler
    (here.frame - 8) (here.restorerFor (here.signalActions (i + 1)))

/-- A dispatch enters the handler of the deliverable signal, or none. -/
theorem handlerEntered_of_dispatch (here : Emulator) :
    let next := SignalStep.dispatch.next here
    (next.cpu = here.cpu ∧ next.signalMask = here.signalMask) ∨
      ∃ i < 63, HandlerEntered i here next := by
  have heffect := dispatchPendingSignal_effect here
  change DispatchEffect here (SignalStep.dispatch.next here) at heffect
  dsimp only
  generalize SignalStep.dispatch.next here = next at heffect
  cases heffect with
  | idle _ => exact Or.inl ⟨rfl, rfl⟩
  | consumed _ _ => exact Or.inl ⟨rfl, rfl⟩
  | @entered i mmu hi hdeliverable _ =>
      refine Or.inr ⟨i, hi, hdeliverable, ⟨hdeliverable.pending, ?_⟩, rfl, rfl⟩
      change (_ &&& ~~~_ : U64).getLsbD i = false
      rw [BitVec.getLsbD_and, BitVec.getLsbD_not, getLsbD_signalBit hi]
      simp

/-- Pending signals are neither lost nor delivered while they are blocked, in any run: a valid
delivery makes its bit pending; a bit leaves in a dispatch only, as the lowest pending bit that is
not in the mask, and alone; a handler is entered for that bit only; and after the entry the bit is
not deliverable again until the guest changes the mask or returns from a handler. -/
theorem signals_of_run (start : Emulator) (steps : List SignalStep) (step : SignalStep) :
    let here := runAll SignalStep.exec steps start
    let next := step.next here
    (∀ i < 63, step = .deliver ((i + 1 : Nat) : Int) →
        next.pendingSignals.getLsbD i = true) ∧
      (∀ i, Left i here next →
        step = .dispatch ∧ Deliverable here i ∧ ∀ j, Left j here next → j = i) ∧
      (step = .dispatch → (next.cpu = here.cpu ∧ next.signalMask = here.signalMask) ∨
        ∃ i < 63, HandlerEntered i here next) ∧
      ∀ i < 63, HandlerEntered i here next →
        ∀ later, (∀ s ∈ later, ¬SignalStep.ChangesMask s) →
          ¬Deliverable (runAll SignalStep.exec later next) i := by
  intro here next
  refine ⟨fun i hi hstep => ?_, fun i hleft => ?_, fun hstep => ?_, fun i hi hentered => ?_⟩
  · have hinvalid : isInvalidSignal ((i + 1 : Nat) : Int) = false := by
      have hcount : ¬((i + 1 : Nat) : Int) ≥ signalCount := by
        rw [signalCount]
        omega
      simp only [isInvalidSignal, Bool.or_eq_false_iff, decide_eq_false_iff_not]
      exact ⟨⟨by omega, hcount⟩, by omega⟩
    change (step.next here).pendingSignals.getLsbD i = true
    rw [hstep, SignalStep.next_deliver, deliverSignal_effect, hinvalid]
    change (here.pendingSignals ||| signalBit ((i + 1 : Nat) : Int)).getLsbD i = true
    rw [BitVec.getLsbD_or, getLsbD_signalBit hi, decide_eq_true rfl, Bool.or_true]
  · have hdispatch := SignalStep.dispatch_of_left hleft.1 hleft.2
    refine ⟨hdispatch.1, hdispatch.2, fun j hother => ?_⟩
    exact (SignalStep.dispatch_of_left hother.1 hother.2).2.unique hdispatch.2
  · subst hstep
    exact handlerEntered_of_dispatch here
  · intro later hlater hdeliverable
    have hblocked : next.signalMask.getLsbD i = true := by
      rw [hentered.mask, BitVec.getLsbD_or, getLsbD_signalBit hi, decide_eq_true rfl,
        Bool.or_true]
    have hstill := runAll_invariant
      (P := fun emulator : Emulator => emulator.signalMask.getLsbD i = true)
      (fun s hs emulator hmask => SignalStep.blocked_of_blocked (hlater s hs) hmask) hblocked
    rw [hdeliverable.unblocked] at hstill
    cases hstill

end Emulator

end LUE
