import LinuxUserspaceEmulator.Emulator.SignalFrame
import LinuxUserspaceEmulator.SoftCPU64.Step

/-!
# The loop of `exec`

Each round of the loop executes one instruction, collects the host signals that have
arrived, and dispatches at most one pending signal.  This file has the loop and what its
signal half does to the emulator.

Main results:

- Theorem `collectHostSignals_eq_ok`: collecting only marks signals as pending.
- Theorem `dispatch_keeps_context`: a dispatch that enters no handler interrupts nothing.
- Theorem `dispatchPendingSignal_of_writable`: a delivery to a writable stack returns and
  writes only its frame.
- Theorem `EntersHandler.guestByte`: the bytes of the frame after a delivery.
-/

namespace LUE

open StateExcept SoftMMU

namespace Emulator

/-! ## Rounds -/

/-- The end of a round: signals are looked at between two instructions. -/
def signalRound (arrived : Nat → Bool) : EmulatorProgram Unit := do
  collectHostSignals arrived
  dispatchPendingSignal

/-- A round of the loop of `exec`, with the host as it is during the round. -/
def execRound (host : Host) (arrived : Nat → Bool) : EmulatorProgram Unit := do
  SoftCPU64.step host
  signalRound arrived

/-- One round of the loop, for some behaviour of the host. -/
def Round (emulator emulator' : Emulator) : Prop :=
  ∃ host arrived, execRound host arrived emulator = .ok () emulator'

/-- Any number of rounds. -/
abbrev Rounds : Emulator → Emulator → Prop :=
  Relation.ReflTransGen Round

variable {emulator emulator' : Emulator} {signum : Nat}

/-- Delivering a signal only marks it as pending. -/
theorem preserves_deliverSignal (emulator : Emulator) (signum : Int) :
    Preserves (fun state => ∃ pending, state = { emulator with pendingSignals := pending })
      (deliverSignal signum) := by
  refine Preserves.ite (fun _ => Preserves.pure _) fun _ => ?_
  refine Preserves.bind (Preserves.modify ?_) fun _ => Preserves.pure _
  rintro state ⟨pending, rfl⟩
  exact ⟨_, rfl⟩

/-- Collecting host signals only marks signals as pending. -/
theorem collectHostSignals_eq_ok {arrived : Nat → Bool}
    (h : collectHostSignals arrived emulator = .ok () emulator') :
    ∃ pending, emulator' = { emulator with pendingSignals := pending } := by
  have hbody : ∀ signum, Preserves
      (fun state => ∃ pending, state = { emulator with pendingSignals := pending })
      (collectHostSignal arrived signum) := by
    intro signum
    refine Preserves.ite (fun _ => ?_) fun _ => Preserves.pure _
    exact (preserves_deliverSignal emulator signum).bind fun _ => Preserves.pure _
  have hall := Preserves.forM hbody signalNumbers emulator ⟨_, rfl⟩
  change ∃ pending, finalState (collectHostSignals arrived emulator) = _ at hall
  rw [h] at hall
  exact hall

/-! ## Entering a handler -/

/-- The disposition of a signal is a guest handler. -/
def HasGuestHandler (emulator : Emulator) (signum : Nat) : Prop :=
  (emulator.signalActions signum).handler ≠ 0 ∧ (emulator.signalActions signum).handler ≠ 1

/-- The dispatch of a signal to its guest handler. -/
structure EntersHandler (signum : Nat) (emulator emulator' : Emulator) : Prop where
  pending : emulator.nextPendingSignal = some signum
  handler : emulator.HasGuestHandler signum
  dispatch : dispatchPendingSignal emulator = .ok () emulator'

/-- The frame of the interrupted stack pointer. -/
def frame (emulator : Emulator) : U64 :=
  frameAddress (emulator.cpu.reg .rsp)

/-- What the delivery of a signal saves. -/
def savedFrame (emulator : Emulator) (signum : Nat) : SignalFrame where
  restorer := emulator.restorerFor (emulator.signalActions signum)
  mask := emulator.signalMask
  context := emulator.cpu.integerContext

/-- The emulator after the delivery of a signal, with the memory it wrote. -/
def delivered (emulator : Emulator) (signum : Nat) (mmu : SoftMMU) : Emulator :=
  let action := emulator.signalActions signum
  { emulator with
    mmu := mmu
    pendingSignals := emulator.pendingSignals &&& ~~~signalBit signum
    signalMask := emulator.signalMask ||| action.mask ||| signalBit signum
    cpu := handlerEntry emulator.cpu signum action.handler (emulator.frame - 8)
      (emulator.restorerFor action) }

theorem dispatchPendingSignal_of_some (h : emulator.nextPendingSignal = some signum) :
    dispatchPendingSignal emulator =
      applyDisposition signum (emulator.signalActions signum)
        (emulator.consumePending signum) := by
  rw [dispatchPendingSignal, bind_of_ok (get_apply emulator), h]
  rfl

/-- A signal with a guest handler is dispatched by writing its frame. -/
theorem dispatchPendingSignal_eq_ok_iff (hpending : emulator.nextPendingSignal = some signum)
    (hhandler : emulator.HasGuestHandler signum) :
    dispatchPendingSignal emulator = .ok () emulator' ↔
      ∃ mmu, writeBytes (emulator.frame - 8) (emulator.savedFrame signum).byte 184
          emulator.mmu = .ok () mmu ∧
        emulator' = emulator.delivered signum mmu := by
  have hsaved := saveSignalFrame_eq_writeBytes emulator.frame (emulator.savedFrame signum)
  rw [dispatchPendingSignal_of_some hpending, applyDisposition, if_neg hhandler.2,
    if_neg hhandler.1, enterHandler, bind_of_ok (get_apply _), ← hsaved]
  constructor
  · intro h
    obtain ⟨_, written, hwrite, hrest⟩ := bind_eq_ok_iff.mp h
    obtain ⟨mmu, hmmu, rfl⟩ := onMMU_eq_ok_iff.mp hwrite
    cases hrest
    exact ⟨mmu, hmmu, rfl⟩
  · rintro ⟨mmu, hmmu, rfl⟩
    exact bind_eq_ok_iff.mpr ⟨(), _, onMMU_eq_ok_iff.mpr ⟨mmu, hmmu, rfl⟩, rfl⟩

/-- A delivery to a writable stack returns and writes only its frame. -/
theorem dispatchPendingSignal_of_writable (hwf : RegionsWellFormed emulator.mmu.regions)
    (hpending : emulator.nextPendingSignal = some signum)
    (hhandler : emulator.HasGuestHandler signum)
    (hwritable : FrameWritable emulator.mmu emulator.frame) :
    ∃ mmu, dispatchPendingSignal emulator = .ok () (emulator.delivered signum mmu) ∧
      emulator.mmu.Edits mmu (emulator.mmu.addressMap.editCells (emulator.frame - 8) 184
        fun i cell =>
          { cell with byte := (emulator.savedFrame signum).byte i, initialized := true }) := by
  have hbelow := frameAddress_below_redZone hwf hwritable
  have hrsp := (emulator.cpu.reg .rsp).isLt
  have hfits : (emulator.frame - 8).toNat + 184 ≤ 2 ^ 64 := by
    change (frameAddress (emulator.cpu.reg .rsp) - 8).toNat + 184 ≤ 2 ^ 64
    omega
  obtain ⟨mmu, hwrite, hedits⟩ : ∃ mmu, writeBytes (emulator.frame - 8)
      (emulator.savedFrame signum).byte 184 emulator.mmu = .ok () mmu ∧ _ :=
    writeBytes_of_writable hwf hfits hwritable
  exact ⟨mmu, (dispatchPendingSignal_eq_ok_iff hpending hhandler).mpr ⟨mmu, hwrite, rfl⟩, hedits⟩

/-- The bytes of the return slot and the frame after a delivery. -/
theorem EntersHandler.guestByte (h : EntersHandler signum emulator emulator') {i : Nat}
    (hi : i < 184) :
    emulator'.mmu.guestByte (emulator.frame - 8 + BitVec.ofNat 64 i) =
      some ((emulator.savedFrame signum).byte i) := by
  obtain ⟨mmu, hwrite, rfl⟩ :=
    (dispatchPendingSignal_eq_ok_iff h.pending h.handler).mp h.dispatch
  have hoffset : (emulator.frame - 8 + BitVec.ofNat 64 i - (emulator.frame - 8)).toNat = i := by
    rw [BitVec.add_comm, BitVec.add_sub_cancel, BitVec.toNat_ofNat]
    omega
  change mmu.guestByte _ = _
  rw [guestByte_of_writeBytes (by omega) hwrite, hoffset, if_pos hi]

/-- The entry of a handler keeps the floating-point registers. -/
theorem EntersHandler.floatContext (h : EntersHandler signum emulator emulator') :
    emulator'.cpu.floatContext = emulator.cpu.floatContext := by
  obtain ⟨mmu, -, rfl⟩ := (dispatchPendingSignal_eq_ok_iff h.pending h.handler).mp h.dispatch
  rfl

/-! ## Entering no handler -/

/-- A dispatch that enters no guest handler interrupts nothing. -/
theorem dispatch_keeps_context (h : dispatchPendingSignal emulator = .ok () emulator')
    (hnone : ∀ signum, ¬EntersHandler signum emulator emulator') :
    emulator'.cpu = emulator.cpu ∧ emulator'.signalMask = emulator.signalMask := by
  cases hpending : emulator.nextPendingSignal with
  | none =>
      rw [dispatchPendingSignal, bind_of_ok (get_apply emulator), hpending] at h
      cases h
      exact ⟨rfl, rfl⟩
  | some signum =>
      have happly := h
      rw [dispatchPendingSignal_of_some hpending, applyDisposition] at happly
      by_cases hignored : (emulator.signalActions signum).handler = 1
      · rw [if_pos hignored] at happly
        cases happly
        exact ⟨rfl, rfl⟩
      · rw [if_neg hignored] at happly
        by_cases hdefault : (emulator.signalActions signum).handler = 0
        · rw [if_pos hdefault] at happly
          split at happly
          · cases happly
            exact ⟨rfl, rfl⟩
          · cases happly
        · exact absurd ⟨hpending, ⟨hdefault, hignored⟩, h⟩ (hnone signum)

end Emulator

end LUE
