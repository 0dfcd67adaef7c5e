import LinuxUserspaceEmulator.Emulator.Signals
import LinuxUserspaceEmulator.SoftMMU.GuestBytes

/-!
# Signal frames

What a delivery stores on the guest stack: the return slot of the handler and, above it,
the frame that `rt_sigreturn` reads.  The 23 stores of a delivery are one block of 184
consecutive bytes, and a return that finds the frame unchanged restores what it was built
from.

Main results:

- Theorem `saveSignalFrame_eq_writeBytes`: the stores of a delivery are one block of bytes.
- Theorem `frameAddress_below_redZone`: a mapped frame lies below the red zone.
- Theorem `handleSigreturn_of_frame`: a return from an intact frame.
-/

namespace LUE

open StateExcept SoftMMU

/-! ## The words of a frame -/

/-- What a delivery saves. -/
structure SignalFrame where
  restorer : U64
  mask : U64
  context : SoftCPU64.IntegerContext

namespace SignalFrame

variable (saved : SignalFrame)

/-- The stored words, from the return slot on. -/
def word : Nat → U64
  | 0 => saved.restorer
  | 1 => signalFrameMagic
  | 2 => saved.mask
  | 3 => saved.context.rip
  | 4 => saved.context.rflags
  | 21 => saved.context.fsBase
  | 22 => saved.context.gsBase
  | k => saved.context.gpr (Fin.ofNat 16 (k - 5))

/-- The stored bytes, from the return slot on. -/
def byte (i : Nat) : U8 :=
  LittleEndian.byte (saved.word (i / 8)) (i % 8)

theorem word_gpr {i : Nat} (hi : i < 16) :
    saved.word (5 + i) = saved.context.gpr (Fin.ofNat 16 i) := by
  unfold word
  split <;> first | omega | skip
  rw [Nat.add_sub_cancel_left]

end SignalFrame

/-- The slots above the return slot are those of the frame. -/
theorem slot_succ (frame : U64) (k : Nat) :
    frame - 8 + BitVec.ofNat 64 ((k + 1) * 8) = frame + BitVec.ofNat 64 (k * 8) := by
  rw [Nat.succ_mul]
  bv_omega

namespace Emulator

/-- The stores of a delivery, word by word. -/
theorem saveSignalFrame_eq_words (frame : U64) (saved : SignalFrame) :
    saveSignalFrame frame saved.restorer saved.mask saved.context =
      forOffsets (fun k => write64 (frame - 8 + BitVec.ofNat 64 (k * 8)) (saved.word k)) 23 := by
  have hgpr : forOffsets (fun i =>
      write64 (frame + SignalFrameOffset.gpr + BitVec.ofNat 64 i * 8)
        (saved.context.gpr (Fin.ofNat 16 i))) 16 =
      forOffsets (fun i =>
        write64 (frame - 8 + BitVec.ofNat 64 ((5 + i) * 8)) (saved.word (5 + i))) 16 := by
    refine forOffsets_congr fun i hi => ?_
    have haddress : frame + SignalFrameOffset.gpr + BitVec.ofNat 64 i * 8 =
        frame - 8 + BitVec.ofNat 64 ((5 + i) * 8) := by
      simp only [SignalFrameOffset.gpr]
      bv_omega
    rw [haddress, saved.word_gpr hi]
  rw [show (23 : Nat) = 5 + (16 + 2) from rfl, forOffsets_add, forOffsets_add, ← hgpr,
    saveSignalFrame]
  generalize forOffsets (fun i => write64 (frame + SignalFrameOffset.gpr +
    BitVec.ofNat 64 i * 8) (saved.context.gpr (Fin.ofNat 16 i))) 16 = registers
  have hslot : frame - 8 + BitVec.ofNat 64 (0 * 8) = frame - 8 := by simp
  simp only [forOffsets, bind_assoc, pure_bind, slot_succ frame, hslot, SignalFrame.word]
  simp [SignalFrameOffset.magic, SignalFrameOffset.mask, SignalFrameOffset.rip,
    SignalFrameOffset.rflags, SignalFrameOffset.gsBase, SignalFrameOffset.fsBase,
    SignalFrameOffset.gpr]

/-- The stores of a delivery are one block of bytes. -/
theorem saveSignalFrame_eq_writeBytes (frame : U64) (saved : SignalFrame) :
    saveSignalFrame frame saved.restorer saved.mask saved.context =
      writeBytes (frame - 8) saved.byte 184 := by
  rw [saveSignalFrame_eq_words, writeBytes, show (184 : Nat) = 23 * 8 from rfl,
    ← forOffsets_mul]
  refine forOffsets_congr fun k _ => ?_
  rw [write64, writeInteger]
  refine forOffsets_congr fun j hj => ?_
  have haddress : frame - 8 + BitVec.ofNat 64 (k * 8) + BitVec.ofNat 64 j =
      frame - 8 + BitVec.ofNat 64 (k * 8 + j) := by
    rw [BitVec.add_assoc, ← BitVec.ofNat_add]
  have hword : (k * 8 + j) / 8 = k := by omega
  have hindex : (k * 8 + j) % 8 = j := by omega
  rw [haddress, SignalFrame.byte, hword, hindex]
  rfl

/-! ## Where a frame lies -/

theorem toNat_frameAddress (oldRsp : U64) :
    (frameAddress oldRsp).toNat = (oldRsp.toNat + (2 ^ 64 - 304)) % 2 ^ 64 / 16 * 16 := by
  have hbelow : (oldRsp - signalFrameSize - 128).toNat =
      (oldRsp.toNat + (2 ^ 64 - 304)) % 2 ^ 64 := by
    have hsize : signalFrameSize = 176 := by decide
    rw [hsize]
    bv_omega
  have hmask := @toNat_and_not_lowMask 0xf 4 (by decide) (oldRsp - signalFrameSize - 128)
  rw [hbelow] at hmask
  exact hmask

/-- The block of a frame can be written. -/
def FrameWritable (mmu : SoftMMU) (frame : U64) : Prop :=
  ∀ i < 184, ∃ cell, mmu.addressMap.access (frame - 8 + BitVec.ofNat 64 i) protWrite = .ok cell

/-- A writable frame and its return slot lie below the red zone, without wrapping. -/
theorem frameAddress_below_redZone {mmu : SoftMMU} (hwf : RegionsWellFormed mmu.regions)
    {oldRsp : U64} (hwritable : FrameWritable mmu (frameAddress oldRsp)) :
    (frameAddress oldRsp - 8).toNat + 8 = (frameAddress oldRsp).toNat ∧
      (frameAddress oldRsp).toNat + 176 + 128 ≤ oldRsp.toNat := by
  have haddress := toNat_frameAddress oldRsp
  obtain ⟨cell, hslot⟩ := hwritable 0 (by omega)
  obtain ⟨cell', hframe⟩ := hwritable 8 (by omega)
  have hslotlt := lt_of_addressMap hwf (AddressMap.access_eq_ok_iff.mp hslot).1
  have hframelt := lt_of_addressMap hwf (AddressMap.access_eq_ok_iff.mp hframe).1
  have hslotaddress : frameAddress oldRsp - 8 + BitVec.ofNat 64 0 = frameAddress oldRsp - 8 := by
    simp
  have hframeaddress : frameAddress oldRsp - 8 + BitVec.ofNat 64 8 = frameAddress oldRsp :=
    BitVec.sub_add_cancel _ _
  rw [hslotaddress] at hslotlt
  rw [hframeaddress] at hframelt
  have hsub : (frameAddress oldRsp - 8).toNat =
      (2 ^ 64 - 8 + (frameAddress oldRsp).toNat) % 2 ^ 64 := by
    rw [BitVec.toNat_sub]
    rfl
  have hrsp := oldRsp.isLt
  omega

/-! ## Reading a frame back -/

/-- The frame at an address can be read, and its bytes are those that were stored. -/
def FrameReads (mmu : SoftMMU) (frame : U64) (saved : SignalFrame) : Prop :=
  ∀ i < 176, mmu.read8 (frame + BitVec.ofNat 64 i) = .ok (saved.byte (8 + i))

section Reading

variable {mmu : SoftMMU} {frame : U64} {saved : SignalFrame}

/-- The words of a frame that reads back. -/
theorem FrameReads.read64 (h : FrameReads mmu frame saved) {k : Nat} (hk : k < 22) :
    mmu.read64 (frame + BitVec.ofNat 64 (k * 8)) = .ok (saved.word (k + 1)) := by
  have hbytes : ∀ j < 8, mmu.read8 (frame + BitVec.ofNat 64 (k * 8) + BitVec.ofNat 64 j) =
      .ok (LittleEndian.byte (saved.word (k + 1)) j) := by
    intro j hj
    have hword : (8 + (k * 8 + j)) / 8 = k + 1 := by omega
    have hindex : (8 + (k * 8 + j)) % 8 = j := by omega
    rw [BitVec.add_assoc, ← BitVec.ofNat_add, h (k * 8 + j) (by omega), SignalFrame.byte,
      hword, hindex]
  rw [SoftMMU.read64, readInteger_of_bytes hbytes, LittleEndian.assemble_byte]

/-- The saved registers of a frame that reads back. -/
theorem FrameReads.readSavedRegs (h : FrameReads mmu frame saved) :
    readSavedRegs frame mmu = .ok saved.context.gpr := by
  have hregs : (List.range 16).mapM (fun i =>
      mmu.read64 (frame + SignalFrameOffset.gpr + BitVec.ofNat 64 i * 8)) =
      .ok ((List.range 16).map fun i => saved.context.gpr (Fin.ofNat 16 i)) := by
    refine mapM_eq_ok fun i hi => ?_
    have hlt := List.mem_range.mp hi
    have haddress : frame + SignalFrameOffset.gpr + BitVec.ofNat 64 i * 8 =
        frame + BitVec.ofNat 64 ((4 + i) * 8) := by
      simp only [SignalFrameOffset.gpr]
      bv_omega
    rw [haddress, h.read64 (by omega), show 4 + i + 1 = 5 + i from by omega,
      saved.word_gpr hlt]
  rw [Emulator.readSavedRegs, except_bind_of_ok hregs]
  refine congrArg Except.ok (funext fun register => ?_)
  have hlt : register.val < 16 := register.isLt
  simp [List.getD_eq_getElem?_getD, hlt]

end Reading

/-- A return from an intact frame restores what the frame was built from. -/
theorem handleSigreturn_of_frame {emulator : Emulator} {saved : SignalFrame}
    (h : FrameReads emulator.mmu (emulator.cpu.reg .rsp) saved) :
    handleSigreturn emulator = .ok (saved.context.gpr .rax)
      { emulator with
        cpu := withContext emulator.cpu saved.context
        signalMask := saved.mask
        restoredContextFromSigreturn := true } := by
  have hread : ∀ (state : Emulator) (k : Nat) (offset : U64), k < 22 →
      state.mmu = emulator.mmu → offset = BitVec.ofNat 64 (k * 8) →
      readMMU (fun mmu => mmu.read64 (emulator.cpu.reg .rsp + offset)) state =
        .ok (saved.word (k + 1)) state := by
    intro state k offset hk hmmu hoffset
    subst hoffset
    rw [readMMU_eq_ok_iff, hmmu]
    exact ⟨h.read64 hk, rfl⟩
  have hregs : ∀ state : Emulator, state.mmu = emulator.mmu →
      readMMU (readSavedRegs (emulator.cpu.reg .rsp)) state = .ok saved.context.gpr state := by
    intro state hmmu
    rw [readMMU_eq_ok_iff, hmmu]
    exact ⟨h.readSavedRegs, rfl⟩
  have hmagic : readMMU (fun mmu =>
      mmu.read64 (emulator.cpu.reg .rsp + SignalFrameOffset.magic)) emulator =
        .ok signalFrameMagic emulator :=
    hread emulator 0 SignalFrameOffset.magic (by omega) rfl (by decide)
  have hvalid : ¬signalFrameMagic ≠ signalFrameMagic := not_not.mpr rfl
  have hmask : readMMU (fun mmu =>
      mmu.read64 (emulator.cpu.reg .rsp + SignalFrameOffset.mask)) emulator =
        .ok saved.mask emulator :=
    hread emulator 1 SignalFrameOffset.mask (by omega) rfl (by decide)
  let masked : Emulator := { emulator with signalMask := saved.mask }
  have hrip := hread masked 2 SignalFrameOffset.rip (by omega) rfl (by decide)
  have hrflags := hread masked 3 SignalFrameOffset.rflags (by omega) rfl (by decide)
  have hfs := hread masked 20 SignalFrameOffset.fsBase (by omega) rfl (by decide)
  have hgs := hread masked 21 SignalFrameOffset.gsBase (by omega) rfl (by decide)
  rw [handleSigreturn, bind_of_ok (getCPU_apply emulator), bind_of_ok hmagic,
    if_neg hvalid, bind_of_ok hmask, bind_of_ok (modify_apply _ _), bind_of_ok hrip,
    bind_of_ok hrflags, bind_of_ok (hregs masked rfl), bind_of_ok hfs, bind_of_ok hgs]
  rfl

end Emulator

end LUE
