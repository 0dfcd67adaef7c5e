import LinuxUserspaceEmulator.LinuxSyscalls.Dispatch
import LinuxUserspaceEmulator.SoftMMU.Words

/-!
# Backtraces of any guest state

`raw_backtrace` walks the chain of frame pointers, which the guest can point anywhere.
Before it reads a frame it asks whether the frame is mapped; the reads also ask for the
permission to read.

Main results:

- Theorem `appendFrames_returns_iff`: the walk returns when every frame it comes to that is
  mapped can be read.
- Theorem `rawBacktrace_returns_iff`: the same for `raw_backtrace`.
- Theorem `dumpState_returns_iff`: the same for `dump_state`.
-/

namespace LUE

open StateExcept SoftMMU

variable {mmu : SoftMMU} {frame nextFrame last : U64} {depth : Nat}

/-! ## The chain of frames -/

/-- The frame holds a return address and the frame pointer of its caller, further up. -/
structure NextFrame (mmu : SoftMMU) (frame nextFrame : U64) : Prop where
  ne_zero : frame ≠ 0
  saved : HoldsWord mmu frame nextFrame
  returns : ∃ returnAddress, HoldsWord mmu (frame + 8) returnAddress ∧ returnAddress ≠ 0
  forward : frame < nextFrame

/-- The frames of the chain that starts at a frame pointer, by their depth. -/
inductive FrameAt (mmu : SoftMMU) : U64 → Nat → U64 → Prop where
  | here (frame : U64) : FrameAt mmu frame 0 frame
  | up {frame nextFrame last : U64} {depth : Nat} (hnext : NextFrame mmu frame nextFrame)
      (h : FrameAt mmu nextFrame depth last) : FrameAt mmu frame (depth + 1) last

/-- The sixteen bytes of a frame are mapped. -/
def FrameMapped (mmu : SoftMMU) (frame : U64) : Prop :=
  ∀ i < 16, mmu.addressMap (frame + BitVec.ofNat 64 i) ≠ none

/-- The sixteen bytes of a frame can be read. -/
def FrameReadable (mmu : SoftMMU) (frame : U64) : Prop :=
  ∀ i < 16, Permits mmu (frame + BitVec.ofNat 64 i) protRead

/-- Frames that are mapped can be read, as deep as the walk goes. -/
def FramesReadable (mmu : SoftMMU) (start : U64) : Prop :=
  ∀ depth < 127, ∀ frame, FrameAt mmu start depth frame → frame ≠ 0 → FrameMapped mmu frame →
    FrameReadable mmu frame

theorem isMapped_frame_iff : mmu.isMapped frame 16 = true ↔ FrameMapped mmu frame := by
  simp [isMapped, FrameMapped, addressMap, addressMapOf, findRegion, Option.isSome_iff_ne_none]

/-- The two words of a frame. -/
theorem frameReadable_iff : FrameReadable mmu frame ↔
    (∀ i < 8, Permits mmu (frame + BitVec.ofNat 64 i) protRead) ∧
      ∀ i < 8, Permits mmu (frame + 8 + BitVec.ofNat 64 i) protRead := by
  have hsecond : ∀ i, frame + 8 + BitVec.ofNat 64 i = frame + BitVec.ofNat 64 (8 + i) := by
    intro i
    rw [BitVec.add_assoc, BitVec.ofNat_add]
    rfl
  simp only [hsecond]
  constructor
  · intro h
    exact ⟨fun i hi => h i (by omega), fun i hi => h (8 + i) (by omega)⟩
  · rintro ⟨hlow, hhigh⟩ i hi
    by_cases hword : i < 8
    · exact hlow i hword
    · have hat := hhigh (i - 8) (by omega)
      rwa [Nat.add_sub_cancel' (by omega)] at hat

/-- A frame of the chain is mapped. -/
theorem NextFrame.frameMapped (h : NextFrame mmu frame nextFrame) : FrameMapped mmu frame := by
  obtain ⟨returnAddress, hreturns, -⟩ := h.returns
  intro i hi hnone
  by_cases hword : i < 8
  · have hbyte := h.saved i hword
    simp [guestByte, hnone] at hbyte
  · have hbyte := hreturns (i - 8) (by omega)
    have haddress : frame + 8 + BitVec.ofNat 64 (i - 8) = frame + BitVec.ofNat 64 i := by
      rw [BitVec.add_assoc]
      congr 1
      apply BitVec.eq_of_toNat_eq
      have height : (8 : U64).toNat = 8 := rfl
      rw [BitVec.toNat_add, BitVec.toNat_ofNat, BitVec.toNat_ofNat, height]
      omega
    rw [haddress, guestByte, hnone] at hbyte
    cases hbyte

/-! ## The walk -/

/-- Where the walk stops, only the frame it stopped at counts. -/
theorem frames_of_stop {P : U64 → Prop} (hstop : ∀ nextFrame, ¬NextFrame mmu frame nextFrame) :
    (∀ d < depth + 1, ∀ last, FrameAt mmu frame d last → P last) ↔ P frame := by
  constructor
  · intro h
    exact h 0 (by omega) frame (.here frame)
  · intro h d _ last hlast
    cases hlast with
    | here => exact h
    | up hnext _ => exact absurd hnext (hstop _)

/-- Where the walk goes on, the frames are this one and those above the next one. -/
theorem frames_of_next {P : U64 → Prop} (hnext : NextFrame mmu frame nextFrame) :
    (∀ d < depth + 1, ∀ last, FrameAt mmu frame d last → P last) ↔
      P frame ∧ ∀ d < depth, ∀ last, FrameAt mmu nextFrame d last → P last := by
  constructor
  · intro h
    exact ⟨h 0 (by omega) frame (.here frame),
      fun d hd last hlast => h (d + 1) (by omega) last (.up hnext hlast)⟩
  · rintro ⟨hfirst, hrest⟩ d hd last hlast
    cases hlast with
    | here => exact hfirst
    | up hnext' hlast =>
        rw [hnext'.saved.unique hnext.saved] at hlast
        exact hrest _ (by omega) last hlast

/-- The walk returns when every frame it comes to that is mapped can be read. -/
theorem appendFrames_returns_iff (hwf : RegionsWellFormed mmu.regions) (backtrace : List U64) :
    (∃ result, appendFrames mmu depth frame backtrace = .ok result) ↔
      ∀ d < depth, ∀ last, FrameAt mmu frame d last →
        last ≠ 0 → FrameMapped mmu last → FrameReadable mmu last := by
  induction depth generalizing frame backtrace with
  | zero => simp [appendFrames]
  | succ depth ih =>
      rw [appendFrames]
      by_cases hstop : frame = 0 ∨ (!mmu.isMapped frame 16) = true
      · -- nothing is read from a frame that is not there
        have hnone : frame ≠ 0 → ¬FrameMapped mmu frame := by
          intro hne hmapped
          rw [← isMapped_frame_iff] at hmapped
          rcases hstop with hzero | hunmapped
          · exact hne hzero
          · simp [hmapped] at hunmapped
        rw [if_pos hstop, frames_of_stop]
        · exact ⟨fun _ hne hmapped => absurd hmapped (hnone hne), fun _ => ⟨_, rfl⟩⟩
        · intro nextFrame hnext
          exact hnone hnext.ne_zero hnext.frameMapped
      · rw [if_neg hstop]
        have hmapped : frame ≠ 0 ∧ FrameMapped mmu frame := by
          simpa [isMapped_frame_iff] using hstop
        by_cases hread : FrameReadable mmu frame
        · obtain ⟨hlow, hhigh⟩ := frameReadable_iff.mp hread
          obtain ⟨nextFrame, hnext⟩ := (read64_returns_iff hwf).mpr hlow
          obtain ⟨returnAddress, hreturn⟩ := (read64_returns_iff hwf).mpr hhigh
          have hsaved := ((read64_eq_ok_iff hwf).mp hnext).1
          have hreturns := ((read64_eq_ok_iff hwf).mp hreturn).1
          rw [except_bind_of_ok hnext, except_bind_of_ok hreturn]
          by_cases hzero : returnAddress = 0
          · rw [if_pos hzero, frames_of_stop]
            · exact ⟨fun _ _ _ => hread, fun _ => ⟨_, rfl⟩⟩
            · intro other hother
              obtain ⟨address, haddress, hne⟩ := hother.returns
              exact hne (haddress.unique hreturns ▸ hzero)
          · rw [if_neg hzero]
            by_cases hback : nextFrame ≤ frame
            · rw [if_pos hback, frames_of_stop]
              · exact ⟨fun _ _ _ => hread, fun _ => ⟨_, rfl⟩⟩
              · intro other hother
                have hforward := hother.forward
                rw [hother.saved.unique hsaved] at hforward
                exact BitVec.not_lt.mpr hback hforward
            · have hchain : NextFrame mmu frame nextFrame :=
                ⟨hmapped.1, hsaved, ⟨_, hreturns, hzero⟩, BitVec.not_le.mp hback⟩
              rw [if_neg hback, ih, frames_of_next hchain]
              exact ⟨fun h => ⟨fun _ _ => hread, h⟩, And.right⟩
        · constructor
          · rintro ⟨result, h⟩
            obtain ⟨nextFrame, hnext, h⟩ := except_bind_eq_ok_iff.mp h
            obtain ⟨returnAddress, hreturn, -⟩ := except_bind_eq_ok_iff.mp h
            exact absurd (frameReadable_iff.mpr ⟨((read64_eq_ok_iff hwf).mp hnext).2,
              ((read64_eq_ok_iff hwf).mp hreturn).2⟩) hread
          · intro h
            exact absurd (h 0 (by omega) frame (.here frame) hmapped.1 hmapped.2) hread

/-- A backtrace is returned exactly when every frame of the walk that is mapped can be read. -/
theorem rawBacktrace_returns_iff {emulator : Emulator}
    (hwf : RegionsWellFormed emulator.mmu.regions) :
    (∃ backtrace, rawBacktrace emulator = .ok backtrace) ↔
      FramesReadable emulator.mmu (emulator.cpu.reg .rbp) :=
  appendFrames_returns_iff hwf _

/-! ## The state dump -/

/-- What `dump_state` prints: the CPU, the addresses of the backtrace, and the regions. -/
structure StateDump where
  cpu : SoftCPU64
  backtrace : List U64
  regions : List Region

/-- `dump_state`. -/
def dumpState (emulator : Emulator) : Except Raise StateDump := do
  let backtrace ← rawBacktrace emulator
  return ⟨emulator.cpu, backtrace, emulator.mmu.regions⟩

theorem dumpState_returns_iff {emulator : Emulator}
    (hwf : RegionsWellFormed emulator.mmu.regions) :
    (∃ dump, dumpState emulator = .ok dump) ↔
      FramesReadable emulator.mmu (emulator.cpu.reg .rbp) := by
  rw [← rawBacktrace_returns_iff hwf]
  unfold dumpState
  constructor
  · rintro ⟨dump, h⟩
    obtain ⟨backtrace, hbacktrace, -⟩ := except_bind_eq_ok_iff.mp h
    exact ⟨backtrace, hbacktrace⟩
  · rintro ⟨backtrace, h⟩
    exact ⟨_, except_bind_of_ok h⟩

end LUE
