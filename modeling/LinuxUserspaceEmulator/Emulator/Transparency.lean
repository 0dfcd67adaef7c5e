import LinuxUserspaceEmulator.Emulator.GuestView
import LinuxUserspaceEmulator.Emulator.SignalReturn
import LinuxUserspaceEmulator.SoftMMU.SameBytes

/-!
# The checks for uninitialized data are transparent

Shadows, taint, initialization flags, reports and observers make up the checks for
uninitialized data.  They watch the guest and do not influence it: emulators that differ in
nothing else run alike through instructions, system calls and signals.

Main results:

- Theorem `memoryBisimulation_sameBytes`: byte accesses do not depend on flags and observers.
- Theorem `mapBisimulation_sameBytes`: nor do the system calls of the memory map.
- Theorem `runRounds_sameGuest`: nor does a run of the loop of `exec`.
-/

namespace LUE

open StateExcept

/-- Byte accesses do not depend on initialization flags and observers. -/
theorem memoryBisimulation_sameBytes : MemoryBisimulation SoftMMU.SameBytes where
  mapped := SoftMMU.SameBytes.mapped
  read8 := SoftMMU.SameBytes.read8
  read8WithShadow := SoftMMU.SameBytes.read8WithShadow
  write8WithShadow := fun address _ _ h => SoftMMU.SameBytes.write8WithShadow address h

/-- The same emulator but for the checks for uninitialized data. -/
abbrev SameGuest : Emulator → Emulator → Prop :=
  Alike SoftMMU.SameBytes Eq

/-- A program that the checks for uninitialized data do not influence. -/
abbrev Transparent {α : Type} (x : EmulatorProgram α) : Prop :=
  KeepsAlike SoftMMU.SameBytes x

theorem SameGuest.refl (emulator : Emulator) : SameGuest emulator emulator where
  cpu := .refl _
  mmu := .refl _
  rest := rfl

theorem SameGuest.symm {emulator emulator' : Emulator} (h : SameGuest emulator emulator') :
    SameGuest emulator' emulator where
  cpu := h.cpu.symm
  mmu := h.mmu.symm
  rest := h.rest.symm

theorem SameGuest.trans {emulator emulator' emulator'' : Emulator}
    (h : SameGuest emulator emulator') (h' : SameGuest emulator' emulator'') :
    SameGuest emulator emulator'' where
  cpu := h.cpu.trans h'.cpu
  mmu := h.mmu.trans h'.mmu
  rest := h.rest.trans h'.rest

namespace Transparent

variable {α : Type}

theorem onMMU {program : MMUProgram α} (h : Bisimilar SoftMMU.SameBytes Eq program program) :
    Transparent (onMMU program) :=
  Respects.onMMU h

/-! ## The memory map -/

theorem guestRangeIsMapped {mmu mmu' : SoftMMU} (h : mmu.SameBytes mmu') (address size : U64) :
    LUE.guestRangeIsMapped address size mmu = LUE.guestRangeIsMapped address size mmu' := by
  unfold LUE.guestRangeIsMapped
  simp only [h.isMapped]

theorem placeMmap (address size flags offset : U64) (name : String) (path : Option String) :
    Bisimilar SoftMMU.SameBytes Eq (LUE.placeMmap address size flags offset name path)
      (LUE.placeMmap address size flags offset name path) := by
  refine .ite (fun _ => Bisimilar.get.bind fun mmu mmu' h => ?_) fun _ =>
    (SoftMMU.SameBytes.allocateMmap _ _ _ _ _ _).bindSame fun _ => .pure rfl
  rw [guestRangeIsMapped h]
  exact .ite (fun _ => .pure rfl) fun _ => (SoftMMU.SameBytes.unmap _ _).bindSame fun _ =>
    (SoftMMU.SameBytes.mapMmap _ _ _ _ _ _).bindSame fun _ => .pure rfl

theorem finishMmap (address size prot flags : U64) :
    Bisimilar SoftMMU.SameBytes Eq (LUE.finishMmap address size prot flags)
      (LUE.finishMmap address size prot flags) :=
  .ite (fun _ => (SoftMMU.SameBytes.markInitialized _ _ _ _).bindSame fun _ =>
    SoftMMU.SameBytes.protect _ _ _) fun _ => SoftMMU.SameBytes.protect _ _ _

/-- Loading an image looks at files and images only. -/
theorem registerLoadedImage (files : HostFiles) (path : String) (loadBase : U64) (kind : String)
    (emulator : Emulator) (shadows : SoftCPU64.Shadows) (mmu : SoftMMU) :
    (emulator.withChecks shadows mmu).registerLoadedImage files path loadBase kind =
      (emulator.registerLoadedImage files path loadBase kind).withChecks shadows mmu := by
  have himages : (emulator.withChecks shadows mmu).loadedImages = emulator.loadedImages := rfl
  unfold Emulator.registerLoadedImage
  rw [himages]
  by_cases hpath : path = ""
  · rw [if_pos hpath, if_pos hpath]
  · rw [if_neg hpath, if_neg hpath]
    cases emulator.loadedImages.any fun image => image.path = path && image.base = loadBase with
    | true => rfl
    | false =>
        cases files.readFileFor path "ELF file for symbols" >>= readElfImageInfo path with
        | error e => rfl
        | ok info =>
            by_cases hlibc : (LoadedImage.ofInfo path loadBase kind info).kind = "libc"
            · simp only [if_pos hlibc]
              rfl
            · simp only [if_neg hlibc]
              rfl

theorem registerMmapImage (files : HostFiles) (address offset : U64) (path : Option String)
    (emulator : Emulator) (shadows : SoftCPU64.Shadows) (mmu : SoftMMU) :
    LUE.registerMmapImage files address offset path (emulator.withChecks shadows mmu) =
      (LUE.registerMmapImage files address offset path emulator).withChecks shadows mmu := by
  unfold LUE.registerMmapImage Emulator.registerMappedFile
  cases path with
  | none => rfl
  | some path =>
      dsimp only
      rw [registerLoadedImage]
      by_cases hoffset : offset = 0
      · rw [if_pos hoffset, if_pos hoffset]
        by_cases hpath : path = ""
        · rw [if_pos hpath, if_pos hpath]
        · rw [if_neg hpath, if_neg hpath]
      · rw [if_neg hoffset, if_neg hoffset]

theorem fillMmap (files : HostFiles) (address size fd offset : U64) (path : Option String) :
    Transparent (LUE.fillMmap files address size fd offset path) := by
  unfold LUE.fillMmap
  split
  · exact (onMMU (SoftMMU.SameBytes.unmap _ _)).bindSame fun _ => .pure rfl
  · exact (onMMU (SoftMMU.SameBytes.copyToGuest _ _)).bindSame fun _ =>
      Bisimilar.bindSame (Respects.modifyRest (registerMmapImage_mmu files address offset path)
        (registerMmapImage files address offset path)) fun _ => .pure rfl

theorem sysMmap (files : HostFiles) (address length prot flags fd offset : U64) :
    Transparent (LUE.sysMmap files address length prot flags fd offset) := by
  refine .ite (fun _ => .pure rfl) fun _ => Respects.get_bind fun emulator shadows mmu _ => ?_
  refine (onMMU (placeMmap _ _ _ _ _ _)).bindSame fun placed => ?_
  cases placed with
  | error errno => exact .pure rfl
  | ok address =>
      refine .ite (fun _ => Bisimilar.bindSame (.pure rfl) fun filled => ?_)
        fun _ => (fillMmap _ _ _ _ _ _).bindSame fun filled => ?_
      all_goals
        cases filled with
        | error errno => exact .pure rfl
        | ok _ => exact (onMMU (finishMmap _ _ _ _)).bindSame fun _ => .pure rfl

theorem sysMunmap (address length : U64) : Transparent (LUE.sysMunmap address length) :=
  (onMMU (SoftMMU.SameBytes.unmap _ _)).bindSame fun _ => .pure rfl

theorem sysMprotect (address length prot : U64) :
    Transparent (LUE.sysMprotect address length prot) :=
  (onMMU (SoftMMU.SameBytes.protect _ _ _)).bindSame fun _ => .pure rfl

theorem copyWithShadow (source destination size : U64) :
    Bisimilar SoftMMU.SameBytes Eq (LUE.copyWithShadow source destination size)
      (LUE.copyWithShadow source destination size) :=
  .forOffsets fun _ _ => (SoftMMU.SameBytes.read8WithShadow _).bind fun _ _ hbyte =>
    SoftMMU.SameBytes.write8WithShadow _ hbyte

theorem moveMapping (oldAddress oldSize newAddress newSize flags : U64) :
    Bisimilar SoftMMU.SameBytes Eq
      (LUE.moveMapping oldAddress oldSize newAddress newSize flags)
      (LUE.moveMapping oldAddress oldSize newAddress newSize flags) := by
  refine .ite (fun _ => (SoftMMU.SameBytes.unmap _ _).bindSame fun _ =>
    Bisimilar.get.bind fun mmu mmu' h => ?_) fun _ => Bisimilar.get.bind fun mmu mmu' h => ?_
  all_goals
    have hfound := h.findRegion oldAddress
    generalize mmu.findRegion oldAddress = found, mmu'.findRegion oldAddress = found' at hfound
    cases hfound with
    | none => exact .pure rfl
    | some hregion =>
        obtain ⟨flags, -, rfl⟩ := hregion
        refine .ite (fun _ => (SoftMMU.SameBytes.mapMmap _ _ _ _ _ _).bindSame fun _ =>
          Bisimilar.bindSame (.pure rfl) fun _ => (copyWithShadow _ _ _).bindSame fun _ => ?_)
          fun _ => (SoftMMU.SameBytes.allocateMmap _ _ _ _ _ _).bindSame fun _ =>
            (copyWithShadow _ _ _).bindSame fun _ => ?_
        all_goals
          exact .ite (fun _ => (SoftMMU.SameBytes.unmap _ _).bindSame fun _ => .pure rfl)
            fun _ => .pure rfl

theorem sysMremap (oldAddress oldLength newLength flags newAddress : U64) :
    Transparent (LUE.sysMremap oldAddress oldLength newLength flags newAddress) := by
  refine (onMMU ?_).bindSame fun _ => .pure rfl
  refine Bisimilar.get.bind fun mmu mmu' h => ?_
  rw [h.isMapped]
  refine .ite (fun _ => .pure rfl) fun _ => .ite (fun _ => .pure rfl) fun _ =>
    .ite (fun _ => .pure rfl) fun _ => .ite (fun _ => ?_) fun _ =>
      .ite (fun _ => .pure rfl) fun _ => .ite (fun _ => ?_) fun _ =>
        .ite (fun _ => moveMapping _ _ _ _ _) fun _ => .pure rfl
  · exact (SoftMMU.SameBytes.unmap _ _).bindSame fun _ => .pure rfl
  · exact .ite (fun _ => .pure rfl) fun _ => moveMapping _ _ _ _ _

theorem setBrk (requested : U64) : Transparent (LUE.setBrk requested) := by
  have hassign : Transparent (do
      modify fun emulator : Emulator => { emulator with brk := requested }
      return requested) :=
    Bisimilar.bindSame (Respects.modifyRest (fun _ => rfl) fun _ _ _ => rfl) fun _ => .pure rfl
  refine Respects.get_bind fun emulator shadows mmu _ => .ite (fun _ => .pure rfl) fun _ =>
    .ite (fun _ => .pure rfl) fun _ => .ite (fun _ => .ite (fun _ => ?_) fun _ => hassign)
      fun _ => hassign
  exact (onMMU (SoftMMU.SameBytes.mapZeroed _ _ _ _)).bindSame fun _ =>
    Bisimilar.bindSame (Respects.modifyRest (fun _ => rfl) fun _ _ _ => rfl) fun _ => hassign

end Transparent

/-- The system calls of the memory map do not depend on the checks. -/
theorem mapBisimulation_sameBytes (files : HostFiles) :
    MapBisimulation SoftMMU.SameBytes files where
  sysMmap := Transparent.sysMmap files
  sysMunmap := Transparent.sysMunmap
  sysMprotect := Transparent.sysMprotect
  sysMremap := Transparent.sysMremap
  setBrk := Transparent.setBrk

/-- A run does not depend on the checks: it makes the same of both emulators. -/
theorem runRounds_sameGuest (inputs : List RoundInput) {emulator emulator' : Emulator}
    (h : SameGuest emulator emulator') :
    Agree SameGuest Eq (Emulator.runRounds inputs emulator)
      (Emulator.runRounds inputs emulator') :=
  Bisimilar.forM (fun input _ _ _ hsame => memoryBisimulation_sameBytes.round input
    (fun _ => mapBisimulation_sameBytes input.host.files) hsame) _ _ h

section Examples

/-- A round in which nothing comes from outside and the host refuses every call. -/
def quietRound : RoundInput :=
  ⟨Emulator.quietHost, default, fun _ => false⟩

/-- `mov %al, (%rdi)` on a page that cannot be written, with a data page behind it. -/
def storingByte : Emulator where
  mmu :=
    { regions := [Emulator.pageOf 0x1000 (protRead ||| protExecute) [0x88, 0x07],
        Emulator.pageOf 0x2000 (protRead ||| protWrite) []]
      writeObserver := some [] }
  cpu := ((({} : SoftCPU64).setRip 0x1000).setReg .rdi 0x2000).setReg .rax 0xab

/-- The store goes on alike when every register and the flags are taken for uninitialized. -/
theorem runRounds_sameGuest_storingByte :
    Agree SameGuest Eq (Emulator.runRounds [quietRound] storingByte)
      (Emulator.runRounds [quietRound] (storingByte.withCPU (storingByte.cpu.withShadows
        { gprShadow := fun _ => -1, flagsTainted := true }))) :=
  runRounds_sameGuest [quietRound] ⟨⟨_, rfl⟩, .refl _, rfl⟩

end Examples

end LUE
