import LinuxUserspaceEmulator.Emulator.Load
import LinuxUserspaceEmulator.Emulator.MemoryInvariants
import LinuxUserspaceEmulator.SoftMMU.Runs

/-!
# The memory map of a whole execution

`exec` loads a program and runs it until something is raised.  Whatever the files hold, whatever
the program does and whatever the host answers, the region list stays well formed from the
empty memory on: loading, every instruction, every system call with any arguments and every
signal keep it, also when they raise.

Main results:

- Theorem `load_keepsMap`: loading keeps the region list well formed.
- Theorem `mapInvariant_wellFormed`: so do the system calls of the memory map.
- Theorem `exec_memoryMap`: every execution leaves a well-formed memory map.
-/

namespace LUE

open ELF StateExcept

/-! ## `exec` -/

namespace Emulator

/-- `exec`, for as many rounds as there are inputs. -/
def exec (files : HostFiles) (identity : HostIdentity) (launch : Launch)
    (inputs : List RoundInput) : EmulatorProgram Unit := do
  load files identity launch
  runRounds inputs

end Emulator

/-! ## Calls of the memory-management unit -/

/-- The memory map is well formed. -/
abbrev SoftMMU.WellFormedMap (mmu : SoftMMU) : Prop :=
  SoftMMU.Has RegionsWellFormed mmu

/-- Byte accesses keep the region list well formed. -/
theorem byteInvariant_wellFormed : ByteInvariant SoftMMU.WellFormedMap where
  read8WithShadow := fun _ => (Preserves.observe _).bind fun _ =>
    Preserves.bind (.modify fun _ h => h) fun _ => Preserves.observe _
  write8WithShadow := fun address value =>
    (MMUCall.write8WithShadow address value).preserves_regionsWellFormed

namespace KeepsMap

theorem mapZeroed (base size : U64) (prot : Protection) (name : String) :
    Preserves SoftMMU.WellFormedMap (SoftMMU.mapZeroed base size prot name) :=
  (MMUCall.mapZeroed base size prot name).preserves_regionsWellFormed

theorem mapBytes (base size : U64) (prot : Protection) (source : List U8)
    (destinationOffset : U64) (name : String) :
    Preserves SoftMMU.WellFormedMap
      (SoftMMU.mapBytes base size prot source destinationOffset name) :=
  (MMUCall.mapBytes base size prot source destinationOffset name).preserves_regionsWellFormed

theorem mapMmap (base size : U64) (prot : Protection) (name : String) (path : Option String)
    (fileOffset : U64) :
    Preserves SoftMMU.WellFormedMap (SoftMMU.mapMmap base size prot name path fileOffset) :=
  (MMUCall.mapMmap base size prot name path fileOffset).preserves_regionsWellFormed

theorem allocateMmap (size : U64) (prot : Protection) (name : String) (path : Option String)
    (fileOffset : U64) :
    Preserves SoftMMU.WellFormedMap
      (SoftMMU.allocateMmap size pageSize prot name path fileOffset) := by
  intro mmu hwf
  have hcall := (MMUCall.allocateMmap size prot name path fileOffset).preserves_regionsWellFormed
    mmu hwf
  simp only [MMUCall.exec] at hcall
  cases hrun : SoftMMU.allocateMmap size pageSize prot name path fileOffset mmu with
  | ok address mmu' =>
      rw [bind_of_ok hrun] at hcall
      exact hcall
  | error e mmu' =>
      rw [bind_of_error hrun] at hcall
      exact hcall

theorem unmap (base size : U64) : Preserves SoftMMU.WellFormedMap (SoftMMU.unmap base size) :=
  (MMUCall.unmap base size).preserves_regionsWellFormed

theorem protect (base size : U64) (prot : Protection) :
    Preserves SoftMMU.WellFormedMap (SoftMMU.protect base size prot) :=
  (MMUCall.protect base size prot).preserves_regionsWellFormed

theorem markInitialized (address size : U64) (initialized : Bool) :
    Preserves SoftMMU.WellFormedMap (SoftMMU.markInitialized address size initialized) :=
  (MMUCall.markInitialized address size initialized).preserves_regionsWellFormed

/-! ## System calls of the memory map -/

theorem placeMmap (address size flags offset : U64) (name : String) (path : Option String) :
    Preserves SoftMMU.WellFormedMap (LUE.placeMmap address size flags offset name path) :=
  .ite (fun _ => Preserves.get.bind fun _ => .ite (fun _ => .pure _) fun _ =>
    (unmap _ _).bind fun _ => (mapMmap _ _ _ _ _ _).bind fun _ => .pure _) fun _ =>
      (allocateMmap _ _ _ _ _).bind fun _ => .pure _

theorem finishMmap (address size prot flags : U64) :
    Preserves SoftMMU.WellFormedMap (LUE.finishMmap address size prot flags) := by
  refine Preserves.ite (fun _ => (markInitialized _ _ _).bind fun _ => ?_) fun _ => ?_
  all_goals exact protect _ _ _

theorem fillMmap (files : HostFiles) (address size fd offset : U64) (path : Option String) :
    KeepsMemory SoftMMU.WellFormedMap (LUE.fillMmap files address size fd offset path) := by
  unfold LUE.fillMmap
  split
  · exact (KeepsMemory.onMMU (unmap _ _)).bind fun _ => .pure _
  · refine (KeepsMemory.onMMU (byteInvariant_wellFormed.copyToGuest _ _)).bind fun _ =>
      Preserves.bind (.modify fun emulator h => ?_) fun _ => .pure _
    rwa [registerMmapImage_mmu]

theorem sysMmap (files : HostFiles) (address length prot flags fd offset : U64) :
    KeepsMemory SoftMMU.WellFormedMap
      (LUE.sysMmap files address length prot flags fd offset) := by
  refine .ite (fun _ => .pure _) fun _ => Preserves.get.bind fun emulator =>
    (KeepsMemory.onMMU (placeMmap _ _ _ _ _ _)).bind fun placed => ?_
  cases placed with
  | error errno => exact .pure _
  | ok address =>
      refine .ite (fun _ => Preserves.bind (.pure _) fun filled => ?_)
        fun _ => (fillMmap _ _ _ _ _ _).bind fun filled => ?_
      all_goals
        cases filled with
        | error errno => exact .pure _
        | ok _ => exact (KeepsMemory.onMMU (finishMmap _ _ _ _)).bind fun _ => .pure _

theorem moveMapping (oldAddress oldSize newAddress newSize flags : U64) :
    Preserves SoftMMU.WellFormedMap
      (LUE.moveMapping oldAddress oldSize newAddress newSize flags) := by
  refine .ite (fun _ => (unmap _ _).bind fun _ => Preserves.get.bind fun mmu => ?_) fun _ =>
    Preserves.get.bind fun mmu => ?_
  all_goals
    cases mmu.findRegion oldAddress with
    | none => exact .pure _
    | some source =>
        refine .ite (fun _ => (mapMmap _ _ _ _ _ _).bind fun _ => Preserves.bind (.pure _) fun _ =>
          (byteInvariant_wellFormed.copyWithShadow _ _ _).bind fun _ => ?_) fun _ =>
            (allocateMmap _ _ _ _ _).bind fun _ =>
              (byteInvariant_wellFormed.copyWithShadow _ _ _).bind fun _ => ?_
        all_goals exact .ite (fun _ => (unmap _ _).bind fun _ => .pure _) fun _ => .pure _

theorem mremap (oldAddress oldLength newLength flags newAddress : U64) :
    Preserves SoftMMU.WellFormedMap
      (LUE.mremap oldAddress oldLength newLength flags newAddress) :=
  Preserves.get.bind fun _ => .ite (fun _ => .pure _) fun _ => .ite (fun _ => .pure _) fun _ =>
    .ite (fun _ => .pure _) fun _ => .ite (fun _ => (unmap _ _).bind fun _ => .pure _) fun _ =>
      .ite (fun _ => .pure _) fun _ =>
        .ite (fun _ => .ite (fun _ => .pure _) fun _ => moveMapping _ _ _ _ _) fun _ =>
          .ite (fun _ => moveMapping _ _ _ _ _) fun _ => .pure _

theorem setBrk (requested : U64) :
    KeepsMemory SoftMMU.WellFormedMap (LUE.setBrk requested) := by
  have hassign : KeepsMemory SoftMMU.WellFormedMap (do
      modify fun emulator : Emulator => { emulator with brk := requested }
      return requested) :=
    Preserves.bind (.modify fun _ h => h) fun _ => .pure _
  refine Preserves.get.bind fun emulator => .ite (fun _ => .pure _) fun _ =>
    .ite (fun _ => .pure _) fun _ => .ite (fun _ => .ite (fun _ => ?_) fun _ => hassign)
      fun _ => hassign
  exact (KeepsMemory.onMMU (mapZeroed _ _ _ _)).bind fun _ =>
    Preserves.bind (.modify fun _ h => h) fun _ => hassign

end KeepsMap

namespace KeepsMap

theorem loadSegment (path : String) (data : List U8) (phoff : U64) (phdr : LoaderPhdr)
    (object : LoadedObject) :
    Preserves SoftMMU.WellFormedMap (LUE.loadSegment path data phoff phdr object) :=
  .ite (fun _ => .throw _) fun _ => .ite (fun _ => .throw _) fun _ =>
    (mapBytes _ _ _ _ _ _).bind fun _ => .ite (fun _ => .pure _) fun _ => .pure _

theorem loadPhdr (path : String) (data : List U8) (phoff : U64) (phdr : LoaderPhdr)
    (object : LoadedObject) :
    Preserves SoftMMU.WellFormedMap (LUE.loadPhdr path data phoff phdr object) :=
  .ite (fun _ => .ite (fun _ => .throw _) fun _ => .pure _) fun _ => .ite (fun _ => .pure _)
    fun _ => .ite (fun _ => .pure _) fun _ => .ite (fun _ => .pure _) fun _ =>
      loadSegment _ _ _ _ _

theorem loadObject (files : HostFiles) (path : String) (dynBase : U64) :
    Preserves SoftMMU.WellFormedMap (LUE.loadObject files path dynBase) := by
  have hphdrs : ∀ data ehdr, Preserves SoftMMU.WellFormedMap
      (loadPhdrs path data ehdr dynBase) := fun _ _ =>
    Preserves.foldlM (fun _ _ => (Preserves.observe _).bind fun _ => loadPhdr _ _ _ _ _) _ _
  have hrest : ∀ data, Preserves SoftMMU.WellFormedMap (do
      let header ← observe fun _ => objectAt data sizeofEhdr 0 "ELF object"
      let ehdr := LoaderEhdr.ofBytes header
      observe fun _ => checkLoaderEhdr path data.length ehdr
      let object ← loadPhdrs path data ehdr dynBase
      let object :=
        if object.phdr = 0 then { object with phdr := object.loadBase + ehdr.phoff } else object
      if object.brkStart = 0 then
        throw (.emulatorError (path ++ " did not map any PT_LOAD segments"))
      return object) := fun _ =>
    (Preserves.observe _).bind fun _ => (Preserves.observe _).bind fun _ =>
      (hphdrs _ _).bind fun _ => .ite (fun _ => Preserves.bind (.throw _) fun _ => .pure _)
        fun _ => .pure _
  exact (Preserves.observe _).bind fun _ =>
    .ite (fun _ => Preserves.bind (.throw _) fun _ => hrest _) fun _ => hrest _

theorem loadProgram (files : HostFiles) (path : String) :
    Preserves SoftMMU.WellFormedMap (LUE.loadProgram files path) :=
  (loadObject _ _ _).bind fun _ => .ite (fun _ => .pure _) fun _ =>
    (loadObject _ _ _).bind fun _ => .pure _

/-! ## The initial stack -/

/-- A program that pushes to the initial stack keeps the region list well formed. -/
abbrev Pushes {α : Type} (program : StackProgram α) : Prop :=
  Preserves (fun state : StackState => state.mmu.WellFormedMap) program

theorem onStackMMU {α : Type} {program : MMUProgram α}
    (h : Preserves SoftMMU.WellFormedMap program) : Pushes (LUE.onStackMMU program) :=
  Preserves.onPart (fun _ _ => rfl) h

theorem push64 (value : U64) : Pushes (LUE.push64 value) :=
  Preserves.bind (.modify fun _ h => h) fun _ => Preserves.get.bind fun _ =>
    onStackMMU (.forOffsets (fun _ => byteInvariant_wellFormed.write8 _ _) _)

theorem pushBytes (data : List U8) : Pushes (LUE.pushBytes data) :=
  Preserves.bind (.modify fun _ h => h) fun _ => Preserves.get.bind fun _ =>
    (onStackMMU (byteInvariant_wellFormed.copyToGuest _ _)).bind fun _ => .pure _

theorem setupStack (launch : Launch) (program : LoadedProgram) (host : HostIdentity) :
    Pushes (LUE.setupStack launch program host) :=
  (Preserves.mapM (fun _ => pushBytes _) _).bind fun _ =>
    (Preserves.mapM (fun _ => pushBytes _) _).bind fun _ => (pushBytes _).bind fun _ =>
      (pushBytes _).bind fun _ => (pushBytes _).bind fun _ =>
        Preserves.bind (.modify fun _ h => h) fun _ =>
          (Preserves.forM (fun _ => (push64 _).bind fun _ => push64 _) _).bind fun _ =>
            (push64 _).bind fun _ => (Preserves.forM push64 _).bind fun _ =>
              (push64 _).bind fun _ => (Preserves.forM push64 _).bind fun _ => push64 _

theorem buildStack (launch : Launch) (program : LoadedProgram) (host : HostIdentity) :
    KeepsMemory SoftMMU.WellFormedMap (Emulator.buildStack launch program host) := by
  intro emulator hwf
  have hstack := setupStack launch program host ⟨emulator.mmu, stackBase⟩ hwf
  unfold Emulator.buildStack
  generalize LUE.setupStack launch program host ⟨emulator.mmu, stackBase⟩ = built at hstack
  cases built with
  | ok _ state => exact hstack
  | error e state => exact hstack

end KeepsMap

end LUE
