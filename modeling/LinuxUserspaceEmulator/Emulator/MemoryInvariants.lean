import LinuxUserspaceEmulator.Emulator.Transparency

/-!
# What runs keep of the guest memory

Instructions, signals and the system calls other than those of the memory map reach the guest
memory byte by byte.  So a property that byte accesses keep is kept by every run without such
calls, and by every run at all when the five calls of the memory map keep it too.

Main results:

- Theorem `ByteInvariant.runRounds`: runs that do not call the memory map.
- Theorem `MapInvariant.runRounds`: all runs.
-/

namespace LUE

open StateExcept

variable {P : SoftMMU → Prop} {α : Type}

/-- A property of memories that byte accesses keep. -/
structure ByteInvariant (P : SoftMMU → Prop) : Prop where
  read8WithShadow : ∀ address, Preserves P (SoftMMU.read8WithShadow address)
  write8WithShadow : ∀ address value, Preserves P (SoftMMU.write8WithShadow address value)

/-- A program of the emulator keeps a property of its memory. -/
abbrev KeepsMemory (P : SoftMMU → Prop) (x : EmulatorProgram α) : Prop :=
  Preserves (fun emulator => P emulator.mmu) x

/-- A property of memories that the system calls of the memory map keep. -/
structure MapInvariant (P : SoftMMU → Prop) (files : HostFiles) : Prop where
  sysMmap : ∀ address length prot flags fd offset,
    KeepsMemory P (sysMmap files address length prot flags fd offset)
  sysMunmap : ∀ address length, KeepsMemory P (sysMunmap address length)
  sysMprotect : ∀ address length prot, KeepsMemory P (sysMprotect address length prot)
  sysMremap : ∀ oldAddress oldLength newLength flags newAddress,
    KeepsMemory P (sysMremap oldAddress oldLength newLength flags newAddress)
  setBrk : ∀ requested, KeepsMemory P (setBrk requested)

/-- The same bytes, and the first memory has the property. -/
def SoftMMU.SameBytesWith (P : SoftMMU → Prop) (mmu mmu' : SoftMMU) : Prop :=
  mmu.SameBytes mmu' ∧ P mmu

theorem alike_sameBytesWith {emulator : Emulator} (h : P emulator.mmu) :
    Alike (SoftMMU.SameBytesWith P) Eq emulator emulator where
  cpu := .refl _
  mmu := ⟨.refl _, h⟩
  rest := rfl

theorem KeepsMemory.onMMU {program : MMUProgram α} (h : Preserves P program) :
    KeepsMemory P (onMMU program) :=
  Preserves.onPart (fun _ _ => rfl) h

/-- A program that looks at the memory through its bytes and keeps the property. -/
theorem Transparent.with {x : EmulatorProgram α} (hx : Transparent x)
    (hkeeps : KeepsMemory P x) : KeepsAlike (SoftMMU.SameBytesWith P) x := by
  intro emulator emulator' h
  have hrun := hx.withInvariant hkeeps emulator emulator' ⟨⟨h.cpu, h.mmu.1, h.rest⟩, h.mmu.2⟩
  exact hrun.mono (fun _ _ hleft => ⟨hleft.1.cpu, ⟨hleft.1.mmu, hleft.2⟩, hleft.1.rest⟩)
    fun _ _ hvalue => hvalue

namespace ByteInvariant

theorem memoryBisimulation (hP : ByteInvariant P) :
    MemoryBisimulation (SoftMMU.SameBytesWith P) where
  mapped := fun h => h.1.mapped
  read8 := fun h => h.1.read8
  read8WithShadow := fun address =>
    (SoftMMU.SameBytes.read8WithShadow address).withInvariant (hP.read8WithShadow address)
  write8WithShadow := fun address _ _ h =>
    (SoftMMU.SameBytes.write8WithShadow address h).withInvariant (hP.write8WithShadow address _)

theorem write8 (hP : ByteInvariant P) (address : U64) (value : U8) :
    Preserves P (SoftMMU.write8 address value) :=
  hP.write8WithShadow address _

theorem copyToGuest (hP : ByteInvariant P) (destination : U64) (source : List U8) :
    Preserves P (SoftMMU.copyToGuest destination source) :=
  .forOffsets (fun _ => hP.write8 _ _) _

theorem copyWithShadow (hP : ByteInvariant P) (source destination size : U64) :
    Preserves P (LUE.copyWithShadow source destination size) :=
  .forOffsets (fun _ => (hP.read8WithShadow _).bind fun _ => hP.write8WithShadow _ _) _

/-- Runs that do not call the memory map keep what byte accesses keep. -/
theorem runRounds (hP : ByteInvariant P) {inputs : List RoundInput} {emulator : Emulator}
    (halong : Along (fun emulator => ¬CallsMemoryMap emulator) Emulator.servedRound inputs
      emulator) (h : P emulator.mmu) :
    P (finalState (Emulator.runRounds inputs emulator)).mmu :=
  (hP.memoryBisimulation.runRounds halong (alike_sameBytesWith h)).finalState.mmu.2

end ByteInvariant

namespace MapInvariant

theorem mapBisimulation {files : HostFiles} (hP : MapInvariant P files) :
    MapBisimulation (SoftMMU.SameBytesWith P) files where
  sysMmap := fun _ _ _ _ _ _ =>
    (Transparent.sysMmap files _ _ _ _ _ _).with (hP.sysMmap _ _ _ _ _ _)
  sysMunmap := fun _ _ => (Transparent.sysMunmap _ _).with (hP.sysMunmap _ _)
  sysMprotect := fun _ _ _ => (Transparent.sysMprotect _ _ _).with (hP.sysMprotect _ _ _)
  sysMremap := fun _ _ _ _ _ => (Transparent.sysMremap _ _ _ _ _).with (hP.sysMremap _ _ _ _ _)
  setBrk := fun _ => (Transparent.setBrk _).with (hP.setBrk _)

/-- Runs keep what byte accesses and the calls of the memory map keep. -/
theorem runRounds (hbyte : ByteInvariant P) (hmap : ∀ files, MapInvariant P files)
    (inputs : List RoundInput) : KeepsMemory P (Emulator.runRounds inputs) := by
  intro emulator h
  have hrun := Bisimilar.forM (l := inputs) (fun input _ _ _ halike =>
    hbyte.memoryBisimulation.round input (fun _ => (hmap input.host.files).mapBisimulation) halike)
    emulator emulator (alike_sameBytesWith h)
  exact hrun.finalState.mmu.2

end MapInvariant

end LUE
