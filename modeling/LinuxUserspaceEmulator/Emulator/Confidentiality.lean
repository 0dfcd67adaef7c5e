import LinuxUserspaceEmulator.Emulator.Confinement

/-!
# What a run cannot learn

The bytes of pages without read permission stay hidden from a guest that leaves its memory map
alone: whatever instructions, system calls and signal handlers it goes through, its registers,
the results of its calls, its errors and the readable part of its memory are the same for all
contents of these pages.

Main results:

- Theorem `memoryBisimulation_sameReadable`: byte accesses cannot tell hidden contents apart.
- Theorem `runRounds_sameReadable`: no run can.
-/

namespace LUE

open StateExcept RelatedLists SoftMMU

/-- The same region, with the same bytes if it can be read. -/
def Region.SameReadable (region region' : Region) : Prop :=
  ∃ bytes flags, bytes.length = region.bytes.length ∧
    flags.length = region.initialized.length ∧
    (region.prot &&& protRead = protRead → bytes = region.bytes) ∧
    region' = { region with bytes := bytes, initialized := flags }

namespace Region.SameReadable

variable {region region' : Region}

theorem refl (region : Region) : region.SameReadable region :=
  ⟨region.bytes, region.initialized, rfl, rfl, fun _ => rfl, rfl⟩

theorem contains (h : region.SameReadable region') (address : U64) :
    region.contains address = region'.contains address := by
  obtain ⟨bytes, flags, -, -, -, rfl⟩ := h
  rfl

theorem readOffset (h : region.SameReadable region')
    (hreadable : region.prot &&& protRead = protRead) (offset : U64) :
    region.readOffset offset = region'.readOffset offset := by
  obtain ⟨bytes, flags, -, -, hsame, rfl⟩ := h
  unfold Region.readOffset
  dsimp only
  rw [hsame hreadable]

theorem writeOffset (h : region.SameReadable region') (offset : U64) (value : U8)
    (initialized initialized' : Bool) :
    SameOutcome Region.SameReadable (region.writeOffset offset value initialized)
      (region'.writeOffset offset value initialized') := by
  obtain ⟨bytes, flags, hbytes, hflags, hsame, rfl⟩ := h
  unfold Region.writeOffset Region.setOffsetInitialized
  dsimp only
  rw [hbytes, hflags]
  split
  · split
    · refine .ok ⟨_, _, ?_, ?_, fun hreadable => ?_, rfl⟩
      · rw [List.length_set, List.length_set, hbytes]
      · rw [List.length_set, List.length_set, hflags]
      · rw [hsame hreadable]
    · exact .error _
  · exact .error _

end Region.SameReadable

/-- The same memory map, with the same bytes on the regions that can be read. -/
structure SoftMMU.SameReadable (mmu mmu' : SoftMMU) : Prop where
  regions : List.Forall₂ Region.SameReadable mmu.regions mmu'.regions

namespace SoftMMU.SameReadable

variable {mmu mmu' : SoftMMU}

theorem findRegion (h : mmu.SameReadable mmu') (address : U64) :
    Option.Rel Region.SameReadable (mmu.findRegion address) (mmu'.findRegion address) :=
  forall₂_lookup (fun _ _ hregion address => hregion.contains address) h.regions address

theorem mapped (h : mmu.SameReadable mmu') (address : U64) :
    (mmu.findRegion address).isSome = (mmu'.findRegion address).isSome := by
  have hfound := h.findRegion address
  generalize mmu.findRegion address = found, mmu'.findRegion address = found' at hfound
  cases hfound <;> rfl

/-- Access checks pass on the same addresses, and raise the same errors on the others. -/
theorem regionFor (h : mmu.SameReadable mmu') (address : U64) (requiredProt : Protection) :
    SameOutcome (fun region region' => region.SameReadable region' ∧
        region.prot &&& requiredProt = requiredProt)
      (mmu.regionFor address requiredProt) (mmu'.regionFor address requiredProt) := by
  have hfound := h.findRegion address
  unfold SoftMMU.regionFor
  generalize mmu.findRegion _ = found, mmu'.findRegion _ = found' at hfound
  cases hfound with
  | none => exact .error _
  | some hregion =>
      obtain ⟨bytes, flags, hrelated⟩ := hregion
      obtain ⟨-, -, -, rfl⟩ := id hrelated
      dsimp only
      split <;> rename_i hprot
      · exact .error _
      · exact .ok ⟨⟨bytes, flags, hrelated⟩, not_not.mp hprot⟩

theorem read8 (h : mmu.SameReadable mmu') (address : U64) :
    mmu.read8 address = mmu'.read8 address := by
  have hfound := h.regionFor address protRead
  unfold SoftMMU.read8
  generalize mmu.regionFor _ _ = found, mmu'.regionFor _ _ = found' at hfound
  cases hfound with
  | error e => rfl
  | @ok region region' hregion =>
      have hbase : region.base = region'.base := by
        obtain ⟨bytes, flags, -, -, -, rfl⟩ := hregion.1
        rfl
      rw [except_bind_of_ok rfl, except_bind_of_ok rfl, hbase, hregion.1.readOffset hregion.2]

theorem assignRegion (address : U64) {region region' : Region}
    (h : region.SameReadable region') :
    Bisimilar SameReadable Eq (SoftMMU.assignRegion address region)
      (SoftMMU.assignRegion address region') :=
  .modify fun _ _ hmmu => ⟨forall₂_update (fun _ _ hregion address => hregion.contains address)
    (fun _ _ _ => h) hmmu.regions address⟩

theorem read8WithShadow (address : U64) :
    Bisimilar SameReadable SameValue (SoftMMU.read8WithShadow address)
      (SoftMMU.read8WithShadow address) := by
  refine (Bisimilar.observeRelated fun _ _ h => h.regionFor address protRead).bind ?_
  rintro region region' ⟨hregion, hreadable⟩
  refine (Bisimilar.modify fun _ _ h => ⟨h.regions⟩).bindSame fun _ => ?_
  refine .observeRelated fun _ _ _ => ?_
  have hread := hregion.readOffset hreadable (address - region.base)
  obtain ⟨bytes, flags, -, hflags, -, rfl⟩ := hregion
  have hsame : region.SameBytes _ := ⟨flags, hflags, rfl⟩
  have hoffset := hsame.isOffsetInitialized (address - region.base)
  unfold Region.readOffsetWithShadow
  rw [hread]
  refine .bindSame _ fun value => hoffset.bind fun flag flag' _ => .ok ?_
  cases flag <;> cases flag' <;> rfl

theorem write8WithShadow (address : U64) {value value' : ValueWithShadow 8}
    (h : SameValue value value') :
    Bisimilar SameReadable Eq (SoftMMU.write8WithShadow address value)
      (SoftMMU.write8WithShadow address value') := by
  refine (Bisimilar.observeRelated fun _ _ h => h.regionFor address protWrite).bind ?_
  rintro region region' ⟨hregion, -⟩
  refine (Bisimilar.modify fun _ _ h => ⟨h.regions⟩).bindSame fun _ => ?_
  have hwrite := hregion.writeOffset (address - region.base) value.value value.isInitialized
    value'.isInitialized
  have hbase : region.base = region'.base := by
    obtain ⟨bytes, flags, -, -, -, rfl⟩ := hregion
    rfl
  rw [← hbase, ← show value.value = value'.value from h]
  exact (Bisimilar.observeRelated fun _ _ _ => hwrite).bind fun _ _ hwritten =>
    assignRegion address hwritten

end SoftMMU.SameReadable

/-- Byte accesses cannot tell apart what only differs where nothing can be read. -/
theorem memoryBisimulation_sameReadable : MemoryBisimulation SoftMMU.SameReadable where
  mapped := SoftMMU.SameReadable.mapped
  read8 := SoftMMU.SameReadable.read8
  read8WithShadow := SoftMMU.SameReadable.read8WithShadow
  write8WithShadow := fun address _ _ h => SoftMMU.SameReadable.write8WithShadow address h

/-- A run that does not call the memory map does the same whatever the pages without read
permission hold: it returns or raises the same, and what it leaves behind differs in such pages
only. -/
theorem runRounds_sameReadable (inputs : List RoundInput) {emulator emulator' : Emulator}
    (h : Alike SoftMMU.SameReadable Eq emulator emulator')
    (halong : Along (fun emulator => ¬CallsMemoryMap emulator) Emulator.servedRound inputs
      emulator) :
    Agree (Alike SoftMMU.SameReadable Eq) Eq (Emulator.runRounds inputs emulator)
      (Emulator.runRounds inputs emulator') :=
  memoryBisimulation_sameReadable.runRounds halong h

section Examples

/-- The guest that stores a byte, with a page that it has no access to. -/
def keepingSecret (secret : List U8) : Emulator :=
  storingByte.withMMU
    { storingByte.mmu with
      regions := storingByte.mmu.regions ++ [Emulator.pageOf 0x3000 0 secret] }

/-- The store does not depend on the secret. -/
theorem runRounds_sameReadable_storingByte :
    Agree (Alike SoftMMU.SameReadable Eq) Eq
      (Emulator.runRounds [quietRound] (keepingSecret [1]))
      (Emulator.runRounds [quietRound] (keepingSecret [2])) := by
  refine runRounds_sameReadable [quietRound] ⟨.refl _, ⟨?_⟩, rfl⟩
    ⟨fun h => absurd h.2 (by decide), fun _ _ => trivial⟩
  refine List.rel_append (List.forall₂_same.mpr fun region _ => .refl region) (.cons ?_ .nil)
  exact ⟨(Emulator.pageOf 0x3000 0 [2]).bytes, (Emulator.pageOf 0x3000 0 [2]).initialized,
    by simp only [Emulator.pageOf, List.length_append, List.length_replicate, List.length_cons],
    rfl, fun hreadable => absurd hreadable (by decide), rfl⟩

end Examples

end LUE
