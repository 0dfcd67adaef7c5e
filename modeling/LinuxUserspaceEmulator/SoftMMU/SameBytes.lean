import LinuxUserspaceEmulator.Library.RelatedLists
import LinuxUserspaceEmulator.SoftMMU.AddressMap

/-!
# Memories that differ in their initialization flags

The initialization flags and the observers only serve the checks of the emulator.  Two memories
that differ in nothing else answer every operation alike: the same bytes, the same errors, the
same placements, and memories that again differ in nothing else.

Main results:

- Theorem `SameBytes.write8WithShadow`: a byte may be written with any shadow.
- Theorems `SameBytes.unmap` and `SameBytes.protect`: cutting regions cuts their flags along.
- Theorem `SameBytes.allocateWith`: first-fit allocation finds the same place.
-/

namespace LUE

open StateExcept RelatedLists

/-! ## Regions -/

/-- The same region but for the initialization flags. -/
def Region.SameBytes (region region' : Region) : Prop :=
  ∃ flags : List Bool, flags.length = region.initialized.length ∧
    region' = { region with initialized := flags }

namespace Region.SameBytes

variable {region region' : Region}

theorem refl (region : Region) : region.SameBytes region :=
  ⟨region.initialized, rfl, rfl⟩

theorem symm (h : region.SameBytes region') : region'.SameBytes region := by
  obtain ⟨flags, hlength, rfl⟩ := h
  exact ⟨region.initialized, hlength.symm, rfl⟩

theorem trans {region'' : Region} (h : region.SameBytes region')
    (h' : region'.SameBytes region'') : region.SameBytes region'' := by
  obtain ⟨flags, hlength, rfl⟩ := h
  obtain ⟨flags', hlength', rfl⟩ := h'
  exact ⟨flags', hlength'.trans hlength, rfl⟩

theorem contains (h : region.SameBytes region') (address : U64) :
    region.contains address = region'.contains address := by
  obtain ⟨flags, -, rfl⟩ := h
  rfl

theorem readOffset (h : region.SameBytes region') (offset : U64) :
    region.readOffset offset = region'.readOffset offset := by
  obtain ⟨flags, -, rfl⟩ := h
  rfl

theorem isOffsetInitialized (h : region.SameBytes region') (offset : U64) :
    SameOutcome (fun _ _ => True) (region.isOffsetInitialized offset)
      (region'.isOffsetInitialized offset) := by
  obtain ⟨flags, hlength, rfl⟩ := h
  unfold Region.isOffsetInitialized
  dsimp only
  by_cases hlt : offset.toNat < region.initialized.length
  · rw [List.getElem?_eq_getElem hlt, List.getElem?_eq_getElem (hlength ▸ hlt)]
    exact .ok trivial
  · rw [List.getElem?_eq_none (by omega), List.getElem?_eq_none (by omega)]
    exact .error _

theorem setOffsetInitialized (h : region.SameBytes region') (offset : U64)
    (initialized initialized' : Bool) :
    SameOutcome Region.SameBytes (region.setOffsetInitialized offset initialized)
      (region'.setOffsetInitialized offset initialized') := by
  obtain ⟨flags, hlength, rfl⟩ := h
  unfold Region.setOffsetInitialized
  dsimp only
  rw [hlength]
  split
  · refine .ok ⟨_, ?_, rfl⟩
    rw [List.length_set, List.length_set, hlength]
  · exact .error _

theorem writeOffset (h : region.SameBytes region') (offset : U64) (value : U8)
    (initialized initialized' : Bool) :
    SameOutcome Region.SameBytes (region.writeOffset offset value initialized)
      (region'.writeOffset offset value initialized') := by
  obtain ⟨flags, hlength, rfl⟩ := h
  unfold Region.writeOffset
  dsimp only
  split
  · have hwritten : Region.SameBytes
        { region with bytes := region.bytes.set offset.toNat value }
        { region with bytes := region.bytes.set offset.toNat value, initialized := flags } :=
      ⟨flags, hlength, rfl⟩
    exact hwritten.setOffsetInitialized offset initialized initialized'
  · exact .error _

theorem cloneSlice (h : region.SameBytes region') (newBase offset newSize : U64) :
    SameOutcome Region.SameBytes (region.cloneSlice newBase offset newSize)
      (region'.cloneSlice newBase offset newSize) := by
  obtain ⟨flags, hlength, rfl⟩ := h
  unfold Region.cloneSlice
  dsimp only
  have hflags : SameOutcome (fun flags flags' : List Bool => flags'.length = flags.length)
      (Region.vectorSlice region.initialized offset newSize)
      (Region.vectorSlice flags offset newSize) := by
    unfold Region.vectorSlice
    rw [hlength]
    split
    · refine .ok ?_
      rw [List.length_take, List.length_take, List.length_drop, List.length_drop, hlength]
    · exact .error _
  refine .bindSame _ fun bytes => ?_
  cases region.backing with
  | simple => exact .bindSame _ fun clone => hflags.bind fun _ _ hflags => .ok ⟨_, hflags, rfl⟩
  | mmap path fileOffset =>
      exact .bindSame _ fun clone => hflags.bind fun _ _ hflags => .ok ⟨_, hflags, rfl⟩

end Region.SameBytes

/-! ## Memories -/

namespace SoftMMU

/-- The same memory but for the initialization flags and the observers. -/
structure SameBytes (mmu mmu' : SoftMMU) : Prop where
  regions : List.Forall₂ Region.SameBytes mmu.regions mmu'.regions
  nextAllocation : mmu.nextAllocation = mmu'.nextAllocation

namespace SameBytes

variable {mmu mmu' : SoftMMU} {α : Type}

theorem refl (mmu : SoftMMU) : mmu.SameBytes mmu where
  regions := List.forall₂_same.mpr fun region _ => Region.SameBytes.refl region
  nextAllocation := rfl

theorem symm (h : mmu.SameBytes mmu') : mmu'.SameBytes mmu where
  regions := List.Forall₂.flip (h.regions.imp fun _ _ hregion => hregion.symm)
  nextAllocation := h.nextAllocation.symm

theorem trans {mmu'' : SoftMMU} (h : mmu.SameBytes mmu') (h' : mmu'.SameBytes mmu'') :
    mmu.SameBytes mmu'' where
  regions :=
    forall₂_trans (fun _ _ _ hregion hregion' => hregion.trans hregion') h.regions h'.regions
  nextAllocation := h.nextAllocation.trans h'.nextAllocation

/-! ### Lookup -/

theorem findRegion (h : mmu.SameBytes mmu') (address : U64) :
    Option.Rel Region.SameBytes (mmu.findRegion address) (mmu'.findRegion address) :=
  forall₂_lookup (fun _ _ hregion address => hregion.contains address) h.regions address

theorem mapped (h : mmu.SameBytes mmu') (address : U64) :
    (mmu.findRegion address).isSome = (mmu'.findRegion address).isSome := by
  have hfound := h.findRegion address
  generalize mmu.findRegion address = found, mmu'.findRegion address = found' at hfound
  cases hfound <;> rfl

theorem isMapped (h : mmu.SameBytes mmu') (address : U64) (size : Nat) :
    mmu.isMapped address size = mmu'.isMapped address size := by
  unfold SoftMMU.isMapped
  simp only [h.mapped]

theorem regionFor (h : mmu.SameBytes mmu') (address : U64) (requiredProt : Protection) :
    SameOutcome Region.SameBytes (mmu.regionFor address requiredProt)
      (mmu'.regionFor address requiredProt) := by
  have hfound := h.findRegion address
  unfold SoftMMU.regionFor
  generalize mmu.findRegion _ = found, mmu'.findRegion _ = found' at hfound
  cases hfound with
  | none => exact .error _
  | some hregion =>
      obtain ⟨flags, hlength, rfl⟩ := hregion
      dsimp only
      split
      · exact .error _
      · exact .ok ⟨flags, hlength, rfl⟩

theorem read8 (h : mmu.SameBytes mmu') (address : U64) :
    mmu.read8 address = mmu'.read8 address := by
  have hfound := h.regionFor address protRead
  unfold SoftMMU.read8
  generalize mmu.regionFor _ _ = found, mmu'.regionFor _ _ = found' at hfound
  cases hfound with
  | error e => rfl
  | ok hregion =>
      have hbase : ∀ {region region' : Region}, region.SameBytes region' →
          region.base = region'.base := by
        rintro region _ ⟨flags, -, rfl⟩
        rfl
      rw [except_bind_of_ok rfl, except_bind_of_ok rfl, hbase hregion, hregion.readOffset]

/-! ### Changes of the region list -/

theorem withRegions (h : mmu.SameBytes mmu') {regions regions' : List Region}
    (hregions : List.Forall₂ Region.SameBytes regions regions') :
    SameBytes { mmu with regions := regions } { mmu' with regions := regions' } :=
  ⟨hregions, h.nextAllocation⟩

theorem sortRegions {regions regions' : List Region}
    (h : List.Forall₂ Region.SameBytes regions regions') :
    List.Forall₂ Region.SameBytes (SoftMMU.sortRegions regions)
      (SoftMMU.sortRegions regions') := by
  refine forall₂_insertionSort ?_ h
  rintro a _ ⟨flags, -, rfl⟩ c _ ⟨flags', -, rfl⟩
  rfl

theorem pushRegion (region : Region) :
    Bisimilar SameBytes Eq (SoftMMU.pushRegion region) (SoftMMU.pushRegion region) :=
  .modify fun _ _ h => h.withRegions (sortRegions
    (List.rel_append h.regions (.cons (Region.SameBytes.refl region) .nil)))

theorem assignRegion (address : U64) {region region' : Region} (h : region.SameBytes region') :
    Bisimilar SameBytes Eq (SoftMMU.assignRegion address region)
      (SoftMMU.assignRegion address region') :=
  .modify fun _ _ hmmu => hmmu.withRegions (forall₂_update
    (fun _ _ hregion address => hregion.contains address) (fun _ _ _ => h) hmmu.regions address)

/-! ### Byte accesses -/

theorem read8WithShadow (address : U64) :
    Bisimilar SameBytes (fun value value' => value.value = value'.value)
      (SoftMMU.read8WithShadow address) (SoftMMU.read8WithShadow address) := by
  refine (Bisimilar.observeRelated fun _ _ h => h.regionFor address protRead).bind ?_
  rintro region _ ⟨flags, hlength, rfl⟩
  refine (Bisimilar.modify fun _ _ h => ⟨h.regions, h.nextAllocation⟩).bindSame fun _ => ?_
  refine .observeRelated fun _ _ _ => ?_
  have hsame : region.SameBytes _ := ⟨flags, hlength, rfl⟩
  have hflags := hsame.isOffsetInitialized (address - region.base)
  unfold Region.readOffsetWithShadow
  refine .bindSame _ fun value => hflags.bind fun flag flag' _ => .ok ?_
  cases flag <;> cases flag' <;> rfl

/-- A byte may be written with any shadow. -/
theorem write8WithShadow (address : U64) {value value' : ValueWithShadow 8}
    (h : value.value = value'.value) :
    Bisimilar SameBytes Eq (SoftMMU.write8WithShadow address value)
      (SoftMMU.write8WithShadow address value') := by
  refine (Bisimilar.observeRelated fun _ _ h => h.regionFor address protWrite).bind ?_
  rintro region _ ⟨flags, hlength, rfl⟩
  refine (Bisimilar.modify fun _ _ h => ⟨h.regions, h.nextAllocation⟩).bindSame fun _ => ?_
  have hsame : region.SameBytes _ := ⟨flags, hlength, rfl⟩
  have hwrite := hsame.writeOffset (address - region.base) value.value value.isInitialized
    value'.isInitialized
  rw [h] at hwrite ⊢
  exact (Bisimilar.observeRelated fun _ _ _ => hwrite).bind fun _ _ hwritten =>
    assignRegion address hwritten

theorem write8 (address : U64) (value : U8) :
    Bisimilar SameBytes Eq (SoftMMU.write8 address value) (SoftMMU.write8 address value) :=
  write8WithShadow address rfl

theorem writeInteger (address value : U64) (count : Nat) :
    Bisimilar SameBytes Eq (SoftMMU.writeInteger address value count)
      (SoftMMU.writeInteger address value count) :=
  .forOffsets fun _ _ => write8 _ _

theorem copyToGuest (destination : U64) (source : List U8) :
    Bisimilar SameBytes Eq (SoftMMU.copyToGuest destination source)
      (SoftMMU.copyToGuest destination source) :=
  .forOffsets fun _ _ => write8 _ _

/-- Marking a range changes flags only, whatever the two sides mark it as. -/
theorem markInitialized (address size : U64) (initialized initialized' : Bool) :
    Bisimilar SameBytes Eq (SoftMMU.markInitialized address size initialized)
      (SoftMMU.markInitialized address size initialized') := by
  refine .forOffsets fun i _ => ?_
  refine (Bisimilar.observeRelated fun _ _ h => h.regionFor _ protRead).bind ?_
  rintro region _ ⟨flags, hlength, rfl⟩
  have hsame : region.SameBytes _ := ⟨flags, hlength, rfl⟩
  have hset := hsame.setOffsetInitialized (address + BitVec.ofNat 64 i - region.base)
    initialized initialized'
  exact (Bisimilar.observeRelated fun _ _ _ => hset).bind fun _ _ hmarked =>
    assignRegion _ hmarked

theorem find?_eq (h : mmu.SameBytes mmu') {p : Region → Bool}
    (hp : ∀ region region', region.SameBytes region' → p region = p region') :
    Option.Rel Region.SameBytes (mmu.regions.find? p) (mmu'.regions.find? p) :=
  forall₂_find? hp h.regions

theorem ensureNoOverlap (h : mmu.SameBytes mmu') (base size : U64) :
    SoftMMU.ensureNoOverlap base size mmu = SoftMMU.ensureNoOverlap base size mmu' := by
  have hfound := h.find?_eq (p := fun region =>
    base < region.endAddress && base + size > region.base) (by
      rintro region _ ⟨flags, -, rfl⟩
      rfl)
  unfold SoftMMU.ensureNoOverlap
  split
  · rfl
  · dsimp only
    split
    · rfl
    · generalize mmu.regions.find? _ = found, mmu'.regions.find? _ = found' at hfound
      cases hfound with
      | none => rfl
      | some hregion =>
          obtain ⟨flags, -, rfl⟩ := hregion
          rfl

theorem observe_ensureNoOverlap (base size : U64) :
    Bisimilar SameBytes Eq (observe (SoftMMU.ensureNoOverlap base size))
      (observe (SoftMMU.ensureNoOverlap base size)) :=
  .observe fun _ _ h => h.ensureNoOverlap base size

theorem mapZeroed (base size : U64) (prot : Protection) (name : String) :
    Bisimilar SameBytes Eq (SoftMMU.mapZeroed base size prot name)
      (SoftMMU.mapZeroed base size prot name) :=
  (observe_ensureNoOverlap _ _).bindSame fun _ => pushRegion _

theorem mapMmap (base size : U64) (prot : Protection) (name : String) (path : Option String)
    (fileOffset : U64) :
    Bisimilar SameBytes Eq (SoftMMU.mapMmap base size prot name path fileOffset)
      (SoftMMU.mapMmap base size prot name path fileOffset) :=
  (observe_ensureNoOverlap _ _).bindSame fun _ => pushRegion _

/-! ### First-fit allocation -/

/-- The search meets the same collisions. -/
theorem allocateLoop (size alignment : U64) {map : U64 → MMUProgram Unit}
    (hmap : ∀ candidate, Bisimilar SameBytes Eq (map candidate) (map candidate)) (rounds : Nat) :
    Bisimilar SameBytes Eq (SoftMMU.allocateLoop size alignment map rounds)
      (SoftMMU.allocateLoop size alignment map rounds) := by
  induction rounds with
  | zero => exact .throw _
  | succ rounds ih =>
      refine Bisimilar.get.bind fun mmu mmu' h => ?_
      rw [h.nextAllocation]
      dsimp only
      have hfound := h.find?_eq (p := fun region =>
        (mmu'.nextAllocation + alignment - 1) &&& ~~~(alignment - 1) < region.endAddress &&
          ((mmu'.nextAllocation + alignment - 1) &&& ~~~(alignment - 1)) + size > region.base) (by
            rintro region _ ⟨flags, -, rfl⟩
            rfl)
      unfold SoftMMU.firstCollision
      generalize mmu.regions.find? _ = found, mmu'.regions.find? _ = found' at hfound
      cases hfound with
      | none =>
          exact (hmap _).bindSame fun _ =>
            (Bisimilar.modify fun _ _ h => ⟨h.regions, rfl⟩).bindSame fun _ => .pure rfl
      | some hregion =>
          obtain ⟨flags, -, rfl⟩ := hregion
          exact (Bisimilar.modify fun _ _ h => ⟨h.regions, rfl⟩).bindSame fun _ => ih

/-- First-fit allocation finds the same place. -/
theorem allocateWith (size alignment : U64) {map : U64 → U64 → MMUProgram Unit}
    (hmap : ∀ candidate size, Bisimilar SameBytes Eq (map candidate size) (map candidate size)) :
    Bisimilar SameBytes Eq (SoftMMU.allocateWith size alignment map)
      (SoftMMU.allocateWith size alignment map) := by
  refine Bisimilar.get.bind fun mmu mmu' h => ?_
  rw [h.regions.length_eq]
  exact allocateLoop _ _ (fun candidate => hmap candidate _) _

theorem allocateMmap (size alignment : U64) (prot : Protection) (name : String)
    (path : Option String) (fileOffset : U64) :
    Bisimilar SameBytes Eq (SoftMMU.allocateMmap size alignment prot name path fileOffset)
      (SoftMMU.allocateMmap size alignment prot name path fileOffset) :=
  allocateWith size alignment fun candidate size => mapMmap candidate size prot name path _

/-! ### Cutting regions -/

theorem splitRegion {region region' : Region} (h : region.SameBytes region')
    (base endAddress : U64) :
    SameOutcome (List.Forall₂ Region.SameBytes) (SoftMMU.splitRegion base endAddress region)
      (SoftMMU.splitRegion base endAddress region') := by
  obtain ⟨flags, hlength, rfl⟩ := h
  refine .ite (fun _ => .ok (.cons ⟨flags, hlength, rfl⟩ .nil)) fun _ => ?_
  refine SameOutcome.mapM (R := Eq) (fun request request' hrequest => ?_)
    (List.forall₂_eq_eq_eq ▸ rfl)
  subst hrequest
  exact Region.SameBytes.cloneSlice ⟨flags, hlength, rfl⟩ _ _ _

theorem splitAround (base size : U64) :
    Bisimilar SameBytes Eq (SoftMMU.splitAround base size) (SoftMMU.splitAround base size) := by
  have hcut : ∀ mmu mmu' : SoftMMU, mmu.SameBytes mmu' →
      SameOutcome (List.Forall₂ (List.Forall₂ Region.SameBytes))
        (mmu.regions.mapM (SoftMMU.splitRegion base (base + size)))
        (mmu'.regions.mapM (SoftMMU.splitRegion base (base + size))) := fun _ _ h =>
    SameOutcome.mapM (fun _ _ hregion => splitRegion hregion _ _) h.regions
  exact (Bisimilar.observeRelated hcut).bind fun _ _ hpieces =>
    .modify fun _ _ h => h.withRegions (sortRegions (List.rel_flatten hpieces))

theorem insideRange {region region' : Region} (h : region.SameBytes region')
    (base endAddress : U64) :
    SoftMMU.insideRange base endAddress region = SoftMMU.insideRange base endAddress region' := by
  obtain ⟨flags, -, rfl⟩ := h
  rfl

theorem unmap (base size : U64) :
    Bisimilar SameBytes Eq (SoftMMU.unmap base size) (SoftMMU.unmap base size) := by
  refine .ite (fun _ => .pure rfl) fun _ => (splitAround _ _).bindSame fun _ => ?_
  refine .modify fun _ _ h => h.withRegions (List.rel_filter (fun _ _ hregion => ?_) h.regions)
  simp [insideRange hregion]

theorem protect (base size : U64) (prot : Protection) :
    Bisimilar SameBytes Eq (SoftMMU.protect base size prot)
      (SoftMMU.protect base size prot) := by
  refine .ite (fun _ => .pure rfl) fun _ => (splitAround _ _).bindSame fun _ => ?_
  refine .modify fun _ _ h => h.withRegions (List.rel_map (fun region region' hregion => ?_)
    h.regions)
  rw [insideRange hregion]
  obtain ⟨flags, hlength, rfl⟩ := hregion
  split
  · exact ⟨flags, hlength, rfl⟩
  · exact ⟨flags, hlength, rfl⟩

end SameBytes

end SoftMMU

end LUE
