import LinuxUserspaceEmulator.SoftMMU.AddressMap

/-!
# Byte accesses on the flat map

Byte reads, byte writes and changes of initialization flags resolve their address to one
region and touch one element of its vectors.  On the flat map they read or replace one
cell, and they fail exactly when the access check on that cell fails.

Main results:

- Theorem `SoftMMU.access_eq_regionFor`: the access check only looks at one cell.
- Theorem `SoftMMU.write8WithShadow_of_access`: a permitted write replaces one cell.
- Theorem `SoftMMU.addressMap_of_write8WithShadow`: so does any write that returns.
- Theorem `SoftMMU.write8WithShadow_of_error`: a refused write changes nothing.
- Theorem `SoftMMU.markInitialized_of_readable`: marking a readable range changes the
  flags of the range and nothing else.
-/

namespace LUE

open SegmentList StateExcept

/-! ## Replacing one cell -/

namespace Region

/-- Replace the byte and the flag of one address. -/
def setCell (region : Region) (address : U64) (byte : U8) (initialized : Bool) : Region :=
  { region with
    bytes := region.bytes.set (address - region.base).toNat byte
    initialized := region.initialized.set (address - region.base).toNat initialized }

theorem setCell_contains (region : Region) (address : U64) (byte : U8) (initialized : Bool)
    (other : U64) :
    (region.setCell address byte initialized).contains other = region.contains other :=
  rfl

variable {region : Region} {address : U64} {byte : U8} {initialized : Bool}

theorem WellFormed.setCell (h : region.WellFormed) :
    (region.setCell address byte initialized).WellFormed where
  base_mod := h.base_mod
  size_mod := h.size_mod
  end_lt := h.end_lt
  bytes_length := by
    simp only [Region.setCell, List.length_set]
    exact h.bytes_length
  initialized_length := by
    simp only [Region.setCell, List.length_set]
    exact h.initialized_length

/-- The written address gets the new byte and flag. -/
theorem cellAt_setCell_self (hbytes : (address - region.base).toNat < region.bytes.length)
    (hflags : (address - region.base).toNat < region.initialized.length) :
    (region.setCell address byte initialized).cellAt address =
      { region.cellAt address with byte := byte, initialized := initialized } := by
  have hget : ∀ {α : Type} (elements : List α) (i : Nat) (a d : α), i < elements.length →
      (elements.set i a).getD i d = a := by
    intro α elements i a d hi
    rw [List.getD_eq_getElem?_getD, List.getElem?_set_self hi, Option.getD_some]
  have hbase : (region.setCell address byte initialized).base = region.base := rfl
  simp only [cellAt, hbase]
  simp only [Region.setCell, hget _ _ _ _ hbytes, hget _ _ _ _ hflags]

/-- Other addresses keep theirs. -/
theorem cellAt_setCell_of_ne {other : U64} (hne : other ≠ address) :
    (region.setCell address byte initialized).cellAt other = region.cellAt other := by
  have hindex : (address - region.base).toNat ≠ (other - region.base).toNat := by
    intro heq
    have hsub := BitVec.eq_of_toNat_eq heq
    exact hne ((BitVec.sub_left_inj region.base).mp hsub).symm
  have hget : ∀ {α : Type} (elements : List α) (a d : α),
      (elements.set (address - region.base).toNat a).getD (other - region.base).toNat d =
        elements.getD (other - region.base).toNat d := by
    intro α elements a d
    rw [List.getD_eq_getElem?_getD, List.getD_eq_getElem?_getD, List.getElem?_set_ne hindex]
  have hbase : (region.setCell address byte initialized).base = region.base := rfl
  simp only [cellAt, hbase]
  simp only [Region.setCell, hget]

end Region

namespace SoftMMU

variable {mmu mmu' : SoftMMU} {address : U64} {requiredProt : Protection} {region : Region}
  {cell : Cell} {byte : U8} {initialized : Bool}

/-- The access check only looks at one cell of the flat map. -/
theorem access_eq_regionFor :
    mmu.addressMap.access address requiredProt =
      (mmu.regionFor address requiredProt).map fun region => region.cellAt address := by
  have hmap : mmu.addressMap address =
      (mmu.findRegion address).map fun region => region.cellAt address := rfl
  simp only [regionFor, AddressMap.access, hmap]
  cases mmu.findRegion address with
  | none => rfl
  | some region =>
      simp only [Option.map_some, Region.cellAt]
      split <;> rfl

/-- The region behind a permitted access. -/
theorem exists_regionFor (h : mmu.addressMap.access address requiredProt = .ok cell) :
    ∃ region, mmu.regionFor address requiredProt = .ok region ∧
      region.cellAt address = cell := by
  rw [access_eq_regionFor] at h
  cases hregion : mmu.regionFor address requiredProt with
  | error e => simp [hregion, Except.map] at h
  | ok region =>
      rw [hregion] at h
      exact ⟨region, rfl, by simpa [Except.map] using h⟩

theorem regionFor_eq_error (h : mmu.addressMap.access address requiredProt = .error e) :
    mmu.regionFor address requiredProt = .error e := by
  rw [access_eq_regionFor] at h
  cases hregion : mmu.regionFor address requiredProt with
  | error e' => simpa [hregion, Except.map] using h
  | ok region => simp [hregion, Except.map] at h

/-- Assigning to the region of an address replaces one cell. -/
theorem addressMap_of_update (hregion : mmu.findRegion address = some region)
    (hbytes : (address - region.base).toNat < region.bytes.length)
    (hflags : (address - region.base).toNat < region.initialized.length)
    (hmmu' : mmu'.regions = update Region.contains mmu.regions address
      fun _ => region.setCell address byte initialized) :
    mmu'.addressMap = mmu.addressMap.write address
      { region.cellAt address with byte := byte, initialized := initialized } := by
  rw [SoftMMU.addressMap, hmmu', ← Region.cellAt_setCell_self hbytes hflags]
  exact map_lookup_update hregion (region.setCell_contains address byte initialized)
    fun _ hne => Region.cellAt_setCell_of_ne hne

/-- In a well-formed list the assignment also keeps the invariants. -/
theorem edits_of_update (hwf : RegionsWellFormed mmu.regions)
    (hregion : mmu.findRegion address = some region)
    (hmmu' : mmu'.regions = update Region.contains mmu.regions address
      fun _ => region.setCell address byte initialized)
    (hnext : mmu'.nextAllocation = mmu.nextAllocation) :
    mmu.Edits mmu' (mmu.addressMap.write address
      { region.cellAt address with byte := byte, initialized := initialized }) := by
  have hmem := lookup_mem hregion
  have hcontains := lookup_covers hregion
  have hregionwf := hwf.wellFormed region hmem
  have hlt := hregionwf.offset_lt hcontains
  have honly : ∀ old ∈ mmu.regions, old.contains address = true → old = region :=
    fun old hold hcov => hwf.separated.eq_of_covers hold hmem hcov hcontains
  have hcovers : ∀ old ∈ mmu.regions, old.contains address = true → ∀ other,
      (region.setCell address byte initialized).contains other = old.contains other := by
    intro old hold hcov other
    rw [honly old hold hcov]
    rfl
  have hwf' : RegionsWellFormed mmu'.regions := by
    rw [hmmu']
    refine ⟨?_, ?_, hwf.separated.update hcovers⟩
    · exact forall_mem_update (fun _ _ _ _ => hregionwf.setCell) hwf.wellFormed
    · refine pairwise_update (fun old hold hcov other => ?_) hwf.sorted
      rw [honly old hold hcov]
      exact ⟨id, id⟩
  refine ⟨hwf', ?_, fun hinv => hwf'.regionInvariant ?_, hnext⟩
  · apply addressMap_of_update hregion _ _ hmmu'
    · rw [hregionwf.bytes_length]
      exact hlt
    · rw [hregionwf.initialized_length]
      exact hlt
  · rw [hmmu']
    exact forall_mem_update (fun old hold hcov hsize => by
      rw [honly old hold hcov] at hsize
      exact hsize) hinv.nonempty

/-! ## Byte writes -/

theorem observe_regionFor (h : mmu.regionFor address requiredProt = .ok region) :
    observe (regionFor address requiredProt) mmu = .ok region mmu :=
  observe_eq_ok_iff.mpr ⟨h, rfl⟩

theorem observe_regionFor_error {e : Raise}
    (h : mmu.regionFor address requiredProt = .error e) :
    observe (regionFor address requiredProt) mmu = .error e mmu :=
  observe_eq_error_iff.mpr ⟨h, rfl⟩

/-- A permitted write replaces one cell. -/
theorem write8WithShadow_of_access (hwf : RegionsWellFormed mmu.regions)
    (h : mmu.addressMap.access address protWrite = .ok cell) (value : ValueWithShadow 8) :
    ∃ mmu', write8WithShadow address value mmu = .ok () mmu' ∧
      mmu.Edits mmu' (mmu.addressMap.write address
        { cell with byte := value.value, initialized := value.isInitialized }) := by
  obtain ⟨region, hregion, rfl⟩ := exists_regionFor h
  have hfound := (regionFor_eq_ok_iff.mp hregion).1
  have hregionwf := hwf.wellFormed region (lookup_mem hfound)
  have hlt := hregionwf.offset_lt (lookup_covers hfound)
  have hwritten : region.writeOffset (address - region.base) value.value value.isInitialized =
      .ok (region.setCell address value.value value.isInitialized) := by
    refine Region.writeOffset_eq_ok_iff.mpr ⟨?_, ?_, rfl⟩
    · rw [hregionwf.bytes_length]
      exact hlt
    · rw [hregionwf.initialized_length]
      exact hlt
  refine ⟨{ mmu with
    writeObserver := mmu.writeObserver.map (· ++ [address])
    regions := update Region.contains mmu.regions address
      fun _ => region.setCell address value.value value.isInitialized }, ?_,
    edits_of_update hwf hfound rfl rfl⟩
  rw [write8WithShadow, bind_of_ok (observe_regionFor hregion), bind_of_ok (modify_apply _ mmu)]
  rw [hwritten]
  rfl

/-- A write that returns has replaced one cell, whatever the region list is. -/
theorem addressMap_of_write8WithShadow {value : ValueWithShadow 8}
    (h : write8WithShadow address value mmu = .ok () mmu') :
    ∃ cell, mmu.addressMap address = some cell ∧
      mmu'.addressMap = mmu.addressMap.write address
        { cell with byte := value.value, initialized := value.isInitialized } := by
  obtain ⟨region, mmu₁, hresolve, hrest⟩ := bind_eq_ok_iff.mp h
  obtain ⟨hregion, rfl⟩ := observe_eq_ok_iff.mp hresolve
  rw [bind_of_ok (modify_apply _ mmu)] at hrest
  obtain ⟨written, mmu₂, hwrite, hassign⟩ := bind_eq_ok_iff.mp hrest
  obtain ⟨hwritten, rfl⟩ := observe_eq_ok_iff.mp hwrite
  obtain ⟨hbytes, hflags, rfl⟩ := Region.writeOffset_eq_ok_iff.mp hwritten
  have hfound := (regionFor_eq_ok_iff.mp hregion).1
  cases hassign
  refine ⟨region.cellAt address, ?_, addressMap_of_update hfound hbytes hflags rfl⟩
  change (mmu.findRegion address).map _ = _
  rw [hfound]
  rfl

/-- A refused write changes nothing. -/
theorem write8WithShadow_of_error {e : Raise}
    (h : mmu.addressMap.access address protWrite = .error e) (value : ValueWithShadow 8) :
    write8WithShadow address value mmu = .error e mmu := by
  rw [write8WithShadow, bind_of_error (observe_regionFor_error (regionFor_eq_error h))]

/-- A write that returns was permitted and has replaced one cell. -/
theorem edits_of_write8WithShadow {value : ValueWithShadow 8}
    (hwf : RegionsWellFormed mmu.regions)
    (h : write8WithShadow address value mmu = .ok () mmu') :
    ∃ cell, mmu.addressMap.access address protWrite = .ok cell ∧
      mmu.Edits mmu' (mmu.addressMap.write address
        { cell with byte := value.value, initialized := value.isInitialized }) := by
  cases haccess : mmu.addressMap.access address protWrite with
  | error e =>
      rw [write8WithShadow_of_error haccess value] at h
      cases h
  | ok cell =>
      rcases write8WithShadow_of_access hwf haccess value with ⟨mmu₁, hwrite, hedits⟩
      rw [h] at hwrite
      cases hwrite
      exact ⟨cell, rfl, hedits⟩

/-! ## Initialization flags -/

/-- The body of the loop of `mark_initialized`. -/
def markByte (address : U64) (initialized : Bool) : MMUProgram Unit := do
  let region ← observe (regionFor address protRead)
  let marked ← observe fun _ =>
    region.setOffsetInitialized (address - region.base) initialized
  assignRegion address marked

theorem markInitialized_eq (address size : U64) (initialized : Bool) :
    markInitialized address size initialized =
      forOffsets (fun i => markByte (address + BitVec.ofNat 64 i) initialized) size.toNat :=
  rfl

/-- A flag of a readable byte is replaced. -/
theorem markByte_of_access (hwf : RegionsWellFormed mmu.regions)
    (h : mmu.addressMap.access address protRead = .ok cell) (initialized : Bool) :
    ∃ mmu', markByte address initialized mmu = .ok () mmu' ∧
      mmu.Edits mmu' (mmu.addressMap.write address
        { cell with initialized := initialized }) := by
  obtain ⟨region, hregion, rfl⟩ := exists_regionFor h
  have hfound := (regionFor_eq_ok_iff.mp hregion).1
  have hregionwf := hwf.wellFormed region (lookup_mem hfound)
  have hlt := hregionwf.offset_lt (lookup_covers hfound)
  have hbyte : region.bytes.set (address - region.base).toNat (region.cellAt address).byte =
      region.bytes := by
    have hbytes : (address - region.base).toNat < region.bytes.length := by
      rw [hregionwf.bytes_length]
      exact hlt
    rw [Region.cellAt, List.getD_eq_getElem?_getD, List.getElem?_eq_getElem hbytes,
      Option.getD_some, List.set_getElem_self]
  have hmarked : region.setOffsetInitialized (address - region.base) initialized =
      .ok (region.setCell address (region.cellAt address).byte initialized) := by
    rw [Region.setCell, hbyte]
    apply Region.setOffsetInitialized_of_lt
    rw [hregionwf.initialized_length]
    exact hlt
  refine ⟨{ mmu with
    regions := update Region.contains mmu.regions address
      fun _ => region.setCell address (region.cellAt address).byte initialized }, ?_,
    edits_of_update hwf hfound rfl rfl⟩
  rw [markByte, bind_of_ok (observe_regionFor hregion)]
  rw [hmarked]
  rfl

theorem markByte_of_error {e : Raise}
    (h : mmu.addressMap.access address protRead = .error e) (initialized : Bool) :
    markByte address initialized mmu = .error e mmu := by
  rw [markByte, bind_of_error (observe_regionFor_error (regionFor_eq_error h))]

/-! ## Loops over a range -/

variable {count : Nat} {edit : Nat → Cell → Cell} {body : Nat → MMUProgram Unit}

/-- A loop whose body edits the cell at each offset of a range that allows the access. -/
theorem forOffsets_editCells (hwf : RegionsWellFormed mmu.regions)
    (hfits : address.toNat + count ≤ 2 ^ 64)
    (haccess : ∀ i < count, ∃ cell,
      mmu.addressMap.access (address + BitVec.ofNat 64 i) requiredProt = .ok cell)
    (hbody : ∀ i t cell, RegionsWellFormed t.regions →
      t.addressMap.access (address + BitVec.ofNat 64 i) requiredProt = .ok cell →
      ∃ t', body i t = .ok () t' ∧
        t.Edits t' (t.addressMap.write (address + BitVec.ofNat 64 i) (edit i cell))) :
    ∃ mmu', forOffsets body count mmu = .ok () mmu' ∧
      mmu.Edits mmu' (mmu.addressMap.editCells address count edit) := by
  apply forOffsets_eq_ok fun i t => mmu.Edits t (mmu.addressMap.editCells address i edit)
  · rw [AddressMap.editCells_zero]
    exact .refl hwf
  · intro i t hi ht
    obtain ⟨cell, hcell⟩ := haccess i hi
    have hmap := ht.addressMap
    have hsame : t.addressMap (address + BitVec.ofNat 64 i) =
        mmu.addressMap (address + BitVec.ofNat 64 i) := by
      rw [hmap, AddressMap.editCells_last (by omega)]
    have hcell' : t.addressMap.access (address + BitVec.ofNat 64 i) requiredProt = .ok cell := by
      rw [AddressMap.access, hsame]
      exact hcell
    obtain ⟨t', hbodyok, hedits⟩ := hbody i t cell ht.wellFormed hcell'
    refine ⟨t', hbodyok, ?_⟩
    rw [AddressMap.editCells_succ (by omega) (AddressMap.access_eq_ok_iff.mp hcell).1, ← hmap]
    exact ht.trans hedits

/-- Marking a readable range changes the flags of the range and nothing else. -/
theorem markInitialized_of_readable {size : U64} (hwf : RegionsWellFormed mmu.regions)
    (hfits : address.toNat + size.toNat ≤ 2 ^ 64)
    (haccess : ∀ i < size.toNat, ∃ cell,
      mmu.addressMap.access (address + BitVec.ofNat 64 i) protRead = .ok cell)
    (initialized : Bool) :
    ∃ mmu', markInitialized address size initialized mmu = .ok () mmu' ∧
      mmu.Edits mmu' (mmu.addressMap.editCells address size.toNat
        fun _ cell => { cell with initialized := initialized }) := by
  rw [markInitialized_eq]
  exact forOffsets_editCells hwf hfits haccess fun _ _ _ ht hcell =>
    markByte_of_access ht hcell initialized

/-- Consecutive byte writes: what `copy_to_guest` and the integer writes do. -/
def writeBytes (address : U64) (bytes : Nat → U8) (count : Nat) : MMUProgram Unit :=
  forOffsets (fun i => write8 (address + BitVec.ofNat 64 i) (bytes i)) count

/-- Writing to a writable range puts the bytes there, all initialized. -/
theorem writeBytes_of_writable {bytes : Nat → U8} (hwf : RegionsWellFormed mmu.regions)
    (hfits : address.toNat + count ≤ 2 ^ 64)
    (haccess : ∀ i < count, ∃ cell,
      mmu.addressMap.access (address + BitVec.ofNat 64 i) protWrite = .ok cell) :
    ∃ mmu', writeBytes address bytes count mmu = .ok () mmu' ∧
      mmu.Edits mmu' (mmu.addressMap.editCells address count
        fun i cell => { cell with byte := bytes i, initialized := true }) :=
  forOffsets_editCells hwf hfits haccess fun i _ _ ht hcell =>
    write8WithShadow_of_access ht hcell (.initialized (bytes i))

end SoftMMU

end LUE
