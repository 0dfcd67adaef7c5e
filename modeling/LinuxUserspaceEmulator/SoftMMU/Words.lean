import LinuxUserspaceEmulator.SoftMMU.GuestBytes

/-!
# Permitted accesses

Whether an access is permitted depends on the permissions of the flat map alone, and writes keep
these.  So a permitted read gives the byte of the map, before and after permitted writes.

Main results:

- Theorem `read8_eq_ok_iff`: a read returns the byte of the map when it is permitted.
- Theorem `writeBytes_of_permits`: a permitted write returns and keeps every permission.
- Theorem `holdsWord_write64`: a word that was written is held.
- Theorem `read64_eq_ok_iff`: a word is read when it is held and its bytes can be read.
-/

namespace LUE

open StateExcept SoftMMU

variable {mmu mmu' : SoftMMU} {address value : U64}

/-! ## Permissions of the flat map -/

/-- The address is mapped with the required permissions. -/
def Permits (mmu : SoftMMU) (address : U64) (requiredProt : Protection) : Prop :=
  ∃ prot, protections mmu address = some prot ∧ prot &&& requiredProt = requiredProt

theorem permits_iff_access {address : U64} {requiredProt : Protection} :
    Permits mmu address requiredProt ↔
      ∃ cell, mmu.addressMap.access address requiredProt = .ok cell := by
  unfold Permits protections
  simp only [AddressMap.access_eq_ok_iff, Option.map_eq_some_iff]
  constructor
  · rintro ⟨_, ⟨cell, hcell, rfl⟩, hprot⟩
    exact ⟨cell, hcell, hprot⟩
  · rintro ⟨cell, hcell, hprot⟩
    exact ⟨_, ⟨cell, hcell, rfl⟩, hprot⟩

theorem permits_congr (h : protections mmu' = protections mmu) {address : U64}
    {requiredProt : Protection} :
    Permits mmu' address requiredProt ↔ Permits mmu address requiredProt := by
  rw [Permits, Permits, h]

/-- Replacing the contents of one cell keeps the permissions. -/
theorem protections_of_write {address : U64} {cell : Cell} {byte : U8} {initialized : Bool}
    (hcell : mmu.addressMap address = some cell)
    (h : mmu'.addressMap = mmu.addressMap.write address
      { cell with byte := byte, initialized := initialized }) :
    protections mmu' = protections mmu := by
  funext a
  unfold protections
  rw [h, AddressMap.write]
  by_cases hsame : a = address
  · rw [hsame, Function.update_self, hcell]
    rfl
  · rw [Function.update_of_ne hsame]

/-- Editing bytes keeps the permissions. -/
theorem protections_editCells {address : U64} {count : Nat} {bytes : Nat → U8}
    (h : mmu'.addressMap = mmu.addressMap.editCells address count
      fun i cell => { cell with byte := bytes i, initialized := true }) :
    protections mmu' = protections mmu := by
  funext a
  unfold protections
  rw [h, AddressMap.editCells]
  split
  · rw [Option.map_map]
    rfl
  · rfl

/-! ## Reads -/

/-- A read returns the byte of the map when it is permitted. -/
theorem read8_eq_ok_iff (hwf : RegionsWellFormed mmu.regions) {byte : U8} :
    mmu.read8 address = .ok byte ↔
      mmu.guestByte address = some byte ∧ Permits mmu address protRead := by
  rw [read8_eq_access hwf, permits_iff_access, guestByte]
  constructor
  · intro h
    cases hcell : mmu.addressMap.access address protRead with
    | error e => simp [hcell, Except.map] at h
    | ok cell =>
        have hbyte : cell.byte = byte := by simpa [hcell, Except.map] using h
        rw [(AddressMap.access_eq_ok_iff.mp hcell).1, Option.map_some, hbyte]
        exact ⟨rfl, cell, rfl⟩
  · rintro ⟨hbyte, cell, hcell⟩
    rw [(AddressMap.access_eq_ok_iff.mp hcell).1, Option.map_some, Option.some.injEq] at hbyte
    rw [hcell, ← hbyte]
    rfl

/-- A permitted read returns. -/
theorem read8_of_permits (hwf : RegionsWellFormed mmu.regions)
    (h : Permits mmu address protRead) :
    ∃ byte, mmu.read8 address = .ok byte ∧ mmu.guestByte address = some byte := by
  rcases permits_iff_access.mp h with ⟨cell, hcell⟩
  have hbyte : mmu.guestByte address = some cell.byte := by
    rw [guestByte, (AddressMap.access_eq_ok_iff.mp hcell).1]
    rfl
  exact ⟨cell.byte, (read8_eq_ok_iff hwf).mpr ⟨hbyte, h⟩, hbyte⟩

/-- A permitted multi-byte read assembles the bytes of the map. -/
theorem readInteger_of_permits (hwf : RegionsWellFormed mmu.regions) {count : Nat}
    (h : ∀ i < count, Permits mmu (address + BitVec.ofNat 64 i) protRead) :
    ∃ bytes : Nat → U8, mmu.readInteger address count = .ok (LittleEndian.assemble bytes count) ∧
      ∀ i < count, mmu.guestByte (address + BitVec.ofNat 64 i) = some (bytes i) := by
  have hread : ∀ i < count, mmu.read8 (address + BitVec.ofNat 64 i) =
        .ok ((mmu.guestByte (address + BitVec.ofNat 64 i)).getD 0) ∧
      mmu.guestByte (address + BitVec.ofNat 64 i) =
        some ((mmu.guestByte (address + BitVec.ofNat 64 i)).getD 0) := by
    intro i hi
    rcases read8_of_permits hwf (h i hi) with ⟨byte, hbyte, hguest⟩
    rw [hguest]
    exact ⟨hbyte, rfl⟩
  exact ⟨_, readInteger_of_bytes fun i hi => (hread i hi).1, fun i hi => (hread i hi).2⟩

/-! ## Writes -/

/-- A permitted write returns. -/
theorem write8_of_permits (hwf : RegionsWellFormed mmu.regions)
    (h : Permits mmu address protWrite) (byte : U8) :
    ∃ mmu', write8 address byte mmu = .ok () mmu' ∧ RegionsWellFormed mmu'.regions ∧
      protections mmu' = protections mmu := by
  rcases permits_iff_access.mp h with ⟨cell, hcell⟩
  rcases write8WithShadow_of_access hwf hcell (.initialized byte) with ⟨mmu', hwrite, hedits⟩
  exact ⟨mmu', hwrite, hedits.wellFormed,
    protections_of_write (AddressMap.access_eq_ok_iff.mp hcell).1 hedits.addressMap⟩

/-- A mapped range of a well-formed map does not reach the end of the address space. -/
theorem fits_of_mapped (hwf : RegionsWellFormed mmu.regions) {count : Nat} (hpos : 0 < count)
    (h : ∀ i < count, ∃ cell, mmu.addressMap (address + BitVec.ofNat 64 i) = some cell) :
    address.toNat + count ≤ 2 ^ 64 - 4096 := by
  induction count with
  | zero => exact absurd hpos (Nat.lt_irrefl 0)
  | succ count ih =>
      rcases h count (Nat.lt_succ_self count) with ⟨cell, hcell⟩
      have hlast := lt_of_addressMap hwf hcell
      cases count with
      | zero =>
          rw [BitVec.add_zero] at hlast
          exact hlast
      | succ count =>
          have hprevious := ih (Nat.succ_pos count) fun i hi => h i (Nat.lt_succ_of_lt hi)
          rw [BitVec.toNat_add, BitVec.toNat_ofNat] at hlast
          omega

theorem fits_of_permits (hwf : RegionsWellFormed mmu.regions) {count : Nat}
    {requiredProt : Protection}
    (h : ∀ i < count, Permits mmu (address + BitVec.ofNat 64 i) requiredProt) :
    address.toNat + count ≤ 2 ^ 64 := by
  by_cases hpos : 0 < count
  · have hmapped := fits_of_mapped hwf hpos fun i hi =>
      (permits_iff_access.mp (h i hi)).imp fun cell hcell =>
        (AddressMap.access_eq_ok_iff.mp hcell).1
    omega
  · have hlt := address.isLt
    omega

/-- A permitted write returns and keeps every permission. -/
theorem writeBytes_of_permits {count : Nat} {bytes : Nat → U8}
    (hwf : RegionsWellFormed mmu.regions)
    (h : ∀ i < count, Permits mmu (address + BitVec.ofNat 64 i) protWrite) :
    ∃ mmu', writeBytes address bytes count mmu = .ok () mmu' ∧
      RegionsWellFormed mmu'.regions ∧ protections mmu' = protections mmu := by
  have haccess : ∀ i < count, ∃ cell,
      mmu.addressMap.access (address + BitVec.ofNat 64 i) protWrite = .ok cell :=
    fun i hi => permits_iff_access.mp (h i hi)
  have hfits := fits_of_permits hwf h
  rcases writeBytes_of_writable hwf hfits haccess with ⟨mmu', hwrite, hedits⟩
  exact ⟨mmu', hwrite, hedits.wellFormed, protections_editCells hedits.addressMap⟩

/-! ## Words -/

/-- The bytes of a word are at its address. -/
def HoldsWord (mmu : SoftMMU) (address value : U64) : Prop :=
  ∀ i < 8, mmu.guestByte (address + BitVec.ofNat 64 i) = some (LittleEndian.byte value i)

/-- The bytes after a word was written. -/
theorem guestByte_of_write64 (h : write64 address value mmu = .ok () mmu') (other : U64) :
    mmu'.guestByte other =
      if (other - address).toNat < 8 then some (LittleEndian.byte value (other - address).toNat)
      else mmu.guestByte other :=
  guestByte_of_writeBytes (by decide) h other

/-- A word that was written is held. -/
theorem holdsWord_write64 (h : write64 address value mmu = .ok () mmu') :
    HoldsWord mmu' address value := by
  intro i hi
  have hoffset : (address + BitVec.ofNat 64 i - address).toNat = i := by
    rw [BitVec.add_comm, BitVec.add_sub_cancel, BitVec.toNat_ofNat]
    omega
  rw [guestByte_of_write64 h, hoffset, if_pos hi]

/-- Permitted reads of a word give the word that is held. -/
theorem read64_of_holdsWord (hwf : RegionsWellFormed mmu.regions)
    (h : HoldsWord mmu address value)
    (hpermits : ∀ i < 8, Permits mmu (address + BitVec.ofNat 64 i) protRead) :
    mmu.read64 address = .ok value := by
  have hbytes : ∀ i < 8, mmu.read8 (address + BitVec.ofNat 64 i) =
      .ok (LittleEndian.byte value i) :=
    fun i hi => (read8_eq_ok_iff hwf).mpr ⟨h i hi, hpermits i hi⟩
  have hread := readInteger_of_bytes hbytes
  rw [LittleEndian.assemble_byte] at hread
  exact hread

theorem HoldsWord.unique {value' : U64} (h : HoldsWord mmu address value)
    (h' : HoldsWord mmu address value') : value = value' := by
  rw [← LittleEndian.assemble_byte value, ← LittleEndian.assemble_byte value']
  refine LittleEndian.assemble_congr fun i hi => ?_
  exact Option.some.inj ((h i hi).symm.trans (h' i hi))

/-- A word is read when its bytes can be read, and then it is the word that is held. -/
theorem read64_eq_ok_iff (hwf : RegionsWellFormed mmu.regions) :
    mmu.read64 address = .ok value ↔ HoldsWord mmu address value ∧
      ∀ i < 8, Permits mmu (address + BitVec.ofNat 64 i) protRead := by
  constructor
  · intro h
    obtain ⟨bytes, hbytes, rfl⟩ := readInteger_bytes h
    refine ⟨fun i hi => ?_, fun i hi => ((read8_eq_ok_iff hwf).mp (hbytes i hi)).2⟩
    rw [LittleEndian.byte_assemble (Nat.le_refl 8) hi]
    exact guestByte_of_read8 (hbytes i hi)
  · rintro ⟨hword, hpermits⟩
    exact read64_of_holdsWord hwf hword hpermits

theorem read64_returns_iff (hwf : RegionsWellFormed mmu.regions) :
    (∃ value, mmu.read64 address = .ok value) ↔
      ∀ i < 8, Permits mmu (address + BitVec.ofNat 64 i) protRead := by
  constructor
  · rintro ⟨value, h⟩
    exact ((read64_eq_ok_iff hwf).mp h).2
  · intro hpermits
    obtain ⟨bytes, h, -⟩ := readInteger_of_permits hwf hpermits
    exact ⟨_, h⟩

end LUE
