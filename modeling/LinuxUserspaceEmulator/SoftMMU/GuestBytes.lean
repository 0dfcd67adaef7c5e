import LinuxUserspaceEmulator.Library.LittleEndian
import LinuxUserspaceEmulator.SoftMMU.Writing

/-!
# Guest memory as bytes

The bytes of the flat map alone, and what reads and writes that return tell about them.
Nothing here needs the region invariant: a write that returned has found its region, and a
later lookup of the same address finds that region again.

Main results:

- Theorem `guestByte_of_writeBytes`: the bytes after consecutive writes.
- Theorem `read8WithShadow_eq_cell`: a shadowed byte read gives what the cell holds.
- Theorems `readInteger_of_bytes` and `readInteger_bytes`: a multi-byte read assembles the bytes.
- Theorem `readIntegerWithShadow_eq_ok`: a shadowed read gives the plainly read value.
-/

namespace LUE

open StateExcept

namespace SoftMMU

/-- The byte at a mapped address. -/
def guestByte (mmu : SoftMMU) (address : U64) : Option U8 :=
  (mmu.addressMap address).map Cell.byte

/-- The permission at a mapped address. -/
def protections (mmu : SoftMMU) (address : U64) : Option Protection :=
  (mmu.addressMap address).map Cell.prot

variable {mmu mmu' : SoftMMU} {address : U64} {count : Nat}

theorem guestByte_congr (h : mmu'.regions = mmu.regions) : mmu'.guestByte = mmu.guestByte := by
  funext address
  simp only [guestByte, addressMap, h]

/-! ## Reads -/

/-- A byte that can be read is the byte of the map. -/
theorem guestByte_of_read8 {byte : U8} (h : mmu.read8 address = .ok byte) :
    mmu.guestByte address = some byte := by
  obtain ⟨region, hregion, hread⟩ := except_bind_eq_ok_iff.mp h
  have hfound := (regionFor_eq_ok_iff.mp hregion).1
  change ((mmu.findRegion address).map _).map _ = _
  rw [hfound]
  rw [Region.readOffset] at hread
  split at hread <;> rename_i hbyte
  · cases hread
    change some (region.bytes.getD (address - region.base).toNat 0) = _
    rw [List.getD_eq_getElem?_getD, hbyte, Option.getD_some]
  · cases hread

/-- A multi-byte read assembles the bytes. -/
theorem readInteger_of_bytes {bytes : Nat → U8}
    (h : ∀ i < count, mmu.read8 (address + BitVec.ofNat 64 i) = .ok (bytes i)) :
    mmu.readInteger address count = .ok (LittleEndian.assemble bytes count) := by
  induction count with
  | zero => rfl
  | succ count ih =>
      rw [readInteger, except_bind_of_ok (ih fun i hi => h i (Nat.lt_succ_of_lt hi)),
        except_bind_of_ok (h count (Nat.lt_succ_self count))]
      rfl

/-- The bytes of a multi-byte read. -/
theorem readInteger_bytes {value : U64} (h : mmu.readInteger address count = .ok value) :
    ∃ bytes : Nat → U8, (∀ i < count, mmu.read8 (address + BitVec.ofNat 64 i) = .ok (bytes i)) ∧
      value = LittleEndian.assemble bytes count := by
  induction count generalizing value with
  | zero =>
      cases h
      exact ⟨fun _ => 0, nofun, rfl⟩
  | succ count ih =>
      rcases except_bind_eq_ok_iff.mp h with ⟨low, hlow, hrest⟩
      rcases except_bind_eq_ok_iff.mp hrest with ⟨byte, hbyte, -⟩
      rcases ih hlow with ⟨bytes, hbytes, -⟩
      have hall : ∀ i < count + 1, mmu.read8 (address + BitVec.ofNat 64 i) =
          .ok (Function.update bytes count byte i) := by
        intro i hi
        by_cases hi' : i = count
        · subst hi'
          rw [Function.update_self, hbyte]
        · rw [Function.update_of_ne hi', hbytes i (by omega)]
      have hvalue := readInteger_of_bytes hall
      rw [h] at hvalue
      exact ⟨_, hall, Except.ok.inj hvalue⟩

/-- A multi-byte read that returns has assembled the bytes of the map. -/
theorem bytes_of_readInteger {value : U64} (h : mmu.readInteger address count = .ok value) :
    ∃ bytes : Nat → U8, value = LittleEndian.assemble bytes count ∧
      ∀ i < count, mmu.guestByte (address + BitVec.ofNat 64 i) = some (bytes i) := by
  rcases readInteger_bytes h with ⟨bytes, hbytes, hvalue⟩
  exact ⟨bytes, hvalue, fun i hi => guestByte_of_read8 (hbytes i hi)⟩

/-- A shadowed byte read that returns gives the plainly read byte and keeps the regions. -/
theorem read8WithShadow_eq_ok {value : ValueWithShadow 8}
    (h : read8WithShadow address mmu = .ok value mmu') :
    mmu.read8 address = .ok value.value ∧ mmu'.regions = mmu.regions := by
  obtain ⟨region, mmu₁, hresolve, hrest⟩ := bind_eq_ok_iff.mp h
  obtain ⟨hregion, rfl⟩ := observe_eq_ok_iff.mp hresolve
  rw [bind_of_ok (modify_apply _ mmu)] at hrest
  obtain ⟨hread, rfl⟩ := observe_eq_ok_iff.mp hrest
  obtain ⟨byte, hbyte, hflag⟩ := except_bind_eq_ok_iff.mp hread
  obtain ⟨flag, -, hreturn⟩ := except_bind_eq_ok_iff.mp hflag
  refine ⟨?_, rfl⟩
  rw [read8, except_bind_of_ok hregion, hbyte]
  cases hreturn
  cases flag <;> rfl

/-- The value and the shadow that a cell gives to a reader. -/
def cellValue (cell : Cell) : ValueWithShadow 8 :=
  if cell.initialized then .initialized cell.byte else .uninitialized cell.byte

@[simp]
theorem cellValue_value (cell : Cell) : (cellValue cell).value = cell.byte := by
  unfold cellValue
  split <;> rfl

@[simp]
theorem cellValue_isInitialized (cell : Cell) :
    (cellValue cell).isInitialized = cell.initialized := by
  unfold cellValue
  cases cell.initialized <;> rfl

@[simp]
theorem cellValue_isUninitialized (cell : Cell) :
    (cellValue cell).isUninitialized = !cell.initialized := by
  unfold cellValue
  cases cell.initialized <;> rfl

/-- A shadowed byte read that returns gives what the cell holds. -/
theorem read8WithShadow_eq_cell {value : ValueWithShadow 8}
    (h : read8WithShadow address mmu = .ok value mmu') :
    ∃ cell, mmu.addressMap.access address protRead = .ok cell ∧ value = cellValue cell ∧
      mmu' = { mmu with readObserver := mmu.readObserver.map (· ++ [address]) } := by
  rcases bind_eq_ok_iff.mp h with ⟨region, mmu₁, hresolve, hrest⟩
  rcases observe_eq_ok_iff.mp hresolve with ⟨hregion, rfl⟩
  rw [bind_of_ok (modify_apply _ mmu)] at hrest
  rcases observe_eq_ok_iff.mp hrest with ⟨hread, rfl⟩
  rcases except_bind_eq_ok_iff.mp hread with ⟨byte, hbyte, hflag⟩
  rcases except_bind_eq_ok_iff.mp hflag with ⟨flag, hinitialized, hreturn⟩
  refine ⟨region.cellAt address, ?_, ?_, rfl⟩
  · rw [access_eq_regionFor, hregion]
    rfl
  · have hbytes : region.bytes[(address - region.base).toNat]? = some byte := by
      unfold Region.readOffset at hbyte
      split at hbyte <;> cases hbyte
      assumption
    have hflags : region.initialized[(address - region.base).toNat]? = some flag := by
      unfold Region.isOffsetInitialized at hinitialized
      split at hinitialized <;> cases hinitialized
      assumption
    cases hreturn
    simp only [cellValue, Region.cellAt, List.getD_eq_getElem?_getD, hbytes, hflags,
      Option.getD_some]

/-- A permitted shadowed read gives what the cell holds and only tells the observer. -/
theorem read8WithShadow_of_access {cell : Cell} (hwf : RegionsWellFormed mmu.regions)
    (h : mmu.addressMap.access address protRead = .ok cell) :
    read8WithShadow address mmu = .ok (cellValue cell)
      { mmu with readObserver := mmu.readObserver.map (· ++ [address]) } := by
  rcases exists_regionFor h with ⟨region, hregion, rfl⟩
  have hfound := (regionFor_eq_ok_iff.mp hregion).1
  have hregionwf := hwf.wellFormed region (SegmentList.lookup_mem hfound)
  have hlt := hregionwf.offset_lt (SegmentList.lookup_covers hfound)
  have hbyte := @Region.readOffset_of_lt region _ (hregionwf.bytes_length ▸ hlt)
  have hflag := @Region.isOffsetInitialized_of_lt region _
    (hregionwf.initialized_length ▸ hlt)
  have hread : ∃ value, region.readOffsetWithShadow (address - region.base) = .ok value := by
    rw [Region.readOffsetWithShadow, hbyte, hflag]
    exact ⟨_, rfl⟩
  rcases hread with ⟨value, hvalue⟩
  have hreturn : read8WithShadow address mmu = .ok value
      { mmu with readObserver := mmu.readObserver.map (· ++ [address]) } := by
    rw [read8WithShadow, bind_of_ok (observe_regionFor hregion), bind_of_ok (modify_apply _ mmu)]
    exact observe_eq_ok_iff.mpr ⟨hvalue, rfl⟩
  rcases read8WithShadow_eq_cell hreturn with ⟨cell, hcell, hsame, -⟩
  rw [h] at hcell
  cases hcell
  rw [hreturn, hsame]

/-- A shadowed read that returns gives the plainly read value and keeps the regions. -/
theorem readIntegerWithShadow_eq_ok {value : ValueWithShadow 64}
    (h : readIntegerWithShadow address count mmu = .ok value mmu') :
    mmu.readInteger address count = .ok value.value ∧ mmu'.regions = mmu.regions := by
  induction count generalizing value mmu' with
  | zero =>
      cases h
      exact ⟨rfl, rfl⟩
  | succ count ih =>
      obtain ⟨low, mmu₁, hlow, hrest⟩ := bind_eq_ok_iff.mp h
      obtain ⟨byte, mmu₂, hbyte, hreturn⟩ := bind_eq_ok_iff.mp hrest
      obtain ⟨hlowread, hregions⟩ := ih hlow
      obtain ⟨hlastread, hregions'⟩ := read8WithShadow_eq_ok hbyte
      have hsame : mmu₁.read8 (address + BitVec.ofNat 64 count) =
          mmu.read8 (address + BitVec.ofNat 64 count) := by
        simp only [read8, regionFor, findRegion, hregions]
      rw [hsame] at hlastread
      cases hreturn
      refine ⟨?_, hregions'.trans hregions⟩
      rw [readInteger, except_bind_of_ok hlowread, except_bind_of_ok hlastread]
      rfl

/-! ## Writes -/

/-- A byte write that returns replaces one byte. -/
theorem guestByte_of_write8 {value : U8} (h : write8 address value mmu = .ok () mmu') :
    mmu'.guestByte = Function.update mmu.guestByte address (some value) := by
  obtain ⟨cell, hcell, hmap⟩ := addressMap_of_write8WithShadow h
  funext other
  rw [guestByte, hmap, AddressMap.write]
  by_cases hother : other = address
  · subst hother
    simp [ValueWithShadow.initialized]
  · rw [Function.update_of_ne hother, Function.update_of_ne hother]
    rfl

/-- Consecutive writes that return have put their bytes at the offsets below the count. -/
theorem guestByte_of_writeBytes {bytes : Nat → U8} (hcount : count ≤ 2 ^ 64)
    (h : writeBytes address bytes count mmu = .ok () mmu') (other : U64) :
    mmu'.guestByte other =
      if (other - address).toNat < count then some (bytes (other - address).toNat)
      else mmu.guestByte other := by
  induction count generalizing mmu' with
  | zero =>
      cases h
      simp
  | succ count ih =>
      obtain ⟨mmu₁, hfirst, hlast⟩ := forOffsets_succ_eq_ok_iff.mp h
      have hprevious := ih (by omega) hfirst
      rw [guestByte_of_write8 hlast]
      by_cases hother : other = address + BitVec.ofNat 64 count
      · have hoffset : (other - address).toNat = count := by
          subst hother
          rw [BitVec.add_comm, BitVec.add_sub_cancel, BitVec.toNat_ofNat]
          omega
        rw [hother, Function.update_self, ← hother, hoffset]
        simp
      · have hoffset : (other - address).toNat ≠ count := by
          intro heq
          apply hother
          rw [← heq, BitVec.ofNat_toNat, BitVec.setWidth_eq, BitVec.add_comm,
            BitVec.sub_add_cancel]
        rw [Function.update_of_ne hother, hprevious]
        have hlt : (other - address).toNat < count ↔ (other - address).toNat < count + 1 := by
          omega
        simp only [hlt]

end SoftMMU

end LUE
