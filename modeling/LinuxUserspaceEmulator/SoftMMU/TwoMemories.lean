import LinuxUserspaceEmulator.Library.TwoRuns
import LinuxUserspaceEmulator.SoftMMU.GuestBytes

/-!
# Memories that differ in uninitialized bytes

Two memories are the same but for uninitialized data when every address has the same mapping
and the same initialization flag in both, and the same byte wherever the flag is set.
Shadowed reads of such memories return values that are equal unless their shadow says
otherwise; shadowed writes of such values keep the memories so.

Main results:

- Theorem `lockstep_readIntegerWithShadow`: shadowed reads.
- Theorem `lockstep_writeIntegerWithShadow`: shadowed writes.
-/

namespace LUE

open StateExcept

/-- Two cells with the same mapping and flag, and the same byte if it is initialized. -/
structure Cell.SameInitialized (cell cell' : Cell) : Prop where
  rest : cell' = { cell with byte := cell'.byte }
  byte : cell.initialized = true → cell.byte = cell'.byte

/-- Two values with the same shadow, and the same bits if the shadow is clear. -/
structure ValueWithShadow.SameInitialized {w : Nat} (v v' : ValueWithShadow w) : Prop where
  shadow : v.shadow = v'.shadow
  value : v.shadow = 0 → v.value = v'.value

namespace SoftMMU

/-- Two memories that differ in uninitialized bytes only. -/
structure SameInitialized (mmu mmu' : SoftMMU) : Prop where
  cells : ∀ address, Option.Rel Cell.SameInitialized (mmu.addressMap address)
    (mmu'.addressMap address)
  writeObserver : mmu.writeObserver = mmu'.writeObserver
  readObserver : mmu.readObserver = mmu'.readObserver
  nextAllocation : mmu.nextAllocation = mmu'.nextAllocation

variable {mmu mmu' after after' : SoftMMU} {address : U64} {cell cell' : Cell}

namespace SameInitialized

theorem refl (mmu : SoftMMU) : mmu.SameInitialized mmu where
  cells := by
    intro address
    cases mmu.addressMap address with
    | none => exact Option.Rel.none
    | some cell => exact Option.Rel.some ⟨rfl, fun _ => rfl⟩
  writeObserver := rfl
  readObserver := rfl
  nextAllocation := rfl

/-- An address that both memories map. -/
theorem cellsAt (h : mmu.SameInitialized mmu') (hcell : mmu.addressMap address = some cell)
    (hcell' : mmu'.addressMap address = some cell') : cell.SameInitialized cell' := by
  have hrelated := h.cells address
  rw [hcell, hcell'] at hrelated
  cases hrelated with
  | some hcells => exact hcells

/-- Initialized bytes that both memories can read are the same. -/
theorem read8 (h : mmu.SameInitialized mmu') (hcell : mmu.addressMap address = some cell)
    (hinitialized : cell.initialized = true) {byte byte' : U8}
    (hread : mmu.read8 address = .ok byte) (hread' : mmu'.read8 address = .ok byte') :
    byte = byte' := by
  have hbyte := guestByte_of_read8 hread
  have hbyte' := guestByte_of_read8 hread'
  simp only [guestByte, Option.map_eq_some_iff] at hbyte hbyte'
  rcases hbyte with ⟨found, hfound, rfl⟩
  rcases hbyte' with ⟨cell', hcell', rfl⟩
  rw [hcell] at hfound
  cases hfound
  exact (h.cellsAt hcell hcell').byte hinitialized

end SameInitialized

/-! ## Shadowed reads -/

/-- What two such cells give to a reader. -/
theorem sameInitialized_cellValue (h : cell.SameInitialized cell') :
    (cellValue cell).SameInitialized (cellValue cell') := by
  have hflag : cell'.initialized = cell.initialized := by rw [h.rest]
  unfold cellValue
  rw [hflag]
  cases hinitialized : cell.initialized with
  | true => exact ⟨rfl, fun _ => h.byte hinitialized⟩
  | false => exact ⟨rfl, fun hshadow => by cases hshadow⟩

theorem lockstep_read8WithShadow (address : U64) :
    Lockstep (fun _ => 0) 0 SameInitialized (read8WithShadow address) (read8WithShadow address)
      fun v v' mmu mmu' => v.SameInitialized v' ∧ mmu.SameInitialized mmu' where
  grows := fun _ => Nat.le_refl 0
  related := by
    intro mmu mmu' v v' after after' hsame hread hread' _
    rcases read8WithShadow_eq_cell hread with ⟨cell, haccess, rfl, rfl⟩
    rcases read8WithShadow_eq_cell hread' with ⟨cell', haccess', rfl, rfl⟩
    have hcells := hsame.cellsAt (AddressMap.access_eq_ok_iff.mp haccess).1
      (AddressMap.access_eq_ok_iff.mp haccess').1
    exact ⟨sameInitialized_cellValue hcells, hsame.cells, hsame.writeObserver,
      congrArg (Option.map (· ++ [address])) hsame.readObserver, hsame.nextAllocation⟩

/-- A byte with a shadow makes the shadow of its word nonzero. -/
theorem or_byteShadow_ne_zero (shadow : U64) {count : Nat} (hcount : count < 8) :
    shadow ||| (0xff : U64) <<< (count * 8) ≠ 0 := by
  intro hzero
  have hbit := congrArg (fun value => value.getLsbD (count * 8)) hzero
  have hlt : count * 8 < 64 := by omega
  simp [hlt] at hbit

/-- A shadowed word is the same in both memories unless one of its bytes is uninitialized. -/
theorem lockstep_readIntegerWithShadow (address : U64) {count : Nat} (hcount : count ≤ 8) :
    Lockstep (fun _ => 0) 0 SameInitialized (readIntegerWithShadow address count)
      (readIntegerWithShadow address count)
      fun v v' mmu mmu' => v.SameInitialized v' ∧ mmu.SameInitialized mmu' := by
  induction count with
  | zero => exact Lockstep.pure fun _ _ hsame => ⟨⟨rfl, fun _ => rfl⟩, hsame⟩
  | succ count ih =>
      refine (ih (Nat.le_of_succ_le hcount)).bind fun low low' =>
        Lockstep.bind (Q := fun v v' mmu mmu' => (low.SameInitialized low' ∧
          v.SameInitialized v') ∧ mmu.SameInitialized mmu') ?_ fun byte byte' => ?_
      · exact ⟨fun _ => Nat.le_refl 0, fun hstart hread hread' hbound =>
          have hbyte := (lockstep_read8WithShadow _).related hstart.2 hread hread' hbound
          ⟨⟨hstart.1, hbyte.1⟩, hbyte.2⟩⟩
      · refine Lockstep.pure fun mmu mmu' h => ⟨?_, h.2⟩
        rcases h.1 with ⟨hlow, hbyte⟩
        have hflag : byte.isUninitialized = byte'.isUninitialized := by
          rw [ValueWithShadow.isUninitialized, hbyte.shadow]
          rfl
        cases huninitialized : byte.isUninitialized with
        | true =>
            rw [← hflag, huninitialized]
            refine ⟨?_, fun hshadow => ?_⟩
            · exact congrArg (· ||| (0xff : U64) <<< (count * 8)) hlow.shadow
            · exact absurd hshadow (or_byteShadow_ne_zero _ hcount)
        | false =>
            rw [← hflag, huninitialized]
            have hclear : byte.shadow = 0 := by
              simpa [ValueWithShadow.isUninitialized] using huninitialized
            refine ⟨hlow.shadow, fun hshadow => ?_⟩
            rw [hlow.value hshadow, hbyte.value hclear]

/-! ## Shadowed writes -/

/-- A write changes one cell, the regions and the log of writes. -/
theorem write8WithShadow_fields {value : ValueWithShadow 8}
    (h : write8WithShadow address value mmu = .ok () after) :
    after.writeObserver = mmu.writeObserver.map (· ++ [address]) ∧
      after.readObserver = mmu.readObserver ∧ after.nextAllocation = mmu.nextAllocation := by
  rcases bind_eq_ok_iff.mp h with ⟨region, middle, hresolve, hrest⟩
  rcases observe_eq_ok_iff.mp hresolve with ⟨-, rfl⟩
  rw [bind_of_ok (modify_apply _ mmu)] at hrest
  rcases bind_eq_ok_iff.mp hrest with ⟨written, middle, hwrite, hassign⟩
  rcases observe_eq_ok_iff.mp hwrite with ⟨-, rfl⟩
  cases hassign
  exact ⟨rfl, rfl, rfl⟩

theorem lockstep_write8WithShadow (address : U64) {v v' : ValueWithShadow 8}
    (h : v.SameInitialized v') :
    Lockstep (fun _ => 0) 0 SameInitialized (write8WithShadow address v)
      (write8WithShadow address v') fun _ _ => SameInitialized where
  grows := fun _ => Nat.le_refl 0
  related := by
    intro mmu mmu' _ _ after after' hsame hwrite hwrite' _
    rcases addressMap_of_write8WithShadow hwrite with ⟨cell, hcell, hmap⟩
    rcases addressMap_of_write8WithShadow hwrite' with ⟨cell', hcell', hmap'⟩
    rcases write8WithShadow_fields hwrite with ⟨hlog, hreads, hnext⟩
    rcases write8WithShadow_fields hwrite' with ⟨hlog', hreads', hnext'⟩
    have hcells := hsame.cellsAt hcell hcell'
    refine ⟨fun other => ?_, ?_, ?_, ?_⟩
    · rw [hmap, hmap']
      by_cases hother : other = address
      · subst hother
        rw [AddressMap.write, AddressMap.write, Function.update_self, Function.update_self]
        have hflag : v.isInitialized = v'.isInitialized := by
          rw [ValueWithShadow.isInitialized, h.shadow]
          rfl
        refine Option.Rel.some ⟨?_, fun hinitialized => h.value ?_⟩
        · rw [hcells.rest, hflag]
        · simpa [ValueWithShadow.isInitialized] using hinitialized
      · rw [AddressMap.write, AddressMap.write, Function.update_of_ne hother,
          Function.update_of_ne hother]
        exact hsame.cells other
    · rw [hlog, hlog', hsame.writeObserver]
    · rw [hreads, hreads', hsame.readObserver]
    · rw [hnext, hnext', hsame.nextAllocation]

/-- The bytes of two such words are such bytes, when the shadow of a byte is full or clear. -/
theorem lockstep_writeIntegerWithShadow (address : U64) {v v' : ValueWithShadow 64} {count : Nat}
    (hshadow : v.shadow = v'.shadow)
    (hbytes : ∀ i < count, LittleEndian.byte v.shadow i = 0 →
      LittleEndian.byte v.value i = LittleEndian.byte v'.value i) :
    Lockstep (fun _ => 0) 0 SameInitialized (writeIntegerWithShadow address v count)
      (writeIntegerWithShadow address v' count) fun _ _ => SameInitialized := by
  refine Lockstep.forOffsets fun i hi => lockstep_write8WithShadow _ ⟨?_, fun hclear => ?_⟩
  · rw [hshadow]
  · exact hbytes i hi hclear

/-! ## Written words -/

end SoftMMU

end LUE
