import LinuxUserspaceEmulator.Emulator.MapIntegrity
import LinuxUserspaceEmulator.SoftMMU.TwoMemories
import LinuxUserspaceEmulator.SoftMMU.Words

/-!
# What a run can change

A guest that leaves its memory map alone can change nothing but the bytes of writable pages,
whatever instructions, system calls and signal handlers it goes through, and the write observer
hears of every address it changes.  Both are invariants of byte accesses, so they hold after
every run, also when it ends with an error.

Main results:

- Theorem `WrittenAt.write`: one byte access writes at one writable address.
- Theorem `runRounds_confined`: a run changes the contents of writable addresses only.
- Theorem `runRounds_writes_observed`: the observer hears of every changed address.
-/

namespace LUE

open StateExcept SoftMMU

/-- What a cell says of the mapping it belongs to. -/
def Cell.mapping (cell : Cell) : Protection × String × Backing :=
  (cell.prot, cell.name, cell.backing)

/-- The memory differs from the one of the start in the contents of some addresses at most. -/
structure WrittenAt (start : SoftMMU) (written : U64 → Prop) (mmu : SoftMMU) : Prop where
  wellFormed : RegionsWellFormed mmu.regions
  mapping : ∀ address,
    (mmu.addressMap address).map Cell.mapping = (start.addressMap address).map Cell.mapping
  contents : ∀ address, ¬written address → mmu.addressMap address = start.addressMap address

namespace WrittenAt

variable {start mmu mmu' : SoftMMU} {written written' : U64 → Prop} {address : U64}

theorem refl (hwf : RegionsWellFormed start.regions) : WrittenAt start written start where
  wellFormed := hwf
  mapping := fun _ => rfl
  contents := fun _ _ => rfl

theorem congr (h : WrittenAt start written mmu) (hregions : mmu'.regions = mmu.regions) :
    WrittenAt start written mmu' := by
  have hmap : mmu'.addressMap = mmu.addressMap := by
    unfold SoftMMU.addressMap
    rw [hregions]
  constructor
  · rw [hregions]
    exact h.wellFormed
  · rw [hmap]
    exact h.mapping
  · rw [hmap]
    exact h.contents

/-- The permissions are those of the start. -/
theorem permits (h : WrittenAt start written mmu) {requiredProt : Protection} :
    Permits mmu address requiredProt ↔ Permits start address requiredProt := by
  refine permits_congr (funext fun a => ?_)
  have hmapping := congrArg (Option.map Prod.fst) (h.mapping a)
  rwa [Option.map_map, Option.map_map] at hmapping

/-- One byte access writes at one writable address. -/
theorem write (h : WrittenAt start written mmu) {value : ValueWithShadow 8}
    (hwrite : write8WithShadow address value mmu = .ok () mmu')
    (hgrows : ∀ a, written a → written' a)
    (hat : Permits start address protWrite → written' address) :
    Permits start address protWrite ∧ WrittenAt start written' mmu' := by
  obtain ⟨cell, haccess, hedits⟩ := edits_of_write8WithShadow h.wellFormed hwrite
  have hpermits : Permits start address protWrite :=
    h.permits.mp (permits_iff_access.mpr ⟨cell, haccess⟩)
  have hcell := (AddressMap.access_eq_ok_iff.mp haccess).1
  refine ⟨hpermits, hedits.wellFormed, fun a => ?_, fun a ha => ?_⟩
  · rw [hedits.addressMap, ← h.mapping a, AddressMap.write]
    by_cases hsame : a = address
    · rw [hsame, Function.update_self, hcell]
      rfl
    · rw [Function.update_of_ne hsame]
  · have hother : a ≠ address := fun hsame => ha (hsame ▸ hat hpermits)
    rw [hedits.addressMap, AddressMap.write, Function.update_of_ne hother]
    exact h.contents a fun hold => ha (hgrows a hold)

end WrittenAt

/-- A write that is refused changes nothing. -/
theorem write8WithShadow_raised {mmu mmu' : SoftMMU} {address : U64} {value : ValueWithShadow 8}
    {e : Raise} (hwf : RegionsWellFormed mmu.regions)
    (h : write8WithShadow address value mmu = .error e mmu') : mmu' = mmu := by
  cases haccess : mmu.addressMap.access address protWrite with
  | ok cell =>
      obtain ⟨after, hok, -⟩ := write8WithShadow_of_access hwf haccess value
      cases hok.symm.trans h
  | error e' =>
      rw [write8WithShadow_of_error haccess value] at h
      cases h
      rfl

/-- A property that single writes keep is an invariant of byte accesses, when reads cannot
change it. -/
theorem byteInvariant_of_writes {P : SoftMMU → Prop}
    (hwf : ∀ mmu, P mmu → RegionsWellFormed mmu.regions)
    (hobserver : ∀ mmu log, P mmu → P { mmu with readObserver := log })
    (hwrite : ∀ mmu mmu' address value, P mmu →
      write8WithShadow address value mmu = .ok () mmu' → P mmu') : ByteInvariant P where
  read8WithShadow := fun _ => (Preserves.observe _).bind fun _ =>
    Preserves.bind (.modify fun _ h => hobserver _ _ h) fun _ => Preserves.observe _
  write8WithShadow := by
    intro address value mmu h
    cases hrun : write8WithShadow address value mmu with
    | ok _ mmu' => exact hwrite mmu mmu' address value h hrun
    | error e mmu' => exact (write8WithShadow_raised (hwf mmu h) hrun).symm ▸ h

/-! ## Confinement -/

/-- Only the contents of writable addresses have changed. -/
def Confined (start : SoftMMU) : SoftMMU → Prop :=
  WrittenAt start fun address => Permits start address protWrite

theorem byteInvariant_confined (start : SoftMMU) : ByteInvariant (Confined start) :=
  byteInvariant_of_writes (fun _ h => h.wellFormed) (fun _ _ h => h.congr rfl)
    fun _ _ _ _ h hwrite => (h.write hwrite (fun _ hold => hold) fun hpermits => hpermits).2

/-- A run that does not call the memory map keeps every mapping with its permissions, and every
address that is not writable with its contents, whether it still runs or has raised. -/
theorem runRounds_confined (inputs : List RoundInput) (emulator : Emulator)
    (hwf : RegionsWellFormed emulator.mmu.regions)
    (halong : Along (fun emulator => ¬CallsMemoryMap emulator) Emulator.servedRound inputs
      emulator) :
    let after := (finalState (Emulator.runRounds inputs emulator)).mmu
    (∀ address, (after.addressMap address).map Cell.mapping =
        (emulator.mmu.addressMap address).map Cell.mapping) ∧
      ∀ address, ¬Permits emulator.mmu address protWrite →
        after.addressMap address = emulator.mmu.addressMap address := by
  have hconfined : Confined emulator.mmu _ :=
    (byteInvariant_confined emulator.mmu).runRounds halong (WrittenAt.refl hwf)
  exact ⟨hconfined.mapping, hconfined.contents⟩

section Examples

theorem regionsWellFormed_storingByte : RegionsWellFormed storingByte.mmu.regions := by
  refine SoftMMU.regionsWellFormed_of_consecutive ?_ (List.pairwise_pair.mpr (by decide))
  intro region hregion
  rcases List.mem_pair.mp hregion with rfl | rfl
  · exact Emulator.pageOf_wellFormed (by decide) (by decide) (by decide)
  · exact Emulator.pageOf_wellFormed (by decide) (by decide) (by decide)

theorem along_storingByte :
    Along (fun emulator => ¬CallsMemoryMap emulator) Emulator.servedRound [quietRound]
      storingByte :=
  ⟨fun h => absurd h.2 (by decide), fun _ _ => trivial⟩

/-- The store leaves the page with the instruction as it is. -/
theorem runRounds_confined_storingByte :
    (finalState (Emulator.runRounds [quietRound] storingByte)).mmu.addressMap 0x1000 =
      storingByte.mmu.addressMap 0x1000 := by
  refine (runRounds_confined [quietRound] storingByte regionsWellFormed_storingByte
    along_storingByte).2 0x1000 ?_
  rintro ⟨prot, hprot, hwrite⟩
  cases hprot
  exact absurd hwrite (by decide)

end Examples

/-! ## The write observer -/

/-- The observer has heard of every change, and of writes to writable addresses only. -/
structure WritesObserved (start mmu : SoftMMU) (log : List U64) : Prop where
  observer : mmu.writeObserver = some log
  written : WrittenAt start (· ∈ log) mmu
  writable : ∀ address ∈ log, Permits start address protWrite

theorem byteInvariant_observed (start : SoftMMU) :
    ByteInvariant fun mmu => ∃ log, WritesObserved start mmu log := by
  refine byteInvariant_of_writes (fun _ ⟨_, h⟩ => h.written.wellFormed)
    (fun _ _ ⟨log, h⟩ => ⟨log, h.observer, h.written.congr rfl, h.writable⟩) ?_
  rintro mmu mmu' address value ⟨log, hobserved⟩ hwrite
  obtain ⟨hobserver, -, -⟩ := write8WithShadow_fields hwrite
  obtain ⟨hpermits, hwritten⟩ : _ ∧ WrittenAt start (· ∈ log ++ [address]) mmu' :=
    hobserved.written.write hwrite (fun _ hold => List.mem_append_left _ hold) fun _ => by simp
  refine ⟨log ++ [address], ?_, hwritten, fun a ha => ?_⟩
  · rw [hobserver, hobserved.observer]
    rfl
  · rcases List.mem_append.mp ha with hold | hnew
    · exact hobserved.writable a hold
    · rw [List.mem_singleton.mp hnew]
      exact hpermits

/-- In a run that does not call the memory map the write observer hears of every address whose
contents have changed, and of none that is not writable, whether the run goes on or has
raised. -/
theorem runRounds_writes_observed (inputs : List RoundInput) (emulator : Emulator)
    (hwf : RegionsWellFormed emulator.mmu.regions)
    (hobserver : emulator.mmu.writeObserver = some [])
    (halong : Along (fun emulator => ¬CallsMemoryMap emulator) Emulator.servedRound inputs
      emulator) :
    let after := (finalState (Emulator.runRounds inputs emulator)).mmu
    ∃ log, after.writeObserver = some log ∧
      (∀ address, after.addressMap address ≠ emulator.mmu.addressMap address → address ∈ log) ∧
      ∀ address ∈ log, Permits emulator.mmu address protWrite := by
  obtain ⟨log, hobserved⟩ := (byteInvariant_observed emulator.mmu).runRounds halong
    ⟨[], hobserver, WrittenAt.refl hwf, by simp⟩
  refine ⟨log, hobserved.observer, fun address hchanged => ?_, hobserved.writable⟩
  by_contra hnot
  exact hchanged (hobserved.written.contents address hnot)

/-- The store is heard of if it changes anything. -/
theorem runRounds_writes_observed_storingByte :
    ∃ log, (finalState (Emulator.runRounds [quietRound] storingByte)).mmu.writeObserver =
        some log ∧
      (∀ address, (finalState (Emulator.runRounds [quietRound] storingByte)).mmu.addressMap
        address ≠ storingByte.mmu.addressMap address → address ∈ log) ∧
      ∀ address ∈ log, Permits storingByte.mmu address protWrite :=
  runRounds_writes_observed [quietRound] storingByte regionsWellFormed_storingByte rfl
    along_storingByte

end LUE
