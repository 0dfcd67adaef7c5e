import LinuxUserspaceEmulator.Library.CursorLoop
import LinuxUserspaceEmulator.SoftCPU64.Decode
import LinuxUserspaceEmulator.SoftMMU.Runs
import LinuxUserspaceEmulator.SoftMMU.Words

/-!
# Prefix decoding ends

`read_prefixes` has no limit on the number of prefixes.  It ends on every memory map because the
last page of the address space is never mapped: the decoder finds an opcode, or raises, before it
wraps around.

Main results:

- Theorem `findRegion_of_lastPage`: no region of a reachable map has an address of the last page.
- Theorem `readPrefixesLoop_eq_trace`: the loop of `read_prefixes` is a loop with a cursor.
- Theorem `readPrefixes_ends`: it ends and examines no address twice.
-/

namespace LUE

open StateExcept CursorLoop

/-! ## The last page -/

/-- No region reaches the last page of the address space. -/
theorem findRegion_of_lastPage {mmu : SoftMMU} (hwf : RegionsWellFormed mmu.regions)
    {address : U64} (h : 2 ^ 64 - 4096 ≤ address.toNat) : mmu.findRegion address = none := by
  have hnone : mmu.addressMap address = none := by
    rw [Option.eq_none_iff_forall_not_mem]
    intro cell hcell
    have hlt := SoftMMU.lt_of_addressMap hwf hcell
    omega
  exact SegmentList.lookup_eq_none_iff.mpr (SoftMMU.addressMap_eq_none_iff.mp hnone)

namespace SoftCPU64

variable {mmu : SoftMMU} {cursor : U64} {prefixes : Prefixes} {emulator : Emulator}

/-! ## The loop -/

/-- One round of the loop of `read_prefixes`: a prefix is added, any other byte or an error ends
the loop. -/
def prefixRound (mmu : SoftMMU) (cursor : U64) (prefixes : Prefixes) :
    Round Prefixes (Except Raise Prefixes) :=
  match mmu.read8 cursor with
  | .error e => .done (.error e)
  | .ok byte =>
      match addPrefix byte prefixes with
      | some prefixes => .next prefixes
      | none => .done (.ok prefixes)

/-- The loop of `read_prefixes` with the addresses it examines. -/
def prefixTrace (mmu : SoftMMU) (rounds : Nat) (cursor : U64) (prefixes : Prefixes) :
    Trace 64 (Except Raise Prefixes) :=
  run (prefixRound mmu) rounds cursor prefixes

/-- The outcome of a loop that has left the decoder at its cursor. -/
def outcomeOf (emulator : Emulator) (trace : Trace 64 (Except Raise Prefixes)) :
    EStateM.Result Raise Emulator Prefixes :=
  match trace.result with
  | none => .error .divergence (atDecodePc emulator trace.cursor)
  | some (.error e) => .error e (atDecodePc emulator trace.cursor)
  | some (.ok prefixes) => .ok prefixes (atDecodePc emulator trace.cursor)

/-- The loop of `read_prefixes` is the loop with a cursor. -/
theorem readPrefixesLoop_eq_trace (rounds : Nat) (prefixes : Prefixes) (emulator : Emulator) :
    readPrefixesLoop rounds prefixes emulator =
      outcomeOf emulator (prefixTrace emulator.mmu rounds emulator.cpu.decodePc prefixes) := by
  induction rounds generalizing prefixes emulator with
  | zero => rfl
  | succ rounds ih =>
      cases hread : emulator.mmu.read8 emulator.cpu.decodePc with
      | error e =>
          have hround : prefixRound emulator.mmu emulator.cpu.decodePc prefixes =
              .done (.error e) := by
            rw [prefixRound, hread]
          have hraises : readMMU (fun mmu => mmu.read8 emulator.cpu.decodePc) emulator =
              .error e emulator :=
            observe_eq_error_iff.mpr ⟨hread, rfl⟩
          rw [prefixTrace, run_of_done hround, readPrefixesLoop,
            bind_of_ok (getCPU_apply emulator), bind_of_error hraises]
          rfl
      | ok byte =>
          cases hprefixed : addPrefix byte prefixes with
          | none =>
              have hround : prefixRound emulator.mmu emulator.cpu.decodePc prefixes =
                  .done (.ok prefixes) := by
                rw [prefixRound, hread]
                simp only [hprefixed]
              rw [prefixTrace, run_of_done hround, readPrefixesLoop_of_opcode hread hprefixed]
              rfl
          | some next =>
              have hround : prefixRound emulator.mmu emulator.cpu.decodePc prefixes =
                  .next next := by
                rw [prefixRound, hread]
                simp only [hprefixed]
              rw [prefixTrace, run_of_next hround, readPrefixesLoop_of_prefixByte hread hprefixed,
                ih]
              rfl

/-! ## Its end -/

/-- The loop goes on only at addresses that can be read. -/
theorem prefixRound_of_not_permits (hwf : RegionsWellFormed mmu.regions)
    (h : ¬Permits mmu cursor protRead) (prefixes : Prefixes) :
    ∃ what, prefixRound mmu cursor prefixes = .done (.error (.emulatorError what)) := by
  cases haccess : mmu.addressMap.access cursor protRead with
  | ok cell => exact absurd (permits_iff_access.mpr ⟨cell, haccess⟩) h
  | error e =>
      rcases AddressMap.access_error haccess with ⟨what, rfl⟩
      have hread : mmu.read8 cursor = .error (.emulatorError what) := by
        rw [SoftMMU.read8_eq_access hwf, haccess]
        rfl
      exact ⟨what, by rw [prefixRound, hread]⟩

/-- What ends the loop is a byte that is no prefix, or an address that cannot be read. -/
theorem eq_of_prefixRound_done (hwf : RegionsWellFormed mmu.regions)
    {result : Except Raise Prefixes} (h : prefixRound mmu cursor prefixes = .done result) :
    result = .ok prefixes ∨
      ¬Permits mmu cursor protRead ∧ ∃ what, result = .error (.emulatorError what) := by
  by_cases hpermits : Permits mmu cursor protRead
  · rcases read8_of_permits hwf hpermits with ⟨byte, hread, -⟩
    rw [prefixRound, hread] at h
    dsimp only at h
    split at h
    · cases h
    · cases h
      exact .inl rfl
  · rcases prefixRound_of_not_permits hwf hpermits prefixes with ⟨what, hround⟩
    rw [hround] at h
    cases h
    exact .inr ⟨hpermits, what, rfl⟩

/-- Nothing in the last page can be read. -/
theorem not_permits_of_lastPage (hwf : RegionsWellFormed mmu.regions)
    (h : 2 ^ 64 - 4096 ≤ cursor.toNat) : ¬Permits mmu cursor protRead := by
  rintro hpermits
  rcases permits_iff_access.mp hpermits with ⟨cell, hcell⟩
  have hlt := SoftMMU.lt_of_addressMap hwf (AddressMap.access_eq_ok_iff.mp hcell).1
  omega

/-- Prefix decoding ends on every memory map that a run of the memory-management unit reaches, from
every address: the last page is not mapped, so the decoder does not wrap around and examines no
address twice, and it returns or raises at an address that is not mapped or not readable. -/
theorem readPrefixes_ends (hreachable : emulator.mmu.Reachable) :
    let start := emulator.cpu.decodePc
    let examined := (prefixTrace emulator.mmu (2 ^ 64) start {}).examined
    (∀ address : U64, 2 ^ 64 - 4096 ≤ address.toNat → emulator.mmu.findRegion address = none) ∧
      ∃ count, start.toNat + count < 2 ^ 64 ∧
        examined = cursorsFrom start (count + 1) ∧ examined.Nodup ∧
        (∀ rounds, count < rounds →
          readPrefixesLoop rounds {} emulator = readPrefixes emulator) ∧
        let last := start + BitVec.ofNat 64 count
        ((∃ prefixes, readPrefixes emulator = .ok prefixes (atDecodePc emulator last)) ∨
          ¬Permits emulator.mmu last protRead ∧
            ∃ what, readPrefixes emulator =
              .error (.emulatorError what) (atDecodePc emulator last)) := by
  intro start examined
  have hwf := hreachable.regionsWellFormed
  refine ⟨fun address h => findRegion_of_lastPage hwf h, ?_⟩
  have hstart := start.isLt
  -- the loop ends in the last page if nothing ends it before
  have hdistance : 2 ^ 64 - 4096 ≤
      (start + BitVec.ofNat 64 (2 ^ 64 - 4096 - start.toNat)).toNat := by
    rw [BitVec.toNat_add, BitVec.toNat_ofNat]
    omega
  have hstop : ∀ prefixes, ∃ result, prefixRound emulator.mmu
      (start + BitVec.ofNat 64 (2 ^ 64 - 4096 - start.toNat)) prefixes = .done result := by
    intro prefixes
    rcases prefixRound_of_not_permits hwf (not_permits_of_lastPage hwf hdistance) prefixes with
      ⟨what, hround⟩
    exact ⟨_, hround⟩
  rcases run_eq_of_stop hstop {} with ⟨count, final, result, hcount, hround, hrun⟩
  have hfuel : count < 2 ^ 64 := by omega
  have hloop : ∀ rounds, count < rounds → readPrefixesLoop rounds {} emulator =
      outcomeOf emulator
        ⟨cursorsFrom start (count + 1), start + BitVec.ofNat 64 count, some result⟩ := by
    intro rounds hrounds
    rw [readPrefixesLoop_eq_trace, prefixTrace, hrun rounds hrounds]
  have hexamined : examined = cursorsFrom start (count + 1) :=
    congrArg Trace.examined (hrun (2 ^ 64) hfuel)
  refine ⟨count, by omega, hexamined, ?_, fun rounds hrounds => ?_, ?_⟩
  · rw [hexamined]
    exact nodup_cursorsFrom start hfuel
  · rw [hloop rounds hrounds, readPrefixes, hloop (2 ^ 64) hfuel]
  · intro last
    rw [readPrefixes, hloop (2 ^ 64) hfuel]
    rcases eq_of_prefixRound_done hwf hround with rfl | ⟨hpermits, what, rfl⟩
    · exact .inl ⟨final, rfl⟩
    · exact .inr ⟨hpermits, what, rfl⟩

section Examples

/-- A page of operand-size prefixes right below the last page. -/
def prefixPage : Emulator where
  mmu := runAll MMUCall.exec
    [.mapBytes 0xffffffffffffe000 0x1000 (protRead ||| protExecute) (List.replicate 0x1000 0x66) 0
      "prefixes"] (.empty none none)
  cpu := { decodePc := 0xffffffffffffe000 }

/-- Even there the decoder does not come back to an address. -/
theorem readPrefixes_ends_prefixPage :
    ∃ count, 0xffffffffffffe000 + count < 2 ^ 64 ∧
      (prefixTrace prefixPage.mmu (2 ^ 64) 0xffffffffffffe000 {}).examined =
        cursorsFrom 0xffffffffffffe000 (count + 1) ∧
      (prefixTrace prefixPage.mmu (2 ^ 64) 0xffffffffffffe000 {}).examined.Nodup := by
  have hreachable : prefixPage.mmu.Reachable := ⟨none, none, _, rfl⟩
  have hstart : prefixPage.cpu.decodePc = 0xffffffffffffe000 := rfl
  rcases readPrefixes_ends hreachable with ⟨-, count, hlt, hexamined, hnodup, -⟩
  rw [hstart] at hlt hexamined hnodup
  exact ⟨count, hlt, hexamined, hnodup⟩

end Examples

end SoftCPU64

end LUE
