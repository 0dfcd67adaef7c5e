import LinuxUserspaceEmulator.Library.Worklist
import LinuxUserspaceEmulator.MallocTracer.UseAfterFree
import LinuxUserspaceEmulator.SoftMMU.Words

/-!
# The scan of the heap

The leak report tells the allocations that are still reachable from the others.  A value
points into the live allocation that contains it; the roots are the general registers and
the words of writable memory outside of the live allocations, and the words of an allocation
are its edges.

Roots are read past the permissions, the words of an allocation are not.  What follows holds
of any set of live allocations and of any permissions.

Main results:

- Theorem `rootValues_returns`: the roots are always read.
- Theorem `pointersIn_returns_iff`: an allocation is scanned when its words can be read.
- Theorem `computeReachableAllocations_returns_iff`: the scan returns when every allocation
  that it comes to can be read.
- Theorem `mem_computeReachableAllocations_iff`: then it has found the allocations that it
  comes to.
-/

namespace LUE

open StateExcept SoftMMU

namespace MallocTracer

/-! ## The search -/

/-- `containing`: the base of the live allocation that contains a value, or zero. -/
def containing (tracer : MallocTracer) (value : U64) : U64 :=
  match recordContaining tracer.allocations value with
  | some (base, _) => base
  | none => 0

/-- The bases that `consider` looks at, for some values in order. -/
def candidates (tracer : MallocTracer) (values : List U64) : List U64 :=
  (values.map tracer.containing).filter fun base => base ≠ 0

/-- How many rounds `for (u64 offset = 0; offset + 8 <= size; offset += 8)` takes before the
offset wraps. -/
def wordCount (size : U64) : Nat :=
  if size.toNat + 8 < 2 ^ 64 then size.toNat / 8 else 2 ^ 61

/-- What that loop collects; an offset that wraps starts over at zero. -/
def eachWord (size : U64) (body : U64 → Except Raise (List U64)) : Except Raise (List U64) := do
  let values ← (List.range (wordCount size)).mapM fun k => body (BitVec.ofNat 64 (8 * k))
  if size.toNat + 8 < 2 ^ 64 then return values.flatten else .error .divergence

/-- A word of a region, read past the permissions. -/
def regionWord (region : Region) (offset : U64) : Nat → Except Raise U64
  | 0 => .ok 0
  | count + 1 => do
      let value ← regionWord region offset count
      let byte ← region.readOffset (offset + BitVec.ofNat 64 count)
      return value ||| byte.setWidth 64 <<< (count * 8)

/-- The word at an offset of a region, unless its address is in a live allocation. -/
def rootAt (tracer : MallocTracer) (region : Region) (offset : U64) :
    Except Raise (List U64) :=
  if tracer.containing (region.base + offset) ≠ 0 then .ok []
  else do
    let value ← regionWord region offset 8
    return [value]

/-- The words of a region that are roots. -/
def regionRoots (tracer : MallocTracer) (region : Region) : Except Raise (List U64) :=
  if !region.writable || region.size < 8 then .ok []
  else eachWord region.size (rootAt tracer region)

end MallocTracer

namespace TracedEmulator

open MallocTracer

/-- The values of the two root sets. -/
def rootValues (traced : TracedEmulator) : Except Raise (List U64) := do
  let words ← traced.emulator.mmu.regions.mapM (regionRoots traced.tracer)
  return (List.finRange 16).map traced.emulator.cpu.reg ++ words.flatten

/-- A word of an allocation. -/
def wordOf (traced : TracedEmulator) (base offset : U64) : Except Raise (List U64) := do
  let value ← traced.emulator.mmu.read64 (base + offset)
  return [value]

/-- The bases that the words of an allocation point into. -/
def pointersIn (traced : TracedEmulator) (base : U64) : Except Raise (List U64) :=
  match traced.tracer.allocations.find? base with
  | none => .ok []
  | some record => do
      let values ← eachWord record.size (traced.wordOf base)
      return traced.tracer.candidates values

/-- `compute_reachable_allocations`.  An allocation is pushed at most once, so more rounds
than allocations are not taken. -/
def computeReachableAllocations (traced : TracedEmulator) : Except Raise (Finset U64) :=
  if traced.tracer.allocations.entries.isEmpty then .ok ∅
  else do
    let values ← traced.rootValues
    Worklist.run .divergence traced.pointersIn (traced.tracer.allocations.entries.length + 1)
      (.considerAll ⟨∅, []⟩ (traced.tracer.candidates values))

end TracedEmulator

/-! ## Words -/

namespace SoftMMU

/-- The bytes at an address make up a word. -/
def WordAt (mmu : SoftMMU) (address value : U64) : Prop :=
  ∀ i < 8, mmu.guestByte (address + BitVec.ofNat 64 i) = some (LittleEndian.byte value i)

end SoftMMU

namespace SoftMMU

variable {mmu : SoftMMU} {address value : U64} {bytes : Nat → U8}

/-- Bytes that are known make up exactly one word. -/
theorem wordAt_iff (hbytes : ∀ i < 8, mmu.guestByte (address + BitVec.ofNat 64 i) =
    some (bytes i)) : WordAt mmu address value ↔ value = LittleEndian.assemble bytes 8 := by
  constructor
  · intro hword
    rw [← LittleEndian.assemble_byte value]
    refine LittleEndian.assemble_congr fun i hi => ?_
    have hsame := (hword i hi).symm.trans (hbytes i hi)
    exact Option.some.inj hsame
  · rintro rfl i hi
    rw [hbytes i hi, LittleEndian.byte_assemble (Nat.le_refl 8) hi]

end SoftMMU

namespace MallocTracer

section EachWord

variable {size : U64} {body : U64 → Except Raise (List U64)}

/-- A loop over words returns when its offset does not wrap and every round returns. -/
theorem eachWord_returns_iff :
    (∃ result, eachWord size body = .ok result) ↔ size.toNat + 8 < 2 ^ 64 ∧
      ∀ k, 8 * k + 8 ≤ size.toNat → ∃ values, body (BitVec.ofNat 64 (8 * k)) = .ok values := by
  unfold eachWord
  constructor
  · rintro ⟨result, h⟩
    obtain ⟨values, hvalues, hend⟩ := except_bind_eq_ok_iff.mp h
    split at hend
    · rename_i hsize
      refine ⟨hsize, fun k hk => ok_of_mapM_eq_ok hvalues k ?_⟩
      rw [List.mem_range, wordCount, if_pos hsize]
      omega
    · cases hend
  · rintro ⟨hsize, hbody⟩
    have hmap : ∃ values, (List.range (wordCount size)).mapM
        (fun k => body (BitVec.ofNat 64 (8 * k))) = .ok values := by
      refine exists_mapM_eq_ok fun k hk => hbody k ?_
      rw [List.mem_range, wordCount, if_pos hsize] at hk
      omega
    obtain ⟨values, hvalues⟩ := hmap
    exact ⟨_, by rw [except_bind_of_ok hvalues, if_pos hsize]; rfl⟩

/-- What a loop over words that returns has collected. -/
theorem mem_eachWord_iff {result : List U64} (h : eachWord size body = .ok result) (value : U64) :
    value ∈ result ↔ ∃ k, 8 * k + 8 ≤ size.toNat ∧
      ∃ values, body (BitVec.ofNat 64 (8 * k)) = .ok values ∧ value ∈ values := by
  unfold eachWord at h
  obtain ⟨collected, hcollected, hend⟩ := except_bind_eq_ok_iff.mp h
  split at hend
  · rename_i hsize
    cases hend
    simp only [List.mem_flatten, mem_of_mapM_eq_ok hcollected, List.mem_range, wordCount,
      if_pos hsize]
    constructor
    · rintro ⟨values, ⟨k, hk, hbody⟩, hvalue⟩
      exact ⟨k, by omega, values, hbody, hvalue⟩
    · rintro ⟨k, hk, values, hbody, hvalue⟩
      exact ⟨values, ⟨k, by omega, hbody⟩, hvalue⟩
  · cases hend

end EachWord

/-- The loop over a region's bytes. -/
theorem regionWord_of_bytes {region : Region} {offset : U64} {bytes : Nat → U8} {count : Nat}
    (h : ∀ i < count, region.readOffset (offset + BitVec.ofNat 64 i) = .ok (bytes i)) :
    regionWord region offset count = .ok (LittleEndian.assemble bytes count) := by
  induction count with
  | zero => rfl
  | succ count ih =>
      rw [regionWord, except_bind_of_ok (ih fun i hi => h i (Nat.lt_succ_of_lt hi)),
        except_bind_of_ok (h count (Nat.lt_succ_self count))]
      rfl

/-- A byte of a region, by its offset. -/
theorem readOffset_eq_guestByte {mmu : SoftMMU} {region : Region} {i : Nat}
    (hwf : RegionsWellFormed mmu.regions) (hregion : region ∈ mmu.regions)
    (hi : i < region.size.toNat) :
    ∃ byte, region.readOffset (BitVec.ofNat 64 i) = .ok byte ∧
      mmu.guestByte (region.base + BitVec.ofNat 64 i) = some byte := by
  have hregionWf := hwf.wellFormed region hregion
  have hend := hregionWf.end_lt
  have hoffset : (BitVec.ofNat 64 i).toNat = i := by
    rw [BitVec.toNat_ofNat]
    omega
  have hlength : i < region.bytes.length := by
    rw [hregionWf.bytes_length]
    exact hi
  have hcontains : region.contains (region.base + BitVec.ofNat 64 i) = true := by
    rw [hregionWf.contains_iff, BitVec.toNat_add, hoffset]
    omega
  refine ⟨region.bytes[i], ?_, ?_⟩
  · rw [Region.readOffset, hoffset, List.getElem?_eq_getElem hlength]
  · have hcell : mmu.addressMap (region.base + BitVec.ofNat 64 i) = some (region.cellAt _) :=
      (addressMap_eq_some_iff hwf).mpr ⟨region, hregion, hcontains, rfl⟩
    rw [guestByte, hcell, Option.map_some, Region.cellAt, BitVec.add_comm, BitVec.add_sub_cancel,
      hoffset, List.getD_eq_getElem?_getD,
      List.getElem?_eq_getElem hlength, Option.getD_some]

/-- A whole word of a region. -/
theorem regionWord_eq_ok {mmu : SoftMMU} {region : Region} {offset : Nat}
    (hwf : RegionsWellFormed mmu.regions) (hregion : region ∈ mmu.regions)
    (hfits : offset + 8 ≤ region.size.toNat) :
    ∃ word, regionWord region (BitVec.ofNat 64 offset) 8 = .ok word ∧
      ∀ value, WordAt mmu (region.base + BitVec.ofNat 64 offset) value ↔ value = word := by
  have hbyte : ∀ i < 8, ∃ byte,
      region.readOffset (BitVec.ofNat 64 offset + BitVec.ofNat 64 i) = .ok byte ∧
      mmu.guestByte (region.base + BitVec.ofNat 64 offset + BitVec.ofNat 64 i) = some byte := by
    intro i hi
    rw [BitVec.add_assoc, ← BitVec.ofNat_add]
    exact readOffset_eq_guestByte hwf hregion (by omega)
  choose! bytes hbytes using hbyte
  exact ⟨_, regionWord_of_bytes fun i hi => (hbytes i hi).1,
    fun value => wordAt_iff fun i hi => (hbytes i hi).2⟩

end MallocTracer

/-! ## Roots -/

namespace TracedEmulator

open MallocTracer

/-- The values that the scan starts from. -/
inductive ScanRoot (traced : TracedEmulator) : U64 → Prop where
  | register (register : Register) : ScanRoot traced (traced.emulator.cpu.reg register)
  | memory {region : Region} {k : Nat} {value : U64}
      (hregion : region ∈ traced.emulator.mmu.regions) (hwritable : region.writable = true)
      (hfits : 8 * k + 8 ≤ region.size.toNat)
      (hfree : traced.tracer.containing (region.base + BitVec.ofNat 64 (8 * k)) = 0)
      (hword : WordAt traced.emulator.mmu (region.base + BitVec.ofNat 64 (8 * k)) value) :
      ScanRoot traced value

variable {traced : TracedEmulator} {value ptr size base : U64}

/-- What one round of the loop over a region collects. -/
theorem rootAt_returns (hwf : RegionsWellFormed traced.emulator.mmu.regions) {region : Region}
    {k : Nat} (hregion : region ∈ traced.emulator.mmu.regions)
    (hfits : 8 * k + 8 ≤ region.size.toNat) :
    ∃ values, rootAt traced.tracer region (BitVec.ofNat 64 (8 * k)) = .ok values ∧
      ∀ value, value ∈ values ↔
        traced.tracer.containing (region.base + BitVec.ofNat 64 (8 * k)) = 0 ∧
        WordAt traced.emulator.mmu (region.base + BitVec.ofNat 64 (8 * k)) value := by
  rcases regionWord_eq_ok hwf hregion hfits with ⟨word, hword, hunique⟩
  by_cases hzero : traced.tracer.containing (region.base + BitVec.ofNat 64 (8 * k)) = 0
  · refine ⟨[word], ?_, fun value => ?_⟩
    · rw [rootAt, if_neg (not_not.mpr hzero), except_bind_of_ok hword]
      rfl
    · rw [hunique, List.mem_singleton]
      exact ⟨fun hvalue => ⟨hzero, hvalue⟩, And.right⟩
  · refine ⟨[], by rw [rootAt, if_pos hzero], fun value => ?_⟩
    simp only [List.not_mem_nil, false_iff]
    exact fun hvalue => hzero hvalue.1

/-- The roots of a region. -/
theorem regionRoots_returns (hwf : RegionsWellFormed traced.emulator.mmu.regions)
    {region : Region} (hregion : region ∈ traced.emulator.mmu.regions) :
    ∃ values, regionRoots traced.tracer region = .ok values ∧ ∀ value, value ∈ values ↔
      region.writable = true ∧ ∃ k, 8 * k + 8 ≤ region.size.toNat ∧
        traced.tracer.containing (region.base + BitVec.ofNat 64 (8 * k)) = 0 ∧
        WordAt traced.emulator.mmu (region.base + BitVec.ofNat 64 (8 * k)) value := by
  by_cases hskip : (!region.writable || region.size < 8) = true
  · refine ⟨[], by rw [regionRoots, if_pos hskip], fun value => ?_⟩
    simp only [List.not_mem_nil, false_iff]
    rintro ⟨hwritable, k, hfits, -⟩
    simp only [hwritable, Bool.not_true, Bool.false_or, decide_eq_true_eq, BitVec.lt_def] at hskip
    change region.size.toNat < 8 at hskip
    omega
  · have hwritable : region.writable = true := by
      cases hw : region.writable with
      | true => rfl
      | false => simp [hw] at hskip
    have hsize : region.size.toNat + 8 < 2 ^ 64 := by
      have hregionWf := hwf.wellFormed region hregion
      have hmod := hregionWf.size_mod
      have hend := hregionWf.end_lt
      omega
    have hrounds := fun k hfits => @rootAt_returns traced hwf region k hregion hfits
    rcases eachWord_returns_iff.mpr ⟨hsize, fun k hk => (hrounds k hk).imp fun _ h => h.1⟩ with
      ⟨result, hresult⟩
    refine ⟨result, by rw [regionRoots, if_neg hskip, hresult], fun value => ?_⟩
    rw [mem_eachWord_iff hresult, and_iff_right hwritable]
    refine exists_congr fun k => and_congr_right fun hfits => ?_
    rcases hrounds k hfits with ⟨values, hvalues, hmem⟩
    rw [← hmem value]
    constructor
    · rintro ⟨values', hvalues', hvalue⟩
      rwa [Except.ok.inj (hvalues.symm.trans hvalues')]
    · exact fun hvalue => ⟨values, hvalues, hvalue⟩

/-- The roots are always read. -/
theorem rootValues_returns (hwf : RegionsWellFormed traced.emulator.mmu.regions) :
    ∃ values, traced.rootValues = .ok values ∧
      ∀ value, value ∈ values ↔ ScanRoot traced value := by
  choose! roots hroots using fun region (hregion : region ∈ traced.emulator.mmu.regions) =>
    regionRoots_returns hwf hregion
  have hmap : traced.emulator.mmu.regions.mapM (regionRoots traced.tracer) =
      .ok (traced.emulator.mmu.regions.map roots) :=
    mapM_eq_ok fun region hregion => (hroots region hregion).1
  refine ⟨_, by rw [rootValues, except_bind_of_ok hmap]; rfl, fun value => ?_⟩
  simp only [List.mem_append, List.mem_map, List.mem_finRange, true_and, List.mem_flatten]
  constructor
  · rintro (⟨register, rfl⟩ | ⟨_, ⟨region, hregion, rfl⟩, hvalue⟩)
    · exact .register register
    · rcases ((hroots region hregion).2 value).mp hvalue with
        ⟨hwritable, k, hfits, hfree, hword⟩
      exact .memory hregion hwritable hfits hfree hword
  · rintro (register | ⟨hregion, hwritable, hfits, hfree, hword⟩)
    · exact Or.inl ⟨register, rfl⟩
    · exact Or.inr ⟨_, ⟨_, hregion, rfl⟩,
        ((hroots _ hregion).2 value).mpr ⟨hwritable, _, hfits, hfree, hword⟩⟩

/-! ## Edges -/

/-- The scan takes a value for a pointer into an allocation. -/
def PointsTo (traced : TracedEmulator) (value base : U64) : Prop :=
  traced.tracer.containing value = base ∧ base ≠ 0

/-- The whole words of an allocation can be read. -/
def BlockReadable (traced : TracedEmulator) (ptr size : U64) : Prop :=
  ∀ k, 8 * k + 8 ≤ size.toNat → ∀ i < 8,
    Permits traced.emulator.mmu (ptr + BitVec.ofNat 64 (8 * k) + BitVec.ofNat 64 i) protRead

theorem mem_candidates {values : List U64} :
    base ∈ traced.tracer.candidates values ↔ ∃ value ∈ values, traced.PointsTo value base := by
  simp only [candidates, List.mem_filter, List.mem_map, decide_eq_true_eq, PointsTo]
  constructor
  · rintro ⟨⟨value, hvalue, rfl⟩, hne⟩
    exact ⟨value, hvalue, rfl, hne⟩
  · rintro ⟨value, hvalue, hptr, hne⟩
    exact ⟨⟨value, hvalue, hptr⟩, hne⟩

theorem wordOf_returns_iff (hwf : RegionsWellFormed traced.emulator.mmu.regions) {offset : U64} :
    (∃ values, traced.wordOf ptr offset = .ok values) ↔
      ∀ i < 8, Permits traced.emulator.mmu (ptr + offset + BitVec.ofNat 64 i) protRead := by
  rw [← read64_returns_iff hwf]
  constructor
  · rintro ⟨values, h⟩
    obtain ⟨word, hword, -⟩ := except_bind_eq_ok_iff.mp h
    exact ⟨word, hword⟩
  · rintro ⟨word, hword⟩
    exact ⟨[word], except_bind_of_ok hword⟩

theorem mem_wordOf_iff (hwf : RegionsWellFormed traced.emulator.mmu.regions) {offset : U64}
    {values : List U64} (h : traced.wordOf ptr offset = .ok values) :
    value ∈ values ↔ WordAt traced.emulator.mmu (ptr + offset) value := by
  obtain ⟨word, hread, hend⟩ := except_bind_eq_ok_iff.mp h
  have hword := ((read64_eq_ok_iff hwf).mp hread).1
  cases hend
  rw [List.mem_singleton]
  constructor
  · rintro rfl
    exact hword
  · intro hvalue
    exact HoldsWord.unique hvalue hword

/-- A readable allocation ends below the end of the address space: the last page is never
mapped. -/
theorem BlockReadable.size_lt (hwf : RegionsWellFormed traced.emulator.mmu.regions)
    (h : traced.BlockReadable ptr size) : size.toNat + 8 < 2 ^ 64 := by
  by_contra hsize
  have hmapped : ∀ j < 2 ^ 64 - 8, (ptr + BitVec.ofNat 64 j).toNat < 2 ^ 64 - 4096 := by
    intro j hj
    obtain ⟨cell, hcell⟩ := permits_iff_access.mp
      (h (j / 8) (by omega) (j % 8) (Nat.mod_lt j (by decide)))
    have hlt := lt_of_addressMap hwf (AddressMap.access_eq_ok_iff.mp hcell).1
    rwa [BitVec.add_assoc, ← BitVec.ofNat_add, Nat.div_add_mod] at hlt
  -- one of two addresses of the last page would be in the allocation
  have hfirst := hmapped ((2 ^ 65 - 4096 - ptr.toNat) % 2 ^ 64)
  have hsecond := hmapped ((2 ^ 65 - 4080 - ptr.toNat) % 2 ^ 64)
  simp only [BitVec.toNat_add, BitVec.toNat_ofNat] at hfirst hsecond
  have hptr := ptr.isLt
  omega

/-- An allocation is scanned when its words can be read. -/
theorem pointersIn_returns_iff (hwf : RegionsWellFormed traced.emulator.mmu.regions)
    (hblock : HasBlock traced.tracer.allocations ptr size) :
    (∃ bases, traced.pointersIn ptr = .ok bases) ↔ traced.BlockReadable ptr size := by
  rcases hblock with ⟨record, hrecord, rfl⟩
  have hwords : (∃ values, eachWord record.size (traced.wordOf ptr) = .ok values) ↔
      traced.BlockReadable ptr record.size := by
    rw [eachWord_returns_iff]
    simp only [wordOf_returns_iff hwf]
    exact ⟨And.right, fun h => ⟨h.size_lt hwf, h⟩⟩
  rw [← hwords, pointersIn, OrderedMap.find?_eq_some_iff.mpr hrecord]
  constructor
  · rintro ⟨bases, h⟩
    obtain ⟨values, hvalues, -⟩ := except_bind_eq_ok_iff.mp h
    exact ⟨values, hvalues⟩
  · rintro ⟨values, hvalues⟩
    exact ⟨_, except_bind_of_ok hvalues⟩

/-- The successors of an allocation are the allocations that its words point to. -/
theorem mem_pointersIn_iff (hwf : RegionsWellFormed traced.emulator.mmu.regions)
    (hblock : HasBlock traced.tracer.allocations ptr size) {bases : List U64}
    (h : traced.pointersIn ptr = .ok bases) :
    base ∈ bases ↔ ∃ next, (∃ k, 8 * k + 8 ≤ size.toNat ∧
      WordAt traced.emulator.mmu (ptr + BitVec.ofNat 64 (8 * k)) next) ∧
      traced.PointsTo next base := by
  rcases hblock with ⟨record, hrecord, rfl⟩
  rw [pointersIn, OrderedMap.find?_eq_some_iff.mpr hrecord] at h
  obtain ⟨values, hvalues, hend⟩ := except_bind_eq_ok_iff.mp h
  cases hend
  have hrounds := (eachWord_returns_iff.mp ⟨values, hvalues⟩).2
  rw [mem_candidates]
  refine exists_congr fun next => and_congr_left fun _ => ?_
  rw [mem_eachWord_iff hvalues]
  refine exists_congr fun k => and_congr_right fun hfits => ?_
  constructor
  · rintro ⟨words, hwords, hnext⟩
    exact (mem_wordOf_iff hwf hwords).mp hnext
  · intro hword
    obtain ⟨words, hwords⟩ := hrounds k hfits
    exact ⟨words, hwords, (mem_wordOf_iff hwf hwords).mpr hword⟩

/-! ## The scan -/

/-- The allocations that the scan comes to. -/
inductive Scanned (traced : TracedEmulator) : U64 → Prop where
  | root {value base : U64} (hroot : ScanRoot traced value)
      (hpoints : traced.PointsTo value base) : Scanned traced base
  | link {ptr size next base : U64} {k : Nat} (h : Scanned traced ptr)
      (hblock : HasBlock traced.tracer.allocations ptr size) (hfits : 8 * k + 8 ≤ size.toNat)
      (hword : WordAt traced.emulator.mmu (ptr + BitVec.ofNat 64 (8 * k)) next)
      (hpoints : traced.PointsTo next base) : Scanned traced base

/-- Every allocation that the scan comes to can be read. -/
def ScannedReadable (traced : TracedEmulator) : Prop :=
  ∀ ptr size, Scanned traced ptr → HasBlock traced.tracer.allocations ptr size →
    traced.BlockReadable ptr size

/-- A pointer points to a live allocation. -/
theorem PointsTo.hasBlock (h : traced.PointsTo value base) :
    ∃ size, HasBlock traced.tracer.allocations base size := by
  obtain ⟨hbase, hne⟩ := h
  unfold containing at hbase
  split at hbase <;> rename_i hfound
  · subst hbase
    exact ⟨_, (recordContaining_eq_some hfound).1⟩
  · exact absurd hbase.symm hne

theorem Scanned.hasBlock (h : Scanned traced base) :
    ∃ size, HasBlock traced.tracer.allocations base size := by
  cases h with
  | root _ hpoints => exact hpoints.hasBlock
  | link _ _ _ _ hpoints => exact hpoints.hasBlock

section Search

variable (hwf : RegionsWellFormed traced.emulator.mmu.regions) {values : List U64}
  (hvalues : ∀ value, value ∈ values ↔ ScanRoot traced value)

include hwf hvalues

/-- What the search reaches, the scan comes to. -/
theorem scanned_of_reaches
    (h : Worklist.Reaches traced.pointersIn (traced.tracer.candidates values) base) :
    Scanned traced base := by
  rcases h with ⟨root, hroot, hpath⟩
  induction hpath with
  | refl =>
      rcases mem_candidates.mp hroot with ⟨value, hvalue, hpoints⟩
      exact .root ((hvalues value).mp hvalue) hpoints
  | tail _ hleads ih =>
      rcases hleads with ⟨bases, hbases, hmem⟩
      rcases ih.hasBlock with ⟨size, hblock⟩
      rcases (mem_pointersIn_iff hwf hblock hbases).mp hmem with
        ⟨next, ⟨k, hfits, hword⟩, hpoints⟩
      exact .link ih hblock hfits hword hpoints

/-- Where no node fails, the search reaches what the scan comes to. -/
theorem reaches_of_scanned
    (hreturns : ∀ base, Worklist.Reaches traced.pointersIn (traced.tracer.candidates values) base →
      ∃ bases, traced.pointersIn base = .ok bases) (h : Scanned traced base) :
    Worklist.Reaches traced.pointersIn (traced.tracer.candidates values) base := by
  induction h with
  | root hroot hpoints =>
      exact ⟨_, mem_candidates.mpr ⟨_, (hvalues _).mpr hroot, hpoints⟩, .refl⟩
  | link _ hblock hfits hword hpoints ih =>
      rcases hreturns _ ih with ⟨bases, hbases⟩
      rcases ih with ⟨root, hroot, hpath⟩
      have hmem := (mem_pointersIn_iff hwf hblock hbases).mpr ⟨_, ⟨_, hfits, hword⟩, hpoints⟩
      exact ⟨root, hroot, hpath.tail ⟨bases, hbases, hmem⟩⟩

/-- No node of the search fails exactly when every allocation that the scan comes to can be
read. -/
theorem reaches_return_iff :
    (∀ base, Worklist.Reaches traced.pointersIn (traced.tracer.candidates values) base →
      ∃ bases, traced.pointersIn base = .ok bases) ↔ ScannedReadable traced := by
  constructor
  · intro hreturns ptr size hscanned hblock
    exact (pointersIn_returns_iff hwf hblock).mp
      (hreturns ptr (reaches_of_scanned hwf hvalues hreturns hscanned))
  · intro hreadable base hreaches
    have hscanned := scanned_of_reaches hwf hvalues hreaches
    rcases hscanned.hasBlock with ⟨size, hblock⟩
    exact (pointersIn_returns_iff hwf hblock).mpr (hreadable base size hscanned hblock)

end Search

/-- The bases of the live allocations. -/
def bases (traced : TracedEmulator) : Finset U64 :=
  (traced.tracer.allocations.entries.map Prod.fst).toFinset

theorem mem_bases_iff :
    base ∈ traced.bases ↔ ∃ size, HasBlock traced.tracer.allocations base size := by
  rw [bases, List.mem_toFinset, List.mem_map]
  constructor
  · rintro ⟨⟨base, record⟩, hmem, rfl⟩
    exact ⟨_, record, hmem, rfl⟩
  · rintro ⟨size, record, hmem, -⟩
    exact ⟨_, hmem, rfl⟩

theorem candidates_subset_bases {values : List U64} :
    ∀ base ∈ traced.tracer.candidates values, base ∈ traced.bases := by
  intro base hbase
  rcases mem_candidates.mp hbase with ⟨value, -, hpoints⟩
  exact mem_bases_iff.mpr hpoints.hasBlock

theorem pointersIn_subset_bases {nodes : List U64} (h : traced.pointersIn ptr = .ok nodes) :
    ∀ base ∈ nodes, base ∈ traced.bases := by
  rw [pointersIn] at h
  split at h
  · cases h
    simp
  · obtain ⟨values, -, hend⟩ := except_bind_eq_ok_iff.mp h
    cases hend
    exact candidates_subset_bases

theorem card_bases_lt : traced.bases.card < traced.tracer.allocations.entries.length + 1 := by
  have hle := List.toFinset_card_le (traced.tracer.allocations.entries.map Prod.fst)
  rw [List.length_map] at hle
  exact Nat.lt_succ_of_le hle

/-- Without live allocations the scan comes to none. -/
theorem not_scanned_of_isEmpty (h : traced.tracer.allocations.entries.isEmpty = true) :
    ¬Scanned traced base := by
  intro hscanned
  rcases hscanned.hasBlock with ⟨size, record, hmem, -⟩
  rw [List.isEmpty_iff.mp h] at hmem
  cases hmem

/-- The scan returns exactly when every allocation that it comes to can be read. -/
theorem computeReachableAllocations_returns_iff
    (hwf : RegionsWellFormed traced.emulator.mmu.regions) :
    (∃ reachable, traced.computeReachableAllocations = .ok reachable) ↔
      ScannedReadable traced := by
  unfold computeReachableAllocations
  split <;> rename_i hempty
  · refine ⟨fun _ ptr size hscanned => ?_, fun _ => ⟨∅, rfl⟩⟩
    exact absurd hscanned (not_scanned_of_isEmpty hempty)
  · rcases rootValues_returns hwf with ⟨values, hrun, hvalues⟩
    rw [except_bind_of_ok hrun, ← reaches_return_iff hwf hvalues]
    exact Worklist.search_returns_iff candidates_subset_bases
      (fun _ _ _ => pointersIn_subset_bases) card_bases_lt

/-- A scan that returns has found the allocations that it comes to. -/
theorem mem_computeReachableAllocations_iff
    (hwf : RegionsWellFormed traced.emulator.mmu.regions) {reachable : Finset U64}
    (h : traced.computeReachableAllocations = .ok reachable) :
    base ∈ reachable ↔ Scanned traced base := by
  have hreadable := (computeReachableAllocations_returns_iff hwf).mp ⟨_, h⟩
  unfold computeReachableAllocations at h
  split at h <;> rename_i hempty
  · cases h
    simp [not_scanned_of_isEmpty hempty]
  · rcases rootValues_returns hwf with ⟨values, hrun, hvalues⟩
    rw [except_bind_of_ok hrun] at h
    rw [Worklist.mem_of_search_eq_ok candidates_subset_bases
      (fun _ _ _ => pointersIn_subset_bases) h]
    exact ⟨scanned_of_reaches hwf hvalues,
      reaches_of_scanned hwf hvalues ((reaches_return_iff hwf hvalues).mpr hreadable)⟩

end TracedEmulator

end LUE
