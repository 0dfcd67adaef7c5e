import LinuxUserspaceEmulator.Library.SegmentList
import LinuxUserspaceEmulator.Library.StateExcept
import LinuxUserspaceEmulator.SoftMMU.Region
import Mathlib.Data.List.Sort

/-!
# The software memory-management unit

`SoftMMU` keeps the guest memory map as a list of regions and implements mapping,
allocation, unmapping, protection changes and byte accesses on it.  Member functions
that change the object are programs over its state, const member functions are functions
of the state.
-/

namespace LUE

open StateExcept

/-- The state of `SoftMMU`.

An observer is either not installed or installed; an installed observer is represented by
the addresses it has been called with, the latest one last. -/
structure SoftMMU where
  regions : List Region := []
  writeObserver : Option (List U64) := none
  readObserver : Option (List U64) := none
  nextAllocation : U64 := 0x700000000000
deriving DecidableEq, Repr

/-- A member function of `SoftMMU` that may change the object and may throw. -/
abbrev MMUProgram (α : Type) := EStateM Raise SoftMMU α

namespace SoftMMU

/-! ## The region list -/

/-- `sort_regions`.  Only empty regions can share a base; `std::sort` leaves their order
open, here they keep it. -/
def sortRegions (regions : List Region) : List Region :=
  regions.insertionSort fun a b => a.base ≤ b.base

/-- Append a region and restore the order, as every mapping function does at its end. -/
def pushRegion (region : Region) : MMUProgram Unit :=
  modify fun mmu => { mmu with regions := sortRegions (mmu.regions ++ [region]) }

/-- `find_region`. -/
def findRegion (mmu : SoftMMU) (address : U64) : Option Region :=
  SegmentList.lookup Region.contains mmu.regions address

/-- Assign to the region that contains an address, through the pointer `find_region`
returned for it. -/
def assignRegion (address : U64) (region : Region) : MMUProgram Unit :=
  modify fun mmu =>
    { mmu with
      regions := SegmentList.update Region.contains mmu.regions address fun _ => region }

/-- `ensure_no_overlap`: a new mapping is non-empty, non-wrapping, and non-overlapping. -/
def ensureNoOverlap (base size : U64) (mmu : SoftMMU) : Except Raise Unit :=
  if size = 0 then
    .error (.emulatorError "attempted to map zero bytes")
  else
    let endAddress := base + size
    if endAddress < base then
      .error (.emulatorError "mapping overflow")
    else
      match mmu.regions.find? fun region =>
          base < region.endAddress && endAddress > region.base with
      | some region =>
          .error (.emulatorError
            ("mapping " ++ hex base ++ "-" ++ hex endAddress ++ " overlaps " ++
              hex region.base ++ "-" ++ hex region.endAddress ++ " (" ++ region.name ++ ")"))
      | none => .ok ()

/-! ## Mapping -/

/-- `map_zeroed`. -/
def mapZeroed (base size : U64) (prot : Protection) (name : String) : MMUProgram Unit := do
  let base := pageAlignDown base
  let size := pageAlignUp size
  observe (ensureNoOverlap base size)
  pushRegion (.ofZeroes base size prot name)

/-- `map_bytes`: the source is the list of the bytes at the source pointer. -/
def mapBytes (base size : U64) (prot : Protection) (source : List U8)
    (destinationOffset : U64) (name : String) : MMUProgram Unit := do
  let base := pageAlignDown base
  let size := pageAlignUp size
  observe (ensureNoOverlap base size)
  if destinationOffset > size || source.length > (size - destinationOffset).toNat then
    throw (.emulatorError "file mapping copy exceeds destination region")
  else
    let bytes := List.replicate destinationOffset.toNat 0 ++ source ++
      List.replicate (size.toNat - destinationOffset.toNat - source.length) 0
    let region ← observe fun _ => Region.ofBytes base size prot name bytes
    pushRegion region

/-- `map_mmap`. -/
def mapMmap (base size : U64) (prot : Protection) (name : String) (path : Option String)
    (fileOffset : U64) : MMUProgram Unit := do
  let base := pageAlignDown base
  let size := pageAlignUp size
  observe (ensureNoOverlap base size)
  pushRegion (.ofMmap base size prot name path fileOffset)

/-! ## First-fit allocation -/

/-- The first region in the way of `[candidate, candidate + size)`. -/
def firstCollision (candidate size : U64) (mmu : SoftMMU) : Option Region :=
  mmu.regions.find? fun region =>
    candidate < region.endAddress && candidate + size > region.base

/-- The retry loop shared by `allocate` and `allocate_mmap`, cut off after a number of
rounds. -/
def allocateLoop (size alignment : U64) (map : U64 → MMUProgram Unit) : Nat → MMUProgram U64
  | 0 => throw .divergence
  | rounds + 1 => do
      let mmu ← get
      let candidate := (mmu.nextAllocation + alignment - 1) &&& ~~~(alignment - 1)
      match mmu.firstCollision candidate size with
      | some region =>
          modify fun mmu => { mmu with nextAllocation := pageAlignUp region.endAddress }
          allocateLoop size alignment map rounds
      | none =>
          map candidate
          modify fun mmu => { mmu with nextAllocation := candidate + size }
          return candidate

/-- The shared body of `allocate` and `allocate_mmap`.

After a collision the next round depends only on which region was hit, so more collisions
than there are regions means that the loop repeats itself for ever. -/
def allocateWith (size alignment : U64) (map : U64 → U64 → MMUProgram Unit) :
    MMUProgram U64 := do
  let size := pageAlignUp size
  let alignment := stdMax pageSize alignment
  let mmu ← get
  allocateLoop size alignment (fun candidate => map candidate size) (mmu.regions.length + 2)

/-- `allocate`. -/
def allocate (size alignment : U64) (prot : Protection) (name : String) : MMUProgram U64 :=
  allocateWith size alignment fun candidate size => mapZeroed candidate size prot name

/-- `allocate_mmap`. -/
def allocateMmap (size alignment : U64) (prot : Protection) (name : String)
    (path : Option String) (fileOffset : U64) : MMUProgram U64 :=
  allocateWith size alignment fun candidate size =>
    mapMmap candidate size prot name path fileOffset

/-! ## Splitting, unmapping, protecting -/

/-- The arguments of one `clone_slice` call. -/
structure SliceRequest where
  newBase : U64
  offset : U64
  newSize : U64
deriving DecidableEq, Repr

/-- The slices `split_around` requests of a region that meets `[base, end)`: the part
before the range, the overlap, and the part after it. -/
def sliceRequests (base endAddress : U64) (region : Region) : List SliceRequest :=
  let overlapStart := stdMax base region.base
  let overlapEnd := stdMin endAddress region.endAddress
  (if base > region.base then [⟨region.base, 0, base - region.base⟩] else []) ++
    [⟨overlapStart, overlapStart - region.base, overlapEnd - overlapStart⟩] ++
    (if endAddress < region.endAddress then
      [⟨endAddress, endAddress - region.base, region.endAddress - endAddress⟩]
    else [])

/-- A region that `split_around` keeps as it is. -/
def outsideRange (base endAddress : U64) (region : Region) : Bool :=
  endAddress ≤ region.base || base ≥ region.endAddress

/-- The regions `split_around` puts in place of one region. -/
def splitRegion (base endAddress : U64) (region : Region) : Except Raise (List Region) :=
  if outsideRange base endAddress region then
    .ok [region]
  else
    (sliceRequests base endAddress region).mapM fun request =>
      region.cloneSlice request.newBase request.offset request.newSize

/-- `split_around`. -/
def splitAround (base size : U64) : MMUProgram Unit := do
  let endAddress := base + size
  let rebuilt ← observe fun mmu => mmu.regions.mapM (splitRegion base endAddress)
  modify fun mmu => { mmu with regions := sortRegions rebuilt.flatten }

/-- The regions `unmap` erases and `protect` changes after the split. -/
def insideRange (base endAddress : U64) (region : Region) : Bool :=
  region.base ≥ base && region.endAddress ≤ endAddress

/-- `unmap`. -/
def unmap (base size : U64) : MMUProgram Unit :=
  if size = 0 then
    pure ()
  else do
    let base := pageAlignDown base
    let size := pageAlignUp size
    splitAround base size
    let endAddress := base + size
    modify fun mmu =>
      { mmu with regions := mmu.regions.filter fun region => !insideRange base endAddress region }

/-- `protect`. -/
def protect (base size : U64) (prot : Protection) : MMUProgram Unit :=
  if size = 0 then
    pure ()
  else do
    let base := pageAlignDown base
    let size := pageAlignUp size
    splitAround base size
    let endAddress := base + size
    modify fun mmu =>
      { mmu with
        regions := mmu.regions.map fun region =>
          if insideRange base endAddress region then { region with prot := prot } else region }

/-! ## Accesses -/

/-- `is_mapped`. -/
def isMapped (address : U64) (size : Nat) (mmu : SoftMMU) : Bool :=
  (List.range size).all fun i => (mmu.findRegion (address + BitVec.ofNat 64 i)).isSome

/-- `region_for`: resolve an address to a region and enforce permissions. -/
def regionFor (address : U64) (requiredProt : Protection) (mmu : SoftMMU) :
    Except Raise Region :=
  match mmu.findRegion address with
  | none => .error (.emulatorError ("unmapped guest memory at " ++ hex address))
  | some region =>
      if region.prot &&& requiredProt ≠ requiredProt then
        .error (.emulatorError
          ("guest memory permission fault at " ++ hex address ++ " in " ++ region.name))
      else
        .ok region

/-- `read8`: plain reads bypass the read observer. -/
def read8 (address : U64) (mmu : SoftMMU) : Except Raise U8 := do
  let region ← mmu.regionFor address protRead
  region.readOffset (address - region.base)

/-- `read8_with_shadow`: the read observer is called for data reads. -/
def read8WithShadow (address : U64) : MMUProgram (ValueWithShadow 8) := do
  let region ← observe (regionFor address protRead)
  modify fun mmu => { mmu with readObserver := mmu.readObserver.map (· ++ [address]) }
  observe fun _ => region.readOffsetWithShadow (address - region.base)

/-- `read16`, `read32`, `read64`: little-endian, `count` bytes. -/
def readInteger (address : U64) (mmu : SoftMMU) : Nat → Except Raise U64
  | 0 => .ok 0
  | count + 1 => do
      let value ← readInteger address mmu count
      let byte ← mmu.read8 (address + BitVec.ofNat 64 count)
      return value ||| byte.setWidth 64 <<< (count * 8)

def read16 (address : U64) (mmu : SoftMMU) : Except Raise U64 :=
  readInteger address mmu 2

def read32 (address : U64) (mmu : SoftMMU) : Except Raise U64 :=
  readInteger address mmu 4

def read64 (address : U64) (mmu : SoftMMU) : Except Raise U64 :=
  readInteger address mmu 8

/-- `read_with_shadow`: every uninitialized byte puts `0xff` in its shadow lane. -/
def readIntegerWithShadow (address : U64) : Nat → MMUProgram (ValueWithShadow 64)
  | 0 => pure ⟨0, 0⟩
  | count + 1 => do
      let low ← readIntegerWithShadow address count
      let byte ← read8WithShadow (address + BitVec.ofNat 64 count)
      return ⟨low.value ||| byte.value.setWidth 64 <<< (count * 8),
        if byte.isUninitialized then low.shadow ||| (0xff : U64) <<< (count * 8) else low.shadow⟩

/-- `write8_with_shadow`. -/
def write8WithShadow (address : U64) (value : ValueWithShadow 8) : MMUProgram Unit := do
  let region ← observe (regionFor address protWrite)
  modify fun mmu => { mmu with writeObserver := mmu.writeObserver.map (· ++ [address]) }
  let written ← observe fun _ =>
    region.writeOffset (address - region.base) value.value value.isInitialized
  assignRegion address written

/-- `write8`. -/
def write8 (address : U64) (value : U8) : MMUProgram Unit :=
  write8WithShadow address (.initialized value)

/-- `write16`, `write32`, `write64`: little-endian, `count` bytes. -/
def writeInteger (address value : U64) (count : Nat) : MMUProgram Unit :=
  forOffsets (fun i => write8 (address + BitVec.ofNat 64 i) ((value >>> (i * 8)).setWidth 8))
    count

def write16 (address value : U64) : MMUProgram Unit :=
  writeInteger address value 2

def write32 (address value : U64) : MMUProgram Unit :=
  writeInteger address value 4

def write64 (address value : U64) : MMUProgram Unit :=
  writeInteger address value 8

/-- `write_with_shadow`. -/
def writeIntegerWithShadow (address : U64) (value : ValueWithShadow 64) (count : Nat) :
    MMUProgram Unit :=
  forOffsets (fun i => write8WithShadow (address + BitVec.ofNat 64 i)
    ⟨(value.value >>> (i * 8)).setWidth 8, (value.shadow >>> (i * 8)).setWidth 8⟩) count

/-- `mark_initialized`. -/
def markInitialized (address size : U64) (initialized : Bool) : MMUProgram Unit :=
  forOffsets (fun i => do
    let address := address + BitVec.ofNat 64 i
    let region ← observe (regionFor address protRead)
    let marked ← observe fun _ =>
      region.setOffsetInitialized (address - region.base) initialized
    assignRegion address marked) size.toNat

/-- `copy_to_guest`: the source is the list of the bytes in the host buffer. -/
def copyToGuest (destination : U64) (source : List U8) : MMUProgram Unit :=
  forOffsets (fun i => write8 (destination + BitVec.ofNat 64 i) (source.getD i 0))
    source.length

/-- The loop of `read_c_string`, with the bytes it has collected. -/
def readCStringLoop (mmu : SoftMMU) (address : U64) (value : List U8) :
    Nat → Except Raise (List U8)
  | 0 => .error (.emulatorError ("unterminated guest string at " ++ hex address))
  | remaining + 1 => do
      let ch ← mmu.read8 (address + BitVec.ofNat 64 value.length)
      if ch = 0 then
        return value
      else
        readCStringLoop mmu address (value ++ [ch]) remaining

/-- `read_c_string`: the bytes before the first NUL. -/
def readCString (address : U64) (limit : Nat) (mmu : SoftMMU) : Except Raise (List U8) :=
  readCStringLoop mmu address [] limit

end SoftMMU

end LUE
