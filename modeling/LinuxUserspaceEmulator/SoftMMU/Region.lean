import LinuxUserspaceEmulator.Types

/-!
# Memory regions

A region is one contiguous mapping of guest memory: an address range with permissions
and a name, the bytes it holds, and one initialization flag per byte.  The subclass
tells an anonymous mapping from one that remembers a file path and a file offset.

Main results:

- Theorem `Region.cloneSlice_of_fits`: a slice inside its source is the expected copy.
- Theorem `Region.cloneSlice_of_not_fits`: a slice past the end of its source reads
  outside the host vectors.
-/

namespace LUE

/-! ## Protections -/

/-- The permission bits of a mapping, as the `int` the source passes around. -/
abbrev Protection := BitVec 32

def protRead : Protection := 1
def protWrite : Protection := 2
def protExecute : Protection := 4

/-! ## Regions -/

/-- The subclass of a region. -/
inductive Backing where
  /-- `SimpleRegion`: anonymous memory. -/
  | simple
  /-- `MmapRegion`: memory that remembers its source path and file offset. -/
  | mmap (path : Option String) (fileOffset : U64)
deriving DecidableEq, Repr

namespace Backing

/-- `kind()`. -/
def kind : Backing → String
  | simple => "simple"
  | mmap _ _ => "mmap"

/-- The backing of the part that starts at an offset. -/
def advance (offset : U64) : Backing → Backing
  | simple => simple
  | mmap path fileOffset => mmap path (fileOffset + offset)

@[simp]
theorem advance_zero (backing : Backing) : backing.advance 0 = backing := by
  cases backing <;> simp [advance]

theorem advance_advance (backing : Backing) (i j : U64) :
    (backing.advance i).advance j = backing.advance (i + j) := by
  cases backing <;> simp [advance, BitVec.add_assoc]

end Backing

/-- A contiguous mapping with its bytes and their initialization flags. -/
structure Region where
  base : U64
  size : U64
  prot : Protection
  name : String
  backing : Backing
  bytes : List U8
  initialized : List Bool
deriving DecidableEq, Repr

namespace Region

/-- `end()`: one past the last address, computed with wrapping addition. -/
def endAddress (region : Region) : U64 :=
  region.base + region.size

def contains (region : Region) (address : U64) : Bool :=
  address ≥ region.base && address < region.endAddress

def readable (region : Region) : Bool :=
  region.prot &&& protRead != 0

def writable (region : Region) : Bool :=
  region.prot &&& protWrite != 0

def executable (region : Region) : Bool :=
  region.prot &&& protExecute != 0

/-! ### Constructors -/

/-- `SimpleRegion(base, size, prot, name)`: zero bytes, all initialized. -/
def ofZeroes (base size : U64) (prot : Protection) (name : String) : Region where
  base := base
  size := size
  prot := prot
  name := name
  backing := .simple
  bytes := List.replicate size.toNat 0
  initialized := List.replicate size.toNat true

/-- `SimpleRegion(base, size, prot, name, bytes)`. -/
def ofBytes (base size : U64) (prot : Protection) (name : String) (bytes : List U8) :
    Except Raise Region :=
  if bytes.length ≠ size.toNat then
    .error (.emulatorError "simple region byte size mismatch")
  else
    .ok { ofZeroes base size prot name with bytes := bytes }

/-- `MmapRegion(base, size, prot, name, path, file_offset)`. -/
def ofMmap (base size : U64) (prot : Protection) (name : String) (path : Option String)
    (fileOffset : U64) : Region :=
  { ofZeroes base size prot name with backing := .mmap path fileOffset }

/-- `MmapRegion(base, size, prot, name, path, file_offset, bytes)`. -/
def ofMmapBytes (base size : U64) (prot : Protection) (name : String) (path : Option String)
    (fileOffset : U64) (bytes : List U8) : Except Raise Region :=
  if bytes.length ≠ size.toNat then
    .error (.emulatorError "mmap region byte size mismatch")
  else
    .ok { ofMmap base size prot name path fileOffset with bytes := bytes }

/-! ### Byte accessors

The two subclasses carry the same accessors, so one definition embeds both. -/

def readOffset (region : Region) (offset : U64) : Except Raise U8 :=
  match region.bytes[offset.toNat]? with
  | some byte => .ok byte
  | none => .error .hostFault

def isOffsetInitialized (region : Region) (offset : U64) : Except Raise Bool :=
  match region.initialized[offset.toNat]? with
  | some flag => .ok flag
  | none => .error .hostFault

def readOffsetWithShadow (region : Region) (offset : U64) :
    Except Raise (ValueWithShadow 8) := do
  let value ← region.readOffset offset
  let flag ← region.isOffsetInitialized offset
  return if flag then .initialized value else .uninitialized value

def setOffsetInitialized (region : Region) (offset : U64) (initialized : Bool) :
    Except Raise Region :=
  if offset.toNat < region.initialized.length then
    .ok { region with initialized := region.initialized.set offset.toNat initialized }
  else
    .error .hostFault

def writeOffset (region : Region) (offset : U64) (value : U8) (initialized : Bool) :
    Except Raise Region :=
  if offset.toNat < region.bytes.length then
    { region with bytes := region.bytes.set offset.toNat value }.setOffsetInitialized offset
      initialized
  else
    .error .hostFault

theorem readOffset_of_lt {region : Region} {offset : U64}
    (h : offset.toNat < region.bytes.length) :
    region.readOffset offset = .ok (region.bytes.getD offset.toNat 0) := by
  simp [readOffset, List.getElem?_eq_getElem h, List.getD_eq_getElem?_getD]

theorem isOffsetInitialized_of_lt {region : Region} {offset : U64}
    (h : offset.toNat < region.initialized.length) :
    region.isOffsetInitialized offset = .ok (region.initialized.getD offset.toNat false) := by
  simp [isOffsetInitialized, List.getElem?_eq_getElem h, List.getD_eq_getElem?_getD]

theorem setOffsetInitialized_of_lt {region : Region} {offset : U64} {initialized : Bool}
    (h : offset.toNat < region.initialized.length) :
    region.setOffsetInitialized offset initialized =
      .ok { region with initialized := region.initialized.set offset.toNat initialized } :=
  if_pos h

/-- A write inside both vectors replaces a byte and a flag, any other write fails. -/
theorem writeOffset_eq_ok_iff {region written : Region} {offset : U64} {value : U8}
    {initialized : Bool} :
    region.writeOffset offset value initialized = .ok written ↔
      offset.toNat < region.bytes.length ∧ offset.toNat < region.initialized.length ∧
        { region with
          bytes := region.bytes.set offset.toNat value
          initialized := region.initialized.set offset.toNat initialized } = written := by
  unfold writeOffset setOffsetInitialized
  by_cases hbytes : offset.toNat < region.bytes.length
  · by_cases hflags : offset.toNat < region.initialized.length
    · simp [hbytes, hflags]
    · simp [hbytes, hflags]
  · simp [hbytes]

/-! ### Slices -/

/-- The range `[begin + offset, begin + offset + count)` of a host vector.  A range that
leaves the vector is undefined behaviour. -/
def vectorSlice {α : Type} (elements : List α) (offset count : U64) : Except Raise (List α) :=
  if offset.toNat + count.toNat ≤ elements.length then
    .ok ((elements.drop offset.toNat).take count.toNat)
  else
    .error .hostFault

/-- `clone_slice`: copy a subrange into a standalone region of the same subclass. -/
def cloneSlice (region : Region) (newBase offset newSize : U64) : Except Raise Region := do
  let bytes ← vectorSlice region.bytes offset newSize
  let clone ← match region.backing with
    | .simple => ofBytes newBase newSize region.prot region.name bytes
    | .mmap path fileOffset =>
        ofMmapBytes newBase newSize region.prot region.name path (fileOffset + offset) bytes
  let initialized ← vectorSlice region.initialized offset newSize
  return { clone with initialized := initialized }

/-- The copy `clone_slice` makes when the subrange lies inside the region. -/
def slice (region : Region) (newBase offset newSize : U64) : Region where
  base := newBase
  size := newSize
  prot := region.prot
  name := region.name
  backing := region.backing.advance offset
  bytes := (region.bytes.drop offset.toNat).take newSize.toNat
  initialized := (region.initialized.drop offset.toNat).take newSize.toNat

theorem cloneSlice_of_fits {region : Region} {newBase offset newSize : U64}
    (hbytes : offset.toNat + newSize.toNat ≤ region.bytes.length)
    (hinitialized : offset.toNat + newSize.toNat ≤ region.initialized.length) :
    region.cloneSlice newBase offset newSize = .ok (region.slice newBase offset newSize) := by
  have hlength : ((region.bytes.drop offset.toNat).take newSize.toNat).length =
      newSize.toNat := by
    simp only [List.length_take, List.length_drop]
    omega
  cases hbacking : region.backing <;>
    simp [cloneSlice, vectorSlice, hbytes, hinitialized, hbacking, ofBytes, ofMmapBytes,
      ofMmap, ofZeroes, hlength, slice, Backing.advance, bind, Except.bind, pure, Except.pure]

theorem cloneSlice_of_not_fits {region : Region} {newBase offset newSize : U64}
    (hbytes : region.bytes.length < offset.toNat + newSize.toNat) :
    region.cloneSlice newBase offset newSize = .error .hostFault := by
  simp [cloneSlice, vectorSlice, Nat.not_le.mpr hbytes, bind, Except.bind]

end Region

end LUE
