import LinuxUserspaceEmulator.Types
import Mathlib.Data.List.Sort

/-!
# Symbols and code ranges of ELF files

`read_elf_image_info` reads the address ranges and the function symbols of an ELF file.
It checks the header, and it skips every table that the file does not contain in full.

Main results:

- Theorem `length_of_objectAt`: an object that is read lies inside the file.
-/

namespace LUE

namespace ELF

/-! ## Reading objects -/

/-- Little-endian value of a byte string. -/
def littleEndian (bytes : List U8) : Nat :=
  bytes.foldr (fun byte value => byte.toNat + 256 * value) 0

/-- The little-endian field of `width` bits at a byte offset of an object. -/
def field (width : Nat) (object : List U8) (offset : Nat) : BitVec width :=
  BitVec.ofNat width (littleEndian ((object.drop offset).take (width / 8)))

/-- `object_at`: the `size` bytes at an offset of the file. -/
def objectAt (data : List U8) (size : Nat) (offset : U64) (description : String) :
    Except Raise (List U8) :=
  if offset.toNat > data.length ∨ size > data.length - offset.toNat then
    .error (.emulatorError (description ++ " extends past end of file"))
  else
    .ok ((data.drop offset.toNat).take size)

theorem length_of_objectAt {data object : List U8} {size : Nat} {offset : U64}
    {description : String} (h : objectAt data size offset description = .ok object) :
    object.length = size ∧ offset.toNat + size ≤ data.length := by
  unfold objectAt at h
  split at h
  · cases h
  · cases h
    simp only [List.length_take, List.length_drop]
    omega

def etExec : U16 := 2
def etDyn : U16 := 3
def emX86_64 : U16 := 62
def ptLoad : U32 := 1
def pfX : U32 := 1
def shtSymtab : U32 := 2
def shtDynsym : U32 := 11
def sttFunc : U8 := 2

/-- `Elf64_Ehdr`, the fields that are read. -/
structure Ehdr where
  ident : List U8
  type : U16
  machine : U16
  phoff : U64
  shoff : U64
  phentsize : U16
  phnum : U16
  shentsize : U16
  shnum : U16
deriving DecidableEq, Repr

def sizeofEhdr : Nat := 64

def Ehdr.ofBytes (object : List U8) : Ehdr where
  ident := object.take 16
  type := field 16 object 16
  machine := field 16 object 18
  phoff := field 64 object 32
  shoff := field 64 object 40
  phentsize := field 16 object 54
  phnum := field 16 object 56
  shentsize := field 16 object 58
  shnum := field 16 object 60

/-- `Elf64_Phdr`, the fields that are read. -/
structure Phdr where
  type : U32
  flags : U32
  vaddr : U64
  memsz : U64
deriving DecidableEq, Repr

def sizeofPhdr : Nat := 56

def Phdr.ofBytes (object : List U8) : Phdr where
  type := field 32 object 0
  flags := field 32 object 4
  vaddr := field 64 object 16
  memsz := field 64 object 40

/-- `Elf64_Shdr`, the fields that are read. -/
structure Shdr where
  type : U32
  offset : U64
  size : U64
  link : U32
  entsize : U64
deriving DecidableEq, Repr

def sizeofShdr : Nat := 64

def Shdr.ofBytes (object : List U8) : Shdr where
  type := field 32 object 4
  offset := field 64 object 24
  size := field 64 object 32
  link := field 32 object 40
  entsize := field 64 object 56

/-- `Elf64_Sym`, the fields that are read. -/
structure Sym where
  name : U32
  info : U8
  value : U64
  size : U64
deriving DecidableEq, Repr

def sizeofSym : Nat := 24

def Sym.ofBytes (object : List U8) : Sym where
  name := field 32 object 0
  info := field 8 object 4
  value := field 64 object 8
  size := field 64 object 16

end ELF

/-! ## Image information -/

/-- `ELFSymbol`. -/
structure ELFSymbol where
  name : String
  value : U64
  size : U64
deriving DecidableEq, Repr

/-- `ELFImageInfo`. -/
structure ELFImageInfo where
  minVaddr : U64 := 0
  maxVaddr : U64 := 0
  executableRanges : List (U64 × U64) := []
  functionSymbols : List ELFSymbol := []
deriving DecidableEq, Repr

open ELF

/-- `symbol_name_at`: the name up to its version suffix, read inside the string table and
inside the file. -/
def symbolNameAt (data : List U8) (strings : Shdr) (offset : U32) : String :=
  if offset.toNat ≥ strings.size.toNat then ""
  else
    let start := strings.offset + offset.setWidth 64
    if start.toNat ≥ data.length then ""
    else
      let limit := min data.length (strings.offset + strings.size).toNat
      let bytes := ((data.drop start.toNat).take (limit - start.toNat)).takeWhile (· ≠ 0)
      String.ofList
        ((bytes.map fun byte => Char.ofNat byte.toNat).takeWhile (· ≠ '@'))

/-- The header checks of `read_elf_image_info`. -/
def checkEhdr (path : String) (ehdr : Ehdr) : Except Raise Unit :=
  if ehdr.ident.take 4 ≠ [0x7f, 0x45, 0x4c, 0x46] then
    .error (.emulatorError (path ++ " is not an ELF file"))
  else if ehdr.ident.getD 4 0 ≠ 2 ∨ ehdr.ident.getD 5 0 ≠ 1 ∨ ehdr.machine ≠ emX86_64 then
    .error (.emulatorError (path ++ " is not a supported x86_64 ELF"))
  else if ehdr.type ≠ etExec ∧ ehdr.type ≠ etDyn then
    .error (.emulatorError (path ++ " is neither ET_EXEC nor ET_DYN"))
  else
    .ok ()

/-- A table of `count` entries that lies inside the file. -/
def tableFits (data : List U8) (offset : U64) (entsize count : U16) (expected : Nat) : Bool :=
  offset ≠ 0 && entsize.toNat == expected && offset.toNat ≤ data.length &&
    count.toNat * entsize.toNat ≤ data.length - offset.toNat

/-- The entries of a table. -/
def readTable {α : Type} (ofBytes : List U8 → α) (data : List U8) (offset : U64)
    (entsize : U64) (size count : Nat) : Except Raise (List α) :=
  (List.range count).mapM fun i => do
    let object ← objectAt data size (offset + BitVec.ofNat 64 i * entsize) "ELF symbol object"
    return ofBytes object

/-- What one program header adds to the image information. -/
def addPhdr (info : ELFImageInfo) (phdr : Phdr) : ELFImageInfo :=
  if phdr.type ≠ ptLoad then info
  else
    let start := pageAlignDown phdr.vaddr
    let endAddress := pageAlignUp (phdr.vaddr + phdr.memsz)
    { info with
      minVaddr := stdMin info.minVaddr start
      maxVaddr := stdMax info.maxVaddr endAddress
      executableRanges :=
        if phdr.flags &&& pfX ≠ 0 then info.executableRanges ++ [(start, endAddress)]
        else info.executableRanges }

/-- A symbol table that is skipped: of another type, with other entries, without a string
table, or not inside the file. -/
def skipSection (data : List U8) (sections : List Shdr) (entry : Shdr) : Bool :=
  (entry.type ≠ shtSymtab && entry.type ≠ shtDynsym) ||
    (entry.entsize.toNat ≠ sizeofSym || entry.link.toNat ≥ sections.length) ||
    (entry.offset.toNat > data.length || entry.size.toNat > data.length - entry.offset.toNat)

/-- The named function symbols of one symbol table. -/
def sectionSymbols (data : List U8) (strings entry : Shdr) : Except Raise (List ELFSymbol) := do
  let symbols ← readTable Sym.ofBytes data entry.offset entry.entsize sizeofSym
    (entry.size.toNat / entry.entsize.toNat)
  return symbols.filterMap fun symbol =>
    if symbol.info &&& 0xf ≠ sttFunc ∨ symbol.value = 0 then none
    else
      let name := symbolNameAt data strings symbol.name
      if name = "" then none else some ⟨name, symbol.value, symbol.size⟩

/-- The function symbols of all symbol tables, in file order. -/
def functionSymbolsOf (data : List U8) (sections : List Shdr) :
    Except Raise (List ELFSymbol) := do
  let tables ← sections.mapM fun entry =>
    if skipSection data sections entry then .ok []
    else
      match sections[entry.link.toNat]? with
      | none => .error .hostFault
      | some strings =>
          if strings.offset.toNat > data.length ∨
              strings.size.toNat > data.length - strings.offset.toNat then .ok []
          else sectionSymbols data strings entry
  return tables.flatten

/-- `read_elf_image_info`, given the content of the file.  Symbols are sorted by value;
`std::sort` leaves the order of equal values open, here they keep file order. -/
def readElfImageInfo (path : String) (data : List U8) : Except Raise ELFImageInfo := do
  if data.length < sizeofEhdr then
    throw (.emulatorError (path ++ " is too small to be an ELF64 file"))
  let header ← objectAt data sizeofEhdr 0 "ELF symbol object"
  let ehdr := Ehdr.ofBytes header
  checkEhdr path ehdr
  let mut info : ELFImageInfo := { minVaddr := BitVec.allOnes 64 }
  if tableFits data ehdr.phoff ehdr.phentsize ehdr.phnum sizeofPhdr then
    let phdrs ← readTable Phdr.ofBytes data ehdr.phoff (ehdr.phentsize.setWidth 64) sizeofPhdr
      ehdr.phnum.toNat
    info := phdrs.foldl addPhdr info
  if info.minVaddr = BitVec.allOnes 64 then
    info := { info with minVaddr := 0 }
  let mut symbols : List ELFSymbol := []
  if tableFits data ehdr.shoff ehdr.shentsize ehdr.shnum sizeofShdr then
    let sections ← readTable Shdr.ofBytes data ehdr.shoff (ehdr.shentsize.setWidth 64) sizeofShdr
      ehdr.shnum.toNat
    symbols ← functionSymbolsOf data sections
  return { info with
    functionSymbols := symbols.insertionSort fun a b => a.value ≤ b.value }

end LUE
