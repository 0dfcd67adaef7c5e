import LinuxUserspaceEmulator.Emulator.State
import LinuxUserspaceEmulator.SoftMMU.Mapping

/-!
# The ELF loader

`load_object` checks the header of an ELF file, walks its program headers in order, and maps
each `PT_LOAD` segment with the permissions of the header.  `ELFLoader::load` loads the main
executable and, when that names one, its interpreter.
-/

namespace LUE

open StateExcept SoftMMU

namespace ELF

/-! ## Headers -/

def ptInterp : U32 := 3
def ptPhdr : U32 := 6
def ptGnuStack : U32 := 0x6474e551
def pfW : U32 := 2
def pfR : U32 := 4

/-- `Elf64_Ehdr`, with the field that only the loader reads. -/
structure LoaderEhdr extends Ehdr where
  entry : U64
deriving DecidableEq, Repr

def LoaderEhdr.ofBytes (object : List U8) : LoaderEhdr :=
  { Ehdr.ofBytes object with entry := field 64 object 24 }

/-- `Elf64_Phdr`, with the fields that only the loader reads. -/
structure LoaderPhdr extends Phdr where
  offset : U64
  filesz : U64
deriving DecidableEq, Repr

def LoaderPhdr.ofBytes (object : List U8) : LoaderPhdr :=
  { Phdr.ofBytes object with offset := field 64 object 8, filesz := field 64 object 32 }

end ELF

open ELF

/-- `flags_to_prot`. -/
def flagsToProt (flags : U32) : Protection :=
  (if flags &&& pfR ≠ 0 then protRead else 0) |||
    (if flags &&& pfW ≠ 0 then protWrite else 0) |||
    (if flags &&& pfX ≠ 0 then protExecute else 0)

/-! ## Loading one object -/

/-- `LoadedObject`. -/
structure LoadedObject where
  entry : U64 := 0
  loadBase : U64 := 0
  phdr : U64 := 0
  phent : U16 := 0
  phnum : U16 := 0
  brkStart : U64 := 0
  interpreter : String := ""
deriving DecidableEq, Repr

/-- The header checks of `load_object`. -/
def checkLoaderEhdr (path : String) (size : Nat) (ehdr : LoaderEhdr) : Except Raise Unit :=
  if ehdr.ident.take 4 ≠ [0x7f, 0x45, 0x4c, 0x46] then
    .error (.emulatorError (path ++ " is not an ELF file"))
  else if ehdr.ident.getD 4 0 ≠ 2 then
    .error (.emulatorError (path ++ " is not ELFCLASS64"))
  else if ehdr.ident.getD 5 0 ≠ 1 then
    .error (.emulatorError (path ++ " is not little-endian ELF"))
  else if ehdr.machine ≠ emX86_64 then
    .error (.emulatorError (path ++ " is not EM_X86_64"))
  else if ehdr.type ≠ etExec ∧ ehdr.type ≠ etDyn then
    .error (.emulatorError (path ++ " is neither ET_EXEC nor ET_DYN"))
  else if ehdr.phentsize.toNat ≠ sizeofPhdr then
    .error (.emulatorError (path ++ " has unsupported program-header entry size"))
  else if ehdr.phnum = 0 then
    .error (.emulatorError (path ++ " has no program headers"))
  else if ehdr.phoff.toNat > size ∨
      ehdr.phnum.toNat * ehdr.phentsize.toNat > size - ehdr.phoff.toNat then
    .error (.emulatorError (path ++ " has invalid program-header table"))
  else
    .ok ()

/-- The part of the file that a program header names. -/
def segmentBytes (data : List U8) (phdr : LoaderPhdr) : List U8 :=
  (data.drop phdr.offset.toNat).take phdr.filesz.toNat

/-- The file does not contain the part that a program header names. -/
def outsideFile (data : List U8) (phdr : LoaderPhdr) : Prop :=
  phdr.offset.toNat > data.length ∨ phdr.filesz.toNat > data.length - phdr.offset.toNat

instance (data : List U8) (phdr : LoaderPhdr) : Decidable (outsideFile data phdr) :=
  inferInstanceAs (Decidable (_ ∨ _))

/-- The path in a `PT_INTERP` segment, without a final NUL. -/
def interpreterPath (bytes : List U8) : String :=
  let bytes := if bytes.getLast? = some 0 then bytes.dropLast else bytes
  String.ofList (bytes.map fun byte => Char.ofNat byte.toNat)

/-- A `PT_LOAD` header: map the segment on page boundaries while preserving its in-page
offset, move the program break behind it, and infer the place of the program headers. -/
def loadSegment (path : String) (data : List U8) (phoff : U64) (phdr : LoaderPhdr)
    (object : LoadedObject) : MMUProgram LoadedObject :=
  if phdr.filesz > phdr.memsz then
    throw (.emulatorError (path ++ " has PT_LOAD p_filesz > p_memsz"))
  else if outsideFile data phdr then
    throw (.emulatorError (path ++ " has PT_LOAD outside file"))
  else do
    let segmentStart := object.loadBase + phdr.vaddr
    let mapStart := pageAlignDown segmentStart
    let mapOffset := segmentStart - mapStart
    let mapSize := pageAlignUp (mapOffset + phdr.memsz)
    mapBytes mapStart mapSize (flagsToProt phdr.flags) (segmentBytes data phdr) mapOffset path
    let object :=
      { object with
        brkStart := stdMax object.brkStart (pageAlignUp (segmentStart + phdr.memsz)) }
    if object.phdr = 0 ∧ phoff ≥ phdr.offset ∧ phoff < phdr.offset + phdr.filesz then
      return { object with phdr := segmentStart + (phoff - phdr.offset) }
    else
      return object

/-- One program header: the interpreter, the place of the program headers, or a segment. -/
def loadPhdr (path : String) (data : List U8) (phoff : U64) (phdr : LoaderPhdr)
    (object : LoadedObject) : MMUProgram LoadedObject :=
  if phdr.type = ptInterp then
    if outsideFile data phdr then
      throw (.emulatorError (path ++ " has invalid PT_INTERP"))
    else
      return { object with interpreter := interpreterPath (segmentBytes data phdr) }
  else if phdr.type = ptPhdr then
    return { object with phdr := object.loadBase + phdr.vaddr }
  else if phdr.type = ptGnuStack then
    return object
  else if phdr.type ≠ ptLoad then
    return object
  else
    loadSegment path data phoff phdr object

/-- The program header at an index of the table. -/
def phdrAt (data : List U8) (ehdr : LoaderEhdr) (i : Nat) : Except Raise LoaderPhdr := do
  let object ← objectAt data sizeofPhdr
    (ehdr.phoff + BitVec.ofNat 64 i * ehdr.phentsize.setWidth 64) "ELF object"
  return LoaderPhdr.ofBytes object

/-- Where the addresses of a file are relative to: `ET_DYN` objects are position
independent. -/
def loadBaseFor (ehdr : LoaderEhdr) (dynBase : U64) : U64 :=
  if ehdr.type = etDyn then dynBase else 0

/-- The object before its program headers are read. -/
def initialObject (ehdr : LoaderEhdr) (dynBase : U64) : LoadedObject where
  loadBase := loadBaseFor ehdr dynBase
  entry := loadBaseFor ehdr dynBase + ehdr.entry
  phent := ehdr.phentsize
  phnum := ehdr.phnum

/-- The loop of `load_object` over the program headers. -/
def loadPhdrs (path : String) (data : List U8) (ehdr : LoaderEhdr) (dynBase : U64) :
    MMUProgram LoadedObject :=
  (List.range ehdr.phnum.toNat).foldlM (fun object i => do
    let phdr ← observe fun _ => phdrAt data ehdr i
    loadPhdr path data ehdr.phoff phdr object) (initialObject ehdr dynBase)

/-- `load_object`. -/
def loadObject (files : HostFiles) (path : String) (dynBase : U64) :
    MMUProgram LoadedObject := do
  let data ← observe fun _ => files.readFileFor path "ELF file"
  if data.length < sizeofEhdr then
    throw (.emulatorError (path ++ " is too small to be an ELF64 file"))
  let header ← observe fun _ => objectAt data sizeofEhdr 0 "ELF object"
  let ehdr := LoaderEhdr.ofBytes header
  observe fun _ => checkLoaderEhdr path data.length ehdr
  let object ← loadPhdrs path data ehdr dynBase
  let object :=
    if object.phdr = 0 then { object with phdr := object.loadBase + ehdr.phoff } else object
  if object.brkStart = 0 then
    throw (.emulatorError (path ++ " did not map any PT_LOAD segments"))
  return object

/-! ## Loading a program -/

/-- Preferred base for `ET_DYN` main executables. -/
def executableDynBase : U64 := 0x555555554000

/-- Preferred base for the interpreter. -/
def interpreterDynBase : U64 := 0x7f0000000000

/-- `LoadedProgram`. -/
structure LoadedProgram where
  entry : U64 := 0
  executableEntry : U64 := 0
  executableBase : U64 := 0
  interpreterBase : U64 := 0
  interpreterPhdr : U64 := 0
  interpreterPhent : U16 := 0
  interpreterPhnum : U16 := 0
  phdr : U64 := 0
  phent : U16 := 0
  phnum : U16 := 0
  brkStart : U64 := 0
  dynamic : Bool := false
  executablePath : String := ""
  interpreterPath : String := ""
deriving DecidableEq, Repr

/-- `ELFLoader::load`. -/
def loadProgram (files : HostFiles) (path : String) : MMUProgram LoadedProgram := do
  let executable ← loadObject files path executableDynBase
  let program : LoadedProgram :=
    { entry := executable.entry
      executableEntry := executable.entry
      executableBase := executable.loadBase
      phdr := executable.phdr
      phent := executable.phent
      phnum := executable.phnum
      brkStart := executable.brkStart
      executablePath := path
      interpreterPath := executable.interpreter }
  if executable.interpreter = "" then
    return program
  else do
    let interpreter ← loadObject files executable.interpreter interpreterDynBase
    return { program with
      dynamic := true
      entry := interpreter.entry
      interpreterBase := interpreter.loadBase
      interpreterPhdr := interpreter.phdr
      interpreterPhent := interpreter.phent
      interpreterPhnum := interpreter.phnum }

end LUE
