import LinuxUserspaceEmulator.ELFSymbols
import LinuxUserspaceEmulator.SoftCPU64.State
import LinuxUserspaceEmulator.SoftMMU.Operations
import Mathlib.Data.List.Infix

/-!
# The state of the emulator

`Emulator` owns the memory-management unit, the CPU, the program break, the descriptor
paths, the loaded images, and the signal state.  Its member functions are programs over
this state; the host operating system is a parameter.

Main results:

- Theorem `registerLoadedImage_mmu`: registering an image leaves guest memory alone.
- Theorem `isErrno_syscallError`: an error result is one the guest takes for an error.
- Theorem `onMMU_eq_ok_iff`: a program of the memory-management unit run by the emulator.
-/

namespace LUE

open StateExcept

/-! ## The host -/

/-- How reading a host file can fail. -/
inductive FileFailure where
  | failedToOpen
  | failedToSize
  | failedToRead
deriving DecidableEq, Repr

/-- The words of `read_file` for a failure. -/
def FileFailure.verb : FileFailure → String
  | failedToOpen => "failed to open "
  | failedToSize => "failed to size "
  | failedToRead => "failed to read "

/-- The error number of a failed host call. -/
structure Errno where
  number : Nat
  pos : 0 < number
  le : number ≤ 4095
deriving DecidableEq, Repr

/-- `syscall_error`. -/
def syscallError (err : Errno) : U64 :=
  -BitVec.ofNat 64 err.number

/-- The values a guest takes for an error: the negated error numbers. -/
def IsErrno (result : U64) : Prop :=
  2 ^ 64 - 4095 ≤ result.toNat

theorem isErrno_syscallError (err : Errno) : IsErrno (syscallError err) := by
  have hpos := err.pos
  have hle := err.le
  simp only [IsErrno, syscallError, BitVec.toNat_neg, BitVec.toNat_ofNat]
  omega

namespace Errno

def einval : Errno := ⟨22, by decide, by decide⟩
def eexist : Errno := ⟨17, by decide, by decide⟩
def efault : Errno := ⟨14, by decide, by decide⟩
def enomem : Errno := ⟨12, by decide, by decide⟩
def esrch : Errno := ⟨3, by decide, by decide⟩

end Errno

/-- What the emulator asks of the host's files. -/
structure HostFiles where
  /-- The content of a file. -/
  readFile : String → Except FileFailure (List U8)
  /-- `pread`: the bytes read at an offset of a descriptor. -/
  pread : BitVec 32 → Nat → U64 → Except Errno (List U8)

/-- `read_file`. -/
def HostFiles.readFileFor (files : HostFiles) (path description : String) :
    Except Raise (List U8) :=
  match files.readFile path with
  | .ok data => .ok data
  | .error failure => .error (.emulatorError (failure.verb ++ description ++ ": " ++ path))

/-! ## State -/

/-- `EmulatorOptions`, without the options that only print. -/
structure EmulatorOptions where
  backtraceOnExit : Bool := false
deriving DecidableEq, Repr

/-- `SymbolRange`. -/
structure SymbolRange where
  start : U64 := 0
  endAddress : U64 := 0
  name : String := ""
deriving DecidableEq, Repr

/-- `LoadedImage`. -/
structure LoadedImage where
  path : String
  name : String
  kind : String
  base : U64
  endAddress : U64
  executableRanges : List (U64 × U64)
  symbols : List SymbolRange
deriving DecidableEq, Repr

/-- `SignalAction`. -/
structure SignalAction where
  handler : U64 := 0
  flags : U64 := 0
  restorer : U64 := 0
  mask : U64 := 0
deriving DecidableEq, Repr

/-- The state of `Emulator`. -/
structure Emulator where
  options : EmulatorOptions := {}
  mmu : SoftMMU := {}
  cpu : SoftCPU64 := {}
  brkStart : U64 := 0
  brk : U64 := 0
  brkRegionEnd : U64 := 0
  fdPaths : BitVec 32 → Option String := fun _ => none
  loadedImages : List LoadedImage := []
  lastNonExitSyscallBacktrace : List U64 := []
  signalTrampoline : U64 := 0
  pendingSignals : U64 := 0
  signalMask : U64 := 0
  signalActions : Nat → SignalAction := fun _ => {}
  restoredContextFromSigreturn : Bool := false
  mallocSymbol : SymbolRange := {}
  reallocSymbol : SymbolRange := {}
  callocSymbol : SymbolRange := {}
  freeSymbol : SymbolRange := {}
  mallocUsableSizeSymbol : SymbolRange := {}

/-- A member function that may change the emulator and may throw. -/
abbrev EmulatorProgram (α : Type) := EStateM Raise Emulator α

/-! ## Programs of the parts -/

/-- The emulator with another memory state. -/
def Emulator.withMMU (emulator : Emulator) (mmu : SoftMMU) : Emulator :=
  { emulator with mmu := mmu }

/-- The emulator with another CPU state. -/
def Emulator.withCPU (emulator : Emulator) (cpu : SoftCPU64) : Emulator :=
  { emulator with cpu := cpu }

@[simp]
theorem Emulator.withMMU_mmu (emulator : Emulator) (mmu : SoftMMU) :
    (emulator.withMMU mmu).mmu = mmu :=
  rfl

@[simp]
theorem Emulator.withMMU_cpu (emulator : Emulator) (mmu : SoftMMU) :
    (emulator.withMMU mmu).cpu = emulator.cpu :=
  rfl

@[simp]
theorem Emulator.withCPU_mmu (emulator : Emulator) (cpu : SoftCPU64) :
    (emulator.withCPU cpu).mmu = emulator.mmu :=
  rfl

@[simp]
theorem Emulator.withCPU_cpu (emulator : Emulator) (cpu : SoftCPU64) :
    (emulator.withCPU cpu).cpu = cpu :=
  rfl

/-- Run a member function of the memory-management unit. -/
def onMMU {α : Type} (program : MMUProgram α) : EmulatorProgram α :=
  onPart Emulator.mmu Emulator.withMMU program

/-- Run a const member function of the memory-management unit. -/
def readMMU {α : Type} (f : SoftMMU → Except Raise α) : EmulatorProgram α :=
  observe fun emulator => f emulator.mmu

/-- The CPU state. -/
def getCPU : EmulatorProgram SoftCPU64 := do
  return (← get).cpu

/-- Change the CPU state. -/
def modifyCPU (f : SoftCPU64 → SoftCPU64) : EmulatorProgram Unit :=
  modify fun emulator => emulator.withCPU (f emulator.cpu)

theorem onMMU_eq_ok_iff {α : Type} {program : MMUProgram α} {emulator emulator' : Emulator}
    {a : α} :
    onMMU program emulator = .ok a emulator' ↔
      ∃ mmu', program emulator.mmu = .ok a mmu' ∧
        emulator.withMMU mmu' = emulator' :=
  onPart_eq_ok_iff

theorem onMMU_eq_error_iff {α : Type} {program : MMUProgram α} {emulator emulator' : Emulator}
    {e : Raise} :
    onMMU program emulator = .error e emulator' ↔
      ∃ mmu', program emulator.mmu = .error e mmu' ∧
        emulator.withMMU mmu' = emulator' :=
  onPart_eq_error_iff

theorem readMMU_eq_ok_iff {α : Type} {f : SoftMMU → Except Raise α}
    {emulator emulator' : Emulator} {a : α} :
    readMMU f emulator = .ok a emulator' ↔ f emulator.mmu = .ok a ∧ emulator = emulator' :=
  observe_eq_ok_iff

@[simp]
theorem getCPU_apply (emulator : Emulator) : getCPU emulator = .ok emulator.cpu emulator :=
  rfl

@[simp]
theorem modifyCPU_apply (f : SoftCPU64 → SoftCPU64) (emulator : Emulator) :
    modifyCPU f emulator = .ok () (emulator.withCPU (f emulator.cpu)) :=
  rfl

/-! ## Loaded images -/

/-- The final path component after the last `/`. -/
def basename (path : String) : String :=
  String.ofList (path.toList.reverse.takeWhile (· ≠ '/')).reverse

/-- `image_kind_for_path`. -/
def imageKindForPath (path : String) : String :=
  let name := (basename path).toList
  if name = "ld-linux-x86-64.so.2".toList ∨ "ld-".toList <+: name then "loader"
  else if name = "libc.so.6".toList ∨ "libc-".toList <+: name then "libc"
  else if "libsystem".toList <:+: name then "libsystem"
  else ""

/-- The image that `register_loaded_image` builds from the information in the file. -/
def LoadedImage.ofInfo (path : String) (loadBase : U64) (kind : String) (info : ELFImageInfo) :
    LoadedImage :=
  let base := loadBase - info.minVaddr
  { path := path
    name := basename path
    kind := if kind = "" then imageKindForPath path else kind
    base := base
    endAddress := base + info.maxVaddr
    executableRanges := info.executableRanges.map fun range => (base + range.1, base + range.2)
    symbols := info.functionSymbols.map fun symbol =>
      let start := base + symbol.value
      let size := if symbol.size ≠ 0 then symbol.size else 1
      ⟨start, start + size, symbol.name⟩ }

/-- `remember_malloc_symbol`. -/
def rememberMallocSymbol (image : LoadedImage) (name : String) (target : SymbolRange) :
    SymbolRange :=
  (image.symbols.find? fun symbol => symbol.name = name).getD target

namespace Emulator

/-- `register_loaded_image`: images whose file cannot be read or parsed are not kept. -/
def registerLoadedImage (files : HostFiles) (path : String) (loadBase : U64) (kind : String)
    (emulator : Emulator) : Emulator :=
  if path = "" then emulator
  else if emulator.loadedImages.any fun image => image.path = path && image.base = loadBase then
    emulator
  else
    match files.readFileFor path "ELF file for symbols" >>= readElfImageInfo path with
    | .error _ => emulator
    | .ok info =>
        let image := LoadedImage.ofInfo path loadBase kind info
        let emulator :=
          if image.kind = "libc" then
            { emulator with
              mallocSymbol := rememberMallocSymbol image "malloc" emulator.mallocSymbol
              reallocSymbol := rememberMallocSymbol image "realloc" emulator.reallocSymbol
              callocSymbol := rememberMallocSymbol image "calloc" emulator.callocSymbol
              freeSymbol := rememberMallocSymbol image "free" emulator.freeSymbol
              mallocUsableSizeSymbol :=
                rememberMallocSymbol image "malloc_usable_size" emulator.mallocUsableSizeSymbol }
          else emulator
        { emulator with loadedImages := emulator.loadedImages ++ [image] }

/-- `register_mapped_file`. -/
def registerMappedFile (files : HostFiles) (path : String) (mappedAddress : U64)
    (emulator : Emulator) : Emulator :=
  if path = "" then emulator else emulator.registerLoadedImage files path mappedAddress ""

/-- `path_for_fd`. -/
def pathForFd (emulator : Emulator) (guestFd : BitVec 32) : Option String :=
  emulator.fdPaths guestFd

theorem registerLoadedImage_mmu (files : HostFiles) (path : String) (loadBase : U64)
    (kind : String) (emulator : Emulator) :
    (emulator.registerLoadedImage files path loadBase kind).mmu = emulator.mmu := by
  unfold registerLoadedImage
  split
  · rfl
  · split
    · rfl
    · split
      · rfl
      · dsimp only
        split <;> rfl

end Emulator

end LUE
