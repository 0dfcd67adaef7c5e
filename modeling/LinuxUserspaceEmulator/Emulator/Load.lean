import LinuxUserspaceEmulator.ELFLoader
import LinuxUserspaceEmulator.Emulator.Signals

/-!
# Loading a guest program

`load` puts the main executable and its interpreter into guest memory, registers their
images, maps the stack and writes its initial contents: strings downwards from the top,
then the table of words that the guest's start code reads.
-/

namespace LUE

open StateExcept SoftMMU

/-! ## What loading starts from -/

/-- The command line of the guest.  Argument and environment strings are their bytes. -/
structure Launch where
  executablePath : String
  arguments : List (List U8)
  environment : List (List U8)

/-- What the auxiliary vector takes from the host. -/
structure HostIdentity where
  uid : U64
  euid : U64
  gid : U64
  egid : U64
  clockTicks : U64
  /-- The byte taken from each call of `std::rand`. -/
  random : Nat → U8

/-- The bytes of a host string. -/
def stringBytes (value : String) : List U8 :=
  value.toList.map fun c => BitVec.ofNat 8 c.toNat

/-! ## Pushing -/

/-- The guest memory and `m_stack_top` while the initial stack is built. -/
structure StackState where
  mmu : SoftMMU
  stackTop : U64

/-- A member function that pushes to the initial stack. -/
abbrev StackProgram (α : Type) := EStateM Raise StackState α

/-- Run a member function of the memory-management unit. -/
def onStackMMU {α : Type} (program : MMUProgram α) : StackProgram α :=
  onPart StackState.mmu (fun state mmu => { state with mmu := mmu }) program

/-- `push64`. -/
def push64 (value : U64) : StackProgram Unit := do
  modify fun state => { state with stackTop := state.stackTop - 8 }
  let state ← get
  onStackMMU (write64 state.stackTop value)

/-- `push_bytes`. -/
def pushBytes (data : List U8) : StackProgram U64 := do
  modify fun state => { state with stackTop := state.stackTop - BitVec.ofNat 64 data.length }
  let state ← get
  onStackMMU (copyToGuest state.stackTop data)
  return state.stackTop

/-- `push_string`: the string and its terminator. -/
def pushString (value : List U8) : StackProgram U64 :=
  pushBytes (value ++ [0])

/-! ## The auxiliary vector -/

def atNull : U64 := 0
def atPhdr : U64 := 3
def atPhent : U64 := 4
def atPhnum : U64 := 5
def atPagesz : U64 := 6
def atBase : U64 := 7
def atFlags : U64 := 8
def atEntry : U64 := 9
def atUid : U64 := 11
def atEuid : U64 := 12
def atGid : U64 := 13
def atEgid : U64 := 14
def atPlatform : U64 := 15
def atHwcap : U64 := 16
def atClktck : U64 := 17
def atSecure : U64 := 23
def atRandom : U64 := 25
def atHwcap2 : U64 := 26
def atExecfn : U64 := 31

/-- The entries that `setup_stack` collects in `auxv`. -/
def auxiliaryVector (program : LoadedProgram) (host : HostIdentity)
    (platform random execfn : U64) : List (U64 × U64) :=
  [(atPhdr, program.phdr),
    (atPhent, program.phent.setWidth 64),
    (atPhnum, program.phnum.setWidth 64),
    (atPagesz, pageSize),
    (atBase, program.interpreterBase),
    (atFlags, 0),
    (atEntry, program.executableEntry),
    (atUid, host.uid),
    (atEuid, host.euid),
    (atGid, host.gid),
    (atEgid, host.egid),
    (atPlatform, platform),
    (atHwcap, 0),
    (atClktck, host.clockTicks),
    (atSecure, 0),
    (atRandom, random),
    (atHwcap2, 0),
    (atExecfn, execfn),
    (atNull, 0)]

/-! ## The initial stack -/

/-- `setup_stack`. -/
def setupStack (launch : Launch) (program : LoadedProgram) (host : HostIdentity) :
    StackProgram Unit := do
  let argv ← launch.arguments.reverse.mapM pushString
  let argv := argv.reverse
  let envp ← launch.environment.reverse.mapM pushString
  let envp := envp.reverse
  let execfn ← pushString (stringBytes launch.executablePath)
  let platform ← pushString (stringBytes "x86_64")
  let random ← pushBytes ((List.range 16).map host.random)
  modify fun state => { state with stackTop := state.stackTop &&& ~~~0xf }
  (auxiliaryVector program host platform random execfn).reverse.forM fun entry => do
    push64 entry.2
    push64 entry.1
  push64 0
  envp.reverse.forM push64
  push64 0
  argv.reverse.forM push64
  push64 (BitVec.ofNat 64 argv.length)

def stackBase : U64 := 0x7fffff000000
def stackSize : U64 := 8 * 1024 * 1024

/-! ## Loading -/

namespace Emulator

/-- Track the main executable image. -/
def registerExecutable (files : HostFiles) (program : LoadedProgram) (emulator : Emulator) :
    Emulator :=
  emulator.registerLoadedImage files program.executablePath program.executableBase "executable"

/-- Track the dynamic loader image. -/
def registerInterpreter (files : HostFiles) (program : LoadedProgram) (emulator : Emulator) :
    Emulator :=
  if program.dynamic && program.interpreterPath ≠ "" then
    emulator.registerLoadedImage files program.interpreterPath program.interpreterBase "loader"
  else emulator

/-- `setup_stack` on a stack that is still empty; the result is the final `m_stack_top`. -/
def buildStack (launch : Launch) (program : LoadedProgram) (host : HostIdentity) :
    EmulatorProgram U64 := fun emulator =>
  match setupStack launch program host ⟨emulator.mmu, stackBase⟩ with
  | .ok _ state => .ok state.stackTop (emulator.withMMU state.mmu)
  | .error e state => .error e (emulator.withMMU state.mmu)

/-- `load`.  The signal handlers it also registers belong to the host. -/
def load (files : HostFiles) (host : HostIdentity) (launch : Launch) :
    EmulatorProgram Unit := do
  let program ← onMMU (loadProgram files launch.executablePath)
  modify (registerExecutable files program)
  modify (registerInterpreter files program)
  setupSignalTrampoline
  let brkStart := pageAlignUp program.brkStart
  modify fun emulator =>
    { emulator with brkStart := brkStart, brk := brkStart, brkRegionEnd := brkStart }
  onMMU (mapZeroed (stackBase - stackSize) stackSize (protRead ||| protWrite) "[stack]")
  let stackTop ← buildStack launch program host
  modifyCPU fun cpu => (cpu.setRip program.entry).setReg Register.rsp stackTop

end Emulator

end LUE
