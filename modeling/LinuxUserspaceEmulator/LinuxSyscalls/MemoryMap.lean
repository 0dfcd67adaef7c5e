import LinuxUserspaceEmulator.Emulator.State

/-!
# The memory-map system calls

The cases of `LinuxSyscalls::dispatch` that change the guest's memory map: `mmap`,
`munmap`, `mprotect`, `mremap` and `brk`.  Each takes the argument registers as they are.
-/

namespace LUE

open StateExcept SoftMMU

/-! ## Arguments -/

/-- `prot_from_linux`. -/
def protFromLinux (prot : U64) : Protection :=
  (if prot &&& 1 ≠ 0 then protRead else 0) |||
    (if prot &&& 2 ≠ 0 then protWrite else 0) |||
    (if prot &&& 4 ≠ 0 then protExecute else 0)

def mapFixed : U64 := 0x10
def mapAnonymous : U64 := 0x20
def mapFixedNoreplace : U64 := 0x100000
def mapUninitialized : U64 := 0x4000000

def mremapMaymove : U64 := 1
def mremapFixed : U64 := 2
def mremapDontunmap : U64 := 4

/-- A bit test on the flags argument. -/
def hasFlag (flags bit : U64) : Bool :=
  flags &&& bit != 0

/-- `guest_range_is_mapped`: some page of the range, or its last byte, is mapped.  Both
callers pass a size that has been rounded to pages, for which the loop ends. -/
def guestRangeIsMapped (address size : U64) (mmu : SoftMMU) : Bool :=
  if size = 0 then false
  else
    ((List.range ((size.toNat + 4095) / 4096)).any fun i =>
        mmu.isMapped (address + BitVec.ofNat 64 (i * 4096)) 1) ||
      mmu.isMapped (address + size - 1) 1

/-! ## mmap -/

/-- The mapping name and path of a `mmap` call. -/
def mmapIdentity (emulator : Emulator) (anonymous : Bool) (fd : U64) :
    String × Option String :=
  if anonymous then ("[mmap]", none)
  else
    match emulator.pathForFd (fd.setWidth 32) with
    | some path => (path, some path)
    | none => ("[mmap]", none)

/-- The placement of a `mmap` call: the address it maps, or the error it returns. -/
def placeMmap (address size flags offset : U64) (name : String) (path : Option String) :
    MMUProgram (Except Errno U64) :=
  if hasFlag flags mapFixed || hasFlag flags mapFixedNoreplace then do
    let address := pageAlignDown address
    let mmu ← get
    if hasFlag flags mapFixedNoreplace && guestRangeIsMapped address size mmu then
      return .error .eexist
    else
      unmap address size
      mapMmap address size (protRead ||| protWrite) name path offset
      return .ok address
  else do
    let address ← allocateMmap size pageSize (protRead ||| protWrite) name path offset
    return .ok address

/-- The end of a `mmap` call: initialization flags and the requested permissions. -/
def finishMmap (address size prot flags : U64) : MMUProgram Unit := do
  if hasFlag flags mapUninitialized then
    markInitialized address size false
  protect address size (protFromLinux prot)

/-- A file mapped from its start is registered as an image. -/
def registerMmapImage (files : HostFiles) (address offset : U64) (path : Option String)
    (emulator : Emulator) : Emulator :=
  match path with
  | some path =>
      if offset = 0 then emulator.registerMappedFile files path address else emulator
  | none => emulator

theorem registerMmapImage_mmu (files : HostFiles) (address offset : U64)
    (path : Option String) (emulator : Emulator) :
    (registerMmapImage files address offset path emulator).mmu = emulator.mmu := by
  unfold registerMmapImage
  split
  · split
    · unfold Emulator.registerMappedFile
      split
      · rfl
      · exact Emulator.registerLoadedImage_mmu _ _ _ _ _
    · rfl
  · rfl

/-- The file part of a `mmap` call: copy the file in and register the image, or undo the
mapping and return the error of the read. -/
def fillMmap (files : HostFiles) (address size fd offset : U64) (path : Option String) :
    EmulatorProgram (Except Errno Unit) :=
  match files.pread (fd.setWidth 32) size.toNat offset with
  | .error errno => do
      onMMU (unmap address size)
      return .error errno
  | .ok fileData => do
      onMMU (copyToGuest address fileData)
      modify (registerMmapImage files address offset path)
      return .ok ()

/-- The rest of a `mmap` call once its mapping has been placed. -/
def completeMmap (files : HostFiles) (address size prot flags fd offset : U64)
    (path : Option String) : EmulatorProgram U64 := do
  let filled ←
    if hasFlag flags mapAnonymous then pure (.ok ())
    else fillMmap files address size fd offset path
  match filled with
  | .error errno => return syscallError errno
  | .ok () =>
      onMMU (finishMmap address size prot flags)
      return address

/-- `SYS_mmap`. -/
def sysMmap (files : HostFiles) (address length prot flags fd offset : U64) :
    EmulatorProgram U64 :=
  if length = 0 then
    return syscallError .einval
  else do
    let size := pageAlignUp length
    let emulator ← get
    let identity := mmapIdentity emulator (hasFlag flags mapAnonymous) fd
    match ← onMMU (placeMmap address size flags offset identity.1 identity.2) with
    | .error errno => return syscallError errno
    | .ok address => completeMmap files address size prot flags fd offset identity.2

/-! ## munmap and mprotect -/

/-- `SYS_munmap`. -/
def sysMunmap (address length : U64) : EmulatorProgram U64 := do
  onMMU (unmap address length)
  return 0

/-- `SYS_mprotect`. -/
def sysMprotect (address length prot : U64) : EmulatorProgram U64 := do
  onMMU (protect address length (protFromLinux prot))
  return 0

/-! ## mremap -/

/-- Copy bytes with their shadows, one by one, as `mremap` does. -/
def copyWithShadow (source destination : U64) (size : U64) : MMUProgram Unit :=
  forOffsets (fun i => do
    let byte ← read8WithShadow (source + BitVec.ofNat 64 i)
    write8WithShadow (destination + BitVec.ofNat 64 i) byte) size.toNat

/-- The moving part of `mremap`: map the destination, copy, and drop the source. -/
def moveMapping (oldAddress oldSize newAddress newSize flags : U64) :
    MMUProgram (Except Errno U64) := do
  let fixed := hasFlag flags mremapFixed
  if fixed then
    unmap (pageAlignDown newAddress) newSize
  let mmu ← get
  match mmu.findRegion oldAddress with
  | none => return .error .efault
  | some source =>
      let destination ←
        if fixed then do
          mapMmap (pageAlignDown newAddress) newSize source.prot source.name none 0
          pure (pageAlignDown newAddress)
        else
          allocateMmap newSize pageSize source.prot source.name none 0
      copyWithShadow oldAddress destination (stdMin oldSize newSize)
      if !hasFlag flags mremapDontunmap then
        unmap oldAddress oldSize
      return .ok destination

/-- `SYS_mremap`, up to the encoding of errors. -/
def mremap (oldAddress oldLength newLength flags newAddress : U64) :
    MMUProgram (Except Errno U64) := do
  let oldSize := pageAlignUp oldLength
  let newSize := pageAlignUp newLength
  let mayMove := hasFlag flags mremapMaymove
  let fixed := hasFlag flags mremapFixed
  let mmu ← get
  if fixed && !mayMove then
    return .error .einval
  else if oldAddress &&& (pageSize - 1) ≠ 0 then
    return .error .einval
  else if !mmu.isMapped oldAddress (if oldSize ≠ 0 then oldSize.toNat else 1) then
    return .error .efault
  else if newSize < oldSize && !fixed then do
    unmap (oldAddress + newSize) (oldSize - newSize)
    return .ok oldAddress
  else if newSize = oldSize && !fixed then
    return .ok oldAddress
  else if fixed then
    let destination := pageAlignDown newAddress
    let overlap := destination < oldAddress + oldSize && destination + newSize > oldAddress
    if !hasFlag flags mremapDontunmap && overlap then
      return .error .einval
    else
      moveMapping oldAddress oldSize newAddress newSize flags
  else if mayMove then
    moveMapping oldAddress oldSize newAddress newSize flags
  else
    return .error .enomem

/-- The result of a system call in RAX. -/
def syscallResult : Except Errno U64 → U64
  | .ok result => result
  | .error errno => syscallError errno

/-- `SYS_mremap`. -/
def sysMremap (oldAddress oldLength newLength flags newAddress : U64) :
    EmulatorProgram U64 := do
  let result ← onMMU (mremap oldAddress oldLength newLength flags newAddress)
  return syscallResult result

/-! ## brk -/

/-- `set_brk`, as `SYS_brk` calls it. -/
def setBrk (requested : U64) : EmulatorProgram U64 := do
  let emulator ← get
  if requested = 0 then
    return emulator.brk
  else if requested < emulator.brkStart then
    return emulator.brk
  else
    if requested > emulator.brkRegionEnd then
      let newEnd := pageAlignUp requested
      if newEnd > emulator.brkRegionEnd then
        onMMU (mapZeroed emulator.brkRegionEnd (newEnd - emulator.brkRegionEnd)
          (protRead ||| protWrite) "[brk]")
        modify fun emulator => { emulator with brkRegionEnd := newEnd }
    modify fun emulator => { emulator with brk := requested }
    return requested

end LUE
