import LinuxUserspaceEmulator.LinuxSyscalls.HostCalls

/-!
# System calls on files

Reading and writing, opening and closing, file status, attributes, directories and `ioctl`.
-/

namespace LUE

open StateExcept

variable (calls : HostCalls)

/-! ## Reading and writing -/

/-- `SYS_read`. -/
def sysRead (fd address size : U64) : EmulatorProgram U64 :=
  afterHost (calls.read (fd.setWidth 32) size.toNat) fun filled => returnBytes address filled.bytes

/-- `SYS_write`. -/
def sysWrite (fd address size : U64) : EmulatorProgram U64 := do
  let buffer ← copyBytesFromGuest address size.toNat
  return syscallResult (calls.write (fd.setWidth 32) buffer)

/-- `SYS_pread64`. -/
def sysPread64 (files : HostFiles) (fd address size offset : U64) : EmulatorProgram U64 :=
  afterHost (files.pread (fd.setWidth 32) size.toNat offset) fun bytes => returnBytes address bytes

/-- `SYS_pwrite64`. -/
def sysPwrite64 (fd address size offset : U64) : EmulatorProgram U64 := do
  let buffer ← copyBytesFromGuest address size.toNat
  return syscallResult (calls.pwrite (fd.setWidth 32) buffer offset)

/-! ## Vectors of buffers -/

/-- The entry of an array of `GuestIOVec`, from the bytes of the array. -/
def iovecAt (buffer : List U8) (index : Nat) : GuestIOVec :=
  GuestIOVec.ofBytes (buffer.drop (index * 16))

/-- Copy an array of `GuestIOVec` out of guest memory. -/
def copyIovecs (address : U64) (count : Nat) : EmulatorProgram (List GuestIOVec) := do
  let buffer ← copyBytesFromGuest address (count * 16)
  return (List.range count).map (iovecAt buffer)

/-- The host's buffers after `readv`: filled one after the other, zero where nothing came. -/
def fillBuffers : List Nat → List U8 → List (List U8)
  | [], _ => []
  | size :: sizes, bytes =>
      (bytes.take size ++ List.replicate (size - bytes.length) 0) ::
        fillBuffers sizes (bytes.drop size)

/-- The copying loop of `SYS_readv`: the buffers go to their places while bytes remain. -/
def scatter : List (GuestIOVec × List U8) → (remaining : Nat) → EmulatorProgram Unit
  | [], _ => pure ()
  | (entry, buffer) :: rest, remaining =>
      if remaining = 0 then pure ()
      else do
        let toCopy := min remaining buffer.length
        copyBytesToGuest entry.base (buffer.take toCopy)
        scatter rest (remaining - toCopy)

/-- `SYS_readv`. -/
def sysReadv (fd address count : U64) : EmulatorProgram U64 :=
  if count > 1024 then
    return syscallError .einval
  else do
    let entries ← copyIovecs address count.toNat
    let sizes := entries.map fun entry => entry.length.toNat
    afterHost (calls.readv (fd.setWidth 32) sizes) fun filled => do
      scatter (entries.zip (fillBuffers sizes filled.bytes)) filled.bytes.length
      return BitVec.ofNat 64 filled.bytes.length

/-- The buffers of `SYS_writev`, copied out of guest memory. -/
def gather : List GuestIOVec → EmulatorProgram (List (List U8))
  | [] => return []
  | entry :: rest => do
      let buffer ← copyBytesFromGuest entry.base entry.length.toNat
      let buffers ← gather rest
      return buffer :: buffers

/-- `SYS_writev`. -/
def sysWritev (fd address count : U64) : EmulatorProgram U64 :=
  if count > 1024 then
    return syscallError .einval
  else do
    let entries ← copyIovecs address count.toNat
    let buffers ← gather entries
    return syscallResult (calls.writev (fd.setWidth 32) buffers)

/-! ## Descriptors -/

/-- `SYS_open`. -/
def sysOpen (path flags mode : U64) : EmulatorProgram U64 := do
  let path ← readString path
  afterHost (calls.openFile path (flags.setWidth 32) (mode.setWidth 32)) (returnFd calls)

/-- `SYS_openat`. -/
def sysOpenat (dirfd path flags mode : U64) : EmulatorProgram U64 := do
  let path ← readString path
  afterHost (calls.openat (dirfd.setWidth 32) path (flags.setWidth 32) (mode.setWidth 32))
    (returnFd calls)

/-- `SYS_close`. -/
def sysClose (fd : U64) : EmulatorProgram U64 :=
  afterHost (calls.close (fd.setWidth 32)) fun _ => do
    Emulator.unregisterHostFd (fd.setWidth 32)
    return 0

/-- `SYS_dup`. -/
def sysDup (fd : U64) : EmulatorProgram U64 :=
  afterHost (calls.dup (fd.setWidth 32)) (returnFd calls)

/-- `SYS_dup2`. -/
def sysDup2 (oldFd newFd : U64) : EmulatorProgram U64 :=
  afterHost (calls.dup2 (oldFd.setWidth 32) (newFd.setWidth 32)) (returnFd calls)

/-- `SYS_dup3`. -/
def sysDup3 (oldFd newFd flags : U64) : EmulatorProgram U64 :=
  afterHost (calls.dup3 (oldFd.setWidth 32) (newFd.setWidth 32) (flags.setWidth 32))
    (returnFd calls)

/-- `SYS_pipe`. -/
def sysPipe (address : U64) : EmulatorProgram U64 :=
  afterHost calls.pipe (returnFds calls address)

/-- `SYS_pipe2`. -/
def sysPipe2 (address flags : U64) : EmulatorProgram U64 :=
  afterHost (calls.pipe2 (flags.setWidth 32)) (returnFds calls address)

def fDupfd : U64 := 0
def fDupfdCloexec : U64 := 1030

/-- `SYS_fcntl`: the commands that duplicate a descriptor register the new one. -/
def sysFcntl (fd command argument : U64) : EmulatorProgram U64 :=
  afterHost (calls.fcntl (fd.setWidth 32) (command.setWidth 32) argument) fun rc => do
    if command = fDupfd ∨ command = fDupfdCloexec then
      Emulator.registerHostFd calls (rc.setWidth 32)
    return rc

/-- `SYS_lseek`. -/
def sysLseek (fd offset whence : U64) : EmulatorProgram U64 :=
  return syscallResult (calls.lseek (fd.setWidth 32) offset (whence.setWidth 32))

/-! ## Status -/

/-- The end of the calls that return a file status. -/
def returnStat (address : U64) (st : HostStat) : EmulatorProgram U64 :=
  returnStruct address (WordRecord.bytes (convertStat st))

/-- `SYS_stat`. -/
def sysStat (path address : U64) : EmulatorProgram U64 := do
  let path ← readString path
  afterHost (calls.stat path) (returnStat address)

/-- `SYS_lstat`. -/
def sysLstat (path address : U64) : EmulatorProgram U64 := do
  let path ← readString path
  afterHost (calls.lstat path) (returnStat address)

/-- `SYS_fstat`. -/
def sysFstat (fd address : U64) : EmulatorProgram U64 :=
  afterHost (calls.fstat (fd.setWidth 32)) (returnStat address)

/-- `SYS_newfstatat`. -/
def sysNewfstatat (dirfd path address flags : U64) : EmulatorProgram U64 := do
  let path ← readOptionalString path
  afterHost (calls.newfstatat (dirfd.setWidth 32) path (flags.setWidth 32)) (returnStat address)

/-- The end of the calls that return the status of a file system. -/
def returnStatfs (address : U64) (sf : HostStatfs) : EmulatorProgram U64 :=
  returnStruct address (WordRecord.bytes (convertStatfs sf))

/-- `SYS_statfs`. -/
def sysStatfs (path address : U64) : EmulatorProgram U64 := do
  let path ← readString path
  afterHost (calls.statfs path) (returnStatfs address)

/-- `SYS_fstatfs`. -/
def sysFstatfs (fd address : U64) : EmulatorProgram U64 :=
  afterHost (calls.fstatfs (fd.setWidth 32)) (returnStatfs address)

/-- `SYS_statx`: the structure is the kernel's own and is passed on as it is. -/
def sysStatx (dirfd path flags mask address : U64) : EmulatorProgram U64 := do
  let path ← readOptionalString path
  afterHost (calls.statx (dirfd.setWidth 32) path (flags.setWidth 32) (mask.setWidth 32))
    fun stx => returnStruct address (List.ofFn stx)

/-- `SYS_access`. -/
def sysAccess (path mode : U64) : EmulatorProgram U64 := do
  let path ← readString path
  return syscallResult (calls.access path (mode.setWidth 32))

/-- `SYS_faccessat`. -/
def sysFaccessat (dirfd path mode flags : U64) : EmulatorProgram U64 := do
  let path ← readString path
  return syscallResult
    (calls.faccessat (dirfd.setWidth 32) path (mode.setWidth 32) (flags.setWidth 32))

/-! ## Attributes, links and directories -/

/-- The end of the attribute calls: a value is only copied to a buffer that has room. -/
def returnAttribute (address size : U64) (answer : Except Errno (List U8)) :
    EmulatorProgram U64 :=
  afterHost answer fun value => do
    if size ≠ 0 ∧ 0 < value.length then
      copyBytesToGuest address value
    return BitVec.ofNat 64 value.length

/-- `SYS_getxattr`. -/
def sysGetxattr (path name address size : U64) : EmulatorProgram U64 := do
  let name ← readString name
  let path ← readString path
  returnAttribute address size (calls.getxattr path name size.toNat)

/-- `SYS_lgetxattr`. -/
def sysLgetxattr (path name address size : U64) : EmulatorProgram U64 := do
  let name ← readString name
  let path ← readString path
  returnAttribute address size (calls.lgetxattr path name size.toNat)

/-- `SYS_fgetxattr`. -/
def sysFgetxattr (fd name address size : U64) : EmulatorProgram U64 := do
  let name ← readString name
  returnAttribute address size (calls.fgetxattr (fd.setWidth 32) name size.toNat)

/-- `SYS_readlink`. -/
def sysReadlink (path address size : U64) : EmulatorProgram U64 := do
  let path ← readString path
  afterHost (calls.readlink path size.toNat) fun filled => returnBytes address filled.bytes

/-- `SYS_getdents64`. -/
def sysGetdents64 (fd address size : U64) : EmulatorProgram U64 :=
  afterHost (calls.getdents64 (fd.setWidth 32) size.toNat) fun filled =>
    returnBytes address filled.bytes

/-- `SYS_getcwd`: the result counts the NUL. -/
def sysGetcwd (address size : U64) : EmulatorProgram U64 :=
  afterHost (calls.getcwd size.toNat) fun path => returnBytes address (path ++ [0])

/-! ## Device control -/

/-- How many bytes of the argument of an `ioctl` are copied. -/
def ioctlSize (request : U64) : Nat :=
  min 256
    (if request &&& 0xff00 = 0x5400 then
      if 0x5401 ≤ request ∧ request ≤ 0x5404 then 60
      else if 0x5405 ≤ request ∧ request ≤ 0x5408 then 18
      else if request = 0x5413 ∨ request = 0x5414 then 8
      else 60
    else
      let size := (request >>> 16 &&& 0x3fff).toNat
      if size = 0 then 8 else size)

/-- `copy_from_guest` whose `EmulatorError` is caught: the bytes before the first that cannot be
read. -/
def copyReadable (mmu : SoftMMU) (source : U64) : (size : Nat) → Except Raise (List U8)
  | 0 => .ok []
  | size + 1 =>
      match mmu.read8 source with
      | .ok byte => do
          let bytes ← copyReadable mmu (source + 1) size
          return byte :: bytes
      | .error (.emulatorError _) => .ok []
      | .error e => .error e

/-- The scratch buffer of `SYS_ioctl` before the host call. -/
def ioctlScratch (address : U64) (size : Nat) (mmu : SoftMMU) : Except Raise (List U8) := do
  let copied ← if mmu.isMapped address 1 then copyReadable mmu address size else .ok []
  return copied ++ List.replicate (256 - copied.length) 0

/-- A program whose `EmulatorError` is caught and ignored. -/
def ignoringErrors (program : EmulatorProgram Unit) : EmulatorProgram Unit :=
  tryCatch program fun e =>
    match e with
    | .emulatorError _ => pure ()
    | e => throw e

/-- `SYS_ioctl`: faults of the argument are ignored in both directions. -/
def sysIoctl (fd request address : U64) : EmulatorProgram U64 :=
  if address = 0 then
    return syscallResult ((calls.ioctl (fd.setWidth 32) request none).map Prod.fst)
  else do
    let size := ioctlSize request
    let scratch ← readMMU (ioctlScratch address size)
    afterHost (calls.ioctl (fd.setWidth 32) request (some scratch)) fun answer => do
      ignoringErrors (copyBytesToGuest address ((List.ofFn answer.2).take size))
      return answer.1

end LUE
