import LinuxUserspaceEmulator.LinuxSyscalls.Dispatch
import LinuxUserspaceEmulator.LinuxSyscalls.GuestStructs

/-!
# What system calls ask of the host

Most system calls copy their arguments out of guest memory, call the host function of the same
name, and copy its results back.  The host's answers are a parameter: for each host function
what it returns, or the error number it sets.  This file has the answers, the descriptor table,
and the patterns that the calls share.
-/

namespace LUE

open StateExcept

/-! ## Answers -/

instance instInhabitedErrno : Inhabited Errno :=
  ⟨.einval⟩

/-- What the host puts at the start of a buffer of a given size. -/
structure Filled (size : Nat) where
  bytes : List U8
  length_le : bytes.length ≤ size

/-- What the host makes of a socket address buffer and of its length. -/
structure SockaddrAnswer where
  bytes : Nat → U8
  length : BitVec 32

/-- What the host makes of the descriptor sets and of the timeout of a `select`. -/
structure SelectAnswer (Time : Type) where
  ready : U64
  readfds : Fin 128 → U8
  writefds : Fin 128 → U8
  exceptfds : Fin 128 → U8
  timeout : Time

/-- An `epoll_event`, which is packed. -/
abbrev EpollEvent := Fin 12 → U8

/-- The host functions behind the system calls, named as in C.  Paths and names are the bytes of
C strings, an argument that may be a null pointer is an option. -/
structure HostCalls where
  /-- The target of `/proc/self/fd/N`. -/
  pathFromHostFd : BitVec 32 → Option String
  read : (fd : BitVec 32) → (size : Nat) → Except Errno (Filled size)
  write : (fd : BitVec 32) → List U8 → Except Errno U64
  /-- The bytes read, in the order in which they fill the buffers. -/
  readv : (fd : BitVec 32) → (sizes : List Nat) → Except Errno (Filled sizes.sum)
  writev : (fd : BitVec 32) → List (List U8) → Except Errno U64
  pwrite : (fd : BitVec 32) → List U8 → (offset : U64) → Except Errno U64
  openFile : (path : List U8) → (flags mode : BitVec 32) → Except Errno (BitVec 32)
  openat : (dirfd : BitVec 32) → (path : List U8) → (flags mode : BitVec 32) →
    Except Errno (BitVec 32)
  close : (fd : BitVec 32) → Except Errno Unit
  dup : (fd : BitVec 32) → Except Errno (BitVec 32)
  dup2 : (oldFd newFd : BitVec 32) → Except Errno (BitVec 32)
  dup3 : (oldFd newFd flags : BitVec 32) → Except Errno (BitVec 32)
  pipe : Except Errno (BitVec 32 × BitVec 32)
  pipe2 : (flags : BitVec 32) → Except Errno (BitVec 32 × BitVec 32)
  fcntl : (fd command : BitVec 32) → (argument : U64) → Except Errno U64
  lseek : (fd : BitVec 32) → (offset : U64) → (whence : BitVec 32) → Except Errno U64
  stat : (path : List U8) → Except Errno HostStat
  lstat : (path : List U8) → Except Errno HostStat
  fstat : (fd : BitVec 32) → Except Errno HostStat
  newfstatat : (dirfd : BitVec 32) → (path : Option (List U8)) → (flags : BitVec 32) →
    Except Errno HostStat
  statfs : (path : List U8) → Except Errno HostStatfs
  fstatfs : (fd : BitVec 32) → Except Errno HostStatfs
  statx : (dirfd : BitVec 32) → (path : Option (List U8)) → (flags mask : BitVec 32) →
    Except Errno (Fin 256 → U8)
  /-- The value of the attribute; asked for no bytes the host returns its length only. -/
  getxattr : (path name : List U8) → (size : Nat) → Except Errno (List U8)
  lgetxattr : (path name : List U8) → (size : Nat) → Except Errno (List U8)
  fgetxattr : (fd : BitVec 32) → (name : List U8) → (size : Nat) → Except Errno (List U8)
  access : (path : List U8) → (mode : BitVec 32) → Except Errno U64
  faccessat : (dirfd : BitVec 32) → (path : List U8) → (mode flags : BitVec 32) →
    Except Errno U64
  readlink : (path : List U8) → (size : Nat) → Except Errno (Filled size)
  getdents64 : (fd : BitVec 32) → (size : Nat) → Except Errno (Filled size)
  /-- The path of the working directory, without the NUL. -/
  getcwd : (size : Nat) → Except Errno (List U8)
  /-- The result, and what is in the argument buffer afterwards. -/
  ioctl : (fd : BitVec 32) → (request : U64) → (argument : Option (List U8)) →
    Except Errno (U64 × (Fin 256 → U8))
  /-- The number of ready descriptors, and the returned events of each entry. -/
  poll : (fds : List GuestPollFD) → (timeout : BitVec 32) →
    Except Errno (U64 × (Nat → BitVec 16))
  ppoll : (fds : List GuestPollFD) → (timeout : Option GuestTimespec) →
    Except Errno (U64 × (Nat → BitVec 16))
  select : (limit : BitVec 32) → (readfds writefds exceptfds : Option (List U8)) →
    (timeout : Option GuestTimeval) → Except Errno (SelectAnswer GuestTimeval)
  pselect6 : (limit : BitVec 32) → (readfds writefds exceptfds : Option (List U8)) →
    (timeout : Option GuestTimespec) → Except Errno (SelectAnswer GuestTimespec)
  epollCreate1 : (flags : BitVec 32) → Except Errno (BitVec 32)
  epollCtl : (epfd operation fd : BitVec 32) → (event : Option (List U8)) → Except Errno U64
  epollWait : (epfd maxEvents timeout : BitVec 32) → Except Errno (List EpollEvent)
  epollPwait : (epfd maxEvents timeout : BitVec 32) → Except Errno (List EpollEvent)
  socket : (domain type protocol : BitVec 32) → Except Errno (BitVec 32)
  socketpair : (domain type protocol : BitVec 32) → Except Errno (BitVec 32 × BitVec 32)
  bind : (fd : BitVec 32) → (address : List U8) → Except Errno U64
  listen : (fd backlog : BitVec 32) → Except Errno U64
  /-- The arguments say whether there is an address buffer, and the length passed. -/
  accept : (fd : BitVec 32) → Bool → Option U64 → Except Errno (BitVec 32 × SockaddrAnswer)
  accept4 : (fd : BitVec 32) → Bool → Option U64 → (flags : BitVec 32) →
    Except Errno (BitVec 32 × SockaddrAnswer)
  connect : (fd : BitVec 32) → (address : List U8) → Except Errno U64
  getsockname : (fd : BitVec 32) → Bool → Option U64 → Except Errno SockaddrAnswer
  getpeername : (fd : BitVec 32) → Bool → Option U64 → Except Errno SockaddrAnswer
  setsockopt : (fd level name : BitVec 32) → (value : List U8) → Except Errno U64
  getsockopt : (fd level name : BitVec 32) → (length : U64) → Except Errno SockaddrAnswer
  sendto : (fd : BitVec 32) → List U8 → (flags : BitVec 32) → (address : Option (List U8)) →
    Except Errno U64
  recvfrom : (fd : BitVec 32) → (size : Nat) → (flags : BitVec 32) → Bool → Option U64 →
    Except Errno (Filled size × SockaddrAnswer)
  shutdown : (fd how : BitVec 32) → Except Errno U64
  clockGettime : (clock : BitVec 32) → Except Errno GuestTimespec
  /-- The answers of the sleeping calls are the time that remains. -/
  clockNanosleep : (clock flags : BitVec 32) → (request : GuestTimespec) →
    Except Errno GuestTimespec
  nanosleep : (request : GuestTimespec) → Except Errno GuestTimespec
  gettimeofday : Except Errno GuestTimeval
  time : Except Errno U64
  getrandom : (size : Nat) → (flags : BitVec 32) → Except Errno (Filled size)
  uname : Except Errno HostUtsname
  /-- The answer is the limit before the call. -/
  prlimit64 : (pid resource : BitVec 32) → (newLimit : Option GuestRLimit64) →
    Except Errno GuestRLimit64
  getppid : U64
  getpgid : (pid : BitVec 32) → Except Errno U64
  getpgrp : U64
  getuid : U64
  geteuid : U64
  getgid : U64
  getegid : U64
deriving Inhabited

/-! ## Copying -/

/-- The bytes `copy_from_guest` and `copy_buffer_from_guest` copy. -/
def SoftMMU.copyBufferFromGuest (source : U64) (size : Nat) (mmu : SoftMMU) :
    Except Raise (List U8) :=
  (List.range size).mapM fun i => mmu.read8 (source + BitVec.ofNat 64 i)

/-- `copy_buffer_from_guest`. -/
def copyBytesFromGuest (source : U64) (size : Nat) : EmulatorProgram (List U8) :=
  readMMU (SoftMMU.copyBufferFromGuest source size)

/-- `copy_from_guest` of an argument that may be a null pointer. -/
def copyOptional (address : U64) (size : Nat) : EmulatorProgram (Option (List U8)) :=
  if address ≠ 0 then do
    let bytes ← copyBytesFromGuest address size
    return some bytes
  else
    return none

/-- `copy_to_guest`. -/
def copyBytesToGuest (destination : U64) (source : List U8) : EmulatorProgram Unit :=
  onMMU (SoftMMU.copyToGuest destination source)

/-- `copy_to_guest` to a result pointer that may be null. -/
def copyToOptional (destination : U64) (source : List U8) : EmulatorProgram Unit :=
  if destination ≠ 0 then copyBytesToGuest destination source else pure ()

/-- The default limit of `read_c_string`. -/
def stringLimit : Nat :=
  1024 * 1024

/-- `read_c_string`. -/
def readString (address : U64) : EmulatorProgram (List U8) :=
  readMMU (SoftMMU.readCString address stringLimit)

/-- A path that may be a null pointer. -/
def readOptionalString (address : U64) : EmulatorProgram (Option (List U8)) :=
  if address ≠ 0 then do
    let path ← readString address
    return some path
  else
    return none

/-! ## The descriptor table -/

namespace Emulator

/-- `register_host_fd`: a descriptor without a path keeps the entry it had. -/
def registerHostFd (calls : HostCalls) (guestFd : BitVec 32) : EmulatorProgram Unit :=
  match calls.pathFromHostFd guestFd with
  | some path =>
      modify fun emulator =>
        { emulator with fdPaths := Function.update emulator.fdPaths guestFd (some path) }
  | none => pure ()

/-- `unregister_host_fd`. -/
def unregisterHostFd (guestFd : BitVec 32) : EmulatorProgram Unit :=
  modify fun emulator =>
    { emulator with fdPaths := Function.update emulator.fdPaths guestFd none }

end Emulator

/-! ## Patterns -/

/-- What follows a host function that succeeded; a failure is the result of the call. -/
def afterHost {α : Type} (answer : Except Errno α) (rest : α → EmulatorProgram U64) :
    EmulatorProgram U64 :=
  match answer with
  | .ok a => rest a
  | .error errno => return syscallError errno

/-- The end of the calls that fill a buffer: copy what came, return how much. -/
def returnBytes (destination : U64) (bytes : List U8) : EmulatorProgram U64 := do
  copyBytesToGuest destination bytes
  return BitVec.ofNat 64 bytes.length

/-- The end of the calls that fill a structure. -/
def returnStruct (destination : U64) (bytes : List U8) : EmulatorProgram U64 := do
  copyBytesToGuest destination bytes
  return 0

/-- The end of the calls that open a descriptor. -/
def returnFd (calls : HostCalls) (fd : BitVec 32) : EmulatorProgram U64 := do
  Emulator.registerHostFd calls fd
  return fd.setWidth 64

/-- `write_guest_fds`, of two descriptors. -/
def writeGuestFds (calls : HostCalls) (address : U64) (fds : BitVec 32 × BitVec 32) :
    EmulatorProgram Unit := do
  onMMU (SoftMMU.write32 address (fds.1.setWidth 64))
  Emulator.registerHostFd calls fds.1
  onMMU (SoftMMU.write32 (address + 4) (fds.2.setWidth 64))
  Emulator.registerHostFd calls fds.2

/-- The end of the calls that open two descriptors. -/
def returnFds (calls : HostCalls) (address : U64) (fds : BitVec 32 × BitVec 32) :
    EmulatorProgram U64 := do
  writeGuestFds calls address fds
  return 0

end LUE
