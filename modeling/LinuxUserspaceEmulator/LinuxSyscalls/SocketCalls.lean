import LinuxUserspaceEmulator.LinuxSyscalls.HostCalls

/-!
# System calls on sockets

Socket addresses are buffers with a length that the host may change; the emulator copies back
at most as many bytes as the guest said its buffer has.
-/

namespace LUE

open StateExcept

variable (calls : HostCalls)

/-! ## Socket addresses -/

/-- `optional_sockaddr_from_guest`. -/
def optionalSockaddrFromGuest (address length : U64) : EmulatorProgram (List U8) :=
  if address = 0 ∨ length = 0 then
    return []
  else
    copyBytesFromGuest address (stdMin length 4096).toNat

/-- The length that the guest passes for an address buffer; without a place for it, zero. -/
def readSocklen (lengthAddress : U64) : EmulatorProgram U64 :=
  if lengthAddress ≠ 0 then readMMU fun mmu => mmu.read32 lengthAddress else return 0

/-- The length as it is passed to the host: a pointer when the guest passed one. -/
def socklenArgument (lengthAddress length : U64) : Option U64 :=
  if lengthAddress ≠ 0 then some length else none

/-- The address buffer after the host call: as long as the guest said, untouched when the guest
passed no buffer. -/
def SockaddrAnswer.buffer (answer : SockaddrAnswer) (address length : U64) : List U8 :=
  (List.range length.toNat).map fun i => if address ≠ 0 then answer.bytes i else 0

/-- The length after the host call. -/
def SockaddrAnswer.lengthAfter (answer : SockaddrAnswer) (lengthAddress length : U64) : U64 :=
  if lengthAddress ≠ 0 then answer.length.setWidth 64 else length

/-- `copy_sockaddr_to_guest`. -/
def copySockaddrToGuest (address lengthAddress : U64) (buffer : List U8) (length : U64) :
    EmulatorProgram Unit := do
  if address ≠ 0 ∧ length ≠ 0 then
    copyBytesToGuest address (buffer.take length.toNat)
  if lengthAddress ≠ 0 then
    onMMU (SoftMMU.write32 lengthAddress length)

/-- Copy back what the host made of an address buffer and its length. -/
def returnSockaddr (address lengthAddress length : U64) (answer : SockaddrAnswer) :
    EmulatorProgram Unit :=
  copySockaddrToGuest address lengthAddress (answer.buffer address length)
    (answer.lengthAfter lengthAddress length)

/-! ## Connections -/

/-- `SYS_socket`. -/
def sysSocket (domain type protocol : U64) : EmulatorProgram U64 :=
  afterHost (calls.socket (domain.setWidth 32) (type.setWidth 32) (protocol.setWidth 32))
    (returnFd calls)

/-- `SYS_socketpair`. -/
def sysSocketpair (domain type protocol address : U64) : EmulatorProgram U64 :=
  afterHost (calls.socketpair (domain.setWidth 32) (type.setWidth 32) (protocol.setWidth 32))
    (returnFds calls address)

/-- `SYS_bind`. -/
def sysBind (fd address length : U64) : EmulatorProgram U64 := do
  let address ← optionalSockaddrFromGuest address length
  return syscallResult (calls.bind (fd.setWidth 32) address)

/-- `SYS_listen`. -/
def sysListen (fd backlog : U64) : EmulatorProgram U64 :=
  return syscallResult (calls.listen (fd.setWidth 32) (backlog.setWidth 32))

/-- `SYS_connect`. -/
def sysConnect (fd address length : U64) : EmulatorProgram U64 := do
  let address ← optionalSockaddrFromGuest address length
  return syscallResult (calls.connect (fd.setWidth 32) address)

/-- The body of the accepting calls. -/
def acceptWith
    (accept : Bool → Option U64 → Except Errno (BitVec 32 × SockaddrAnswer))
    (address lengthAddress : U64) : EmulatorProgram U64 := do
  let length ← readSocklen lengthAddress
  afterHost (accept (address ≠ 0) (socklenArgument lengthAddress length)) fun answer => do
    Emulator.registerHostFd calls answer.1
    returnSockaddr address lengthAddress length answer.2
    return answer.1.setWidth 64

/-- `SYS_accept`. -/
def sysAccept (fd address lengthAddress : U64) : EmulatorProgram U64 :=
  acceptWith calls (calls.accept (fd.setWidth 32)) address lengthAddress

/-- `SYS_accept4`. -/
def sysAccept4 (fd address lengthAddress flags : U64) : EmulatorProgram U64 :=
  acceptWith calls
    (fun wanted length => calls.accept4 (fd.setWidth 32) wanted length (flags.setWidth 32))
    address lengthAddress

/-- The body of the calls that return the name of a socket. -/
def sockNameWith (name : Bool → Option U64 → Except Errno SockaddrAnswer)
    (address lengthAddress : U64) : EmulatorProgram U64 := do
  let length ← readSocklen lengthAddress
  afterHost (name (address ≠ 0) (socklenArgument lengthAddress length)) fun answer => do
    returnSockaddr address lengthAddress length answer
    return 0

/-- `SYS_getsockname`. -/
def sysGetsockname (fd address lengthAddress : U64) : EmulatorProgram U64 :=
  sockNameWith (calls.getsockname (fd.setWidth 32)) address lengthAddress

/-- `SYS_getpeername`. -/
def sysGetpeername (fd address lengthAddress : U64) : EmulatorProgram U64 :=
  sockNameWith (calls.getpeername (fd.setWidth 32)) address lengthAddress

/-- `SYS_shutdown`. -/
def sysShutdown (fd how : U64) : EmulatorProgram U64 :=
  return syscallResult (calls.shutdown (fd.setWidth 32) (how.setWidth 32))

/-! ## Options -/

/-- `SYS_setsockopt`. -/
def sysSetsockopt (fd level name value size : U64) : EmulatorProgram U64 := do
  let value ← copyOptional value size.toNat
  return syscallResult (calls.setsockopt (fd.setWidth 32) (level.setWidth 32)
    (name.setWidth 32) (value.getD []))

/-- `SYS_getsockopt`: the host always gets a buffer and a length. -/
def sysGetsockopt (fd level name value lengthAddress : U64) : EmulatorProgram U64 := do
  let length ← readSocklen lengthAddress
  afterHost (calls.getsockopt (fd.setWidth 32) (level.setWidth 32) (name.setWidth 32) length)
    fun answer => do
      let buffer := (List.range length.toNat).map answer.bytes
      copyToOptional value (buffer.take answer.length.toNat)
      if lengthAddress ≠ 0 then
        onMMU (SoftMMU.write32 lengthAddress (answer.length.setWidth 64))
      return 0

/-! ## Messages -/

/-- `SYS_sendto`: an empty address is passed as none. -/
def sysSendto (fd buffer size flags address length : U64) : EmulatorProgram U64 := do
  let data ← copyBytesFromGuest buffer size.toNat
  let address ← optionalSockaddrFromGuest address length
  return syscallResult (calls.sendto (fd.setWidth 32) data (flags.setWidth 32)
    (if address.isEmpty then none else some address))

/-- `SYS_recvfrom`. -/
def sysRecvfrom (fd buffer size flags address lengthAddress : U64) : EmulatorProgram U64 := do
  let length ← readSocklen lengthAddress
  afterHost (calls.recvfrom (fd.setWidth 32) size.toNat (flags.setWidth 32) (address ≠ 0)
    (socklenArgument lengthAddress length)) fun answer => do
      copyBytesToGuest buffer answer.1.bytes
      returnSockaddr address lengthAddress length answer.2
      return BitVec.ofNat 64 answer.1.bytes.length

end LUE
