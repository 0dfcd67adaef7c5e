import LinuxUserspaceEmulator.LinuxSyscalls.HostCalls

/-!
# System calls that wait, and clocks

`poll`, `select`, `epoll` and the sleeping calls pass arrays and sets to the host and copy back
what the host made of them.
-/

namespace LUE

open StateExcept

variable (calls : HostCalls)

/-! ## Polling -/

/-- The entry of an array of `GuestPollFD`, from the bytes of the array. -/
def pollFdAt (buffer : List U8) (index : Nat) : GuestPollFD :=
  GuestPollFD.ofBytes (buffer.drop (index * 8))

/-- Copy an array of `GuestPollFD` out of guest memory. -/
def copyPollFds (address : U64) (count : Nat) : EmulatorProgram (List GuestPollFD) :=
  if count ≠ 0 then do
    let buffer ← copyBytesFromGuest address (count * 8)
    return (List.range count).map (pollFdAt buffer)
  else
    return []

/-- The entries with the returned events of the host. -/
def withRevents (fds : List GuestPollFD) (revents : Nat → BitVec 16) : List GuestPollFD :=
  fds.mapIdx fun i entry => { entry with revents := revents i }

/-- Copy the entries back and return the number of ready ones. -/
def returnPollFds (address : U64) (fds : List GuestPollFD)
    (answer : U64 × (Nat → BitVec 16)) : EmulatorProgram U64 := do
  if fds.length ≠ 0 then
    copyBytesToGuest address ((withRevents fds answer.2).flatMap GuestPollFD.bytes)
  return answer.1

/-- `SYS_poll`. -/
def sysPoll (address count timeout : U64) : EmulatorProgram U64 :=
  if count > 4096 then
    return syscallError .einval
  else do
    let fds ← copyPollFds address count.toNat
    afterHost (calls.poll fds (timeout.setWidth 32)) (returnPollFds address fds)

/-- `SYS_ppoll`; the signal mask is not passed on. -/
def sysPpoll (address count timeout : U64) : EmulatorProgram U64 :=
  if count > 4096 then
    return syscallError .einval
  else do
    let fds ← copyPollFds address count.toNat
    let timeout ← copyOptional timeout 16
    afterHost (calls.ppoll fds (timeout.map GuestTimespec.ofBytes)) (returnPollFds address fds)

/-! ## Descriptor sets -/

/-- The body that `SYS_select` and `SYS_pselect6` share, for either kind of timeout. -/
def selectWith {Time : Type} (ofBytes : List U8 → Time) (bytes : Time → List U8)
    (select : Option (List U8) → Option (List U8) → Option (List U8) → Option Time →
      Except Errno (SelectAnswer Time))
    (readfds writefds exceptfds timeout : U64) : EmulatorProgram U64 := do
  let readSet ← copyOptional readfds 128
  let writeSet ← copyOptional writefds 128
  let exceptSet ← copyOptional exceptfds 128
  let limit ← copyOptional timeout 16
  afterHost (select readSet writeSet exceptSet (limit.map ofBytes)) fun answer => do
    copyToOptional readfds (List.ofFn answer.readfds)
    copyToOptional writefds (List.ofFn answer.writefds)
    copyToOptional exceptfds (List.ofFn answer.exceptfds)
    copyToOptional timeout (bytes answer.timeout)
    return answer.ready

/-- `SYS_select`. -/
def sysSelect (limit readfds writefds exceptfds timeout : U64) : EmulatorProgram U64 :=
  selectWith GuestTimeval.ofBytes GuestTimeval.bytes (calls.select (limit.setWidth 32)) readfds
    writefds exceptfds timeout

/-- `SYS_pselect6`; the signal mask is not passed on. -/
def sysPselect6 (limit readfds writefds exceptfds timeout : U64) : EmulatorProgram U64 :=
  selectWith GuestTimespec.ofBytes GuestTimespec.bytes (calls.pselect6 (limit.setWidth 32))
    readfds writefds exceptfds timeout

/-! ## Event queues -/

/-- `SYS_epoll_create1`. -/
def sysEpollCreate1 (flags : U64) : EmulatorProgram U64 :=
  afterHost (calls.epollCreate1 (flags.setWidth 32)) (returnFd calls)

/-- `SYS_epoll_ctl`. -/
def sysEpollCtl (epfd operation fd event : U64) : EmulatorProgram U64 := do
  let event ← copyOptional event 12
  return syscallResult
    (calls.epollCtl (epfd.setWidth 32) (operation.setWidth 32) (fd.setWidth 32) event)

/-- The end of the calls that wait for events. -/
def returnEvents (address : U64) (events : List EpollEvent) : EmulatorProgram U64 := do
  copyBytesToGuest address (events.flatMap fun event => List.ofFn event)
  return BitVec.ofNat 64 events.length

/-- `SYS_epoll_wait`. -/
def sysEpollWait (epfd address maxEvents timeout : U64) : EmulatorProgram U64 :=
  afterHost
    (calls.epollWait (epfd.setWidth 32) (maxEvents.setWidth 32) (timeout.setWidth 32))
    (returnEvents address)

/-- `SYS_epoll_pwait`; the signal mask is not passed on. -/
def sysEpollPwait (epfd address maxEvents timeout : U64) : EmulatorProgram U64 :=
  afterHost
    (calls.epollPwait (epfd.setWidth 32) (maxEvents.setWidth 32) (timeout.setWidth 32))
    (returnEvents address)

/-! ## Clocks -/

/-- `SYS_clock_gettime`. -/
def sysClockGettime (clock address : U64) : EmulatorProgram U64 :=
  afterHost (calls.clockGettime (clock.setWidth 32)) fun time => returnStruct address time.bytes

/-- The body of the sleeping calls: the request comes from guest memory, the time that remains
goes back when it is asked for. -/
def sleepWith (sleep : GuestTimespec → Except Errno GuestTimespec) (request remain : U64) :
    EmulatorProgram U64 := do
  let buffer ← copyBytesFromGuest request 16
  afterHost (sleep (GuestTimespec.ofBytes buffer)) fun time => do
    copyToOptional remain time.bytes
    return 0

/-- `SYS_clock_nanosleep`. -/
def sysClockNanosleep (clock flags request remain : U64) : EmulatorProgram U64 :=
  sleepWith (calls.clockNanosleep (clock.setWidth 32) (flags.setWidth 32)) request remain

/-- `SYS_nanosleep`. -/
def sysNanosleep (request remain : U64) : EmulatorProgram U64 :=
  sleepWith calls.nanosleep request remain

/-- `SYS_gettimeofday`. -/
def sysGettimeofday (address : U64) : EmulatorProgram U64 :=
  afterHost calls.gettimeofday fun time => do
    copyToOptional address time.bytes
    return 0

/-- `SYS_time`. -/
def sysTime (address : U64) : EmulatorProgram U64 :=
  afterHost calls.time fun now => do
    if address ≠ 0 then
      onMMU (SoftMMU.write64 address now)
    return now

end LUE
