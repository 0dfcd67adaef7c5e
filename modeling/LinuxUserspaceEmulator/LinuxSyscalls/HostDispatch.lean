import LinuxUserspaceEmulator.LinuxSyscalls.FileCalls
import LinuxUserspaceEmulator.LinuxSyscalls.SocketCalls
import LinuxUserspaceEmulator.LinuxSyscalls.WaitCalls

/-!
# The system calls that the host serves

The remaining calls, and the part of `LinuxSyscalls::dispatch` that hands calls to the host.
`Host.serving` is a host whose system calls are these.
-/

namespace LUE

open StateExcept

namespace Errno

def echild : Errno := ⟨10, by decide, by decide⟩
def eagain : Errno := ⟨11, by decide, by decide⟩
def enosys : Errno := ⟨38, by decide, by decide⟩

end Errno

variable (calls : HostCalls)

/-! ## Processes and the system -/

/-- `SYS_getpgid`. -/
def sysGetpgid (pid : U64) : EmulatorProgram U64 :=
  return syscallResult (calls.getpgid (pid.setWidth 32))

/-- `SYS_getrandom`. -/
def sysGetrandom (address size flags : U64) : EmulatorProgram U64 :=
  afterHost (calls.getrandom size.toNat (flags.setWidth 32)) fun filled =>
    returnBytes address filled.bytes

/-- `SYS_uname`. -/
def sysUname (address : U64) : EmulatorProgram U64 :=
  afterHost calls.uname fun host => returnStruct address (guestUtsname host)

/-- `SYS_prlimit64`. -/
def sysPrlimit64 (pid resource newLimit oldLimit : U64) : EmulatorProgram U64 := do
  let limit ← copyOptional newLimit 16
  afterHost (calls.prlimit64 (pid.setWidth 32) (resource.setWidth 32)
    (limit.map GuestRLimit64.ofBytes)) fun limit => do
      copyToOptional oldLimit limit.bytes
      return 0

/-- `SYS_futex`: nobody else runs, so nobody is woken and waiting would never end. -/
def sysFutex (operation : U64) : EmulatorProgram U64 :=
  let futexOp := operation &&& 0x7f
  if futexOp = 1 then return 0
  else if futexOp = 0 then return syscallError .eagain
  else return syscallError .enosys

/-! ## Dispatch -/

/-- The cases of `LinuxSyscalls::dispatch` beside those of the memory map, the signals, the
segment bases and the exits.  `syscall_name` knows no other calls than the switch does. -/
def hostSyscall (host : Host) (number arg1 arg2 arg3 arg4 arg5 arg6 : U64) :
    EmulatorProgram U64 :=
  match number.toNat with
  | 0 => sysRead calls arg1 arg2 arg3
  | 1 => sysWrite calls arg1 arg2 arg3
  | 2 => sysOpen calls arg1 arg2 arg3
  | 3 => sysClose calls arg1
  | 4 => sysStat calls arg1 arg2
  | 5 => sysFstat calls arg1 arg2
  | 6 => sysLstat calls arg1 arg2
  | 7 => sysPoll calls arg1 arg2 arg3
  | 8 => sysLseek calls arg1 arg2 arg3
  | 16 => sysIoctl calls arg1 arg2 arg3
  | 17 => sysPread64 host.files arg1 arg2 arg3 arg4
  | 18 => sysPwrite64 calls arg1 arg2 arg3 arg4
  | 19 => sysReadv calls arg1 arg2 arg3
  | 20 => sysWritev calls arg1 arg2 arg3
  | 21 => sysAccess calls arg1 arg2
  | 22 => sysPipe calls arg1
  | 23 => sysSelect calls arg1 arg2 arg3 arg4 arg5
  | 32 => sysDup calls arg1
  | 33 => sysDup2 calls arg1 arg2
  | 35 => sysNanosleep calls arg1 arg2
  | 39 => return host.pid.setWidth 64
  | 41 => sysSocket calls arg1 arg2 arg3
  | 42 => sysConnect calls arg1 arg2 arg3
  | 43 => sysAccept calls arg1 arg2 arg3
  | 44 => sysSendto calls arg1 arg2 arg3 arg4 arg5 arg6
  | 45 => sysRecvfrom calls arg1 arg2 arg3 arg4 arg5 arg6
  | 48 => sysShutdown calls arg1 arg2
  | 49 => sysBind calls arg1 arg2 arg3
  | 50 => sysListen calls arg1 arg2
  | 51 => sysGetsockname calls arg1 arg2 arg3
  | 52 => sysGetpeername calls arg1 arg2 arg3
  | 53 => sysSocketpair calls arg1 arg2 arg3 arg4
  | 54 => sysSetsockopt calls arg1 arg2 arg3 arg4 arg5
  | 55 => sysGetsockopt calls arg1 arg2 arg3 arg4 arg5
  | 61 => return syscallError .echild
  -- clone, fork, vfork and execve
  | 56 | 57 | 58 | 59 => return syscallError .enosys
  | 63 => sysUname calls arg1
  | 72 => sysFcntl calls arg1 arg2 arg3
  | 79 => sysGetcwd calls arg1 arg2
  | 89 => sysReadlink calls arg1 arg2 arg3
  | 96 => sysGettimeofday calls arg1
  | 102 => return calls.getuid
  | 104 => return calls.getgid
  | 107 => return calls.geteuid
  | 108 => return calls.getegid
  | 110 => return calls.getppid
  | 111 => return calls.getpgrp
  | 121 => sysGetpgid calls arg1
  | 137 => sysStatfs calls arg1 arg2
  | 138 => sysFstatfs calls arg1 arg2
  -- gettid and set_tid_address
  | 186 | 218 => return host.tid.setWidth 64
  | 191 => sysGetxattr calls arg1 arg2 arg3 arg4
  | 192 => sysLgetxattr calls arg1 arg2 arg3 arg4
  | 193 => sysFgetxattr calls arg1 arg2 arg3 arg4
  | 201 => sysTime calls arg1
  | 202 => sysFutex arg2
  | 217 => sysGetdents64 calls arg1 arg2 arg3
  | 228 => sysClockGettime calls arg1 arg2
  | 230 => sysClockNanosleep calls arg1 arg2 arg3 arg4
  | 232 => sysEpollWait calls arg1 arg2 arg3 arg4
  | 233 => sysEpollCtl calls arg1 arg2 arg3 arg4
  | 257 => sysOpenat calls arg1 arg2 arg3 arg4
  | 262 => sysNewfstatat calls arg1 arg2 arg3 arg4
  | 269 => sysFaccessat calls arg1 arg2 arg3 arg4
  | 270 => sysPselect6 calls arg1 arg2 arg3 arg4 arg5
  | 271 => sysPpoll calls arg1 arg2 arg3
  -- set_robust_list
  | 273 => return 0
  | 281 => sysEpollPwait calls arg1 arg2 arg3 arg4
  | 288 => sysAccept4 calls arg1 arg2 arg3 arg4
  | 291 => sysEpollCreate1 calls arg1
  | 292 => sysDup3 calls arg1 arg2 arg3
  | 293 => sysPipe2 calls arg1 arg2
  | 302 => sysPrlimit64 calls arg1 arg2 arg3 arg4
  | 318 => sysGetrandom calls arg1 arg2 arg3
  | 332 => sysStatx calls arg1 arg2 arg3 arg4 arg5
  -- rseq
  | 334 => return syscallError .enosys
  | unknown =>
      throw (.emulatorError ("unimplemented syscall " ++ toString unknown ++ " (unknown)"))

/-- The calls with the arguments in their registers. -/
def hostSyscalls (host : Host) (number : U64) : EmulatorProgram U64 := do
  let cpu ← getCPU
  hostSyscall calls host number (cpu.reg .rdi) (cpu.reg .rsi) (cpu.reg .rdx) (cpu.reg .r10)
    (cpu.reg .r8) (cpu.reg .r9)

/-- The host with its system calls served as the emulator does. -/
def Host.serving (host : Host) (calls : HostCalls) : Host :=
  { host with otherSyscalls := hostSyscalls calls host }

end LUE
