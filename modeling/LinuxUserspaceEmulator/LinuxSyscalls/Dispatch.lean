import LinuxUserspaceEmulator.Emulator.Signals
import LinuxUserspaceEmulator.LinuxSyscalls.MemoryMap
import LinuxUserspaceEmulator.SoftCPU64.HostFloat

/-!
# System-call dispatch

`handle_syscall` and `LinuxSyscalls::dispatch`: the memory-map calls, the signal calls, the
segment bases and the exits are executed by the emulator itself.  The calls that only hand
their arguments to the host are a parameter.
-/

namespace LUE

open StateExcept

/-! ## The host -/

/-- What the emulator asks of the host while it executes one instruction. -/
structure Host where
  files : HostFiles
  float : HostFloat
  /-- `std::chrono::steady_clock::now()`. -/
  steadyClock : U64
  pid : BitVec 32
  tid : BitVec 32
  /-- The system calls that work on host objects, with their effect on the guest. -/
  otherSyscalls : U64 → EmulatorProgram U64

/-! ## Arguments and results -/

namespace SyscallNumber

def mmap : U64 := 9
def mprotect : U64 := 10
def munmap : U64 := 11
def brk : U64 := 12
def rtSigaction : U64 := 13
def rtSigprocmask : U64 := 14
def rtSigreturn : U64 := 15
def mremap : U64 := 25
def exit : U64 := 60
def kill : U64 := 62
def archPrctl : U64 := 158
def tkill : U64 := 200
def exitGroup : U64 := 231
def tgkill : U64 := 234

end SyscallNumber

def archSetGs : U64 := 0x1001
def archSetFs : U64 := 0x1002
def archGetFs : U64 := 0x1003
def archGetGs : U64 := 0x1004

/-- `static_cast<int>` of an argument. -/
def intArgument (arg : U64) : Int :=
  (arg.setWidth 32).toInt

/-- The result of a member function that returns 0 or a negated error number. -/
def statusResult : Except Errno Unit → U64
  | .ok () => 0
  | .error errno => syscallError errno

/-! ## Signal calls -/

/-- `GuestSigAction`, read byte by byte. -/
def readSigAction (address : U64) (mmu : SoftMMU) : Except Raise SignalAction := do
  let handler ← mmu.read64 address
  let flags ← mmu.read64 (address + 8)
  let restorer ← mmu.read64 (address + 16)
  let mask ← mmu.read64 (address + 24)
  return ⟨handler, flags, restorer, mask⟩

/-- `SYS_rt_sigaction`. -/
def sysRtSigaction (signum actionAddress oldAction size : U64) : EmulatorProgram U64 :=
  if size ≠ 8 then
    return syscallError .einval
  else do
    let action ←
      if actionAddress ≠ 0 then readMMU (readSigAction actionAddress) else pure {}
    let status ← Emulator.setSignalAction (intArgument signum) (actionAddress ≠ 0) action
      oldAction
    return statusResult status

/-- `SYS_rt_sigprocmask`. -/
def sysRtSigprocmask (how set oldSet size : U64) : EmulatorProgram U64 :=
  if size ≠ 8 then
    return syscallError .einval
  else do
    let status ← Emulator.setSignalMask (intArgument how) set oldSet
    return statusResult status

/-- The common end of the calls that send a signal: signal 0 only tests. -/
def sendSignal (signum : U64) : EmulatorProgram U64 :=
  if signum = 0 then
    return 0
  else do
    let status ← Emulator.deliverSignal (intArgument signum)
    return statusResult status

/-- `SYS_kill`. -/
def sysKill (host : Host) (pid signum : U64) : EmulatorProgram U64 :=
  if pid ≠ 0 ∧ pid.setWidth 32 ≠ host.pid then
    return syscallError .esrch
  else sendSignal signum

/-- `SYS_tkill`. -/
def sysTkill (host : Host) (tid signum : U64) : EmulatorProgram U64 :=
  if tid.setWidth 32 ≠ host.tid then
    return syscallError .esrch
  else sendSignal signum

/-- `SYS_tgkill`. -/
def sysTgkill (host : Host) (pid tid signum : U64) : EmulatorProgram U64 :=
  if pid.setWidth 32 ≠ host.pid ∨ tid.setWidth 32 ≠ host.tid then
    return syscallError .esrch
  else sendSignal signum

/-! ## Segment bases -/

/-- `SYS_arch_prctl`. -/
def sysArchPrctl (code address : U64) : EmulatorProgram U64 := do
  let cpu ← getCPU
  if code = archSetFs then
    modifyCPU fun cpu => cpu.setFsBase address
    return 0
  else if code = archGetFs then
    onMMU (SoftMMU.write64 address cpu.fsBase)
    return 0
  else if code = archSetGs then
    modifyCPU fun cpu => cpu.setGsBase address
    return 0
  else if code = archGetGs then
    onMMU (SoftMMU.write64 address cpu.gsBase)
    return 0
  else
    return syscallError .einval

/-! ## Dispatch -/

/-- `LinuxSyscalls::dispatch`. -/
def dispatch (host : Host) (number : U64) : EmulatorProgram U64 := do
  let cpu ← getCPU
  let arg1 := cpu.reg .rdi
  let arg2 := cpu.reg .rsi
  let arg3 := cpu.reg .rdx
  let arg4 := cpu.reg .r10
  let arg5 := cpu.reg .r8
  let arg6 := cpu.reg .r9
  if number = SyscallNumber.mmap then sysMmap host.files arg1 arg2 arg3 arg4 arg5 arg6
  else if number = SyscallNumber.munmap then sysMunmap arg1 arg2
  else if number = SyscallNumber.mprotect then sysMprotect arg1 arg2 arg3
  else if number = SyscallNumber.mremap then sysMremap arg1 arg2 arg3 arg4 arg5
  else if number = SyscallNumber.brk then setBrk arg1
  else if number = SyscallNumber.archPrctl then sysArchPrctl arg1 arg2
  else if number = SyscallNumber.exit ∨ number = SyscallNumber.exitGroup then
    throw (.guestExit (intArgument arg1))
  else if number = SyscallNumber.rtSigreturn then Emulator.handleSigreturn
  else if number = SyscallNumber.rtSigaction then sysRtSigaction arg1 arg2 arg3 arg4
  else if number = SyscallNumber.rtSigprocmask then sysRtSigprocmask arg1 arg2 arg3 arg4
  else if number = SyscallNumber.kill then sysKill host arg1 arg2
  else if number = SyscallNumber.tkill then sysTkill host arg1 arg2
  else if number = SyscallNumber.tgkill then sysTgkill host arg1 arg2 arg3
  else host.otherSyscalls number

/-! ## The backtrace of the last system call -/

/-- Append a non-zero address that is not yet there. -/
def appendAddress (backtrace : List U64) (address : U64) : List U64 :=
  if address ≠ 0 ∧ address ∉ backtrace then backtrace ++ [address] else backtrace

/-- The part of `raw_backtrace` over the synthetic call stack, latest entry first. -/
def appendCallStack (backtrace : List U64) : List U64 → List U64
  | [] => backtrace
  | address :: rest =>
      if backtrace.length < 128 then appendCallStack (appendAddress backtrace address) rest
      else backtrace

/-- The part of `raw_backtrace` over the chain of frame pointers, for as many frames. -/
def appendFrames (mmu : SoftMMU) : Nat → U64 → List U64 → Except Raise (List U64)
  | 0, _, backtrace => .ok backtrace
  | depth + 1, frame, backtrace =>
      if frame = 0 ∨ !mmu.isMapped frame 16 then
        .ok backtrace
      else do
        let nextFrame ← mmu.read64 frame
        let returnAddress ← mmu.read64 (frame + 8)
        if returnAddress = 0 then
          return backtrace
        else
          let backtrace := appendAddress backtrace returnAddress
          if nextFrame ≤ frame then return backtrace
          else appendFrames mmu depth nextFrame backtrace

/-- `raw_backtrace`. -/
def rawBacktrace (emulator : Emulator) : Except Raise (List U64) :=
  appendFrames emulator.mmu 127 (emulator.cpu.reg .rbp)
    (appendCallStack [emulator.cpu.rip] emulator.cpu.callStack.reverse)

/-- `is_exit_syscall`. -/
def isExitSyscall (number : U64) : Bool :=
  number = SyscallNumber.exit || number = SyscallNumber.exitGroup

/-- The part of `handle_syscall` that remembers the backtrace. -/
def rememberBacktrace (number : U64) : EmulatorProgram Unit := do
  let emulator ← get
  if emulator.options.backtraceOnExit && !isExitSyscall number then
    let backtrace ← observe rawBacktrace
    modify fun emulator => { emulator with lastNonExitSyscallBacktrace := backtrace }

/-- `handle_syscall`. -/
def handleSyscall (host : Host) (number : U64) : EmulatorProgram U64 := do
  rememberBacktrace number
  dispatch host number

end LUE
