import LinuxUserspaceEmulator.Emulator.State

/-!
# Guest signals

The signal state of `Emulator`: pending signals, the signal mask, signal actions, delivery
at instruction boundaries and the return through `rt_sigreturn`.

The frame of a delivery holds the interrupted integer context and the signal mask.  A host
signal is seen when the emulator looks at the flag its handler set; which flags are set
then is up to the host.
-/

namespace LUE

open StateExcept

/-! ## Constants -/

/-- `NSIG`. -/
def signalCount : Int := 65

def sigKill : Int := 9
def sigChld : Int := 17
def sigStop : Int := 19
def sigUrg : Int := 23
def sigWinch : Int := 28

/-- `signal_frame_magic`: "LUESIGFR". -/
def signalFrameMagic : U64 := 0x4c55455349474652

/-- `signal_trampoline_address`. -/
def signalTrampolineAddress : U64 := 0x7fffff100000

/-- `signal_frame_size`. -/
def signalFrameSize : U64 := 8 * (1 + 1 + 1 + 1 + 16 + 1 + 1)

namespace SignalFrameOffset

def magic : U64 := 0
def mask : U64 := 8
def rip : U64 := 16
def rflags : U64 := 24
def gpr : U64 := 32
def fsBase : U64 := gpr + 16 * 8
def gsBase : U64 := fsBase + 8

end SignalFrameOffset

/-- The code of the trampoline: `mov $15, %rax`, `syscall`, `hlt`, `nop`. -/
def signalTrampolineCode : List U8 :=
  [0x48, 0xc7, 0xc0, 0x0f, 0x00, 0x00, 0x00, 0x0f, 0x05, 0xf4, 0x90]

/-- `signal_bit`. -/
def signalBit (signum : Int) : U64 :=
  if signum ≤ 0 ∨ signum ≥ 64 then 0 else (1 : U64) <<< (signum - 1).toNat

/-- `default_signal_is_ignored`. -/
def defaultSignalIsIgnored (signum : Int) : Bool :=
  signum = sigChld || signum = sigUrg || signum = sigWinch

/-- The range check that `deliver_signal` and `set_signal_action` share. -/
def isInvalidSignal (signum : Int) : Bool :=
  signum ≤ 0 || signum ≥ signalCount || signum ≥ 64

/-- The signal numbers of the two loops over signals, in their order. -/
def signalNumbers : List Nat :=
  List.range' 1 63

/-! ## Pending signals -/

namespace Emulator

/-- `setup_signal_trampoline`. -/
def setupSignalTrampoline : EmulatorProgram Unit := do
  onMMU (SoftMMU.mapBytes signalTrampolineAddress pageSize (protRead ||| protExecute)
    signalTrampolineCode 0 "[signal trampoline]")
  modify fun emulator => { emulator with signalTrampoline := signalTrampolineAddress }

/-- `deliver_signal`. -/
def deliverSignal (signum : Int) : EmulatorProgram (Except Errno Unit) :=
  if isInvalidSignal signum then
    return .error .einval
  else do
    modify fun emulator =>
      { emulator with pendingSignals := emulator.pendingSignals ||| signalBit signum }
    return .ok ()

/-- The body of `collect_host_signals`: a signal whose host flag is set is delivered. -/
def collectHostSignal (arrived : Nat → Bool) (signum : Nat) : EmulatorProgram Unit :=
  if arrived signum then do
    let _ ← deliverSignal signum
    return ()
  else
    return ()

/-- `collect_host_signals`. -/
def collectHostSignals (arrived : Nat → Bool) : EmulatorProgram Unit :=
  signalNumbers.forM (collectHostSignal arrived)

/-- `is_signal_blocked`. -/
def isSignalBlocked (emulator : Emulator) (signum : Nat) : Bool :=
  emulator.signalMask &&& signalBit signum != 0

/-- The first pending signal that is not blocked. -/
def nextPendingSignal (emulator : Emulator) : Option Nat :=
  signalNumbers.find? fun signum =>
    emulator.pendingSignals &&& signalBit signum != 0 && !emulator.isSignalBlocked signum

/-! ## Delivery -/

/-- Where the frame of a delivery goes: below the red zone, aligned. -/
def frameAddress (oldRsp : U64) : U64 :=
  (oldRsp - signalFrameSize - 128) &&& ~~~(0xf : U64)

/-- The return address of a handler. -/
def restorerFor (emulator : Emulator) (action : SignalAction) : U64 :=
  if action.restorer ≠ 0 then action.restorer else emulator.signalTrampoline

/-- The writes that save the interrupted state for `rt_sigreturn`. -/
def saveSignalFrame (frame restorer mask : U64) (context : SoftCPU64.IntegerContext) :
    MMUProgram Unit := do
  SoftMMU.write64 (frame - 8) restorer
  SoftMMU.write64 (frame + SignalFrameOffset.magic) signalFrameMagic
  SoftMMU.write64 (frame + SignalFrameOffset.mask) mask
  SoftMMU.write64 (frame + SignalFrameOffset.rip) context.rip
  SoftMMU.write64 (frame + SignalFrameOffset.rflags) context.rflags
  forOffsets (fun i =>
    SoftMMU.write64 (frame + SignalFrameOffset.gpr + BitVec.ofNat 64 i * 8)
      (context.gpr (Fin.ofNat 16 i))) 16
  SoftMMU.write64 (frame + SignalFrameOffset.fsBase) context.fsBase
  SoftMMU.write64 (frame + SignalFrameOffset.gsBase) context.gsBase

/-- The CPU at the entry of a handler. -/
def handlerEntry (cpu : SoftCPU64) (signum : Nat) (handler handlerRsp restorer : U64) :
    SoftCPU64 :=
  let cpu := (cpu.setReg .rdi (BitVec.ofNat 64 signum)).setReg .rsi 0
  let cpu := (cpu.setReg .rdx 0).setReg .rsp handlerRsp
  (cpu.setRip handler).pushSyntheticReturn restorer

/-- A pending signal is consumed before its disposition is applied. -/
def consumePending (signum : Nat) (emulator : Emulator) : Emulator :=
  { emulator with pendingSignals := emulator.pendingSignals &&& ~~~signalBit signum }

/-- The mask that applies while a handler is running. -/
def blockDuringHandler (signum : Nat) (mask : U64) (emulator : Emulator) : Emulator :=
  { emulator with signalMask := emulator.signalMask ||| mask ||| signalBit signum }

/-- The part of `dispatch_pending_signal` that enters a guest handler. -/
def enterHandler (signum : Nat) (action : SignalAction) : EmulatorProgram Unit := do
  let emulator ← get
  let frame := frameAddress (emulator.cpu.reg .rsp)
  let restorer := emulator.restorerFor action
  onMMU (saveSignalFrame frame restorer emulator.signalMask emulator.cpu.integerContext)
  modify (blockDuringHandler signum action.mask)
  modifyCPU fun cpu => handlerEntry cpu signum action.handler (frame - 8) restorer

/-- The disposition of a signal: handler 1 ignores it, handler 0 has the default effect. -/
def applyDisposition (signum : Nat) (action : SignalAction) : EmulatorProgram Unit :=
  if action.handler = 1 then
    return ()
  else if action.handler = 0 then
    if defaultSignalIsIgnored signum then return ()
    else throw (.guestExit (128 + signum))
  else
    enterHandler signum action

/-- `dispatch_pending_signal`. -/
def dispatchPendingSignal : EmulatorProgram Unit := do
  let emulator ← get
  match emulator.nextPendingSignal with
  | none => return ()
  | some signum => do
      modify (consumePending signum)
      applyDisposition signum (emulator.signalActions signum)

/-! ## Actions and the mask -/

/-- `set_signal_action`. -/
def setSignalAction (signum : Int) (updateAction : Bool) (action : SignalAction)
    (oldActionAddress : U64) : EmulatorProgram (Except Errno Unit) :=
  if isInvalidSignal signum then
    return .error .einval
  else if signum = sigKill ∨ signum = sigStop then
    return .error .einval
  else do
    if oldActionAddress ≠ 0 then
      let emulator ← get
      let oldAction := emulator.signalActions signum.toNat
      onMMU (SoftMMU.write64 (oldActionAddress + 0) oldAction.handler)
      onMMU (SoftMMU.write64 (oldActionAddress + 8) oldAction.flags)
      onMMU (SoftMMU.write64 (oldActionAddress + 16) oldAction.restorer)
      onMMU (SoftMMU.write64 (oldActionAddress + 24) oldAction.mask)
    if updateAction then
      modify fun emulator =>
        { emulator with
          signalActions := Function.update emulator.signalActions signum.toNat action }
    return .ok ()

/-- `set_signal_mask`: the old mask is stored before the new one is read. -/
def setSignalMask (how : Int) (setAddress oldSetAddress : U64) :
    EmulatorProgram (Except Errno Unit) := do
  let emulator ← get
  if oldSetAddress ≠ 0 then
    onMMU (SoftMMU.write64 oldSetAddress emulator.signalMask)
  if setAddress = 0 then
    return .ok ()
  else
    let newMask ← readMMU fun mmu => mmu.read64 setAddress
    let newMask := newMask &&& ~~~signalBit sigKill &&& ~~~signalBit sigStop
    let assign (mask : U64) : EmulatorProgram (Except Errno Unit) := do
      modify fun emulator => { emulator with signalMask := mask }
      return .ok ()
    if how = 0 then assign (emulator.signalMask ||| newMask)
    else if how = 1 then assign (emulator.signalMask &&& ~~~newMask)
    else if how = 2 then assign newMask
    else return .error .einval

/-! ## Return -/

/-- The saved general registers of a frame. -/
def readSavedRegs (frame : U64) (mmu : SoftMMU) : Except Raise (Register → U64) := do
  let regs ← (List.range 16).mapM fun i =>
    mmu.read64 (frame + SignalFrameOffset.gpr + BitVec.ofNat 64 i * 8)
  return fun register => regs.getD register.val 0

/-- The CPU with a restored integer context. -/
def withContext (cpu : SoftCPU64) (context : SoftCPU64.IntegerContext) : SoftCPU64 :=
  { cpu with
    gpr := context.gpr
    fsBase := context.fsBase
    gsBase := context.gsBase
    rflags := context.rflags
    rip := context.rip }

/-- `handle_sigreturn`. -/
def handleSigreturn : EmulatorProgram U64 := do
  let cpu ← getCPU
  let frame := cpu.reg .rsp
  let magic ← readMMU fun mmu => mmu.read64 (frame + SignalFrameOffset.magic)
  if magic ≠ signalFrameMagic then
    throw (.emulatorError ("invalid guest signal frame at " ++ hex frame))
  else
    let mask ← readMMU fun mmu => mmu.read64 (frame + SignalFrameOffset.mask)
    modify fun emulator => { emulator with signalMask := mask }
    let rip ← readMMU fun mmu => mmu.read64 (frame + SignalFrameOffset.rip)
    let rflags ← readMMU fun mmu => mmu.read64 (frame + SignalFrameOffset.rflags)
    let gpr ← readMMU (readSavedRegs frame)
    let fsBase ← readMMU fun mmu => mmu.read64 (frame + SignalFrameOffset.fsBase)
    let gsBase ← readMMU fun mmu => mmu.read64 (frame + SignalFrameOffset.gsBase)
    modifyCPU fun cpu => withContext cpu ⟨gpr, rip, rflags, fsBase, gsBase⟩
    modify fun emulator => { emulator with restoredContextFromSigreturn := true }
    return gpr .rax

/-- `consume_restored_context_from_sigreturn`. -/
def consumeRestoredContextFromSigreturn : EmulatorProgram Bool := do
  let emulator ← get
  modify fun emulator => { emulator with restoredContextFromSigreturn := false }
  return emulator.restoredContextFromSigreturn

end Emulator

end LUE
