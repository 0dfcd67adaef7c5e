import LinuxUserspaceEmulator.Emulator.Exec
import LinuxUserspaceEmulator.LinuxSyscalls.GuestView
import LinuxUserspaceEmulator.SoftCPU64.VisibleStep

/-!
# Signals and rounds see the guest through its bytes

The system calls that change the memory map look at more of a memory than its bytes.  All other
calls, the delivery of signals and the instructions do not: whatever relation of memories answers
byte accesses alike, they take emulators that are alike to emulators that are alike.

Main results:

- Theorem `MemoryBisimulation.dispatch`: the system calls, given those of the memory map.
- Theorem `MemoryBisimulation.round`: a round of the loop of `exec`, given the call it makes.
- Theorem `MemoryBisimulation.runRounds`: any number of rounds.
-/

namespace LUE

open StateExcept

/-! ## Runs -/

/-- What comes from outside during a round of the loop of `exec`. -/
structure RoundInput where
  host : Host
  calls : HostCalls
  arrived : Nat → Bool

namespace Emulator

/-- A round with the system calls of the emulator. -/
def servedRound (input : RoundInput) : EmulatorProgram Unit :=
  execRound (input.host.serving input.calls) input.arrived

/-- Round after round, until one raises or the inputs end. -/
def runRounds (inputs : List RoundInput) : EmulatorProgram Unit :=
  inputs.forM servedRound

end Emulator

/-- The calls that change the memory map. -/
def memoryMapCalls : List U64 :=
  [SyscallNumber.mmap, SyscallNumber.munmap, SyscallNumber.mprotect, SyscallNumber.mremap,
    SyscallNumber.brk]

/-- The next instruction is a system call that changes the memory map. -/
def CallsMemoryMap (emulator : Emulator) : Prop :=
  SoftCPU64.AtSyscall emulator ∧ emulator.cpu.reg .rax ∈ memoryMapCalls

variable {M : SoftMMU → SoftMMU → Prop} {α : Type}

/-- The calls of the memory map keep emulators alike too. -/
structure MapBisimulation (M : SoftMMU → SoftMMU → Prop) (files : HostFiles) : Prop where
  sysMmap : ∀ address length prot flags fd offset,
    KeepsAlike M (sysMmap files address length prot flags fd offset)
  sysMunmap : ∀ address length, KeepsAlike M (sysMunmap address length)
  sysMprotect : ∀ address length prot, KeepsAlike M (sysMprotect address length prot)
  sysMremap : ∀ oldAddress oldLength newLength flags newAddress,
    KeepsAlike M (sysMremap oldAddress oldLength newLength flags newAddress)
  setBrk : ∀ requested, KeepsAlike M (setBrk requested)

namespace MemoryBisimulation

/-! ## Signal calls -/

theorem write64 (hM : MemoryBisimulation M) (address value : U64) :
    KeepsAlike M (onMMU (SoftMMU.write64 address value)) :=
  hM.writeInteger_onMMU address value 8

theorem read64 (hM : MemoryBisimulation M) (address : U64) :
    KeepsAlike M (readMMU fun mmu => mmu.read64 address) :=
  hM.readMMU_readInteger address 8

theorem deliverSignal (signum : Int) : KeepsAlike M (Emulator.deliverSignal signum) :=
  .ite (fun _ => .pure rfl) fun _ =>
    Bisimilar.bindSame (Respects.modifyRest (fun _ => rfl) fun _ _ _ => rfl) fun _ => .pure rfl

theorem setSignalAction (hM : MemoryBisimulation M) (signum : Int) (updateAction : Bool)
    (action : SignalAction) (oldActionAddress : U64) :
    KeepsAlike M (Emulator.setSignalAction signum updateAction action oldActionAddress) := by
  have hupdate : KeepsAlike M (do
      if updateAction then
        modify fun emulator : Emulator =>
          { emulator with
            signalActions := Function.update emulator.signalActions signum.toNat action }
      return (.ok () : Except Errno Unit)) :=
    .ite (fun _ => Bisimilar.bindSame (Respects.modifyRest (fun _ => rfl) fun _ _ _ => rfl)
      fun _ => .pure rfl) fun _ => .pure rfl
  refine .ite (fun _ => .pure rfl) fun _ => .ite (fun _ => .pure rfl) fun _ =>
    .ite (fun _ => Respects.get_bind fun emulator shadows mmu _ => ?_) fun _ => hupdate
  exact (hM.write64 _ _).bindSame fun _ => (hM.write64 _ _).bindSame fun _ =>
    (hM.write64 _ _).bindSame fun _ => (hM.write64 _ _).bindSame fun _ => hupdate

theorem setSignalMask (hM : MemoryBisimulation M) (how : Int) (setAddress oldSetAddress : U64) :
    KeepsAlike M (Emulator.setSignalMask how setAddress oldSetAddress) := by
  have hassign : ∀ mask, KeepsAlike M (do
      modify fun emulator : Emulator => { emulator with signalMask := mask }
      return (.ok () : Except Errno Unit)) := fun _ =>
    Bisimilar.bindSame (Respects.modifyRest (fun _ => rfl) fun _ _ _ => rfl) fun _ => .pure rfl
  refine Respects.get_bind fun emulator shadows mmu _ => .ite
    (fun _ => (hM.write64 _ _).bindSame fun _ => ?_) fun _ => ?_
  all_goals
    exact .ite (fun _ => .pure rfl) fun _ => (hM.read64 _).bindSame fun _ =>
      .ite (fun _ => hassign _) fun _ => .ite (fun _ => hassign _) fun _ =>
        .ite (fun _ => hassign _) fun _ => .pure rfl

theorem readSigAction (hM : MemoryBisimulation M) (address : U64) :
    KeepsAlike M (readMMU (LUE.readSigAction address)) := by
  refine Respects.readMMU fun mmu mmu' h => ?_
  unfold LUE.readSigAction SoftMMU.read64
  simp only [hM.readInteger h]

theorem sysRtSigaction (hM : MemoryBisimulation M) (signum actionAddress oldAction size : U64) :
    KeepsAlike M (LUE.sysRtSigaction signum actionAddress oldAction size) :=
  .ite (fun _ => .pure rfl) fun _ => .ite
    (fun _ => (hM.readSigAction _).bindSame fun _ =>
      (hM.setSignalAction _ _ _ _).bindSame fun _ => .pure rfl)
    fun _ => Bisimilar.bindSame (.pure rfl) fun _ =>
      (hM.setSignalAction _ _ _ _).bindSame fun _ => .pure rfl

theorem sysRtSigprocmask (hM : MemoryBisimulation M) (how set oldSet size : U64) :
    KeepsAlike M (LUE.sysRtSigprocmask how set oldSet size) :=
  .ite (fun _ => .pure rfl) fun _ => (hM.setSignalMask _ _ _).bindSame fun _ => .pure rfl

theorem sendSignal (signum : U64) : KeepsAlike M (LUE.sendSignal signum) :=
  .ite (fun _ => .pure rfl) fun _ => (deliverSignal _).bindSame fun _ => .pure rfl

theorem setRegisterBase {f : SoftCPU64 → SoftCPU64}
    (hf : ∀ cpu shadows, (f cpu).visible = (f (cpu.withShadows shadows)).visible) :
    KeepsAlike M (do
      modifyCPU f
      return (0 : U64)) :=
  (Respects.modifyCPU hf).bindSame fun _ => .pure rfl

theorem sysArchPrctl (hM : MemoryBisimulation M) (code address : U64) :
    KeepsAlike M (LUE.sysArchPrctl code address) := by
  refine Respects.getCPU_bind fun cpu shadows => .ite (fun _ => setRegisterBase fun _ _ => rfl)
    fun _ => .ite (fun _ => ?_) fun _ => .ite (fun _ => setRegisterBase fun _ _ => rfl) fun _ =>
      .ite (fun _ => ?_) fun _ => .pure rfl
  · exact (hM.write64 _ _).bindSame fun _ => .pure rfl
  · exact (hM.write64 _ _).bindSame fun _ => .pure rfl

theorem readSavedRegs (hM : MemoryBisimulation M) (frame : U64) :
    KeepsAlike M (readMMU (Emulator.readSavedRegs frame)) := by
  refine Respects.readMMU fun mmu mmu' h => ?_
  unfold Emulator.readSavedRegs SoftMMU.read64
  simp only [hM.readInteger h]

theorem handleSigreturn (hM : MemoryBisimulation M) : KeepsAlike M Emulator.handleSigreturn := by
  refine Respects.getCPU_bind fun cpu shadows => (hM.read64 _).bindSame fun magic =>
    .ite (fun _ => .throw _) fun _ => (hM.read64 _).bindSame fun mask => ?_
  refine Bisimilar.bindSame (Respects.modifyRest (fun _ => rfl) fun _ _ _ => rfl) fun _ => ?_
  refine (hM.read64 _).bindSame fun rip => (hM.read64 _).bindSame fun rflags =>
    (hM.readSavedRegs _).bindSame fun gpr => (hM.read64 _).bindSame fun fsBase =>
      (hM.read64 _).bindSame fun gsBase => ?_
  refine Bisimilar.bindSame (Respects.modifyCPU fun _ _ => rfl) fun _ => ?_
  exact Bisimilar.bindSame (Respects.modifyRest (fun _ => rfl) fun _ _ _ => rfl)
    fun _ => .pure rfl

/-! ## Dispatch -/

theorem appendFrames (hM : MemoryBisimulation M) {mmu mmu' : SoftMMU} (h : M mmu mmu')
    (depth : Nat) (frame : U64) (backtrace : List U64) :
    LUE.appendFrames mmu depth frame backtrace = LUE.appendFrames mmu' depth frame backtrace := by
  induction depth generalizing frame backtrace with
  | zero => rfl
  | succ depth ih =>
      unfold LUE.appendFrames SoftMMU.read64
      simp only [hM.isMapped h, hM.readInteger h, ih]

theorem rememberBacktrace (hM : MemoryBisimulation M) (number : U64) :
    KeepsAlike M (LUE.rememberBacktrace number) := by
  refine Respects.get_bind fun emulator shadows mmu _ => .ite (fun _ => ?_) fun _ => .pure rfl
  refine Bisimilar.bindSame (.observe fun before after h => ?_) fun backtrace =>
    Respects.modifyRest (fun _ => rfl) fun _ _ _ => rfl
  obtain ⟨shadows, mmu, hmmu, rfl⟩ := h.exists_withChecks
  exact hM.appendFrames hmmu _ _ _

variable {host : Host}

/-- The system calls, given those of the memory map and those the host serves. -/
theorem dispatch (hM : MemoryBisimulation M)
    (hcalls : ∀ number, KeepsAlike M (host.otherSyscalls number)) {number : U64}
    (hmap : number ∈ memoryMapCalls → MapBisimulation M host.files) :
    KeepsAlike M (LUE.dispatch host number) := by
  refine Respects.getCPU_bind fun cpu shadows => ?_
  refine .ite (fun h => (hmap (h ▸ by decide)).sysMmap _ _ _ _ _ _) fun _ => ?_
  refine .ite (fun h => (hmap (h ▸ by decide)).sysMunmap _ _) fun _ => ?_
  refine .ite (fun h => (hmap (h ▸ by decide)).sysMprotect _ _ _) fun _ => ?_
  refine .ite (fun h => (hmap (h ▸ by decide)).sysMremap _ _ _ _ _) fun _ => ?_
  refine .ite (fun h => (hmap (h ▸ by decide)).setBrk _) fun _ => ?_
  refine .ite (fun _ => hM.sysArchPrctl _ _) fun _ => ?_
  refine .ite (fun _ => .throw _) fun _ => ?_
  refine .ite (fun _ => hM.handleSigreturn) fun _ => ?_
  refine .ite (fun _ => hM.sysRtSigaction _ _ _ _) fun _ => ?_
  refine .ite (fun _ => hM.sysRtSigprocmask _ _ _ _) fun _ => ?_
  refine .ite (fun _ => .ite (fun _ => .pure rfl) fun _ => sendSignal _) fun _ => ?_
  refine .ite (fun _ => .ite (fun _ => .pure rfl) fun _ => sendSignal _) fun _ => ?_
  exact .ite (fun _ => .ite (fun _ => .pure rfl) fun _ => sendSignal _) fun _ => hcalls number

theorem handleSyscall (hM : MemoryBisimulation M)
    (hcalls : ∀ number, KeepsAlike M (host.otherSyscalls number)) {number : U64}
    (hmap : number ∈ memoryMapCalls → MapBisimulation M host.files) :
    KeepsAlike M (LUE.handleSyscall host number) :=
  (hM.rememberBacktrace number).bindSame fun _ => hM.dispatch hcalls hmap

theorem consumeRestoredContext : KeepsAlike M Emulator.consumeRestoredContextFromSigreturn :=
  Respects.get_bind fun _ _ _ _ =>
    Bisimilar.bindSame (Respects.modifyRest (fun _ => rfl) fun _ _ _ => rfl) fun _ => .pure rfl

variable {emulator emulator' : Emulator}

/-- `SYSCALL`, given the call that it makes. -/
theorem executeSyscall_of (hM : MemoryBisimulation M) (halike : Alike M Eq emulator emulator')
    (hcalls : ∀ number, KeepsAlike M (host.otherSyscalls number))
    (hmap : emulator.cpu.reg .rax ∈ memoryMapCalls → MapBisimulation M host.files) :
    Agree (Alike M Eq) Eq (SoftCPU64.executeSyscall host emulator)
      (SoftCPU64.executeSyscall host emulator') := by
  obtain ⟨shadows, mmu, hmmu, rfl⟩ := halike.exists_withChecks
  have hafter : ∀ nextRip (result : U64), KeepsAlike M (do
      let restored ← Emulator.consumeRestoredContextFromSigreturn
      if restored then
        modifyCPU fun cpu => cpu.setDecodePc cpu.rip
      else
        modifyCPU fun cpu => (cpu.setInitialized .rax result).setDecodePc nextRip) :=
    fun _ _ => consumeRestoredContext.bindSame fun _ =>
      .ite (fun _ => Respects.modifyCPU fun _ _ => rfl) fun _ => Respects.modifyCPU fun _ _ => rfl
  rw [SoftCPU64.executeSyscall, bind_of_ok (getCPU_apply _), bind_of_ok (getCPU_apply _)]
  refine Bisimilar.bindSame (Respects.modifyCPU ?_) (fun _ =>
    (hM.handleSyscall hcalls hmap).bindSame fun _ => hafter _ _) _ _ halike
  exact fun _ _ => rfl

/-- A step, given the call that it makes. -/
theorem step_of_calls (hM : MemoryBisimulation M) (halike : Alike M Eq emulator emulator')
    (hcalls : ∀ number, KeepsAlike M (host.otherSyscalls number))
    (hmap : CallsMemoryMap emulator → MapBisimulation M host.files) :
    Agree (Alike M Eq) Eq (SoftCPU64.step host emulator) (SoftCPU64.step host emulator') :=
  hM.step_of halike fun hat _ _ hfetched =>
    hM.executeSyscall_of hfetched hcalls fun hcall => hmap ⟨hat, hcall⟩

/-! ## Rounds -/

theorem collectHostSignals (arrived : Nat → Bool) :
    KeepsAlike M (Emulator.collectHostSignals arrived) :=
  .forM fun _ _ => .ite (fun _ => (deliverSignal _).bindSame fun _ => .pure rfl)
    fun _ => .pure rfl

theorem saveSignalFrame (hM : MemoryBisimulation M) (frame restorer mask : U64)
    (context : SoftCPU64.IntegerContext) :
    Bisimilar M Eq (Emulator.saveSignalFrame frame restorer mask context)
      (Emulator.saveSignalFrame frame restorer mask context) := by
  have hwrite : ∀ address value, Bisimilar M Eq
      (SoftMMU.write64 address value) (SoftMMU.write64 address value) := fun _ _ =>
    hM.writeInteger _ _ 8
  exact (hwrite _ _).bindSame fun _ => (hwrite _ _).bindSame fun _ => (hwrite _ _).bindSame
    fun _ => (hwrite _ _).bindSame fun _ => (hwrite _ _).bindSame fun _ =>
      Bisimilar.bindSame (.forOffsets fun _ _ => hwrite _ _) fun _ =>
        (hwrite _ _).bindSame fun _ => hwrite _ _

theorem enterHandler (hM : MemoryBisimulation M) (signum : Nat) (action : SignalAction) :
    KeepsAlike M (Emulator.enterHandler signum action) :=
  Respects.get_bind fun _ _ _ _ =>
    (Respects.onMMU (hM.saveSignalFrame _ _ _ _)).bindSame fun _ =>
      Bisimilar.bindSame (Respects.modifyRest (fun _ => rfl) fun _ _ _ => rfl) fun _ =>
        Respects.modifyCPU fun _ _ => rfl

theorem applyDisposition (hM : MemoryBisimulation M) (signum : Nat) (action : SignalAction) :
    KeepsAlike M (Emulator.applyDisposition signum action) :=
  .ite (fun _ => .pure rfl) fun _ =>
    .ite (fun _ => .ite (fun _ => .pure rfl) fun _ => .throw _) fun _ => hM.enterHandler _ _

theorem dispatchPendingSignal (hM : MemoryBisimulation M) :
    KeepsAlike M Emulator.dispatchPendingSignal := by
  refine Respects.get_bind fun emulator shadows mmu _ => ?_
  have hnext : (emulator.withChecks shadows mmu).nextPendingSignal =
      emulator.nextPendingSignal := rfl
  rw [hnext]
  cases emulator.nextPendingSignal with
  | none => exact .pure rfl
  | some signum =>
      exact Bisimilar.bindSame (Respects.modifyRest (fun _ => rfl) fun _ _ _ => rfl)
        fun _ => hM.applyDisposition _ _

theorem signalRound (hM : MemoryBisimulation M) (arrived : Nat → Bool) :
    KeepsAlike M (Emulator.signalRound arrived) :=
  (collectHostSignals arrived).bindSame fun _ => hM.dispatchPendingSignal

/-- A round of the loop of `exec`, given the call that it makes. -/
theorem round (hM : MemoryBisimulation M) (input : RoundInput)
    (hmap : CallsMemoryMap emulator → MapBisimulation M input.host.files)
    (halike : Alike M Eq emulator emulator') :
    Agree (Alike M Eq) Eq (Emulator.servedRound input emulator)
      (Emulator.servedRound input emulator') := by
  have hcalls : ∀ number,
      KeepsAlike M ((input.host.serving input.calls).otherSyscalls number) :=
    hM.hostSyscalls input.host
  exact (hM.step_of_calls halike hcalls hmap).bind fun _ _ _ _ _ _ hstepped =>
    hM.signalRound input.arrived _ _ hstepped

/-- Rounds that do not call the memory map, or that call it when these calls keep emulators
alike. -/
theorem runRounds (hM : MemoryBisimulation M) {inputs : List RoundInput}
    (hrounds : Along (fun state => ¬CallsMemoryMap state) Emulator.servedRound inputs emulator)
    (halike : Alike M Eq emulator emulator') :
    Agree (Alike M Eq) Eq (Emulator.runRounds inputs emulator)
      (Emulator.runRounds inputs emulator') :=
  Agree.forM (fun input _ _ hcall => hM.round input fun h => absurd h hcall) hrounds halike

end MemoryBisimulation

end LUE
