import LinuxUserspaceEmulator.LinuxSyscalls.HostDispatch
import LinuxUserspaceEmulator.SoftCPU64.Visible

/-!
# Host calls see the guest through its bytes

The calls that the host serves read guest memory byte by byte with the permissions of the guest,
and write it so.  Whatever relation of memories answers byte accesses alike, they take emulators
that are alike to emulators that are alike.

Main results:

- Theorem `MemoryBisimulation.sysReadv`: scattering what the host read.
- Theorem `MemoryBisimulation.hostSyscalls`: every call that the host serves.
-/

namespace LUE

open StateExcept

/-- A program that takes emulators that are alike to emulators that are alike, and returns or
raises the same. -/
abbrev KeepsAlike {α : Type} (M : SoftMMU → SoftMMU → Prop) (x : EmulatorProgram α) : Prop :=
  Respects M Eq x x

/-! ## Programs of the whole emulator -/

/-- The emulator with other shadows in its CPU and another memory. -/
def Emulator.withChecks (emulator : Emulator) (shadows : SoftCPU64.Shadows) (mmu : SoftMMU) :
    Emulator :=
  (emulator.withCPU (emulator.cpu.withShadows shadows)).withMMU mmu

variable {M : SoftMMU → SoftMMU → Prop} {α : Type}

/-- Emulators that are alike differ in shadows and memory at most. -/
theorem Alike.exists_withChecks {emulator emulator' : Emulator}
    (h : Alike M Eq emulator emulator') :
    ∃ shadows mmu, M emulator.mmu mmu ∧ emulator' = emulator.withChecks shadows mmu := by
  obtain ⟨⟨shadows, hcpu⟩, hmmu, hrest⟩ := h
  refine ⟨shadows, emulator'.mmu, hmmu, ?_⟩
  cases emulator
  cases emulator'
  simp only [Emulator.rest, Emulator.withCPU, Emulator.withMMU, Emulator.withChecks,
    Emulator.mk.injEq] at hrest hcpu ⊢
  simp [hrest, hcpu]

theorem alike_withChecks {emulator : Emulator} {mmu : SoftMMU} (h : M emulator.mmu mmu)
    (shadows : SoftCPU64.Shadows) : Alike M Eq emulator (emulator.withChecks shadows mmu) where
  cpu := ⟨shadows, rfl⟩
  mmu := h
  rest := rfl

namespace Respects

theorem get_bind {f g : Emulator → EmulatorProgram α}
    (h : ∀ emulator shadows mmu, M emulator.mmu mmu →
      Respects M Eq (f emulator) (g (emulator.withChecks shadows mmu))) :
    Respects M Eq (get >>= f) (get >>= g) := by
  intro emulator emulator' hsame
  obtain ⟨shadows, mmu, hmmu, rfl⟩ := hsame.exists_withChecks
  exact h emulator shadows mmu hmmu _ _ hsame

/-- A change of the emulator beside its CPU and memory. -/
theorem modifyRest {f : Emulator → Emulator}
    (hmmu : ∀ emulator, (f emulator).mmu = emulator.mmu)
    (hf : ∀ emulator shadows mmu,
      f (emulator.withChecks shadows mmu) = (f emulator).withChecks shadows mmu) :
    KeepsAlike M (modify f) := by
  intro emulator emulator' hsame
  obtain ⟨shadows, mmu, h, rfl⟩ := hsame.exists_withChecks
  refine .ok rfl ?_
  rw [hf]
  exact alike_withChecks (by rwa [hmmu]) shadows

/-! ## Patterns -/

theorem afterHost (answer : Except Errno α) {rest : α → EmulatorProgram U64}
    (h : ∀ a, KeepsAlike M (rest a)) :
    KeepsAlike M (LUE.afterHost answer rest) := by
  cases answer with
  | ok a => exact h a
  | error errno => exact .pure rfl

theorem registerHostFd (calls : HostCalls) (guestFd : BitVec 32) :
    KeepsAlike M (Emulator.registerHostFd calls guestFd) := by
  unfold Emulator.registerHostFd
  cases calls.pathFromHostFd guestFd with
  | none => exact .pure rfl
  | some path => exact modifyRest (fun _ => rfl) fun _ _ _ => rfl

theorem unregisterHostFd (guestFd : BitVec 32) :
    KeepsAlike M (Emulator.unregisterHostFd guestFd) :=
  modifyRest (fun _ => rfl) fun _ _ _ => rfl

theorem returnFd (calls : HostCalls) (fd : BitVec 32) :
    KeepsAlike M (LUE.returnFd calls fd) :=
  (registerHostFd calls fd).bindSame fun _ => .pure rfl

theorem ignoringErrors {program : EmulatorProgram Unit} (h : KeepsAlike M program) :
    KeepsAlike M (LUE.ignoringErrors program) := by
  refine Bisimilar.tryCatch h fun e => ?_
  split
  · exact .pure rfl
  · exact .throw _

end Respects

namespace MemoryBisimulation

theorem copyBytesFromGuest (hM : MemoryBisimulation M) (source : U64) (size : Nat) :
    KeepsAlike M (LUE.copyBytesFromGuest source size) :=
  Respects.readMMU fun _ _ h => hM.mapM_read8 h _ _

theorem copyOptional (hM : MemoryBisimulation M) (address : U64) (size : Nat) :
    KeepsAlike M (LUE.copyOptional address size) :=
  .ite (fun _ => (hM.copyBytesFromGuest address size).bindSame fun _ => .pure rfl)
    fun _ => .pure rfl

theorem copyBytesToGuest (hM : MemoryBisimulation M) (destination : U64) (source : List U8) :
    KeepsAlike M (LUE.copyBytesToGuest destination source) :=
  Respects.onMMU (.forOffsets fun _ _ => hM.write8 _ _)

theorem copyToOptional (hM : MemoryBisimulation M) (destination : U64) (source : List U8) :
    KeepsAlike M (LUE.copyToOptional destination source) :=
  .ite (fun _ => hM.copyBytesToGuest _ _) fun _ => .pure rfl

theorem readCStringLoop (hM : MemoryBisimulation M) {mmu mmu' : SoftMMU} (h : M mmu mmu')
    (address : U64) (value : List U8) (remaining : Nat) :
    mmu.readCStringLoop address value remaining = mmu'.readCStringLoop address value remaining := by
  induction remaining generalizing value with
  | zero => rfl
  | succ remaining ih =>
      unfold SoftMMU.readCStringLoop
      simp only [hM.read8 h, ih]

theorem readString (hM : MemoryBisimulation M) (address : U64) :
    KeepsAlike M (LUE.readString address) :=
  Respects.readMMU fun _ _ h => hM.readCStringLoop h address [] stringLimit

theorem readOptionalString (hM : MemoryBisimulation M) (address : U64) :
    KeepsAlike M (LUE.readOptionalString address) :=
  .ite (fun _ => (hM.readString address).bindSame fun _ => .pure rfl) fun _ => .pure rfl

theorem writeInteger_onMMU (hM : MemoryBisimulation M) (address value : U64) (count : Nat) :
    KeepsAlike M (onMMU (SoftMMU.writeInteger address value count)) :=
  Respects.onMMU (hM.writeInteger address value count)

theorem returnBytes (hM : MemoryBisimulation M) (destination : U64) (bytes : List U8) :
    KeepsAlike M (LUE.returnBytes destination bytes) :=
  (hM.copyBytesToGuest destination bytes).bindSame fun _ => .pure rfl

theorem returnStruct (hM : MemoryBisimulation M) (destination : U64) (bytes : List U8) :
    KeepsAlike M (LUE.returnStruct destination bytes) :=
  (hM.copyBytesToGuest destination bytes).bindSame fun _ => .pure rfl

theorem returnFds (hM : MemoryBisimulation M) (calls : HostCalls) (address : U64)
    (fds : BitVec 32 × BitVec 32) :
    KeepsAlike M (LUE.returnFds calls address fds) := by
  refine Bisimilar.bindSame ?_ fun _ => .pure rfl
  exact (hM.writeInteger_onMMU _ _ 4).bindSame fun _ =>
    (Respects.registerHostFd calls _).bindSame fun _ =>
      (hM.writeInteger_onMMU _ _ 4).bindSame fun _ => Respects.registerHostFd calls _

variable {calls : HostCalls}

/-! ## Files -/

theorem copyIovecs (hM : MemoryBisimulation M) (address : U64) (count : Nat) :
    KeepsAlike M (LUE.copyIovecs address count) :=
  (hM.copyBytesFromGuest _ _).bindSame fun _ => .pure rfl

theorem scatter (hM : MemoryBisimulation M) (buffers : List (GuestIOVec × List U8))
    (remaining : Nat) :
    KeepsAlike M (LUE.scatter buffers remaining) := by
  induction buffers generalizing remaining with
  | nil => exact .pure rfl
  | cons buffer buffers ih =>
      exact .ite (fun _ => .pure rfl) fun _ => (hM.copyBytesToGuest _ _).bindSame fun _ => ih _

theorem gather (hM : MemoryBisimulation M) (entries : List GuestIOVec) :
    KeepsAlike M (LUE.gather entries) := by
  induction entries with
  | nil => exact .pure rfl
  | cons entry entries ih =>
      exact (hM.copyBytesFromGuest _ _).bindSame fun _ => ih.bindSame fun _ => .pure rfl

/-- Reading into a vector of buffers. -/
theorem sysReadv (hM : MemoryBisimulation M) (fd address count : U64) :
    KeepsAlike M (LUE.sysReadv calls fd address count) :=
  .ite (fun _ => .pure rfl) fun _ => (hM.copyIovecs _ _).bindSame fun _ =>
    Respects.afterHost _ fun _ => (hM.scatter _ _).bindSame fun _ => .pure rfl

theorem sysWritev (hM : MemoryBisimulation M) (fd address count : U64) :
    KeepsAlike M (LUE.sysWritev calls fd address count) :=
  .ite (fun _ => .pure rfl) fun _ => (hM.copyIovecs _ _).bindSame fun _ =>
    (hM.gather _).bindSame fun _ => .pure rfl

theorem sysFcntl (fd command argument : U64) :
    KeepsAlike M (LUE.sysFcntl calls fd command argument) :=
  Respects.afterHost _ fun _ => .ite
    (fun _ => (Respects.registerHostFd calls _).bindSame fun _ => .pure rfl) fun _ => .pure rfl

theorem returnAttribute (hM : MemoryBisimulation M) (address size : U64)
    (answer : Except Errno (List U8)) :
    KeepsAlike M (LUE.returnAttribute address size answer) :=
  Respects.afterHost _ fun _ => .ite
    (fun _ => (hM.copyBytesToGuest _ _).bindSame fun _ => .pure rfl) fun _ => .pure rfl

theorem copyReadable (hM : MemoryBisimulation M) {mmu mmu' : SoftMMU} (h : M mmu mmu')
    (source : U64) (size : Nat) :
    LUE.copyReadable mmu source size = LUE.copyReadable mmu' source size := by
  induction size generalizing source with
  | zero => rfl
  | succ size ih =>
      unfold LUE.copyReadable
      simp only [hM.read8 h, ih]

theorem sysIoctl (hM : MemoryBisimulation M) (fd request address : U64) :
    KeepsAlike M (LUE.sysIoctl calls fd request address) := by
  refine .ite (fun _ => .pure rfl) fun _ =>
    (Respects.readMMU fun mmu mmu' h => ?_).bindSame fun _ =>
      Respects.afterHost _ fun _ =>
        (Respects.ignoringErrors (hM.copyBytesToGuest _ _)).bindSame fun _ => .pure rfl
  unfold ioctlScratch
  rw [hM.isMapped h, hM.copyReadable h]

/-! ## Waiting -/

theorem copyPollFds (hM : MemoryBisimulation M) (address : U64) (count : Nat) :
    KeepsAlike M (LUE.copyPollFds address count) :=
  .ite (fun _ => (hM.copyBytesFromGuest _ _).bindSame fun _ => .pure rfl) fun _ => .pure rfl

theorem returnPollFds (hM : MemoryBisimulation M) (address : U64) (fds : List GuestPollFD)
    (answer : U64 × (Nat → BitVec 16)) :
    KeepsAlike M (LUE.returnPollFds address fds answer) :=
  .ite (fun _ => (hM.copyBytesToGuest _ _).bindSame fun _ => .pure rfl) fun _ => .pure rfl

theorem sysPoll (hM : MemoryBisimulation M) (address count timeout : U64) :
    KeepsAlike M (LUE.sysPoll calls address count timeout) :=
  .ite (fun _ => .pure rfl) fun _ => (hM.copyPollFds _ _).bindSame fun _ =>
    Respects.afterHost _ fun _ => hM.returnPollFds _ _ _

theorem sysPpoll (hM : MemoryBisimulation M) (address count timeout : U64) :
    KeepsAlike M (LUE.sysPpoll calls address count timeout) :=
  .ite (fun _ => .pure rfl) fun _ => (hM.copyPollFds _ _).bindSame fun _ =>
    (hM.copyOptional _ _).bindSame fun _ => Respects.afterHost _ fun _ => hM.returnPollFds _ _ _

theorem selectWith (hM : MemoryBisimulation M) {Time : Type} (ofBytes : List U8 → Time)
    (bytes : Time → List U8)
    (select : Option (List U8) → Option (List U8) → Option (List U8) → Option Time →
      Except Errno (SelectAnswer Time)) (readfds writefds exceptfds timeout : U64) :
    KeepsAlike M (LUE.selectWith ofBytes bytes select readfds writefds exceptfds timeout) :=
  (hM.copyOptional _ _).bindSame fun _ => (hM.copyOptional _ _).bindSame fun _ =>
    (hM.copyOptional _ _).bindSame fun _ => (hM.copyOptional _ _).bindSame fun _ =>
      Respects.afterHost _ fun _ => (hM.copyToOptional _ _).bindSame fun _ =>
        (hM.copyToOptional _ _).bindSame fun _ => (hM.copyToOptional _ _).bindSame fun _ =>
          (hM.copyToOptional _ _).bindSame fun _ => .pure rfl

theorem sysEpollCtl (hM : MemoryBisimulation M) (epfd operation fd event : U64) :
    KeepsAlike M (LUE.sysEpollCtl calls epfd operation fd event) :=
  (hM.copyOptional _ _).bindSame fun _ => .pure rfl

theorem returnEvents (hM : MemoryBisimulation M) (address : U64) (events : List EpollEvent) :
    KeepsAlike M (LUE.returnEvents address events) :=
  (hM.copyBytesToGuest _ _).bindSame fun _ => .pure rfl

theorem sleepWith (hM : MemoryBisimulation M)
    (sleep : GuestTimespec → Except Errno GuestTimespec) (request remain : U64) :
    KeepsAlike M (LUE.sleepWith sleep request remain) :=
  (hM.copyBytesFromGuest _ _).bindSame fun _ => Respects.afterHost _ fun _ =>
    (hM.copyToOptional _ _).bindSame fun _ => .pure rfl

theorem sysTime (hM : MemoryBisimulation M) (address : U64) :
    KeepsAlike M (LUE.sysTime calls address) :=
  Respects.afterHost _ fun _ => .ite
    (fun _ => (hM.writeInteger_onMMU _ _ 8).bindSame fun _ => .pure rfl) fun _ => .pure rfl

/-! ## Sockets -/

theorem optionalSockaddrFromGuest (hM : MemoryBisimulation M) (address length : U64) :
    KeepsAlike M (LUE.optionalSockaddrFromGuest address length) :=
  .ite (fun _ => .pure rfl) fun _ => hM.copyBytesFromGuest _ _

theorem readSocklen (hM : MemoryBisimulation M) (lengthAddress : U64) :
    KeepsAlike M (LUE.readSocklen lengthAddress) :=
  .ite (fun _ => hM.readMMU_readInteger lengthAddress 4) fun _ => .pure rfl

theorem returnSockaddr (hM : MemoryBisimulation M) (address lengthAddress length : U64)
    (answer : SockaddrAnswer) :
    KeepsAlike M (LUE.returnSockaddr address lengthAddress length answer) := by
  have hlength : ∀ value : U64, KeepsAlike M
      (if lengthAddress ≠ 0 then onMMU (SoftMMU.write32 lengthAddress value) else pure ()) :=
    fun _ => .ite (fun _ => hM.writeInteger_onMMU _ _ 4) fun _ => .pure rfl
  exact .ite (fun _ => (hM.copyBytesToGuest _ _).bindSame fun _ => hlength _) fun _ => hlength _

theorem acceptWith (hM : MemoryBisimulation M)
    (accept : Bool → Option U64 → Except Errno (BitVec 32 × SockaddrAnswer))
    (address lengthAddress : U64) :
    KeepsAlike M (LUE.acceptWith calls accept address lengthAddress) :=
  (hM.readSocklen _).bindSame fun _ => Respects.afterHost _ fun _ =>
    (Respects.registerHostFd calls _).bindSame fun _ =>
      (hM.returnSockaddr _ _ _ _).bindSame fun _ => .pure rfl

theorem sockNameWith (hM : MemoryBisimulation M)
    (name : Bool → Option U64 → Except Errno SockaddrAnswer) (address lengthAddress : U64) :
    KeepsAlike M (LUE.sockNameWith name address lengthAddress) :=
  (hM.readSocklen _).bindSame fun _ => Respects.afterHost _ fun _ =>
    (hM.returnSockaddr _ _ _ _).bindSame fun _ => .pure rfl

theorem sysGetsockopt (hM : MemoryBisimulation M) (fd level name value lengthAddress : U64) :
    KeepsAlike M (LUE.sysGetsockopt calls fd level name value lengthAddress) :=
  (hM.readSocklen _).bindSame fun _ => Respects.afterHost _ fun _ =>
    (hM.copyToOptional _ _).bindSame fun _ => .ite
      (fun _ => (hM.writeInteger_onMMU _ _ 4).bindSame fun _ => .pure rfl) fun _ => .pure rfl

theorem sysSendto (hM : MemoryBisimulation M) (fd buffer size flags address length : U64) :
    KeepsAlike M (LUE.sysSendto calls fd buffer size flags address length) :=
  (hM.copyBytesFromGuest _ _).bindSame fun _ =>
    (hM.optionalSockaddrFromGuest _ _).bindSame fun _ => .pure rfl

theorem sysRecvfrom (hM : MemoryBisimulation M)
    (fd buffer size flags address lengthAddress : U64) :
    KeepsAlike M (LUE.sysRecvfrom calls fd buffer size flags address lengthAddress) :=
  (hM.readSocklen _).bindSame fun _ => Respects.afterHost _ fun _ =>
    (hM.copyBytesToGuest _ _).bindSame fun _ =>
      (hM.returnSockaddr _ _ _ _).bindSame fun _ => .pure rfl

/-! ## Dispatch -/

theorem sysPrlimit64 (hM : MemoryBisimulation M) (pid resource newLimit oldLimit : U64) :
    KeepsAlike M (LUE.sysPrlimit64 calls pid resource newLimit oldLimit) :=
  (hM.copyOptional _ _).bindSame fun _ => Respects.afterHost _ fun _ =>
    (hM.copyToOptional _ _).bindSame fun _ => .pure rfl

theorem sysFutex (operation : U64) :
    KeepsAlike M (LUE.sysFutex operation) :=
  .ite (fun _ => .pure rfl) fun _ => .ite (fun _ => .pure rfl) fun _ => .pure rfl

/-- The switch over the calls that the host serves. -/
theorem hostSyscall (hM : MemoryBisimulation M) (host : Host)
    (number arg1 arg2 arg3 arg4 arg5 arg6 : U64) :
    KeepsAlike M (LUE.hostSyscall calls host number arg1 arg2 arg3 arg4 arg5 arg6) := by
  unfold LUE.hostSyscall
  split
  · exact Respects.afterHost _ fun _ => hM.returnBytes _ _
  · exact (hM.copyBytesFromGuest _ _).bindSame fun _ => .pure rfl
  · exact (hM.readString _).bindSame fun _ => Respects.afterHost _ fun _ => Respects.returnFd _ _
  · exact Respects.afterHost _ fun _ => (Respects.unregisterHostFd _).bindSame fun _ => .pure rfl
  · exact (hM.readString _).bindSame fun _ => Respects.afterHost _ fun _ => hM.returnStruct _ _
  · exact Respects.afterHost _ fun _ => hM.returnStruct _ _
  · exact (hM.readString _).bindSame fun _ => Respects.afterHost _ fun _ => hM.returnStruct _ _
  · exact hM.sysPoll _ _ _
  · exact .pure rfl
  · exact hM.sysIoctl _ _ _
  · exact Respects.afterHost _ fun _ => hM.returnBytes _ _
  · exact (hM.copyBytesFromGuest _ _).bindSame fun _ => .pure rfl
  · exact hM.sysReadv _ _ _
  · exact hM.sysWritev _ _ _
  · exact (hM.readString _).bindSame fun _ => .pure rfl
  · exact Respects.afterHost _ fun _ => hM.returnFds _ _ _
  · exact hM.selectWith _ _ _ _ _ _ _
  · exact Respects.afterHost _ fun _ => Respects.returnFd _ _
  · exact Respects.afterHost _ fun _ => Respects.returnFd _ _
  · exact hM.sleepWith _ _ _
  · exact .pure rfl
  · exact Respects.afterHost _ fun _ => Respects.returnFd _ _
  · exact (hM.optionalSockaddrFromGuest _ _).bindSame fun _ => .pure rfl
  · exact hM.acceptWith _ _ _
  · exact hM.sysSendto _ _ _ _ _ _
  · exact hM.sysRecvfrom _ _ _ _ _ _
  · exact .pure rfl
  · exact (hM.optionalSockaddrFromGuest _ _).bindSame fun _ => .pure rfl
  · exact .pure rfl
  · exact hM.sockNameWith _ _ _
  · exact hM.sockNameWith _ _ _
  · exact Respects.afterHost _ fun _ => hM.returnFds _ _ _
  · exact (hM.copyOptional _ _).bindSame fun _ => .pure rfl
  · exact hM.sysGetsockopt _ _ _ _ _
  · exact .pure rfl
  · exact .pure rfl
  · exact .pure rfl
  · exact .pure rfl
  · exact .pure rfl
  · exact Respects.afterHost _ fun _ => hM.returnStruct _ _
  · exact sysFcntl _ _ _
  · exact Respects.afterHost _ fun _ => hM.returnBytes _ _
  · exact (hM.readString _).bindSame fun _ => Respects.afterHost _ fun _ => hM.returnBytes _ _
  · exact Respects.afterHost _ fun _ => (hM.copyToOptional _ _).bindSame fun _ => .pure rfl
  · exact .pure rfl
  · exact .pure rfl
  · exact .pure rfl
  · exact .pure rfl
  · exact .pure rfl
  · exact .pure rfl
  · exact .pure rfl
  · exact (hM.readString _).bindSame fun _ => Respects.afterHost _ fun _ => hM.returnStruct _ _
  · exact Respects.afterHost _ fun _ => hM.returnStruct _ _
  · exact .pure rfl
  · exact .pure rfl
  · exact (hM.readString _).bindSame fun _ => (hM.readString _).bindSame fun _ =>
      hM.returnAttribute _ _ _
  · exact (hM.readString _).bindSame fun _ => (hM.readString _).bindSame fun _ =>
      hM.returnAttribute _ _ _
  · exact (hM.readString _).bindSame fun _ => hM.returnAttribute _ _ _
  · exact hM.sysTime _
  · exact sysFutex _
  · exact Respects.afterHost _ fun _ => hM.returnBytes _ _
  · exact Respects.afterHost _ fun _ => hM.returnStruct _ _
  · exact hM.sleepWith _ _ _
  · exact Respects.afterHost _ fun _ => hM.returnEvents _ _
  · exact hM.sysEpollCtl _ _ _ _
  · exact (hM.readString _).bindSame fun _ => Respects.afterHost _ fun _ => Respects.returnFd _ _
  · exact (hM.readOptionalString _).bindSame fun _ => Respects.afterHost _ fun _ =>
      hM.returnStruct _ _
  · exact (hM.readString _).bindSame fun _ => .pure rfl
  · exact hM.selectWith _ _ _ _ _ _ _
  · exact hM.sysPpoll _ _ _
  · exact .pure rfl
  · exact Respects.afterHost _ fun _ => hM.returnEvents _ _
  · exact hM.acceptWith _ _ _
  · exact Respects.afterHost _ fun _ => Respects.returnFd _ _
  · exact Respects.afterHost _ fun _ => Respects.returnFd _ _
  · exact Respects.afterHost _ fun _ => hM.returnFds _ _ _
  · exact hM.sysPrlimit64 _ _ _ _
  · exact Respects.afterHost _ fun _ => hM.returnBytes _ _
  · exact (hM.readOptionalString _).bindSame fun _ => Respects.afterHost _ fun _ =>
      hM.returnStruct _ _
  · exact .pure rfl
  · exact .throw _

theorem hostSyscalls (hM : MemoryBisimulation M) (host : Host) (number : U64) :
    KeepsAlike M (LUE.hostSyscalls calls host number) :=
  Respects.getCPU_bind fun _ _ => hM.hostSyscall host number _ _ _ _ _ _

end MemoryBisimulation

end LUE
