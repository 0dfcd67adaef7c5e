import LinuxUserspaceEmulator.Emulator.Exec

/-!
# Signal handlers return to what they interrupted

A signal that is dispatched to a guest handler starts an excursion: the handler runs, other
signals may interrupt it, it returns to the trampoline, and the trampoline's system call
brings the interrupted program back.  Signals may be dispatched between any two
instructions, so also between the two instructions of the trampoline.

Main results:

- Theorem `step_sigreturn`: the system call restores the context of an intact frame.
- Theorem `Excursion.sigreturnRun`: the excursions through the trampoline, with any nesting
  inside, are runs that end in that system call.
- Theorem `dispatch_and_sigreturn`: a delivery writes its frame only, and every excursion
  gives back the integer context and the signal mask.
- Theorem `SigreturnRun.floatContext_eq_iff`: the floating-point registers are given back
  exactly when the handler gives them back.
-/

namespace LUE

open StateExcept SoftMMU

namespace Emulator

variable {emulator emulator' emulator'' : Emulator} {host : Host}

/-! ## The instructions of the trampoline -/

/-- Some bytes of the trampoline, where the trampoline has been mapped. -/
def TrampolineCode (mmu : SoftMMU) (trampoline : U64) (offset count : Nat) : Prop :=
  ∀ i < count, mmu.read8 (trampoline + BitVec.ofNat 64 (offset + i)) =
    .ok (signalTrampolineCode.getD (offset + i) 0)

/-- The instruction at the instruction pointer is a system call. -/
def ExecutesSyscall (emulator : Emulator) : Prop :=
  ∃ prefixes decoded, SoftCPU64.decodeOpcode emulator = .ok (prefixes, 0x0f) decoded ∧
    decoded.mmu.read8 decoded.cpu.decodePc = .ok 0x05

/-- The instruction at the instruction pointer is a near return. -/
def ExecutesRet (emulator : Emulator) : Prop :=
  ∃ prefixes decoded, SoftCPU64.decodeOpcode emulator = .ok (prefixes, 0xc3) decoded

/-- The only prefix of the trampoline. -/
def rexWPrefix : Prefixes where
  rexPresent := true
  rex := 8

/-- `mov $15, %rax` loads the number of the system call. -/
theorem step_mov_rax (hcode : TrampolineCode emulator.mmu emulator.cpu.rip 0 7) :
    ∃ emulator', SoftCPU64.step host emulator = .ok () emulator' ∧
      emulator'.cpu.rip = emulator.cpu.rip + 7 ∧
      emulator'.cpu.reg .rax = SyscallNumber.rtSigreturn ∧
      emulator'.cpu.reg .rsp = emulator.cpu.reg .rsp := by
  have hbyte : ∀ i < 7, ∀ address, address = emulator.cpu.rip + BitVec.ofNat 64 i →
      emulator.mmu.read8 address = .ok (signalTrampolineCode.getD i 0) := by
    rintro i hi _ rfl
    simpa using hcode i hi
  have hdecode : SoftCPU64.decodeOpcode emulator = .ok (rexWPrefix, 0xc7)
      (SoftCPU64.afterDecoding emulator (emulator.cpu.rip + 1 + 1)) :=
    SoftCPU64.decodeOpcode_of_prefixByte (hbyte 0 (by omega) _ (by simp)) rfl
      (hbyte 1 (by omega) _ rfl) rfl
  have hmodrm : SoftCPU64.fetchModrm rexWPrefix
      (SoftCPU64.afterDecoding emulator (emulator.cpu.rip + 1 + 1)) =
        .ok ⟨0xc0, 3, .rax, .rax⟩
          (SoftCPU64.afterDecoding emulator (emulator.cpu.rip + 1 + 1 + 1)) := by
    rw [SoftCPU64.fetchModrm, bind_of_ok (SoftCPU64.fetch8_afterDecoding
      (hbyte 2 (by omega) (emulator.cpu.rip + 1 + 1) (by bv_omega)))]
    rfl
  have hvalue : SoftCPU64.signExtend
      (LittleEndian.assemble (fun i => signalTrampolineCode.getD (3 + i) 0) 4) .w32 = 15 := by
    decide
  have himm : SoftCPU64.fetchImmediate .w64
      (SoftCPU64.afterDecoding emulator (emulator.cpu.rip + 1 + 1 + 1)) =
        .ok 15 (SoftCPU64.afterDecoding emulator (emulator.cpu.rip + 1 + 1 + 1 + 4)) := by
    have hread : SoftCPU64.fetchInteger 4 _ = _ :=
      SoftCPU64.fetchInteger_afterDecoding fun i hi =>
        hbyte (3 + i) (by omega) (emulator.cpu.rip + 1 + 1 + 1 + BitVec.ofNat 64 i)
          (by bv_omega)
    rw [← hvalue]
    exact bind_of_ok hread
  have hexecute : SoftCPU64.execute host rexWPrefix 0xc7
      (SoftCPU64.afterDecoding emulator (emulator.cpu.rip + 1 + 1)) =
        SoftCPU64.writeOperand (.register .rax) .w64 15 rexWPrefix
          (SoftCPU64.afterDecoding emulator (emulator.cpu.rip + 1 + 1 + 1 + 4)) := by
    change SoftCPU64.executeMovOperandImmediate 0xc7 rexWPrefix _ = _
    rw [SoftCPU64.executeMovOperandImmediate, bind_of_ok hmodrm]
    exact bind_of_ok himm
  rw [SoftCPU64.step_of_decoded hdecode]
  refine ⟨_, bind_of_ok hexecute, ?_, ?_, ?_⟩
  · change emulator.cpu.rip + 1 + 1 + 1 + 4 = _
    bv_omega
  · have hmasked : (15 : U64) &&& SoftCPU64.maskForWidth .w64 &&&
        SoftCPU64.maskForWidth .w64 = 15 := by decide
    exact (Function.update_self Register.rax _ emulator.cpu.gpr).trans hmasked
  · have hne : Register.rsp ≠ Register.rax := by decide
    exact Function.update_of_ne hne (15 &&& SoftCPU64.maskForWidth .w64 &&&
      SoftCPU64.maskForWidth .w64) emulator.cpu.gpr

/-- The second instruction of the trampoline is a system call. -/
theorem executesSyscall_of_trampoline {trampoline : U64}
    (hcode : TrampolineCode emulator.mmu trampoline 7 2)
    (hrip : emulator.cpu.rip = trampoline + 7) : ExecutesSyscall emulator := by
  have hfirst : emulator.mmu.read8 emulator.cpu.rip = .ok 0x0f := by
    rw [hrip]
    exact hcode 0 (by omega)
  have hsecond : emulator.mmu.read8 (emulator.cpu.rip + 1) = .ok 0x05 := by
    rw [hrip, BitVec.add_assoc]
    exact hcode 1 (by omega)
  exact ⟨_, _, SoftCPU64.decodeOpcode_of_byte hfirst rfl, hsecond⟩

/-! ## The system call -/

/-- Remembering a backtrace leaves the memory and the CPU alone. -/
theorem rememberBacktrace_eq_ok {number : U64}
    (h : rememberBacktrace number emulator = .ok () emulator') :
    emulator'.mmu = emulator.mmu ∧ emulator'.cpu = emulator.cpu := by
  rw [rememberBacktrace, bind_of_ok (get_apply emulator)] at h
  split at h
  · obtain ⟨backtrace, observed, hobserve, hmodify⟩ := bind_eq_ok_iff.mp h
    obtain ⟨-, rfl⟩ := observe_eq_ok_iff.mp hobserve
    cases hmodify
    exact ⟨rfl, rfl⟩
  · cases h
    exact ⟨rfl, rfl⟩

theorem dispatch_rtSigreturn (host : Host) (emulator : Emulator) :
    dispatch host SyscallNumber.rtSigreturn emulator = handleSigreturn emulator := by
  rw [dispatch, bind_of_ok (getCPU_apply emulator), if_neg (by decide), if_neg (by decide),
    if_neg (by decide), if_neg (by decide), if_neg (by decide), if_neg (by decide),
    if_neg (by decide), if_pos (by decide)]

/-- The system call restores the context and the mask of an intact frame, and leaves the
floating-point registers alone. -/
theorem step_sigreturn {saved : SignalFrame} (hsyscall : ExecutesSyscall emulator)
    (hnumber : emulator.cpu.reg .rax = SyscallNumber.rtSigreturn)
    (hframe : FrameReads emulator.mmu (emulator.cpu.reg .rsp) saved)
    (h : SoftCPU64.step host emulator = .ok () emulator') :
    emulator'.cpu.integerContext = saved.context ∧ emulator'.signalMask = saved.mask ∧
      emulator'.cpu.floatContext = emulator.cpu.floatContext := by
  obtain ⟨prefixes, decoded, hdecode, hsecond⟩ := hsyscall
  obtain ⟨pc, rfl⟩ := SoftCPU64.decodeOpcode_eq_ok hdecode
  obtain ⟨final, hexecute, rfl⟩ := SoftCPU64.execute_of_step hdecode h
  have hbyte : emulator.mmu.read8 pc = .ok 0x05 := hsecond
  change SoftCPU64.execute0f host prefixes _ = _ at hexecute
  rw [SoftCPU64.execute0f, bind_of_ok (SoftCPU64.fetch8_afterDecoding hbyte)] at hexecute
  change SoftCPU64.executeSyscall host _ = _ at hexecute
  rw [SoftCPU64.executeSyscall, bind_of_ok (getCPU_apply _),
    bind_of_ok (modifyCPU_apply _ _)] at hexecute
  obtain ⟨result, returned, hhandled, hrest⟩ := bind_eq_ok_iff.mp hexecute
  obtain ⟨_, remembered, hremember, hdispatch⟩ := bind_eq_ok_iff.mp hhandled
  obtain ⟨hmmu, hcpu⟩ := rememberBacktrace_eq_ok hremember
  have hstack : remembered.cpu.reg .rsp = emulator.cpu.reg .rsp := by
    rw [hcpu]
    rfl
  have hfloat : remembered.cpu.floatContext = emulator.cpu.floatContext := by
    rw [hcpu]
    rfl
  have hintact : FrameReads remembered.mmu (remembered.cpu.reg .rsp) saved := by
    rw [hmmu, hstack]
    exact hframe
  change dispatch host (emulator.cpu.reg .rax) _ = _ at hdispatch
  rw [hnumber, dispatch_rtSigreturn, handleSigreturn_of_frame hintact] at hdispatch
  cases hdispatch
  cases hrest
  exact ⟨rfl, rfl, hfloat⟩

/-! ## Frames that are still there -/

/-- The bytes that memory held in a block at one time can be read from it at another. -/
def ReadsBack (stored now : SoftMMU) (address : U64) (count : Nat) : Prop :=
  ∀ i < count, ∃ byte, stored.guestByte (address + BitVec.ofNat 64 i) = some byte ∧
    now.read8 (address + BitVec.ofNat 64 i) = .ok byte

section Intact

variable {signum : Nat} {mmu : SoftMMU}

/-- A frame that nobody has overwritten since its delivery. -/
theorem EntersHandler.frameReads (h : EntersHandler signum emulator emulator')
    (hintact : ReadsBack emulator'.mmu mmu emulator.frame 176) :
    FrameReads mmu emulator.frame (emulator.savedFrame signum) := by
  intro i hi
  obtain ⟨byte, hstored, hread⟩ := hintact i hi
  have haddress : emulator.frame + BitVec.ofNat 64 i =
      emulator.frame - 8 + BitVec.ofNat 64 (8 + i) := by
    bv_omega
  rw [haddress, h.guestByte (by omega)] at hstored
  rw [hread, Option.some.inj hstored]

/-- A return slot that nobody has overwritten since the delivery holds the restorer. -/
theorem EntersHandler.read64_slot (h : EntersHandler signum emulator emulator')
    (hintact : ReadsBack emulator'.mmu mmu (emulator.frame - 8) 8) :
    mmu.read64 (emulator.frame - 8) =
      .ok (emulator.restorerFor (emulator.signalActions signum)) := by
  have hbytes : ∀ i < 8, mmu.read8 (emulator.frame - 8 + BitVec.ofNat 64 i) =
      .ok (LittleEndian.byte (emulator.restorerFor (emulator.signalActions signum)) i) := by
    intro i hi
    obtain ⟨byte, hstored, hread⟩ := hintact i hi
    have hword : i / 8 = 0 := by omega
    have hindex : i % 8 = i := by omega
    rw [h.guestByte (by omega), SignalFrame.byte, hword, hindex] at hstored
    rw [hread, ← Option.some.inj hstored]
    rfl
  rw [read64, readInteger_of_bytes hbytes, LittleEndian.assemble_byte]

end Intact

/-! ## Excursions -/

/-- A run from the dispatch of a signal to a system call that returns from it: at the system
call the stack pointer is at the frame and the frame is as it was delivered. -/
structure SigreturnRun (signum : Nat) (dispatched entered returning returned : Emulator) :
    Prop where
  enters : EntersHandler signum dispatched entered
  rounds : Rounds entered returning
  syscall : ExecutesSyscall returning
  number : returning.cpu.reg .rax = SyscallNumber.rtSigreturn
  stack : returning.cpu.reg .rsp = dispatched.frame
  intact : ReadsBack entered.mmu returning.mmu dispatched.frame 176
  step : ∃ host, SoftCPU64.step host returning = .ok () returned

/-- A handler run that ends by executing a return at the return slot, which is as it was
delivered. -/
structure HandlerReturns (dispatched entered returning returned : Emulator) : Prop where
  rounds : Rounds entered returning
  ret : ExecutesRet returning
  stack : returning.cpu.reg .rsp = dispatched.frame - 8
  intact : ReadsBack entered.mmu returning.mmu (dispatched.frame - 8) 8
  step : ∃ host, SoftCPU64.step host returning = .ok () returned

/-- The execution of an instruction while the trampoline is in place. -/
structure TrampolineStep (trampoline : U64) (offset count : Nat)
    (emulator emulator' : Emulator) : Prop where
  code : TrampolineCode emulator.mmu trampoline offset count
  step : ∃ host, SoftCPU64.step host emulator = .ok () emulator'

mutual

/-- What lies between the dispatch of a signal and the system call that returns from it. -/
inductive Excursion : Emulator → Emulator → Prop
  /-- Any run that ends in such a system call. -/
  | sigreturn {signum : Nat} {dispatched entered returning returned : Emulator}
      (run : SigreturnRun signum dispatched entered returning returned) :
      Excursion dispatched returned
  /-- The handler returns to the default trampoline, and signals may be dispatched before
  each of its two instructions. -/
  | trampoline {signum : Nat}
      {dispatched entered returning landed loading loaded calling returned : Emulator}
      (enters : EntersHandler signum dispatched entered)
      (restorer : dispatched.restorerFor (dispatched.signalActions signum) =
        dispatched.signalTrampoline)
      (handler : HandlerReturns dispatched entered returning landed)
      (boundary : Boundary landed loading)
      (mov : TrampolineStep dispatched.signalTrampoline 0 7 loading loaded)
      (boundary' : Boundary loaded calling)
      (intact : ReadsBack entered.mmu calling.mmu dispatched.frame 176)
      (syscall : TrampolineStep dispatched.signalTrampoline 7 2 calling returned) :
      Excursion dispatched returned

/-- What happens between two instructions: signals are collected and dispatched, and each
one that enters a handler is returned from. -/
inductive Boundary : Emulator → Emulator → Prop
  | quiet {arrived : Nat → Bool} {before collected after : Emulator}
      (collect : collectHostSignals arrived before = .ok () collected)
      (dispatch : dispatchPendingSignal collected = .ok () after)
      (none : ∀ signum, ¬EntersHandler signum collected after) :
      Boundary before after
  | interrupted {arrived : Nat → Bool} {before collected returned after : Emulator}
      (collect : collectHostSignals arrived before = .ok () collected)
      (excursion : Excursion collected returned)
      (rest : Boundary returned after) :
      Boundary before after

end

/-- A run that returns from a signal gives back the context and the mask. -/
theorem SigreturnRun.context {signum : Nat}
    {dispatched entered returning returned : Emulator}
    (h : SigreturnRun signum dispatched entered returning returned) :
    returned.cpu.integerContext = dispatched.cpu.integerContext ∧
      returned.signalMask = dispatched.signalMask ∧
      returned.cpu.floatContext = returning.cpu.floatContext := by
  obtain ⟨host, hstep⟩ := h.step
  have hframe := h.enters.frameReads h.intact
  rw [← h.stack] at hframe
  exact step_sigreturn h.syscall h.number hframe hstep

/-- An instruction and a boundary that collects and dispatches make a round. -/
theorem round_of_step {before collected after : Emulator} {arrived : Nat → Bool}
    (hstep : SoftCPU64.step host emulator = .ok () before)
    (hcollect : collectHostSignals arrived before = .ok () collected)
    (hdispatch : dispatchPendingSignal collected = .ok () after) : Round emulator after := by
  refine ⟨host, arrived, ?_⟩
  rw [execRound, bind_of_ok hstep, signalRound, bind_of_ok hcollect]
  exact hdispatch

/-- Collecting signals keeps the context and the mask. -/
theorem collect_context {arrived : Nat → Bool}
    (h : collectHostSignals arrived emulator = .ok () emulator') :
    emulator'.cpu = emulator.cpu ∧ emulator'.signalMask = emulator.signalMask := by
  obtain ⟨pending, rfl⟩ := collectHostSignals_eq_ok h
  exact ⟨rfl, rfl⟩

/-- From one state to another a run may be continued, and the context and the mask are the
same. -/
structure Resumes (before after : Emulator) : Prop where
  rounds : ∀ earlier host, SoftCPU64.step host earlier = .ok () before → Rounds earlier after
  context : after.cpu.integerContext = before.cpu.integerContext
  mask : after.signalMask = before.signalMask

/-- A boundary that enters no handler. -/
theorem resumes_of_quiet {before collected after : Emulator} {arrived : Nat → Bool}
    (hcollect : collectHostSignals arrived before = .ok () collected)
    (hdispatch : dispatchPendingSignal collected = .ok () after)
    (hnone : ∀ signum, ¬EntersHandler signum collected after) : Resumes before after := by
  obtain ⟨hcpu, hmask⟩ := dispatch_keeps_context hdispatch hnone
  obtain ⟨hcpu', hmask'⟩ := collect_context hcollect
  refine ⟨fun earlier host hstep => ?_, ?_, hmask.trans hmask'⟩
  · exact Relation.ReflTransGen.single (round_of_step hstep hcollect hdispatch)
  · rw [hcpu, hcpu']

/-- A boundary that enters a handler and returns from it. -/
theorem resumes_of_interrupted {signum : Nat} {arrived : Nat → Bool}
    {before collected entered returning returned after : Emulator}
    (hcollect : collectHostSignals arrived before = .ok () collected)
    (hrun : SigreturnRun signum collected entered returning returned)
    (hrest : Resumes returned after) : Resumes before after := by
  obtain ⟨hruncontext, hrunmask, -⟩ := hrun.context
  obtain ⟨hcpu, hmask⟩ := collect_context hcollect
  refine ⟨fun earlier host hstep => ?_, ?_, ?_⟩
  · obtain ⟨hostreturn, hreturn⟩ := hrun.step
    have hfirst := round_of_step hstep hcollect hrun.enters.dispatch
    exact (hrun.rounds.head hfirst).trans (hrest.rounds returning hostreturn hreturn)
  · rw [hrest.context, hruncontext, hcpu]
  · rw [hrest.mask, hrunmask, hmask]

/-- A handler that returns to the trampoline, and a trampoline whose boundaries give back the
context, make a run to the system call. -/
theorem sigreturnRun_of_trampoline {signum : Nat}
    {dispatched entered returning landed loading loaded calling returned : Emulator}
    (henters : EntersHandler signum dispatched entered)
    (hrestorer : dispatched.restorerFor (dispatched.signalActions signum) =
      dispatched.signalTrampoline)
    (hhandler : HandlerReturns dispatched entered returning landed)
    (hboundary : Resumes landed loading)
    (hload : TrampolineStep dispatched.signalTrampoline 0 7 loading loaded)
    (hboundary' : Resumes loaded calling)
    (hintact : ReadsBack entered.mmu calling.mmu dispatched.frame 176)
    (hcall : TrampolineStep dispatched.signalTrampoline 7 2 calling returned) :
    SigreturnRun signum dispatched entered calling returned := by
  obtain ⟨hostret, hret⟩ := hhandler.step
  obtain ⟨prefixes, decoded, hdecode⟩ := hhandler.ret
  obtain ⟨hslot, hrsp⟩ := SoftCPU64.step_ret hdecode hret
  rw [hhandler.stack, henters.read64_slot hhandler.intact, hrestorer] at hslot
  have hrip : loading.cpu.rip = dispatched.signalTrampoline :=
    (congrArg SoftCPU64.IntegerContext.rip hboundary.context).trans (Except.ok.inj hslot).symm
  have hstack : loading.cpu.reg .rsp = dispatched.frame := by
    have hgpr := congrFun (congrArg SoftCPU64.IntegerContext.gpr hboundary.context) Register.rsp
    refine hgpr.trans ?_
    change landed.cpu.reg .rsp = _
    rw [hrsp, hhandler.stack, BitVec.sub_add_cancel]
  obtain ⟨hostmov, hmov⟩ := hload.step
  have hcode := hload.code
  rw [← hrip] at hcode
  have hmoves : ∃ moved, SoftCPU64.step hostmov loading = .ok () moved ∧ _ :=
    step_mov_rax hcode
  obtain ⟨moved, hmoved, hmovrip, hmovrax, hmovrsp⟩ := hmoves
  rw [hmov] at hmoved
  cases hmoved
  have hgpr := congrArg SoftCPU64.IntegerContext.gpr hboundary'.context
  have hrip' : calling.cpu.rip = dispatched.signalTrampoline + 7 := by
    rw [← hrip, ← hmovrip]
    exact congrArg SoftCPU64.IntegerContext.rip hboundary'.context
  refine ⟨henters, ?_, ?_, ?_, ?_, hintact, hcall.step⟩
  · exact (hhandler.rounds.trans (hboundary.rounds returning hostret hret)).trans
      (hboundary'.rounds loading hostmov hmov)
  · exact executesSyscall_of_trampoline hcall.code hrip'
  · exact (congrFun hgpr Register.rax).trans hmovrax
  · exact (congrFun hgpr Register.rsp).trans (hmovrsp.trans hstack)

mutual

/-- Every excursion ends in a system call that returns from its signal. -/
theorem Excursion.sigreturnRun {dispatched returned : Emulator} :
    Excursion dispatched returned →
    ∃ signum entered returning, SigreturnRun signum dispatched entered returning returned
  | .sigreturn run => ⟨_, _, _, run⟩
  | .trampoline enters restorer handler boundary mov boundary' intact syscall =>
      ⟨_, _, _, sigreturnRun_of_trampoline enters restorer handler boundary.resumes mov
        boundary'.resumes intact syscall⟩

/-- A boundary gives back the context and the mask, and continues a run. -/
theorem Boundary.resumes {before after : Emulator} :
    Boundary before after → Resumes before after
  | .quiet collect dispatch hnone => resumes_of_quiet collect dispatch hnone
  | .interrupted collect excursion rest =>
      have ⟨_, _, _, hrun⟩ := excursion.sigreturnRun
      resumes_of_interrupted collect hrun rest.resumes

end

/-! ## Deliveries and their returns -/

/-- Delivery and return are inverse on the integer context: a delivery writes only the return
slot and the frame, which lie below the red zone, and after every excursion the general
registers, the instruction pointer, the flags, the segment bases and the signal mask are as
they were at the dispatch. -/
theorem dispatch_and_sigreturn {signum : Nat} (hwf : RegionsWellFormed emulator.mmu.regions)
    (hpending : emulator.nextPendingSignal = some signum)
    (hhandler : emulator.HasGuestHandler signum)
    (hwritable : FrameWritable emulator.mmu emulator.frame) :
    (∃ entered, EntersHandler signum emulator entered ∧
      ∀ address, ¬(emulator.frame.toNat ≤ address.toNat + 8 ∧
          address.toNat < emulator.frame.toNat + 176) →
        entered.mmu.addressMap address = emulator.mmu.addressMap address) ∧
      (emulator.frame - 8).toNat + 8 = emulator.frame.toNat ∧
      emulator.frame.toNat + 176 + 128 ≤ (emulator.cpu.reg .rsp).toNat ∧
      ∀ returned, Excursion emulator returned →
        returned.cpu.integerContext = emulator.cpu.integerContext ∧
          returned.signalMask = emulator.signalMask := by
  have hbelow : (emulator.frame - 8).toNat + 8 = emulator.frame.toNat ∧
      emulator.frame.toNat + 176 + 128 ≤ (emulator.cpu.reg .rsp).toNat :=
    frameAddress_below_redZone hwf hwritable
  obtain ⟨hslot, hredzone⟩ := hbelow
  refine ⟨?_, hslot, hredzone, ?_⟩
  · obtain ⟨mmu, hdispatch, hedits⟩ :=
      dispatchPendingSignal_of_writable hwf hpending hhandler hwritable
    refine ⟨_, ⟨hpending, hhandler, hdispatch⟩, fun address houtside => ?_⟩
    change mmu.addressMap address = _
    rw [hedits.addressMap, AddressMap.editCells, if_neg]
    rw [within_iff]
    omega
  · intro returned hexcursion
    obtain ⟨_, _, _, hrun⟩ := hexcursion.sigreturnRun
    exact ⟨hrun.context.1, hrun.context.2.1⟩

/-- The floating-point registers are given back exactly when the handler leaves them, at the
system call, as it found them. -/
theorem SigreturnRun.floatContext_eq_iff {signum : Nat}
    {dispatched entered returning returned : Emulator}
    (h : SigreturnRun signum dispatched entered returning returned) :
    returned.cpu.floatContext = dispatched.cpu.floatContext ↔
      returning.cpu.floatContext = entered.cpu.floatContext := by
  rw [h.context.2.2, h.enters.floatContext]

/-! ## A handler that uses an XMM register -/

section XmmHandler

deriving instance Inhabited for FloatOps, LongDoubleMath
deriving instance Inhabited for HostFloat

/-- A host that has nothing to say during the run. -/
def quietHost : Host where
  files := ⟨fun _ => .ok [], fun _ _ _ => .ok []⟩
  float := default
  steadyClock := 0
  pid := 1
  tid := 1
  otherSyscalls := fun _ => return 0

/-- A page that begins with some bytes. -/
def pageOf (base : U64) (prot : Protection) (content : List U8) : Region :=
  { Region.ofZeroes base 4096 prot "" with
    bytes := content ++ List.replicate (4096 - content.length) 0 }

theorem pageOf_wellFormed {base : U64} {prot : Protection} {content : List U8}
    (hlength : content.length ≤ 4096) (hbase : base.toNat % 4096 = 0)
    (hend : base.toNat + 4096 < 2 ^ 64) : (pageOf base prot content).WellFormed := by
  have hsize : (4096 : U64).toNat % 4096 = 0 := by decide
  refine ⟨hbase, hsize, hend, ?_, List.length_replicate⟩
  rw [pageOf, List.length_append, List.length_replicate]
  exact Nat.add_sub_cancel' hlength

/-- One page is a well-formed memory. -/
theorem regionsWellFormed_pageOf {base : U64} {prot : Protection} {content : List U8}
    (hlength : content.length ≤ 4096) (hbase : base.toNat % 4096 = 0)
    (hend : base.toNat + 4096 < 2 ^ 64) : RegionsWellFormed [pageOf base prot content] := by
  refine regionsWellFormed_of_consecutive ?_ (List.pairwise_singleton _ _)
  intro region hregion
  rw [List.mem_singleton.mp hregion]
  exact pageOf_wellFormed hlength hbase hend

theorem findRegion_pageOf {base other : U64} {prot : Protection} {content : List U8}
    (hbase : base ≤ other) (hend : other < base + 4096) :
    SoftMMU.findRegion { regions := [pageOf base prot content] } other =
      some (pageOf base prot content) := by
  have hcontains : (pageOf base prot content).contains other = true :=
    Bool.and_eq_true_iff.mpr ⟨decide_eq_true hbase, decide_eq_true hend⟩
  exact List.find?_cons_of_pos (p := fun region : Region => region.contains other) hcontains

/-- Every address of a page has its permission. -/
theorem protections_pageOf {base other : U64} {prot : Protection} {content : List U8}
    (hbase : base ≤ other) (hend : other < base + 4096) :
    SoftMMU.protections { regions := [pageOf base prot content] } other = some prot := by
  have hcell : SoftMMU.addressMap { regions := [pageOf base prot content] } other =
      some ((pageOf base prot content).cellAt other) :=
    congrArg (Option.map fun region : Region => region.cellAt other) (findRegion_pageOf hbase hend)
  rw [SoftMMU.protections, hcell, Option.map_some]
  rfl

/-- A readable page begins with its content. -/
theorem read8_pageOf {base other : U64} {prot : Protection} {content : List U8} {byte : U8}
    (hbase : base ≤ other) (hend : other < base + 4096) (hprot : prot &&& protRead = protRead)
    (hbyte : content[(other - base).toNat]? = some byte) :
    SoftMMU.read8 other { regions := [pageOf base prot content] } = .ok byte := by
  have hregion : SoftMMU.regionFor other protRead { regions := [pageOf base prot content] } =
      .ok (pageOf base prot content) :=
    SoftMMU.regionFor_eq_ok_iff.mpr ⟨findRegion_pageOf hbase hend, hprot⟩
  have hbytes : (pageOf base prot content).bytes[(other - base).toNat]? = some byte := by
    rw [pageOf, List.getElem?_append_left (List.getElem?_eq_some_iff.mp hbyte).1, hbyte]
  have hread : (pageOf base prot content).readOffset (other - base) = .ok byte := by
    rw [Region.readOffset, hbytes]
  rw [SoftMMU.read8, except_bind_of_ok hregion]
  exact hread

/-- Storing the byte after the content of a writable page appends it to the content. -/
theorem write8_pageOf {base other : U64} {prot : Protection} {content : List U8} {byte : U8}
    {rest : List Region} (hbase : base ≤ other) (hend : other < base + 4096)
    (hprot : prot &&& protWrite = protWrite) (hoffset : (other - base).toNat = content.length)
    (hlength : content.length < 4096) :
    write8 other byte { regions := pageOf base prot content :: rest } =
      .ok () { regions := pageOf base prot (content ++ [byte]) :: rest } := by
  have hcontains : (pageOf base prot content).contains other = true :=
    Bool.and_eq_true_iff.mpr ⟨decide_eq_true hbase, decide_eq_true hend⟩
  have hfound : SoftMMU.findRegion { regions := pageOf base prot content :: rest } other =
      some (pageOf base prot content) :=
    List.find?_cons_of_pos (p := fun region : Region => region.contains other) hcontains
  have hregion : SoftMMU.regionFor other protWrite
      { regions := pageOf base prot content :: rest } = .ok (pageOf base prot content) :=
    SoftMMU.regionFor_eq_ok_iff.mpr ⟨hfound, hprot⟩
  have hzeroes : List.replicate (4096 - content.length) (0 : U8) =
      0 :: List.replicate (4096 - (content.length + 1)) 0 := by
    rw [show 4096 - content.length = 4096 - (content.length + 1) + 1 from by omega]
    rfl
  have hbytes : (pageOf base prot content).bytes.set content.length byte =
      (pageOf base prot (content ++ [byte])).bytes := by
    rw [pageOf, pageOf, List.set_append_right _ _ (Nat.le_refl _), Nat.sub_self, hzeroes,
      List.set_cons_zero, List.append_assoc, List.length_append]
    rfl
  have hflags : (pageOf base prot content).initialized.set content.length true =
      (pageOf base prot (content ++ [byte])).initialized :=
    List.set_replicate_self
  have hwritten : (pageOf base prot content).writeOffset (other - base) byte true =
      .ok (pageOf base prot (content ++ [byte])) := by
    refine Region.writeOffset_eq_ok_iff.mpr ⟨?_, ?_, ?_⟩
    · rw [hoffset, pageOf, List.length_append, List.length_replicate]
      omega
    · rw [hoffset]
      exact Nat.lt_of_lt_of_eq hlength List.length_replicate.symm
    · rw [hoffset, hbytes, hflags]
      rfl
  have hupdate : SegmentList.update Region.contains (pageOf base prot content :: rest) other
      (fun _ => pageOf base prot (content ++ [byte])) =
      pageOf base prot (content ++ [byte]) :: rest := by
    rw [SegmentList.update, if_pos hcontains]
  rw [write8, write8WithShadow, bind_of_ok (observe_regionFor hregion),
    bind_of_ok (modify_apply _ _)]
  change (observe (fun _ => (pageOf base prot content).writeOffset (other - base) byte true) >>=
    fun written => assignRegion other written) _ = _
  rw [hwritten]
  change EStateM.Result.ok () { regions := SegmentList.update _ _ _ _ : SoftMMU } = _
  rw [hupdate]

/-- Storing bytes after the content of a writable page appends them to the content. -/
theorem writeBytes_pageOf {base address : U64} {prot : Protection} {content : List U8}
    {rest : List Region} {bytes : Nat → U8} (hprot : prot &&& protWrite = protWrite)
    (haddress : address = base + BitVec.ofNat 64 content.length)
    (hend : base.toNat + 4096 < 2 ^ 64) {count : Nat} (hcount : content.length + count ≤ 4096) :
    writeBytes address bytes count { regions := pageOf base prot content :: rest } =
      .ok () { regions := pageOf base prot (content ++ (List.range count).map bytes) :: rest } := by
  induction count with
  | zero =>
      rw [List.range_zero, List.map_nil, List.append_nil]
      rfl
  | succ count ih =>
      have hlength : (content ++ (List.range count).map bytes).length = content.length + count := by
        simp
      refine forOffsets_succ_eq_ok_iff.mpr ⟨_, ih (by omega), ?_⟩
      rw [List.range_succ, List.map_append, ← List.append_assoc]
      refine write8_pageOf ?_ ?_ hprot ?_ (by omega)
      · rw [haddress]
        bv_omega
      · rw [haddress]
        bv_omega
      · rw [haddress, hlength]
        bv_omega

/-- A stack, a page with the handler `pxor %xmm0, %xmm0; ret`, and the trampoline. -/
def xmmHandlerMemory (stack : List U8) : SoftMMU where
  regions := [pageOf 0x1000 (protRead ||| protWrite) stack,
    pageOf 0x2000 (protRead ||| protExecute) [0x66, 0x0f, 0xef, 0xc0, 0xc3],
    pageOf 0x3000 (protRead ||| protExecute) signalTrampolineCode]

/-- A program with `SIGHUP` pending. -/
def xmmInterrupted : Emulator where
  mmu := xmmHandlerMemory []
  cpu :=
    { gpr := fun register => if register = .rsp then 0x1140 else 7
      rip := 0x2004
      xmm := fun _ _ => 1 }
  signalTrampoline := 0x3000
  pendingSignals := 1
  signalActions := fun _ => { handler := 0x2000 }

/-- The program at the entry of its handler. -/
def xmmEntered : Emulator :=
  xmmInterrupted.delivered 1 (xmmHandlerMemory
    (List.replicate 8 0 ++ (List.range 184).map (xmmInterrupted.savedFrame 1).byte))

/-- The state after one round in which no signal arrives. -/
def afterRound (emulator : Emulator) : Emulator :=
  finalState (execRound quietHost (fun _ => false) emulator)

/-- The program at the system call of the trampoline. -/
def xmmCalling : Emulator :=
  afterRound (afterRound (afterRound xmmEntered))

/-- The program after its handler. -/
def xmmReturned : Emulator :=
  finalState (SoftCPU64.step quietHost xmmCalling)

theorem xmmInterrupted_regionsWellFormed :
    RegionsWellFormed xmmInterrupted.mmu.regions := by
  refine regionsWellFormed_of_consecutive ?_ (by decide)
  simp only [xmmInterrupted, xmmHandlerMemory, List.forall_mem_cons, List.not_mem_nil,
    false_implies, implies_true, and_true]
  exact ⟨pageOf_wellFormed (by decide) (by decide) (by decide),
    pageOf_wellFormed (by decide) (by decide) (by decide),
    pageOf_wellFormed (by decide) (by decide) (by decide)⟩

set_option maxRecDepth 10000 in
theorem xmmInterrupted_enters : EntersHandler 1 xmmInterrupted xmmEntered := by
  have hpending : xmmInterrupted.nextPendingSignal = some 1 := by decide
  have hhandler : xmmInterrupted.HasGuestHandler 1 := ⟨by decide, by decide⟩
  refine ⟨hpending, hhandler, ?_⟩
  rw [dispatchPendingSignal_eq_ok_iff hpending hhandler]
  refine ⟨_, ?_, rfl⟩
  -- The frame is stored behind the eight bytes of the page that lie below it.
  exact @writeBytes_pageOf 0x1000 _ _ (List.replicate 8 0) _ _ (by decide) (by decide)
    (by decide) 184 (by decide)

theorem round_afterRound (h : returned (execRound quietHost (fun _ => false) emulator) = some ()) :
    Round emulator (afterRound emulator) :=
  ⟨quietHost, fun _ => false, eq_ok_of_returned h⟩

/-- The whole run of the handler, up to the system call and over it. -/
theorem xmmInterrupted_sigreturnRun :
    SigreturnRun 1 xmmInterrupted xmmEntered xmmCalling xmmReturned where
  enters := xmmInterrupted_enters
  rounds := by
    have hpxor : Round xmmEntered (afterRound xmmEntered) :=
      round_afterRound (by decide +kernel)
    have hret : Round (afterRound xmmEntered) (afterRound (afterRound xmmEntered)) :=
      round_afterRound (by decide +kernel)
    have hmov : Round (afterRound (afterRound xmmEntered)) xmmCalling :=
      round_afterRound (by decide +kernel)
    exact ((Relation.ReflTransGen.single hpxor).tail hret).tail hmov
  syscall := by
    have hcode : TrampolineCode xmmCalling.mmu 0x3000 7 2 := by
      unfold TrampolineCode
      decide +kernel
    exact executesSyscall_of_trampoline hcode (by decide +kernel)
  number := by decide +kernel
  stack := by decide +kernel
  intact := by
    have hread : ∀ i < 176, xmmCalling.mmu.read8 (xmmInterrupted.frame + BitVec.ofNat 64 i) =
        .ok ((xmmInterrupted.savedFrame 1).byte (8 + i)) := by
      decide +kernel
    intro i hi
    refine ⟨_, ?_, hread i hi⟩
    have haddress : xmmInterrupted.frame + BitVec.ofNat 64 i =
        xmmInterrupted.frame - 8 + BitVec.ofNat 64 (8 + i) := by
      bv_omega
    rw [haddress, xmmInterrupted_enters.guestByte (by omega)]
  step := ⟨quietHost, eq_ok_of_returned (by decide +kernel)⟩

/-- The run gives back the context of the program. -/
theorem dispatch_and_sigreturn_xmm :
    (∃ returned, Excursion xmmInterrupted returned) ∧
      ((∃ entered, EntersHandler 1 xmmInterrupted entered ∧
        ∀ address, ¬(xmmInterrupted.frame.toNat ≤ address.toNat + 8 ∧
            address.toNat < xmmInterrupted.frame.toNat + 176) →
          entered.mmu.addressMap address = xmmInterrupted.mmu.addressMap address) ∧
        (xmmInterrupted.frame - 8).toNat + 8 = xmmInterrupted.frame.toNat ∧
        xmmInterrupted.frame.toNat + 176 + 128 ≤ (xmmInterrupted.cpu.reg .rsp).toNat ∧
        ∀ returned, Excursion xmmInterrupted returned →
          returned.cpu.integerContext = xmmInterrupted.cpu.integerContext ∧
            returned.signalMask = xmmInterrupted.signalMask) := by
  have hwritable : FrameWritable xmmInterrupted.mmu xmmInterrupted.frame := by
    have hcells : ∀ i < 184, (xmmInterrupted.mmu.addressMap.access
        (xmmInterrupted.frame - 8 + BitVec.ofNat 64 i) protWrite).isOk = true := by
      decide +kernel
    exact fun i hi => exists_eq_ok_of_isOk (hcells i hi)
  exact ⟨⟨_, .sigreturn xmmInterrupted_sigreturnRun⟩,
    dispatch_and_sigreturn xmmInterrupted_regionsWellFormed (by decide)
      ⟨by decide, by decide⟩ hwritable⟩

/-- The handler clears a register, and the program finds it cleared. -/
theorem floatContext_eq_iff_xmm :
    xmmReturned.cpu.floatContext = xmmInterrupted.cpu.floatContext ↔
      xmmCalling.cpu.floatContext = xmmEntered.cpu.floatContext :=
  xmmInterrupted_sigreturnRun.floatContext_eq_iff

/-- A handler that returns normally is not transparent to the XMM registers. -/
theorem sigreturn_loses_xmm :
    ¬∀ signum dispatched entered returning returned,
      SigreturnRun signum dispatched entered returning returned →
        returned.cpu.floatContext = dispatched.cpu.floatContext := by
  intro htransparent
  have hsame := htransparent _ _ _ _ _ xmmInterrupted_sigreturnRun
  have hlost : xmmReturned.cpu.floatContext.xmm 0 0 ≠
      xmmInterrupted.cpu.floatContext.xmm 0 0 := by
    decide +kernel
  rw [hsame] at hlost
  exact hlost rfl

end XmmHandler

end Emulator

end LUE
