import LinuxUserspaceEmulator.SoftCPU64.OperandPosition

/-!
# RIP-relative operands

A RIP-relative operand is relative to the next instruction.  The accesses of an operand are
logged by the observers of guest memory, so an instruction finds its operand when, whoever
observes, it does what it would do with an operand at that address.

Main results:

- Theorem `decodeMemoryAddress_ripRelative`: what is decoded as a RIP-relative operand.
- Theorem `OperandRest.not_takesOperandAt`: four opcodes read somewhere else.
- Theorem `step_ripRelative`: which instructions resolve a RIP-relative operand rightly.
-/

namespace LUE

open StateExcept

namespace SoftMMU

/-! ## The read log -/

variable {mmu : SoftMMU} {address : U64}

/-- A shadowed byte read of a readable address is logged. -/
theorem readObserver_read8WithShadow {region : Region}
    (h : mmu.regionFor address protRead = .ok region) :
    (finalState (read8WithShadow address mmu)).readObserver =
      mmu.readObserver.map (· ++ [address]) := by
  rw [read8WithShadow, bind_of_ok (observe_regionFor h), bind_of_ok (modify_apply _ mmu), observe]
  split <;> rfl

/-- A read of any address logs that address or nothing. -/
theorem exists_readObserver_read8WithShadow (mmu : SoftMMU) (address : U64) :
    ∃ more, (finalState (read8WithShadow address mmu)).readObserver =
      mmu.readObserver.map (· ++ more) := by
  cases h : mmu.regionFor address protRead with
  | ok region => exact ⟨[address], readObserver_read8WithShadow h⟩
  | error e =>
      refine ⟨[], ?_⟩
      rw [read8WithShadow, bind_of_error (observe_regionFor_error h)]
      simp

/-- The log of a multi-byte read starts with the first byte. -/
theorem readObserver_readIntegerWithShadow {region : Region}
    (h : mmu.regionFor address protRead = .ok region) (count : Nat) :
    ∃ more, (finalState (readIntegerWithShadow address (count + 1) mmu)).readObserver =
      mmu.readObserver.map (· ++ address :: more) := by
  induction count with
  | zero =>
      have hfirst : address + BitVec.ofNat 64 0 = address := BitVec.add_zero address
      refine ⟨[], ?_⟩
      rw [readIntegerWithShadow, readIntegerWithShadow, pure_bind, hfirst,
        ← readObserver_read8WithShadow h]
      exact finalState_bind_of_keeps readObserver (fun _ _ => rfl) mmu
  | succ count ih =>
      rcases ih with ⟨more, hlog⟩
      rw [readIntegerWithShadow]
      cases hlow : readIntegerWithShadow address (count + 1) mmu with
      | error e middle =>
          rw [bind_of_error hlow]
          rw [hlow] at hlog
          exact ⟨more, hlog⟩
      | ok low middle =>
          rw [bind_of_ok hlow]
          rw [hlow] at hlog
          rcases exists_readObserver_read8WithShadow middle
            (address + BitVec.ofNat 64 (count + 1)) with ⟨last, hbyte⟩
          refine ⟨more ++ last, ?_⟩
          have hlogs : (mmu.readObserver.map (· ++ address :: more)).map (· ++ last) =
              mmu.readObserver.map (· ++ address :: (more ++ last)) := by
            cases mmu.readObserver <;> simp
          rw [finalState_bind_of_keeps readObserver (fun _ _ => rfl), hbyte, ← hlogs, ← hlog]
          rfl

/-- Where the first byte cannot be read, nothing is read. -/
theorem readIntegerWithShadow_of_error {e : Raise}
    (h : mmu.regionFor address protRead = .error e) (count : Nat) :
    readIntegerWithShadow address (count + 1) mmu = .error e mmu := by
  induction count with
  | zero =>
      have hfirst : address + BitVec.ofNat 64 0 = address := BitVec.add_zero address
      rw [readIntegerWithShadow, readIntegerWithShadow, pure_bind, hfirst]
      exact bind_of_error (bind_of_error (observe_regionFor_error h))
  | succ count ih =>
      rw [readIntegerWithShadow]
      exact bind_of_error ih

/-- Writes are logged apart from reads. -/
theorem preserves_readObserver_write8WithShadow (reads : Option (List U64)) (address : U64)
    (value : ValueWithShadow 8) :
    Preserves (fun mmu => mmu.readObserver = reads) (write8WithShadow address value) := by
  refine (Preserves.observe _).bind fun region => Preserves.bind ?_ fun _ =>
    (Preserves.observe _).bind fun written => ?_
  · exact Preserves.modify fun _ hreads => hreads
  · exact Preserves.modify fun _ hreads => hreads

theorem preserves_readObserver_writeMemoryOperand (reads : Option (List U64)) (address : U64)
    (width : Width) (value : U64) (tainted : Bool) :
    Preserves (fun mmu => mmu.readObserver = reads)
      (SoftCPU64.writeMemoryOperand address width value tainted) := by
  have hbyte := preserves_readObserver_write8WithShadow reads
  unfold SoftCPU64.writeMemoryOperand
  split
  · exact hbyte _ _
  · exact Preserves.forOffsets (fun _ => hbyte _ _) _

end SoftMMU

namespace SoftCPU64

/-! ## Programs that read no operand -/

/-- The program logs no read. -/
def KeepsReads {α : Type} (program : EmulatorProgram α) : Prop :=
  ∀ reads, Preserves (fun emulator => emulator.mmu.readObserver = reads) program

namespace KeepsReads

variable {α β : Type}

theorem pure (a : α) : KeepsReads (pure a) :=
  fun _ => Preserves.pure a

theorem throw (e : Raise) : KeepsReads (throw e : EmulatorProgram α) :=
  fun _ => Preserves.throw e

theorem bind {x : EmulatorProgram α} {f : α → EmulatorProgram β} (hx : KeepsReads x)
    (hf : ∀ a, KeepsReads (f a)) : KeepsReads (x >>= f) :=
  fun reads => (hx reads).bind fun a => hf a reads

theorem ite {c : Prop} [Decidable c] {x y : EmulatorProgram α} (hx : KeepsReads x)
    (hy : KeepsReads y) : KeepsReads (if c then x else y) :=
  fun reads => Preserves.ite (fun _ => hx reads) fun _ => hy reads

theorem getCPU : KeepsReads getCPU :=
  fun _ _ h => h

theorem modifyCPU (f : SoftCPU64 → SoftCPU64) : KeepsReads (modifyCPU f) :=
  fun _ _ h => h

theorem readMMU (f : SoftMMU → Except Raise α) : KeepsReads (readMMU f) :=
  fun _ => Preserves.observe _

theorem fetch8 : KeepsReads fetch8 :=
  getCPU.bind fun _ => (modifyCPU _).bind fun _ => readMMU _

theorem fetchInteger (count : Nat) : KeepsReads (fetchInteger count) :=
  getCPU.bind fun _ => (readMMU _).bind fun _ => (modifyCPU _).bind fun _ => pure _

theorem readGpr (register : Register) (width : Width) (prefixes : Prefixes) :
    KeepsReads (readGpr register width prefixes) := by
  refine getCPU.bind fun cpu => ite ?_ (pure _)
  exact KeepsReads.bind (modifyCPU taint) fun _ => pure _

theorem writeOperand (operand : Operand) (width : Width) (value : U64) (prefixes : Prefixes) :
    KeepsReads (writeOperand operand width value prefixes) := by
  cases operand with
  | register register => exact fun _ _ hreads => hreads
  | memory decoded =>
      refine (getCPU.bind fun _ => pure _).bind fun address => getCPU.bind fun cpu => ?_
      intro reads emulator hreads
      have hkept := SoftMMU.preserves_readObserver_writeMemoryOperand reads address width
        (value &&& maskForWidth width) cpu.currentTaint emulator.mmu hreads
      unfold onMMU onPart
      cases hwrite : writeMemoryOperand address width (value &&& maskForWidth width)
        cpu.currentTaint emulator.mmu <;> rwa [hwrite] at hkept

end KeepsReads

/-! ## The first read of an operand -/

/-- The emulator under observers with the given logs. -/
def observedBy (emulator : Emulator) (readObserver writeObserver : Option (List U64)) :
    Emulator :=
  emulator.withMMU
    { emulator.mmu with readObserver := readObserver, writeObserver := writeObserver }

section FirstRead

variable {emulator after : Emulator} {address target : U64} {decoded : DecodedAddress}

/-- The read of an operand in readable memory is logged with its first byte. -/
theorem readObserver_readMemoryOperand {mmu : SoftMMU} {region : Region}
    (h : mmu.regionFor address protRead = .ok region) (width : Width) :
    ∃ more, (finalState (readMemoryOperand address width mmu)).readObserver =
      mmu.readObserver.map (· ++ address :: more) := by
  cases width with
  | w8 =>
      refine ⟨[], ?_⟩
      rw [← SoftMMU.readObserver_read8WithShadow h]
      exact finalState_bind_of_keeps SoftMMU.readObserver (fun _ _ => rfl) mmu
  | w16 => exact SoftMMU.readObserver_readIntegerWithShadow h 1
  | w32 => exact SoftMMU.readObserver_readIntegerWithShadow h 3
  | w64 => exact SoftMMU.readObserver_readIntegerWithShadow h 7

/-- The read of an operand in other memory raises and leaves no trace. -/
theorem readMemoryOperand_of_error {mmu : SoftMMU} {e : Raise}
    (h : mmu.regionFor address protRead = .error e) (width : Width) :
    readMemoryOperand address width mmu = .error e mmu := by
  cases width with
  | w8 => exact bind_of_error (bind_of_error (SoftMMU.observe_regionFor_error h))
  | w16 => exact SoftMMU.readIntegerWithShadow_of_error h 1
  | w32 => exact SoftMMU.readIntegerWithShadow_of_error h 3
  | w64 => exact SoftMMU.readIntegerWithShadow_of_error h 7

theorem eq_of_effectiveAddress (h : effectiveAddress decoded emulator = .ok target after) :
    after = emulator := by
  cases h
  rfl

/-- The read of an operand is logged with the address it resolves to. -/
theorem readObserver_readOperand {region : Region}
    (htarget : effectiveAddress decoded emulator = .ok target after)
    (h : emulator.mmu.regionFor target protRead = .ok region) (width : Width)
    (prefixes : Prefixes) :
    ∃ more,
      (finalState (readOperand (.memory decoded) width prefixes emulator)).mmu.readObserver =
        emulator.mmu.readObserver.map (· ++ target :: more) := by
  have hsame := eq_of_effectiveAddress htarget
  subst hsame
  rcases readObserver_readMemoryOperand h width with ⟨more, hlog⟩
  refine ⟨more, ?_⟩
  rw [readOperand, bind_of_ok htarget, ← hlog]
  refine (finalState_bind_of_keeps (fun e => e.mmu.readObserver) (fun value s => ?_) after).trans ?_
  · split <;> rfl
  · unfold onMMU onPart
    cases readMemoryOperand target width after.mmu <;> rfl

/-- Where the operand cannot be read, nothing is logged. -/
theorem readOperand_of_error {e : Raise}
    (htarget : effectiveAddress decoded emulator = .ok target after)
    (h : emulator.mmu.regionFor target protRead = .error e) (width : Width)
    (prefixes : Prefixes) :
    readOperand (.memory decoded) width prefixes emulator = .error e emulator := by
  have hsame := eq_of_effectiveAddress htarget
  subst hsame
  rw [readOperand, bind_of_ok htarget]
  exact bind_of_error (onMMU_eq_error_iff.mpr ⟨_, readMemoryOperand_of_error h width, rfl⟩)

end FirstRead

/-! ## Whoever observes -/

/-- Whoever observes, the instruction does with its relative operand what it does with an
operand at the address. -/
def TakesOperandAt (rest : Operand → EmulatorProgram Unit) (relative : DecodedAddress)
    (address : U64) (emulator : Emulator) : Prop :=
  ∀ readObserver writeObserver,
    rest (.memory relative) (observedBy emulator readObserver writeObserver) =
      rest (.memory ⟨address, false, 0⟩) (observedBy emulator readObserver writeObserver)

/-- An instruction that reads its operand first reads it relative to where the decoder is
then. -/
theorem not_takesOperandAt_of_readFirst {rest : Operand → EmulatorProgram Unit}
    {tail : Operand → U64 → EmulatorProgram Unit} {width : Width} {prefixes : Prefixes}
    {emulator after : Emulator} {address address' disp : U64}
    (hrest : ∀ operand, rest operand =
      readOperand operand width prefixes >>= tail operand)
    (htail : ∀ operand value, KeepsReads (tail operand value))
    (hrun : rest (.memory ⟨address, true, disp⟩) emulator = .ok () after)
    (hne : address' ≠ emulator.cpu.decodePc + disp) :
    ¬TakesOperandAt rest ⟨address, true, disp⟩ address' emulator := by
  intro htakes
  have hsame := htakes (some []) none
  generalize hobserved : observedBy emulator (some []) none = observed at hsame
  have hlog : observed.mmu.readObserver = some [] := by rw [← hobserved]; rfl
  have hregion : ∀ target, observed.mmu.regionFor target protRead =
      emulator.mmu.regionFor target protRead := by
    intro target
    rw [← hobserved]
    rfl
  have hfirst : ∀ decoded,
      (finalState (rest (.memory decoded) observed)).mmu.readObserver =
        (finalState (readOperand (.memory decoded) width prefixes observed)).mmu.readObserver := by
    intro decoded
    rw [hrest]
    exact finalState_bind_of_keeps (fun e => e.mmu.readObserver)
      (fun value s => htail _ value _ s rfl) observed
  have htarget : effectiveAddress ⟨address, true, disp⟩ emulator =
      .ok (emulator.cpu.decodePc + disp) emulator := rfl
  have htarget' : effectiveAddress ⟨address, true, disp⟩ observed =
      .ok (emulator.cpu.decodePc + disp) observed := by rw [← hobserved]; rfl
  -- the operand of the actual run could be read, and so it is read under observation
  cases hreadable : emulator.mmu.regionFor (emulator.cpu.decodePc + disp) protRead with
  | error e =>
      rw [hrest, bind_of_error (readOperand_of_error htarget hreadable width prefixes)] at hrun
      cases hrun
  | ok region =>
      rcases readObserver_readOperand htarget' ((hregion _).trans hreadable) width prefixes
        with ⟨more, hrelative⟩
      have hlogs := congrArg (fun outcome => (finalState outcome).mmu.readObserver) hsame
      simp only [hfirst, hrelative, hlog, Option.map_some, List.nil_append] at hlogs
      have habsolute : effectiveAddress ⟨address', false, 0⟩ observed = .ok address' observed :=
        rfl
      cases hother : observed.mmu.regionFor address' protRead with
      | error e =>
          rw [readOperand_of_error habsolute hother, finalState_error, hlog] at hlogs
          cases hlogs
      | ok region' =>
          rcases readObserver_readOperand habsolute hother width prefixes with ⟨more', hlog'⟩
          rw [hlog', hlog, Option.map_some, List.nil_append] at hlogs
          exact hne (List.cons.inj (Option.some.inj hlogs)).1.symm

/-! ## The four opcodes -/

/-- The end of a double shift writes, unless the count is zero. -/
theorem keepsReads_shiftedWrite (operand : Operand) (count : Nat) (result : U64) (carry : Bool)
    (prefixes : Prefixes) :
    KeepsReads (
      if count ≠ 0 then do
        writeOperand operand (operandWidth prefixes) result prefixes
        modifyCPU fun cpu => cpu.setLogicFlags result (operandWidth prefixes)
        modifyCPU fun cpu => { cpu.setFlag CF carry with flagsTainted := cpu.currentTaint }
      else pure ()) :=
  KeepsReads.ite ((KeepsReads.writeOperand _ _ _ _).bind fun _ =>
    (KeepsReads.modifyCPU _).bind fun _ => KeepsReads.modifyCPU _) (KeepsReads.pure _)

/-- `IMUL` with an immediate reads its operand first. -/
theorem not_takesOperandAt_imulImmediate {emulator after : Emulator} {address address' disp : U64}
    (opcode : U8) (prefixes : Prefixes) (modrm : ModRM)
    (hrun : (imulImmediateForm opcode prefixes).rest modrm (.memory ⟨address, true, disp⟩)
      emulator = .ok () after)
    (hne : address' ≠ emulator.cpu.decodePc + disp) :
    ¬TakesOperandAt ((imulImmediateForm opcode prefixes).rest modrm) ⟨address, true, disp⟩
      address' emulator := by
  refine not_takesOperandAt_of_readFirst (fun _ => rfl) (fun operand value => ?_) hrun hne
  have hwrite : ∀ imm : Int, KeepsReads (do
      writeGpr modrm.reg (operandWidth prefixes)
        (BitVec.ofInt 64 (signedOperand value (operandWidth prefixes) * imm)) prefixes
      let overflow := signedOperand value (operandWidth prefixes) * imm !=
        signedOperand (BitVec.ofInt 64 (signedOperand value (operandWidth prefixes) * imm))
          (operandWidth prefixes)
      modifyCPU fun cpu => (cpu.setFlag CF overflow).setFlag OF overflow) := fun imm =>
    KeepsReads.bind (fun _ _ hreads => hreads) fun _ => KeepsReads.modifyCPU _
  refine KeepsReads.ite ?_ ?_
  · exact KeepsReads.fetch8.bind fun _ => hwrite _
  · exact (KeepsReads.fetchInteger 4).bind fun _ => hwrite _

/-- So does a double shift. -/
theorem not_takesOperandAt_doubleShift {emulator after : Emulator} {address address' disp : U64}
    (opcode : U8) (prefixes : Prefixes) (modrm : ModRM)
    (hrun : (doubleShiftForm opcode prefixes).rest modrm (.memory ⟨address, true, disp⟩)
      emulator = .ok () after)
    (hne : address' ≠ emulator.cpu.decodePc + disp) :
    ¬TakesOperandAt ((doubleShiftForm opcode prefixes).rest modrm) ⟨address, true, disp⟩
      address' emulator := by
  refine not_takesOperandAt_of_readFirst (fun _ => rfl) (fun operand value => ?_) hrun hne
  refine (KeepsReads.readGpr _ _ _).bind fun _ => KeepsReads.ite ?_ ?_
  · exact KeepsReads.fetch8.bind fun _ => keepsReads_shiftedWrite _ _ _ _ _
  · exact (KeepsReads.readGpr _ _ _).bind fun _ => keepsReads_shiftedWrite _ _ _ _ _

/-- The four opcodes have an immediate of one to four bytes. -/
theorem trailingBytes_of_readsEarly {opcode : Opcode} (hearly : opcode.ReadsEarly = true)
    (prefixes : Prefixes) (modrm : ModRM) :
    ∃ count : Fin 4, opcode.trailingBytes prefixes modrm = count + 1 := by
  cases opcode with
  | oneByte byte =>
      rcases of_decide_eq_true hearly with rfl | rfl
      · have hbytes : (Opcode.oneByte 0x69).trailingBytes prefixes modrm =
            immediateBytes (operandWidth prefixes) := rfl
        rw [hbytes]
        cases operandWidth prefixes with
        | w8 => exact ⟨0, rfl⟩
        | w16 => exact ⟨1, rfl⟩
        | w32 => exact ⟨3, rfl⟩
        | w64 => exact ⟨3, rfl⟩
      · exact ⟨0, rfl⟩
  | twoByte byte => rcases of_decide_eq_true hearly with rfl | rfl <;> exact ⟨0, rfl⟩

/-- The four opcodes are opcodes of `IMUL` and of the double shifts. -/
theorem OperandRest.eq_of_readsEarly {host : Host} {prefixes : Prefixes} {opcode : Opcode}
    {rest : ModRM → Operand → EmulatorProgram Unit} (h : OperandRest host prefixes opcode rest)
    (hearly : opcode.ReadsEarly = true) :
    ∃ byte, rest = (imulImmediateForm byte prefixes).rest ∨
      rest = (doubleShiftForm byte prefixes).rest := by
  cases h with
  | imulImmediate => exact ⟨_, Or.inl rfl⟩
  | doubleShift => exact ⟨_, Or.inr rfl⟩
  | movsxd | xchg | lea | popOperand | groupFf => cases hearly
  | groupAe | imulRegister | groupBa | movnti | loadXmm | byteShift | movq => cases hearly
  | storeLow | pmovmskb => cases hearly
  | aluRmReg h | aluImm h | test h | movStore h | movLoad h | shiftGroup h
  | movOperandImmediate h | x87 h | groupF6F7 h | setcc h | cmovcc h | hint h | bitString h
  | cmpxchg h | extend h | bitScan h | xadd h | storeXmm h | sseFloat h | packed _ h =>
      rcases of_decide_eq_true hearly with rfl | rfl <;> exact absurd h (by decide)
  | selected h => rcases of_decide_eq_true hearly with rfl | rfl <;> cases h

/-- The four opcodes miss the bytes of their immediate. -/
theorem OperandRest.not_takesOperandAt {host : Host} {prefixes : Prefixes} {opcode : Opcode}
    {rest : ModRM → Operand → EmulatorProgram Unit} {modrm : ModRM} {emulator after : Emulator}
    {address disp : U64} (h : OperandRest host prefixes opcode rest)
    (hearly : opcode.ReadsEarly = true)
    (hrun : rest modrm (.memory ⟨address, true, disp⟩) emulator = .ok () after) :
    ¬TakesOperandAt (rest modrm) ⟨address, true, disp⟩
      (emulator.cpu.decodePc + BitVec.ofNat 64 (opcode.trailingBytes prefixes modrm) + disp)
      emulator := by
  rcases trailingBytes_of_readsEarly hearly prefixes modrm with ⟨count, hcount⟩
  have hne : emulator.cpu.decodePc + BitVec.ofNat 64 (opcode.trailingBytes prefixes modrm) +
      disp ≠ emulator.cpu.decodePc + disp := by
    have hnonzero : BitVec.ofNat 64 (count.val + 1) ≠ 0 := by
      clear hcount
      revert count
      decide
    rw [hcount]
    generalize BitVec.ofNat 64 (count.val + 1) = bytes at hnonzero
    bv_omega
  rcases h.eq_of_readsEarly hearly with ⟨byte, rfl | rfl⟩
  · exact not_takesOperandAt_imulImmediate byte prefixes modrm hrun hne
  · exact not_takesOperandAt_doubleShift byte prefixes modrm hrun hne

/-! ## Steps -/

section Steps

variable {host : Host} {prefixes : Prefixes} {opcode : Opcode} {modrm : ModRM}
  {emulator decoded selected before final : Emulator} {disp : U64}

/-- A ModRM byte with mode 0 and register field 5 is followed by a displacement, and names
what lies that far from the end of the displacement. -/
theorem decodeMemoryAddress_ripRelative (hmod : modrm.mod = 0) (hrm : modrm.byte &&& 7 = 5)
    (hsize : prefixes.address32 = false)
    (hsegment : prefixes.segment ≠ .fs ∧ prefixes.segment ≠ .gs)
    (hdisp : fetchI32 selected = .ok disp before) :
    decodeMemoryAddress prefixes modrm selected =
      .ok ⟨before.cpu.decodePc + disp, true, disp⟩ before := by
  have hparts : decodeAddressParts prefixes modrm selected =
      .ok { displacement := disp, ripRelative := true } before := by
    rw [decodeAddressParts, hmod, hrm]
    exact bind_of_ok hdisp
  rw [decodeMemoryAddress, bind_of_ok hparts, hmod, hsize]
  rcases hsegment with ⟨hfs, hgs⟩
  cases hbase : prefixes.segment with
  | fs => exact absurd hbase hfs
  | gs => exact absurd hbase hgs
  | unset => rfl
  | legacy byte => rfl

/-- An instruction with a RIP-relative operand that returns has run what comes after its
operand, and it resolves the operand relative to the next instruction exactly when its opcode
does not read it early. -/
theorem step_ripRelative
    (hdecode : decodeInstruction emulator = .ok (prefixes, opcode) decoded)
    (hmodrm : fetchModrm prefixes decoded = .ok modrm selected)
    (hdisp : fetchI32 selected = .ok disp before)
    (hstep : step host emulator = .ok () final)
    (hoperand : opcode.WithoutOperand = false)
    (hmod : modrm.mod = 0) (hrm : modrm.byte &&& 7 = 5)
    (hsize : prefixes.address32 = false)
    (hsegment : prefixes.segment ≠ .fs ∧ prefixes.segment ≠ .gs) :
    let relative : DecodedAddress := ⟨before.cpu.decodePc + disp, true, disp⟩
    let next :=
      before.cpu.decodePc + BitVec.ofNat 64 (opcode.trailingBytes prefixes modrm)
    (∃ rest, OperandRest host prefixes opcode rest) ∧
      ∀ rest, OperandRest host prefixes opcode rest →
        (∃ last, rest modrm (.memory relative) before = .ok () last ∧
          final = last.withCPU (finishInstruction last.cpu)) ∧
        (TakesOperandAt (rest modrm) relative (next + disp) before ↔
          opcode.ReadsEarly = false) := by
  intro relative next
  rw [step_of_decodedInstruction hdecode] at hstep
  rcases bind_eq_ok_iff.mp hstep with ⟨_, last, hexecute, hfinish⟩
  cases hfinish
  refine ⟨exists_operandRest hexecute hoperand, fun rest hrest => ?_⟩
  have hmemory : modrm.isRegister = false := by
    rw [ModRM.isRegister, hmod]
    rfl
  have haddress := decodeMemoryAddress_ripRelative hmod hrm hsize hsegment hdisp
  have hrun := hrest.execute hmodrm haddress hmemory hexecute
  refine ⟨⟨last, hrun, rfl⟩, fun htakes => ?_, fun hearly => ?_⟩
  · by_contra hearly
    exact hrest.not_takesOperandAt (Bool.eq_true_of_not_eq_false hearly) hrun htakes
  · intro readObserver writeObserver
    exact hrest.sameAt hearly disp _ rfl

end Steps

section Examples

/-- `mov 0x10(%rip), %eax` -/
def movRelative : Emulator :=
  startingAt [0x8b, 0x05, 0x10, 0x00, 0x00, 0x00]

/-- The move finds its operand sixteen bytes after it. -/
theorem step_ripRelative_mov :
    ∃ before, TakesOperandAt ((movLoadForm 0x8b {}).rest { byte := 0x05, mod := 0, rm := 5 })
      ⟨0x1016, true, 0x10⟩ (0x1006 + 0x10) before ∧ before.cpu.decodePc = 0x1006 := by
  have hdecode : decodeInstruction movRelative =
      .ok ({}, .oneByte 0x8b) (finalState (decodeInstruction movRelative)) :=
    eq_ok_of_returned (by decide)
  generalize hdecoded : finalState (decodeInstruction movRelative) = decoded at hdecode
  have hmodrm : fetchModrm {} decoded =
      .ok { byte := 0x05, mod := 0, rm := 5 } (finalState (fetchModrm {} decoded)) := by
    rw [← hdecoded]
    exact eq_ok_of_returned (by decide)
  generalize hselected : finalState (fetchModrm {} decoded) = selected at hmodrm
  have hdisp : fetchI32 selected = .ok 0x10 (finalState (fetchI32 selected)) := by
    rw [← hselected, ← hdecoded]
    exact eq_ok_of_returned (by decide)
  have hposition : (finalState (fetchI32 selected)).cpu.decodePc = 0x1006 := by
    rw [← hselected, ← hdecoded]
    decide
  have hstep : step Emulator.quietHost movRelative =
      .ok () (finalState (step Emulator.quietHost movRelative)) :=
    eq_ok_of_returned (by decide)
  rcases step_ripRelative hdecode hmodrm hdisp hstep rfl rfl rfl rfl (by decide) with ⟨-, hrest⟩
  have htakes := (hrest _ (.movLoad (Or.inr rfl))).2.mpr rfl
  rw [hposition] at htakes
  exact ⟨_, htakes, hposition⟩

/-- `imul $1, 0x10(%rip), %eax`, observed. -/
def imulRelative : Emulator :=
  observedBy (startingAt [0x69, 0x05, 0x10, 0x00, 0x00, 0x00, 0x01, 0x00, 0x00, 0x00])
    (some []) none

/-- What the product reads of its operand. -/
def imulReads : List U64 :=
  [0x100a + 0x0c, 0x100a + 0x0d, 0x100a + 0x0e, 0x100a + 0x0f]

/-- The product reads its operand four bytes before the place that is relative to the next
instruction. -/
theorem imulImmediate_reads_early :
    let outcome := step Emulator.quietHost imulRelative
    returned outcome = some () ∧ (finalState outcome).cpu.rip = 0x100a ∧
      (finalState outcome).mmu.readObserver = some imulReads ∧
      ∀ address ∈ imulReads, address < 0x100a + 0x10 := by
  refine ⟨by decide, by decide, by decide, ?_⟩
  intro address haddress
  fin_cases haddress <;> decide

end Examples

end SoftCPU64

end LUE
