import LinuxUserspaceEmulator.SoftCPU64.Immediates

/-!
# The encodings of one operation

An operation of `rAX` with a constant has up to four encodings: the accumulator form, the
group with a full-size immediate, the group with a byte, and the register forms when another
register holds the constant.  Three dispatchers execute them.  Each comes down to the same
operation on the same operands in states that look alike, and leaves states that look alike.

Main results:

- Theorem `Alike.executeOperation`: operations in states that look alike.
- Theorem `EncodesOperation.execute`: every encoding comes down to one operation of `rAX`.
- Theorem `step_encodings_agree`: any two encodings of an operation have the same effect.
-/

namespace LUE

open StateExcept

namespace SoftCPU64

/-! ## States that look alike -/

/-- The registers, shadows, flags and taint of a CPU, and nothing else. -/
def integerView (cpu : SoftCPU64) : SoftCPU64 where
  gpr := cpu.gpr
  gprShadow := cpu.gprShadow
  rflags := cpu.rflags
  flagsTainted := cpu.flagsTainted
  currentTaint := cpu.currentTaint

/-- CPUs that look alike have the same registers, flags, shadows and flag taint. -/
theorem fields_of_integerView {cpu cpu' : SoftCPU64} (h : cpu.integerView = cpu'.integerView) :
    cpu.gpr = cpu'.gpr ∧ cpu.rflags = cpu'.rflags ∧ cpu.gprShadow = cpu'.gprShadow ∧
      cpu.flagsTainted = cpu'.flagsTainted := by
  have hgpr := congrArg gpr h
  have hrflags := congrArg rflags h
  have hshadow := congrArg gprShadow h
  have htainted := congrArg flagsTainted h
  exact ⟨hgpr, hrflags, hshadow, htainted⟩

/-- The two programs return one value from states that look alike, and leave states that
look alike. -/
def Alike {α : Type} (x y : EmulatorProgram α) : Prop :=
  ∀ emulator emulator' : Emulator, emulator.cpu.integerView = emulator'.cpu.integerView →
    ∃ a after after', x emulator = .ok a after ∧ y emulator' = .ok a after' ∧
      after.cpu.integerView = after'.cpu.integerView

namespace Alike

variable {α β : Type}

theorem pure (a : α) : Alike (pure a) (pure a) :=
  fun emulator emulator' h => ⟨a, emulator, emulator', rfl, rfl, h⟩

theorem bind {x y : EmulatorProgram α} {f g : α → EmulatorProgram β} (hx : Alike x y)
    (hf : ∀ a, Alike (f a) (g a)) : Alike (x >>= f) (y >>= g) := by
  intro emulator emulator' h
  rcases hx emulator emulator' h with ⟨a, middle, middle', hfirst, hfirst', hmiddle⟩
  rcases hf a middle middle' hmiddle with ⟨b, after, after', hsecond, hsecond', hafter⟩
  exact ⟨b, after, after', by rw [bind_of_ok hfirst, hsecond],
    by rw [bind_of_ok hfirst', hsecond'], hafter⟩

/-- Updates of the CPU that go through its view. -/
theorem modifyCPU {f : SoftCPU64 → SoftCPU64}
    (hf : ∀ cpu, (f cpu).integerView = (f cpu.integerView).integerView) :
    Alike (modifyCPU f) (modifyCPU f) := by
  intro emulator emulator' h
  refine ⟨(), _, _, rfl, rfl, ?_⟩
  change (f emulator.cpu).integerView = (f emulator'.cpu).integerView
  rw [hf, h, ← hf]

/-- Operations on the CPU that go through its view. -/
theorem onCPU {operation : SoftCPU64 → U64 × SoftCPU64}
    (hvalue : ∀ cpu, (operation cpu).1 = (operation cpu.integerView).1)
    (hcpu : ∀ cpu, (operation cpu).2.integerView =
      (operation cpu.integerView).2.integerView) :
    Alike (onCPU operation) (onCPU operation) := by
  intro emulator emulator' h
  refine ⟨(operation emulator.cpu).1, emulator.withCPU (operation emulator.cpu).2,
    emulator'.withCPU (operation emulator'.cpu).2, rfl, ?_, ?_⟩
  · rw [hvalue, h, ← hvalue]
    rfl
  · change (operation emulator.cpu).2.integerView = (operation emulator'.cpu).2.integerView
    rw [hcpu, h, ← hcpu]

theorem add (lhs rhs : U64) (width : Width) (carry : Bool) :
    Alike (SoftCPU64.onCPU fun cpu => cpu.add lhs rhs width carry)
      (SoftCPU64.onCPU fun cpu => cpu.add lhs rhs width carry) :=
  onCPU (fun _ => rfl) fun _ => rfl

theorem sub (lhs rhs : U64) (width : Width) (borrow : Bool) :
    Alike (SoftCPU64.onCPU fun cpu => cpu.sub lhs rhs width borrow)
      (SoftCPU64.onCPU fun cpu => cpu.sub lhs rhs width borrow) :=
  onCPU (fun _ => rfl) fun _ => rfl

theorem setLogicFlags (result : U64) (width : Width) :
    Alike (LUE.modifyCPU fun cpu => cpu.setLogicFlags result width)
      (LUE.modifyCPU fun cpu => cpu.setLogicFlags result width) :=
  modifyCPU fun _ => rfl

theorem writeGpr (register : Register) (width : Width) (value : U64) (prefixes : Prefixes) :
    Alike (writeGpr register width value prefixes) (writeGpr register width value prefixes) :=
  modifyCPU fun _ => rfl

/-- The eight operations go through the view of the CPU when their writes do. -/
theorem executeOperation (operation : Fin 8) (lhs rhs : U64) (width : Width) (mask : U64)
    {write : U64 → EmulatorProgram Unit} (hwrite : ∀ value, Alike (write value) (write value)) :
    Alike (executeOperation operation.val lhs rhs width mask write)
      (executeOperation operation.val lhs rhs width mask write) := by
  match operation with
  | 0 => exact (add lhs rhs width false).bind hwrite
  | 1 => exact (setLogicFlags _ width).bind fun _ => hwrite _
  | 2 => exact (add lhs rhs width true).bind hwrite
  | 3 => exact (sub lhs rhs width true).bind hwrite
  | 4 => exact (setLogicFlags _ width).bind fun _ => hwrite _
  | 5 => exact (sub lhs rhs width false).bind hwrite
  | 6 => exact (setLogicFlags _ width).bind fun _ => hwrite _
  | 7 => exact (sub lhs rhs width false).bind fun _ => pure ()

end Alike

/-! ## Operations of the accumulator -/

@[simp]
theorem isHighByte_rax (width : Width) (prefixes : Prefixes) :
    isHighByte .rax width prefixes = false := by
  have hlow : ¬4 ≤ Register.rax.val := by decide
  simp [isHighByte, hlow]

@[simp]
theorem readLane_rax (file : Register → U64) (width : Width) (prefixes : Prefixes) :
    readLane file .rax width prefixes = file .rax &&& maskForWidth width := by
  simp [readLane]

/-- The accumulator is written alike under all prefixes. -/
theorem writeGpr_rax (width : Width) (value : U64) (prefixes : Prefixes) :
    writeGpr .rax width value prefixes = writeGpr .rax width value {} := by
  simp [writeGpr, withGpr, writeLane]

/-- The CPU after a read of the accumulator, tainted when the accumulator is. -/
def afterReadRax (width : Width) (cpu : SoftCPU64) : SoftCPU64 :=
  if cpu.gprShadow .rax &&& maskForWidth width ≠ 0 then cpu.taint else cpu

theorem readGpr_rax (width : Width) (prefixes : Prefixes) (emulator : Emulator) :
    readGpr .rax width prefixes emulator =
      .ok (emulator.cpu.gpr .rax &&& maskForWidth width)
        (emulator.withCPU (afterReadRax width emulator.cpu)) := by
  rw [readGpr, bind_of_ok (getCPU_apply emulator)]
  simp only [readLane_rax, afterReadRax]
  split
  · rfl
  · rfl

@[simp]
theorem gpr_afterReadRax (width : Width) (cpu : SoftCPU64) :
    (afterReadRax width cpu).gpr = cpu.gpr := by
  unfold afterReadRax
  split <;> rfl

@[simp]
theorem gprShadow_afterReadRax (width : Width) (cpu : SoftCPU64) :
    (afterReadRax width cpu).gprShadow = cpu.gprShadow := by
  unfold afterReadRax
  split <;> rfl

@[simp]
theorem decodePc_afterReadRax (width : Width) (cpu : SoftCPU64) :
    (afterReadRax width cpu).decodePc = cpu.decodePc := by
  unfold afterReadRax
  split <;> rfl

/-- An operation of the accumulator with a value: what the encodings come down to. -/
def operateOnRax (operation : Fin 8) (width : Width) (value : U64) : EmulatorProgram Unit := do
  let lhs ← readGpr .rax width {}
  executeOperation operation.val lhs value width (maskForWidth width) fun result =>
    writeGpr .rax width result {}

theorem Alike.operateOnRax (operation : Fin 8) (width : Width) (value : U64) :
    Alike (operateOnRax operation width value) (operateOnRax operation width value) := by
  have hread : Alike (readGpr .rax width {}) (readGpr .rax width {}) := by
    intro emulator emulator' h
    rcases fields_of_integerView h with ⟨hgpr, -, hshadow, -⟩
    have hview : (afterReadRax width emulator.cpu).integerView =
        (afterReadRax width emulator'.cpu).integerView := by
      have htaint : emulator.cpu.taint.integerView = emulator'.cpu.taint.integerView := by
        change emulator.cpu.integerView.taint = emulator'.cpu.integerView.taint
        rw [h]
      simp only [afterReadRax, hshadow]
      split
      · exact htaint
      · exact h
    refine ⟨_, _, emulator'.withCPU (afterReadRax width emulator'.cpu), readGpr_rax _ _ _, ?_,
      hview⟩
    rw [hgpr, readGpr_rax]
  exact hread.bind fun lhs => executeOperation operation lhs value width _ fun result =>
    writeGpr .rax width result {}

/-! ## Encodings -/

/-- The bytes at an address are an immediate with a value, as far as the width goes. -/
def HoldsImmediate (mmu : SoftMMU) (pc : U64) (count : Nat) (width : Width) (value : U64) :
    Prop :=
  ∃ bytes : Nat → U8, (∀ i < count, mmu.read8 (pc + BitVec.ofNat 64 i) = .ok (bytes i)) ∧
    AgreeAt width (immediateValue bytes count) value

/-- The opcode of the register forms and the accumulator forms. -/
def operationOpcode (operation : Fin 8) (form : Nat) : U8 :=
  BitVec.ofNat 8 (8 * operation.val + form)

/-- The instruction at the instruction pointer is the operation of `rAX` with a value. -/
inductive EncodesOperation (emulator : Emulator) (operation : Fin 8) (width : Width)
    (value : U64) : Prop
  /-- `8*op+4` and `8*op+5`. -/
  | accumulator {prefixes : Prefixes} {decoded : Emulator}
      (decode : decodeOpcode emulator =
        .ok (prefixes, operationOpcode operation (if width = .w8 then 4 else 5)) decoded)
      (size : width = .w8 ∨ width = operandWidth prefixes)
      (immediate : HoldsImmediate decoded.mmu decoded.cpu.decodePc (immediateBytes width) width
        value)
  /-- `80` and `81`. -/
  | group {prefixes : Prefixes} {decoded selected : Emulator} {modrm : ModRM}
      (decode : decodeOpcode emulator =
        .ok (prefixes, if width = .w8 then 0x80 else 0x81) decoded)
      (size : width = .w8 ∨ width = operandWidth prefixes)
      (select : fetchModrm prefixes decoded = .ok modrm selected)
      (register : modrm.mod = 3) (rax : modrm.rm = .rax) (op : modrm.operation = operation.val)
      (immediate : HoldsImmediate decoded.mmu selected.cpu.decodePc (immediateBytes width) width
        value)
  /-- `83`. -/
  | groupByte {prefixes : Prefixes} {decoded selected : Emulator} {modrm : ModRM}
      (decode : decodeOpcode emulator = .ok (prefixes, 0x83) decoded)
      (size : width = operandWidth prefixes)
      (select : fetchModrm prefixes decoded = .ok modrm selected)
      (register : modrm.mod = 3) (rax : modrm.rm = .rax) (op : modrm.operation = operation.val)
      (immediate : HoldsImmediate decoded.mmu selected.cpu.decodePc 1 width value)
  /-- `8*op` to `8*op+3`, with an initialized register that holds the value. -/
  | registers {prefixes : Prefixes} {decoded selected : Emulator} {modrm : ModRM}
      (form : Nat) (bound : form < 4) (other : Register)
      (decode : decodeOpcode emulator = .ok (prefixes, operationOpcode operation form) decoded)
      (size : width = if form = 0 ∨ form = 2 then .w8 else operandWidth prefixes)
      (select : fetchModrm prefixes decoded = .ok modrm selected)
      (register : modrm.mod = 3) (different : other ≠ .rax)
      (operands : if form = 2 ∨ form = 3 then modrm.reg = .rax ∧ modrm.rm = other
        else modrm.rm = .rax ∧ modrm.reg = other)
      (initialized : readLane emulator.cpu.gprShadow other width prefixes = 0)
      (holds : AgreeAt width (readLane emulator.cpu.gpr other width prefixes) value)

variable {emulator emulator' decoded selected : Emulator} {host : Host} {prefixes : Prefixes}
  {modrm : ModRM} {operation : Fin 8} {width : Width} {value imm : U64} {opcode : U8}

/-- The opcodes are decoded by their operation and their form. -/
theorem decode_operationOpcode :
    ∀ operation : Fin 8, ∀ form < 6,
      let opcode := operationOpcode operation form
      (opcode ≤ 0x3d ∧ opcode &&& 7 ≤ 5) ∧ (opcode &&& 7 ≤ 3 ↔ form ≤ 3) ∧
        (opcode >>> 3).toNat = operation.val ∧ (opcode &&& 7).toNat = form := by
  decide

/-- With a register in its ModRM byte an instruction has a register operand. -/
theorem decodeRmOperand_register (hregister : modrm.mod = 3) :
    decodeRmOperand prefixes modrm = pure (.register modrm.rm) := by
  have hmod : modrm.isRegister = true := by rw [ModRM.isRegister, hregister]; decide
  rw [decodeRmOperand, if_pos hmod]

/-- An operation of the accumulator with any value that agrees at the width. -/
theorem executeOperation_rax {lhs mask : U64} (hagree : AgreeAt width imm value)
    (hmask : AgreeAt width mask (BitVec.allOnes 64)) :
    executeOperation operation.val lhs imm width mask
        (fun result => writeGpr .rax width result prefixes) =
      executeOperation operation.val lhs value width (maskForWidth width)
        (fun result => writeGpr .rax width result {}) := by
  refine executeOperation_congr (AgreeAt.refl lhs) hagree ?_ (fun result result' hresult => ?_)
    operation.val
  · refine hmask.trans (AgreeAt.of_getLsbD fun i hi => ?_)
    have hlt : i < 64 := Nat.lt_of_lt_of_le hi width.bits_le
    rw [AgreeAt.getLsbD_maskForWidth, BitVec.getLsbD_allOnes]
    simp [hi, hlt]
  · rw [writeGpr_rax, writeGpr_congr hresult]

/-! ## Immediates of the encodings -/

/-- A fetch of an immediate returns a value that agrees with the given one, and only moves
the decoder. -/
def FetchesValue (fetch : EmulatorProgram U64) (width : Width) (value : U64)
    (emulator : Emulator) : Prop :=
  ∃ imm pc, fetch emulator = .ok imm (atDecodePc emulator pc) ∧ AgreeAt width imm value

theorem assemble_one (bytes : Nat → U8) :
    LittleEndian.assemble bytes 1 = (bytes 0).setWidth 64 := by
  simp [LittleEndian.assemble]

/-- A signed byte is fetched as an immediate of one byte. -/
theorem fetchesValue_signedByte
    (h : HoldsImmediate emulator.mmu emulator.cpu.decodePc 1 width value) :
    FetchesValue (do let byte ← fetch8; pure (signExtend (byte.setWidth 64) .w8)) width value
      emulator := by
  rcases h with ⟨bytes, hbytes, hagree⟩
  have hread := hbytes 0 Nat.one_pos
  rw [BitVec.add_zero] at hread
  refine ⟨_, _, bind_of_ok (fetch8_of_read hread), ?_⟩
  rw [← assemble_one, signExtend_eq]
  exact hagree

/-- A plain byte does for operands of a byte. -/
theorem fetchesValue_byte (h : HoldsImmediate emulator.mmu emulator.cpu.decodePc 1 .w8 value) :
    FetchesValue (do let byte ← fetch8; pure (byte.setWidth 64)) .w8 value emulator := by
  rcases h with ⟨bytes, hbytes, hagree⟩
  have hread := hbytes 0 Nat.one_pos
  rw [BitVec.add_zero] at hread
  refine ⟨_, _, bind_of_ok (fetch8_of_read hread), AgreeAt.trans ?_ hagree⟩
  rw [← assemble_one, immediateValue]
  exact ((signExtend_eq _ .w8).symm ▸ agreeAt_signExtend _ .w8 : AgreeAt .w8 _ _).symm

/-- The full-size immediates of the additions are fetched rightly at every width. -/
theorem fetchesValue_full {form : ImmediateForm}
    (hform : form = .accumulator operation ∨ form = .group)
    (h : HoldsImmediate emulator.mmu emulator.cpu.decodePc
      (immediateBytes (operandWidth prefixes)) (operandWidth prefixes) value) :
    FetchesValue (form.fetchFor prefixes) (operandWidth prefixes) value emulator := by
  rcases h with ⟨bytes, hbytes, hagree⟩
  have harchitectural : form.IsArchitectural prefixes bytes := by
    rcases hform with rfl | rfl <;> trivial
  rcases (readsImmediate_iff hbytes).mpr harchitectural with ⟨imm, hfetch, himm⟩
  exact ⟨imm, _, hfetch, himm.trans hagree⟩

/-! ## The three dispatchers -/

/-- The accumulator forms read the accumulator first and fetch then. -/
theorem accumulator_order {fetch : EmulatorProgram U64} {mask : U64}
    (hmask : AgreeAt width mask (BitVec.allOnes 64))
    (hfetch : FetchesValue fetch width value
      (emulator.withCPU (afterReadRax width emulator.cpu))) :
    ∃ pc, (do
      let lhs ← readGpr .rax width prefixes
      let imm ← fetch
      executeOperation operation.val lhs imm width mask fun result =>
        writeGpr .rax width result prefixes : EmulatorProgram Unit) emulator =
      operateOnRax operation width value (atDecodePc emulator pc) := by
  rcases hfetch with ⟨imm, pc, hfetched, hagree⟩
  refine ⟨pc, ?_⟩
  have hmoved : atDecodePc (emulator.withCPU (afterReadRax width emulator.cpu)) pc =
      (atDecodePc emulator pc).withCPU (afterReadRax width (atDecodePc emulator pc).cpu) := by
    have hcpu : (afterReadRax width emulator.cpu).setDecodePc pc =
        afterReadRax width (emulator.cpu.setDecodePc pc) := by
      unfold afterReadRax
      exact apply_ite (fun cpu : SoftCPU64 => cpu.setDecodePc pc) _ _ _
    change emulator.withCPU _ = emulator.withCPU _
    exact congrArg emulator.withCPU hcpu
  rw [bind_of_ok (readGpr_rax width prefixes emulator), bind_of_ok hfetched, operateOnRax,
    bind_of_ok (readGpr_rax width {} _), executeOperation_rax hagree hmask, hmoved]
  rfl

/-- The groups fetch first and read then. -/
theorem group_order {fetch : EmulatorProgram U64} {mask : U64}
    (hmask : AgreeAt width mask (BitVec.allOnes 64))
    (hfetch : FetchesValue fetch width value emulator) :
    ∃ pc, (do
      let imm ← fetch
      let lhs ← readOperand (.register .rax) width prefixes
      executeOperation operation.val lhs imm width mask fun result =>
        writeOperand (.register .rax) width result prefixes : EmulatorProgram Unit) emulator =
      operateOnRax operation width value (atDecodePc emulator pc) := by
  rcases hfetch with ⟨imm, pc, hfetched, hagree⟩
  refine ⟨pc, ?_⟩
  have hread := readGpr_rax width prefixes (atDecodePc emulator pc)
  simp only [writeOperand_register]
  rw [bind_of_ok hfetched, readOperand, bind_of_ok hread, operateOnRax,
    bind_of_ok (readGpr_rax width {} _), executeOperation_rax hagree hmask]

/-- The mask of the dispatchers is no narrower than the operands. -/
theorem agreeAt_mask (width : Width) :
    AgreeAt width (maskForWidth width) (BitVec.allOnes 64) := by
  refine AgreeAt.of_getLsbD fun i hi => ?_
  have hlt : i < 64 := Nat.lt_of_lt_of_le hi width.bits_le
  rw [AgreeAt.getLsbD_maskForWidth, BitVec.getLsbD_allOnes]
  simp [hi, hlt]

/-- The accumulator forms. -/
theorem execute_accumulatorForm (hsize : width = .w8 ∨ width = operandWidth prefixes)
    (himm : HoldsImmediate emulator.mmu emulator.cpu.decodePc (immediateBytes width) width value) :
    ∃ pc, execute host prefixes (operationOpcode operation (if width = .w8 then 4 else 5))
        emulator = operateOnRax operation width value (atDecodePc emulator pc) := by
  by_cases hbyte : width = .w8
  · subst hbyte
    rcases decode_operationOpcode operation 4 (by omega) with ⟨hmap, hform, hoperation, hcode⟩
    have hlate : ¬operationOpcode operation 4 &&& 7 ≤ 3 := by
      rw [hform]
      omega
    have hbody : execute host prefixes (operationOpcode operation 4) = (do
        let lhs ← readGpr .rax .w8 prefixes
        let imm ← (do let byte ← fetch8; pure (byte.setWidth 64))
        executeOperation operation.val lhs imm .w8 (BitVec.allOnes 64) fun result =>
          writeGpr .rax .w8 result prefixes) := by
      rw [execute_of_aluAccumulator hmap hlate]
      simp only [executeAluAccumulator, hoperation, hcode, if_true, bind_assoc]
    rw [if_pos rfl, hbody]
    rw [← decodePc_afterReadRax .w8] at himm
    exact accumulator_order (AgreeAt.refl _) (fetchesValue_byte himm)
  · have hwidth : width = operandWidth prefixes := hsize.resolve_left hbyte
    subst hwidth
    rw [if_neg hbyte]
    change ∃ pc, execute host prefixes (ImmediateForm.accumulator operation).opcode _ = _
    rw [execute_accumulator]
    rw [← decodePc_afterReadRax (operandWidth prefixes)] at himm
    exact accumulator_order (AgreeAt.refl _) (fetchesValue_full (Or.inl rfl) himm)

/-- The groups with an immediate. -/
theorem execute_groupForm (host : Host)
    (hselect : fetchModrm prefixes emulator = .ok modrm selected) (hregister : modrm.mod = 3)
    (hrax : modrm.rm = .rax)
    (hop : modrm.operation = operation.val) {fetch : EmulatorProgram U64}
    (hfetch : FetchesValue fetch width value selected)
    (hopcode : opcode = 0x80 ∨ opcode = 0x81 ∨ opcode = 0x83)
    (hwidth : (if opcode = 0x80 then .w8 else operandWidth prefixes) = width)
    (hcode : (if opcode = 0x83 then do
        let byte ← fetch8
        pure (signExtend (byte.setWidth 64) .w8)
      else fetchImmediate width) = fetch) :
    ∃ pc, execute host prefixes opcode emulator =
      operateOnRax operation width value (atDecodePc selected pc) := by
  have hexecute : execute host prefixes opcode = executeAluImm opcode prefixes := by
    rcases hopcode with rfl | rfl | rfl <;> rfl
  have hbody : executeAluImm opcode prefixes emulator = (do
      let imm ← fetch
      let lhs ← readOperand (.register .rax) width prefixes
      executeOperation operation.val lhs imm width (maskForWidth width) fun result =>
        writeOperand (.register .rax) width result prefixes : EmulatorProgram Unit) selected := by
    subst hcode hwidth
    simp only [executeAluImm]
    rw [bind_of_ok hselect, decodeRmOperand_register hregister, hrax, hop]
    split
    · rw [bind_assoc]
      rfl
    · rfl
  rw [hexecute, hbody]
  exact group_order (agreeAt_mask width) hfetch

/-- A register whose lane is initialized is read without a trace. -/
theorem readGpr_initialized {other : Register}
    (hshadow : readLane emulator.cpu.gprShadow other width prefixes = 0) :
    readGpr other width prefixes emulator =
      .ok (readLane emulator.cpu.gpr other width prefixes) emulator := by
  rw [readGpr, bind_of_ok (getCPU_apply emulator)]
  exact congrFun (if_neg (not_not.mpr hshadow)) emulator

/-- The register forms with an initialized register. -/
theorem execute_registerForm {form : Nat} {other : Register} (hform : form < 4)
    (hsize : width = if form = 0 ∨ form = 2 then .w8 else operandWidth prefixes)
    (hselect : fetchModrm prefixes emulator = .ok modrm selected)
    (hregister : modrm.mod = 3) (hdifferent : other ≠ .rax)
    (hoperands : if form = 2 ∨ form = 3 then modrm.reg = .rax ∧ modrm.rm = other
      else modrm.rm = .rax ∧ modrm.reg = other)
    (hinitialized : readLane selected.cpu.gprShadow other width prefixes = 0)
    (hholds : AgreeAt width (readLane selected.cpu.gpr other width prefixes) value) :
    execute host prefixes (operationOpcode operation form) emulator =
      operateOnRax operation width value selected := by
  rcases decode_operationOpcode operation form (by omega) with ⟨hmap, hearly, hoperation, hcode⟩
  have hregs : ¬(Operand.register modrm.rm = Operand.register modrm.reg ∧
      (operation.val = 5 ∨ operation.val = 6 ∨ operation.val = 7)) := by
    rintro ⟨hsame, -⟩
    injection hsame with hsame
    split at hoperands
    · exact hdifferent (hoperands.2.symm.trans (hsame.trans hoperands.1))
    · exact hdifferent (hoperands.2.symm.trans (hsame.symm.trans hoperands.1))
  have hdestination : (if form = 2 ∨ form = 3 then Operand.register modrm.reg
      else Operand.register modrm.rm) = .register .rax := by
    split at hoperands
    · rw [if_pos ‹_›, hoperands.1]
    · rw [if_neg ‹_›, hoperands.1]
  have hsource : (if form = 2 ∨ form = 3 then Operand.register modrm.rm
      else Operand.register modrm.reg) = .register other := by
    split at hoperands
    · rw [if_pos ‹_›, hoperands.2]
    · rw [if_neg ‹_›, hoperands.2]
  have hother : readGpr other width prefixes (selected.withCPU (afterReadRax width selected.cpu)) =
      .ok (readLane selected.cpu.gpr other width prefixes)
        (selected.withCPU (afterReadRax width selected.cpu)) := by
    rw [← gprShadow_afterReadRax width] at hinitialized
    rw [← gpr_afterReadRax width]
    exact readGpr_initialized hinitialized
  rw [execute_of_aluRmReg ⟨hmap.1, hearly.mpr (by omega)⟩]
  simp only [executeAluRmReg, hoperation, hcode, ← hsize]
  rw [bind_of_ok hselect, decodeRmOperand_register hregister]
  simp only [pure_bind, hdestination, hsource, if_neg hregs, writeOperand_register]
  rw [readOperand, bind_of_ok (readGpr_rax width prefixes selected), readOperand, bind_of_ok hother,
    executeOperation_rax hholds (agreeAt_mask width), operateOnRax,
    bind_of_ok (readGpr_rax width {} selected)]

/-- Every encoding of an operation comes down to the operation of the accumulator, from a
state that looks like the beginning of the instruction. -/
theorem EncodesOperation.execute (h : EncodesOperation emulator operation width value)
    (host : Host) :
    ∃ prefixes opcode decoded ready, decodeOpcode emulator = .ok (prefixes, opcode) decoded ∧
      SoftCPU64.execute host prefixes opcode decoded = operateOnRax operation width value ready ∧
      ready.cpu.integerView = (beginInstruction emulator.cpu).integerView := by
  cases h with
  | accumulator decode size immediate =>
      rcases decodeOpcode_eq_ok decode with ⟨pc, rfl⟩
      rcases execute_accumulatorForm size immediate with ⟨pc', hexecute⟩
      exact ⟨_, _, _, _, decode, hexecute, rfl⟩
  | group decode size select register rax op immediate =>
      rcases decodeOpcode_eq_ok decode with ⟨pc, rfl⟩
      have hselected := fetchModrm_eq_ok select
      subst hselected
      by_cases hbyte : width = .w8
      · subst hbyte
        rcases execute_groupForm host select register rax op (fetchesValue_byte immediate)
          (Or.inl rfl) rfl rfl with ⟨pc', hexecute⟩
        exact ⟨_, _, _, _, decode, hexecute, rfl⟩
      · have hwidth : width = operandWidth _ := size.resolve_left hbyte
        subst hwidth
        rw [if_neg hbyte] at decode
        have hform : ImmediateForm.group = .accumulator operation ∨
            ImmediateForm.group = .group := Or.inr rfl
        rcases execute_groupForm host select register rax op
          (fetchesValue_full hform immediate) (Or.inr (Or.inl rfl)) rfl rfl with ⟨pc', hexecute⟩
        exact ⟨_, _, _, _, decode, hexecute, rfl⟩
  | groupByte decode size select register rax op immediate =>
      rcases decodeOpcode_eq_ok decode with ⟨pc, rfl⟩
      have hselected := fetchModrm_eq_ok select
      subst hselected
      rcases execute_groupForm host select register rax op (fetchesValue_signedByte immediate)
        (Or.inr (Or.inr rfl)) size.symm rfl with ⟨pc', hexecute⟩
      exact ⟨_, _, _, _, decode, hexecute, rfl⟩
  | registers form bound other decode size select register different operands initialized holds =>
      rcases decodeOpcode_eq_ok decode with ⟨pc, rfl⟩
      have hselected := fetchModrm_eq_ok select
      subst hselected
      exact ⟨_, _, _, _, decode, execute_registerForm bound size select register different operands
        initialized holds, rfl⟩

/-- Any two encodings of one operation, at one width and with one value, have the same effect
on the registers, their shadows, the flags and the taint of the flags. -/
theorem step_encodings_agree (hfirst : EncodesOperation emulator operation width value)
    (hsecond : EncodesOperation emulator' operation width value)
    (hgpr : emulator.cpu.gpr = emulator'.cpu.gpr)
    (hrflags : emulator.cpu.rflags = emulator'.cpu.rflags)
    (hshadow : emulator.cpu.gprShadow = emulator'.cpu.gprShadow)
    (htainted : emulator.cpu.flagsTainted = emulator'.cpu.flagsTainted) :
    ∃ final final', step host emulator = .ok () final ∧ step host emulator' = .ok () final' ∧
      final.cpu.gpr = final'.cpu.gpr ∧ final.cpu.rflags = final'.cpu.rflags ∧
      final.cpu.gprShadow = final'.cpu.gprShadow ∧
      final.cpu.flagsTainted = final'.cpu.flagsTainted := by
  rcases hfirst.execute host with ⟨prefixes, opcode, decoded, ready, hdecode, hexecute, hview⟩
  rcases hsecond.execute host with
    ⟨prefixes', opcode', decoded', ready', hdecode', hexecute', hview'⟩
  have hbegin : (beginInstruction emulator.cpu).integerView =
      (beginInstruction emulator'.cpu).integerView := by
    simp only [integerView, beginInstruction, hgpr, hrflags, hshadow, htainted]
  have hready : ready.cpu.integerView = ready'.cpu.integerView := by
    rw [hview, hview', hbegin]
  rcases Alike.operateOnRax operation width value ready ready' hready with
    ⟨_, last, last', hrun, hrun', hlast⟩
  refine ⟨last.withCPU (finishInstruction last.cpu), last'.withCPU (finishInstruction last'.cpu),
    ?_, ?_, ?_⟩
  · rw [step_of_decoded hdecode, bind_of_ok (hexecute.trans hrun)]
    rfl
  · rw [step_of_decoded hdecode', bind_of_ok (hexecute'.trans hrun')]
    rfl
  · exact fields_of_integerView hlast

section Examples

/-- `add $-1, %rax` in its accumulator form. -/
def addAccumulator : Emulator :=
  startingAt [0x48, 0x05, 0xff, 0xff, 0xff, 0xff]

/-- `add $-1, %rax` with a byte. -/
def addByte : Emulator :=
  startingAt [0x48, 0x83, 0xc0, 0xff]

/-- The two additions have the same effect. -/
theorem step_encodings_agree_add :
    ∃ final final', step Emulator.quietHost addAccumulator = .ok () final ∧
      step Emulator.quietHost addByte = .ok () final' ∧
      final.cpu.gpr = final'.cpu.gpr ∧ final.cpu.rflags = final'.cpu.rflags ∧
      final.cpu.gprShadow = final'.cpu.gprShadow ∧
      final.cpu.flagsTainted = final'.cpu.flagsTainted := by
  have hlong : Width.w64 = operandWidth { rexPresent := true, rex := 8 } := by decide
  have hfirst : EncodesOperation addAccumulator 0 .w64 (-1) := by
    refine .accumulator (eq_ok_of_returned (by decide)) (Or.inr hlong)
      ⟨fun _ => 0xff, ?_, ?_⟩
    · decide
    · decide
  have hsecond : EncodesOperation addByte 0 .w64 (-1) := by
    have hselect : fetchModrm { rexPresent := true, rex := 8 } (finalState (decodeOpcode addByte)) =
        .ok { byte := 0xc0, mod := 3 }
          (finalState (fetchModrm { rexPresent := true, rex := 8 }
            (finalState (decodeOpcode addByte)))) :=
      eq_ok_of_returned (by decide)
    refine .groupByte (eq_ok_of_returned (by decide)) hlong hselect rfl rfl rfl
      ⟨fun _ => 0xff, ?_, ?_⟩
    · decide
    · decide
  exact step_encodings_agree hfirst hsecond rfl rfl rfl rfl

end Examples

end SoftCPU64

end LUE
