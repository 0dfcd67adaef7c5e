import LinuxUserspaceEmulator.Library.LimbShift
import LinuxUserspaceEmulator.SoftCPU64.Division
import LinuxUserspaceEmulator.SoftCPU64.OperandForms
import LinuxUserspaceEmulator.SoftCPU64.ShiftFlags

/-!
# Double shifts

`SHLD` and `SHRD` shift a limb and fill it from a neighbour.  A row of them, ended by a `SHL` or
`SHR` of the last limb, shifts a number of several limbs.

Main results:

- Theorem `executeDoubleShift_eq`: the instruction as a decoder followed by its execution.
- Theorem `step_doubleShift`: what one double shift leaves in its register and in the carry flag.
- Theorem `limbs_shifted`: rows of double shifts multiply and divide by a power of two.
-/

namespace LUE

open StateExcept

namespace SoftCPU64

/-! ## The instruction as decoding and execution -/

/-- What a double shift has read before it shifts. -/
structure DoubleShift where
  operand : Operand
  register : Register
  destination : U64
  source : U64
  countRead : Nat
deriving DecidableEq

/-- The count of `SHLD` and `SHRD`: an immediate byte or `%cl`. -/
def readShiftCount (opcode : U8) (prefixes : Prefixes) : EmulatorProgram Nat :=
  if opcode = 0xa4 ∨ opcode = 0xac then do
    let byte ← fetch8
    pure byte.toNat
  else do
    let value ← readGpr .rcx .w8 prefixes
    pure value.toNat

/-- The part of `SHLD` and `SHRD` that decodes and reads. -/
def decodeDoubleShift (opcode : U8) (prefixes : Prefixes) : EmulatorProgram DoubleShift := do
  let width := operandWidth prefixes
  let modrm ← fetchModrm prefixes
  let operand ← decodeRmOperand prefixes modrm
  let destination ← readOperand operand width prefixes
  let source ← readGpr modrm.reg width prefixes
  let countRead ← readShiftCount opcode prefixes
  return ⟨operand, modrm.reg, destination, source, countRead⟩

/-- The opcodes of `SHLD`. -/
def isDoubleShiftLeft (opcode : U8) : Bool :=
  opcode = 0xa4 ∨ opcode = 0xa5

/-- The part of `SHLD` and `SHRD` after the reads. -/
def DoubleShift.execute (shift : DoubleShift) (opcode : U8) (prefixes : Prefixes) :
    EmulatorProgram Unit := do
  let width := operandWidth prefixes
  let mask := maskForWidth width
  let destValue := shift.destination &&& mask
  let srcValue := shift.source &&& mask
  let count := shift.countRead % width.bits
  if count ≠ 0 then
    let isLeft := opcode = 0xa4 ∨ opcode = 0xa5
    let carry :=
      if isLeft then destValue.getLsbD (width.bits - count) else destValue.getLsbD (count - 1)
    let result :=
      if isLeft then (destValue <<< count ||| srcValue >>> (width.bits - count)) &&& mask
      else (destValue >>> count ||| srcValue <<< (width.bits - count)) &&& mask
    writeOperand shift.operand width result prefixes
    modifyCPU fun cpu => cpu.setLogicFlags result width
    modifyCPU fun cpu => { cpu.setFlag CF carry with flagsTainted := cpu.currentTaint }

/-- A double shift decodes and then executes. -/
theorem executeDoubleShift_eq (opcode : U8) (prefixes : Prefixes) :
    executeDoubleShift opcode prefixes =
      decodeDoubleShift opcode prefixes >>= fun shift => shift.execute opcode prefixes := by
  unfold executeDoubleShift decodeDoubleShift readShiftCount
  simp only [bind_assoc, pure_bind]
  congr 1
  funext modrm
  congr 1
  funext operand
  congr 1
  funext destination
  congr 1
  funext source
  by_cases himmediate : opcode = 0xa4 ∨ opcode = 0xac
  · simp only [if_pos himmediate, bind_assoc, pure_bind]
    rfl
  · simp only [if_neg himmediate, bind_assoc, pure_bind]
    rfl

theorem ReadsOnly.decodeDoubleShift (opcode : U8) (prefixes : Prefixes) :
    ReadsOnly (decodeDoubleShift opcode prefixes) := by
  refine (ReadsOnly.fetchModrm prefixes).bind fun modrm =>
    (ReadsOnly.decodeRmOperand prefixes modrm).bind fun operand =>
    (ReadsOnly.readOperand _ _ _).bind fun _ => (ReadsOnly.readGpr _ _ _).bind fun _ => ?_
  exact ReadsOnly.bind (ReadsOnly.ite (ReadsOnly.fetch8.bind fun _ => ReadsOnly.pure _)
    ((ReadsOnly.readGpr _ _ _).bind fun _ => ReadsOnly.pure _)) fun _ => ReadsOnly.pure _

/-! ## One double shift -/

/-- A limb shifted, filled from its neighbour. -/
def doubleShifted {w : Nat} (left : Bool) (limb neighbour : BitVec w) (count : Nat) : BitVec w :=
  if left then limb <<< count ||| neighbour >>> (w - count)
  else limb >>> count ||| neighbour <<< (w - count)

/-- The last bit that a shift moves out of a limb. -/
def lastBitOut {w : Nat} (left : Bool) (limb : BitVec w) (count : Nat) : Bool :=
  if left then limb.getLsbD (w - count) else limb.getLsbD (count - 1)

/-- The lane of a register as a limb. -/
def limbOf (emulator : Emulator) (register : Register) (width : Width) : BitVec width.bits :=
  (emulator.cpu.reg register).setWidth width.bits

variable {host : Host} {prefixes : Prefixes} {opcode : U8} {emulator decoded read : Emulator}
  {width : Width} {count : Nat} {shift : DoubleShift} {register source : Register}

/-- The host words of a double shift are those of the limbs. -/
theorem setWidth_doubleShifted (left : Bool) (a b : U64) (count : Nat) :
    (if left = true then
        ((a &&& maskForWidth width) <<< count |||
          (b &&& maskForWidth width) >>> (width.bits - count)) &&& maskForWidth width
      else ((a &&& maskForWidth width) >>> count |||
        (b &&& maskForWidth width) <<< (width.bits - count)) &&& maskForWidth width).setWidth
          width.bits =
      doubleShifted left (a.setWidth width.bits) (b.setWidth width.bits) count := by
  have hle := width.bits_le
  apply BitVec.eq_of_getLsbD_eq
  intro i hi
  have hlt : i < 64 := Nat.lt_of_lt_of_le hi hle
  have hlow : i - count < width.bits := Nat.lt_of_le_of_lt (Nat.sub_le i count) hi
  cases left with
  | true =>
      simp only [if_true, setWidth_and_maskForWidth, doubleShifted, BitVec.getLsbD_setWidth,
        BitVec.getLsbD_or, BitVec.getLsbD_shiftLeft, BitVec.getLsbD_ushiftRight,
        BitVec.getLsbD_and, AgreeAt.getLsbD_maskForWidth]
      simp [hi, hlt, hlow, Bool.and_comm]
  | false =>
      have hlow' : i - (width.bits - count) < width.bits := by omega
      simp only [Bool.false_eq_true, if_false, setWidth_and_maskForWidth, doubleShifted,
        BitVec.getLsbD_setWidth, BitVec.getLsbD_or, BitVec.getLsbD_shiftLeft,
        BitVec.getLsbD_ushiftRight, BitVec.getLsbD_and, AgreeAt.getLsbD_maskForWidth]
      simp [hi, hlt, hlow', Bool.and_comm]

/-- The host words of the bit that a double shift moves out. -/
theorem getLsbD_lastBitOut (left : Bool) (a : U64) (hpos : 0 < count)
    (hcount : count < width.bits) :
    (if left = true then (a &&& maskForWidth width).getLsbD (width.bits - count)
      else (a &&& maskForWidth width).getLsbD (count - 1)) =
      lastBitOut left (a.setWidth width.bits) count := by
  have hhigh : width.bits - count < width.bits := by omega
  have hlow : count - 1 < width.bits := by omega
  cases left with
  | true => simp [lastBitOut, AgreeAt.getLsbD_maskForWidth, hhigh]
  | false => simp [lastBitOut, AgreeAt.getLsbD_maskForWidth, hlow]

/-- A double shift of a register by a count that is not a multiple of the width. -/
theorem DoubleShift.execute_register (read : Emulator) (opcode : U8)
    (hoperand : shift.operand = .register register)
    (hcount : shift.countRead % (operandWidth prefixes).bits ≠ 0) :
    ∃ final, shift.execute opcode prefixes read = .ok () final ∧
      limbOf final register (operandWidth prefixes) =
        doubleShifted (isDoubleShiftLeft opcode)
          (shift.destination.setWidth (operandWidth prefixes).bits)
          (shift.source.setWidth (operandWidth prefixes).bits)
          (shift.countRead % (operandWidth prefixes).bits) ∧
      final.cpu.flag CF = lastBitOut (isDoubleShiftLeft opcode)
        (shift.destination.setWidth (operandWidth prefixes).bits)
        (shift.countRead % (operandWidth prefixes).bits) := by
  have hhigh := isHighByte_of_ne (operandWidth_ne_w8 prefixes) register prefixes
  have hlt : shift.countRead % (operandWidth prefixes).bits < (operandWidth prefixes).bits :=
    Nat.mod_lt _ (operandWidth prefixes).bits_pos
  have hleft : (opcode = 0xa4 ∨ opcode = 0xa5) ↔ isDoubleShiftLeft opcode = true := by
    rw [isDoubleShiftLeft, decide_eq_true_iff]
  simp only [DoubleShift.execute, if_pos hcount, hoperand, writeOperand, hleft]
  rw [writeGpr, bind_of_ok (modifyCPU_apply _ read), bind_of_ok (modifyCPU_apply _ _),
    modifyCPU_apply]
  refine ⟨_, rfl, ?_, ?_⟩
  · refine (setWidth_writeLane _ _ hhigh).trans ?_
    rw [setWidth_and_maskForWidth]
    exact setWidth_doubleShifted _ _ _ _
  · rw [Emulator.withCPU_cpu, flag_setCarry]
    exact getLsbD_lastBitOut _ _ (Nat.pos_of_ne_zero hcount) hlt

/-- The instruction at the instruction pointer is a double shift of a register, filled from
another, by an immediate count. -/
def AtDoubleShift (emulator : Emulator) (opcode : U8) (width : Width) (count : Nat)
    (register source : Register) : Prop :=
  ∃ prefixes decoded shift read,
    decodeInstruction emulator = .ok (prefixes, .twoByte opcode) decoded ∧
    operandWidth prefixes = width ∧
    decodeDoubleShift opcode prefixes decoded = .ok shift read ∧
    shift.operand = .register register ∧ shift.register = source ∧ shift.countRead = count

/-- The instruction at the instruction pointer is a shift of a register by an immediate count. -/
def AtShift (emulator : Emulator) (operation : Nat) (width : Width) (count : Nat)
    (register : Register) : Prop :=
  ∃ prefixes decoded shift addressed,
    decodeInstruction emulator = .ok (prefixes, .oneByte 0xc1) decoded ∧
    operandWidth prefixes = width ∧
    decodeShiftGroup 0xc1 prefixes decoded = .ok shift addressed ∧
    shift.operation = operation ∧ shift.operand = .register register ∧
    shift.countByte.toNat = count

/-- The opcodes with an immediate count. -/
def doubleShiftOpcode (left : Bool) : U8 :=
  if left then 0xa4 else 0xac

/-- The group fields of `SHL` and `SHR`. -/
def shiftOperation (left : Bool) : Nat :=
  if left then 4 else 5

/-- A lane that was read, as a limb. -/
theorem setWidth_of_readGpr {value : U64} (hwidth : width ≠ .w8)
    (h : readGpr register width prefixes emulator = .ok value read) :
    value.setWidth width.bits = limbOf emulator register width := by
  rcases readGpr_eq_ok register width prefixes emulator with ⟨read', hread, -⟩
  rw [hread] at h
  cases h
  rw [readLane_of_not_isHighByte _ (isHighByte_of_ne hwidth register prefixes),
    setWidth_and_maskForWidth]
  rfl

theorem SameMachine.limbOf {before after : Emulator} (h : SameMachine before after)
    (register : Register) (width : Width) :
    SoftCPU64.limbOf after register width = SoftCPU64.limbOf before register width := by
  rw [SoftCPU64.limbOf, reg, h.gpr]
  rfl

/-- A double shift has read the registers it names. -/
theorem decodeDoubleShift_registers
    (h : decodeDoubleShift opcode prefixes decoded = .ok shift read)
    (hoperand : shift.operand = .register register) :
    shift.destination.setWidth (operandWidth prefixes).bits =
        limbOf decoded register (operandWidth prefixes) ∧
      shift.source.setWidth (operandWidth prefixes).bits =
        limbOf decoded shift.register (operandWidth prefixes) := by
  have hwidth := operandWidth_ne_w8 prefixes
  rcases bind_eq_ok_iff.mp h with ⟨modrm, selected, hmodrm, hrest⟩
  rcases bind_eq_ok_iff.mp hrest with ⟨operand, addressed, haddress, hrest⟩
  rcases bind_eq_ok_iff.mp hrest with ⟨destination, middle, hdestination, hrest⟩
  rcases bind_eq_ok_iff.mp hrest with ⟨value, last, hvalue, hrest⟩
  rcases bind_eq_ok_iff.mp hrest with ⟨countRead, final, hcount, hreturn⟩
  cases hreturn
  cases hoperand
  have haddressed := ((ReadsOnly.fetchModrm prefixes).of_ok hmodrm).trans
    ((ReadsOnly.decodeRmOperand prefixes modrm).of_ok haddress)
  have hmiddle := haddressed.trans ((ReadsOnly.readOperand _ _ _).of_ok hdestination)
  constructor
  · rw [setWidth_of_readGpr hwidth hdestination, haddressed.limbOf]
  · rw [setWidth_of_readGpr hwidth hvalue, hmiddle.limbOf]

/-- What one double shift leaves in its register and in the carry flag. -/
theorem step_doubleShift (host : Host)
    (hat : AtDoubleShift emulator opcode width count register source)
    (hopcode : opcode ∈ ([0xa4, 0xa5, 0xac, 0xad] : List U8))
    (hpos : 0 < count) (hcount : count < width.bits) :
    ∃ final, step host emulator = .ok () final ∧
      limbOf final register width = doubleShifted (isDoubleShiftLeft opcode)
        (limbOf emulator register width) (limbOf emulator source width) count ∧
      final.cpu.flag CF =
        lastBitOut (isDoubleShiftLeft opcode) (limbOf emulator register width) count := by
  rcases hat with ⟨prefixes, decoded, shift, read, hdecode, rfl, hread, hoperand, rfl, rfl⟩
  have hmod := Nat.mod_eq_of_lt hcount
  have hexecute : (Opcode.twoByte opcode).execute host prefixes decoded =
      shift.execute opcode prefixes read := by
    have hself : (Opcode.twoByte opcode).execute host prefixes =
        executeDoubleShift opcode prefixes := by
      simp only [List.mem_cons, List.not_mem_nil, or_false] at hopcode
      rcases hopcode with rfl | rfl | rfl | rfl <;> rfl
    rw [hself, executeDoubleShift_eq, bind_of_ok hread]
  rcases decodeDoubleShift_registers hread hoperand with ⟨hdestination, hsource⟩
  rcases DoubleShift.execute_register read opcode hoperand
    (by rw [hmod]; exact Nat.pos_iff_ne_zero.mp hpos) with ⟨final, hrun, hlimb, hcarry⟩
  rw [hdestination, hsource, hmod] at hlimb
  rw [hdestination, hmod] at hcarry
  rcases decodeInstruction_eq_ok hdecode with ⟨pc, rfl⟩
  rw [step_of_decodedInstruction hdecode, bind_of_ok (hexecute.trans hrun), modifyCPU_apply]
  exact ⟨_, rfl, hlimb, hcarry⟩

/-- What a shift leaves in its register. -/
theorem step_shift (host : Host) (left : Bool)
    (hat : AtShift emulator (shiftOperation left) width count register)
    (hpos : 0 < count) (hcount : count < width.bits) :
    ∃ final, step host emulator = .ok () final ∧
      limbOf final register width =
        shiftedOperand (shiftOperation left) (limbOf emulator register width) count := by
  rcases hat with
    ⟨prefixes, decoded, shift, addressed, hdecode, rfl, hshift, hoperation, hoperand, rfl⟩
  have hwidth : shift.width = operandWidth prefixes := by
    rcases bind_eq_ok_iff.mp hshift with ⟨modrm, selected, hmodrm, hrest⟩
    rcases bind_eq_ok_iff.mp hrest with ⟨operand, moved, haddress, hrest⟩
    rcases bind_eq_ok_iff.mp hrest with ⟨byte, fetched, hbyte, hreturn⟩
    cases hreturn
    rfl
  have hbits := (operandWidth prefixes).bits_le
  have hshiftCount : shift.count = shift.countByte.toNat := by
    rw [shift.count_eq_mod, Nat.mod_eq_of_lt (Nat.lt_of_lt_of_le hcount hbits)]
  rcases readGpr_eq_ok register (operandWidth prefixes) prefixes addressed with
    ⟨read, hread, -⟩
  have hvalue : readOperand shift.operand shift.width prefixes addressed =
      .ok (readLane addressed.cpu.gpr register (operandWidth prefixes) prefixes) read := by
    rw [hoperand, hwidth]
    exact hread
  have hlimb := setWidth_of_readGpr (operandWidth_ne_w8 prefixes) hread
  rw [((ReadsOnly.decodeShiftGroup 0xc1 prefixes).of_ok hshift).limbOf] at hlimb
  have hdefined : HostShiftsDefined shift.operation shift.count shift.width := by
    refine hostShiftsDefined_of_shift ?_ shift.count_lt _
    rw [hoperation]
    cases left <;> decide
  have hknown : IsShiftOperation shift.operation := by
    rw [hoperation]
    cases left <;> decide
  have hrun := executeShiftGroup_of_read hshift hknown (by omega) hvalue
  rw [if_pos hdefined, hoperand, hwidth, hshiftCount, hoperation] at hrun
  have hword : shiftWord (shiftOperation left)
      (readLane addressed.cpu.gpr register (operandWidth prefixes) prefixes)
      shift.countByte.toNat (operandWidth prefixes) =
      (shiftedOperand (shiftOperation left) (limbOf decoded register (operandWidth prefixes))
        shift.countByte.toNat).setWidth 64 := by
    rw [← hlimb]
    cases left with
    | true => exact shiftWord_left (Or.inl rfl)
    | false => exact shiftWord_right (readLane_lt _ _ _ _)
  have hhigh := isHighByte_of_ne (operandWidth_ne_w8 prefixes) register prefixes
  rw [hword, writeShifted, bind_of_ok (modifyCPU_apply _ read), writeOperand, writeGpr,
    modifyCPU_apply] at hrun
  rcases decodeInstruction_eq_ok hdecode with ⟨pc, rfl⟩
  rw [step_of_decodedInstruction hdecode]
  refine ⟨_, bind_of_ok hrun, ?_⟩
  refine (setWidth_writeLane _ _ hhigh).trans ?_
  rw [setWidth_and_maskForWidth, BitVec.setWidth_setWidth_of_le _ hbits, BitVec.setWidth_eq]
  rfl

/-! ## Rows of double shifts -/

/-- A row of double shifts over limbs, ended by a shift of the last one: from the most
significant limb down to the left, from the least significant limb up to the right.  Every step
runs with the limbs it names in its registers. -/
inductive RowShift (host : Host) (left : Bool) (width : Width) (count : Nat) :
    List (BitVec width.bits) → List (BitVec width.bits) → Prop
  | last {emulator final : Emulator} {register : Register} :
      AtShift emulator (shiftOperation left) width count register →
      step host emulator = .ok () final →
      RowShift host left width count [limbOf emulator register width]
        [limbOf final register width]
  | cons {emulator final : Emulator} {register source : Register}
      {limbs results : List (BitVec width.bits)} :
      AtDoubleShift emulator (doubleShiftOpcode left) width count register source →
      step host emulator = .ok () final →
      RowShift host left width count (limbOf emulator source width :: limbs) results →
      RowShift host left width count
        (limbOf emulator register width :: limbOf emulator source width :: limbs)
        (limbOf final register width :: results)

/-- The limbs of a row as numbers. -/
def digits {w : Nat} (limbs : List (BitVec w)) : List Nat :=
  limbs.map BitVec.toNat

/-- A limb shifted left is multiplied, and has room for what its neighbour loses. -/
theorem toNat_doubleShifted_left {w : Nat} (limb neighbour : BitVec w) (hcount : count < w) :
    (doubleShifted true limb neighbour count).toNat =
      limb.toNat * 2 ^ count % 2 ^ w + neighbour.toNat / 2 ^ (w - count) := by
  have hbase : 2 ^ w = 2 ^ count * 2 ^ (w - count) := by
    rw [← Nat.pow_add, Nat.add_sub_cancel' (Nat.le_of_lt hcount)]
  have hkept : limb.toNat * 2 ^ count % 2 ^ w = (limb.toNat % 2 ^ (w - count)) <<< count := by
    rw [hbase, Nat.mul_comm, Nat.mul_mod_mul_left, Nat.shiftLeft_eq, Nat.mul_comm]
  have hlost : neighbour.toNat / 2 ^ (w - count) < 2 ^ count := by
    refine Nat.div_lt_of_lt_mul ?_
    rw [Nat.mul_comm, ← hbase]
    exact neighbour.isLt
  rw [doubleShifted, if_pos rfl, BitVec.toNat_or, BitVec.toNat_shiftLeft, BitVec.toNat_ushiftRight,
    Nat.shiftLeft_eq, Nat.shiftRight_eq_div_pow, hkept, Nat.shiftLeft_add_eq_or_of_lt hlost]

/-- A limb shifted right is divided, and takes what its neighbour loses. -/
theorem toNat_doubleShifted_right {w : Nat} (limb neighbour : BitVec w) (hcount : count < w) :
    (doubleShifted false limb neighbour count).toNat =
      limb.toNat / 2 ^ count + neighbour.toNat % 2 ^ count * 2 ^ (w - count) := by
  have hbase : 2 ^ w = 2 ^ (w - count) * 2 ^ count := by
    rw [← Nat.pow_add, Nat.sub_add_cancel (Nat.le_of_lt hcount)]
  have hkept : neighbour.toNat * 2 ^ (w - count) % 2 ^ w =
      (neighbour.toNat % 2 ^ count) <<< (w - count) := by
    rw [hbase, Nat.mul_comm, Nat.mul_mod_mul_left, Nat.shiftLeft_eq, Nat.mul_comm]
  have hlow : limb.toNat / 2 ^ count < 2 ^ (w - count) := by
    refine Nat.div_lt_of_lt_mul ?_
    rw [Nat.mul_comm, ← hbase]
    exact limb.isLt
  rw [doubleShifted, if_neg Bool.false_ne_true, BitVec.toNat_or, BitVec.toNat_shiftLeft,
    BitVec.toNat_ushiftRight, Nat.shiftLeft_eq, Nat.shiftRight_eq_div_pow, hkept, Nat.or_comm,
    ← Nat.shiftLeft_add_eq_or_of_lt hlow, Nat.shiftLeft_eq, Nat.add_comm]

open LimbShift in
/-- A row to the left shifts its limbs to the left. -/
theorem RowShift.digits_left {limbs results : List (BitVec width.bits)} (hpos : 0 < count)
    (hcount : count < width.bits) (hrow : RowShift host true width count limbs results) :
    digits results = shiftLeft (2 ^ count) (2 ^ (width.bits - count)) (digits limbs) := by
  have hbase : 2 ^ width.bits = 2 ^ count * 2 ^ (width.bits - count) := by
    rw [← Nat.pow_add, Nat.add_sub_cancel' (Nat.le_of_lt hcount)]
  induction hrow with
  | last hat hstep =>
      rcases step_shift host true hat hpos hcount with ⟨final, hrun, hlimb⟩
      rw [hstep] at hrun
      cases hrun
      simp only [digits, List.map_cons, List.map_nil, shiftLeft, hlimb]
      rw [← hbase, ← Nat.shiftLeft_eq, ← BitVec.toNat_shiftLeft]
      rfl
  | cons hat hstep hrest ih =>
      rcases step_doubleShift host hat (by decide) hpos hcount with ⟨final, hrun, hlimb, -⟩
      rw [hstep] at hrun
      cases hrun
      simp only [digits, List.map_cons, shiftLeft] at ih ⊢
      rw [ih, hlimb, ← hbase]
      congr 1
      exact toNat_doubleShifted_left _ _ hcount

open LimbShift in
/-- A row to the right shifts its limbs to the right. -/
theorem RowShift.digits_right {limbs results : List (BitVec width.bits)} (hpos : 0 < count)
    (hcount : count < width.bits) (hrow : RowShift host false width count limbs results) :
    digits results = shiftRight (2 ^ count) (2 ^ (width.bits - count)) (digits limbs) := by
  induction hrow with
  | last hat hstep =>
      rcases step_shift host false hat hpos hcount with ⟨final, hrun, hlimb⟩
      rw [hstep] at hrun
      cases hrun
      simp only [digits, List.map_cons, List.map_nil, shiftRight, hlimb]
      rw [← Nat.shiftRight_eq_div_pow, ← BitVec.toNat_ushiftRight]
      rfl
  | cons hat hstep hrest ih =>
      rcases step_doubleShift host hat (by decide) hpos hcount with ⟨final, hrun, hlimb, -⟩
      rw [hstep] at hrun
      cases hrun
      simp only [digits, List.map_cons, shiftRight] at ih ⊢
      rw [ih, hlimb]
      congr 1
      exact toNat_doubleShifted_right _ _ hcount

/-- Rows of double shifts multiply and divide by a power of two, none of their steps raises, and
each double shift leaves the last bit it moves out in the carry flag. -/
theorem limbs_shifted (host : Host) (hpos : 0 < count) (hcount : count < width.bits) :
    (∀ limbs results, RowShift host true width count limbs results →
      Nat.ofDigits (2 ^ width.bits) (digits results).reverse =
        Nat.ofDigits (2 ^ width.bits) (digits limbs).reverse * 2 ^ count %
          2 ^ (width.bits * limbs.length)) ∧
    (∀ limbs results, RowShift host false width count limbs results →
      Nat.ofDigits (2 ^ width.bits) (digits results) =
        Nat.ofDigits (2 ^ width.bits) (digits limbs) / 2 ^ count) ∧
    (∀ left emulator register, AtShift emulator (shiftOperation left) width count register →
      ∃ final, step host emulator = .ok () final) ∧
    (∀ left emulator register source,
      AtDoubleShift emulator (doubleShiftOpcode left) width count register source →
      ∃ final, step host emulator = .ok () final ∧
        final.cpu.flag CF = lastBitOut left (limbOf emulator register width) count) := by
  have hbase : 2 ^ width.bits = 2 ^ count * 2 ^ (width.bits - count) := by
    rw [← Nat.pow_add, Nat.add_sub_cancel' (Nat.le_of_lt hcount)]
  have hone : 1 < 2 ^ count * 2 ^ (width.bits - count) := by
    rw [← hbase]
    exact Nat.one_lt_two_pow (Nat.pos_iff_ne_zero.mp width.bits_pos)
  refine ⟨?_, ?_, ?_, ?_⟩
  · intro limbs results hrow
    have hlimbs : ∀ limb ∈ digits limbs, limb < 2 ^ count * 2 ^ (width.bits - count) := by
      intro limb hmem
      rcases List.mem_map.mp hmem with ⟨word, -, rfl⟩
      rw [← hbase]
      exact word.isLt
    have hlength : (digits limbs).length = limbs.length := List.length_map _
    rw [hrow.digits_left hpos hcount, Nat.pow_mul, hbase,
      LimbShift.ofDigits_shiftLeft hone (digits limbs) hlimbs, hlength]
  · intro limbs results hrow
    rw [hrow.digits_right hpos hcount, hbase,
      LimbShift.ofDigits_shiftRight (Nat.two_pow_pos count)]
  · intro left emulator register hat
    rcases step_shift host left hat hpos hcount with ⟨final, hstep, -⟩
    exact ⟨final, hstep⟩
  · intro left emulator register source hat
    have hopcode : doubleShiftOpcode left ∈ ([0xa4, 0xa5, 0xac, 0xad] : List U8) := by
      cases left <;> decide
    have hleft : isDoubleShiftLeft (doubleShiftOpcode left) = left := by
      cases left <;> decide
    rcases step_doubleShift host hat hopcode hpos hcount with ⟨final, hstep, -, hcarry⟩
    rw [hleft] at hcarry
    exact ⟨final, hstep, hcarry⟩

section Examples

/-- A program with limbs in `%rax` and `%rcx`. -/
def shiftingLimbs (code : List U8) (rax rcx : U64) : Emulator :=
  let emulator := startingAt code
  emulator.withCPU ((emulator.cpu.setReg .rax rax).setReg .rcx rcx)

/-- `shld $4, %ecx, %eax` and `shl $4, %ecx` on two limbs of 32 bits. -/
theorem limbs_shifted_nibble :
    ∃ results, RowShift Emulator.quietHost true .w32 4 [0x12345678#32, 0x9abcdef0#32] results ∧
      Nat.ofDigits (2 ^ 32) (digits results).reverse = 0x23456789abcdef00 := by
  let first := shiftingLimbs [0x0f, 0xa4, 0xc8, 0x04] 0x12345678 0x9abcdef0
  let second := shiftingLimbs [0xc1, 0xe1, 0x04] 0 0x9abcdef0
  have hlast : AtShift second (shiftOperation true) .w32 4 .rcx :=
    ⟨{}, _, ⟨.w32, 4, .register .rcx, 4⟩, _, eq_ok_of_returned (by decide), by decide,
      eq_ok_of_returned (by decide), rfl, rfl, rfl⟩
  have hfirst : AtDoubleShift first (doubleShiftOpcode true) .w32 4 .rax .rcx :=
    ⟨{}, _, ⟨.register .rax, .rcx, 0x12345678, 0x9abcdef0, 4⟩, _,
      eq_ok_of_returned (by decide), by decide, eq_ok_of_returned (by decide),
      rfl, rfl, rfl⟩
  rcases step_shift Emulator.quietHost true hlast (by decide) (by decide) with ⟨final, hstep, -⟩
  rcases step_doubleShift Emulator.quietHost hfirst (by decide) (by decide) (by decide) with
    ⟨final', hstep', -, -⟩
  have hsame : limbOf second .rcx .w32 = limbOf first .rcx .w32 := by decide
  have hend := RowShift.last hlast hstep
  rw [hsame] at hend
  have hrow : RowShift Emulator.quietHost true .w32 4 [0x12345678#32, 0x9abcdef0#32] _ :=
    RowShift.cons hfirst hstep' hend
  refine ⟨_, hrow, ?_⟩
  have hvalue := (limbs_shifted Emulator.quietHost (by decide) (by decide)).1 _ _ hrow
  exact hvalue.trans (by decide)

end Examples

end SoftCPU64

end LUE
