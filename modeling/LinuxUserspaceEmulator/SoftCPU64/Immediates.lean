import LinuxUserspaceEmulator.Emulator.SignalReturn
import LinuxUserspaceEmulator.SoftCPU64.DecodePosition
import LinuxUserspaceEmulator.SoftCPU64.OperandWidth

/-!
# Full-size immediates

An instruction with a full-size immediate has two immediate bytes when its operands are 16
bits wide and four otherwise, and it computes with them sign-extended.  Six forms have such
an immediate, and each fetches it in its own way: before or after it reads its operand, with
or without a look at the operand-size prefix, with or without a sign extension.

Main results:

- Theorem `execute_of_beforeImmediate`: an instruction of one of the forms is a part before
  its immediate, the fetch, and a part that computes with the value.
- Theorem `afterImmediate_congr`: that part looks at the immediate at the operand width.
- Theorem `readsImmediate_iff`: which fetches are of the right size and extension.
-/

namespace LUE

open StateExcept

namespace SoftCPU64

/-! ## The architecture -/

/-- How many bytes an immediate of full size has. -/
def immediateBytes : Width → Nat
  | .w8 => 1
  | .w16 => 2
  | .w32 => 4
  | .w64 => 4

/-- The signed number in the first bytes of a sequence. -/
def immediateValue (bytes : Nat → U8) (count : Nat) : U64 :=
  ((LittleEndian.assemble bytes count).setWidth (8 * count)).signExtend 64

/-- The instruction forms with an immediate of full size. -/
inductive ImmediateForm where
  /-- `05`, `0D` and so on to `3D`. -/
  | accumulator (operation : Fin 8)
  /-- `81`. -/
  | group
  /-- `A9`. -/
  | testAccumulator
  /-- `F7 /0`. -/
  | testOperand
  /-- `C7 /0`. -/
  | movOperand
  /-- `69`. -/
  | imul
deriving DecidableEq, Repr

/-- What an instruction knows before it fetches its immediate. -/
structure ImmediateContext where
  modrm : ModRM := {}
  operand : Operand := .register .rax
  lhs : U64 := 0
deriving DecidableEq, Repr

namespace ImmediateForm

def opcode : ImmediateForm → U8
  | accumulator operation => BitVec.ofNat 8 (8 * operation.val + 5)
  | group => 0x81
  | testAccumulator => 0xa9
  | testOperand => 0xf7
  | movOperand => 0xc7
  | imul => 0x69

/-- The middle field of the ModRM byte selects two of the forms among others. -/
def Selects (form : ImmediateForm) (context : ImmediateContext) : Prop :=
  form = testOperand ∨ form = movOperand → context.modrm.operation = 0

/-! ## The code -/

/-- The part of an instruction before its immediate. -/
def beforeImmediate (form : ImmediateForm) (prefixes : Prefixes) :
    EmulatorProgram ImmediateContext :=
  match form with
  | accumulator _ | testAccumulator => do
      let lhs ← readGpr .rax (operandWidth prefixes) prefixes
      return { lhs := lhs }
  | group | testOperand | movOperand => do
      let modrm ← fetchModrm prefixes
      let operand ← decodeRmOperand prefixes modrm
      return { modrm := modrm, operand := operand }
  | imul => do
      let modrm ← fetchModrm prefixes
      let operand ← decodeRmOperand prefixes modrm
      let lhs ← readOperand operand (operandWidth prefixes) prefixes
      return { modrm := modrm, operand := operand, lhs := lhs }

/-- The fetch of the immediate. -/
def fetchFor (form : ImmediateForm) (prefixes : Prefixes) : EmulatorProgram U64 :=
  match form with
  | accumulator _ =>
      if operandWidth prefixes = .w16 then fetch16
      else do
        let value ← fetch32
        pure (if prefixes.rexW then signExtend value .w32 else value)
  | group | movOperand => fetchImmediate (operandWidth prefixes)
  | testAccumulator => do
      let imm ← fetch32
      pure (if prefixes.rexW then signExtend imm .w32 else imm)
  | testOperand => fetchInteger (if operandWidth prefixes = .w16 then 2 else 4)
  | imul => do
      let value ← fetch32
      pure (signExtend value .w32)

/-- The part of an instruction that computes with its immediate. -/
def afterImmediate (form : ImmediateForm) (prefixes : Prefixes) (context : ImmediateContext)
    (imm : U64) : EmulatorProgram Unit :=
  let width := operandWidth prefixes
  match form with
  | accumulator operation =>
      executeOperation operation.val context.lhs imm width (BitVec.allOnes 64) fun result =>
        writeGpr .rax width result prefixes
  | group => do
      let lhs ← readOperand context.operand width prefixes
      executeOperation context.modrm.operation lhs imm width (maskForWidth width) fun result =>
        writeOperand context.operand width result prefixes
  | testAccumulator => modifyCPU fun cpu => cpu.setLogicFlags (context.lhs &&& imm) width
  | testOperand => do
      let value ← readOperand context.operand width prefixes
      modifyCPU fun cpu => cpu.setLogicFlags (value &&& imm) width
  | movOperand => writeOperand context.operand width imm prefixes
  | imul => do
      let product := signedOperand context.lhs width * imm.toInt
      writeGpr context.modrm.reg width (BitVec.ofInt 64 product) prefixes
      let overflow := product != signedOperand (BitVec.ofInt 64 product) width
      modifyCPU fun cpu => (cpu.setFlag CF overflow).setFlag OF overflow

end ImmediateForm

open ImmediateForm

variable {host : Host} {form : ImmediateForm} {prefixes : Prefixes} {opcode : U8}
  {emulator decoded before after : Emulator} {context : ImmediateContext} {bytes : Nat → U8}

theorem operandWidth_ne_w8 (prefixes : Prefixes) : ¬operandWidth prefixes = .w8 := by
  unfold operandWidth
  split
  · decide
  · split <;> decide

/-- The accumulator forms are decoded by their operation and their size bit. -/
theorem decode_accumulator (operation : Fin 8) :
    let opcode := (accumulator operation).opcode
    (opcode ≤ 0x3d ∧ opcode &&& 7 ≤ 5) ∧ ¬opcode &&& 7 ≤ 3 ∧
      (opcode >>> 3).toNat = operation.val ∧ (opcode &&& 7).toNat = 5 := by
  revert operation
  decide

theorem execute_accumulator (operation : Fin 8) :
    execute host prefixes (accumulator operation).opcode = (do
      let lhs ← readGpr .rax (operandWidth prefixes) prefixes
      let imm ← (accumulator operation).fetchFor prefixes
      (accumulator operation).afterImmediate prefixes { lhs := lhs } imm) := by
  rcases decode_accumulator operation with ⟨hmap, hform, hoperation, hsize⟩
  have hbyte : ¬(5 : Nat) = 4 := by omega
  rw [execute_of_aluAccumulator hmap hform]
  simp only [executeAluAccumulator, hoperation, hsize, if_neg hbyte]
  refine congrArg (bind (readGpr .rax (operandWidth prefixes) prefixes)) (funext fun lhs => ?_)
  rw [fetchFor]
  split
  · rfl
  · rw [bind_assoc]
    rfl

/-- Every instruction of the forms is its three parts. -/
theorem execute_of_beforeImmediate
    (hbefore : form.beforeImmediate prefixes decoded = .ok context before)
    (hselects : form.Selects context) :
    execute host prefixes form.opcode decoded =
      (do
        let imm ← form.fetchFor prefixes
        form.afterImmediate prefixes context imm : EmulatorProgram Unit) before := by
  cases form with
  | accumulator operation =>
      rcases bind_eq_ok_iff.mp hbefore with ⟨lhs, emulator, hread, hreturn⟩
      cases hreturn
      rw [execute_accumulator, bind_of_ok hread]
  | group =>
      rcases bind_eq_ok_iff.mp hbefore with ⟨modrm, emulator, hmodrm, hrest⟩
      rcases bind_eq_ok_iff.mp hrest with ⟨operand, emulator', hoperand, hreturn⟩
      cases hreturn
      change executeAluImm 0x81 prefixes decoded = _
      rw [executeAluImm, bind_of_ok hmodrm, bind_of_ok hoperand]
      rfl
  | testAccumulator =>
      rcases bind_eq_ok_iff.mp hbefore with ⟨lhs, emulator, hread, hreturn⟩
      cases hreturn
      change executeTestAccumulator 0xa9 prefixes decoded = _
      rw [executeTestAccumulator]
      refine (bind_of_ok hread).trans ?_
      rw [fetchFor, bind_assoc]
      rfl
  | testOperand =>
      rcases bind_eq_ok_iff.mp hbefore with ⟨modrm, emulator, hmodrm, hrest⟩
      rcases bind_eq_ok_iff.mp hrest with ⟨operand, emulator', hoperand, hreturn⟩
      cases hreturn
      have hoperation : modrm.operation = 0 := hselects (Or.inl rfl)
      change executeGroupF6F7 0xf7 prefixes decoded = _
      rw [executeGroupF6F7, bind_of_ok hmodrm, bind_of_ok hoperand]
      simp only [hoperation]
      exact congrFun (if_neg (operandWidth_ne_w8 prefixes)) before
  | movOperand =>
      rcases bind_eq_ok_iff.mp hbefore with ⟨modrm, emulator, hmodrm, hrest⟩
      rcases bind_eq_ok_iff.mp hrest with ⟨operand, emulator', hoperand, hreturn⟩
      cases hreturn
      have hoperation : modrm.operation = 0 := hselects (Or.inr rfl)
      have hselected : ¬modrm.operation ≠ 0 := not_not.mpr hoperation
      change executeMovOperandImmediate 0xc7 prefixes decoded = _
      rw [executeMovOperandImmediate, bind_of_ok hmodrm, if_neg hselected, bind_of_ok hoperand]
      rfl
  | imul =>
      rcases bind_eq_ok_iff.mp hbefore with ⟨modrm, emulator, hmodrm, hrest⟩
      rcases bind_eq_ok_iff.mp hrest with ⟨operand, emulator', hoperand, hrest'⟩
      rcases bind_eq_ok_iff.mp hrest' with ⟨lhs, emulator'', hread, hreturn⟩
      cases hreturn
      change executeImulImmediate 0x69 prefixes decoded = _
      rw [executeImulImmediate, bind_of_ok hmodrm, bind_of_ok hoperand, bind_of_ok hread, fetchFor,
        bind_assoc]
      rfl

/-- Except for the multiplication, the instructions look at their immediate at the operand
width. -/
theorem afterImmediate_congr {imm imm' : U64} (h : AgreeAt (operandWidth prefixes) imm imm')
    (hform : form ≠ imul) :
    form.afterImmediate prefixes context imm = form.afterImmediate prefixes context imm' := by
  cases form with
  | accumulator operation =>
      exact executeOperation_congr (AgreeAt.refl _) h (AgreeAt.refl _)
        (fun value value' hvalue => writeGpr_congr hvalue .rax prefixes) operation.val
  | group =>
      refine congrArg (bind (readOperand context.operand (operandWidth prefixes) prefixes))
        (funext fun lhs => ?_)
      exact executeOperation_congr (AgreeAt.refl _) h (AgreeAt.refl _)
        (fun value value' hvalue => writeOperand_congr hvalue context.operand prefixes)
        context.modrm.operation
  | testAccumulator =>
      simp only [afterImmediate, setLogicFlags_congr ((AgreeAt.refl context.lhs).and h)]
  | testOperand =>
      have hflags : ∀ (cpu : SoftCPU64) (value : U64),
          cpu.setLogicFlags (value &&& imm) (operandWidth prefixes) =
            cpu.setLogicFlags (value &&& imm') (operandWidth prefixes) :=
        fun cpu value => setLogicFlags_congr ((AgreeAt.refl value).and h)
      simp only [afterImmediate, hflags]
  | movOperand => exact writeOperand_congr h context.operand prefixes
  | imul => exact absurd rfl hform

/-! ## Which fetches are right -/

/-- The instruction fetches the bytes of its immediate and no others, and the value it gets
is the number in them, sign-extended to the operand width. -/
def ReadsImmediate (form : ImmediateForm) (prefixes : Prefixes) (bytes : Nat → U8)
    (before : Emulator) : Prop :=
  let width := operandWidth prefixes
  ∃ imm, form.fetchFor prefixes before = .ok imm
      (atDecodePc before (before.cpu.decodePc + BitVec.ofNat 64 (immediateBytes width))) ∧
    AgreeAt width imm (immediateValue bytes (immediateBytes width))

/-- The forms, operand widths and immediates that are fetched as the architecture has it. -/
def ImmediateForm.IsArchitectural (form : ImmediateForm) (prefixes : Prefixes)
    (bytes : Nat → U8) : Prop :=
  match form with
  | accumulator _ | group | movOperand => True
  | testAccumulator | imul => operandWidth prefixes ≠ .w16
  | testOperand => operandWidth prefixes = .w64 → (bytes 3).msb = false

theorem rexW_iff : prefixes.rexW = true ↔ operandWidth prefixes = .w64 := by
  unfold operandWidth
  cases prefixes.rexW <;> cases prefixes.operand16 <;> simp

theorem immediateValue_two : immediateValue bytes 2 =
    signExtend (LittleEndian.assemble bytes 2) .w16 :=
  (signExtend_eq _ .w16).symm

theorem immediateValue_four : immediateValue bytes 4 =
    signExtend (LittleEndian.assemble bytes 4) .w32 :=
  (signExtend_eq _ .w32).symm

/-- A fetch that returns moves the decoder by the bytes it has fetched. -/
theorem fetchInteger_eq_ok {count : Nat} {value : U64}
    (h : fetchInteger count before = .ok value after) :
    after = atDecodePc before (before.cpu.decodePc + BitVec.ofNat 64 count) := by
  rw [fetchInteger, bind_of_ok (getCPU_apply before)] at h
  rcases bind_eq_ok_iff.mp h with ⟨value', emulator, hread, hrest⟩
  rcases readMMU_eq_ok_iff.mp hread with ⟨-, rfl⟩
  cases hrest
  rfl

theorem atDecodePc_inj {pc pc' : U64} (h : atDecodePc before pc = atDecodePc before pc') :
    pc = pc' :=
  congrArg (fun emulator => emulator.cpu.decodePc) h

theorem immediateBytes_of_ne_w16 (hwidth : operandWidth prefixes ≠ .w16) :
    immediateBytes (operandWidth prefixes) = 4 := by
  have hbyte := operandWidth_ne_w8 prefixes
  cases h : operandWidth prefixes <;> first | rfl | contradiction

/-- A 16-bit immediate needs no extension. -/
theorem agreeAt_assemble_two :
    AgreeAt .w16 (LittleEndian.assemble bytes 2) (immediateValue bytes 2) := by
  rw [immediateValue_two]
  exact (agreeAt_signExtend _ .w16).symm

/-- A 32-bit immediate is extended for 64-bit operands only. -/
theorem agreeAt_extended (hwidth : operandWidth prefixes ≠ .w16) :
    AgreeAt (operandWidth prefixes)
      (if prefixes.rexW then signExtend (LittleEndian.assemble bytes 4) .w32
        else LittleEndian.assemble bytes 4) (immediateValue bytes 4) := by
  rw [immediateValue_four]
  have hbyte := operandWidth_ne_w8 prefixes
  split <;> rename_i hrex
  · exact AgreeAt.refl _
  · have hlong : operandWidth prefixes ≠ .w64 := fun h => hrex (rexW_iff.mpr h)
    cases h : operandWidth prefixes with
    | w8 => contradiction
    | w16 => contradiction
    | w32 => exact (agreeAt_signExtend _ .w32).symm
    | w64 => contradiction

/-- Without its sign the immediate of 64-bit operands is right only when it is positive. -/
theorem agreeAt_assemble_four (hwidth : operandWidth prefixes ≠ .w16) :
    AgreeAt (operandWidth prefixes) (LittleEndian.assemble bytes 4) (immediateValue bytes 4) ↔
      (operandWidth prefixes = .w64 → (bytes 3).msb = false) := by
  rw [immediateValue_four]
  have hbyte := operandWidth_ne_w8 prefixes
  have hsign : ((LittleEndian.assemble bytes 4).setWidth Width.w32.bits).msb =
      (bytes 3).msb := by
    change ((LittleEndian.assemble bytes 4).setWidth 32).msb = _
    rw [BitVec.msb_eq_getLsbD_last, BitVec.getLsbD_setWidth,
      LittleEndian.getLsbD_assemble (by omega), BitVec.msb_eq_getLsbD_last]
    rfl
  cases h : operandWidth prefixes with
  | w8 => contradiction
  | w16 => contradiction
  | w32 => simpa using (agreeAt_signExtend (LittleEndian.assemble bytes 4) .w32).symm
  | w64 =>
      rw [signExtend_eq]
      constructor
      · intro hagree _
        have hbit := hagree.getLsbD (i := 63) (by decide)
        have hhigh : ¬63 < Width.w32.bits := by decide
        rw [LittleEndian.getLsbD_assemble (by omega), BitVec.getLsbD_signExtend, if_neg hhigh,
          hsign] at hbit
        simpa using hbit.symm
      · intro hpositive
        rw [BitVec.signExtend_eq_setWidth_of_msb_false (hsign.trans (hpositive rfl))]
        refine AgreeAt.of_getLsbD fun i hi => ?_
        have hbound : i < 64 := hi
        rw [BitVec.getLsbD_setWidth, BitVec.getLsbD_setWidth,
          LittleEndian.getLsbD_assemble (by omega)]
        by_cases hlow : i < 32
        · simp [hlow, hbound, Width.bits]
        · have hlow' : ¬i < 4 * 8 := hlow
          simp [hlow', hbound, Width.bits]

/-- The fetch without an extension, written with one. -/
theorem fetchInteger_eq_bind (count : Nat) :
    fetchInteger count = (do let value ← fetchInteger count; pure (id value)) :=
  (bind_pure _).symm

/-- `fetchImmediate` follows the operand width. -/
theorem fetchImmediate_eq (width : Width) (hbyte : ¬width = .w8) :
    fetchImmediate width = (do
      let value ← fetchInteger (immediateBytes width)
      pure (if width = .w16 then value else signExtend value .w32)) := by
  cases width with
  | w8 => contradiction
  | w16 => exact fetchInteger_eq_bind 2
  | w32 => rfl
  | w64 => rfl

theorem agreeAt_fetchImmediate :
    let width := operandWidth prefixes
    let count := immediateBytes width
    AgreeAt width
      (if width = .w16 then LittleEndian.assemble bytes count
        else signExtend (LittleEndian.assemble bytes count) .w32)
      (immediateValue bytes count) := by
  intro width count
  have hbyte := operandWidth_ne_w8 prefixes
  split <;> rename_i hwidth
  · have hcount : count = 2 := congrArg immediateBytes hwidth
    rw [hcount, hwidth]
    exact agreeAt_assemble_two
  · have hcount : count = 4 := immediateBytes_of_ne_w16 hwidth
    rw [hcount, immediateValue_four]
    exact AgreeAt.refl _

section Fetches

variable (hbytes : ∀ i < immediateBytes (operandWidth prefixes),
  before.mmu.read8 (before.cpu.decodePc + BitVec.ofNat 64 i) = .ok (bytes i))
include hbytes

/-- A fetch of so many bytes is right when the immediate has so many and the value made of
them agrees with the immediate. -/
theorem fetch_iff {count : Nat} (hcount : count ≤ 4) (imm : U64 → U64) :
    (∃ value, (do let value ← fetchInteger count; pure (imm value) : EmulatorProgram U64) before =
        .ok value (atDecodePc before (before.cpu.decodePc +
          BitVec.ofNat 64 (immediateBytes (operandWidth prefixes)))) ∧
      AgreeAt (operandWidth prefixes) value
        (immediateValue bytes (immediateBytes (operandWidth prefixes)))) ↔
    immediateBytes (operandWidth prefixes) = count ∧
      AgreeAt (operandWidth prefixes) (imm (LittleEndian.assemble bytes count))
        (immediateValue bytes count) := by
  have hsmall : immediateBytes (operandWidth prefixes) ≤ 4 := by
    cases operandWidth prefixes <;> decide
  constructor
  · rintro ⟨value, hfetch, hagree⟩
    rcases bind_eq_ok_iff.mp hfetch with ⟨raw, after, hraw, hreturn⟩
    have hpc : before.cpu.decodePc + BitVec.ofNat 64 (immediateBytes (operandWidth prefixes)) =
        before.cpu.decodePc + BitVec.ofNat 64 count := by
      rw [fetchInteger_eq_ok hraw] at hreturn
      injection hreturn with _ hstate
      exact (atDecodePc_inj hstate).symm
    have hsame : immediateBytes (operandWidth prefixes) = count := by bv_omega
    subst hsame
    rw [fetchInteger_of_bytes hbytes] at hraw
    cases hraw
    cases hreturn
    exact ⟨rfl, hagree⟩
  · rintro ⟨rfl, hagree⟩
    exact ⟨_, bind_of_ok (fetchInteger_of_bytes hbytes), hagree⟩

/-- An instruction of the forms fetches its immediate rightly exactly when its form, its width
and its bytes are among the architectural ones. -/
theorem readsImmediate_iff :
    ReadsImmediate form prefixes bytes before ↔ form.IsArchitectural prefixes bytes := by
  have hsmall : immediateBytes (operandWidth prefixes) ≤ 4 := by
    cases operandWidth prefixes <;> decide
  have hbyte := operandWidth_ne_w8 prefixes
  have hfour : immediateBytes (operandWidth prefixes) = 4 ↔ operandWidth prefixes ≠ .w16 := by
    constructor
    · intro hcount hwidth
      rw [hwidth] at hcount
      contradiction
    · exact immediateBytes_of_ne_w16
  cases form with
  | accumulator operation =>
      rw [ReadsImmediate, fetchFor]
      by_cases hwidth : operandWidth prefixes = .w16
      · rw [if_pos hwidth, fetch16, fetchInteger_eq_bind, fetch_iff hbytes (by omega), hwidth]
        exact iff_of_true ⟨rfl, agreeAt_assemble_two⟩ trivial
      · rw [if_neg hwidth, fetch32, fetch_iff hbytes (by omega), hfour]
        exact iff_of_true ⟨hwidth, agreeAt_extended hwidth⟩ trivial
  | group =>
      rw [ReadsImmediate, fetchFor, fetchImmediate_eq _ hbyte, fetch_iff hbytes hsmall]
      exact iff_of_true ⟨rfl, agreeAt_fetchImmediate⟩ trivial
  | testAccumulator =>
      rw [ReadsImmediate, fetchFor, fetch32, fetch_iff hbytes (by omega), hfour]
      exact and_iff_left_of_imp agreeAt_extended
  | testOperand =>
      rw [ReadsImmediate, fetchFor, fetchInteger_eq_bind]
      by_cases hwidth : operandWidth prefixes = .w16
      · have hshort : ¬operandWidth prefixes = .w64 := by rw [hwidth]; decide
        rw [if_pos hwidth, fetch_iff hbytes (by omega), hwidth]
        exact iff_of_true ⟨rfl, agreeAt_assemble_two⟩ fun h => absurd h hshort
      · rw [if_neg hwidth, fetch_iff hbytes (by omega), hfour]
        exact (and_iff_right hwidth).trans (agreeAt_assemble_four hwidth)
  | movOperand =>
      rw [ReadsImmediate, fetchFor, fetchImmediate_eq _ hbyte, fetch_iff hbytes hsmall]
      exact iff_of_true ⟨rfl, agreeAt_fetchImmediate⟩ trivial
  | imul =>
      rw [ReadsImmediate, fetchFor, fetch32, fetch_iff hbytes (by omega), hfour,
        immediateValue_four]
      exact and_iff_left (AgreeAt.refl _)

/-- The multiplication computes with its immediate as a host integer, whatever the width. -/
theorem fetchFor_imul (hwidth : operandWidth prefixes ≠ .w16) :
    imul.fetchFor prefixes before = .ok (immediateValue bytes 4)
      (atDecodePc before (before.cpu.decodePc + BitVec.ofNat 64 4)) := by
  rw [immediateBytes_of_ne_w16 hwidth] at hbytes
  rw [fetchFor, fetch32, bind_of_ok (fetchInteger_of_bytes hbytes), immediateValue_four]
  rfl

end Fetches

/-! ## Steps -/

/-- Nothing after the immediate moves the decoder. -/
theorem keepsPosition_afterImmediate (form : ImmediateForm) (prefixes : Prefixes)
    (context : ImmediateContext) (imm : U64) :
    KeepsPosition (form.afterImmediate prefixes context imm) := by
  cases form with
  | accumulator operation =>
      exact keepsPosition_executeOperation _ _ _ _ _ fun value =>
        keepsPosition_writeGpr .rax _ value prefixes
  | group =>
      exact (keepsPosition_readOperand _ _ _).bind fun lhs =>
        keepsPosition_executeOperation _ _ _ _ _ fun value =>
          keepsPosition_writeOperand context.operand _ value prefixes
  | testAccumulator => exact keepsPosition_setLogicFlags _ _
  | testOperand =>
      exact (keepsPosition_readOperand _ _ _).bind fun value => keepsPosition_setLogicFlags _ _
  | movOperand => exact keepsPosition_writeOperand _ _ _ _
  | imul =>
      exact (keepsPosition_writeGpr _ _ _ _).bind fun _ =>
        KeepsPosition.modifyCPU fun _ => rfl

/-- A step of an instruction with a full-size immediate fetches it and computes with it.  The
fetch is right, in the number of bytes and in the value, exactly for the architectural forms,
widths and bytes; the instruction then computes with the number in its immediate, and the next
instruction begins after it. -/
theorem step_immediate (host : Host)
    (hdecode : decodeOpcode emulator = .ok (prefixes, form.opcode) decoded)
    (hbefore : form.beforeImmediate prefixes decoded = .ok context before)
    (hselects : form.Selects context)
    (hbytes : ∀ i < immediateBytes (operandWidth prefixes),
      before.mmu.read8 (before.cpu.decodePc + BitVec.ofNat 64 i) = .ok (bytes i)) :
    let count := immediateBytes (operandWidth prefixes)
    let next := before.cpu.decodePc + BitVec.ofNat 64 count
    (step host emulator = (do
      let imm ← form.fetchFor prefixes
      form.afterImmediate prefixes context imm
      modifyCPU finishInstruction : EmulatorProgram Unit) before) ∧
    (ReadsImmediate form prefixes bytes before ↔ form.IsArchitectural prefixes bytes) ∧
    (form.IsArchitectural prefixes bytes →
      (step host emulator = (do
        form.afterImmediate prefixes context (immediateValue bytes count)
        modifyCPU finishInstruction : EmulatorProgram Unit) (atDecodePc before next)) ∧
      ∀ final, step host emulator = .ok () final → final.cpu.rip = next) := by
  intro count next
  have hstep : step host emulator = (do
      let imm ← form.fetchFor prefixes
      form.afterImmediate prefixes context imm
      modifyCPU finishInstruction : EmulatorProgram Unit) before := by
    rw [step_of_decoded hdecode, bind_congr_outcome (execute_of_beforeImmediate hbefore hselects),
      bind_assoc]
  refine ⟨hstep, readsImmediate_iff hbytes, fun harchitectural => ?_⟩
  rcases (readsImmediate_iff hbytes).mpr harchitectural with ⟨imm, hfetch, hagree⟩
  have hvalue : form.afterImmediate prefixes context imm =
      form.afterImmediate prefixes context (immediateValue bytes count) := by
    by_cases hform : form = imul
    · subst hform
      have hcount : count = 4 := immediateBytes_of_ne_w16 harchitectural
      have himm := fetchFor_imul hbytes harchitectural
      rw [hfetch] at himm
      injection himm with hvalue
      rw [hvalue, hcount]
    · exact afterImmediate_congr hagree hform
  have hrest : step host emulator = (do
      form.afterImmediate prefixes context (immediateValue bytes count)
      modifyCPU finishInstruction : EmulatorProgram Unit) (atDecodePc before next) := by
    rw [hstep, bind_of_ok hfetch, hvalue]
  refine ⟨hrest, fun final hfinal => ?_⟩
  rw [hrest] at hfinal
  rcases bind_eq_ok_iff.mp hfinal with ⟨_, last, hafter, hfinish⟩
  cases hfinish
  exact (keepsPosition_afterImmediate form prefixes context _).eq_of_ok hafter

section Examples

/-- An emulator at the start of some code. -/
def startingAt (code : List U8) : Emulator where
  mmu := { regions := [Emulator.pageOf 0x1000 (protRead ||| protExecute) code] }
  cpu := { rip := 0x1000 }

/-- `add $0x12345678, %eax` in the encoding with a ModRM byte. -/
def addImmediate : Emulator :=
  startingAt [0x81, 0xc0, 0x78, 0x56, 0x34, 0x12]

/-- The addition takes its four bytes. -/
theorem step_immediate_add :
    ∃ before, (∃ context, group.beforeImmediate {} (finalState (decodeOpcode addImmediate)) =
        .ok context before) ∧
      ReadsImmediate group {} (fun i => [0x78, 0x56, 0x34, 0x12].getD i 0) before ∧
      ∀ final, step Emulator.quietHost addImmediate = .ok () final →
        final.cpu.rip = before.cpu.decodePc + 4 := by
  have hdecode : decodeOpcode addImmediate =
      .ok ({}, group.opcode) (finalState (decodeOpcode addImmediate)) :=
    eq_ok_of_returned (by decide)
  have hbefore : group.beforeImmediate {} (finalState (decodeOpcode addImmediate)) =
      .ok { modrm := { byte := 0xc0, mod := 3 } }
        (finalState (group.beforeImmediate {} (finalState (decodeOpcode addImmediate)))) :=
    eq_ok_of_returned (by decide)
  have hselects : group.Selects { modrm := { byte := 0xc0, mod := 3 } } := by
    rintro (h | h) <;> contradiction
  have hbytes : ∀ i < 4,
      (finalState (group.beforeImmediate {} (finalState (decodeOpcode addImmediate)))).mmu.read8
        (0x1002 + BitVec.ofNat 64 i) = .ok ([0x78, 0x56, 0x34, 0x12].getD i 0) := by
    decide
  rcases step_immediate Emulator.quietHost hdecode hbefore hselects hbytes with
    ⟨-, hreads, hstep⟩
  exact ⟨_, ⟨_, hbefore⟩, hreads.mpr trivial, (hstep trivial).2⟩

/-- `test $0x1234, %ax`, followed by `nop`. -/
def testShortImmediate : Emulator :=
  startingAt [0x66, 0xa9, 0x34, 0x12, 0x90, 0x90]

/-- The test of `%ax` takes four bytes for its two. -/
theorem testAccumulator_takes_four_bytes :
    let prefixes : Prefixes := { operand16 := true }
    let decoded := finalState (decodeOpcode testShortImmediate)
    decodeOpcode testShortImmediate = .ok (prefixes, testAccumulator.opcode) decoded ∧
      immediateBytes (operandWidth prefixes) = 2 ∧
      ∃ before, testAccumulator.beforeImmediate prefixes decoded = .ok {} before ∧
        before.cpu.decodePc = 0x1002 ∧
        ¬ReadsImmediate testAccumulator prefixes (fun i => [0x34, 0x12].getD i 0) before ∧
        (finalState (step Emulator.quietHost testShortImmediate)).cpu.rip = 0x1006 := by
  intro prefixes decoded
  have hwidth : operandWidth prefixes = .w16 := by
    change operandWidth { operand16 := true } = .w16
    decide
  refine ⟨eq_ok_of_returned (by decide), congrArg immediateBytes hwidth,
    finalState (testAccumulator.beforeImmediate prefixes decoded),
    eq_ok_of_returned (by decide), by decide, ?_, by decide⟩
  rw [readsImmediate_iff (by decide)]
  exact fun h => h hwidth

end Examples

end SoftCPU64

end LUE
