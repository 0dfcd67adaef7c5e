import LinuxUserspaceEmulator.SoftCPU64.Division
import LinuxUserspaceEmulator.SoftCPU64.OperandForms

/-!
# Signed products

The four encodings of `IMUL` compute their product in integers of different sizes, and each
narrows it and sets the flags by itself.  The form with two operands sets no flags and multiplies
in 64 bits of the host; the form with a full immediate takes four immediate bytes at every
operand width.

Main results:

- Theorem `execute_imul`: every form reads its factors and then multiplies.
- Theorem `eq_signedOperand_iff`: the narrowed product is the product when it fits.
- Theorem `step_imul_iff`: when a form stores the product and reports its overflow.
-/

namespace LUE

open StateExcept TruncatedDivision

namespace SoftCPU64

/-! ## The forms -/

/-- The encodings of a signed multiplication: the accumulator by an operand, a register by an
operand, and an operand by an immediate of full size or of one byte. -/
inductive ImulForm where
  | accumulator
  | register
  | immediate
  | byteImmediate
deriving DecidableEq, Repr

/-- The register that a product goes to, and what is multiplied: operands as they were read,
immediates extended to 64 bits. -/
structure Factors where
  destination : Register
  lhs : U64
  rhs : U64
deriving DecidableEq, Repr

namespace ImulForm

def opcode : ImulForm → Opcode
  | accumulator => .oneByte 0xf7
  | register => .twoByte 0xaf
  | immediate => .oneByte 0x69
  | byteImmediate => .oneByte 0x6b

/-- The part of a form before its multiplication. -/
def readFactors (form : ImulForm) (prefixes : Prefixes) : EmulatorProgram Factors := do
  let width := operandWidth prefixes
  let modrm ← fetchModrm prefixes
  let operand ← decodeRmOperand prefixes modrm
  match form with
  | accumulator => do
      let value ← readOperand operand width prefixes
      let accumulator ← readGpr .rax width prefixes
      return ⟨.rax, accumulator, value⟩
  | register => do
      let lhs ← readGpr modrm.reg width prefixes
      let rhs ← readOperand operand width prefixes
      return ⟨modrm.reg, lhs, rhs⟩
  | immediate => do
      let lhs ← readOperand operand width prefixes
      let value ← fetch32
      return ⟨modrm.reg, lhs, signExtend value .w32⟩
  | byteImmediate => do
      let lhs ← readOperand operand width prefixes
      let byte ← fetch8
      return ⟨modrm.reg, lhs, signExtend (byte.setWidth 64) .w8⟩

/-- The second factor as the form multiplies it. -/
def rightFactor (form : ImulForm) (width : Width) (rhs : U64) : Int :=
  match form with
  | accumulator => signedOperand rhs width
  | register => signedOperand rhs width
  | immediate => rhs.toInt
  | byteImmediate => rhs.toInt

/-- The product that a form computes. -/
def product (form : ImulForm) (width : Width) (factors : Factors) : Int :=
  signedOperand factors.lhs width * form.rightFactor width factors.rhs

/-- The multiplication of a form. -/
def multiply (form : ImulForm) (prefixes : Prefixes) (factors : Factors) :
    EmulatorProgram Unit := do
  let width := operandWidth prefixes
  let product := form.product width factors
  let overflow := product != signedOperand (BitVec.ofInt 64 product) width
  match form with
  | accumulator => writeProduct (BitVec.ofInt 128 product) overflow width prefixes
  | register =>
      if product < -2 ^ 63 ∨ 2 ^ 63 ≤ product then throw .hostFault
      else writeGpr factors.destination width (BitVec.ofInt 64 product) prefixes
  | _ => do
      writeGpr factors.destination width (BitVec.ofInt 64 product) prefixes
      modifyCPU fun cpu => (cpu.setFlag CF overflow).setFlag OF overflow

/-- The opcode of the accumulator form is that of a group. -/
def Selected (form : ImulForm) (prefixes : Prefixes) (decoded : Emulator) : Prop :=
  form = accumulator → ∀ modrm selected, fetchModrm prefixes decoded = .ok modrm selected →
    modrm.operation = 5

end ImulForm

section Forms

variable {form : ImulForm} {prefixes : Prefixes} {factors : Factors}
  {emulator decoded read final : Emulator} {width : Width}

/-- Every form reads its factors and then multiplies. -/
theorem execute_imul (host : Host) (hselected : form.Selected prefixes decoded)
    (hread : form.readFactors prefixes decoded = .ok factors read) :
    form.opcode.execute host prefixes decoded = form.multiply prefixes factors read := by
  rcases bind_eq_ok_iff.mp hread with ⟨modrm, selected, hmodrm, hrest⟩
  rcases bind_eq_ok_iff.mp hrest with ⟨operand, addressed, hoperand, hfactors⟩
  cases form with
  | accumulator =>
      have hgroup := hselected rfl modrm selected hmodrm
      change executeGroupF6F7 0xf7 prefixes decoded = _
      rw [executeGroupF6F7, bind_of_ok hmodrm, bind_of_ok hoperand]
      simp only [hgroup]
      rcases bind_eq_ok_iff.mp hfactors with ⟨value, middle, hvalue, hrest⟩
      rcases bind_eq_ok_iff.mp hrest with ⟨accumulator, last, haccumulator, hreturn⟩
      cases hreturn
      exact (bind_of_ok hvalue).trans (bind_of_ok haccumulator)
  | register =>
      change executeImulRegister prefixes decoded = _
      rw [executeImulRegister, bind_of_ok hmodrm, bind_of_ok hoperand]
      rcases bind_eq_ok_iff.mp hfactors with ⟨lhs, middle, hlhs, hrest⟩
      rcases bind_eq_ok_iff.mp hrest with ⟨rhs, last, hrhs, hreturn⟩
      cases hreturn
      exact (bind_of_ok hlhs).trans (bind_of_ok hrhs)
  | immediate =>
      change executeImulImmediate 0x69 prefixes decoded = _
      rw [executeImulImmediate, bind_of_ok hmodrm, bind_of_ok hoperand]
      rcases bind_eq_ok_iff.mp hfactors with ⟨lhs, middle, hlhs, hrest⟩
      rcases bind_eq_ok_iff.mp hrest with ⟨value, last, hvalue, hreturn⟩
      cases hreturn
      exact (bind_of_ok hlhs).trans (bind_of_ok hvalue)
  | byteImmediate =>
      change executeImulImmediate 0x6b prefixes decoded = _
      rw [executeImulImmediate, bind_of_ok hmodrm, bind_of_ok hoperand]
      rcases bind_eq_ok_iff.mp hfactors with ⟨lhs, middle, hlhs, hrest⟩
      rcases bind_eq_ok_iff.mp hrest with ⟨byte, last, hbyte, hreturn⟩
      cases hreturn
      exact (bind_of_ok hlhs).trans (bind_of_ok hbyte)

/-! ## Products as words -/

/-- The narrowed product is the product when it fits. -/
theorem eq_signedOperand_iff (value : Int) (width : Width) :
    value = signedOperand (BitVec.ofInt 64 value) width ↔ Fits true width.bits value := by
  rw [signedOperand_eq, setWidth_ofInt width.bits_le]
  constructor
  · intro h
    rw [h]
    exact fits_wordValue _
  · intro h
    exact (wordValue_ofInt width.bits_pos h).symm

/-- The factors as words of the operand width. -/
def Factors.left (factors : Factors) (width : Width) : BitVec width.bits :=
  factors.lhs.setWidth width.bits

def Factors.right (factors : Factors) (width : Width) : BitVec width.bits :=
  factors.rhs.setWidth width.bits

/-- The signed product of the words. -/
def Factors.signedProduct (factors : Factors) (width : Width) : Int :=
  (factors.left width).toInt * (factors.right width).toInt

/-- The product that a form computes, as a word, is the product of the words. -/
theorem ofInt_product (form : ImulForm) (width : Width) (factors : Factors) :
    BitVec.ofInt width.bits (form.product width factors) =
      factors.left width * factors.right width := by
  have hleft : BitVec.ofInt width.bits (signedOperand factors.lhs width) = factors.left width := by
    rw [signedOperand_eq]
    exact BitVec.ofInt_toInt
  have hsigned : BitVec.ofInt width.bits (signedOperand factors.rhs width) =
      factors.right width := by
    rw [signedOperand_eq]
    exact BitVec.ofInt_toInt
  have himmediate : BitVec.ofInt width.bits factors.rhs.toInt = factors.right width := by
    rw [← setWidth_ofInt width.bits_le, BitVec.ofInt_toInt]
    rfl
  rw [ImulForm.product, BitVec.ofInt_mul, hleft]
  cases form with
  | accumulator => rw [ImulForm.rightFactor, hsigned]
  | register => rw [ImulForm.rightFactor, hsigned]
  | immediate => rw [ImulForm.rightFactor, himmediate]
  | byteImmediate => rw [ImulForm.rightFactor, himmediate]

/-! ## What a form leaves -/

/-- The product of the words is stored, and both flags report that the signed product does not
fit. -/
structure Multiplies (factors : Factors) (width : Width) (final : Emulator) : Prop where
  low : (final.cpu.reg factors.destination).setWidth width.bits =
    factors.left width * factors.right width
  carry : final.cpu.flag CF = true ↔ ¬Fits true width.bits (factors.signedProduct width)
  overflow : final.cpu.flag OF = true ↔ ¬Fits true width.bits (factors.signedProduct width)

/-- The overflow that a form computes. -/
def ImulForm.overflow (form : ImulForm) (width : Width) (factors : Factors) : Bool :=
  form.product width factors != signedOperand (BitVec.ofInt 64 (form.product width factors)) width

theorem ImulForm.overflow_iff (form : ImulForm) (width : Width) (factors : Factors) :
    form.overflow width factors = true ↔ ¬Fits true width.bits (form.product width factors) := by
  rw [ImulForm.overflow, bne_iff_ne, ne_eq, eq_signedOperand_iff]

theorem flags_setOverflow (cpu : SoftCPU64) (overflow : Bool) :
    ((cpu.setFlag CF overflow).setFlag OF overflow).flag CF = overflow ∧
      ((cpu.setFlag CF overflow).setFlag OF overflow).flag OF = overflow := by
  constructor
  · rw [flag_setFlag (by decide) (by decide), flag_setFlag (by decide) (by decide)]
    rfl
  · rw [flag_setFlag (by decide) (by decide)]
    rfl

/-- The forms that set the flags store the low half of the product and set both flags to its
overflow. -/
theorem multiply_of_ne_register (read : Emulator) (hform : form ≠ .register)
    (hdestination : form = .accumulator → factors.destination = .rax) :
    ∃ final, form.multiply prefixes factors read = .ok () final ∧
      (final.cpu.reg factors.destination).setWidth (operandWidth prefixes).bits =
        factors.left (operandWidth prefixes) * factors.right (operandWidth prefixes) ∧
      final.cpu.flag CF = form.overflow (operandWidth prefixes) factors ∧
      final.cpu.flag OF = form.overflow (operandWidth prefixes) factors := by
  have hwidth := operandWidth_ne_w8 prefixes
  have hlow : ∀ (file : Register → U64) (register : Register),
      (writeLane file register (operandWidth prefixes) prefixes
        (BitVec.ofInt 64 (form.product (operandWidth prefixes) factors)) register).setWidth
          (operandWidth prefixes).bits =
        factors.left (operandWidth prefixes) * factors.right (operandWidth prefixes) := by
    intro file register
    rw [setWidth_writeLane _ _ (isHighByte_of_ne hwidth register prefixes),
      setWidth_ofInt (operandWidth prefixes).bits_le, ofInt_product]
  have himmediate : ∃ final,
      (do
        writeGpr factors.destination (operandWidth prefixes)
          (BitVec.ofInt 64 (form.product (operandWidth prefixes) factors)) prefixes
        modifyCPU fun cpu =>
          (cpu.setFlag CF (form.overflow (operandWidth prefixes) factors)).setFlag
            OF (form.overflow (operandWidth prefixes) factors) : EmulatorProgram Unit) read =
          .ok () final ∧
      (final.cpu.reg factors.destination).setWidth (operandWidth prefixes).bits =
        factors.left (operandWidth prefixes) * factors.right (operandWidth prefixes) ∧
      final.cpu.flag CF = form.overflow (operandWidth prefixes) factors ∧
      final.cpu.flag OF = form.overflow (operandWidth prefixes) factors :=
    ⟨_, rfl, hlow _ _, flags_setOverflow _ _⟩
  cases form with
  | register => exact absurd rfl hform
  | immediate => exact himmediate
  | byteImmediate => exact himmediate
  | accumulator =>
      have haccumulator := hdestination rfl
      have hother : ∀ file : Register → U64,
          writeLane file .rdx (operandWidth prefixes) prefixes
            ((BitVec.ofInt 128 (ImulForm.accumulator.product (operandWidth prefixes) factors) >>>
              (operandWidth prefixes).bits).setWidth 64) .rax = file .rax := fun file =>
        writeLane_of_ne file _ (isHighByte_of_ne hwidth .rdx prefixes) (by decide)
      have hrun : ImulForm.accumulator.multiply prefixes factors read =
          (do
            writeGpr .rax (operandWidth prefixes)
              ((BitVec.ofInt 128 (ImulForm.accumulator.product (operandWidth prefixes)
                factors)).setWidth 64) prefixes
            writeGpr .rdx (operandWidth prefixes)
              ((BitVec.ofInt 128 (ImulForm.accumulator.product (operandWidth prefixes) factors) >>>
                (operandWidth prefixes).bits).setWidth 64) prefixes
            modifyCPU fun cpu => (cpu.setFlag CF (ImulForm.accumulator.overflow
              (operandWidth prefixes) factors)).setFlag OF (ImulForm.accumulator.overflow
                (operandWidth prefixes) factors) : EmulatorProgram Unit) read := by
        rw [ImulForm.multiply]
        simp only [writeProduct, if_neg hwidth, ImulForm.overflow]
      rw [hrun]
      refine ⟨_, rfl, ?_, flags_setOverflow _ _⟩
      rw [haccumulator]
      have hproduct := hlow read.cpu.gpr .rax
      rw [← setWidth_ofInt (by decide : 64 ≤ 128)] at hproduct
      exact (congrArg (BitVec.setWidth _) (hother _)).trans hproduct

/-- The form with two operands returns when 64 bits of the host hold the product, and leaves the
flags. -/
theorem multiply_register_eq_ok_iff :
    ImulForm.register.multiply prefixes factors read = .ok () final ↔
      Fits true 64 (ImulForm.register.product (operandWidth prefixes) factors) ∧
        writeGpr factors.destination (operandWidth prefixes)
          (BitVec.ofInt 64 (ImulForm.register.product (operandWidth prefixes) factors)) prefixes
          read = .ok () final := by
  simp only [ImulForm.multiply]
  by_cases hhost : ImulForm.register.product (operandWidth prefixes) factors < -2 ^ 63 ∨
      2 ^ 63 ≤ ImulForm.register.product (operandWidth prefixes) factors
  · rw [if_pos hhost]
    constructor
    · intro h
      cases h
    · rintro ⟨⟨hlow, hhigh⟩, _⟩
      exact absurd hhost (by simp only [not_or, not_lt, not_le]; exact ⟨hlow, hhigh⟩)
  · rw [if_neg hhost]
    simp only [not_or, not_lt, not_le] at hhost
    exact ⟨fun h => ⟨⟨hhost.1, hhost.2⟩, h⟩, fun h => h.2⟩

/-! ## The factors -/

/-- An integer read from an extended word is the integer of the lane. -/
theorem toInt_signExtend {narrow width : Width} (hle : narrow.bits ≤ width.bits) (value : U64) :
    (signExtend value narrow).toInt = ((signExtend value narrow).setWidth width.bits).toInt := by
  have hfits : Fits true width.bits (signExtend value narrow).toInt := by
    have hpow : (2 : Int) ^ (narrow.bits - 1) ≤ 2 ^ (width.bits - 1) := by
      exact_mod_cast Nat.pow_le_pow_right (by decide : 0 < 2) (Nat.sub_le_sub_right hle 1)
    have hnarrow : Fits true narrow.bits (signExtend value narrow).toInt := by
      rw [signExtend_eq, BitVec.toInt_signExtend_of_le narrow.bits_le]
      exact fits_wordValue _
    rcases hnarrow with ⟨hlow, hhigh⟩
    exact ⟨Int.le_trans (Int.neg_le_neg hpow) hlow, Int.lt_of_lt_of_le hhigh hpow⟩
  have hword : (signExtend value narrow).setWidth width.bits =
      BitVec.ofInt width.bits (signExtend value narrow).toInt := by
    rw [← setWidth_ofInt width.bits_le, BitVec.ofInt_toInt]
  rw [hword]
  exact (wordValue_ofInt width.bits_pos hfits).symm

/-- The second factor is the word of the operand width, but for a full immediate of a 16-bit
multiplication. -/
theorem rightFactor_eq (hread : form.readFactors prefixes decoded = .ok factors read)
    (hwidth : form = .immediate → operandWidth prefixes ≠ .w16) :
    form.rightFactor (operandWidth prefixes) factors.rhs =
      (factors.right (operandWidth prefixes)).toInt := by
  rcases bind_eq_ok_iff.mp hread with ⟨modrm, selected, hmodrm, hrest⟩
  rcases bind_eq_ok_iff.mp hrest with ⟨operand, addressed, hoperand, hfactors⟩
  cases form with
  | accumulator => exact signedOperand_eq _ _
  | register => exact signedOperand_eq _ _
  | immediate =>
      rcases bind_eq_ok_iff.mp hfactors with ⟨lhs, middle, hlhs, hrest⟩
      rcases bind_eq_ok_iff.mp hrest with ⟨value, last, hvalue, hreturn⟩
      cases hreturn
      have hwide : Width.w32.bits ≤ (operandWidth prefixes).bits := by
        have hfull := hwidth rfl
        have hbyte := operandWidth_ne_w8 prefixes
        revert hfull hbyte
        cases operandWidth prefixes <;> decide
      exact toInt_signExtend hwide value
  | byteImmediate =>
      rcases bind_eq_ok_iff.mp hfactors with ⟨lhs, middle, hlhs, hrest⟩
      rcases bind_eq_ok_iff.mp hrest with ⟨byte, last, hbyte, hreturn⟩
      cases hreturn
      have hwide : Width.w8.bits ≤ (operandWidth prefixes).bits := by
        cases operandWidth prefixes <;> decide
      exact toInt_signExtend hwide _

theorem product_eq (hread : form.readFactors prefixes decoded = .ok factors read)
    (hwidth : form = .immediate → operandWidth prefixes ≠ .w16) :
    form.product (operandWidth prefixes) factors =
      factors.signedProduct (operandWidth prefixes) := by
  rw [ImulForm.product, rightFactor_eq hread hwidth, signedOperand_eq]
  rfl

/-- Reading the factors leaves the machine. -/
theorem ReadsOnly.readFactors (form : ImulForm) (prefixes : Prefixes) :
    ReadsOnly (form.readFactors prefixes) := by
  refine (ReadsOnly.fetchModrm prefixes).bind fun modrm =>
    (ReadsOnly.decodeRmOperand prefixes modrm).bind fun operand => ?_
  cases form with
  | accumulator =>
      exact (ReadsOnly.readOperand _ _ _).bind fun _ =>
        (ReadsOnly.readGpr _ _ _).bind fun _ => ReadsOnly.pure _
  | register =>
      exact (ReadsOnly.readGpr _ _ _).bind fun _ =>
        (ReadsOnly.readOperand _ _ _).bind fun _ => ReadsOnly.pure _
  | immediate =>
      exact (ReadsOnly.readOperand _ _ _).bind fun _ =>
        (ReadsOnly.fetchInteger 4).bind fun _ => ReadsOnly.pure _
  | byteImmediate =>
      exact (ReadsOnly.readOperand _ _ _).bind fun _ => ReadsOnly.fetch8.bind fun _ =>
        ReadsOnly.pure _

/-- The accumulator form multiplies into the accumulator. -/
theorem destination_of_readFactors
    (hread : ImulForm.accumulator.readFactors prefixes decoded = .ok factors read) :
    factors.destination = .rax := by
  rcases bind_eq_ok_iff.mp hread with ⟨modrm, selected, hmodrm, hrest⟩
  rcases bind_eq_ok_iff.mp hrest with ⟨operand, addressed, hoperand, hfactors⟩
  rcases bind_eq_ok_iff.mp hfactors with ⟨value, middle, hvalue, hrest⟩
  rcases bind_eq_ok_iff.mp hrest with ⟨accumulator, last, haccumulator, hreturn⟩
  cases hreturn
  rfl

/-! ## Steps -/

/-- When a form stores the product and reports its overflow.  The form with two operands leaves
the carry and overflow flags it finds, and its product has to fit in 64 bits of the host; the
form with a full immediate tests the product by all 32 bits of the immediate. -/
def ImulForm.Holds (form : ImulForm) (width : Width) (factors : Factors) (cpu : SoftCPU64) :
    Prop :=
  match form with
  | accumulator => True
  | byteImmediate => True
  | register =>
      (width = .w64 → Fits true 64 (factors.signedProduct width)) ∧
        (cpu.flag CF = true ↔ ¬Fits true width.bits (factors.signedProduct width)) ∧
        (cpu.flag OF = true ↔ ¬Fits true width.bits (factors.signedProduct width))
  | immediate =>
      width = .w16 →
        (Fits true 16 ((factors.left width).toInt * factors.rhs.toInt) ↔
          Fits true 16 (factors.signedProduct width))

variable {width : Width}

/-- The product fits in 64 bits when the operands have fewer. -/
theorem fits_of_ne_w64 (hwidth : width ≠ .w64) (factors : Factors) :
    Fits true 64 (factors.signedProduct width) := by
  have hlow := BitVec.le_toInt_mul_toInt (x := factors.left width) (y := factors.right width)
  have hhigh := BitVec.toInt_mul_toInt_le (x := factors.left width) (y := factors.right width)
  have hexponent : width.bits * 2 - 2 ≤ 62 := by
    cases width with
    | w64 => exact absurd rfl hwidth
    | w32 => decide
    | w16 => decide
    | w8 => decide
  have hpow : (2 : Int) ^ (width.bits * 2 - 2) ≤ 2 ^ 62 := by
    exact_mod_cast Nat.pow_le_pow_right (by decide : 0 < 2) hexponent
  constructor
  · exact Int.le_trans (by omega) hlow
  · exact Int.lt_of_le_of_lt (Int.le_trans hhigh hpow) (by decide)

/-- A form that sets the flags reports the overflow of the product that it computes. -/
theorem multiplies_of_ne_register_iff (hform : form ≠ .register)
    (hdestination : form = .accumulator → factors.destination = .rax) :
    (∃ final, form.multiply prefixes factors read = .ok () final ∧
      Multiplies factors (operandWidth prefixes) final) ↔
      (Fits true (operandWidth prefixes).bits (form.product (operandWidth prefixes) factors) ↔
        Fits true (operandWidth prefixes).bits
          (factors.signedProduct (operandWidth prefixes))) := by
  rcases multiply_of_ne_register read hform hdestination with
    ⟨final, hrun, hlow, hcarry, hoverflow⟩
  constructor
  · rintro ⟨final', hrun', hfinal⟩
    rw [hrun] at hrun'
    cases hrun'
    have hflag := hfinal.carry
    rw [hcarry, ImulForm.overflow_iff] at hflag
    exact not_iff_not.mp hflag
  · intro hfits
    refine ⟨final, hrun, hlow, ?_, ?_⟩
    · rw [hcarry, ImulForm.overflow_iff]
      exact not_congr hfits
    · rw [hoverflow, ImulForm.overflow_iff]
      exact not_congr hfits

/-- The form with two operands needs a product that the host holds, and the flags set before. -/
theorem multiplies_register_iff
    (hproduct : ImulForm.register.product (operandWidth prefixes) factors =
      factors.signedProduct (operandWidth prefixes)) :
    (∃ final, ImulForm.register.multiply prefixes factors read = .ok () final ∧
      Multiplies factors (operandWidth prefixes) final) ↔
      ImulForm.register.Holds (operandWidth prefixes) factors read.cpu := by
  constructor
  · rintro ⟨final, hrun, hfinal⟩
    rcases multiply_register_eq_ok_iff.mp hrun with ⟨hfits, hwrite⟩
    cases hwrite
    rw [hproduct] at hfits
    exact ⟨fun _ => hfits, hfinal.carry, hfinal.overflow⟩
  · rintro ⟨hhost, hcarry, hoverflow⟩
    have hfits : Fits true 64 (ImulForm.register.product (operandWidth prefixes) factors) := by
      rw [hproduct]
      by_cases hwidth : operandWidth prefixes = .w64
      · exact hhost hwidth
      · exact fits_of_ne_w64 hwidth factors
    refine ⟨_, multiply_register_eq_ok_iff.mpr ⟨hfits, rfl⟩, ?_, hcarry, hoverflow⟩
    have hhigh := isHighByte_of_ne (operandWidth_ne_w8 prefixes) factors.destination prefixes
    refine (setWidth_writeLane _ _ hhigh).trans ?_
    rw [setWidth_ofInt (operandWidth prefixes).bits_le, ofInt_product]

/-- When a form stores the product of its factors and reports its overflow. -/
theorem multiplies_iff (hread : form.readFactors prefixes decoded = .ok factors read)
    (hrflags : read.cpu.rflags = emulator.cpu.rflags) :
    (∃ final, form.multiply prefixes factors read = .ok () final ∧
      Multiplies factors (operandWidth prefixes) final) ↔
      form.Holds (operandWidth prefixes) factors emulator.cpu := by
  have hflag : ∀ mask, read.cpu.flag mask = emulator.cpu.flag mask := fun mask => by
    rw [SoftCPU64.flag, hrflags, SoftCPU64.flag]
  cases form with
  | accumulator =>
      rw [multiplies_of_ne_register_iff (by decide) fun _ => destination_of_readFactors hread,
        product_eq hread (fun h => by cases h)]
      simp only [ImulForm.Holds]
  | register =>
      rw [multiplies_register_iff (product_eq hread (fun h => by cases h)), ImulForm.Holds,
        ImulForm.Holds, hflag, hflag]
  | immediate =>
      refine (multiplies_of_ne_register_iff (by decide) (fun h => by cases h)).trans ?_
      rw [ImulForm.Holds]
      by_cases hwidth : operandWidth prefixes = .w16
      · rw [ImulForm.product, signedOperand_eq, hwidth]
        exact ⟨fun h _ => h, fun h => h rfl⟩
      · rw [product_eq hread fun _ => hwidth]
        exact ⟨fun _ h => absurd h hwidth, fun _ => Iff.rfl⟩
  | byteImmediate =>
      refine (multiplies_of_ne_register_iff (by decide) (fun h => by cases h)).trans ?_
      rw [product_eq hread (fun h => by cases h)]
      simp only [ImulForm.Holds]

/-- When a step of a form stores the product of its factors and reports its overflow. -/
theorem step_imul_iff (host : Host)
    (hdecode : decodeInstruction emulator = .ok (prefixes, form.opcode) decoded)
    (hselected : form.Selected prefixes decoded)
    (hread : form.readFactors prefixes decoded = .ok factors read) :
    (∃ final, step host emulator = .ok () final ∧
      Multiplies factors (operandWidth prefixes) final) ↔
      form.Holds (operandWidth prefixes) factors emulator.cpu := by
  have hrflags : read.cpu.rflags = emulator.cpu.rflags := by
    rcases decodeInstruction_eq_ok hdecode with ⟨pc, rfl⟩
    exact ((ReadsOnly.readFactors form prefixes).of_ok hread).rflags
  rw [← multiplies_iff hread hrflags, step_of_decodedInstruction hdecode]
  have hexecute := execute_imul host hselected hread
  constructor
  · rintro ⟨final, hstep, hfinal⟩
    rcases bind_eq_ok_iff.mp hstep with ⟨_, last, hrun, hfinish⟩
    cases hfinish
    exact ⟨last, hexecute.symm.trans hrun, hfinal.low, hfinal.carry, hfinal.overflow⟩
  · rintro ⟨last, hrun, hlast⟩
    refine ⟨_, bind_of_ok (hexecute.trans hrun), ?_⟩
    exact ⟨hlast.low, hlast.carry, hlast.overflow⟩

end Forms

section Examples

/-- A program with factors in `%rax` and `%rcx`. -/
def multiplying (code : List U8) (lhs rhs : U64) : Emulator :=
  let emulator := startingAt code
  emulator.withCPU ((emulator.cpu.setReg .rax lhs).setReg .rcx rhs)

/-- `imul %ecx, %eax` of small factors. -/
theorem step_imul_small :
    ∃ final, step Emulator.quietHost (multiplying [0x0f, 0xaf, 0xc1] 5 3) = .ok () final ∧
      Multiplies ⟨.rax, 5, 3⟩ .w32 final := by
  let decoded := finalState (decodeInstruction (multiplying [0x0f, 0xaf, 0xc1] 5 3))
  have hdecode : decodeInstruction (multiplying [0x0f, 0xaf, 0xc1] 5 3) =
      .ok ({}, ImulForm.register.opcode) decoded :=
    eq_ok_of_returned (by decide)
  have hread : ImulForm.register.readFactors {} decoded =
      .ok ⟨.rax, 5, 3⟩ (finalState (ImulForm.register.readFactors {} decoded)) :=
    eq_ok_of_returned (by decide)
  have hfits : Fits true 32 ((⟨.rax, 5, 3⟩ : Factors).signedProduct .w32) :=
    ⟨by decide, by decide⟩
  refine (step_imul_iff Emulator.quietHost hdecode nofun hread).mpr ⟨nofun, ?_, ?_⟩
  · exact ⟨fun h => absurd h (by decide), fun h => absurd hfits h⟩
  · exact ⟨fun h => absurd h (by decide), fun h => absurd hfits h⟩

/-- `imul %ecx, %eax` of factors whose product has 33 bits leaves the carry flag clear. -/
theorem step_imul_register :
    ∃ final, step Emulator.quietHost (multiplying [0x0f, 0xaf, 0xc1] 0x40000000 4) =
        .ok () final ∧
      final.cpu.flag CF = false ∧
      ¬Fits true 32 ((⟨.rax, 0x40000000, 4⟩ : Factors).signedProduct .w32) := by
  have hrun : returned (step Emulator.quietHost
        (multiplying [0x0f, 0xaf, 0xc1] 0x40000000 4)) = some () ∧
      (finalState (step Emulator.quietHost
        (multiplying [0x0f, 0xaf, 0xc1] 0x40000000 4))).cpu.flag CF = false := by
    decide
  exact ⟨_, eq_ok_of_returned hrun.1, hrun.2, fun h => absurd h.2 (by decide)⟩

end Examples

end SoftCPU64

end LUE
