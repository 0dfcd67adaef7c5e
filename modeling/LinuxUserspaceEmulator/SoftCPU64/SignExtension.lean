import LinuxUserspaceEmulator.SoftCPU64.Division

/-!
# Sign extension of the accumulator

Opcodes `98` and `99` extend the accumulator within `rAX` and into `rDX`.  They look at REX.W
only: with an operand-size prefix they extend as for 32 bits, so that `98` writes the upper half
of the register and `99` takes the sign of `EAX` for that of `AX`.

Main results:

- Theorem `step_cqo`: what `99` leaves in `rDX`.
- Theorem `extendThenDivide_iff`: when `99` and `IDIV` compute the division of C.
- Theorem `step_cdqe_iff`: when `98` extends the accumulator as a write of its width does.
- Theorem `signExtension_iff`: both together.
-/

namespace LUE

open StateExcept TruncatedDivision

namespace SoftCPU64

/-! ## Extension into `rDX` -/

section Extend

variable {emulator decoded : Emulator} {prefixes : Prefixes}

/-- The bit of the accumulator that `99` takes for its sign. -/
def extensionSign (prefixes : Prefixes) (cpu : SoftCPU64) : Bool :=
  (cpu.reg .rax).getLsbD (if prefixes.rexW then 63 else 31)

/-- All bits of a word are its sign. -/
def signWord (w : Nat) (sign : Bool) : BitVec w :=
  if sign then BitVec.allOnes w else 0

theorem setWidth_signWord {v w : Nat} (hle : w ≤ v) (sign : Bool) :
    (signWord v sign).setWidth w = signWord w sign := by
  cases sign with
  | true =>
      apply BitVec.eq_of_getLsbD_eq
      intro i hi
      have hlt : i < v := Nat.lt_of_lt_of_le hi hle
      simp [signWord, hi, hlt]
  | false => exact BitVec.setWidth_zero w v

/-- What `99` leaves in the two registers. -/
theorem executeCqo_eq_ok (prefixes : Prefixes) (emulator : Emulator) :
    ∃ final, executeCqo prefixes emulator = .ok () final ∧
      final.cpu.reg .rax = emulator.cpu.reg .rax ∧
      (final.cpu.reg .rdx).setWidth (operandWidth prefixes).bits =
        signWord _ (extensionSign prefixes emulator.cpu) := by
  by_cases hrex : prefixes.rexW = true
  · obtain ⟨loaded, hload, hkept⟩ := readGpr_eq_ok .rax .w64 prefixes emulator
    have hvalue : readLane emulator.cpu.gpr .rax .w64 prefixes = emulator.cpu.reg .rax := by
      rw [readLane_rax]
      exact BitVec.and_allOnes
    rw [hvalue] at hload
    rw [executeCqo, if_pos hrex, bind_of_ok hload, modifyCPU_apply]
    refine ⟨_, rfl, congrFun hkept.gpr .rax, ?_⟩
    have hsign : extensionSign prefixes emulator.cpu = (emulator.cpu.reg .rax).msb := by
      rw [extensionSign, if_pos hrex, BitVec.msb_eq_getLsbD_last]
    rw [hsign]
    exact setWidth_signWord (operandWidth prefixes).bits_le _
  · obtain ⟨loaded, hload, hkept⟩ := readGpr_eq_ok .rax .w32 prefixes emulator
    have hnarrow : (operandWidth prefixes).bits ≤ 32 := by
      rw [operandWidth, if_neg hrex]
      split <;> decide
    have hsign : (readLane emulator.cpu.gpr .rax .w32 prefixes).getLsbD 31 =
        extensionSign prefixes emulator.cpu := by
      rw [extensionSign, if_neg hrex, readLane_rax, BitVec.getLsbD_and,
        AgreeAt.getLsbD_maskForWidth]
      exact Bool.and_true _
    have hhigh := isHighByte_of_ne (by decide : Width.w32 ≠ .w8) .rdx prefixes
    rw [executeCqo, if_neg hrex, bind_of_ok hload]
    simp only [hsign]
    refine ⟨_, rfl, ?_, ?_⟩
    · have hother := writeLane_of_ne loaded.cpu.gpr
        (if extensionSign prefixes emulator.cpu then 0xffffffff else 0) hhigh
        (by decide : Register.rax ≠ .rdx)
      exact hother.trans (congrFun hkept.gpr .rax)
    · have hwritten : ∀ value : U64,
          (writeLane loaded.cpu.gpr .rdx .w32 prefixes value .rdx).setWidth 32 =
            value.setWidth 32 := fun value => setWidth_writeLane _ value hhigh
      have hvalue : ∀ sign : Bool, (if sign then (0xffffffff : U64) else 0).setWidth 32 =
          signWord 32 sign := by decide
      rw [← setWidth_signWord hnarrow, ← hvalue, ← hwritten,
        BitVec.setWidth_setWidth_of_le _ hnarrow]
      rfl

theorem step_cqo (host : Host)
    (hdecode : decodeOpcode emulator = .ok (prefixes, 0x99) decoded) :
    ∃ middle, step host emulator = .ok () middle ∧
      middle.cpu.reg .rax = emulator.cpu.reg .rax ∧
      (middle.cpu.reg .rdx).setWidth (operandWidth prefixes).bits =
        signWord _ (extensionSign prefixes emulator.cpu) := by
  have hrun : step host emulator = _ := step_of_decoded hdecode
  obtain ⟨pc, rfl⟩ := decodeOpcode_eq_ok hdecode
  rcases executeCqo_eq_ok prefixes (afterDecoding emulator pc) with ⟨final, hfinal, hrax, hrdx⟩
  have hexecute : execute host prefixes 0x99 = executeCqo prefixes := rfl
  rw [hexecute, bind_of_ok hfinal, modifyCPU_apply] at hrun
  exact ⟨_, hrun, hrax, hrdx⟩

/-- The dividend that `99` prepares: the accumulator below its supposed sign. -/
theorem dividend_of_signWord {cpu : SoftCPU64} {width : Width} {sign : Bool}
    (hwidth : width ≠ .w8) (hrdx : (cpu.reg .rdx).setWidth width.bits = signWord _ sign) :
    wordValue true (dividendWord cpu width) =
      (if sign then -2 ^ width.bits else 0) +
        (((cpu.reg .rax).setWidth width.bits).toNat : Int) := by
  rw [dividendWord_of_ne hwidth, wordValue_append width.bits_pos, hrdx]
  cases sign with
  | true =>
      have hminus : wordValue true (signWord width.bits true) = -1 := by
        cases width <;> decide
      rw [hminus, Int.neg_mul, Int.one_mul]
      rfl
  | false =>
      have hzero : wordValue true (signWord width.bits false) = 0 := BitVec.toInt_zero
      rw [hzero, Int.zero_mul]
      rfl

/-- It is the accumulator exactly when the supposed sign is its sign. -/
theorem signed_eq_iff {w : Nat} (word : BitVec w) (sign : Bool) :
    (if sign then -2 ^ w else 0) + (word.toNat : Int) = word.toInt ↔ sign = word.msb := by
  have hpos : (0 : Int) < ((2 ^ w : Nat) : Int) := Int.natCast_pos.mpr (Nat.two_pow_pos w)
  have hcast : ((2 ^ w : Nat) : Int) = 2 ^ w := Int.natCast_pow 2 w
  rw [hcast] at hpos
  rw [BitVec.toInt_eq_msb_cond, hcast]
  cases sign <;> cases word.msb <;> simp <;> omega

/-- The supposed sign is the sign of the accumulator, except that `99` takes bit 31 for a word
of 16 bits. -/
theorem extensionSign_eq_iff (prefixes : Prefixes) (cpu : SoftCPU64) :
    extensionSign prefixes cpu = ((cpu.reg .rax).setWidth (operandWidth prefixes).bits).msb ↔
      operandWidth prefixes ≠ .w16 ∨
        (cpu.reg .rax).getLsbD 31 = (cpu.reg .rax).getLsbD 15 := by
  rw [BitVec.msb_eq_getLsbD_last, BitVec.getLsbD_setWidth]
  unfold extensionSign operandWidth
  by_cases hrex : prefixes.rexW = true
  · simp [hrex, Width.bits]
  · by_cases hshort : prefixes.operand16 = true
    · simp [hrex, hshort, Width.bits]
    · simp [hrex, hshort, Width.bits]

end Extend

/-! ## Extension and division -/

/-- `99` followed by a division `IDIV` of the same operand width, whose divisor can be read and
whose quotient the words of C hold. -/
structure ExtendThenDivide (host : Host) (start : Emulator) where
  extension : Prefixes
  extending : Emulator
  decodesExtension : decodeOpcode start = .ok (extension, 0x99) extending
  prefixes : Prefixes
  decoded : Emulator
  decodesDivision :
    decodeOpcode (finalState (step host start)) = .ok (prefixes, 0xf7) decoded
  sameWidth : operandWidth prefixes = operandWidth extension
  modrm : ModRM
  selected : Emulator
  fetchesModrm : fetchModrm prefixes decoded = .ok modrm selected
  dividesSigned : modrm.operation = 7
  operand : Operand
  addressed : Emulator
  decodesOperand : decodeRmOperand prefixes modrm selected = .ok operand addressed
  value : U64
  read : Emulator
  readsDivisor : readOperand operand (operandWidth prefixes) prefixes addressed = .ok value read
  divisor_ne_zero : (value.setWidth (operandWidth prefixes).bits).toInt ≠ 0
  quotient_fits :
    ¬(((start.cpu.reg .rax).setWidth (operandWidth prefixes).bits).toInt =
        -2 ^ ((operandWidth prefixes).bits - 1) ∧
      (value.setWidth (operandWidth prefixes).bits).toInt = -1)

namespace ExtendThenDivide

variable {host : Host} {start : Emulator} (pair : ExtendThenDivide host start)

/-- The operand width of both instructions. -/
def width : Width :=
  operandWidth pair.prefixes

/-- The accumulator as a signed word. -/
def dividend : Int :=
  ((start.cpu.reg .rax).setWidth pair.width.bits).toInt

/-- The divisor as a signed word. -/
def divisor : Int :=
  (pair.value.setWidth pair.width.bits).toInt

/-- The two instructions compute the division of C. -/
def DividesAsC : Prop :=
  ∃ final, (step host >>= fun _ => step host) start = .ok () final ∧
    (quotientWord final.cpu pair.width).toInt = pair.dividend.tdiv pair.divisor ∧
    (remainderWord final.cpu pair.width).toInt =
      pair.dividend - pair.divisor * pair.dividend.tdiv pair.divisor

end ExtendThenDivide

/-- `99` and `IDIV` compute the division of C except on a word of 16 bits whose sign is not that
of `EAX`. -/
theorem extendThenDivide_iff {host : Host} {start : Emulator}
    (pair : ExtendThenDivide host start) :
    pair.DividesAsC ↔
      pair.width ≠ .w16 ∨
        (start.cpu.reg .rax).getLsbD 31 = (start.cpu.reg .rax).getLsbD 15 := by
  rcases step_cqo host pair.decodesExtension with ⟨middle, hmiddle, hrax, hrdx⟩
  have hdecode := pair.decodesDivision
  rw [hmiddle, finalState_ok] at hdecode
  rw [← pair.sameWidth] at hrdx
  have hwidth : divisionWidth 0xf7 pair.prefixes = pair.width := if_neg (by decide)
  have hread := pair.readsDivisor
  have hprepared : wordValue true (dividendWord middle.cpu pair.width) =
      (if extensionSign pair.extension start.cpu then -2 ^ pair.width.bits else 0) +
        (((start.cpu.reg .rax).setWidth pair.width.bits).toNat : Int) := by
    rw [← hrax]
    exact dividend_of_signWord (operandWidth_ne_w8 _) hrdx
  have hsame : wordValue true (dividendWord middle.cpu pair.width) = pair.dividend ↔
      pair.width ≠ .w16 ∨
        (start.cpu.reg .rax).getLsbD 31 = (start.cpu.reg .rax).getLsbD 15 := by
    rw [hprepared]
    have hsign := extensionSign_eq_iff pair.extension start.cpu
    rw [← pair.sameWidth] at hsign
    exact (signed_eq_iff _ _).trans hsign
  have hhost : ¬(wordValue true (dividendWord middle.cpu pair.width) = -2 ^ 127 ∧
      pair.divisor = -1) := by
    rintro ⟨hmost, -⟩
    have hle : (2 : Int) ^ pair.width.bits ≤ 2 ^ 64 := by
      cases pair.width <;> decide
    rw [hprepared] at hmost
    split at hmost <;> omega
  have hdivides : DividesTo true pair.width pair.divisor middle (step host middle) := by
    have hstep := dividesTo_step_idiv host hdecode (Or.inr rfl) pair.fetchesModrm
      pair.dividesSigned pair.decodesOperand (by rw [hwidth]; exact hread)
      (by rw [hwidth]; exact hhost)
    rw [hwidth] at hstep
    exact hstep
  rw [← hsame]
  constructor
  · rintro ⟨final, hrun, hquotient, hremainder⟩
    rw [bind_of_ok hmiddle] at hrun
    by_cases hexists : HasQuotient true pair.width.bits
        (wordValue true (dividendWord middle.cpu pair.width)) pair.divisor
    · rcases hdivides.divides hexists with ⟨after, hafter, hlow, hhigh⟩
      rw [hafter] at hrun
      cases hrun
      have hlaw := Int.tdiv_mul_add_tmod (wordValue true (dividendWord middle.cpu pair.width))
        pair.divisor
      have hquotient' : (wordValue true (dividendWord middle.cpu pair.width)).tdiv pair.divisor =
          pair.dividend.tdiv pair.divisor := hlow.symm.trans hquotient
      have hremainder' : (wordValue true (dividendWord middle.cpu pair.width)).tmod pair.divisor =
          pair.dividend - pair.divisor * pair.dividend.tdiv pair.divisor :=
        hhigh.symm.trans hremainder
      rw [hquotient', hremainder', Int.mul_comm] at hlaw
      omega
    · rcases hdivides.faults hexists with ⟨what, after, hafter, -⟩
      rw [hafter] at hrun
      cases hrun
  · intro hdividend
    have hfits : Fits true pair.width.bits (pair.dividend.tdiv pair.divisor) :=
      fits_tdiv (fits_wordValue ((start.cpu.reg .rax).setWidth pair.width.bits))
        pair.divisor_ne_zero pair.quotient_fits
    have hexists : HasQuotient true pair.width.bits
        (wordValue true (dividendWord middle.cpu pair.width)) pair.divisor := by
      rw [hdividend]
      exact ⟨pair.divisor_ne_zero, hfits⟩
    rcases hdivides.divides hexists with ⟨after, hafter, hlow, hhigh⟩
    rw [hdividend] at hlow hhigh
    refine ⟨after, ?_, hlow, hhigh.trans (Int.tmod_def _ _)⟩
    rw [bind_of_ok hmiddle]
    exact hafter

/-! ## Extension within `rAX` -/

/-- The register after a write of the lower half of the accumulator, sign-extended. -/
def extendedAccumulator (width : Width) (cpu : SoftCPU64) : U64 :=
  writeLane cpu.gpr .rax width {}
    ((((cpu.reg .rax).setWidth (width.bits / 2)).signExtend width.bits).setWidth 64) .rax

/-- The register that `98` leaves. -/
def cdqeResult (prefixes : Prefixes) (cpu : SoftCPU64) : U64 :=
  if prefixes.rexW then ((cpu.reg .rax).setWidth 32).signExtend 64
  else (((cpu.reg .rax).setWidth 16).signExtend 32).setWidth 64

/-- The bits of a short word that was extended twice. -/
theorem getLsbD_signExtend_setWidth (value : U64) {v w : Nat} (hle : v ≤ w) (hpos : 0 < v)
    (hw : w ≤ 64) {i : Nat} (hi : i < 64) :
    (((value.setWidth v).signExtend w).setWidth 64).getLsbD i =
      if i < v then value.getLsbD i else if i < w then value.getLsbD (v - 1) else false := by
  rw [BitVec.getLsbD_setWidth, BitVec.getLsbD_signExtend, BitVec.msb_eq_getLsbD_last,
    BitVec.getLsbD_setWidth, BitVec.getLsbD_setWidth]
  by_cases hlow : i < v
  · have hmid : i < w := Nat.lt_of_lt_of_le hlow hle
    simp [hi, hlow, hmid]
  · have hlast : v - 1 < v := Nat.sub_lt hpos Nat.one_pos
    by_cases hmid : i < w
    · have hlt : v - 1 < 64 := by omega
      simp [hi, hlow, hmid, hlast]
    · simp [hlow, hmid]

theorem setWidth_signExtend {u v w : Nat} (value : BitVec v) (hle : w ≤ u) :
    (value.signExtend u).setWidth w = value.signExtend w := by
  apply BitVec.eq_of_getLsbD_eq
  intro i hi
  have hlt : i < u := Nat.lt_of_lt_of_le hi hle
  rw [BitVec.getLsbD_setWidth, BitVec.getLsbD_signExtend, BitVec.getLsbD_signExtend]
  simp [hi, hlt]

/-- The sign extension of a lane of the accumulator. -/
theorem signExtend_readLane (cpu : SoftCPU64) (width : Width) (prefixes : Prefixes) :
    signExtend (readLane cpu.gpr .rax width prefixes) width =
      ((cpu.reg .rax).setWidth width.bits).signExtend 64 := by
  rw [readLane_rax, signExtend_eq, setWidth_and_maskForWidth]
  rfl

theorem executeCdqe_eq_ok (prefixes : Prefixes) (emulator : Emulator) :
    ∃ final, executeCdqe prefixes emulator = .ok () final ∧
      final.cpu.reg .rax = cdqeResult prefixes emulator.cpu := by
  by_cases hrex : prefixes.rexW = true
  · obtain ⟨loaded, hload, -⟩ := readGpr_eq_ok .rax .w32 prefixes emulator
    rw [executeCdqe, if_pos hrex, bind_of_ok hload, cdqeResult, if_pos hrex, signExtend_readLane]
    exact ⟨_, rfl, Function.update_self Register.rax _ loaded.cpu.gpr⟩
  · obtain ⟨loaded, hload, -⟩ := readGpr_eq_ok .rax .w16 prefixes emulator
    rw [executeCdqe, if_neg hrex, bind_of_ok hload, cdqeResult, if_neg hrex,
      signExtend_readLane]
    refine ⟨_, rfl, ?_⟩
    have hwritten : ∀ value, writeLane loaded.cpu.gpr .rax .w32 prefixes value .rax =
        value &&& maskForWidth .w32 := by
      intro value
      simp [writeLane]
    refine (hwritten _).trans ?_
    rw [and_maskForWidth_eq_setWidth]
    exact congrArg (BitVec.setWidth 64) (setWidth_signExtend _ (by decide))

/-- A step of `98`. -/
theorem step_cdqe {host : Host} {emulator decoded : Emulator} {prefixes : Prefixes}
    (hdecode : decodeOpcode emulator = .ok (prefixes, 0x98) decoded) :
    ∃ final, step host emulator = .ok () final ∧
      final.cpu.reg .rax = cdqeResult prefixes emulator.cpu := by
  have hrun : step host emulator = _ := step_of_decoded hdecode
  obtain ⟨pc, rfl⟩ := decodeOpcode_eq_ok hdecode
  rcases executeCdqe_eq_ok prefixes (afterDecoding emulator pc) with ⟨final, hfinal, hrax⟩
  have hexecute : execute host prefixes 0x98 = executeCdqe prefixes := rfl
  rw [hexecute, bind_of_ok hfinal, modifyCPU_apply] at hrun
  exact ⟨_, hrun, hrax⟩

/-- Under the width of 16 bits the whole register must be the extension of its low byte. -/
theorem extended_eq_iff (value : U64) :
    ((value.setWidth 16).signExtend 32).setWidth 64 =
        value &&& ~~~maskForWidth .w16 |||
          (((value.setWidth 8).signExtend 16).setWidth 64 &&& maskForWidth .w16) ↔
      value = ((value.setWidth 8).signExtend 32).setWidth 64 := by
  have hleft : ∀ i < 64, (((value.setWidth 16).signExtend 32).setWidth 64).getLsbD i =
      if i < 16 then value.getLsbD i else if i < 32 then value.getLsbD 15 else false :=
    fun i hi => getLsbD_signExtend_setWidth value (by decide) (by decide) (by decide) hi
  have hbyte : ∀ i < 64, (((value.setWidth 8).signExtend 32).setWidth 64).getLsbD i =
      if i < 8 then value.getLsbD i else if i < 32 then value.getLsbD 7 else false :=
    fun i hi => getLsbD_signExtend_setWidth value (by decide) (by decide) (by decide) hi
  have hright : ∀ i < 64, (value &&& ~~~maskForWidth .w16 |||
      (((value.setWidth 8).signExtend 16).setWidth 64 &&& maskForWidth .w16)).getLsbD i =
        if i < 8 then value.getLsbD i else if i < 16 then value.getLsbD 7
        else value.getLsbD i := by
    intro i hi
    rw [BitVec.getLsbD_or, BitVec.getLsbD_and, BitVec.getLsbD_not, BitVec.getLsbD_and,
      AgreeAt.getLsbD_maskForWidth,
      getLsbD_signExtend_setWidth value (by decide) (by decide) (by decide) hi]
    by_cases hlow : i < 8
    · have hmid : i < 16 := by omega
      simp [Width.bits, hlow, hmid, hi]
    · by_cases hmid : i < 16
      · simp [Width.bits, hlow, hmid, hi]
      · simp [Width.bits, hlow, hmid, hi]
  constructor
  · intro h
    have hbit : ∀ i < 64, _ := fun i (hi : i < 64) =>
      (hleft i hi).symm.trans ((congrArg (fun word => word.getLsbD i) h).trans (hright i hi))
    have hsign := hbit 15 (by decide)
    apply BitVec.eq_of_getLsbD_eq
    intro i hi
    have hhere := hbit i hi
    rw [hbyte i hi]
    by_cases hlow : i < 8
    · simp [hlow]
    · by_cases hmid : i < 16
      · have hwide : i < 32 := by omega
        simpa [hlow, hmid, hwide] using hhere
      · by_cases hwide : i < 32
        · simp only [hlow, hmid, hwide, if_true, if_false] at hhere ⊢
          exact hhere.symm.trans hsign
        · simpa [hlow, hmid, hwide] using hhere.symm
  · intro h
    have hbit : ∀ i < 64, _ := fun i (hi : i < 64) =>
      (congrArg (fun word => word.getLsbD i) h).trans (hbyte i hi)
    have hsign := hbit 15 (by decide)
    apply BitVec.eq_of_getLsbD_eq
    intro i hi
    have hhere := hbit i hi
    rw [hleft i hi, hright i hi]
    by_cases hlow : i < 8
    · have hmid : i < 16 := by omega
      simp [hlow, hmid]
    · by_cases hmid : i < 16
      · have hwide : i < 32 := by omega
        simpa [hlow, hmid, hwide] using hhere
      · by_cases hwide : i < 32
        · simp only [hlow, hmid, hwide, if_true, if_false] at hhere ⊢
          exact hsign.trans hhere.symm
        · simpa [hlow, hmid, hwide] using hhere.symm

/-- It is the write of the operand width, except that a word of 16 bits is extended to 32. -/
theorem cdqeResult_eq_iff (prefixes : Prefixes) (cpu : SoftCPU64) :
    cdqeResult prefixes cpu = extendedAccumulator (operandWidth prefixes) cpu ↔
      operandWidth prefixes ≠ .w16 ∨
        cpu.reg .rax = (((cpu.reg .rax).setWidth 8).signExtend 32).setWidth 64 := by
  by_cases hrex : prefixes.rexW = true
  · have hwidth : operandWidth prefixes = .w64 := if_pos hrex
    have hwritten : ∀ value, writeLane cpu.gpr .rax .w64 {} value .rax =
        value &&& maskForWidth .w64 := by
      intro value
      simp [writeLane]
    rw [cdqeResult, if_pos hrex, hwidth, extendedAccumulator, hwritten,
      and_maskForWidth_eq_setWidth]
    refine iff_of_true ?_ (Or.inl (by decide))
    simp [Width.bits]
  · by_cases hshort : prefixes.operand16 = true
    · have hwidth : operandWidth prefixes = .w16 := by
        rw [operandWidth, if_neg hrex, if_pos hshort]
      have hwritten : ∀ value, writeLane cpu.gpr .rax .w16 {} value .rax =
          cpu.reg .rax &&& ~~~maskForWidth .w16 ||| (value &&& maskForWidth .w16) := by
        intro value
        simp [writeLane]
        rfl
      rw [cdqeResult, if_neg hrex, hwidth, extendedAccumulator, hwritten]
      refine (extended_eq_iff (cpu.reg .rax)).trans ?_
      simp
    · have hwidth : operandWidth prefixes = .w32 := by
        rw [operandWidth, if_neg hrex, if_neg hshort]
      have hwritten : ∀ value, writeLane cpu.gpr .rax .w32 {} value .rax =
          value &&& maskForWidth .w32 := by
        intro value
        simp [writeLane]
      rw [cdqeResult, if_neg hrex, hwidth, extendedAccumulator, hwritten,
        and_maskForWidth_eq_setWidth]
      refine iff_of_true ?_ (Or.inl (by decide))
      simp [Width.bits]

/-- `98` leaves the write of the operand width exactly when the width is not 16 bits or the
register was that already. -/
theorem step_cdqe_iff {host : Host} {emulator decoded : Emulator} {prefixes : Prefixes}
    (hdecode : decodeOpcode emulator = .ok (prefixes, 0x98) decoded) :
    (∃ final, step host emulator = .ok () final ∧
        final.cpu.reg .rax = extendedAccumulator (operandWidth prefixes) emulator.cpu) ↔
      operandWidth prefixes ≠ .w16 ∨
        emulator.cpu.reg .rax =
          (((emulator.cpu.reg .rax).setWidth 8).signExtend 32).setWidth 64 := by
  rcases step_cdqe hdecode with ⟨final, hrun, hrax⟩
  rw [← cdqeResult_eq_iff, ← hrax]
  constructor
  · rintro ⟨final', hrun', hrax'⟩
    rw [hrun] at hrun'
    cases hrun'
    exact hrax'
  · intro hextended
    exact ⟨final, hrun, hextended⟩

/-- When the two sign extensions of the accumulator do what their operand width says. -/
theorem signExtension_iff (host : Host) (emulator : Emulator) :
    (∀ pair : ExtendThenDivide host emulator, pair.DividesAsC ↔
      pair.width ≠ .w16 ∨
        (emulator.cpu.reg .rax).getLsbD 31 = (emulator.cpu.reg .rax).getLsbD 15) ∧
    (∀ prefixes decoded, decodeOpcode emulator = .ok (prefixes, 0x98) decoded →
      ((∃ final, step host emulator = .ok () final ∧
          final.cpu.reg .rax = extendedAccumulator (operandWidth prefixes) emulator.cpu) ↔
        operandWidth prefixes ≠ .w16 ∨
          emulator.cpu.reg .rax =
            (((emulator.cpu.reg .rax).setWidth 8).signExtend 32).setWidth 64)) :=
  ⟨fun pair => extendThenDivide_iff pair, fun _ _ hdecode => step_cdqe_iff hdecode⟩

section Examples

/-- `cltd; idiv %ebx`, minus seven by two. -/
def cltdIdiv : Emulator :=
  let start := startingAt [0x99, 0xf7, 0xfb]
  start.withCPU ((start.cpu.setReg .rax 0xfffffff9).setReg .rbx 2)

/-- The division of minus seven by two, with what its steps decode and read. -/
def cltdIdivPair : ExtendThenDivide Emulator.quietHost cltdIdiv where
  extension := {}
  extending := finalState (decodeOpcode cltdIdiv)
  decodesExtension := eq_ok_of_returned (by decide)
  prefixes := {}
  decoded := finalState (decodeOpcode (finalState (step Emulator.quietHost cltdIdiv)))
  decodesDivision := eq_ok_of_returned (by decide)
  sameWidth := rfl
  modrm := { byte := 0xfb, mod := 3, reg := .rdi, rm := .rbx }
  selected := finalState (fetchModrm {}
    (finalState (decodeOpcode (finalState (step Emulator.quietHost cltdIdiv)))))
  fetchesModrm := eq_ok_of_returned (by decide)
  dividesSigned := by decide
  operand := .register .rbx
  addressed := finalState (fetchModrm {}
    (finalState (decodeOpcode (finalState (step Emulator.quietHost cltdIdiv)))))
  decodesOperand := rfl
  value := 2
  read := finalState (readOperand (.register .rbx) .w32 {} (finalState (fetchModrm {}
    (finalState (decodeOpcode (finalState (step Emulator.quietHost cltdIdiv)))))))
  readsDivisor := eq_ok_of_returned (by decide)
  divisor_ne_zero := by decide
  quotient_fits := by decide

/-- Minus seven by two is divided as in C. -/
theorem signExtension_cltdIdiv : cltdIdivPair.DividesAsC :=
  ((signExtension_iff Emulator.quietHost cltdIdiv).1 cltdIdivPair).mpr (Or.inl (by decide))

/-- `cwtd; idiv %bx`, one by one, with bit 31 of the accumulator set. -/
def cwtdIdiv : Emulator :=
  let start := startingAt [0x66, 0x99, 0x66, 0xf7, 0xfb]
  start.withCPU ((start.cpu.setReg .rax 0x80000001).setReg .rbx 1)

/-- One by one raises. -/
theorem cwtdIdiv_raises :
    ((cwtdIdiv.cpu.reg .rax).setWidth 16).toInt = 1 ∧
      ((cwtdIdiv.cpu.reg .rbx).setWidth 16).toInt = 1 ∧
      raised ((step Emulator.quietHost >>= fun _ => step Emulator.quietHost) cwtdIdiv) =
        some (.emulatorError "guest divide overflow at 0x1002") := by
  refine ⟨by decide, by decide, by decide⟩

end Examples

end SoftCPU64

end LUE
