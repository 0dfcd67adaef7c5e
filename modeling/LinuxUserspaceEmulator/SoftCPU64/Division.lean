import LinuxUserspaceEmulator.Library.TruncatedDivision
import LinuxUserspaceEmulator.SoftCPU64.AluEncodings
import LinuxUserspaceEmulator.SoftCPU64.Reading

/-!
# Division

`DIV` and `IDIV` divide the double word in `rDX` and `rAX`, or the word in `AX` by a byte.
They check the divisor and the range of the quotient before they write a register.  Only the
most negative dividend of 128 bits has no quotient by minus one in the arithmetic of the host,
which divides before it checks.

Main results:

- Theorems `dividesTo_executeDiv` and `dividesTo_executeIdiv`: a division faults and changes
  nothing, or writes the truncated quotient and the remainder.
- Theorem `step_divide_iff`: when a division step satisfies the division law or faults cleanly.
-/

namespace LUE

open StateExcept TruncatedDivision

namespace SoftCPU64

/-! ## The registers of a division -/

/-- The dividend: `AX` for a byte, the pair of `rDX` and `rAX` otherwise. -/
def dividendWord (cpu : SoftCPU64) (width : Width) : BitVec (width.bits + width.bits) :=
  match width with
  | .w8 => (cpu.reg .rax).setWidth 16
  | width => (cpu.reg .rdx).setWidth width.bits ++ (cpu.reg .rax).setWidth width.bits

/-- Where a division puts its quotient. -/
def quotientWord (cpu : SoftCPU64) (width : Width) : BitVec width.bits :=
  (cpu.reg .rax).setWidth width.bits

/-- Where a division puts its remainder. -/
def remainderWord (cpu : SoftCPU64) (width : Width) : BitVec width.bits :=
  match width with
  | .w8 => (cpu.reg .rax >>> 8).setWidth 8
  | width => (cpu.reg .rdx).setWidth width.bits

theorem dividendWord_of_ne {width : Width} (hwidth : width ≠ .w8) (cpu : SoftCPU64) :
    dividendWord cpu width =
      (cpu.reg .rdx).setWidth width.bits ++ (cpu.reg .rax).setWidth width.bits := by
  cases width with
  | w8 => exact absurd rfl hwidth
  | w16 => rfl
  | w32 => rfl
  | w64 => rfl

theorem remainderWord_of_ne {width : Width} (hwidth : width ≠ .w8) (cpu : SoftCPU64) :
    remainderWord cpu width = (cpu.reg .rdx).setWidth width.bits := by
  cases width with
  | w8 => exact absurd rfl hwidth
  | w16 => rfl
  | w32 => rfl
  | w64 => rfl

theorem SameMachine.dividendWord {before after : Emulator} (h : SameMachine before after)
    (width : Width) :
    SoftCPU64.dividendWord after.cpu width = SoftCPU64.dividendWord before.cpu width := by
  unfold SoftCPU64.dividendWord reg
  rw [h.gpr]

/-! ## Lanes -/

section Lanes

variable {register : Register} {width : Width} {prefixes : Prefixes} (file : Register → U64)
  (value : U64)

/-- The lane that was written. -/
theorem setWidth_writeLane (hhigh : isHighByte register width prefixes = false) :
    (writeLane file register width prefixes value register).setWidth width.bits =
      value.setWidth width.bits := by
  have hread := readLane_writeLane file register width prefixes value
  rw [readLane_of_not_isHighByte _ hhigh] at hread
  rw [← setWidth_and_maskForWidth, hread, setWidth_and_maskForWidth]

end Lanes

/-- The bytes of the lane of a word are those of the word. -/
theorem bytes_of_setWidth {a b : U64} (h : a.setWidth 16 = b.setWidth 16) :
    a.setWidth 8 = b.setWidth 8 ∧ (a >>> 8).setWidth 8 = (b >>> 8).setWidth 8 := by
  have hnat := congrArg BitVec.toNat h
  rw [BitVec.toNat_setWidth, BitVec.toNat_setWidth] at hnat
  constructor
  · apply BitVec.eq_of_toNat_eq
    rw [BitVec.toNat_setWidth, BitVec.toNat_setWidth]
    omega
  · apply BitVec.eq_of_toNat_eq
    rw [BitVec.toNat_setWidth, BitVec.toNat_setWidth, BitVec.toNat_ushiftRight,
      BitVec.toNat_ushiftRight, Nat.shiftRight_eq_div_pow, Nat.shiftRight_eq_div_pow]
    omega

/-! ## The division of two words -/

/-- A dividend has a quotient in words. -/
def HasQuotient (signed : Bool) (w : Nat) (dividend divisor : Int) : Prop :=
  divisor ≠ 0 ∧ Fits signed w (dividend.tdiv divisor)

/-- A division faults and changes nothing, or it writes the quotient and the remainder. -/
structure DividesTo (signed : Bool) (width : Width) (divisor : Int) (before : Emulator)
    (outcome : EStateM.Result Raise Emulator Unit) : Prop where
  faults : ¬HasQuotient signed width.bits (wordValue signed (dividendWord before.cpu width))
      divisor →
    ∃ what after, outcome = .error (.emulatorError what) after ∧ SameMachine before after
  divides : HasQuotient signed width.bits (wordValue signed (dividendWord before.cpu width))
      divisor →
    ∃ after, outcome = .ok () after ∧
      wordValue signed (quotientWord after.cpu width) =
        (wordValue signed (dividendWord before.cpu width)).tdiv divisor ∧
      wordValue signed (remainderWord after.cpu width) =
        (wordValue signed (dividendWord before.cpu width)).tmod divisor

theorem hasQuotient_natCast {w dividend divisor : Nat} (hdivisor : divisor ≠ 0) :
    HasQuotient false w dividend divisor ↔ dividend / divisor < 2 ^ w := by
  have hfits : Fits false w ((dividend : Int).tdiv divisor) ↔ dividend / divisor < 2 ^ w := by
    rw [← Int.ofNat_tdiv, Fits, if_neg Bool.false_ne_true, ← Int.ofNat_lt, Int.natCast_pow]
    exact and_iff_right (Int.natCast_nonneg _)
  rw [HasQuotient, hfits]
  exact and_iff_right (Int.natCast_ne_zero.mpr hdivisor)

section Outcomes

variable {signed : Bool} {width : Width} {divisor : Int} {before after : Emulator}
  {prefixes : Prefixes} {operand : Operand} {addressed read : Emulator} {value : U64}
  {outcome : EStateM.Result Raise Emulator Unit}

theorem dividesTo_of_fault {what : String}
    (hquotient : ¬HasQuotient signed width.bits (wordValue signed (dividendWord before.cpu width))
      divisor)
    (hsame : SameMachine before after) :
    DividesTo signed width divisor before (guestFault what after) :=
  ⟨fun _ => ⟨_, after, rfl, hsame⟩, fun h => absurd h hquotient⟩

/-- The division starts from the registers before its operand was read. -/
theorem DividesTo.of_sameMachine (h : DividesTo signed width divisor read outcome)
    (hsame : SameMachine before read) : DividesTo signed width divisor before outcome := by
  refine ⟨fun hfault => ?_, fun hquotient => ?_⟩
  · rw [← hsame.dividendWord] at hfault
    rcases h.faults hfault with ⟨what, after, houtcome, hafter⟩
    exact ⟨what, after, houtcome, hsame.trans hafter⟩
  · rw [← hsame.dividendWord] at hquotient ⊢
    exact h.divides hquotient

/-- The registers after the two results of a wide division are written. -/
theorem words_after_writeGpr (hwidth : width ≠ .w8) (quotient remainder : U64)
    (prefixes : Prefixes) (emulator : Emulator) :
    ∃ after, (do
        writeGpr .rax width quotient prefixes
        writeGpr .rdx width remainder prefixes : EmulatorProgram Unit) emulator = .ok () after ∧
      quotientWord after.cpu width = quotient.setWidth width.bits ∧
      remainderWord after.cpu width = remainder.setWidth width.bits := by
  have hhigh := isHighByte_of_ne hwidth .rdx prefixes
  refine ⟨_, rfl, ?_, ?_⟩
  · have hother := writeLane_of_ne (writeLane emulator.cpu.gpr .rax width prefixes quotient)
      remainder hhigh (by decide : Register.rax ≠ .rdx)
    rw [quotientWord]
    exact (congrArg (BitVec.setWidth width.bits) hother).trans
      (setWidth_writeLane _ quotient (isHighByte_rax width prefixes))
  · rw [remainderWord_of_ne hwidth]
    exact setWidth_writeLane _ remainder hhigh

/-- The registers after the two bytes of a division are written. -/
theorem bytes_after_writeGpr (word : U64) (prefixes : Prefixes) (emulator : Emulator) :
    ∃ after, writeGpr .rax .w16 word prefixes emulator = .ok () after ∧
      quotientWord after.cpu .w8 = word.setWidth 8 ∧
      remainderWord after.cpu .w8 = (word >>> 8).setWidth 8 := by
  refine ⟨_, rfl, ?_⟩
  exact bytes_of_setWidth (setWidth_writeLane emulator.cpu.gpr word (isHighByte_rax .w16 prefixes))

/-- A division that can write its results divides. -/
theorem dividesTo_of_words
    (hquotient : HasQuotient signed width.bits (wordValue signed (dividendWord before.cpu width))
      divisor)
    (hlow : wordValue signed (quotientWord after.cpu width) =
      (wordValue signed (dividendWord before.cpu width)).tdiv divisor)
    (hhigh : wordValue signed (remainderWord after.cpu width) =
      (wordValue signed (dividendWord before.cpu width)).tmod divisor) :
    DividesTo signed width divisor before (.ok () after) :=
  ⟨fun h => absurd hquotient h, fun _ => ⟨after, rfl, hlow, hhigh⟩⟩

/-! ## Unsigned division -/

/-- Two bytes packed into a word. -/
theorem toNat_packed {low high : Nat} (hlow : low < 2 ^ 8) (hhigh : high < 2 ^ 8) :
    ((BitVec.ofNat 64 (high * 256 + low)).setWidth 8).toNat = low ∧
      ((BitVec.ofNat 64 (high * 256 + low) >>> 8).setWidth 8).toNat = high := by
  rw [BitVec.toNat_setWidth, BitVec.toNat_setWidth, BitVec.toNat_ushiftRight,
    Nat.shiftRight_eq_div_pow, BitVec.toNat_ofNat]
  omega

theorem toNat_setWidth_ofNat {n : Nat} (h : n < 2 ^ width.bits) :
    ((BitVec.ofNat 64 n).setWidth width.bits).toNat = n := by
  have hle : 2 ^ width.bits ≤ 2 ^ 64 := Nat.pow_le_pow_right (by decide) width.bits_le
  rw [BitVec.toNat_setWidth, BitVec.toNat_ofNat, Nat.mod_eq_of_lt (Nat.lt_of_lt_of_le h hle),
    Nat.mod_eq_of_lt h]

theorem wordValue_of_toNat {w n : Nat} {word : BitVec w} (h : word.toNat = n) :
    wordValue false word = (n : Int) :=
  congrArg Nat.cast h

/-- The lanes that a wide division loads make up its dividend. -/
theorem toNat_dividend (hwidth : width ≠ .w8) (cpu : SoftCPU64) (prefixes : Prefixes) :
    (readLane cpu.gpr .rdx width prefixes).toNat * 2 ^ width.bits +
        (readLane cpu.gpr .rax width prefixes).toNat =
      (dividendWord cpu width).toNat := by
  have hlow := ((cpu.reg .rax).setWidth width.bits).isLt
  rw [dividendWord_of_ne hwidth, BitVec.toNat_append, ← Nat.shiftLeft_add_eq_or_of_lt hlow,
    Nat.shiftLeft_eq, readLane_rax, readLane_of_not_isHighByte _ (isHighByte_of_ne hwidth _ _),
    toNat_and_maskForWidth, toNat_and_maskForWidth, BitVec.toNat_setWidth, BitVec.toNat_setWidth]
  rfl

theorem dividesTo_executeDiv
    (hread : readOperand operand width prefixes addressed = .ok value read) :
    DividesTo false width (wordValue false (value.setWidth width.bits)) addressed
      (executeDiv operand width prefixes addressed) := by
  have hsame := (ReadsOnly.readOperand operand width prefixes).of_ok hread
  rw [executeDiv, bind_of_ok hread]
  refine DividesTo.of_sameMachine ?_ hsame
  have hlt := readOperand_lt hread
  have hdivisor : wordValue false (value.setWidth width.bits) = (value.toNat : Int) := by
    apply wordValue_of_toNat
    rw [BitVec.toNat_setWidth, Nat.mod_eq_of_lt hlt]
  rw [hdivisor]
  by_cases hzero : value = 0
  · rw [if_pos hzero]
    refine dividesTo_of_fault ?_ (SameMachine.refl read)
    rintro ⟨hne, -⟩
    rw [hzero] at hne
    exact hne rfl
  · have hne : value.toNat ≠ 0 := fun h => hzero (BitVec.eq_of_toNat_eq h)
    have hquotient : HasQuotient false width.bits (wordValue false (dividendWord read.cpu width))
        value.toNat ↔ (dividendWord read.cpu width).toNat / value.toNat < 2 ^ width.bits :=
      hasQuotient_natCast hne
    have hremainder : (dividendWord read.cpu width).toNat % value.toNat < 2 ^ width.bits :=
      Nat.lt_trans (Nat.mod_lt _ (Nat.pos_of_ne_zero hne)) hlt
    rw [if_neg hzero]
    by_cases hwidth : width = .w8
    · subst hwidth
      obtain ⟨loaded, hload, hkept⟩ := readGpr_eq_ok .rax .w16 prefixes read
      have hdividend : (readLane read.cpu.gpr .rax .w16 prefixes).toNat =
          (dividendWord read.cpu .w8).toNat := by
        rw [readLane_rax, toNat_and_maskForWidth]
        exact (BitVec.toNat_setWidth _ _).symm
      rw [if_pos rfl, bind_of_ok hload]
      simp only [hdividend]
      split <;> rename_i hoverflow
      · refine dividesTo_of_fault ?_ hkept
        rw [hquotient]
        exact Nat.not_lt.mpr hoverflow
      · have hsmall := Nat.lt_succ_of_le (Nat.not_lt.mp hoverflow)
        obtain ⟨after, hafter, hlow, hhigh⟩ := bytes_after_writeGpr (BitVec.ofNat 64
          ((dividendWord read.cpu .w8).toNat % value.toNat * 256 +
            (dividendWord read.cpu .w8).toNat / value.toNat)) prefixes loaded
        have hpacked := toNat_packed hsmall hremainder
        rw [hafter]
        refine dividesTo_of_words (hquotient.mpr hsmall) ?_ ?_
        · exact wordValue_of_toNat ((congrArg BitVec.toNat hlow).trans hpacked.1)
        · exact wordValue_of_toNat ((congrArg BitVec.toNat hhigh).trans hpacked.2)
    · obtain ⟨loaded, hload, hkept⟩ := readGpr_eq_ok .rdx width prefixes read
      obtain ⟨loaded', hload', hkept'⟩ := readGpr_eq_ok .rax width prefixes loaded
      rw [if_neg hwidth, bind_of_ok hload, bind_of_ok hload', hkept.gpr]
      simp only [toNat_dividend hwidth, toNat_maskForWidth]
      split <;> rename_i hoverflow
      · refine dividesTo_of_fault ?_ (hkept.trans hkept')
        rw [hquotient]
        omega
      · have hsmall : (dividendWord read.cpu width).toNat / value.toNat < 2 ^ width.bits := by
          omega
        obtain ⟨after, hafter, hlow, hhigh⟩ := words_after_writeGpr hwidth
          (BitVec.ofNat 64 ((dividendWord read.cpu width).toNat / value.toNat))
          (BitVec.ofNat 64 ((dividendWord read.cpu width).toNat % value.toNat)) prefixes loaded'
        rw [hafter]
        refine dividesTo_of_words (hquotient.mpr hsmall) ?_ ?_
        · exact wordValue_of_toNat
            ((congrArg BitVec.toNat hlow).trans (toNat_setWidth_ofNat hsmall))
        · exact wordValue_of_toNat
            ((congrArg BitVec.toNat hhigh).trans (toNat_setWidth_ofNat hremainder))

/-! ## Signed division -/

theorem signedOperand_eq (value : U64) (width : Width) :
    signedOperand value width = wordValue true (value.setWidth width.bits) := by
  rw [signedOperand, signExtend_eq, BitVec.toInt_signExtend_of_le width.bits_le]
  rfl

/-- The low bits of an integer in a wider word. -/
theorem setWidth_ofInt {v w : Nat} (hle : w ≤ v) (n : Int) :
    (BitVec.ofInt v n).setWidth w = BitVec.ofInt w n := by
  have hdvd : ((2 ^ w : Nat) : Int) ∣ ((2 ^ v : Nat) : Int) :=
    Int.natCast_dvd_natCast.mpr (Nat.pow_dvd_pow 2 hle)
  have hpos : ((2 ^ v : Nat) : Int) ≠ 0 := Int.natCast_ne_zero.mpr (Nat.two_pow_pos v).ne'
  have hpos' : ((2 ^ w : Nat) : Int) ≠ 0 := Int.natCast_ne_zero.mpr (Nat.two_pow_pos w).ne'
  apply BitVec.eq_of_toNat_eq
  apply Int.ofNat_inj.mp
  rw [BitVec.toNat_setWidth, BitVec.toNat_ofInt, BitVec.toNat_ofInt, Int.natCast_emod,
    Int.toNat_of_nonneg (Int.emod_nonneg n hpos), Int.toNat_of_nonneg (Int.emod_nonneg n hpos')]
  exact Int.emod_emod_of_dvd n hdvd

/-- Two bytes put together. -/
theorem setWidth_packed (low high : U8) :
    (high.setWidth 64 <<< 8 ||| low.setWidth 64).setWidth 8 = low ∧
      ((high.setWidth 64 <<< 8 ||| low.setWidth 64) >>> 8).setWidth 8 = high := by
  constructor
  · apply BitVec.eq_of_getLsbD_eq
    intro i hi
    simp [hi]
  · apply BitVec.eq_of_getLsbD_eq
    intro i hi
    have hlt : 8 + i < 64 := by omega
    simp [hi, hlt]

/-- The narrowing of the byte form to 16 bits hides no quotient that is out of range. -/
theorem narrowed_out_of_range {dividend : BitVec 16} {divisor : Int} :
    ((BitVec.ofInt 16 (dividend.toInt.tdiv divisor)).toInt < -128 ∨
        127 < (BitVec.ofInt 16 (dividend.toInt.tdiv divisor)).toInt) ↔
      ¬Fits true 8 (dividend.toInt.tdiv divisor) := by
  have hle := Int.natAbs_tdiv_le_natAbs dividend.toInt divisor
  have hlow := BitVec.le_toInt dividend
  have hhigh : dividend.toInt < 2 ^ 15 := BitVec.toInt_lt
  generalize dividend.toInt.tdiv divisor = quotient at hle
  rw [Fits, if_pos rfl]
  by_cases hmost : quotient = 2 ^ 15
  · subst hmost
    decide
  · have hnarrow : (BitVec.ofInt 16 quotient).toInt = quotient :=
      BitVec.toInt_ofInt_eq_self (by decide) (by omega) (by omega)
    rw [hnarrow]
    omega

/-- The byte form, once it has loaded its dividend. -/
theorem dividesTo_bytes {dividend : BitVec 16}
    (hdividend : wordValue true (dividendWord before.cpu .w8) = dividend.toInt)
    (hdivisor : divisor ≠ 0) (hremainder : Fits true 8 (dividend.toInt.tmod divisor))
    (hsame : SameMachine before after) :
    DividesTo true .w8 divisor before
      ((if (BitVec.ofInt 16 (dividend.toInt.tdiv divisor)).toInt < -128 ∨
          127 < (BitVec.ofInt 16 (dividend.toInt.tdiv divisor)).toInt then
        guestFault "guest divide overflow"
      else
        writeGpr .rax .w16
          (((BitVec.ofInt 16 (dividend.toInt.tmod divisor)).setWidth 8).setWidth 64 <<< 8 |||
            ((BitVec.ofInt 16 (dividend.toInt.tdiv divisor)).setWidth 8).setWidth 64) prefixes)
        after) := by
  split <;> rename_i hoverflow
  · refine dividesTo_of_fault ?_ hsame
    rw [hdividend]
    exact fun h => narrowed_out_of_range.mp hoverflow h.2
  · have hsmall : Fits true 8 (dividend.toInt.tdiv divisor) :=
      not_not.mp (mt narrowed_out_of_range.mpr hoverflow)
    have hpacked := setWidth_packed
      ((BitVec.ofInt 16 (dividend.toInt.tdiv divisor)).setWidth 8)
      ((BitVec.ofInt 16 (dividend.toInt.tmod divisor)).setWidth 8)
    obtain ⟨final, hfinal, hlow, hhigh⟩ := bytes_after_writeGpr
      (((BitVec.ofInt 16 (dividend.toInt.tmod divisor)).setWidth 8).setWidth 64 <<< 8 |||
        ((BitVec.ofInt 16 (dividend.toInt.tdiv divisor)).setWidth 8).setWidth 64) prefixes after
    have hquotient := (hlow.trans hpacked.1).trans (setWidth_ofInt (by decide) _)
    have hrest := (hhigh.trans hpacked.2).trans (setWidth_ofInt (by decide) _)
    rw [hfinal]
    refine dividesTo_of_words ?_ ?_ ?_
    · rw [hdividend]
      exact ⟨hdivisor, hsmall⟩
    · rw [hdividend]
      exact (congrArg (wordValue true) hquotient).trans (wordValue_ofInt (by decide) hsmall)
    · rw [hdividend]
      exact (congrArg (wordValue true) hrest).trans (wordValue_ofInt (by decide) hremainder)

/-- The lanes that a wide signed division loads make up its dividend. -/
theorem wordValue_dividend (hwidth : width ≠ .w8) (cpu : SoftCPU64) (prefixes : Prefixes) :
    wordValue true ((readLane cpu.gpr .rdx width prefixes).setWidth width.bits) *
        2 ^ width.bits + ((readLane cpu.gpr .rax width prefixes).toNat : Int) =
      wordValue true (dividendWord cpu width) := by
  rw [dividendWord_of_ne hwidth, wordValue_append width.bits_pos, readLane_rax,
    readLane_of_not_isHighByte _ (isHighByte_of_ne hwidth _ _), setWidth_and_maskForWidth,
    toNat_and_maskForWidth, BitVec.toNat_setWidth]
  rfl

/-- A signed division that the host can compute. -/
theorem dividesTo_executeIdiv
    (hread : readOperand operand width prefixes addressed = .ok value read)
    (hhost : ¬(wordValue true (dividendWord addressed.cpu width) = -2 ^ 127 ∧
      wordValue true (value.setWidth width.bits) = -1)) :
    DividesTo true width (wordValue true (value.setWidth width.bits)) addressed
      (executeIdiv operand width prefixes addressed) := by
  have hsame := (ReadsOnly.readOperand operand width prefixes).of_ok hread
  rw [← hsame.dividendWord] at hhost
  rw [executeIdiv, bind_of_ok hread]
  refine DividesTo.of_sameMachine ?_ hsame
  have hfits : Fits true width.bits (wordValue true (value.setWidth width.bits)) :=
    fits_wordValue _
  simp only [signedOperand_eq]
  generalize wordValue true (value.setWidth width.bits) = divisor at hhost hfits
  by_cases hzero : divisor = 0
  · rw [if_pos hzero]
    exact dividesTo_of_fault (fun h => h.1 hzero) (SameMachine.refl read)
  · have hremainder : Fits true width.bits
        ((wordValue true (dividendWord read.cpu width)).tmod divisor) :=
      fits_tmod hfits hzero nofun
    rw [if_neg hzero]
    by_cases hwidth : width = .w8
    · subst hwidth
      obtain ⟨loaded, hload, hkept⟩ := readGpr_eq_ok .rax .w16 prefixes read
      have hdividend : (readLane read.cpu.gpr .rax .w16 prefixes).setWidth 16 =
          (read.cpu.reg .rax).setWidth 16 := by
        rw [readLane_rax]
        exact setWidth_and_maskForWidth (read.cpu.reg .rax) .w16
      rw [if_pos rfl, bind_of_ok hload]
      simp only [hdividend]
      exact dividesTo_bytes rfl hzero hremainder hkept
    · obtain ⟨loaded, hload, hkept⟩ := readGpr_eq_ok .rdx width prefixes read
      obtain ⟨loaded', hload', hkept'⟩ := readGpr_eq_ok .rax width prefixes loaded
      rw [if_neg hwidth, bind_of_ok hload, bind_of_ok hload', hkept.gpr]
      simp only [wordValue_dividend hwidth]
      rw [if_neg hhost]
      generalize hdividend : wordValue true (dividendWord read.cpu width) = dividend at hremainder
      split <;> rename_i hoverflow
      · refine dividesTo_of_fault ?_ (hkept.trans hkept')
        rw [hdividend]
        rintro ⟨-, hlow, hhigh⟩
        omega
      · have hsmall : Fits true width.bits (dividend.tdiv divisor) := by
          constructor <;> omega
        obtain ⟨after, hafter, hlow, hhigh⟩ := words_after_writeGpr hwidth
          (BitVec.ofInt 64 (dividend.tdiv divisor)) (BitVec.ofInt 64 (dividend.tmod divisor))
          prefixes loaded'
        rw [setWidth_ofInt width.bits_le] at hlow hhigh
        rw [hafter]
        subst hdividend
        refine dividesTo_of_words ⟨hzero, hsmall⟩ ?_ ?_
        · rw [hlow, wordValue_ofInt width.bits_pos hsmall]
        · rw [hhigh, wordValue_ofInt width.bits_pos hremainder]

/-- The most negative dividend of 128 bits has no quotient by minus one that the host could
compute. -/
theorem executeIdiv_hostFault
    (hread : readOperand operand width prefixes addressed = .ok value read)
    (hdividend : wordValue true (dividendWord addressed.cpu width) = -2 ^ 127)
    (hdivisor : wordValue true (value.setWidth width.bits) = -1) :
    ∃ after, executeIdiv operand width prefixes addressed = .error .hostFault after := by
  have hsame := (ReadsOnly.readOperand operand width prefixes).of_ok hread
  have hwidth : width ≠ .w8 := by
    rintro rfl
    have hfits : Fits true 16 (wordValue true (dividendWord addressed.cpu .w8)) :=
      fits_wordValue (dividendWord addressed.cpu .w8)
    rw [hdividend] at hfits
    exact absurd hfits.1 (by decide)
  rw [← hsame.dividendWord] at hdividend
  obtain ⟨loaded, hload, hkept⟩ := readGpr_eq_ok .rdx width prefixes read
  obtain ⟨loaded', hload', -⟩ := readGpr_eq_ok .rax width prefixes loaded
  rw [executeIdiv, bind_of_ok hread]
  simp only [signedOperand_eq, hdivisor]
  rw [if_neg (by decide), if_neg hwidth, bind_of_ok hload, bind_of_ok hload', hkept.gpr]
  simp only [wordValue_dividend hwidth, hdividend]
  exact ⟨loaded', rfl⟩

/-- No word holds the quotient of the most negative dividend by minus one. -/
theorem not_fits_mostNegative (width : Width) :
    ¬Fits true width.bits ((-2 ^ 127 : Int).tdiv (-1)) := by
  rintro ⟨-, hhigh⟩
  have hquotient : (-2 ^ 127 : Int).tdiv (-1) = 2 ^ 127 := by decide
  have hle : (2 : Int) ^ (width.bits - 1) ≤ 2 ^ 63 := by
    cases width <;> decide
  rw [hquotient] at hhigh
  omega

end Outcomes

/-! ## Steps -/

/-- The operand width of the group. -/
def divisionWidth (opcode : U8) (prefixes : Prefixes) : Width :=
  if opcode = 0xf6 then .w8 else operandWidth prefixes

/-- A division step faults exactly when there is no quotient, divides by the division law
otherwise, and changes nothing when it raises. -/
structure DividesCleanly (host : Host) (signed : Bool) (width : Width) (divisor : Int)
    (emulator : Emulator) : Prop where
  faults : (∃ what after, step host emulator = .error (.emulatorError what) after) ↔
    divisor = 0 ∨ ¬Fits signed width.bits
      ((wordValue signed (dividendWord emulator.cpu width)).tdiv divisor)
  divides : ∀ final, step host emulator = .ok () final →
    DivisionLaw (wordValue signed (dividendWord emulator.cpu width)) divisor
      (wordValue signed (quotientWord final.cpu width))
      (wordValue signed (remainderWord final.cpu width))
  unchanged : ∀ e after, step host emulator = .error e after → SameMachine emulator after

section Steps

variable {emulator decoded selected addressed read : Emulator} {prefixes : Prefixes} {opcode : U8}
  {modrm : ModRM} {operand : Operand} {value : U64}

/-- A step does what the division that it executes does. -/
theorem dividesTo_step {host : Host} {signed : Bool} {width : Width} {divisor : Int}
    (hdecode : decodeOpcode emulator = .ok (prefixes, opcode) decoded)
    (h : DividesTo signed width divisor decoded (execute host prefixes opcode decoded)) :
    DividesTo signed width divisor emulator (step host emulator) := by
  have hrun : step host emulator = _ := step_of_decoded hdecode
  obtain ⟨pc, rfl⟩ := decodeOpcode_eq_ok hdecode
  replace h := h.of_sameMachine (⟨rfl, rfl⟩ : SameMachine emulator (afterDecoding emulator pc))
  constructor
  · intro hquotient
    rcases h.faults hquotient with ⟨what, after, hafter, hsame⟩
    rw [bind_of_error hafter] at hrun
    exact ⟨what, after, hrun, hsame⟩
  · intro hquotient
    rcases h.divides hquotient with ⟨after, hafter, hlow, hhigh⟩
    rw [bind_of_ok hafter, modifyCPU_apply] at hrun
    exact ⟨_, hrun, hlow, hhigh⟩

/-- A division that faults or writes its results keeps to the contract. -/
theorem dividesCleanly_of_dividesTo {host : Host} {signed : Bool} {width : Width} {divisor : Int}
    (h : DividesTo signed width divisor emulator (step host emulator)) :
    DividesCleanly host signed width divisor emulator := by
  have hnot : (divisor = 0 ∨ ¬Fits signed width.bits
      ((wordValue signed (dividendWord emulator.cpu width)).tdiv divisor)) ↔
      ¬HasQuotient signed width.bits (wordValue signed (dividendWord emulator.cpu width))
        divisor := by
    rw [HasQuotient, not_and_or, not_not]
  by_cases hquotient : HasQuotient signed width.bits
      (wordValue signed (dividendWord emulator.cpu width)) divisor
  · rcases h.divides hquotient with ⟨after, hrun, hlow, hhigh⟩
    refine ⟨?_, ?_, ?_⟩
    · rw [hnot, hrun]
      refine ⟨?_, fun h => absurd hquotient h⟩
      rintro ⟨what, raised, hraised⟩
      cases hraised
    · intro final hfinal
      rw [hrun] at hfinal
      cases hfinal
      exact (divisionLaw_iff hquotient.1).mpr ⟨hlow.symm, hhigh.symm⟩
    · intro e after hraised
      rw [hrun] at hraised
      cases hraised
  · rcases h.faults hquotient with ⟨what, after, hrun, hsame⟩
    refine ⟨?_, ?_, ?_⟩
    · rw [hnot]
      exact ⟨fun _ => hquotient, fun _ => ⟨what, after, hrun⟩⟩
    · intro final hfinal
      rw [hrun] at hfinal
      cases hfinal
    · intro e raised hraised
      rw [hrun] at hraised
      cases hraised
      exact hsame

theorem sameMachine_of_decode (hmodrm : fetchModrm prefixes decoded = .ok modrm selected)
    (hoperand : decodeRmOperand prefixes modrm selected = .ok operand addressed) :
    SameMachine decoded addressed :=
  ((ReadsOnly.fetchModrm prefixes).of_ok hmodrm).trans
    ((ReadsOnly.decodeRmOperand prefixes modrm).of_ok hoperand)

/-- The group executes a signed division. -/
theorem execute_idiv (host : Host) (hopcode : opcode = 0xf6 ∨ opcode = 0xf7)
    (hmodrm : fetchModrm prefixes decoded = .ok modrm selected) (hidiv : modrm.operation = 7)
    (hoperand : decodeRmOperand prefixes modrm selected = .ok operand addressed) :
    execute host prefixes opcode decoded =
      executeIdiv operand (divisionWidth opcode prefixes) prefixes addressed := by
  have hgroup : execute host prefixes opcode = executeGroupF6F7 opcode prefixes := by
    rcases hopcode with rfl | rfl <;> rfl
  rw [hgroup, executeGroupF6F7, bind_of_ok hmodrm, bind_of_ok hoperand]
  simp only [hidiv]
  rfl

/-- The group executes an unsigned division. -/
theorem execute_div (host : Host) (hopcode : opcode = 0xf6 ∨ opcode = 0xf7)
    (hmodrm : fetchModrm prefixes decoded = .ok modrm selected) (hdiv : modrm.operation = 6)
    (hoperand : decodeRmOperand prefixes modrm selected = .ok operand addressed) :
    execute host prefixes opcode decoded =
      executeDiv operand (divisionWidth opcode prefixes) prefixes addressed := by
  have hgroup : execute host prefixes opcode = executeGroupF6F7 opcode prefixes := by
    rcases hopcode with rfl | rfl <;> rfl
  rw [hgroup, executeGroupF6F7, bind_of_ok hmodrm, bind_of_ok hoperand]
  simp only [hdiv]
  rfl

/-- A step of a signed division that the host can compute. -/
theorem dividesTo_step_idiv (host : Host)
    (hdecode : decodeOpcode emulator = .ok (prefixes, opcode) decoded)
    (hopcode : opcode = 0xf6 ∨ opcode = 0xf7)
    (hmodrm : fetchModrm prefixes decoded = .ok modrm selected) (hidiv : modrm.operation = 7)
    (hoperand : decodeRmOperand prefixes modrm selected = .ok operand addressed)
    (hread : readOperand operand (divisionWidth opcode prefixes) prefixes addressed =
      .ok value read)
    (hhost : ¬(wordValue true (dividendWord emulator.cpu (divisionWidth opcode prefixes)) =
        -2 ^ 127 ∧
      wordValue true (value.setWidth (divisionWidth opcode prefixes).bits) = -1)) :
    DividesTo true (divisionWidth opcode prefixes)
      (wordValue true (value.setWidth (divisionWidth opcode prefixes).bits)) emulator
      (step host emulator) := by
  have haddressed := sameMachine_of_decode hmodrm hoperand
  apply dividesTo_step hdecode
  rw [execute_idiv host hopcode hmodrm hidiv hoperand]
  refine (dividesTo_executeIdiv hread ?_).of_sameMachine haddressed
  rw [haddressed.dividendWord]
  obtain ⟨pc, rfl⟩ := decodeOpcode_eq_ok hdecode
  exact hhost

/-- A division step keeps to its contract exactly when the host can compute the quotient. -/
theorem step_divide_iff (host : Host)
    (hdecode : decodeOpcode emulator = .ok (prefixes, opcode) decoded)
    (hopcode : opcode = 0xf6 ∨ opcode = 0xf7)
    (hmodrm : fetchModrm prefixes decoded = .ok modrm selected)
    (hoperation : modrm.operation = 6 ∨ modrm.operation = 7)
    (hoperand : decodeRmOperand prefixes modrm selected = .ok operand addressed)
    (hread : readOperand operand (divisionWidth opcode prefixes) prefixes addressed =
      .ok value read) :
    let width := divisionWidth opcode prefixes
    let signed := decide (modrm.operation = 7)
    let divisor := wordValue signed (value.setWidth width.bits)
    DividesCleanly host signed width divisor emulator ↔
      ¬(signed = true ∧ wordValue true (dividendWord emulator.cpu width) = -2 ^ 127 ∧
        divisor = -1) := by
  intro width signed divisor
  rcases hoperation with hdiv | hidiv
  · have hsigned : signed = false := decide_eq_false (by omega)
    have hclean : DividesCleanly host signed width divisor emulator := by
      apply dividesCleanly_of_dividesTo
      apply dividesTo_step hdecode
      rw [execute_div host hopcode hmodrm hdiv hoperand]
      simp only [divisor, hsigned]
      exact (dividesTo_executeDiv hread).of_sameMachine (sameMachine_of_decode hmodrm hoperand)
    refine ⟨fun _ h => ?_, fun _ => hclean⟩
    rw [hsigned] at h
    exact Bool.false_ne_true h.1
  · have hsigned : signed = true := decide_eq_true hidiv
    constructor
    · rintro hclean ⟨-, hmost, hminus⟩
      rw [hsigned] at hclean
      have hunfit : ¬Fits true width.bits
          ((wordValue true (dividendWord emulator.cpu width)).tdiv divisor) := by
        rw [hmost, hminus]
        exact not_fits_mostNegative width
      rcases hclean.faults.mpr (Or.inr hunfit) with ⟨what, after, hraised⟩
      have hdividend : dividendWord addressed.cpu width = dividendWord emulator.cpu width := by
        rw [(sameMachine_of_decode hmodrm hoperand).dividendWord]
        obtain ⟨pc, rfl⟩ := decodeOpcode_eq_ok hdecode
        rfl
      rw [← hdividend] at hmost
      simp only [divisor, hsigned] at hminus
      rcases executeIdiv_hostFault hread hmost hminus with ⟨halted, hhalted⟩
      have hexecute := execute_idiv host hopcode hmodrm hidiv hoperand
      rw [step_of_decoded hdecode, bind_of_error (hexecute.trans hhalted)] at hraised
      cases hraised
    · intro hhost
      apply dividesCleanly_of_dividesTo
      simp only [divisor, hsigned] at hhost ⊢
      exact dividesTo_step_idiv host hdecode hopcode hmodrm hidiv hoperand hread
        fun h => hhost ⟨trivial, h⟩

end Steps

section Examples

/-- `idiv %rbx` with a dividend in `rDX` and `rAX` and a divisor. -/
def idivQuadword (high low divisor : U64) : Emulator :=
  let start := startingAt [0x48, 0xf7, 0xfb]
  start.withCPU (((start.cpu.setReg .rdx high).setReg .rax low).setReg .rbx divisor)

/-- The division of seven by minus two. -/
theorem step_divide_seven :
    DividesCleanly Emulator.quietHost true .w64 (-2) (idivQuadword 0 7 (-2)) := by
  let prefixes : Prefixes := { rexPresent := true, rex := 8 }
  let modrm : ModRM := { byte := 0xfb, mod := 3, reg := .rdi, rm := .rbx }
  let start := idivQuadword 0 7 (-2)
  let decoded := finalState (decodeOpcode start)
  let selected := finalState (fetchModrm prefixes decoded)
  have hdecode : decodeOpcode start = .ok (prefixes, 0xf7) decoded :=
    eq_ok_of_returned (by decide)
  have hmodrm : fetchModrm prefixes decoded = .ok modrm selected :=
    eq_ok_of_returned (by decide)
  have hoperand : decodeRmOperand prefixes modrm selected = .ok (.register .rbx) selected := rfl
  have hread : readOperand (.register .rbx) (divisionWidth 0xf7 prefixes) prefixes selected =
      .ok (-2) (finalState (readOperand (.register .rbx) (divisionWidth 0xf7 prefixes) prefixes
        selected)) :=
    eq_ok_of_returned (by decide)
  have hclean := step_divide_iff Emulator.quietHost hdecode (Or.inr rfl) hmodrm
    (Or.inr (by decide)) hoperand hread
  have hwidth : divisionWidth 0xf7 prefixes = .w64 := by decide
  have hsigned : decide (modrm.operation = 7) = true := by decide
  have hdivisor : wordValue true ((-2 : U64).setWidth (divisionWidth 0xf7 prefixes).bits) = -2 := by
    decide
  simp only [hwidth, hsigned, hdivisor] at hclean
  exact hclean.mpr fun h => absurd h.2.2 (by decide)

/-- The most negative dividend by minus one: the step ends in the undefined division of the
host. -/
theorem idiv_overflows_host :
    wordValue true (dividendWord (idivQuadword 0x8000000000000000 0 (-1)).cpu .w64) = -2 ^ 127 ∧
      ¬Fits true 64 ((-2 ^ 127 : Int).tdiv (-1)) ∧
      raised (step Emulator.quietHost (idivQuadword 0x8000000000000000 0 (-1))) =
        some .hostFault := by
  refine ⟨by decide, not_fits_mostNegative .w64, by decide⟩

end Examples

end SoftCPU64

end LUE
