import LinuxUserspaceEmulator.SoftCPU64.Disassembly
import LinuxUserspaceEmulator.SoftCPU64.Immediates
import LinuxUserspaceEmulator.SoftCPU64.OperandForms
import LinuxUserspaceEmulator.SoftCPU64.Reading

/-!
# The length of an instruction

What an instruction has behind its opcode is a fixed number of bytes, or a ModRM byte with the
operand it names and an immediate.  This file says how many bytes that is, and what it means that
a part of the executor fetches them.

Main results:

- Theorem `Fetches.bind_advances`: the length of a sequence is the sum of the lengths.
- Theorem `fetchesFrom_decodeMemoryAddress`: decoding an operand fetches its bytes.
- Theorem `advances_operand`: an instruction with a ModRM byte fetches the byte, its operand and
  its immediate.
-/

namespace LUE

open StateExcept

/-! ## Readable bytes -/

/-- So many bytes from the address on can be read. -/
def Readable (mmu : SoftMMU) (address : U64) (count : Nat) : Prop :=
  ∀ i < count, ∃ byte, mmu.read8 (address + BitVec.ofNat 64 i) = .ok byte

/-- The byte at an address that can be read. -/
def byteAt (mmu : SoftMMU) (address : U64) : U8 :=
  match mmu.read8 address with
  | .ok byte => byte
  | .error _ => 0

theorem byteAt_of_read8 {mmu : SoftMMU} {address : U64} {byte : U8}
    (h : mmu.read8 address = .ok byte) : byteAt mmu address = byte := by
  rw [byteAt, h]

namespace Readable

variable {mmu mmu' : SoftMMU} {address : U64} {count m n : Nat}

theorem congr (hregions : mmu'.regions = mmu.regions) (h : Readable mmu address count) :
    Readable mmu' address count := by
  intro i hi
  rcases h i hi with ⟨byte, hbyte⟩
  refine ⟨byte, ?_⟩
  rw [← hbyte]
  simp only [SoftMMU.read8, SoftMMU.regionFor, SoftMMU.findRegion, hregions]

theorem mono (h : Readable mmu address n) (hle : m ≤ n) : Readable mmu address m :=
  fun i hi => h i (Nat.lt_of_lt_of_le hi hle)

theorem zero (mmu : SoftMMU) (address : U64) : Readable mmu address 0 := by
  intro i hi
  exact absurd hi (Nat.not_lt_zero i)

theorem one {byte : U8} (h : mmu.read8 address = .ok byte) : Readable mmu address 1 := by
  intro i hi
  have hzero : i = 0 := by omega
  rw [hzero, BitVec.add_zero]
  exact ⟨byte, h⟩

theorem of_readInteger {value : U64} (h : mmu.readInteger address count = .ok value) :
    Readable mmu address count := by
  rcases SoftMMU.readInteger_bytes h with ⟨bytes, hbytes, -⟩
  intro i hi
  exact ⟨bytes i, hbytes i hi⟩

theorem append (h : Readable mmu address m)
    (h' : Readable mmu (address + BitVec.ofNat 64 m) n) : Readable mmu address (m + n) := by
  intro i hi
  by_cases hlow : i < m
  · exact h i hlow
  · rcases h' (i - m) (by omega) with ⟨byte, hbyte⟩
    refine ⟨byte, ?_⟩
    rw [← hbyte, BitVec.add_assoc, ← BitVec.ofNat_add, Nat.add_sub_cancel' (Nat.le_of_not_lt hlow)]

theorem left (h : Readable mmu address (m + n)) : Readable mmu address m :=
  h.mono (Nat.le_add_right m n)

theorem right (h : Readable mmu address (m + n)) :
    Readable mmu (address + BitVec.ofNat 64 m) n := by
  intro i hi
  rcases h (m + i) (Nat.add_lt_add_left hi m) with ⟨byte, hbyte⟩
  rw [BitVec.ofNat_add, ← BitVec.add_assoc] at hbyte
  exact ⟨byte, hbyte⟩

theorem read8 (h : Readable mmu address count) (hpos : 0 < count) :
    mmu.read8 address = .ok (byteAt mmu address) := by
  rcases h 0 hpos with ⟨byte, hbyte⟩
  rw [BitVec.add_zero] at hbyte
  rw [byteAt_of_read8 hbyte, hbyte]

theorem readInteger (h : Readable mmu address count) :
    ∃ value, mmu.readInteger address count = .ok value := by
  have hbytes : ∀ i < count, mmu.read8 (address + BitVec.ofNat 64 i) =
      .ok (byteAt mmu (address + BitVec.ofNat 64 i)) := by
    intro i hi
    rcases h i hi with ⟨byte, hbyte⟩
    rw [byteAt_of_read8 hbyte, hbyte]
  exact ⟨_, SoftMMU.readInteger_of_bytes hbytes⟩

end Readable

/-! ## Lengths -/

/-- The displacement bytes that the mode of a ModRM byte asks for. -/
def displacementLength (modrm : ModRM) : Nat :=
  if modrm.mod = 1 then 1 else if modrm.mod = 2 then 4 else 0

/-- The displacement bytes behind a SIB byte without a base. -/
def sibDisplacementLength (modrm : ModRM) (sib : U8) : Nat :=
  if modrm.mod = 0 ∧ sib &&& 7 = 5 then 4 else 0

/-- The bytes of a memory operand before the displacement of the mode: the SIB byte, and a
displacement in place of a base. -/
def addressLength (modrm : ModRM) (sib : U8) : Nat :=
  if modrm.byte &&& 7 = 4 then 1 + sibDisplacementLength modrm sib
  else if modrm.mod = 0 ∧ modrm.byte &&& 7 = 5 then 4
  else 0

/-- The bytes of an operand behind its ModRM byte, of which the first may be a SIB byte. -/
def operandLength (modrm : ModRM) (sib : U8) : Nat :=
  if modrm.mod = 3 then 0 else addressLength modrm sib + displacementLength modrm

theorem operandLength_le (modrm : ModRM) (sib : U8) : operandLength modrm sib ≤ 9 := by
  unfold operandLength addressLength sibDisplacementLength displacementLength
  repeat' split
  all_goals omega

/-- The ModRM byte at an address, without the REX bits. -/
def modrmAt (mmu : SoftMMU) (address : U64) : ModRM :=
  { byte := byteAt mmu address, mod := byteAt mmu address >>> 6 &&& 3 }

/-- What an instruction has behind its opcode. -/
inductive Tail where
  /-- So many bytes. -/
  | plain (count : Nat)
  /-- A ModRM byte, its operand, and an immediate whose size depends on the middle field. -/
  | operand (immediate : Nat → Nat)

/-- The bytes of a tail at an address. -/
def Tail.length (mmu : SoftMMU) (address : U64) : Tail → Nat
  | plain count => count
  | operand immediate =>
      1 + (operandLength (modrmAt mmu address) (byteAt mmu (address + 1)) +
        immediate (modrmAt mmu address).operation)

/-! ## The executor -/

namespace SoftCPU64

/-- The decoder has moved over so many readable bytes. -/
structure Consumed (count : Nat) (emulator after : Emulator) : Prop where
  position : after.cpu.decodePc = emulator.cpu.decodePc + BitVec.ofNat 64 count
  readable : Readable emulator.mmu emulator.cpu.decodePc count

theorem Consumed.trans {m n : Nat} {emulator middle after : Emulator}
    (h : Consumed m emulator middle) (hregions : middle.mmu.regions = emulator.mmu.regions)
    (h' : Consumed n middle after) : Consumed (m + n) emulator after where
  position := by
    rw [h'.position, h.position, BitVec.add_assoc, ← BitVec.ofNat_add]
  readable := by
    have hrest := h'.readable.congr hregions.symm
    rw [h.position] at hrest
    exact h.readable.append hrest

/-- The program fetches so many bytes when it returns, and writes nothing. -/
def Fetches {α : Type} (count : Nat) (program : EmulatorProgram α) : Prop :=
  ∀ ⦃emulator after : Emulator⦄ ⦃a : α⦄, program emulator = .ok a after →
    Consumed count emulator after ∧ after.mmu.regions = emulator.mmu.regions

/-- The program fetches the tail when it returns. -/
def Advances {α : Type} (tail : Tail) (program : EmulatorProgram α) : Prop :=
  ∀ ⦃emulator after : Emulator⦄ ⦃a : α⦄, program emulator = .ok a after →
    Consumed (tail.length emulator.mmu emulator.cpu.decodePc) emulator after

variable {α β : Type} {m n count : Nat} {x : EmulatorProgram α} {f : α → EmulatorProgram β}

/-- A program that leaves the decoder where it is fetches nothing. -/
theorem KeepsPosition.consumed (hkeeps : KeepsPosition x) {emulator after : Emulator} {a : α}
    (h : x emulator = .ok a after) : Consumed 0 emulator after where
  position := by
    rw [hkeeps.eq_of_ok h]
    exact (BitVec.add_zero _).symm
  readable := Readable.zero _ _

theorem KeepsPosition.advances (hkeeps : KeepsPosition x) : Advances (.plain 0) x :=
  fun _ _ _ h => hkeeps.consumed h

theorem KeepsPosition.fetches (hkeeps : KeepsPosition x) (hreads : ReadsOnly x) : Fetches 0 x :=
  fun _ _ _ h => ⟨hkeeps.consumed h, (hreads.of_ok h).regions⟩

namespace Fetches

theorem pure (a : α) : Fetches 0 (pure a) :=
  (KeepsPosition.pure a).fetches (ReadsOnly.pure a)

theorem bind (hx : Fetches m x) (hf : ∀ a, Fetches n (f a)) : Fetches (m + n) (x >>= f) := by
  intro emulator after b h
  rcases bind_eq_ok_iff.mp h with ⟨a, middle, hfirst, hsecond⟩
  rcases hx hfirst with ⟨hconsumed, hregions⟩
  rcases hf a hsecond with ⟨hconsumed', hregions'⟩
  exact ⟨hconsumed.trans hregions hconsumed', hregions'.trans hregions⟩

/-- What comes before the first fetch does not count. -/
theorem after (hx : Fetches 0 x) (hf : ∀ a, Fetches n (f a)) : Fetches n (x >>= f) := by
  have hboth := hx.bind hf
  rwa [Nat.zero_add] at hboth

/-- The length of a sequence is the sum of the lengths. -/
theorem bind_advances (hx : Fetches m x) (hf : ∀ a, Advances (.plain n) (f a)) :
    Advances (.plain (m + n)) (x >>= f) := by
  intro emulator after b h
  rcases bind_eq_ok_iff.mp h with ⟨a, middle, hfirst, hsecond⟩
  rcases hx hfirst with ⟨hconsumed, hregions⟩
  exact hconsumed.trans hregions (hf a hsecond)

theorem after_advances (hx : Fetches 0 x) (hf : ∀ a, Advances (.plain n) (f a)) :
    Advances (.plain n) (x >>= f) := by
  have hboth := hx.bind_advances hf
  rwa [Nat.zero_add] at hboth

theorem advances (hx : Fetches n x) : Advances (.plain n) x :=
  fun _ _ _ h => (hx h).1

/-- What follows the fetches of an instruction does not count. -/
theorem bind_keeps (hx : Fetches n x) (hf : ∀ a, KeepsPosition (f a)) :
    Advances (.plain n) (x >>= f) :=
  hx.bind_advances fun a => (hf a).advances

theorem ite {c : Prop} [Decidable c] {x y : EmulatorProgram α} (hx : c → Fetches n x)
    (hy : ¬c → Fetches n y) : Fetches n (if c then x else y) := by
  split <;> rename_i h
  · exact hx h
  · exact hy h

end Fetches

namespace Advances

variable {tail : Tail}

theorem ite {c : Prop} [Decidable c] {x y : EmulatorProgram α} (hx : c → Advances tail x)
    (hy : ¬c → Advances tail y) : Advances tail (if c then x else y) := by
  split <;> rename_i h
  · exact hx h
  · exact hy h

/-- A program that never returns. -/
theorem of_raises (h : ∀ {emulator after : Emulator} {a : α}, x emulator ≠ .ok a after) :
    Advances tail x :=
  fun _ _ _ hrun => absurd hrun h

end Advances

/-! ### Fetches -/

theorem fetches_fetch8 : Fetches 1 fetch8 := by
  intro emulator after byte h
  have hread : emulator.mmu.read8 emulator.cpu.decodePc = .ok byte := by
    rw [fetch8, bind_of_ok (getCPU_apply emulator), bind_of_ok (modifyCPU_apply _ emulator)] at h
    exact (readMMU_eq_ok_iff.mp h).1
  rw [fetch8_eq_ok h]
  exact ⟨⟨rfl, Readable.one hread⟩, rfl⟩

theorem fetch8_eq_byteAt {emulator after : Emulator} {byte : U8}
    (h : fetch8 emulator = .ok byte after) :
    byte = byteAt emulator.mmu emulator.cpu.decodePc := by
  rw [fetch8, bind_of_ok (getCPU_apply emulator), bind_of_ok (modifyCPU_apply _ emulator)] at h
  exact (byteAt_of_read8 (readMMU_eq_ok_iff.mp h).1).symm

theorem fetches_fetchInteger (count : Nat) : Fetches count (fetchInteger count) := by
  intro emulator after value h
  have hmoved := fetchInteger_eq_ok h
  rw [fetchInteger, bind_of_ok (getCPU_apply emulator)] at h
  rcases bind_eq_ok_iff.mp h with ⟨value', middle, hread, -⟩
  rw [hmoved]
  exact ⟨⟨rfl, Readable.of_readInteger (readMMU_eq_ok_iff.mp hread).1⟩, rfl⟩

theorem fetches_fetchI8 : Fetches 1 fetchI8 :=
  fetches_fetch8.bind fun _ => Fetches.pure _

theorem fetches_fetchI32 : Fetches 4 fetchI32 :=
  (fetches_fetchInteger 4).bind fun _ => Fetches.pure _

/-- An immediate of the operand width. -/
theorem fetches_fetchImmediate (width : Width) :
    Fetches (immediateBytes width) (fetchImmediate width) := by
  cases width with
  | w8 => exact fetches_fetch8.bind fun _ => Fetches.pure _
  | w16 => exact fetches_fetchInteger 2
  | w32 => exact (fetches_fetchInteger 4).bind fun _ => Fetches.pure _
  | w64 => exact (fetches_fetchInteger 4).bind fun _ => Fetches.pure _

/-! ### Operands -/

/-- The program fetches bytes whose number the first of them decides. -/
def FetchesFrom {α : Type} (length : U8 → Nat) (program : EmulatorProgram α) : Prop :=
  ∀ ⦃emulator after : Emulator⦄ ⦃a : α⦄, program emulator = .ok a after →
    Consumed (length (byteAt emulator.mmu emulator.cpu.decodePc)) emulator after ∧
      after.mmu.regions = emulator.mmu.regions

namespace FetchesFrom

variable {length : U8 → Nat}

theorem of_fetches (hx : Fetches n x) (hlength : ∀ first, length first = n) :
    FetchesFrom length x := by
  intro emulator after a h
  rw [hlength]
  exact hx h

theorem fetch8 {f : U8 → EmulatorProgram β} (hf : ∀ first, Fetches (length first) (f first)) :
    FetchesFrom (fun first => 1 + length first) (SoftCPU64.fetch8 >>= f) := by
  intro emulator after b h
  rcases bind_eq_ok_iff.mp h with ⟨first, middle, hfetch, hrest⟩
  rcases fetches_fetch8 hfetch with ⟨hconsumed, hregions⟩
  rcases hf first hrest with ⟨hconsumed', hregions'⟩
  rw [← fetch8_eq_byteAt hfetch]
  exact ⟨hconsumed.trans hregions hconsumed', hregions'.trans hregions⟩

theorem bind (hx : FetchesFrom length x) (hf : ∀ a, Fetches n (f a)) :
    FetchesFrom (fun first => length first + n) (x >>= f) := by
  intro emulator after b h
  rcases bind_eq_ok_iff.mp h with ⟨a, middle, hfirst, hsecond⟩
  rcases hx hfirst with ⟨hconsumed, hregions⟩
  rcases hf a hsecond with ⟨hconsumed', hregions'⟩
  exact ⟨hconsumed.trans hregions hconsumed', hregions'.trans hregions⟩

end FetchesFrom

theorem fetches_getCPU : Fetches 0 getCPU :=
  KeepsPosition.getCPU.fetches ReadsOnly.getCPU

theorem fetches_readGpr (register : Register) (width : Width) (prefixes : Prefixes) :
    Fetches 0 (readGpr register width prefixes) :=
  (keepsPosition_readGpr register width prefixes).fetches
    (ReadsOnly.readGpr register width prefixes)

theorem fetches_readOperand (operand : Operand) (width : Width) (prefixes : Prefixes) :
    Fetches 0 (readOperand operand width prefixes) :=
  (keepsPosition_readOperand operand width prefixes).fetches
    (ReadsOnly.readOperand operand width prefixes)

theorem fetches_addressRegister (register : Register) : Fetches 0 (addressRegister register) :=
  fetches_getCPU.bind fun _ => Fetches.pure _

theorem fetchesFrom_decodeSib (prefixes : Prefixes) (modrm : ModRM) :
    FetchesFrom (fun sib => 1 + sibDisplacementLength modrm sib) (decodeSib prefixes modrm) := by
  refine FetchesFrom.fetch8 fun sib => ?_
  by_cases hbase : modrm.mod = 0 ∧ sib &&& 7 = 5
  · have hcond : (decide (modrm.mod = 0) && decide (sib &&& 7 = 5)) = true := by
      rw [← Bool.decide_and]
      exact decide_eq_true hbase
    simp only [sibDisplacementLength, if_pos hbase, hcond, if_true]
    refine Fetches.ite (fun _ => ?_) fun _ => ?_
    · exact (fetches_addressRegister _).after fun _ => fetches_fetchI32.bind fun _ =>
        Fetches.pure _
    · exact (Fetches.pure _).after fun _ => fetches_fetchI32.bind fun _ => Fetches.pure _
  · have hcond : (decide (modrm.mod = 0) && decide (sib &&& 7 = 5)) = false := by
      rw [← Bool.decide_and]
      exact decide_eq_false hbase
    simp only [sibDisplacementLength, if_neg hbase, hcond, Bool.false_eq_true, if_false]
    refine Fetches.ite (fun _ => ?_) fun _ => ?_
    · exact (fetches_addressRegister _).after fun _ => (fetches_addressRegister _).bind fun _ =>
        Fetches.pure _
    · exact (Fetches.pure _).after fun _ => (fetches_addressRegister _).bind fun _ =>
        Fetches.pure _

theorem fetchesFrom_decodeAddressParts (prefixes : Prefixes) (modrm : ModRM) :
    FetchesFrom (addressLength modrm) (decodeAddressParts prefixes modrm) := by
  unfold decodeAddressParts addressLength
  by_cases hsib : modrm.byte &&& 7 = 4
  · simp only [if_pos hsib]
    exact fetchesFrom_decodeSib prefixes modrm
  · by_cases hrip : modrm.mod = 0 ∧ modrm.byte &&& 7 = 5
    · have hcond : (decide (modrm.mod = 0) && decide (modrm.byte &&& 7 = 5)) = true := by
        rw [← Bool.decide_and]
        exact decide_eq_true hrip
      simp only [if_neg hsib, if_pos hrip, hcond, if_true]
      exact FetchesFrom.of_fetches (fetches_fetchI32.bind fun _ => Fetches.pure _) fun _ => rfl
    · have hcond : (decide (modrm.mod = 0) && decide (modrm.byte &&& 7 = 5)) = false := by
        rw [← Bool.decide_and]
        exact decide_eq_false hrip
      simp only [if_neg hsib, if_neg hrip, hcond, Bool.false_eq_true, if_false]
      exact FetchesFrom.of_fetches ((fetches_addressRegister _).bind fun _ => Fetches.pure _)
        fun _ => rfl

theorem decodePc_warnUninitializedPointer (cpu : SoftCPU64) :
    cpu.warnUninitializedPointer.taint.decodePc = cpu.decodePc := by
  rw [warnUninitializedPointer]
  split <;> rfl

/-- Decoding a memory operand fetches its bytes. -/
theorem fetchesFrom_decodeMemoryAddress (prefixes : Prefixes) (modrm : ModRM) :
    FetchesFrom (fun sib => addressLength modrm sib + displacementLength modrm)
      (decodeMemoryAddress prefixes modrm) := by
  have htaint : ∀ (tainted : Bool) (address : DecodedAddress), Fetches 0 (do
      if tainted then
        modifyCPU fun cpu => cpu.warnUninitializedPointer.taint
      return address : EmulatorProgram DecodedAddress) := by
    intro tainted address
    have hwarn : Fetches 0 (modifyCPU fun cpu => cpu.warnUninitializedPointer.taint) :=
      (KeepsPosition.modifyCPU decodePc_warnUninitializedPointer).fetches
        (ReadsOnly.modifyCPU architectural_warnUninitializedPointer)
    exact Fetches.ite (fun _ => hwarn.bind fun _ => Fetches.pure _) fun _ => Fetches.pure _
  refine (fetchesFrom_decodeAddressParts prefixes modrm).bind fun parts => ?_
  unfold displacementLength
  split
  · exact fetches_fetchI8.bind fun _ => fetches_getCPU.bind fun _ => htaint _ _
  · split
    · exact fetches_fetchI32.bind fun _ => fetches_getCPU.bind fun _ => htaint _ _
    · exact (Fetches.pure _).bind fun _ => fetches_getCPU.bind fun _ => htaint _ _

theorem fetchesFrom_decodeRmOperand (prefixes : Prefixes) (modrm : ModRM) :
    FetchesFrom (operandLength modrm) (decodeRmOperand prefixes modrm) := by
  unfold decodeRmOperand operandLength
  by_cases hregister : modrm.mod = 3
  · have hmod : modrm.isRegister = true := beq_iff_eq.mpr hregister
    simp only [if_pos hregister, hmod, if_true]
    exact FetchesFrom.of_fetches (Fetches.pure _) fun _ => rfl
  · have hmod : modrm.isRegister = false := beq_false_of_ne hregister
    simp only [if_neg hregister, hmod, Bool.false_eq_true, if_false]
    exact (fetchesFrom_decodeMemoryAddress prefixes modrm).bind fun _ => Fetches.pure _

/-- What an instruction does with its ModRM byte decides what it fetches. -/
theorem consumed_modrm {prefixes : Prefixes} {immediate : Nat → Nat}
    {f : ModRM → EmulatorProgram α} {emulator after : Emulator} {a : α}
    (hf : ∀ modrm, modrm.operation = (modrmAt emulator.mmu emulator.cpu.decodePc).operation →
      ∀ middle, f modrm middle = .ok a after →
        Consumed (operandLength modrm (byteAt middle.mmu middle.cpu.decodePc) +
          immediate modrm.operation) middle after)
    (h : (fetchModrm prefixes >>= f) emulator = .ok a after) :
    Consumed ((Tail.operand immediate).length emulator.mmu emulator.cpu.decodePc)
      emulator after := by
  rcases bind_eq_ok_iff.mp h with ⟨modrm, middle, hmodrm, hrest⟩
  rcases bind_eq_ok_iff.mp hmodrm with ⟨byte, middle', hfetch, hreturn⟩
  cases hreturn
  rcases fetches_fetch8 hfetch with ⟨hconsumed, hregions⟩
  have hbyte := fetch8_eq_byteAt hfetch
  have hmoved := fetch8_eq_ok hfetch
  subst hbyte
  have hconsumed' := (fun hsame => hf _ hsame middle hrest) rfl
  rw [hmoved] at hconsumed hconsumed' hregions
  exact hconsumed.trans hregions hconsumed'

/-- An instruction with an operand behind its ModRM byte, and an immediate behind that. -/
theorem consumed_operand {prefixes : Prefixes} {rest : Operand → EmulatorProgram α}
    {modrm : ModRM} {emulator after : Emulator} {a : α}
    (hrest : ∀ operand, Advances (.plain count) (rest operand))
    (h : (decodeRmOperand prefixes modrm >>= rest) emulator = .ok a after) :
    Consumed (operandLength modrm (byteAt emulator.mmu emulator.cpu.decodePc) + count)
      emulator after := by
  rcases bind_eq_ok_iff.mp h with ⟨operand, middle, hoperand, hrun⟩
  rcases fetchesFrom_decodeRmOperand prefixes modrm hoperand with ⟨hconsumed, hregions⟩
  exact hconsumed.trans hregions (hrest operand hrun)

/-- What comes behind the operand decides how long the immediate is. -/
theorem advances_operand {prefixes : Prefixes} {immediate : Nat → Nat}
    {rest : ModRM → Operand → EmulatorProgram α}
    (hrest : ∀ modrm operand, Advances (.plain (immediate modrm.operation)) (rest modrm operand)) :
    Advances (.operand immediate) (do
      let modrm ← fetchModrm prefixes
      let operand ← decodeRmOperand prefixes modrm
      rest modrm operand) :=
  fun _ _ _ => consumed_modrm fun modrm _ _ => consumed_operand (hrest modrm)

/-- An instruction that looks at the middle field of its ModRM byte first. -/
theorem advances_group {prefixes : Prefixes} {immediate : Nat → Nat} {message : String}
    {rest : ModRM → Operand → EmulatorProgram α}
    (hrest : ∀ modrm operand, Advances (.plain (immediate modrm.operation)) (rest modrm operand)) :
    Advances (.operand immediate) (do
      let modrm ← fetchModrm prefixes
      if modrm.operation ≠ 0 then unsupported message
      else
        let operand ← decodeRmOperand prefixes modrm
        rest modrm operand) := by
  refine fun _ _ _ => consumed_modrm fun modrm _ middle hrun => ?_
  split at hrun
  · exact absurd hrun (unsupported_ne_ok message)
  · exact consumed_operand (hrest modrm) hrun

/-- An instruction that takes the address of its operand. -/
theorem advances_address {prefixes : Prefixes} {onRegister : ModRM → EmulatorProgram α}
    {rest : ModRM → DecodedAddress → EmulatorProgram α}
    (honRegister : ∀ modrm, KeepsPosition (onRegister modrm))
    (hrest : ∀ modrm address, KeepsPosition (rest modrm address)) :
    Advances (.operand fun _ => 0) (do
      let modrm ← fetchModrm prefixes
      if modrm.isRegister then onRegister modrm
      else
        let address ← decodeMemoryAddress prefixes modrm
        rest modrm address) := by
  refine fun _ _ _ => consumed_modrm fun modrm _ middle hrun => ?_
  unfold operandLength
  split at hrun
  · rename_i hregister
    rw [if_pos (beq_iff_eq.mp hregister)]
    exact (honRegister modrm).consumed hrun
  · rename_i hmemory
    rw [if_neg fun hmod => hmemory (beq_iff_eq.mpr hmod)]
    rcases bind_eq_ok_iff.mp hrun with ⟨address, after, haddress, hlast⟩
    rcases fetchesFrom_decodeMemoryAddress prefixes modrm haddress with ⟨hconsumed, hregions⟩
    exact hconsumed.trans hregions ((hrest modrm address).consumed hlast)

end SoftCPU64

end LUE
