import LinuxUserspaceEmulator.SoftCPU64.ExecutedLength

/-!
# The bytes the disassembler passes over

The cursor of the disassembler moves over the tail of an instruction as the decoder of the
executor does, but for two kinds of opcodes.  It does not read the immediate of `TEST` in the
group `F6`/`F7`, and of the opcodes behind `0F` that it has no name for it reads nothing.

Main results:

- Theorem `ConsumesFrom.rmText`: the text of an operand takes the bytes of the operand.
- Theorem `OperandRest.describes`: the instructions with an operand.
- Theorem `Opcode.describes`: every instruction that can be executed and transfers no control.
-/

namespace LUE

open StateExcept

/-! ## Cursors -/

namespace Cursor

variable (cursor : Cursor)

@[simp]
theorem advance_mmu (count : Nat) : (cursor.advance count).mmu = cursor.mmu :=
  rfl

@[simp]
theorem advance_pc (count : Nat) :
    (cursor.advance count).pc = cursor.pc + BitVec.ofNat 64 count :=
  rfl

@[simp]
theorem advance_zero : cursor.advance 0 = cursor := by
  simp [advance]

@[simp]
theorem advance_advance (m n : Nat) :
    (cursor.advance m).advance n = cursor.advance (m + n) := by
  simp only [advance, BitVec.add_assoc, BitVec.ofNat_add]

variable {cursor}

/-- Reading a byte gives the byte at the cursor. -/
theorem read8_of_readable (h : Readable cursor.mmu cursor.pc 1) :
    read8 cursor = .ok (byteAt cursor.mmu cursor.pc) (cursor.advance 1) := by
  rw [read8, bind_of_ok (get_apply cursor), bind_of_ok (set_apply cursor _)]
  exact observe_eq_ok_iff.mpr ⟨h.read8 Nat.one_pos, rfl⟩

end Cursor

/-- Reading a number gives it and moves the cursor over it. -/
theorem Cursor.readInteger_of_ok {cursor : Cursor} {count : Nat} {value : U64}
    (h : cursor.mmu.readInteger cursor.pc count = .ok value) :
    Cursor.readInteger count cursor = .ok value (cursor.advance count) := by
  have hread : observe (fun cursor : Cursor => cursor.mmu.readInteger cursor.pc count) cursor =
      .ok value cursor := observe_eq_ok_iff.mpr ⟨h, rfl⟩
  rw [Cursor.readInteger, bind_of_ok hread]
  rfl

/-- The program moves the cursor over so many bytes if they can be read. -/
def Consumes {α : Type} (count : Nat) (program : CursorProgram α) : Prop :=
  ∀ cursor : Cursor, Readable cursor.mmu cursor.pc count →
    ∃ a, program cursor = .ok a (cursor.advance count)

/-- The program moves the cursor over bytes whose number the first of them decides. -/
def ConsumesFrom {α : Type} (length : U8 → Nat) (program : CursorProgram α) : Prop :=
  ∀ cursor : Cursor, Readable cursor.mmu cursor.pc (length (byteAt cursor.mmu cursor.pc)) →
    ∃ a, program cursor = .ok a (cursor.advance (length (byteAt cursor.mmu cursor.pc)))

/-- The program moves the cursor over the tail. -/
def Describes {α : Type} (tail : Tail) (program : CursorProgram α) : Prop :=
  ∀ cursor : Cursor, Readable cursor.mmu cursor.pc (tail.length cursor.mmu cursor.pc) →
    ∃ a, program cursor = .ok a (cursor.advance (tail.length cursor.mmu cursor.pc))

section Rules

variable {α β : Type} {m n count : Nat} {x : CursorProgram α} {f : α → CursorProgram β}

namespace Consumes

theorem pure (a : α) : Consumes 0 (pure a) := by
  intro cursor _
  rw [Cursor.advance_zero]
  exact ⟨a, rfl⟩

theorem get : Consumes 0 (get : CursorProgram Cursor) := by
  intro cursor _
  rw [Cursor.advance_zero]
  exact ⟨cursor, rfl⟩

/-- The bytes of a sequence are the bytes of its parts. -/
theorem bind (hx : Consumes m x) (hf : ∀ a, Consumes n (f a)) : Consumes (m + n) (x >>= f) := by
  intro cursor hreadable
  rcases hx cursor hreadable.left with ⟨a, hfirst⟩
  rcases hf a (cursor.advance _) hreadable.right with ⟨b, hsecond⟩
  refine ⟨b, ?_⟩
  rw [bind_of_ok hfirst, ← Cursor.advance_advance]
  exact hsecond

theorem ite {c : Prop} [Decidable c] {x y : CursorProgram α} (hx : c → Consumes n x)
    (hy : ¬c → Consumes n y) : Consumes n (if c then x else y) := by
  split <;> rename_i h
  · exact hx h
  · exact hy h

theorem describes (hx : Consumes n x) : Describes (.plain n) x :=
  fun cursor hreadable => hx cursor hreadable

theorem read8 : Consumes 1 Cursor.read8 :=
  fun _ hreadable => ⟨_, Cursor.read8_of_readable hreadable⟩

theorem readInteger (count : Nat) : Consumes count (Cursor.readInteger count) := by
  intro cursor hreadable
  rcases hreadable.readInteger with ⟨value, hvalue⟩
  exact ⟨value, Cursor.readInteger_of_ok hvalue⟩

end Consumes

namespace ConsumesFrom

variable {length : U8 → Nat}

theorem of_consumes (hx : Consumes n x) (hlength : ∀ first, length first = n) :
    ConsumesFrom length x := by
  intro cursor hreadable
  rw [hlength] at hreadable ⊢
  exact hx cursor hreadable

theorem read8 {f : U8 → CursorProgram β} (hf : ∀ first, Consumes (length first) (f first)) :
    ConsumesFrom (fun first => 1 + length first) (Cursor.read8 >>= f) := by
  intro cursor hreadable
  have hfirst := Cursor.read8_of_readable hreadable.left
  rcases hf _ (cursor.advance 1) hreadable.right with ⟨b, hrest⟩
  refine ⟨b, ?_⟩
  rw [bind_of_ok hfirst, ← Cursor.advance_advance]
  exact hrest

theorem bind (hx : ConsumesFrom length x) (hf : ∀ a, Consumes n (f a)) :
    ConsumesFrom (fun first => length first + n) (x >>= f) := by
  intro cursor hreadable
  rcases hx cursor hreadable.left with ⟨a, hfirst⟩
  rcases hf a (cursor.advance _) hreadable.right with ⟨b, hsecond⟩
  refine ⟨b, ?_⟩
  rw [bind_of_ok hfirst, ← Cursor.advance_advance]
  exact hsecond

end ConsumesFrom

end Rules

/-! ## Immediates and operands -/

namespace SoftCPU64

theorem consumes_immText {value : Int} (h : value ≠ -2 ^ 63) : Consumes 0 (immText value) := by
  refine Consumes.ite (fun _ => ?_) fun _ => Consumes.pure _
  rw [if_neg h]
  exact Consumes.pure _

theorem consumes_imm8Text : Consumes 1 imm8Text := by
  refine Consumes.read8.bind fun byte => consumes_immText ?_
  have hbound := BitVec.le_toInt byte
  omega

theorem consumes_byteText : Consumes 1 byteText := by
  refine Consumes.read8.bind fun byte => consumes_immText ?_
  omega

theorem consumes_imm16Text : Consumes 2 imm16Text := by
  refine (Consumes.readInteger 2).bind fun value => consumes_immText ?_
  omega

theorem consumes_imm32Text : Consumes 4 imm32Text := by
  refine (Consumes.readInteger 4).bind fun value => consumes_immText ?_
  have hbound := BitVec.le_toInt (value.setWidth 32)
  omega

/-- An immediate of the operand width. -/
theorem consumes_immediateText (width : Width) :
    Consumes (immediateBytes width) (immediateText width.bits) := by
  cases width with
  | w8 => exact consumes_imm8Text
  | w16 => exact consumes_imm16Text
  | w32 => exact consumes_imm32Text
  | w64 => exact consumes_imm32Text

theorem consumesFrom_sibText (state : PrefixState) (modrm : ModRM) :
    ConsumesFrom (fun sib => 1 + sibDisplacementLength modrm sib) (sibText state modrm) := by
  refine ConsumesFrom.read8 fun sib => ?_
  unfold sibDisplacementLength
  dsimp only
  split
  · exact (Consumes.readInteger 4).bind fun _ => Consumes.pure _
  · exact Consumes.pure _

theorem consumesFrom_addressText (state : PrefixState) (modrm : ModRM) :
    ConsumesFrom (addressLength modrm) (addressText state modrm) := by
  unfold addressText addressLength
  dsimp only
  by_cases hsib : modrm.byte &&& 7 = 4
  · simp only [if_pos hsib]
    exact consumesFrom_sibText state modrm
  · simp only [if_neg hsib]
    refine ConsumesFrom.of_consumes ?_ fun _ => rfl
    split
    · exact (Consumes.readInteger 4).bind fun _ => Consumes.pure _
    · exact Consumes.pure _

theorem consumes_displacementText (modrm : ModRM) (parts : AddressText) :
    Consumes (displacementLength modrm) (displacementText modrm parts) := by
  unfold displacementLength displacementText
  split
  · exact Consumes.read8.bind fun _ => Consumes.pure _
  · split
    · exact (Consumes.readInteger 4).bind fun _ => Consumes.pure _
    · exact Consumes.pure _

/-- The text of a memory operand takes the bytes of its address. -/
theorem consumesFrom_memoryText (state : PrefixState) (modrm : ModRM) (trailingBytes : Nat) :
    ConsumesFrom (fun sib => addressLength modrm sib + displacementLength modrm)
      (memoryText state modrm trailingBytes) := by
  refine (consumesFrom_addressText state modrm).bind fun parts =>
    (consumes_displacementText modrm parts).bind (n := 0) fun displacement => ?_
  exact Consumes.get.bind fun _ => Consumes.pure _

/-- An operand in memory, or what stands in its place for a register. -/
theorem consumesFrom_operand {α : Type} {modrm : ModRM} {x y : CursorProgram α}
    (hmemory : ConsumesFrom (fun sib => addressLength modrm sib + displacementLength modrm) x)
    (hregister : Consumes 0 y) :
    ConsumesFrom (operandLength modrm) (if modrm.mod = 3 then y else x) := by
  unfold operandLength
  by_cases hmod : modrm.mod = 3
  · simp only [if_pos hmod]
    exact ConsumesFrom.of_consumes hregister fun _ => rfl
  · simp only [if_neg hmod]
    exact hmemory

/-- What an instruction does with its ModRM byte decides what it consumes. -/
theorem describes_modrm {β : Type} {state : PrefixState} {immediate : Nat → Nat}
    {f : ModRM → CursorProgram β}
    (hf : ∀ modrm, ConsumesFrom
      (fun first => operandLength modrm first + immediate modrm.operation) (f modrm)) :
    Describes (.operand immediate) (readModrm state >>= f) := by
  intro cursor hreadable
  have hfirst := Cursor.read8_of_readable hreadable.left
  rw [readModrm, bind_assoc, bind_of_ok hfirst, pure_bind, Tail.length, ← Cursor.advance_advance]
  exact hf _ (cursor.advance 1) hreadable.right

/-- The text of an operand takes the bytes of the operand. -/
theorem consumesFrom_rmText (state : PrefixState) (modrm : ModRM) (width trailingBytes : Nat) :
    ConsumesFrom (operandLength modrm) (rmText state modrm width trailingBytes) :=
  consumesFrom_operand (consumesFrom_memoryText state modrm trailingBytes) (Consumes.pure _)

/-- An instruction whose text needs its operand only. -/
theorem describes_operand {state : PrefixState} {width trailingBytes : ModRM → Nat}
    {text : ModRM → String → String} :
    Describes (.operand fun _ => 0) (do
      let modrm ← readModrm state
      let operand ← rmText state modrm (width modrm) (trailingBytes modrm)
      return text modrm operand) :=
  describes_modrm fun _ => (consumesFrom_rmText _ _ _ _).bind fun _ => Consumes.pure _

/-- An instruction whose text needs an immediate behind its operand. -/
theorem describes_immediate {state : PrefixState} {width trailingBytes : ModRM → Nat}
    {count : Nat} {β : Type} {immediate : CursorProgram β} {text : ModRM → String → β → String}
    (himmediate : Consumes count immediate) :
    Describes (.operand fun _ => count) (do
      let modrm ← readModrm state
      let operand ← rmText state modrm (width modrm) (trailingBytes modrm)
      let imm ← immediate
      return text modrm operand imm) :=
  describes_modrm fun _ => (consumesFrom_rmText _ _ _ _).bind fun _ =>
    himmediate.bind fun _ => Consumes.pure _

/-! ## Instructions -/

/-- The state of the disassembler after the prefixes of an instruction, as far as lengths depend
on it. -/
structure Matches (state : PrefixState) (prefixes : Prefixes) : Prop where
  operand16 : state.operand16 = prefixes.operand16
  rex : state.rex = prefixes.rex

theorem Matches.rexW {state : PrefixState} {prefixes : Prefixes} (h : Matches state prefixes) :
    state.rexW = prefixes.rexW := by
  rw [PrefixState.rexW, Prefixes.rexW, h.rex]

theorem Matches.operandWidth {state : PrefixState} {prefixes : Prefixes}
    (h : Matches state prefixes) :
    state.operandWidth = (SoftCPU64.operandWidth prefixes).bits := by
  rw [PrefixState.operandWidth, SoftCPU64.operandWidth, h.rexW, h.operand16]
  split
  · rfl
  · split <;> rfl

variable {state : PrefixState} {prefixes : Prefixes} {byte : U8}

/-- An immediate of an operand that is wider than a byte. -/
theorem Matches.consumes_immediate {α : Type} {x y : CursorProgram α}
    (h : Matches state prefixes) (hx : Consumes 2 x) (hy : Consumes 4 y) :
    Consumes (immediateBytes (SoftCPU64.operandWidth prefixes))
      (if state.operandWidth = 16 then x else y) := by
  have hbyte := operandWidth_ne_w8 prefixes
  rw [h.operandWidth]
  cases hwidth : SoftCPU64.operandWidth prefixes with
  | w8 => exact absurd hwidth hbyte
  | w16 => exact hx
  | w32 => exact hy
  | w64 => exact hy

theorem describes_alu (h : byte &&& 7 ≤ 3) :
    Describes (.operand fun _ => 0) (describeAlu state byte) := by
  have hform : (byte &&& 7).toNat ≤ 3 := h
  unfold describeAlu
  simp only [if_pos hform]
  exact describes_operand

theorem describes_aluAccumulator (hmatches : Matches state prefixes)
    (h : byte &&& 7 = 4 ∨ byte &&& 7 = 5) :
    Describes (.plain (if byte &&& 7 = 4 then 1 else immediateBytes (operandWidth prefixes)))
      (describeAlu state byte) := by
  unfold describeAlu
  rcases h with hbyte | hfull
  · have hform : (byte &&& 7).toNat = 4 := by rw [hbyte]; rfl
    simp only [if_pos hbyte, hform]
    exact ((consumes_immediateText .w8).bind fun _ => Consumes.pure _).describes
  · have hform : (byte &&& 7).toNat = 5 := by rw [hfull]; rfl
    have hbyte : ¬byte &&& 7 = 4 := by rw [hfull]; decide
    simp only [if_neg hbyte, hform, hmatches.operandWidth]
    exact ((consumes_immediateText _).bind fun _ => Consumes.pure _).describes

theorem describes_register (name : String) (width operandWidth : Nat) (registerFirst : Bool) :
    Describes (.operand fun _ => 0)
      (describeRegister state name width operandWidth registerFirst) :=
  describes_operand

theorem describes_imul (h : byte = 0x69 ∨ byte = 0x6b) :
    Describes ((Opcode.oneByte byte).tail prefixes) (describeImul state byte) := by
  rcases h with rfl | rfl
  · exact describes_immediate consumes_imm32Text
  · exact describes_immediate consumes_imm8Text

theorem describes_aluImm (hmatches : Matches state prefixes)
    (h : byte = 0x80 ∨ byte = 0x81 ∨ byte = 0x83) :
    Describes ((Opcode.oneByte byte).tail prefixes) (describeAluImm state byte) := by
  rcases h with rfl | rfl | rfl
  · exact describes_immediate consumes_imm8Text
  · exact describes_modrm fun _ => (consumesFrom_rmText _ _ _ _).bind fun _ =>
      hmatches.consumes_immediate (consumes_imm16Text.bind fun _ => Consumes.pure _)
        (consumes_imm32Text.bind fun _ => Consumes.pure _)
  · exact describes_immediate consumes_imm8Text

theorem describes_movOperandImmediate (hmatches : Matches state prefixes)
    (h : byte = 0xc6 ∨ byte = 0xc7) :
    Describes ((Opcode.oneByte byte).tail prefixes) (describeMovOperandImmediate state byte) := by
  rcases h with rfl | rfl
  · exact describes_immediate (consumes_immediateText .w8)
  · have himmediate : Consumes (immediateBytes (operandWidth prefixes))
        (immediateText state.operandWidth) := by
      rw [hmatches.operandWidth]
      exact consumes_immediateText _
    exact describes_immediate himmediate

theorem describes_shiftGroup (h : byte ∈ ([0xc0, 0xc1, 0xd0, 0xd1, 0xd2, 0xd3] : List U8)) :
    Describes ((Opcode.oneByte byte).tail prefixes) (describeShiftGroup state byte) := by
  fin_cases h
  · exact describes_immediate Consumes.read8
  · exact describes_immediate Consumes.read8
  · exact describes_operand
  · exact describes_operand
  · exact describes_operand
  · exact describes_operand

theorem describes_x87 (opcode : U8) :
    Describes (.operand fun _ => 0) (describeX87 state opcode) := by
  unfold describeX87
  simp only [ne_eq, ite_not]
  exact describes_modrm fun modrm => consumesFrom_operand
    ((consumesFrom_memoryText state modrm 0).bind fun _ => Consumes.pure _) (Consumes.pure _)

theorem describes_hint : Describes (.operand fun _ => 0) (describeHint state) := by
  unfold describeHint
  simp only [ne_eq, ite_not]
  exact describes_modrm fun modrm => consumesFrom_operand
    ((consumesFrom_memoryText state modrm 0).bind fun _ => Consumes.pure _) (Consumes.pure _)

theorem describes_doubleShift (h : byte ∈ ([0xa4, 0xa5, 0xac, 0xad] : List U8)) :
    Describes ((Opcode.twoByte byte).tail prefixes) (describeDoubleShift state byte) := by
  fin_cases h
  · exact describes_immediate consumes_byteText
  · exact describes_operand
  · exact describes_immediate consumes_byteText
  · exact describes_operand

/-- The opcodes with a selector byte are those that the executor fetches one for. -/
theorem describes_sse (byte : U8) :
    Describes (.operand fun _ => if byte = 0x70 ∨ byte = 0x73 ∨ byte = 0xc6 then 1 else 0)
      (describeSse state byte) := by
  unfold describeSse
  by_cases hselector : byte = 0x70 ∨ byte = 0x73 ∨ byte = 0xc6
  · simp only [if_pos hselector]
    exact describes_immediate Consumes.read8
  · simp only [if_neg hselector]
    exact describes_operand

/-! ## The opcode map -/

/-- The opcodes behind `0F` that are executed and have no text of their own. -/
def unnamedOpcodes : List U8 :=
  [0x18, 0x19, 0x1a, 0x1b, 0x1c, 0x1d, 0x1e, 0x64, 0x65, 0x66, 0x68, 0x69, 0x6a, 0x6d, 0xab, 0xae,
    0xb3, 0xbb, 0xc3, 0xda, 0xde, 0xe7]

/-- The tail of an opcode, as the disassembler reads it. -/
def Opcode.describedTail (prefixes : Prefixes) : Opcode → Tail
  | oneByte byte =>
      if byte = 0xf6 ∨ byte = 0xf7 then .operand fun _ => 0 else (oneByte byte).tail prefixes
  | twoByte byte =>
      if byte ∈ unnamedOpcodes then .plain 0 else (twoByte byte).tail prefixes

/-- The instructions of which the disassembler reads less than the executor, by the operation
field of the byte behind the opcode. -/
def Opcode.CutShort (operation : Nat) : Opcode → Prop
  | oneByte byte => (byte = 0xf6 ∨ byte = 0xf7) ∧ operation = 0
  | twoByte byte => byte ∈ unnamedOpcodes

/-- The text of the instruction of an opcode. -/
def Opcode.describe (state : PrefixState) : Opcode → CursorProgram String
  | oneByte byte => describeOneByte state byte
  | twoByte byte => describeTwoByte state byte

section Lengths

variable {opcode : Opcode} {mmu : SoftMMU} {address : U64}

/-- Of the other instructions the disassembler reads everything. -/
theorem describedTail_length_eq (h : ¬opcode.CutShort (modrmAt mmu address).operation) :
    (opcode.describedTail prefixes).length mmu address =
      (opcode.tail prefixes).length mmu address := by
  cases opcode with
  | twoByte byte =>
      have hnamed : byte ∉ unnamedOpcodes := h
      rw [Opcode.describedTail, if_neg hnamed]
  | oneByte byte =>
      by_cases hgroup : byte = 0xf6 ∨ byte = 0xf7
      · have hoperation : (modrmAt mmu address).operation ≠ 0 := fun hzero => h ⟨hgroup, hzero⟩
        rw [Opcode.describedTail, if_pos hgroup]
        rcases hgroup with rfl | rfl
        · simp [Opcode.tail, Tail.length, hoperation]
        · simp [Opcode.tail, Tail.length, hoperation]
      · rw [Opcode.describedTail, if_neg hgroup]

theorem describedTail_length_lt (h : opcode.CutShort (modrmAt mmu address).operation) :
    (opcode.describedTail prefixes).length mmu address <
      (opcode.tail prefixes).length mmu address := by
  cases opcode with
  | twoByte byte =>
      have hplain : ∀ byte ∈ unnamedOpcodes,
          ¬((0xc8 ≤ byte ∧ byte ≤ 0xcf) ∨ byte = 0x31 ∨ byte = 0xa2) := by
        decide
      have hunnamed : byte ∈ unnamedOpcodes := h
      rw [Opcode.describedTail, if_pos hunnamed, Opcode.tail, if_neg (hplain byte hunnamed)]
      split
      · exact Nat.one_pos
      · exact Nat.lt_of_lt_of_le Nat.one_pos (Nat.le_add_right 1 _)
  | oneByte byte =>
      have himmediate := immediateBytes_pos (operandWidth prefixes)
      rw [Opcode.describedTail, if_pos h.1]
      rcases h with ⟨rfl | rfl, hzero⟩
      · simp [Opcode.tail, Tail.length, hzero]
      · simp [Opcode.tail, Tail.length, hzero, himmediate]

theorem describedTail_length_le (opcode : Opcode) (mmu : SoftMMU) (address : U64) :
    (opcode.describedTail prefixes).length mmu address ≤
      (opcode.tail prefixes).length mmu address := by
  by_cases hcut : opcode.CutShort (modrmAt mmu address).operation
  · exact Nat.le_of_lt (describedTail_length_lt hcut)
  · exact Nat.le_of_eq (describedTail_length_eq hcut)

end Lengths

theorem describedTail_conditional
    (h : (0x90 ≤ byte ∧ byte ≤ 0x9f) ∨ (0x40 ≤ byte ∧ byte ≤ 0x4f)) :
    (Opcode.twoByte byte).describedTail prefixes = .operand fun _ => 0 := by
  have hranges : ∀ byte : U8, (0x90 ≤ byte ∧ byte ≤ 0x9f) ∨ (0x40 ≤ byte ∧ byte ≤ 0x4f) →
      byte ∉ unnamedOpcodes := by
    decide
  rw [Opcode.describedTail, if_neg (hranges byte h), tail_conditional h]

theorem describes_conditional
    (h : (0x90 ≤ byte ∧ byte ≤ 0x9f) ∨ (0x40 ≤ byte ∧ byte ≤ 0x4f)) :
    Describes (.operand fun _ => 0) (describeTwoByte state byte) := by
  have hsyscall : byte ≠ 0x05 := by bv_omega
  have hjcc : ¬(0x80 ≤ byte ∧ byte ≤ 0x8f) := by bv_omega
  rw [describeTwoByte, if_neg hsyscall, if_neg hjcc]
  by_cases hsetcc : 0x90 ≤ byte ∧ byte ≤ 0x9f
  · rw [if_pos hsetcc]
    exact describes_operand
  · rw [if_neg hsetcc, if_pos (h.resolve_left hsetcc)]
    exact describes_register _ _ _ _

/-- The text of an opcode without a name takes no bytes. -/
theorem describes_unnamed (h : byte ∈ unnamedOpcodes) :
    Describes ((Opcode.twoByte byte).describedTail prefixes) (describeTwoByte state byte) := by
  rw [Opcode.describedTail, if_pos h]
  fin_cases h <;> exact (Consumes.pure _).describes

/-- The SSE opcodes with a name have an operand, and a selector byte as they are executed. -/
theorem describes_sseText (h : byte ∈ sseTextOpcodes) :
    Describes ((Opcode.twoByte byte).describedTail prefixes) (describeTwoByte state byte) := by
  have htail : (sseTextOpcodes.all fun byte => decide (byte ∉ unnamedOpcodes ∧
      ¬((0xc8 ≤ byte ∧ byte ≤ 0xcf) ∨ byte = 0x31 ∨ byte = 0xa2) ∧ byte ≠ 0x1e ∧
      (byte = 0x70 ∨ byte = 0x73 ∨ byte = 0xc6 ↔ byte ∈ selectorOpcodes))) = true := by
    decide
  rcases of_decide_eq_true (List.all_eq_true.mp htail byte h) with
    ⟨hnamed, hplain, hhint, hselector⟩
  have htext : describeTwoByte state byte = describeSse state byte := by
    fin_cases h <;> rfl
  have hdescribes := @describes_sse state byte
  rw [Opcode.describedTail, if_neg hnamed, tail_twoByte hplain hhint, htext]
  simpa only [hselector] using hdescribes

/-- The packed integer opcodes have a text with an operand, or none. -/
theorem describes_packedInteger {program : EmulatorProgram Unit}
    (h : packedInteger byte prefixes = some program) :
    Describes ((Opcode.twoByte byte).describedTail prefixes) (describeTwoByte state byte) := by
  have hself : byte = BitVec.ofNat 8 byte.toNat := by simp
  have hmem : byte ∈ sseTextOpcodes ∨ byte ∈ unnamedOpcodes := by
    unfold packedInteger at h
    split at h
    all_goals first
      | rename_i hbyte
        rw [hself, hbyte]
        decide
      | cases h
  exact hmem.elim describes_sseText describes_unnamed

theorem describes_sseFloat (h : isSseFloat byte = true) :
    Describes ((Opcode.twoByte byte).describedTail prefixes) (describeTwoByte state byte) := by
  have htext : ∀ byte : U8, isSseFloat byte = true → byte ∈ sseTextOpcodes := by
    decide
  exact describes_sseText (htext byte h)

/-- The text of an instruction with an operand takes the tail that the disassembler reads. -/
theorem OperandRest.describes {host : Host} {opcode : Opcode}
    {rest : ModRM → Operand → EmulatorProgram Unit} (h : OperandRest host prefixes opcode rest)
    (hmatches : Matches state prefixes) :
    Describes (opcode.describedTail prefixes) (opcode.describe state) := by
  cases h with
  | @aluRmReg byte h =>
      have hmap : byte ≤ 0x3d ∧ byte &&& 7 ≤ 5 := ⟨h.1, BitVec.le_trans h.2 (by decide)⟩
      have hgroup : ¬(byte = 0xf6 ∨ byte = 0xf7) := fun hbyte => by
        rcases hbyte with rfl | rfl <;> exact absurd h.1 (by decide)
      rw [Opcode.describedTail, if_neg hgroup, Opcode.tail, if_pos hmap, if_pos h.2,
        Opcode.describe, describeOneByte, if_pos hmap]
      exact describes_alu h.2
  | movsxd => exact describes_register _ _ _ _
  | imulImmediate h =>
      have hdescribes := @describes_imul state prefixes _ h
      rcases h with rfl | rfl <;> exact hdescribes
  | aluImm h =>
      have hdescribes := describes_aluImm hmatches h
      rcases h with rfl | rfl | rfl <;> exact hdescribes
  | test h => rcases h with rfl | rfl <;> exact describes_register _ _ _ _
  | xchg => exact describes_register _ _ _ _
  | movStore h => rcases h with rfl | rfl <;> exact describes_register _ _ _ _
  | movLoad h => rcases h with rfl | rfl <;> exact describes_register _ _ _ _
  | lea => exact describes_register _ _ _ _
  | popOperand => exact describes_operand
  | shiftGroup h =>
      have hdescribes := @describes_shiftGroup state prefixes _ h
      fin_cases h <;> exact hdescribes
  | movOperandImmediate h =>
      have hdescribes := describes_movOperandImmediate hmatches h
      rcases h with rfl | rfl <;> exact hdescribes
  | x87 h => fin_cases h <;> exact describes_x87 _
  | groupF6F7 h => rcases h with rfl | rfl <;> exact describes_operand
  | groupFf => exact describes_operand
  | setcc h =>
      rw [describedTail_conditional (Or.inl h)]
      exact describes_conditional (Or.inl h)
  | cmovcc h =>
      rw [describedTail_conditional (Or.inr h)]
      exact describes_conditional (Or.inr h)
  | @hint byte h =>
      by_cases hnop : byte = 0x1f
      · subst hnop
        exact describes_hint
      · refine describes_unnamed ?_
        fin_cases h <;> first | decide | exact absurd rfl hnop
  | bitString h =>
      fin_cases h
      · exact describes_register _ _ _ _
      · exact describes_unnamed (by decide)
      · exact describes_unnamed (by decide)
      · exact describes_unnamed (by decide)
  | doubleShift h =>
      have hdescribes := @describes_doubleShift state prefixes _ h
      fin_cases h <;> exact hdescribes
  | groupAe => exact describes_unnamed (by decide)
  | imulRegister => exact describes_register _ _ _ _
  | cmpxchg h => rcases h with rfl | rfl <;> exact describes_register _ _ _ _
  | extend h => fin_cases h <;> exact describes_register _ _ _ _
  | groupBa => exact describes_immediate consumes_byteText
  | bitScan h => rcases h with rfl | rfl <;> exact describes_register _ _ _ _
  | xadd h => rcases h with rfl | rfl <;> exact describes_register _ _ _ _
  | movnti => exact describes_unnamed (by decide)
  | packed h _ => exact describes_packedInteger h
  | selected h _ => exact describes_packedInteger h
  | storeXmm h =>
      rcases h with rfl | rfl | rfl
      · exact describes_sseText (by decide)
      · exact describes_sseText (by decide)
      · exact describes_unnamed (by decide)
  | loadXmm => exact describes_sseText (by decide)
  | byteShift => exact describes_sseText (by decide)
  | movq => exact describes_sseText (by decide)
  | storeLow => exact describes_sseText (by decide)
  | pmovmskb => exact describes_sseText (by decide)
  | sseFloat h => exact describes_sseFloat h

/-! ## Moves of a 64-bit immediate -/

/-- A move of the smallest 64-bit number, which the text of an immediate negates. -/
def Opcode.MovesSmallest (prefixes : Prefixes) (mmu : SoftMMU) (address : U64) : Opcode → Prop
  | oneByte byte =>
      (0xb8 ≤ byte ∧ byte ≤ 0xbf) ∧ prefixes.rexW = true ∧
        mmu.readInteger address 8 = .ok (BitVec.intMin 64)
  | twoByte _ => False

/-- A shorter number is not negative as a 64-bit number. -/
theorem toInt_ne_of_readInteger {mmu : SoftMMU} {address value : U64} {count : Nat}
    (hcount : count < 8) (h : mmu.readInteger address count = .ok value) :
    value.toInt ≠ -2 ^ 63 := by
  rcases SoftMMU.readInteger_bytes h with ⟨bytes, -, rfl⟩
  have hmsb : (LittleEndian.assemble bytes count).msb = false := by
    rw [BitVec.msb_eq_getLsbD_last, LittleEndian.getLsbD_assemble (Nat.le_of_lt hcount),
      decide_eq_false (by omega), Bool.false_and]
  have hpos := BitVec.toInt_nonneg_of_msb_false hmsb
  omega

theorem operandWidth_of_rexW (h : prefixes.rexW = true) : operandWidth prefixes = .w64 :=
  if_pos h

theorem bytes_lt_of_rexW (h : prefixes.rexW = false) : (operandWidth prefixes).bytes < 8 := by
  rw [operandWidth, h]
  simp only [Bool.false_eq_true, if_false]
  split <;> decide

section MovImmediate

variable {cursor : Cursor}

theorem describeMovImmediate_eq (hmatches : Matches state prefixes) (byte : U8) :
    describeMovImmediate state byte = (do
      let value ← Cursor.readInteger (operandWidth prefixes).bytes
      let imm ← immText value.toInt
      return "mov " ++ imm ++ ", " ++
        regText (registerAt byte state.rexB) (operandWidth prefixes).bits) := by
  have hwidth := hmatches.operandWidth
  unfold PrefixState.operandWidth at hwidth
  simp only [describeMovImmediate, hwidth, Width.bytes]

/-- The text of a move takes its immediate. -/
theorem describes_movImmediate (hmatches : Matches state prefixes)
    (h : 0xb8 ≤ byte ∧ byte ≤ 0xbf)
    (hreadable : Readable cursor.mmu cursor.pc (operandWidth prefixes).bytes)
    (hsmallest : ¬(Opcode.oneByte byte).MovesSmallest prefixes cursor.mmu cursor.pc) :
    ∃ text, describeMovImmediate state byte cursor =
      .ok text (cursor.advance (operandWidth prefixes).bytes) := by
  rcases hreadable.readInteger with ⟨value, hvalue⟩
  have hnegatable : value.toInt ≠ -2 ^ 63 := by
    cases hwide : prefixes.rexW with
    | false => exact toInt_ne_of_readInteger (bytes_lt_of_rexW hwide) hvalue
    | true =>
        rw [operandWidth_of_rexW hwide] at hvalue
        intro hint
        have hmin : value = BitVec.intMin 64 := BitVec.eq_of_toInt_eq hint
        exact hsmallest ⟨h, hwide, hmin ▸ hvalue⟩
  rcases consumes_immText hnegatable (cursor.advance (operandWidth prefixes).bytes)
    (Readable.zero _ _) with ⟨imm, himm⟩
  rw [Cursor.advance_zero] at himm
  rw [describeMovImmediate_eq hmatches, bind_of_ok (Cursor.readInteger_of_ok hvalue),
    bind_of_ok himm]
  exact ⟨_, rfl⟩

theorem describeMovImmediate_of_movesSmallest (hmatches : Matches state prefixes)
    (h : (Opcode.oneByte byte).MovesSmallest prefixes cursor.mmu cursor.pc) :
    describeMovImmediate state byte cursor = .error .hostFault (cursor.advance 8) := by
  rcases h with ⟨-, hwide, hvalue⟩
  have hbytes : (operandWidth prefixes).bytes = 8 := by
    rw [operandWidth_of_rexW hwide]
    rfl
  rw [describeMovImmediate_eq hmatches, hbytes, bind_of_ok (Cursor.readInteger_of_ok hvalue)]
  rfl

end MovImmediate

/-! ## Instructions without an operand -/

theorem describedTail_of_ne (h : byte ≠ 0xf6 ∧ byte ≠ 0xf7) :
    (Opcode.oneByte byte).describedTail prefixes = (Opcode.oneByte byte).tail prefixes := by
  rw [Opcode.describedTail, if_neg (not_or.mpr h)]

/-- The opcodes with a register number and no immediate. -/
theorem describes_plain (h : (0x50 ≤ byte ∧ byte ≤ 0x5f) ∨ (0x90 ≤ byte ∧ byte ≤ 0x97)) :
    Describes ((Opcode.oneByte byte).describedTail prefixes) (describeOneByte state byte) := by
  have harithmetic : ¬(byte ≤ 0x3d ∧ byte &&& 7 ≤ 5) := not_arithmetic (by bv_omega)
  have hjcc : ¬(0x70 ≤ byte ∧ byte ≤ 0x7f) := by bv_omega
  have htext : ∃ text, describeOneByte state byte = pure text := by
    rw [describeOneByte, if_neg harithmetic, if_neg hjcc]
    split
    · exact ⟨_, rfl⟩
    · rename_i hpush
      split
      · exact ⟨_, rfl⟩
      · rename_i hpop
        rw [if_pos (by bv_omega)]
        exact ⟨_, rfl⟩
  rcases htext with ⟨text, htext⟩
  rw [describedTail_of_ne (by bv_omega), Opcode.tail, if_neg harithmetic, if_pos h, htext]
  exact (Consumes.pure _).describes

theorem describeOneByte_of_mov (h : 0xb0 ≤ byte ∧ byte ≤ 0xbf) :
    describeOneByte state byte =
      if byte ≤ 0xb7 then describeMovByte state byte else describeMovImmediate state byte := by
  have harithmetic : ¬(byte ≤ 0x3d ∧ byte &&& 7 ≤ 5) := not_arithmetic (by bv_omega)
  have hpush : ¬(0x50 ≤ byte ∧ byte ≤ 0x57) := by bv_omega
  have hpop : ¬(0x58 ≤ byte ∧ byte ≤ 0x5f) := by bv_omega
  have hjcc : ¬(0x70 ≤ byte ∧ byte ≤ 0x7f) := by bv_omega
  have hxchg : ¬(0x90 ≤ byte ∧ byte ≤ 0x97) := by bv_omega
  rw [describeOneByte, if_neg harithmetic, if_neg hpush, if_neg hpop, if_neg hjcc, if_neg hxchg]
  by_cases hlow : byte ≤ 0xb7
  · rw [if_pos ⟨h.1, hlow⟩, if_pos hlow]
  · rw [if_neg fun hle => hlow hle.2, if_pos ⟨by bv_omega, h.2⟩, if_neg hlow]

theorem describes_mov {cursor : Cursor} (hmatches : Matches state prefixes)
    (h : 0xb0 ≤ byte ∧ byte ≤ 0xbf)
    (hreadable : Readable cursor.mmu cursor.pc
      (((Opcode.oneByte byte).describedTail prefixes).length cursor.mmu cursor.pc))
    (hsmallest : ¬(Opcode.oneByte byte).MovesSmallest prefixes cursor.mmu cursor.pc) :
    ∃ text, describeOneByte state byte cursor = .ok text (cursor.advance
      (((Opcode.oneByte byte).describedTail prefixes).length cursor.mmu cursor.pc)) := by
  rw [describedTail_of_ne (by bv_omega), tail_of_mov h] at hreadable ⊢
  rw [describeOneByte_of_mov h]
  by_cases hlow : byte ≤ 0xb7
  · rw [if_pos hlow] at hreadable ⊢
    rw [if_pos hlow]
    exact (consumes_byteText.bind fun _ => Consumes.pure _) cursor hreadable
  · rw [if_neg hlow] at hreadable ⊢
    rw [if_neg hlow]
    exact describes_movImmediate hmatches ⟨by bv_omega, h.2⟩ hreadable hsmallest

/-- The text of a move of the smallest number is undefined. -/
theorem Opcode.describe_of_movesSmallest {opcode : Opcode} {cursor : Cursor}
    (hmatches : Matches state prefixes)
    (h : opcode.MovesSmallest prefixes cursor.mmu cursor.pc) :
    opcode.describe state cursor = .error .hostFault (cursor.advance 8) := by
  cases opcode with
  | oneByte byte =>
      have hbyte := h.1
      rw [Opcode.describe, describeOneByte_of_mov ⟨by bv_omega, hbyte.2⟩, if_neg (by bv_omega)]
      exact describeMovImmediate_of_movesSmallest hmatches h
  | twoByte byte => exact h.elim

/-- The text of any other instruction of one byte without an operand takes its immediate. -/
theorem describes_oneByte {operation : Nat} (hmatches : Matches state prefixes)
    (hoperand : (Opcode.oneByte byte).WithoutOperand = true) (hescape : byte ≠ 0x0f)
    (hmov : ¬(0xb0 ≤ byte ∧ byte ≤ 0xbf))
    (htransfer : ¬(Opcode.oneByte byte).Transfers operation) :
    Describes ((Opcode.oneByte byte).describedTail prefixes) (describeOneByte state byte) := by
  rcases of_decide_eq_true hoperand with ⟨hle, hform⟩ | hstack | hjcc | hxchg | hregister | hmem
  · have hle5 : byte &&& 7 ≤ 5 := by rcases hform with h | h <;> rw [h] <;> decide
    have hnot3 : ¬byte &&& 7 ≤ 3 := by rcases hform with h | h <;> rw [h] <;> decide
    have htext : describeOneByte state byte = describeAlu state byte := if_pos ⟨hle, hle5⟩
    rw [describedTail_of_ne (by bv_omega), Opcode.tail, if_pos ⟨hle, hle5⟩, if_neg hnot3, htext]
    exact describes_aluAccumulator hmatches hform
  · exact describes_plain (Or.inl hstack)
  · exact absurd (Or.inl hjcc) htransfer
  · exact describes_plain (Or.inr hxchg)
  · exact absurd hregister hmov
  · fin_cases hmem
    all_goals first
      | exact absurd rfl hescape
      | exact absurd (Or.inr (Or.inl (by decide))) htransfer
      | exact (Consumes.pure _).describes
      | exact (consumes_imm32Text.bind fun _ => Consumes.pure _).describes
      | exact (consumes_imm8Text.bind fun _ => Consumes.pure _).describes
      | exact (consumes_byteText.bind fun _ => Consumes.pure _).describes

theorem describes_twoByte {operation : Nat}
    (hoperand : (Opcode.twoByte byte).WithoutOperand = true)
    (htransfer : ¬(Opcode.twoByte byte).Transfers operation) :
    Describes ((Opcode.twoByte byte).describedTail prefixes) (describeTwoByte state byte) := by
  rcases of_decide_eq_true hoperand with hjcc | hbswap | hmem
  · exact absurd (Or.inr hjcc) htransfer
  · have hbytes : ∀ byte : U8, 0xc8 ≤ byte ∧ byte ≤ 0xcf →
        byte ∈ ([0xc8, 0xc9, 0xca, 0xcb, 0xcc, 0xcd, 0xce, 0xcf] : List U8) := by
      decide
    have hmem := hbytes byte hbswap
    fin_cases hmem <;> exact (Consumes.pure _).describes
  · fin_cases hmem
    · exact absurd (Or.inl rfl) htransfer
    · exact describes_unnamed (by decide)
    · exact (Consumes.pure _).describes
    · exact (Consumes.pure _).describes

/-- The text of every instruction that can be executed, and transfers no control, takes the tail
that the disassembler reads, unless it has to negate the smallest number. -/
theorem Opcode.describes {host : Host} {opcode : Opcode} {emulator after : Emulator}
    {operation : Nat} {cursor : Cursor} (hmatches : Matches state prefixes)
    (hescape : opcode ≠ .oneByte 0x0f)
    (hrun : opcode.execute host prefixes emulator = .ok () after)
    (htransfer : ¬opcode.Transfers operation)
    (hreadable : Readable cursor.mmu cursor.pc
      ((opcode.describedTail prefixes).length cursor.mmu cursor.pc))
    (hsmallest : ¬opcode.MovesSmallest prefixes cursor.mmu cursor.pc) :
    ∃ text, opcode.describe state cursor = .ok text (cursor.advance
      ((opcode.describedTail prefixes).length cursor.mmu cursor.pc)) := by
  cases hoperand : opcode.WithoutOperand with
  | false =>
      rcases exists_operandRest hrun hoperand with ⟨rest, hrest⟩
      exact hrest.describes hmatches cursor hreadable
  | true =>
      cases opcode with
      | oneByte byte =>
          by_cases hmov : 0xb0 ≤ byte ∧ byte ≤ 0xbf
          · exact describes_mov hmatches hmov hreadable hsmallest
          · exact describes_oneByte hmatches hoperand (fun h => hescape (h ▸ rfl)) hmov htransfer
              cursor hreadable
      | twoByte byte => exact describes_twoByte hoperand htransfer cursor hreadable

end SoftCPU64

end LUE
