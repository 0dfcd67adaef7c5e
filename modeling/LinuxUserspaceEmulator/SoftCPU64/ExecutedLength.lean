import LinuxUserspaceEmulator.SoftCPU64.InstructionLength
import LinuxUserspaceEmulator.SoftCPU64.RestPositions

/-!
# The bytes an instruction executes over

Behind its opcode the executor fetches the tail of an instruction, a ModRM byte with its operand
or nothing of the kind, and an immediate.  A table gives the tail of every opcode.  An instruction
that returns, and transfers no control, has moved the decoder over its tail.

Main results:

- Theorem `OperandRest.consumed`: the instructions with an operand.
- Theorem `Opcode.consumed_execute`: every instruction that transfers no control.
-/

namespace LUE

open StateExcept

namespace SoftCPU64

/-! ## Tails -/

/-- The tail of an opcode, as the executor fetches it. -/
def Opcode.tail (prefixes : Prefixes) : Opcode → Tail
  | oneByte byte =>
      let width := operandWidth prefixes
      if byte ≤ 0x3d ∧ byte &&& 7 ≤ 5 then
        if byte &&& 7 ≤ 3 then .operand fun _ => 0
        else .plain (if byte &&& 7 = 4 then 1 else immediateBytes width)
      else if (0x50 ≤ byte ∧ byte ≤ 0x5f) ∨ (0x90 ≤ byte ∧ byte ≤ 0x97) then .plain 0
      else if 0xb0 ≤ byte ∧ byte ≤ 0xb7 then .plain 1
      else if 0xb8 ≤ byte ∧ byte ≤ 0xbf then .plain width.bytes
      else
        match byte.toNat with
        | 0x68 | 0xa9 => .plain 4
        | 0x6a | 0xa8 => .plain 1
        | 0x63 | 0x84 | 0x85 | 0x87 | 0x88 | 0x89 | 0x8a | 0x8b | 0x8d | 0x8f
        | 0xd0 | 0xd1 | 0xd2 | 0xd3
        | 0xd8 | 0xd9 | 0xda | 0xdb | 0xdc | 0xdd | 0xde | 0xdf | 0xff => .operand fun _ => 0
        | 0x6b | 0x80 | 0x83 | 0xc0 | 0xc1 | 0xc6 => .operand fun _ => 1
        | 0x69 => .operand fun _ => 4
        | 0x81 | 0xc7 => .operand fun _ => immediateBytes width
        | 0xf6 => .operand fun operation => if operation = 0 then 1 else 0
        | 0xf7 => .operand fun operation => if operation = 0 then immediateBytes width else 0
        | _ => .plain 0
  | twoByte byte =>
      if (0xc8 ≤ byte ∧ byte ≤ 0xcf) ∨ byte = 0x31 ∨ byte = 0xa2 then .plain 0
      else if byte = 0x1e then .plain 1
      else .operand fun _ => if byte ∈ selectorOpcodes then 1 else 0

/-- The jumps, calls and returns, by the operation field of the byte behind the opcode, and the
system call. -/
def Opcode.Transfers (operation : Nat) : Opcode → Prop
  | oneByte byte =>
      (0x70 ≤ byte ∧ byte ≤ 0x7f) ∨
        byte ∈ ([0xc2, 0xc3, 0xe0, 0xe1, 0xe2, 0xe3, 0xe8, 0xe9, 0xeb] : List U8) ∨
        byte = 0xff ∧ 2 ≤ operation ∧ operation ≤ 5
  | twoByte byte => byte = 0x05 ∨ (0x80 ≤ byte ∧ byte ≤ 0x8f)

variable {host : Host} {prefixes : Prefixes} {opcode : Opcode} {byte : U8}
  {rest : ModRM → Operand → EmulatorProgram Unit}

theorem immediateBytes_pos (width : Width) : 0 < immediateBytes width := by
  cases width <;> decide

theorem immediateBytes_le (width : Width) : immediateBytes width ≤ 4 := by
  cases width <;> decide

/-- The tails are short. -/
theorem Opcode.tail_length_le (prefixes : Prefixes) (opcode : Opcode) (mmu : SoftMMU)
    (address : U64) : (opcode.tail prefixes).length mmu address ≤ 14 := by
  have himmediate := immediateBytes_le (operandWidth prefixes)
  have hbytes := (operandWidth prefixes).bytes_le
  have hoperand := operandLength_le (modrmAt mmu address) (byteAt mmu (address + 1))
  cases opcode with
  | oneByte byte =>
      unfold tail
      dsimp only
      repeat' split
      all_goals simp only [Tail.length]
      all_goals try split
      all_goals omega
  | twoByte byte =>
      unfold tail
      repeat' split
      all_goals simp only [Tail.length]
      all_goals try split
      all_goals omega

/-! ## Immediates behind an operand -/

theorem advances_aluImm (h : byte = 0x80 ∨ byte = 0x81 ∨ byte = 0x83) :
    Advances ((Opcode.oneByte byte).tail prefixes) (executeAluImm byte prefixes) := by
  have hafter : ∀ (modrm : ModRM) (operand : Operand) (width : Width) (imm : U64),
      KeepsPosition (readOperand operand width prefixes >>= fun lhs =>
        executeOperation modrm.operation lhs imm width (maskForWidth width) fun result =>
          writeOperand operand width result prefixes) := fun modrm operand width imm =>
    (keepsPosition_readOperand _ _ _).bind fun _ =>
      keepsPosition_executeOperation _ _ _ _ _ fun _ => keepsPosition_writeOperand _ _ _ _
  rcases h with rfl | rfl | rfl
  · exact advances_operand fun modrm operand =>
      (fetches_fetchImmediate .w8).bind_keeps fun imm => hafter modrm operand _ imm
  · exact advances_operand fun modrm operand =>
      (fetches_fetchImmediate _).bind_keeps fun imm => hafter modrm operand _ imm
  · exact advances_operand fun modrm operand =>
      fetches_fetch8.bind_keeps fun imm => hafter modrm operand _ _

theorem advances_imulImmediate (h : byte = 0x69 ∨ byte = 0x6b) :
    Advances ((Opcode.oneByte byte).tail prefixes) (executeImulImmediate byte prefixes) := by
  have hafter : ∀ (modrm : ModRM) (lhs : U64) (imm : Int), KeepsPosition (do
      let width := operandWidth prefixes
      let product := signedOperand lhs width * imm
      writeGpr modrm.reg width (BitVec.ofInt 64 product) prefixes
      let overflow := product != signedOperand (BitVec.ofInt 64 product) width
      modifyCPU fun cpu => (cpu.setFlag CF overflow).setFlag OF overflow) := fun modrm lhs imm =>
    (keepsPosition_writeGpr _ _ _ _).bind fun _ => KeepsPosition.modifyCPU fun _ => rfl
  rcases h with rfl | rfl
  · exact advances_operand fun modrm operand => (fetches_readOperand _ _ _).after_advances
      fun lhs => (fetches_fetchInteger 4).bind_keeps fun value => hafter modrm lhs _
  · exact advances_operand fun modrm operand => (fetches_readOperand _ _ _).after_advances
      fun lhs => fetches_fetch8.bind_keeps fun value => hafter modrm lhs _

theorem advances_movOperandImmediate (h : byte = 0xc6 ∨ byte = 0xc7) :
    Advances ((Opcode.oneByte byte).tail prefixes) (executeMovOperandImmediate byte prefixes) := by
  rcases h with rfl | rfl
  · exact advances_group fun modrm operand =>
      (fetches_fetchImmediate .w8).bind_keeps fun imm => keepsPosition_writeOperand _ _ _ _
  · exact advances_group fun modrm operand =>
      (fetches_fetchImmediate _).bind_keeps fun imm => keepsPosition_writeOperand _ _ _ _

theorem advances_shiftGroup (h : byte ∈ ([0xc0, 0xc1, 0xd0, 0xd1, 0xd2, 0xd3] : List U8)) :
    Advances ((Opcode.oneByte byte).tail prefixes) (executeShiftGroup byte prefixes) := by
  have hafter : ∀ (modrm : ModRM) (operand : Operand) (width : Width) (count : Nat),
      KeepsPosition (do
        if count ≠ 0 then
          let value ← readOperand operand width prefixes
          let result ← shiftResult modrm.operation value count width
          modifyCPU fun cpu => cpu.setLogicFlags result width
          writeOperand operand width result prefixes) := fun modrm operand width count =>
    KeepsPosition.ite (fun _ => (keepsPosition_readOperand _ _ _).bind fun _ =>
      (keepsPosition_shiftResult _ _ _ _).bind fun _ => (keepsPosition_setLogicFlags _ _).bind
        fun _ => keepsPosition_writeOperand _ _ _ _) fun _ => KeepsPosition.pure _
  fin_cases h
  · exact advances_operand fun modrm operand => fetches_fetch8.bind_keeps fun imm =>
      hafter modrm operand .w8 _
  · exact advances_operand fun modrm operand => fetches_fetch8.bind_keeps fun imm =>
      hafter modrm operand _ _
  · exact advances_operand fun modrm operand => (hafter modrm operand .w8 1).advances
  · exact advances_operand fun modrm operand => (hafter modrm operand _ 1).advances
  · exact advances_operand fun modrm operand => fetches_getCPU.bind_keeps fun cpu =>
      hafter modrm operand .w8 _
  · exact advances_operand fun modrm operand => fetches_getCPU.bind_keeps fun cpu =>
      hafter modrm operand _ _

/-- `TEST` is the one operation of its group with an immediate. -/
theorem advances_groupF6F7_rest {width : Width} {count : Nat} {modrm : ModRM}
    (hwidth : width = if byte = 0xf6 then .w8 else operandWidth prefixes)
    (htest : modrm.operation = 0 → count = immediateBytes width)
    (hother : modrm.operation ≠ 0 → count = 0) (operand : Operand) :
    Advances (.plain count) ((groupF6F7Form byte prefixes).rest modrm operand) := by
  have hflags : ∀ imm, KeepsPosition (do
      let value ← readOperand operand width prefixes
      modifyCPU fun cpu => cpu.setLogicFlags (value &&& imm) width) := fun imm =>
    (keepsPosition_readOperand _ _ _).bind fun _ => keepsPosition_setLogicFlags _ _
  dsimp only [groupF6F7Form, OperandForm.ofSequence]
  rw [← hwidth]
  split
  · rename_i hoperation
    rw [htest hoperation]
    cases width with
    | w8 => exact fetches_fetch8.bind_keeps fun imm => hflags _
    | w16 => exact (fetches_fetchInteger 2).bind_keeps hflags
    | w32 => exact (fetches_fetchInteger 4).bind_keeps hflags
    | w64 => exact (fetches_fetchInteger 4).bind_keeps hflags
  all_goals try rename_i hoperation; rw [hother (by omega)]
  · exact ((keepsPosition_readOperand _ _ _).bind fun _ =>
      keepsPosition_writeOperand _ _ _ _).advances
  · exact ((keepsPosition_readOperand _ _ _).bind fun _ =>
      (keepsPosition_sub _ _ _ _).bind fun _ => keepsPosition_writeOperand _ _ _ _).advances
  · exact (keepsPosition_executeMul operand width).advances
  · exact (keepsPosition_executeImul operand width).advances
  · exact (keepsPosition_executeDiv operand width).advances
  · exact (keepsPosition_executeIdiv operand width).advances
  · exact Advances.of_raises (unsupported_ne_ok _)

theorem advances_groupF6F7 (h : byte = 0xf6 ∨ byte = 0xf7) :
    Advances ((Opcode.oneByte byte).tail prefixes) (executeGroupF6F7 byte prefixes) := by
  rcases h with rfl | rfl
  · apply advances_operand
    exact fun modrm => advances_groupF6F7_rest rfl (fun h => if_pos h) fun h => if_neg h
  · apply advances_operand
    exact fun modrm => advances_groupF6F7_rest rfl (fun h => if_pos h) fun h => if_neg h

theorem advances_doubleShift (h : byte ∈ ([0xa4, 0xa5, 0xac, 0xad] : List U8)) :
    Advances ((Opcode.twoByte byte).tail prefixes) (executeDoubleShift byte prefixes) := by
  have hafter : ∀ (operand : Operand) (width : Width) (result : U64) (carry : Bool) (count : Nat),
      KeepsPosition (do
        if count ≠ 0 then
          writeOperand operand width result prefixes
          modifyCPU fun cpu => cpu.setLogicFlags result width
          modifyCPU fun cpu => { cpu.setFlag CF carry with flagsTainted := cpu.currentTaint }) :=
    fun operand width result carry count => KeepsPosition.ite
      (fun _ => (keepsPosition_writeOperand _ _ _ _).bind fun _ =>
        (keepsPosition_setLogicFlags _ _).bind fun _ => KeepsPosition.modifyCPU fun _ => rfl)
      fun _ => KeepsPosition.pure _
  fin_cases h
  all_goals
    refine advances_operand fun modrm operand => (fetches_readOperand _ _ _).after_advances fun _ =>
      (fetches_readGpr _ _ _).after_advances fun _ => ?_
  -- two of the opcodes fetch their count, the other two read it from `CL`
  · exact fetches_fetch8.bind_keeps fun _ => hafter operand _ _ _ _
  · exact (fetches_readGpr _ _ _).bind_keeps fun _ => hafter operand _ _ _ _
  · exact fetches_fetch8.bind_keeps fun _ => hafter operand _ _ _ _
  · exact (fetches_readGpr _ _ _).bind_keeps fun _ => hafter operand _ _ _ _

theorem advances_groupBa :
    Advances ((Opcode.twoByte 0xba).tail prefixes) (executeGroupBa prefixes) :=
  advances_operand fun _ _ => fetches_fetch8.bind_keeps fun _ =>
    (keepsPosition_readOperand _ _ _).bind fun _ => (keepsPosition_setBitFlag _ _).bind
      fun _ => KeepsPosition.ite (fun _ => keepsPosition_writeOperand _ _ _ _) fun _ =>
        KeepsPosition.pure _

theorem advances_selected (f : U8 → Xmm → Xmm → Xmm) :
    Advances (.operand fun _ => 1) (selectedOperation prefixes f) :=
  advances_operand fun _ _ => fetches_fetch8.bind_keeps fun _ =>
    (keepsPosition_readXmmLow _ _).bind fun _ => keepsPosition_modifyXmm _ _

theorem advances_byteShift :
    Advances ((Opcode.twoByte 0x73).tail prefixes) (executeByteShift prefixes) := by
  refine advances_operand fun modrm operand => fetches_fetch8.bind_keeps fun count => ?_
  cases operand with
  | memory decoded => exact keepsPosition_unsupported _
  | register register =>
      exact KeepsPosition.ite (fun _ => keepsPosition_modifyXmm _ _) fun _ =>
        keepsPosition_unsupported _

/-! ## Operands that are not read -/

theorem advances_lea : Advances ((Opcode.oneByte 0x8d).tail prefixes) (executeLea prefixes) :=
  advances_address (fun _ => keepsPosition_unsupported _) fun _ _ => keepsPosition_writeGpr _ _ _ _

theorem keepsPosition_fxsave (address : U64) : KeepsPosition (fxsave address) :=
  KeepsPosition.getCPU.bind fun _ => KeepsPosition.onMMU _

theorem keepsPosition_loadMxcsr (address : U64) : KeepsPosition (loadMxcsr address) :=
  (KeepsPosition.readMMU _).bind fun _ => KeepsPosition.modifyCPU fun _ => rfl

theorem keepsPosition_fxrstor (address : U64) : KeepsPosition (fxrstor address) :=
  (keepsPosition_loadMxcsr _).bind fun _ => KeepsPosition.forOffsets (fun _ =>
    KeepsPosition.forOffsets (fun _ => (KeepsPosition.readMMU _).bind fun _ =>
      keepsPosition_modifyXmm _ _) 16) 16

theorem advances_groupAe :
    Advances ((Opcode.twoByte 0xae).tail prefixes) (executeGroupAe prefixes) := by
  refine advances_address (fun modrm => KeepsPosition.ite (fun _ => KeepsPosition.pure _) fun _ =>
    keepsPosition_unsupported _) fun modrm decoded => (keepsPosition_effectiveAddress _).bind
      fun address => ?_
  split
  · exact keepsPosition_fxsave address
  · exact keepsPosition_fxrstor address
  · exact KeepsPosition.getCPU.bind fun _ => KeepsPosition.onMMU _
  · exact keepsPosition_loadMxcsr address
  · exact keepsPosition_unsupported _

/-- The hints pass over their operand. -/
theorem advances_hint : Advances (.operand fun _ => 0) (executeHint prefixes) := by
  refine fun _ _ _ => consumed_modrm fun modrm _ middle hrun => ?_
  unfold operandLength
  split at hrun
  · rename_i hmemory
    have hmod : modrm.mod ≠ 3 := by
      rw [ModRM.isRegister, Bool.not_eq_true', beq_eq_false_iff_ne] at hmemory
      exact hmemory
    rw [if_neg hmod]
    rcases bind_eq_ok_iff.mp hrun with ⟨address, after, haddress, hlast⟩
    rcases fetchesFrom_decodeMemoryAddress prefixes modrm haddress with ⟨hconsumed, hregions⟩
    exact hconsumed.trans hregions ((KeepsPosition.pure ()).consumed hlast)
  · rename_i hregister
    have hmod : modrm.mod = 3 := by
      rw [ModRM.isRegister, Bool.not_eq_true', Bool.not_eq_false, beq_iff_eq] at hregister
      exact hregister
    rw [if_pos hmod]
    exact (KeepsPosition.pure ()).consumed hrun

/-! ## Instructions with an operand -/

/-- An instruction that fetches nothing after its operand. -/
theorem advances_keeping {rest : ModRM → Operand → EmulatorProgram Unit}
    (hrest : ∀ modrm operand, KeepsPosition (rest modrm operand)) :
    Advances (.operand fun _ => 0) (do
      let modrm ← fetchModrm prefixes
      let operand ← decodeRmOperand prefixes modrm
      rest modrm operand) :=
  advances_operand fun modrm operand => (hrest modrm operand).advances

theorem consumed_groupFf {emulator after : Emulator}
    (h : executeGroupFf prefixes emulator = .ok () after)
    (hoperation : ¬(2 ≤ (modrmAt emulator.mmu emulator.cpu.decodePc).operation ∧
      (modrmAt emulator.mmu emulator.cpu.decodePc).operation ≤ 5)) :
    Consumed ((Tail.operand fun _ => 0).length emulator.mmu emulator.cpu.decodePc)
      emulator after := by
  have hcount : ∀ (operation : Nat) (width : Width) (value : U64), KeepsPosition (onCPU fun cpu =>
      if operation = 0 then cpu.add value 1 width false else cpu.sub value 1 width false) := by
    refine fun operation width value => KeepsPosition.onCPU fun cpu => ?_
    split
    · exact decodePc_add _ _ _ _ _
    · exact decodePc_sub _ _ _ _ _
  refine consumed_modrm (fun modrm hsame middle => consumed_operand fun operand => ?_) h
  rw [← hsame] at hoperation
  refine KeepsPosition.advances ?_
  split
  iterate 2
    exact (keepsPosition_readOperand _ _ _).bind fun value => KeepsPosition.getCPU.bind fun _ =>
      (hcount _ _ value).bind fun _ => KeepsPosition.bind (KeepsPosition.modifyCPU fun _ => rfl)
        fun _ => keepsPosition_writeOperand _ _ _ _
  · rename_i hcall
    omega
  · rename_i hjump
    omega
  · exact (keepsPosition_readOperand _ _ _).bind fun _ => KeepsPosition.getCPU.bind fun _ =>
      keepsPosition_push64 _ _
  · exact keepsPosition_unsupported _

/-- The opcodes behind `0F` that have no operand are in three ranges. -/
theorem tail_twoByte (h : ¬((0xc8 ≤ byte ∧ byte ≤ 0xcf) ∨ byte = 0x31 ∨ byte = 0xa2))
    (hhint : byte ≠ 0x1e) :
    (Opcode.twoByte byte).tail prefixes =
      .operand fun _ => if byte ∈ selectorOpcodes then 1 else 0 := by
  rw [Opcode.tail, if_neg h, if_neg hhint]

/-- The conditional opcodes have an operand and no immediate. -/
theorem tail_conditional (h : (0x90 ≤ byte ∧ byte ≤ 0x9f) ∨ (0x40 ≤ byte ∧ byte ≤ 0x4f)) :
    (Opcode.twoByte byte).tail prefixes = .operand fun _ => 0 := by
  have hranges : ∀ byte : U8, (0x90 ≤ byte ∧ byte ≤ 0x9f) ∨ (0x40 ≤ byte ∧ byte ≤ 0x4f) →
      ¬((0xc8 ≤ byte ∧ byte ≤ 0xcf) ∨ byte = 0x31 ∨ byte = 0xa2) ∧ byte ≠ 0x1e ∧
        byte ∉ selectorOpcodes := by
    decide
  rcases hranges byte h with ⟨hplain, hhint, hselector⟩
  rw [tail_twoByte hplain hhint]
  simp only [if_neg hselector]

/-- The packed integer opcodes have an operand. -/
theorem tail_of_packedInteger {program : EmulatorProgram Unit}
    (h : packedInteger byte prefixes = some program) :
    (Opcode.twoByte byte).tail prefixes =
      .operand fun _ => if byte ∈ selectorOpcodes then 1 else 0 := by
  have hself : byte = BitVec.ofNat 8 byte.toNat := by simp
  unfold packedInteger at h
  split at h
  all_goals first
    | cases h
      rename_i hbyte
      rw [hbyte] at hself
      subst hself
      rfl
    | cases h

theorem tail_of_isSseFloat (h : isSseFloat byte = true) :
    (Opcode.twoByte byte).tail prefixes = .operand fun _ => 0 := by
  have hmem := of_decide_eq_true h
  fin_cases hmem <;> rfl

/-- An instruction with an operand has moved the decoder over its tail. -/
theorem OperandRest.consumed (h : OperandRest host prefixes opcode rest) {emulator after : Emulator}
    (hrun : opcode.execute host prefixes emulator = .ok () after)
    (htransfer : ¬opcode.Transfers (modrmAt emulator.mmu emulator.cpu.decodePc).operation) :
    Consumed ((opcode.tail prefixes).length emulator.mmu emulator.cpu.decodePc)
      emulator after := by
  cases h with
  | aluRmReg h =>
      rw [Opcode.execute, execute_of_aluRmReg h] at hrun
      rw [Opcode.tail, if_pos ⟨h.1, BitVec.le_trans h.2 (by decide)⟩, if_pos h.2]
      exact advances_keeping (keepsPosition_aluRmReg _) hrun
  | movsxd => exact advances_keeping keepsPosition_movsxd hrun
  | imulImmediate h =>
      have hadvances := @advances_imulImmediate prefixes _ h
      rcases h with rfl | rfl <;> exact hadvances hrun
  | aluImm h =>
      have hadvances := @advances_aluImm prefixes _ h
      rcases h with rfl | rfl | rfl <;> exact hadvances hrun
  | test h => rcases h with rfl | rfl <;> exact advances_keeping (keepsPosition_test _) hrun
  | xchg => exact advances_keeping keepsPosition_xchg hrun
  | movStore h =>
      rcases h with rfl | rfl <;> exact advances_keeping (keepsPosition_movStore _) hrun
  | movLoad h =>
      rcases h with rfl | rfl <;> exact advances_keeping (keepsPosition_movLoad _) hrun
  | lea => exact advances_lea hrun
  | popOperand =>
      have hadvances : Advances (.operand fun _ => 0) (executePopOperand prefixes) :=
        advances_group fun modrm operand => (keepsPosition_popOperand modrm operand).advances
      exact hadvances hrun
  | shiftGroup h =>
      have hadvances := @advances_shiftGroup prefixes _ h
      fin_cases h <;> exact hadvances hrun
  | movOperandImmediate h =>
      have hadvances := @advances_movOperandImmediate prefixes _ h
      rcases h with rfl | rfl <;> exact hadvances hrun
  | x87 h => fin_cases h <;> exact advances_keeping (@keepsPosition_x87 prefixes host _) hrun
  | groupF6F7 h =>
      have hadvances := @advances_groupF6F7 prefixes _ h
      rcases h with rfl | rfl <;> exact hadvances hrun
  | groupFf => exact consumed_groupFf hrun fun h => htransfer (Or.inr (Or.inr ⟨rfl, h⟩))
  | setcc h =>
      rw [Opcode.execute, executeTwoByte_of_setcc h] at hrun
      rw [tail_conditional (Or.inl h)]
      exact advances_keeping (keepsPosition_setcc _) hrun
  | cmovcc h =>
      rw [Opcode.execute, executeTwoByte_of_cmovcc h] at hrun
      rw [tail_conditional (Or.inr h)]
      exact advances_keeping (keepsPosition_cmovcc _) hrun
  | hint h => fin_cases h <;> exact advances_hint hrun
  | bitString h => fin_cases h <;> exact advances_keeping (keepsPosition_bitString _) hrun
  | doubleShift h =>
      have hadvances := @advances_doubleShift prefixes _ h
      fin_cases h <;> exact hadvances hrun
  | groupAe => exact advances_groupAe hrun
  | imulRegister => exact advances_keeping keepsPosition_imulRegister hrun
  | cmpxchg h =>
      rcases h with rfl | rfl <;> exact advances_keeping (keepsPosition_cmpxchg _) hrun
  | extend h => fin_cases h <;> exact advances_keeping (keepsPosition_extend _) hrun
  | groupBa => exact advances_groupBa hrun
  | bitScan h =>
      rcases h with rfl | rfl <;> exact advances_keeping (keepsPosition_bitScan _) hrun
  | xadd h => rcases h with rfl | rfl <;> exact advances_keeping (keepsPosition_xadd _) hrun
  | movnti => exact advances_keeping keepsPosition_movnti hrun
  | packed h hselector =>
      rw [Opcode.execute, executeTwoByte_of_packedInteger h] at hrun
      rw [tail_of_packedInteger h]
      simp only [if_neg hselector]
      exact advances_keeping (@keepsPosition_packed prefixes _) hrun
  | selected h hselector =>
      rw [Opcode.execute, executeTwoByte_of_packedInteger h] at hrun
      rw [tail_of_packedInteger h]
      simp only [if_pos hselector]
      exact advances_selected _ hrun
  | storeXmm h =>
      rcases h with rfl | rfl | rfl
      all_goals exact advances_keeping (@keepsPosition_storeXmm prefixes) hrun
  | loadXmm => exact advances_keeping keepsPosition_loadXmm hrun
  | byteShift => exact advances_byteShift hrun
  | movq => exact advances_keeping keepsPosition_movq hrun
  | storeLow => exact advances_keeping keepsPosition_storeLow hrun
  | pmovmskb => exact advances_keeping keepsPosition_pmovmskb hrun
  | sseFloat h =>
      rw [Opcode.execute, executeTwoByte_of_isSseFloat h] at hrun
      rw [tail_of_isSseFloat h]
      exact advances_keeping (keepsPosition_sseFloat host _) hrun

/-! ## Instructions without an operand -/

/-- The accumulator forms fetch their immediate after they have read the accumulator. -/
theorem advances_aluAccumulator (h : byte &&& 7 = 4 ∨ byte &&& 7 = 5) :
    Advances (.plain (if byte &&& 7 = 4 then 1 else immediateBytes (operandWidth prefixes)))
      (executeAluAccumulator byte prefixes) := by
  have hafter : ∀ (lhs imm : U64) (width : Width), KeepsPosition
      (executeOperation (byte >>> 3).toNat lhs imm width (BitVec.allOnes 64) fun result =>
        writeGpr .rax width result prefixes) := fun lhs imm width =>
    keepsPosition_executeOperation _ _ _ _ _ fun _ => keepsPosition_writeGpr _ _ _ _
  unfold executeAluAccumulator
  rcases h with hbyte | hfull
  · have hform : (byte &&& 7).toNat = 4 := by rw [hbyte]; rfl
    simp only [if_pos hbyte, if_pos hform]
    exact (fetches_readGpr _ _ _).after_advances fun lhs => fetches_fetch8.bind_keeps fun imm =>
      hafter lhs _ _
  · have hform : ¬(byte &&& 7).toNat = 4 := by rw [hfull]; decide
    have hbyte : ¬byte &&& 7 = 4 := by rw [hfull]; decide
    simp only [if_neg hbyte, if_neg hform]
    refine (fetches_readGpr _ _ _).after_advances fun lhs => Advances.ite (fun hwidth => ?_)
      fun hwidth => ?_
    · rw [hwidth]
      exact (fetches_fetchInteger 2).bind_keeps fun imm => hafter lhs imm _
    · have hcount : immediateBytes (operandWidth prefixes) = 4 := immediateBytes_of_ne_w16 hwidth
      rw [hcount]
      exact (fetches_fetchInteger 4).bind_keeps fun imm => hafter lhs _ _

theorem keepsPosition_xchgShort (opcode : U8) :
    KeepsPosition (executeXchgShort opcode prefixes) :=
  KeepsPosition.ite (fun _ => KeepsPosition.pure _) fun _ => KeepsPosition.modifyCPU fun _ => rfl

theorem keepsPosition_cdqe : KeepsPosition (executeCdqe prefixes) :=
  KeepsPosition.ite (fun _ => (keepsPosition_readGpr _ _ _).bind fun _ =>
    KeepsPosition.modifyCPU fun _ => rfl) fun _ => (keepsPosition_readGpr _ _ _).bind fun _ =>
      keepsPosition_writeGpr _ _ _ _

theorem keepsPosition_cqo : KeepsPosition (executeCqo prefixes) :=
  KeepsPosition.ite (fun _ => (keepsPosition_readGpr _ _ _).bind fun _ =>
    KeepsPosition.modifyCPU fun _ => rfl) fun _ => (keepsPosition_readGpr _ _ _).bind fun _ =>
      keepsPosition_writeGpr _ _ _ _

theorem advances_testAccumulator (h : byte = 0xa8 ∨ byte = 0xa9) :
    Advances ((Opcode.oneByte byte).tail prefixes) (executeTestAccumulator byte prefixes) := by
  rcases h with rfl | rfl
  · exact (fetches_readGpr _ _ _).after_advances fun _ => fetches_fetch8.bind_keeps fun _ =>
      keepsPosition_setLogicFlags _ _
  · exact (fetches_readGpr _ _ _).after_advances fun _ => (fetches_fetchInteger 4).bind_keeps
      fun _ => keepsPosition_setLogicFlags _ _

theorem advances_pushImmediate (h : byte = 0x68 ∨ byte = 0x6a) :
    Advances ((Opcode.oneByte byte).tail prefixes) (executePushImmediate byte) := by
  rcases h with rfl | rfl
  · exact (fetches_fetchInteger 4).bind_keeps fun _ => keepsPosition_push64 _ _
  · exact fetches_fetch8.bind_keeps fun _ => keepsPosition_push64 _ _

theorem keepsPosition_leave : KeepsPosition executeLeave :=
  KeepsPosition.bind (KeepsPosition.modifyCPU fun _ => rfl) fun _ => keepsPosition_popInto _

theorem keepsPosition_setFlag (flagValue : U64) (value : Bool) :
    KeepsPosition (modifyCPU fun cpu => cpu.setFlag flagValue value) :=
  KeepsPosition.modifyCPU fun _ => rfl

theorem keepsPosition_rdtsc (now : U64) : KeepsPosition (executeRdtsc now) :=
  KeepsPosition.modifyCPU fun _ => rfl

theorem keepsPosition_cpuid : KeepsPosition executeCpuid :=
  KeepsPosition.modifyCPU fun _ => rfl

/-- The opcodes with a register number have nothing but their immediate behind them. -/
theorem consumed_stack {emulator after : Emulator} (h : 0x50 ≤ byte ∧ byte ≤ 0x5f)
    (hrun : execute host prefixes byte emulator = .ok () after) :
    Consumed (((Opcode.oneByte byte).tail prefixes).length emulator.mmu emulator.cpu.decodePc)
      emulator after := by
  rw [Opcode.tail, if_neg (not_arithmetic (by bv_omega)), if_pos (Or.inl h)]
  by_cases hpush : byte ≤ 0x57
  · rw [execute_of_push ⟨h.1, hpush⟩] at hrun
    exact (KeepsPosition.getCPU.bind fun _ => keepsPosition_push64 _ _).consumed hrun
  · rw [execute_of_pop ⟨by bv_omega, h.2⟩] at hrun
    exact (keepsPosition_popInto _).consumed hrun

theorem consumed_xchgShort {emulator after : Emulator} (h : 0x90 ≤ byte ∧ byte ≤ 0x97)
    (hrun : execute host prefixes byte emulator = .ok () after) :
    Consumed (((Opcode.oneByte byte).tail prefixes).length emulator.mmu emulator.cpu.decodePc)
      emulator after := by
  rw [execute_of_xchgShort h] at hrun
  rw [Opcode.tail, if_neg (not_arithmetic (by bv_omega)), if_pos (Or.inr h)]
  exact (keepsPosition_xchgShort byte).consumed hrun

theorem tail_of_mov (h : 0xb0 ≤ byte ∧ byte ≤ 0xbf) :
    (Opcode.oneByte byte).tail prefixes =
      if byte ≤ 0xb7 then .plain 1 else .plain (operandWidth prefixes).bytes := by
  have hplain : ¬((0x50 ≤ byte ∧ byte ≤ 0x5f) ∨ (0x90 ≤ byte ∧ byte ≤ 0x97)) := by bv_omega
  rw [Opcode.tail, if_neg (not_arithmetic (by bv_omega)), if_neg hplain]
  by_cases hlow : byte ≤ 0xb7
  · rw [if_pos ⟨h.1, hlow⟩, if_pos hlow]
  · rw [if_neg fun hle => hlow hle.2, if_pos ⟨by bv_omega, h.2⟩, if_neg hlow]

theorem consumed_movImmediate {emulator after : Emulator} (h : 0xb0 ≤ byte ∧ byte ≤ 0xbf)
    (hrun : execute host prefixes byte emulator = .ok () after) :
    Consumed (((Opcode.oneByte byte).tail prefixes).length emulator.mmu emulator.cpu.decodePc)
      emulator after := by
  rw [execute_of_movImmediate h, executeMovImmediate] at hrun
  rw [tail_of_mov h]
  by_cases hlow : byte ≤ 0xb7
  · rw [if_pos hlow] at hrun ⊢
    exact fetches_fetch8.bind_keeps (fun _ => keepsPosition_writeGpr _ _ _ _) hrun
  · rw [if_neg hlow] at hrun ⊢
    exact (fetches_fetchInteger _).bind_keeps (fun _ => keepsPosition_writeGpr _ _ _ _) hrun

/-- An instruction of one byte without an operand has moved the decoder over its tail. -/
theorem consumed_oneByte {emulator after : Emulator}
    (hoperand : (Opcode.oneByte byte).WithoutOperand = true) (hescape : byte ≠ 0x0f)
    (hrun : (Opcode.oneByte byte).execute host prefixes emulator = .ok () after)
    (htransfer : ¬(Opcode.oneByte byte).Transfers
      (modrmAt emulator.mmu emulator.cpu.decodePc).operation) :
    Consumed (((Opcode.oneByte byte).tail prefixes).length emulator.mmu emulator.cpu.decodePc)
      emulator after := by
  change execute host prefixes byte emulator = _ at hrun
  rcases of_decide_eq_true hoperand with ⟨hle, hform⟩ | hstack | hjcc | hxchg | hmov | hmem
  · have hle5 : byte &&& 7 ≤ 5 := by rcases hform with h | h <;> rw [h] <;> decide
    have hnot3 : ¬byte &&& 7 ≤ 3 := by rcases hform with h | h <;> rw [h] <;> decide
    rw [execute_of_aluAccumulator ⟨hle, hle5⟩ hnot3] at hrun
    rw [Opcode.tail, if_pos ⟨hle, hle5⟩, if_neg hnot3]
    exact advances_aluAccumulator hform hrun
  · exact consumed_stack hstack hrun
  · exact absurd (Or.inl hjcc) htransfer
  · exact consumed_xchgShort hxchg hrun
  · exact consumed_movImmediate hmov hrun
  · fin_cases hmem
    all_goals first
      | exact absurd rfl hescape
      | exact absurd (Or.inr (Or.inl (by decide))) htransfer
      | exact advances_pushImmediate (by decide) hrun
      | exact keepsPosition_cdqe.consumed hrun
      | exact keepsPosition_cqo.consumed hrun
      | exact (keepsPosition_executeStringInstruction _).consumed hrun
      | exact advances_testAccumulator (by decide) hrun
      | exact keepsPosition_leave.consumed hrun
      | exact (keepsPosition_setFlag _ _).consumed hrun

/-- So has one behind `0F`. -/
theorem consumed_twoByte {emulator after : Emulator}
    (hoperand : (Opcode.twoByte byte).WithoutOperand = true)
    (hrun : (Opcode.twoByte byte).execute host prefixes emulator = .ok () after)
    (htransfer : ¬(Opcode.twoByte byte).Transfers
      (modrmAt emulator.mmu emulator.cpu.decodePc).operation) :
    Consumed (((Opcode.twoByte byte).tail prefixes).length emulator.mmu emulator.cpu.decodePc)
      emulator after := by
  change executeTwoByte host byte prefixes emulator = _ at hrun
  rcases of_decide_eq_true hoperand with hjcc | hbswap | hmem
  · exact absurd (Or.inr hjcc) htransfer
  · rw [executeTwoByte_of_bswap hbswap] at hrun
    rw [Opcode.tail, if_pos (Or.inl hbswap)]
    exact ((keepsPosition_readGpr _ _ _).bind fun _ =>
      keepsPosition_writeGpr _ _ _ _).consumed hrun
  · fin_cases hmem
    · exact absurd (Or.inl rfl) htransfer
    · exact fetches_fetch8.bind_keeps (fun _ => KeepsPosition.pure ()) hrun
    · exact (keepsPosition_rdtsc host.steadyClock).consumed hrun
    · exact keepsPosition_cpuid.consumed hrun

/-- Every instruction that transfers no control has moved the decoder over its tail. -/
theorem Opcode.consumed_execute {emulator after : Emulator}
    (hescape : opcode ≠ .oneByte 0x0f)
    (hrun : opcode.execute host prefixes emulator = .ok () after)
    (htransfer : ¬opcode.Transfers (modrmAt emulator.mmu emulator.cpu.decodePc).operation) :
    Consumed ((opcode.tail prefixes).length emulator.mmu emulator.cpu.decodePc)
      emulator after := by
  cases hoperand : opcode.WithoutOperand with
  | false =>
      rcases exists_operandRest hrun hoperand with ⟨rest, hrest⟩
      exact hrest.consumed hrun htransfer
  | true =>
      cases opcode with
      | oneByte byte =>
          exact consumed_oneByte hoperand (fun h => hescape (h ▸ rfl)) hrun htransfer
      | twoByte byte => exact consumed_twoByte hoperand hrun htransfer

end SoftCPU64

end LUE
