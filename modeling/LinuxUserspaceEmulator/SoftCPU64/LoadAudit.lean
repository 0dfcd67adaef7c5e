import LinuxUserspaceEmulator.SoftCPU64.DataLoads

/-!
# Which loads are observed

The read observer sees the loads of an instruction that go through the shadowed accessors.
Every instruction is compared with its entry in the table of loads.

Main results:

- Theorem `audits_execute`: every instruction but `SYSCALL` logs its loads, unless these are
  plain reads.
- Theorem `step_dataLoads_iff`: a step calls the observer for exactly its data loads when it
  has none that are plain reads.
-/

namespace LUE

open StateExcept

-- facts about a range of opcodes are decided byte by byte
set_option maxRecDepth 8000

namespace SoftCPU64

/-! ## Fetches -/

section Fetches

variable {β : Type} {emulator : Emulator} {logged : List U64}

/-- A fetched byte moves the decoder. -/
theorem LogsFrom.after_fetch8 {f : U8 → EmulatorProgram β}
    (hf : ∀ byte, emulator.mmu.read8 emulator.cpu.decodePc = .ok byte →
      LogsFrom (f byte) (atDecodePc emulator (emulator.cpu.decodePc + 1)) logged) :
    LogsFrom (fetch8 >>= f) emulator logged := by
  refine LogsFrom.after KeepsReads.fetch8 fun byte after hfetch => ?_
  have hmoved := fetch8_eq_ok hfetch
  rw [fetch8, bind_of_ok (getCPU_apply emulator), bind_of_ok (modifyCPU_apply _ emulator)] at hfetch
  rw [hmoved]
  exact hf byte (readMMU_eq_ok_iff.mp hfetch).1

theorem LogsFrom.after_fetchInteger (count : Nat) {f : U64 → EmulatorProgram β}
    (hf : ∀ value, LogsFrom (f value)
      (atDecodePc emulator (emulator.cpu.decodePc + BitVec.ofNat 64 count)) logged) :
    LogsFrom (fetchInteger count >>= f) emulator logged := by
  refine LogsFrom.after (KeepsReads.fetchInteger count) fun value after hfetch => ?_
  rw [fetchInteger_eq_ok hfetch]
  exact hf value

theorem LogsFrom.after_fetchImmediate (width : Width) {f : U64 → EmulatorProgram β}
    (hf : ∀ value, LogsFrom (f value)
      (atDecodePc emulator (emulator.cpu.decodePc + BitVec.ofNat 64 (immediateBytes width)))
      logged) : LogsFrom (fetchImmediate width >>= f) emulator logged := by
  cases width with
  | w8 =>
      simp only [fetchImmediate, bind_assoc, pure_bind]
      exact LogsFrom.after_fetch8 fun byte _ => hf _
  | w16 => exact LogsFrom.after_fetchInteger 2 hf
  | w32 =>
      simp only [fetchImmediate, fetch32, bind_assoc, pure_bind]
      exact LogsFrom.after_fetchInteger 4 fun value => hf _
  | w64 =>
      simp only [fetchImmediate, fetch32, bind_assoc, pure_bind]
      exact LogsFrom.after_fetchInteger 4 fun value => hf _

end Fetches

/-! ## Audited instructions -/

/-- When the instruction returns it has logged its data loads, unless they are plain reads. -/
def Audits (prefixes : Prefixes) (opcode : Opcode) (handler : EmulatorProgram Unit) : Prop :=
  ∀ decoded after, handler decoded = .ok () after →
    ∃ logged, after.mmu.readObserver = decoded.mmu.readObserver.map (· ++ logged) ∧
      ∀ address, address ∈ logged ↔
        opcode.LoadsPlainly = false ∧ DataLoad prefixes opcode decoded address

/-- The opcodes that load nothing but their operand, and that through the shadowed accessors. -/
def Opcode.LoadsObserved (opcode : Opcode) : Bool :=
  opcode ∉ specialLoads && !opcode.WithoutOperand && !opcode.LoadsPlainly

/-- The opcodes without an operand that load the top of a stack. -/
def Opcode.PopsStack : Opcode → Bool
  | oneByte byte => (0x58 ≤ byte ∧ byte ≤ 0x5f) ∨ byte = 0xc2 ∨ byte = 0xc3 ∨ byte = 0xc9
  | twoByte _ => false

/-- The opcodes that decode no operand and load nothing. -/
def Opcode.Stackless (opcode : Opcode) : Bool :=
  opcode.WithoutOperand && !opcode.LoadsPlainly && !opcode.PopsStack

section Audits

variable {prefixes : Prefixes} {opcode : Opcode} {handler : EmulatorProgram Unit}

theorem Opcode.LoadsObserved.spec (h : opcode.LoadsObserved = true) :
    opcode ∉ specialLoads ∧ opcode.WithoutOperand = false ∧ opcode.LoadsPlainly = false := by
  simpa [Opcode.LoadsObserved, and_assoc] using h

theorem dataLoad_iff_of_operand (hwithout : opcode.WithoutOperand = false) (decoded : Emulator)
    (address : U64) :
    DataLoad prefixes opcode decoded address ↔
      ∃ modrm selected operand before, fetchModrm prefixes decoded = .ok modrm selected ∧
        decodeRmOperand prefixes modrm selected = .ok operand before ∧
        address ∈ operandLoads prefixes opcode modrm operand before := by
  have hmove : ¬(opcode = .oneByte 0xa4 ∨ opcode = .oneByte 0xa5) := by
    rintro (rfl | rfl) <;> cases hwithout
  rw [DataLoad, if_neg hmove, if_neg (Bool.not_eq_true _ ▸ hwithout)]

/-- Plain reads are not logged. -/
theorem Audits.of_plain (h : KeepsReads handler) (hplain : opcode.LoadsPlainly = true) :
    Audits prefixes opcode handler := by
  intro decoded after hrun
  refine ⟨[], h.logsFrom decoded () after hrun, fun address => ?_⟩
  simp [hplain]

/-- Where nothing is loaded, nothing is logged. -/
theorem Audits.of_none (h : KeepsReads handler)
    (hnone : ∀ decoded address, ¬DataLoad prefixes opcode decoded address) :
    Audits prefixes opcode handler := by
  intro decoded after hrun
  refine ⟨[], h.logsFrom decoded () after hrun, fun address => ?_⟩
  simp [hnone]

/-- An instruction that loads from the stack, if anything. -/
theorem Audits.of_stack (hwithout : opcode.WithoutOperand = true)
    (hplain : opcode.LoadsPlainly = false)
    (h : ∀ decoded, LogsFrom handler decoded (stackLoads decoded.cpu opcode)) :
    Audits prefixes opcode handler := by
  have hmove : ¬(opcode = .oneByte 0xa4 ∨ opcode = .oneByte 0xa5) := by
    rintro (rfl | rfl) <;> cases hplain
  intro decoded after hrun
  refine ⟨_, h decoded () after hrun, fun address => ?_⟩
  rw [DataLoad, if_neg hmove, if_pos hwithout]
  simp [hplain]

theorem stackLoads_eq_nil (h : opcode.PopsStack = false) (cpu : SoftCPU64) :
    stackLoads cpu opcode = [] := by
  cases opcode with
  | oneByte byte =>
      have hpops := of_decide_eq_false h
      rw [stackLoads, if_neg (by tauto), if_neg (by tauto)]
  | twoByte byte => rfl

/-- Most instructions without an operand load nothing. -/
theorem Audits.of_stackless (hopcode : opcode.Stackless = true) (h : KeepsReads handler) :
    Audits prefixes opcode handler := by
  simp only [Opcode.Stackless, Bool.and_eq_true, Bool.not_eq_true'] at hopcode
  rcases hopcode with ⟨⟨hwithout, hplain⟩, hpops⟩
  refine Audits.of_stack hwithout hplain fun decoded => ?_
  rw [stackLoads_eq_nil hpops]
  exact h.logsFrom decoded

/-- An instruction that loads after it has decoded its operand. -/
theorem Audits.of_operand {rest : ModRM → Operand → EmulatorProgram Unit}
    (hsequence : ∀ decoded after, handler decoded = .ok () after →
      (do
        let modrm ← fetchModrm prefixes
        let operand ← decodeRmOperand prefixes modrm
        rest modrm operand : EmulatorProgram Unit) decoded = .ok () after)
    (hwithout : opcode.WithoutOperand = false) (hplain : opcode.LoadsPlainly = false)
    (hrest : ∀ modrm operand before, LogsFrom (rest modrm operand) before
      (operandLoads prefixes opcode modrm operand before)) :
    Audits prefixes opcode handler := by
  intro decoded last hrun
  rcases bind_eq_ok_iff.mp (hsequence decoded last hrun) with ⟨modrm, selected, hmodrm, hnext⟩
  rcases bind_eq_ok_iff.mp hnext with ⟨operand, before, hoperand, hlast⟩
  have hdecode : before.mmu.readObserver = decoded.mmu.readObserver := by
    have hselected := (KeepsReads.fetchModrm prefixes).logsFrom decoded _ _ hmodrm
    have hbefore := (KeepsReads.decodeRmOperand prefixes modrm).logsFrom selected _ _ hoperand
    simpa [hselected] using hbefore
  refine ⟨operandLoads prefixes opcode modrm operand before, ?_, fun address => ?_⟩
  · rw [hrest modrm operand before () last hlast, hdecode]
  · rw [dataLoad_iff_of_operand hwithout, hplain]
    constructor
    · intro hmem
      exact ⟨rfl, modrm, selected, operand, before, hmodrm, hoperand, hmem⟩
    · rintro ⟨-, modrm', selected', operand', before', hmodrm', hoperand', hmem⟩
      rw [hmodrm] at hmodrm'
      cases hmodrm'
      rw [hoperand] at hoperand'
      cases hoperand'
      exact hmem

/-- The same where the decoding of the operand is next to that of the ModRM byte, and the
operand is all that is loaded. -/
theorem Audits.of_sequence {rest : ModRM → Operand → EmulatorProgram Unit}
    (h : handler = do
      let modrm ← fetchModrm prefixes
      let operand ← decodeRmOperand prefixes modrm
      rest modrm operand)
    (hopcode : opcode.LoadsObserved = true)
    (hrest : ∀ modrm operand before, LogsFrom (rest modrm operand) before
      (operandLoads prefixes opcode modrm operand before)) :
    Audits prefixes opcode handler :=
  have hspec := Opcode.LoadsObserved.spec hopcode
  Audits.of_operand (fun _ _ hrun => h ▸ hrun) hspec.2.1 hspec.2.2 hrest

/-- Most instructions read their operand first. -/
theorem Audits.of_readFirst {width : Width}
    {tail : ModRM → Operand → U64 → EmulatorProgram Unit}
    (h : handler = do
      let modrm ← fetchModrm prefixes
      let operand ← decodeRmOperand prefixes modrm
      let value ← readOperand operand width prefixes
      tail modrm operand value)
    (hopcode : opcode.LoadsObserved = true) (hpasses : ∀ before, passesOver before opcode = false)
    (hposition : ∀ modrm, opcode.ReadsEarly = true ∨ opcode.trailingBytes prefixes modrm = 0)
    (hsize : ∀ modrm, loadSize prefixes modrm opcode = width.bytes)
    (htail : ∀ modrm operand value, KeepsReads (tail modrm operand value)) :
    Audits prefixes opcode handler := by
  refine Audits.of_sequence h hopcode fun modrm operand before => ?_
  have hspec := Opcode.LoadsObserved.spec hopcode
  rw [operandLoads_of_operand hspec.1 (hpasses before) (accessPosition_eq (hposition modrm) _)
    (hsize modrm)]
  exact (logsFrom_readOperand operand width prefixes before).bind_keeps (htail modrm operand)

/-- Some do not load it. -/
theorem Audits.of_noLoad (hopcode : opcode.LoadsObserved = true)
    (hpasses : ∀ before, passesOver before opcode = false)
    (hsize : ∀ modrm, loadSize prefixes modrm opcode = 0) (h : KeepsReads handler) :
    Audits prefixes opcode handler := by
  have hspec := Opcode.LoadsObserved.spec hopcode
  refine Audits.of_none h fun decoded address => ?_
  rw [dataLoad_iff_of_operand hspec.2.1]
  rintro ⟨modrm, selected, operand, before, -, -, hmem⟩
  rw [operandLoads_of_operand hspec.1 (hpasses before) rfl (hsize modrm), operandBytes_zero] at hmem
  exact List.not_mem_nil hmem

end Audits

variable {prefixes : Prefixes} {byte : U8}

/-! ## Instructions that read their operand first -/

theorem one_eq_bytes {c : Prop} [Decidable c] (hc : c) (width : Width) :
    1 = (if c then Width.w8 else width).bytes := by
  rw [if_pos hc]
  rfl

theorem audits_movsxd : Audits prefixes (.oneByte 0x63) (executeMovsxd prefixes) :=
  Audits.of_readFirst rfl rfl (fun _ => rfl) (fun _ => Or.inr (trailingBytes_oneByte (by decide)))
    (fun _ => rfl) fun _ _ _ => KeepsReads.writeGpr _ _ _ _

theorem audits_imulImmediate (h : byte = 0x69 ∨ byte = 0x6b) :
    Audits prefixes (.oneByte byte) (executeImulImmediate byte prefixes) := by
  have htail : ∀ (modrm : ModRM) (operand : Operand) (value : U64), KeepsReads (do
      let imm ←
        if byte = 0x6b then do
          let byte ← fetch8
          pure (signedOperand (byte.setWidth 64) .w8)
        else do
          let value ← fetch32
          pure (signedOperand value .w32)
      let product := signedOperand value (operandWidth prefixes) * imm
      writeGpr modrm.reg (operandWidth prefixes) (BitVec.ofInt 64 product) prefixes
      let overflow := product != signedOperand (BitVec.ofInt 64 product) (operandWidth prefixes)
      modifyCPU fun cpu => (cpu.setFlag CF overflow).setFlag OF overflow) := by
    intro modrm operand value
    have hproduct : ∀ imm : Int, KeepsReads (do
        let product := signedOperand value (operandWidth prefixes) * imm
        writeGpr modrm.reg (operandWidth prefixes) (BitVec.ofInt 64 product) prefixes
        let overflow := product != signedOperand (BitVec.ofInt 64 product) (operandWidth prefixes)
        modifyCPU fun cpu => (cpu.setFlag CF overflow).setFlag OF overflow) := fun imm =>
      (KeepsReads.writeGpr _ _ _ _).bind fun _ => KeepsReads.modifyCPU _
    refine KeepsReads.ite ?_ ?_
    · exact KeepsReads.fetch8.bind fun _ => (KeepsReads.pure _).bind hproduct
    · exact (KeepsReads.fetchInteger 4).bind fun _ => (KeepsReads.pure _).bind hproduct
  rcases h with rfl | rfl
  · exact Audits.of_readFirst rfl rfl (fun _ => rfl) (fun _ => Or.inl rfl) (fun _ => rfl) htail
  · exact Audits.of_readFirst rfl rfl (fun _ => rfl) (fun _ => Or.inl rfl) (fun _ => rfl) htail

theorem audits_test (h : byte = 0x84 ∨ byte = 0x85) :
    Audits prefixes (.oneByte byte) (executeTest byte prefixes) := by
  rcases h with rfl | rfl
  · refine Audits.of_readFirst rfl rfl (fun _ => rfl)
      (fun _ => Or.inr (trailingBytes_oneByte (by decide))) (fun _ => one_eq_bytes rfl _)
      fun _ _ _ => ?_
    exact (KeepsReads.readGpr _ _ _).bind fun _ => KeepsReads.modifyCPU _
  · refine Audits.of_readFirst rfl rfl (fun _ => rfl)
      (fun _ => Or.inr (trailingBytes_oneByte (by decide))) (fun _ => rfl) fun _ _ _ => ?_
    exact (KeepsReads.readGpr _ _ _).bind fun _ => KeepsReads.modifyCPU _

theorem audits_xchg : Audits prefixes (.oneByte 0x87) (executeXchg prefixes) := by
  refine Audits.of_readFirst rfl rfl (fun _ => rfl)
    (fun _ => Or.inr (trailingBytes_oneByte (by decide))) (fun _ => rfl) fun _ _ _ => ?_
  exact (KeepsReads.readGpr _ _ _).bind fun _ => (KeepsReads.writeOperand _ _ _ _).bind fun _ =>
    KeepsReads.writeGpr _ _ _ _

theorem audits_movLoad (h : byte = 0x8a ∨ byte = 0x8b) :
    Audits prefixes (.oneByte byte) (executeMovLoad byte prefixes) := by
  rcases h with rfl | rfl
  · exact Audits.of_readFirst rfl rfl (fun _ => rfl)
      (fun _ => Or.inr (trailingBytes_oneByte (by decide))) (fun _ => one_eq_bytes rfl _)
      fun _ _ _ => KeepsReads.writeGpr _ _ _ _
  · exact Audits.of_readFirst rfl rfl (fun _ => rfl)
      (fun _ => Or.inr (trailingBytes_oneByte (by decide))) (fun _ => rfl)
      fun _ _ _ => KeepsReads.writeGpr _ _ _ _

theorem audits_doubleShift (h : byte ∈ ([0xa4, 0xa5, 0xac, 0xad] : List U8)) :
    Audits prefixes (.twoByte byte) (executeDoubleShift byte prefixes) := by
  have hposition : ∀ modrm, (Opcode.twoByte byte).ReadsEarly = true ∨
      (Opcode.twoByte byte).trailingBytes prefixes modrm = 0 := by
    intro modrm
    fin_cases h <;> first | exact Or.inl rfl | exact Or.inr (trailingBytes_twoByte (by decide))
  have hopcode : (Opcode.twoByte byte).LoadsObserved = true := by
    fin_cases h <;> rfl
  have hpasses : ∀ before, passesOver before (.twoByte byte) = false := by
    intro before
    fin_cases h <;> rfl
  have hsize : ∀ modrm,
      loadSize prefixes modrm (.twoByte byte) = (operandWidth prefixes).bytes := by
    intro modrm
    fin_cases h <;> rfl
  refine Audits.of_readFirst rfl hopcode hpasses hposition hsize fun modrm operand value => ?_
  refine (KeepsReads.readGpr _ _ _).bind fun _ => KeepsReads.ite ?_ ?_
  · exact KeepsReads.fetch8.bind fun _ => keepsReads_shiftedWrite _ _ _ _ _
  · exact (KeepsReads.readGpr _ _ _).bind fun _ => keepsReads_shiftedWrite _ _ _ _ _

theorem audits_cmpxchg (h : byte = 0xb0 ∨ byte = 0xb1) :
    Audits prefixes (.twoByte byte) (executeCmpxchg byte prefixes) := by
  have htail : ∀ (width : Width) (modrm : ModRM) (operand : Operand) (value : U64),
      KeepsReads (do
        let accumulator ← readGpr .rax width prefixes
        if value &&& maskForWidth width = accumulator &&& maskForWidth width then
          let value ← readGpr modrm.reg width prefixes
          writeOperand operand width value prefixes
          modifyCPU fun cpu => cpu.setFlag ZF true
        else
          writeGpr .rax width value prefixes
          modifyCPU fun cpu => cpu.setFlag ZF false
        modifyCPU fun cpu => { cpu with flagsTainted := cpu.currentTaint }) := by
    intro width modrm operand value
    refine (KeepsReads.readGpr _ _ _).bind fun _ => KeepsReads.ite ?_ ?_
    · exact (KeepsReads.readGpr _ _ _).bind fun _ => (KeepsReads.writeOperand _ _ _ _).bind fun _ =>
        (KeepsReads.modifyCPU _).bind fun _ => KeepsReads.modifyCPU _
    · exact (KeepsReads.writeGpr _ _ _ _).bind fun _ =>
        (KeepsReads.modifyCPU _).bind fun _ => KeepsReads.modifyCPU _
  rcases h with rfl | rfl
  · exact Audits.of_readFirst rfl rfl (fun _ => rfl)
      (fun _ => Or.inr (trailingBytes_twoByte (by decide))) (fun _ => one_eq_bytes rfl _) (htail _)
  · exact Audits.of_readFirst rfl rfl (fun _ => rfl)
      (fun _ => Or.inr (trailingBytes_twoByte (by decide))) (fun _ => rfl) (htail _)

theorem audits_extend (h : byte ∈ ([0xb6, 0xb7, 0xbe, 0xbf] : List U8)) :
    Audits prefixes (.twoByte byte) (executeExtend byte prefixes) := by
  fin_cases h <;>
    exact Audits.of_readFirst rfl rfl (fun _ => rfl)
      (fun _ => Or.inr (trailingBytes_twoByte (by decide))) (fun _ => rfl)
      fun _ _ _ => KeepsReads.writeGpr _ _ _ _

theorem audits_bitScan (h : byte = 0xbc ∨ byte = 0xbd) :
    Audits prefixes (.twoByte byte) (executeBitScan byte prefixes) := by
  rcases h with rfl | rfl
  all_goals
    refine Audits.of_readFirst rfl rfl (fun _ => rfl)
      (fun _ => Or.inr (trailingBytes_twoByte (by decide))) (fun _ => rfl) fun modrm _ value => ?_
    dsimp only
    generalize (if (_ : U8) = 0xbc then List.find? _ _ else _) = found
    cases found with
    | none => exact (KeepsReads.modifyCPU _).bind fun _ => KeepsReads.modifyCPU _
    | some index =>
        exact (KeepsReads.modifyCPU _).bind fun _ => (KeepsReads.writeGpr _ _ _ _).bind fun _ =>
          KeepsReads.modifyCPU _

theorem audits_xadd (h : byte = 0xc0 ∨ byte = 0xc1) :
    Audits prefixes (.twoByte byte) (executeXadd byte prefixes) := by
  have htail : ∀ (width : Width) (modrm : ModRM) (operand : Operand) (value : U64),
      KeepsReads (do
        let regValue ← readGpr modrm.reg width prefixes
        let sum ← onCPU fun cpu => cpu.add value regValue width false
        writeGpr modrm.reg width value prefixes
        writeOperand operand width sum prefixes) := by
    intro width modrm operand value
    exact (KeepsReads.readGpr _ _ _).bind fun _ => (KeepsReads.onCPU _).bind fun _ =>
      (KeepsReads.writeGpr _ _ _ _).bind fun _ => KeepsReads.writeOperand _ _ _ _
  rcases h with rfl | rfl
  · exact Audits.of_readFirst rfl rfl (fun _ => rfl)
      (fun _ => Or.inr (trailingBytes_twoByte (by decide))) (fun _ => one_eq_bytes rfl _) (htail _)
  · exact Audits.of_readFirst rfl rfl (fun _ => rfl)
      (fun _ => Or.inr (trailingBytes_twoByte (by decide))) (fun _ => rfl) (htail _)

/-! ## Instructions that come to their operand later -/

theorem audits_aluRmReg (h : byte ≤ 0x3d ∧ byte &&& 7 ≤ 3) :
    Audits prefixes (.oneByte byte) (executeAluRmReg byte prefixes) := by
  have hopcode : (Opcode.oneByte byte).LoadsObserved = true := by
    revert byte
    decide
  have hpasses : ∀ before, passesOver before (.oneByte byte) = false := by
    intro before
    have hbyte : byte ∉ ([0xc0, 0xc1, 0xd0, 0xd1, 0xd2, 0xd3] : List U8) := by
      intro hmem
      fin_cases hmem <;> revert h <;> decide
    simp only [passesOver, hbyte, decide_false, Bool.false_and]
  have hposition : ∀ modrm, (Opcode.oneByte byte).trailingBytes prefixes modrm = 0 := by
    intro modrm
    refine trailingBytes_oneByte fun hmem => ?_
    fin_cases hmem <;> revert h <;> decide
  have hform : (byte &&& 7).toNat = 0 ∨ (byte &&& 7).toNat = 2 ↔
      byte &&& 7 = 0 ∨ byte &&& 7 = 2 := by
    generalize byte &&& 7 = form
    bv_omega
  have hsize : ∀ modrm, loadSize prefixes modrm (.oneByte byte) =
      (if (byte &&& 7).toNat = 0 ∨ (byte &&& 7).toNat = 2 then Width.w8
        else operandWidth prefixes).bytes := by
    intro modrm
    simp only [loadSize, if_pos h.1, hform]
    split <;> rfl
  refine Audits.of_sequence rfl hopcode fun modrm operand before => ?_
  rw [operandLoads_of_operand (Opcode.LoadsObserved.spec hopcode).1 (hpasses before)
    (accessPosition_eq (Or.inr (hposition modrm)) _) (hsize modrm)]
  dsimp only
  generalize (if (byte &&& 7).toNat = 0 ∨ (byte &&& 7).toNat = 2 then Width.w8
        else operandWidth prefixes) = width
  have htail : ∀ (destination : Operand) (lhs rhs : U64), KeepsReads (do
      if operand = .register modrm.reg ∧ ((byte >>> 3).toNat = 5 ∨ (byte >>> 3).toNat = 6 ∨
          (byte >>> 3).toNat = 7) then
        modifyCPU fun cpu => { cpu with currentTaint := false }
      executeOperation (byte >>> 3).toNat lhs rhs width (maskForWidth width) fun result =>
        writeOperand destination width result prefixes) := by
    intro destination lhs rhs
    have hexecute := KeepsReads.executeOperation (byte >>> 3).toNat lhs rhs width
      (maskForWidth width) fun result => KeepsReads.writeOperand destination width result prefixes
    exact KeepsReads.ite ((KeepsReads.modifyCPU _).bind fun _ => hexecute) hexecute
  by_cases hload : (byte &&& 7).toNat = 2 ∨ (byte &&& 7).toNat = 3
  · simp only [if_pos hload]
    refine LogsFrom.after_position (KeepsReads.readGpr _ _ _) (keepsPosition_readGpr _ _ _)
      fun lhs after hpc => ?_
    rw [← hpc]
    exact (logsFrom_readOperand operand width prefixes after).bind_keeps (htail _ lhs)
  · simp only [if_neg hload]
    refine (logsFrom_readOperand operand width prefixes before).bind_keeps fun lhs => ?_
    exact (KeepsReads.readGpr _ _ _).bind fun rhs => htail _ lhs rhs

theorem audits_imulRegister :
    Audits prefixes (.twoByte 0xaf) (executeImulRegister prefixes) := by
  refine Audits.of_sequence rfl rfl fun modrm operand before => ?_
  rw [operandLoads_of_operand (by decide) rfl
    (accessPosition_eq (Or.inr (trailingBytes_twoByte (by decide))) _) rfl]
  refine LogsFrom.after_position (KeepsReads.readGpr _ _ _) (keepsPosition_readGpr _ _ _)
    fun lhs after hpc => ?_
  rw [← hpc]
  refine (logsFrom_readOperand operand _ prefixes after).bind_keeps fun rhs => ?_
  exact KeepsReads.ite (KeepsReads.throw _) (KeepsReads.writeGpr _ _ _ _)

/-- A conditional move loads its source when its condition holds. -/
theorem audits_cmovcc (h : 0x40 ≤ byte ∧ byte ≤ 0x4f) :
    Audits prefixes (.twoByte byte) (executeCmovcc byte prefixes) := by
  have hopcode : (Opcode.twoByte byte).LoadsObserved = true := by
    revert byte
    decide
  have hposition : ∀ modrm, (Opcode.twoByte byte).trailingBytes prefixes modrm = 0 := by
    intro modrm
    refine trailingBytes_twoByte fun hmem => ?_
    fin_cases hmem <;> revert h <;> decide
  have hsize : ∀ modrm, loadSize prefixes modrm (.twoByte byte) =
      (operandWidth prefixes).bytes := fun modrm => if_pos h
  have hspecial := (Opcode.LoadsObserved.spec hopcode).1
  refine Audits.of_sequence rfl hopcode fun modrm operand before => ?_
  refine LogsFrom.after (KeepsReads.modifyCPU _) fun _ after hafter => ?_
  have hpc : after.cpu.decodePc = before.cpu.decodePc :=
    keepsPosition_taintFromFlags.eq_of_ok hafter
  have hcondition : after.cpu.condition (byte &&& 0xf) = before.cpu.condition (byte &&& 0xf) := by
    cases hafter
    change (if before.cpu.flagsTainted then before.cpu.taint else before.cpu).condition _ = _
    split <;> rfl
  have hpasses : passesOver before (.twoByte byte) = !before.cpu.condition (byte &&& 0xf) := by
    simp only [passesOver, h.1, h.2, decide_true, Bool.true_and]
  refine LogsFrom.after KeepsReads.getCPU fun cpu last hcpu => ?_
  cases hcpu
  by_cases hholds : before.cpu.condition (byte &&& 0xf) = true
  · rw [hholds] at hcondition hpasses
    rw [operandLoads_of_operand hspecial hpasses (accessPosition_eq (Or.inr (hposition modrm)) _)
      (hsize modrm), if_pos hcondition, ← hpc]
    exact (logsFrom_readOperand operand _ prefixes after).bind_keeps fun _ =>
      KeepsReads.writeGpr _ _ _ _
  · rw [Bool.not_eq_true] at hholds
    rw [hholds] at hcondition hpasses
    rw [operandLoads_of_passesOver hspecial hpasses, hcondition]
    exact (KeepsReads.pure ()).logsFrom after

/-- A shift whose count is zero loads nothing. -/
theorem logsFrom_shift {opcode : Opcode} {before after : Emulator} {operand : Operand}
    {modrm : ModRM} {width : Width} {count : Nat} (hopcode : opcode.LoadsObserved = true)
    (hpasses : passesOver before opcode = (count == 0))
    (hsize : loadSize prefixes modrm opcode = width.bytes)
    (h : after.cpu.decodePc = accessPosition prefixes opcode modrm before.cpu.decodePc) :
    LogsFrom (do
      if count ≠ 0 then
        let value ← readOperand operand width prefixes
        let result ← shiftResult modrm.operation value count width
        modifyCPU fun cpu => cpu.setLogicFlags result width
        writeOperand operand width result prefixes) after
      (operandLoads prefixes opcode modrm operand before) := by
  have hspecial := (Opcode.LoadsObserved.spec hopcode).1
  by_cases hcount : count = 0
  · rw [operandLoads_of_passesOver hspecial (by simp [hpasses, hcount]), if_neg (by simp [hcount])]
    exact (KeepsReads.pure ()).logsFrom after
  · rw [operandLoads_of_operand hspecial (by simp [hpasses, hcount]) h.symm hsize,
      if_pos hcount]
    refine (logsFrom_readOperand operand width prefixes after).bind_keeps fun value => ?_
    exact (KeepsReads.shiftResult _ _ _ _).bind fun _ => (KeepsReads.modifyCPU _).bind fun _ =>
      KeepsReads.writeOperand _ _ _ _

theorem audits_shiftGroup (h : byte ∈ ([0xc0, 0xc1, 0xd0, 0xd1, 0xd2, 0xd3] : List U8)) :
    Audits prefixes (.oneByte byte) (executeShiftGroup byte prefixes) := by
  have hopcode : (Opcode.oneByte byte).LoadsObserved = true := by
    fin_cases h <;> rfl
  have hpasses : ∀ before, passesOver before (.oneByte byte) = (shiftCount byte before == 0) := by
    intro before
    simp only [passesOver, h, decide_true, Bool.true_and]
  have hsize : ∀ modrm, loadSize prefixes modrm (.oneByte byte) =
      (if byte = 0xc0 ∨ byte = 0xd0 ∨ byte = 0xd2 then Width.w8
        else operandWidth prefixes).bytes := by
    intro modrm
    fin_cases h <;> first | exact one_eq_bytes (by decide) _ | rfl
  refine Audits.of_sequence rfl hopcode fun modrm operand before => ?_
  dsimp only
  by_cases himmediate : byte = 0xc0 ∨ byte = 0xc1
  · simp only [if_pos himmediate, pure_bind]
    refine LogsFrom.after_fetch8 fun immediate hread => ?_
    refine logsFrom_shift hopcode ?_ (hsize modrm) ?_
    · rw [hpasses, shiftCount, if_pos himmediate, hread]
    · rcases himmediate with rfl | rfl <;> rfl
  · have hposition : before.cpu.decodePc =
        accessPosition prefixes (.oneByte byte) modrm before.cpu.decodePc := by
      refine (accessPosition_eq (Or.inr (trailingBytes_oneByte fun hmem => ?_)) _).symm
      fin_cases h <;> revert hmem himmediate <;> decide
    simp only [if_neg himmediate]
    by_cases hone : byte = 0xd0 ∨ byte = 0xd1
    · simp only [if_pos hone, pure_bind]
      refine logsFrom_shift hopcode ?_ (hsize modrm) hposition
      rw [hpasses, shiftCount, if_neg himmediate, if_pos hone]
    · simp only [if_neg hone, pure_bind]
      refine LogsFrom.after KeepsReads.getCPU fun cpu after hcpu => ?_
      cases hcpu
      refine logsFrom_shift hopcode ?_ (hsize modrm) hposition
      rw [hpasses, shiftCount, if_neg himmediate, if_neg hone]

theorem audits_aluImm (h : byte = 0x80 ∨ byte = 0x81 ∨ byte = 0x83) :
    Audits prefixes (.oneByte byte) (executeAluImm byte prefixes) := by
  have hopcode : (Opcode.oneByte byte).LoadsObserved = true := by
    rcases h with rfl | rfl | rfl <;> rfl
  have hpasses : ∀ before, passesOver before (.oneByte byte) = false := by
    intro before
    rcases h with rfl | rfl | rfl <;> rfl
  have hsize : ∀ modrm, loadSize prefixes modrm (.oneByte byte) =
      (if byte = 0x80 then Width.w8 else operandWidth prefixes).bytes := by
    intro modrm
    rcases h with rfl | rfl | rfl
    · exact one_eq_bytes rfl _
    · rfl
    · rfl
  have hspecial := (Opcode.LoadsObserved.spec hopcode).1
  refine Audits.of_sequence rfl hopcode fun modrm operand before => ?_
  have hrest : ∀ (after : Emulator) (imm : U64),
      after.cpu.decodePc = accessPosition prefixes (.oneByte byte) modrm before.cpu.decodePc →
      LogsFrom (do
        let width := if byte = 0x80 then .w8 else operandWidth prefixes
        let lhs ← readOperand operand width prefixes
        executeOperation modrm.operation lhs imm width (maskForWidth width) fun result =>
          writeOperand operand width result prefixes) after
        (operandLoads prefixes (.oneByte byte) modrm operand before) := by
    intro after imm hpc
    rw [operandLoads_of_operand hspecial (hpasses before) hpc.symm (hsize modrm)]
    refine (logsFrom_readOperand operand _ prefixes after).bind_keeps fun lhs => ?_
    exact KeepsReads.executeOperation _ _ _ _ _ fun _ => KeepsReads.writeOperand _ _ _ _
  dsimp only
  by_cases hbyte : byte = 0x83
  · subst hbyte
    simp only [if_true, pure_bind]
    exact LogsFrom.after_fetch8 fun imm _ => hrest _ _ rfl
  · simp only [if_neg hbyte]
    refine LogsFrom.after_fetchImmediate _ fun imm => hrest _ imm ?_
    rcases h with rfl | rfl | rfl
    · rfl
    · rfl
    · contradiction

theorem audits_groupBa : Audits prefixes (.twoByte 0xba) (executeGroupBa prefixes) := by
  refine Audits.of_sequence rfl rfl fun modrm operand before => ?_
  rw [operandLoads_of_operand (by decide) rfl rfl rfl]
  refine LogsFrom.after_fetch8 fun immediate _ => ?_
  refine (logsFrom_readOperand operand _ prefixes _).bind_keeps fun value => ?_
  exact (KeepsReads.modifyCPU _).bind fun _ =>
    KeepsReads.ite (KeepsReads.writeOperand _ _ _ _) (KeepsReads.pure _)

/-- `TEST` has its immediate before it reads the operand; the others have none. -/
theorem audits_groupF6F7 (h : byte = 0xf6 ∨ byte = 0xf7) :
    Audits prefixes (.oneByte byte) (executeGroupF6F7 byte prefixes) := by
  have hopcode : (Opcode.oneByte byte).LoadsObserved = true := by
    rcases h with rfl | rfl <;> rfl
  have hpasses : ∀ before, passesOver before (.oneByte byte) = false := by
    intro before
    rcases h with rfl | rfl <;> rfl
  have hsize : ∀ modrm, loadSize prefixes modrm (.oneByte byte) =
      (if byte = 0xf6 then Width.w8 else operandWidth prefixes).bytes := by
    intro modrm
    rcases h with rfl | rfl
    · exact one_eq_bytes rfl _
    · rfl
  have hspecial := (Opcode.LoadsObserved.spec hopcode).1
  refine Audits.of_sequence rfl hopcode fun modrm operand before => ?_
  have hread : ∀ (after : Emulator) (tail : U64 → EmulatorProgram Unit),
      (∀ value, KeepsReads (tail value)) →
      after.cpu.decodePc = accessPosition prefixes (.oneByte byte) modrm before.cpu.decodePc →
      LogsFrom (readOperand operand (if byte = 0xf6 then Width.w8 else operandWidth prefixes)
        prefixes >>= tail) after (operandLoads prefixes (.oneByte byte) modrm operand before) := by
    intro after tail htail hpc
    rw [operandLoads_of_operand hspecial (hpasses before) hpc.symm (hsize modrm)]
    exact (logsFrom_readOperand operand _ prefixes after).bind_keeps htail
  have hposition : modrm.operation ≠ 0 → before.cpu.decodePc =
      accessPosition prefixes (.oneByte byte) modrm before.cpu.decodePc := by
    intro hoperation
    refine (accessPosition_eq (Or.inr ?_) _).symm
    rcases h with rfl | rfl <;> simp [Opcode.trailingBytes, hoperation]
  dsimp only
  split <;> rename_i hoperation
  · have htest : ∀ imm value : U64, KeepsReads (modifyCPU fun cpu =>
        cpu.setLogicFlags (value &&& imm)
          (if byte = 0xf6 then Width.w8 else operandWidth prefixes)) :=
      fun _ _ => KeepsReads.modifyCPU _
    rcases h with rfl | rfl
    · simp only [if_true, pure_bind]
      refine LogsFrom.after_fetch8 fun imm _ => hread _ _ (htest _) ?_
      have htrailing : (Opcode.oneByte 0xf6).trailingBytes prefixes modrm = 1 := by
        simp [Opcode.trailingBytes, hoperation]
      rw [accessPosition, htrailing]
      rfl
    · have hbyte := operandWidth_ne_w8 prefixes
      have hseven : ¬(0xf7 : U8) = 0xf6 := by decide
      simp only [if_neg hseven, if_neg hbyte]
      refine LogsFrom.after_fetchInteger _ fun imm => hread _ _ (htest _) ?_
      have htrailing : (Opcode.oneByte 0xf7).trailingBytes prefixes modrm =
          if operandWidth prefixes = .w16 then 2 else 4 := by
        cases hwidth : operandWidth prefixes <;>
          first | contradiction | simp [Opcode.trailingBytes, hoperation, hwidth, immediateBytes]
      rw [accessPosition, htrailing]
      rfl
  · exact hread _ _ (fun _ => KeepsReads.writeOperand _ _ _ _) (hposition (by simp [hoperation]))
  · exact hread _ _ (fun _ => (KeepsReads.onCPU _).bind fun _ => KeepsReads.writeOperand _ _ _ _)
      (hposition (by simp [hoperation]))
  · exact hread _ _ (fun _ => (KeepsReads.readGpr _ _ _).bind fun _ =>
      KeepsReads.writeProduct _ _ _ _) (hposition (by simp [hoperation]))
  · exact hread _ _ (fun _ => (KeepsReads.readGpr _ _ _).bind fun _ =>
      KeepsReads.writeProduct _ _ _ _) (hposition (by simp [hoperation]))
  · refine hread _ _ (fun _ => KeepsReads.ite (KeepsReads.guestFault _) (KeepsReads.ite ?_ ?_))
      (hposition (by simp [hoperation]))
    · exact (KeepsReads.readGpr _ _ _).bind fun _ =>
        KeepsReads.ite (KeepsReads.guestFault _) (KeepsReads.writeGpr _ _ _ _)
    · exact (KeepsReads.readGpr _ _ _).bind fun _ => (KeepsReads.readGpr _ _ _).bind fun _ =>
        KeepsReads.ite (KeepsReads.guestFault _)
          ((KeepsReads.writeGpr _ _ _ _).bind fun _ => KeepsReads.writeGpr _ _ _ _)
  · refine hread _ _ (fun _ => KeepsReads.ite (KeepsReads.guestFault _) (KeepsReads.ite ?_ ?_))
      (hposition (by simp [hoperation]))
    · exact (KeepsReads.readGpr _ _ _).bind fun _ =>
        KeepsReads.ite (KeepsReads.guestFault _) (KeepsReads.writeGpr _ _ _ _)
    · exact (KeepsReads.readGpr _ _ _).bind fun _ => (KeepsReads.readGpr _ _ _).bind fun _ =>
        KeepsReads.ite (KeepsReads.throw _) (KeepsReads.ite (KeepsReads.guestFault _)
          ((KeepsReads.writeGpr _ _ _ _).bind fun _ => KeepsReads.writeGpr _ _ _ _))
  · exact fun _ _ hrun => absurd hrun (unsupported_ne_ok _)

theorem audits_groupFf : Audits prefixes (.oneByte 0xff) (executeGroupFf prefixes) := by
  have hposition : ∀ modrm, (Opcode.oneByte 0xff).trailingBytes prefixes modrm = 0 := fun modrm =>
    trailingBytes_oneByte (by decide)
  refine Audits.of_sequence rfl rfl fun modrm operand before => ?_
  have hread : ∀ {width : Width} (tail : U64 → EmulatorProgram Unit),
      (∀ value, KeepsReads (tail value)) →
      loadSize prefixes modrm (.oneByte 0xff) = width.bytes →
      LogsFrom (readOperand operand width prefixes >>= tail) before
        (operandLoads prefixes (.oneByte 0xff) modrm operand before) := by
    intro width tail htail hsize
    rw [operandLoads_of_operand (by decide) rfl (accessPosition_eq (Or.inr (hposition modrm)) _)
      hsize]
    exact (logsFrom_readOperand operand _ prefixes before).bind_keeps htail
  have hadjust : ∀ value, KeepsReads (do
      let cpu ← getCPU
      let result ← onCPU fun cpu =>
        if modrm.operation = 0 then cpu.add value 1 (operandWidth prefixes) false
        else cpu.sub value 1 (operandWidth prefixes) false
      modifyCPU fun after => after.setFlag CF (cpu.flag CF)
      writeOperand operand (operandWidth prefixes) result prefixes) := fun value =>
    KeepsReads.getCPU.bind fun _ => (KeepsReads.onCPU _).bind fun _ =>
      (KeepsReads.modifyCPU _).bind fun _ => KeepsReads.writeOperand _ _ _ _
  dsimp only
  split <;> rename_i hoperation
  · exact hread _ hadjust (if_pos (by omega))
  · exact hread _ hadjust (if_pos (by omega))
  · exact hread _ (fun _ => KeepsReads.getCPU.bind fun _ => (KeepsReads.push64 _ _).bind fun _ =>
      KeepsReads.modifyCPU _) (if_neg (by omega))
  · exact hread _ (fun _ => KeepsReads.modifyCPU _) (if_neg (by omega))
  · exact hread _ (fun _ => KeepsReads.getCPU.bind fun _ => KeepsReads.push64 _ _)
      (if_neg (by omega))
  · exact fun _ _ hrun => absurd hrun (unsupported_ne_ok _)

/-- `POP` to memory loads the top of the stack, whatever its operand is. -/
theorem audits_popOperand : Audits prefixes (.oneByte 0x8f) (executePopOperand prefixes) := by
  refine @Audits.of_operand prefixes (.oneByte 0x8f) _ (fun modrm operand => do
    let value ← pop64WithShadow
    if value.isUninitialized then
      modifyCPU taint
    writeOperand operand .w64 value.value prefixes) (fun decoded after hrun => ?_) rfl rfl
    fun modrm operand before => ?_
  · rcases bind_eq_ok_iff.mp hrun with ⟨modrm, selected, hmodrm, hrest⟩
    rw [bind_of_ok hmodrm]
    split at hrest
    · exact absurd hrest (unsupported_ne_ok _)
    · exact hrest
  · refine (logsFrom_pop64WithShadow before).bind_keeps fun value => KeepsReads.ite ?_ ?_
    · exact (KeepsReads.modifyCPU _).bind fun _ => KeepsReads.writeOperand _ _ _ _
    · exact KeepsReads.writeOperand _ _ _ _

/-! ## Instructions that do not load their operand -/

theorem audits_movStore (h : byte = 0x88 ∨ byte = 0x89) :
    Audits prefixes (.oneByte byte) (executeMovStore byte prefixes) := by
  have hkeeps : KeepsReads (executeMovStore byte prefixes) :=
    (KeepsReads.fetchModrm _).bind fun _ => (KeepsReads.decodeRmOperand _ _).bind fun _ =>
      (KeepsReads.readGpr _ _ _).bind fun _ => KeepsReads.writeOperand _ _ _ _
  rcases h with rfl | rfl
  · exact Audits.of_noLoad rfl (fun _ => rfl) (fun _ => rfl) hkeeps
  · exact Audits.of_noLoad rfl (fun _ => rfl) (fun _ => rfl) hkeeps

theorem audits_lea : Audits prefixes (.oneByte 0x8d) (executeLea prefixes) := by
  refine Audits.of_noLoad rfl (fun _ => rfl) (fun _ => rfl) ?_
  exact (KeepsReads.fetchModrm _).bind fun _ => KeepsReads.ite (KeepsReads.unsupported _)
    ((KeepsReads.decodeMemoryAddress _ _).bind fun _ => KeepsReads.writeGpr _ _ _ _)

theorem audits_movOperandImmediate (h : byte = 0xc6 ∨ byte = 0xc7) :
    Audits prefixes (.oneByte byte) (executeMovOperandImmediate byte prefixes) := by
  have hkeeps : KeepsReads (executeMovOperandImmediate byte prefixes) :=
    (KeepsReads.fetchModrm _).bind fun _ => KeepsReads.ite (KeepsReads.unsupported _)
      ((KeepsReads.decodeRmOperand _ _).bind fun _ => (KeepsReads.fetchImmediate _).bind fun _ =>
        KeepsReads.writeOperand _ _ _ _)
  rcases h with rfl | rfl
  · exact Audits.of_noLoad rfl (fun _ => rfl) (fun _ => rfl) hkeeps
  · exact Audits.of_noLoad rfl (fun _ => rfl) (fun _ => rfl) hkeeps

theorem audits_setcc (h : 0x90 ≤ byte ∧ byte ≤ 0x9f) :
    Audits prefixes (.twoByte byte) (executeSetcc byte prefixes) := by
  have hkeeps : KeepsReads (executeSetcc byte prefixes) :=
    (KeepsReads.fetchModrm _).bind fun _ => (KeepsReads.decodeRmOperand _ _).bind fun _ =>
      (KeepsReads.modifyCPU _).bind fun _ => KeepsReads.getCPU.bind fun _ =>
        KeepsReads.writeOperand _ _ _ _
  have hmem : byte ∈ ([0x90, 0x91, 0x92, 0x93, 0x94, 0x95, 0x96, 0x97, 0x98, 0x99, 0x9a, 0x9b,
      0x9c, 0x9d, 0x9e, 0x9f] : List U8) := by
    clear hkeeps
    revert byte
    decide
  fin_cases hmem <;> exact Audits.of_noLoad rfl (fun _ => rfl) (fun _ => rfl) hkeeps

theorem audits_hint (h : byte ∈ ([0x18, 0x19, 0x1a, 0x1b, 0x1c, 0x1d, 0x1f] : List U8)) :
    Audits prefixes (.twoByte byte) (executeHint prefixes) := by
  have hkeeps : KeepsReads (executeHint prefixes) :=
    (KeepsReads.fetchModrm _).bind fun _ => KeepsReads.ite
      ((KeepsReads.decodeMemoryAddress _ _).bind fun _ => KeepsReads.pure _) (KeepsReads.pure _)
  fin_cases h <;> exact Audits.of_noLoad rfl (fun _ => rfl) (fun _ => rfl) hkeeps

theorem audits_movnti : Audits prefixes (.twoByte 0xc3) (executeMovnti prefixes) := by
  refine Audits.of_noLoad rfl (fun _ => rfl) (fun _ => rfl) ?_
  exact (KeepsReads.fetchModrm _).bind fun _ => (KeepsReads.decodeRmOperand _ _).bind fun _ =>
    (KeepsReads.readGpr _ _ _).bind fun _ => KeepsReads.writeOperand _ _ _ _

/-! ## SSE instructions -/

theorem bytes_rexW (prefixes : Prefixes) :
    (if prefixes.rexW then 8 else 4) = (if prefixes.rexW then Width.w64 else Width.w32).bytes := by
  split <;> rfl

theorem audits_loadXmm : Audits prefixes (.twoByte 0x6e) (loadXmmFromGpr prefixes) := by
  refine Audits.of_readFirst rfl rfl (fun _ => rfl)
    (fun _ => Or.inr (trailingBytes_twoByte (by decide))) (fun _ => bytes_rexW prefixes)
    fun _ _ _ => KeepsReads.modifyXmm _ _

/-- `MOVQ` loads with F3, and stores without. -/
theorem audits_movq : Audits prefixes (.twoByte 0x7e) (executeMovq prefixes) := by
  refine Audits.of_sequence rfl rfl fun modrm operand before => ?_
  have hsize : loadSize prefixes modrm (.twoByte 0x7e) = if prefixes.repz then 8 else 0 := rfl
  rw [operandLoads_of_operand (by decide) rfl
    (accessPosition_eq (Or.inr (trailingBytes_twoByte (by decide))) _) hsize]
  by_cases hload : prefixes.repz = true
  · rw [if_pos hload, if_pos hload]
    exact (logsFrom_readOperand operand .w64 prefixes before).bind_keeps fun _ =>
      KeepsReads.modifyXmm _ _
  · rw [if_neg hload, if_neg hload, operandBytes_zero]
    refine KeepsReads.logsFrom ?_ before
    exact KeepsReads.getCPU.bind fun _ => KeepsReads.writeOperand _ _ _ _

theorem audits_packedInteger {program : EmulatorProgram Unit}
    (h : packedInteger byte prefixes = some program) : Audits prefixes (.twoByte byte) program := by
  have hself : byte = BitVec.ofNat 8 byte.toNat := by simp
  unfold packedInteger at h
  split at h
  all_goals first
    | cases h
      rename_i hbyte
      rw [hbyte] at hself
      subst hself
      first
      | with_reducible refine Audits.of_plain (KeepsReads.packedOperation _ _) ?_
        rfl
      | with_reducible refine Audits.of_plain (KeepsReads.selectedOperation _ _) ?_
        rfl
      | with_reducible_and_instances exact audits_loadXmm
      | with_reducible_and_instances exact audits_movq
      | with_reducible refine Audits.of_plain (KeepsReads.executePmovmskb _) ?_
        rfl
      | with_reducible refine Audits.of_noLoad ?_ ?_ ?_ (KeepsReads.storeXmm _)
        exacts [rfl, fun _ => rfl, fun _ => rfl]
      | with_reducible refine Audits.of_noLoad ?_ ?_ ?_ (KeepsReads.storeLowQuadword _)
        exacts [rfl, fun _ => rfl, fun _ => rfl]
      | with_reducible refine Audits.of_noLoad ?_ ?_ ?_ (KeepsReads.executeByteShift _)
        exacts [rfl, fun _ => rfl, fun _ => rfl]
    | cases h

/-- The conversions from integers read their operand first; the others load by plain reads. -/
theorem audits_sseFloat (float : HostFloat) (h : isSseFloat byte = true) :
    Audits prefixes (.twoByte byte) (executeSseFloat float byte prefixes) := by
  by_cases hbyte : byte = 0x2a
  · subst hbyte
    exact @Audits.of_readFirst prefixes (.twoByte 0x2a) _ (if prefixes.rexW then .w64 else .w32)
      _ rfl rfl (fun _ => rfl) (fun _ => Or.inr (trailingBytes_twoByte (by decide)))
      (fun _ => bytes_rexW prefixes) fun _ _ _ => KeepsReads.modifyXmm _ _
  · refine Audits.of_plain (KeepsReads.executeSseFloat float hbyte prefixes) ?_
    have hplain : (byte != 0x2a) = true := bne_iff_ne.mpr hbyte
    simp only [Opcode.LoadsPlainly, h, hplain, Bool.and_self, Bool.or_true]

/-! ## Instructions without an operand -/

theorem audits_popInto (h : 0x58 ≤ byte ∧ byte ≤ 0x5f) (register : Register) :
    Audits prefixes (.oneByte byte) (popInto register) := by
  have hwithout : (Opcode.oneByte byte).WithoutOperand = true ∧
      (Opcode.oneByte byte).LoadsPlainly = false := by
    revert byte
    decide
  refine Audits.of_stack hwithout.1 hwithout.2 fun decoded => ?_
  rw [stackLoads, if_pos (Or.inl h)]
  exact (logsFrom_pop64WithShadow decoded).bind_keeps fun _ => KeepsReads.modifyCPU _

/-- A return loads its target. -/
theorem logsFrom_returnTo {f : U64 → EmulatorProgram Unit} (hf : ∀ target, KeepsReads (f target))
    (emulator : Emulator) :
    LogsFrom (pop64 >>= f) emulator (loadBytes (emulator.cpu.reg .rsp) 8) := by
  rw [pop64, bind_assoc]
  exact (logsFrom_pop64WithShadow emulator).bind_keeps fun value => hf value.value

theorem audits_retImmediate : Audits prefixes (.oneByte 0xc2) executeRetImmediate := by
  refine Audits.of_stack rfl rfl fun decoded => ?_
  refine LogsFrom.after_fetchInteger 2 fun bytes => ?_
  exact logsFrom_returnTo (fun _ => (KeepsReads.modifyCPU _).bind fun _ =>
    KeepsReads.modifyCPU _) _

theorem audits_ret : Audits prefixes (.oneByte 0xc3) executeRet :=
  Audits.of_stack rfl rfl fun decoded => logsFrom_returnTo (fun _ => KeepsReads.modifyCPU _) decoded

/-- `LEAVE` pops from where the frame pointer points. -/
theorem audits_leave : Audits prefixes (.oneByte 0xc9) executeLeave := by
  refine Audits.of_stack rfl rfl fun decoded => ?_
  refine LogsFrom.after (KeepsReads.modifyCPU _) fun _ after hafter => ?_
  cases hafter
  exact (logsFrom_pop64WithShadow _).bind_keeps fun _ => KeepsReads.modifyCPU _

/-! ## All instructions -/

variable {host : Host} {opcode : Opcode}

/-- The ranges of opcodes with the operation or the register in the opcode. -/
theorem stackless_of_range : ∀ byte : U8,
    (byte ≤ 0x3d ∧ (byte &&& 7 = 4 ∨ byte &&& 7 = 5)) ∨ (0x50 ≤ byte ∧ byte ≤ 0x57) ∨
      (0x70 ≤ byte ∧ byte ≤ 0x7f) ∨ (0x90 ≤ byte ∧ byte ≤ 0x97) ∨ (0xb0 ≤ byte ∧ byte ≤ 0xbf) →
    (Opcode.oneByte byte).Stackless = true := by
  decide

theorem audits_oneByte_withoutOperand (hwithout : (Opcode.oneByte byte).WithoutOperand = true)
    (hescape : byte ≠ 0x0f) :
    Audits prefixes (.oneByte byte) ((Opcode.oneByte byte).execute host prefixes) := by
  change Audits prefixes (.oneByte byte) (execute host prefixes byte)
  rcases of_decide_eq_true hwithout with ⟨hle, hform⟩ | hstack | hjcc | hxchg | hmov | hmem
  · have hle5 : byte &&& 7 ≤ 5 := by rcases hform with h | h <;> rw [h] <;> decide
    have hnot3 : ¬byte &&& 7 ≤ 3 := by rcases hform with h | h <;> rw [h] <;> decide
    rw [execute_of_aluAccumulator ⟨hle, hle5⟩ hnot3]
    exact Audits.of_stackless (stackless_of_range byte (.inl ⟨hle, hform⟩))
      (KeepsReads.executeAluAccumulator byte prefixes)
  · by_cases hpush : byte ≤ 0x57
    · rw [execute_of_push ⟨hstack.1, hpush⟩]
      exact Audits.of_stackless (stackless_of_range byte (.inr (.inl ⟨hstack.1, hpush⟩)))
        (KeepsReads.executePush byte prefixes)
    · have hpop : 0x58 ≤ byte ∧ byte ≤ 0x5f := ⟨by bv_omega, hstack.2⟩
      rw [execute_of_pop hpop]
      exact audits_popInto hpop _
  · rw [execute_of_jccShort hjcc]
    exact Audits.of_stackless (stackless_of_range byte (.inr (.inr (.inl hjcc))))
      (KeepsReads.executeJccShort byte)
  · rw [execute_of_xchgShort hxchg]
    exact Audits.of_stackless (stackless_of_range byte (.inr (.inr (.inr (.inl hxchg)))))
      (KeepsReads.executeXchgShort byte prefixes)
  · rw [execute_of_movImmediate hmov]
    exact Audits.of_stackless (stackless_of_range byte (.inr (.inr (.inr (.inr hmov)))))
      (KeepsReads.executeMovImmediate byte prefixes)
  clear hwithout
  fin_cases hmem
  · exact absurd rfl hescape
  · exact Audits.of_stackless rfl (KeepsReads.executePushImmediate 0x68)
  · exact Audits.of_stackless rfl (KeepsReads.executePushImmediate 0x6a)
  · exact Audits.of_stackless rfl (KeepsReads.executeCdqe prefixes)
  · exact Audits.of_stackless rfl (KeepsReads.executeCqo prefixes)
  · exact Audits.of_plain (KeepsReads.executeStringInstruction _ prefixes) rfl
  · exact Audits.of_plain (KeepsReads.executeStringInstruction _ prefixes) rfl
  · exact Audits.of_stackless rfl (KeepsReads.executeTestAccumulator _ prefixes)
  · exact Audits.of_stackless rfl (KeepsReads.executeTestAccumulator _ prefixes)
  · exact Audits.of_stackless rfl (KeepsReads.executeStringInstruction _ prefixes)
  · exact Audits.of_stackless rfl (KeepsReads.executeStringInstruction _ prefixes)
  · exact audits_retImmediate
  · exact audits_ret
  · exact audits_leave
  · exact Audits.of_stackless rfl (KeepsReads.executeLoop _)
  · exact Audits.of_stackless rfl (KeepsReads.executeLoop _)
  · exact Audits.of_stackless rfl (KeepsReads.executeLoop _)
  · exact Audits.of_stackless rfl KeepsReads.executeJrcxz
  · exact Audits.of_stackless rfl KeepsReads.executeCall
  · exact Audits.of_stackless rfl (KeepsReads.executeJmp 0xe9)
  · exact Audits.of_stackless rfl (KeepsReads.executeJmp 0xeb)
  · exact Audits.of_stackless rfl fun _ _ hreads => hreads
  · exact Audits.of_stackless rfl fun _ _ hreads => hreads
  · exact Audits.of_stackless rfl fun _ _ hreads => hreads

theorem audits_twoByte_withoutOperand (hwithout : (Opcode.twoByte byte).WithoutOperand = true)
    (hsyscall : byte ≠ 0x05) :
    Audits prefixes (.twoByte byte) ((Opcode.twoByte byte).execute host prefixes) := by
  have hstackless : (Opcode.twoByte byte).Stackless = true := by
    clear hsyscall
    revert byte
    decide
  change Audits prefixes (.twoByte byte) (executeTwoByte host byte prefixes)
  rcases of_decide_eq_true hwithout with hjcc | hbswap | hmem
  · rw [executeTwoByte_of_jccNear hjcc]
    exact Audits.of_stackless hstackless (KeepsReads.executeJccNear byte)
  · rw [executeTwoByte_of_bswap hbswap]
    exact Audits.of_stackless hstackless (KeepsReads.executeBswap byte prefixes)
  clear hstackless hwithout
  fin_cases hmem
  · exact absurd rfl hsyscall
  · exact Audits.of_stackless rfl (KeepsReads.fetch8.bind fun _ => KeepsReads.pure _)
  · exact Audits.of_stackless rfl fun _ _ hreads => hreads
  · exact Audits.of_stackless rfl fun _ _ hreads => hreads

/-- An instruction with an operand. -/
theorem OperandRest.audits {rest : ModRM → Operand → EmulatorProgram Unit}
    (h : OperandRest host prefixes opcode rest) :
    Audits prefixes opcode (opcode.execute host prefixes) := by
  cases h with
  | aluRmReg h =>
      rw [Opcode.execute, execute_of_aluRmReg h]
      exact audits_aluRmReg h
  | movsxd => exact audits_movsxd
  | imulImmediate h => rcases h with rfl | rfl <;> exact audits_imulImmediate (by decide)
  | aluImm h => rcases h with rfl | rfl | rfl <;> exact audits_aluImm (by decide)
  | test h => rcases h with rfl | rfl <;> exact audits_test (by decide)
  | xchg => exact audits_xchg
  | movStore h => rcases h with rfl | rfl <;> exact audits_movStore (by decide)
  | movLoad h => rcases h with rfl | rfl <;> exact audits_movLoad (by decide)
  | lea => exact audits_lea
  | popOperand => exact audits_popOperand
  | shiftGroup h => fin_cases h <;> exact audits_shiftGroup (by decide)
  | movOperandImmediate h =>
      rcases h with rfl | rfl <;> exact audits_movOperandImmediate (by decide)
  | x87 h =>
      fin_cases h <;> exact Audits.of_plain (KeepsReads.executeX87 host.float _ prefixes) rfl
  | groupF6F7 h => rcases h with rfl | rfl <;> exact audits_groupF6F7 (by decide)
  | groupFf => exact audits_groupFf
  | setcc h =>
      rw [Opcode.execute, executeTwoByte_of_setcc h]
      exact audits_setcc h
  | cmovcc h =>
      rw [Opcode.execute, executeTwoByte_of_cmovcc h]
      exact audits_cmovcc h
  | hint h => fin_cases h <;> exact audits_hint (by decide)
  | bitString h =>
      fin_cases h <;> exact Audits.of_plain (KeepsReads.executeBitString _ prefixes) rfl
  | doubleShift h => fin_cases h <;> exact audits_doubleShift (by decide)
  | groupAe => exact Audits.of_plain (KeepsReads.executeGroupAe prefixes) rfl
  | imulRegister => exact audits_imulRegister
  | cmpxchg h => rcases h with rfl | rfl <;> exact audits_cmpxchg (by decide)
  | extend h => fin_cases h <;> exact audits_extend (by decide)
  | groupBa => exact audits_groupBa
  | bitScan h => rcases h with rfl | rfl <;> exact audits_bitScan (by decide)
  | xadd h => rcases h with rfl | rfl <;> exact audits_xadd (by decide)
  | movnti => exact audits_movnti
  | packed h _ =>
      rw [Opcode.execute, executeTwoByte_of_packedInteger h]
      exact audits_packedInteger h
  | selected h _ =>
      rw [Opcode.execute, executeTwoByte_of_packedInteger h]
      exact audits_packedInteger h
  | storeXmm h =>
      rcases h with rfl | rfl | rfl <;> exact audits_packedInteger rfl
  | loadXmm => exact audits_loadXmm
  | byteShift => exact audits_packedInteger rfl
  | movq => exact audits_movq
  | storeLow => exact audits_packedInteger rfl
  | pmovmskb => exact audits_packedInteger rfl
  | sseFloat h =>
      rw [Opcode.execute, executeTwoByte_of_isSseFloat h]
      exact audits_sseFloat host.float h

/-- Every instruction but `SYSCALL` logs its loads, unless these are plain reads. -/
theorem audits_execute (hsyscall : opcode ≠ .twoByte 0x05) (hescape : opcode ≠ .oneByte 0x0f) :
    Audits prefixes opcode (opcode.execute host prefixes) := by
  intro decoded after hrun
  cases hwithout : opcode.WithoutOperand with
  | false =>
      rcases exists_operandRest hrun hwithout with ⟨rest, hrest⟩
      exact hrest.audits decoded after hrun
  | true =>
      cases opcode with
      | oneByte byte =>
          have hbyte : byte ≠ 0x0f := fun h => hescape (congrArg Opcode.oneByte h)
          exact audits_oneByte_withoutOperand hwithout hbyte decoded after hrun
      | twoByte byte =>
          have hbyte : byte ≠ 0x05 := fun h => hsyscall (congrArg Opcode.twoByte h)
          exact audits_twoByte_withoutOperand hwithout hbyte decoded after hrun

/-! ## Steps -/

section Steps

variable {emulator decoded final : Emulator} {log : List U64}

/-- Decoding fetches code and nothing else. -/
theorem KeepsReads.decodeInstruction : KeepsReads decodeInstruction := by
  have hloop : ∀ fuel prefixes, KeepsReads (readPrefixesLoop fuel prefixes) := by
    intro fuel
    induction fuel with
    | zero => exact fun prefixes => KeepsReads.throw _
    | succ fuel ih =>
        intro prefixes
        refine KeepsReads.getCPU.bind fun cpu => (KeepsReads.readMMU _).bind fun byte => ?_
        split
        · exact (KeepsReads.modifyCPU _).bind fun _ => ih _
        · exact KeepsReads.pure _
  refine ((KeepsReads.modifyCPU _).bind fun _ => (hloop _ _).bind fun _ =>
    KeepsReads.fetch8.bind fun _ => KeepsReads.pure _).bind fun first => KeepsReads.ite ?_ ?_
  · exact KeepsReads.fetch8.bind fun _ => KeepsReads.pure _
  · exact KeepsReads.pure _

/-- The byte `0F` is not an opcode of its own. -/
theorem ne_escape_of_decodeInstruction
    (h : decodeInstruction emulator = .ok (prefixes, opcode) decoded) :
    opcode ≠ .oneByte 0x0f := by
  rcases bind_eq_ok_iff.mp h with ⟨⟨prefixes', first⟩, middle, -, hrest⟩
  by_cases hescape : first = 0x0f
  · subst hescape
    rcases bind_eq_ok_iff.mp hrest with ⟨second, last, -, hreturn⟩
    cases hreturn
    exact Opcode.noConfusion
  · have hreturn : (pure (prefixes', Opcode.oneByte first) : EmulatorProgram _) middle =
        .ok (prefixes, opcode) decoded := by
      rw [← hrest]
      exact (congrFun (if_neg hescape) middle).symm
    cases hreturn
    exact fun h => hescape (Opcode.oneByte.inj h)

/-- A step calls the read observer for exactly the addresses that its instruction loads as data
unless the instruction loads them by plain reads, which are not observed. -/
theorem step_dataLoads_iff
    (hdecode : decodeInstruction emulator = .ok (prefixes, opcode) decoded)
    (hstep : step host emulator = .ok () final) (hsyscall : opcode ≠ .twoByte 0x05)
    (hobserved : emulator.mmu.readObserver = some log) :
    (∃ logged, final.mmu.readObserver = some (log ++ logged) ∧
      ∀ address, address ∈ logged ↔ DataLoad prefixes opcode decoded address) ↔
    (opcode.LoadsPlainly = true → ∀ address, ¬DataLoad prefixes opcode decoded address) := by
  rw [step_of_decodedInstruction hdecode] at hstep
  rcases bind_eq_ok_iff.mp hstep with ⟨_, last, hexecute, hfinish⟩
  cases hfinish
  have hbegin : decoded.mmu.readObserver = some log := by
    have hkept := KeepsReads.decodeInstruction.logsFrom emulator _ _ hdecode
    simpa [hobserved] using hkept
  rcases audits_execute hsyscall (ne_escape_of_decodeInstruction hdecode) decoded last hexecute
    with ⟨audited, hlog, haudited⟩
  rw [hbegin] at hlog
  have hfinal : (last.withCPU (finishInstruction last.cpu)).mmu.readObserver =
      some (log ++ audited) := hlog
  constructor
  · rintro ⟨logged, hlogged, hiff⟩ hplain address hload
    have hsame : audited = logged :=
      List.append_cancel_left (Option.some.inj (hfinal.symm.trans hlogged))
    subst hsame
    rw [((haudited address).mp ((hiff address).mpr hload)).1] at hplain
    contradiction
  · intro hplain
    refine ⟨audited, hfinal, fun address => ?_⟩
    rw [haudited address]
    cases hopcode : opcode.LoadsPlainly with
    | false => simp
    | true => simp [hplain hopcode address]

end Steps

section Examples

/-- `mov 0x10(%rip), %eax`, observed. -/
def movObserved : Emulator :=
  observedBy movRelative (some []) none

/-- The observer is called for the four bytes of the operand. -/
theorem step_dataLoads_mov :
    ∃ logged, (finalState (step Emulator.quietHost movObserved)).mmu.readObserver =
        some ([] ++ logged) ∧
      ∀ address, address ∈ logged ↔ DataLoad {} (.oneByte 0x8b)
        (finalState (decodeInstruction movObserved)) address := by
  have hdecode : decodeInstruction movObserved =
      .ok ({}, .oneByte 0x8b) (finalState (decodeInstruction movObserved)) :=
    eq_ok_of_returned (by decide)
  have hstep : step Emulator.quietHost movObserved =
      .ok () (finalState (step Emulator.quietHost movObserved)) :=
    eq_ok_of_returned (by decide)
  refine (step_dataLoads_iff hdecode hstep (by decide) rfl).mpr fun hplain => ?_
  cases hplain

/-- `movaps 0x10(%rip), %xmm0`, observed. -/
def movapsObserved : Emulator :=
  observedBy (startingAt [0x0f, 0x28, 0x05, 0x10, 0x00, 0x00, 0x00]) (some []) none

/-- The move of sixteen bytes returns, and the observer has seen none of them. -/
theorem movaps_loads_unobserved :
    returned (step Emulator.quietHost movapsObserved) = some () ∧
      returned (decodeInstruction movapsObserved) = some ({}, .twoByte 0x28) ∧
      (finalState (step Emulator.quietHost movapsObserved)).mmu.readObserver = some [] ∧
      DataLoad {} (.twoByte 0x28) (finalState (decodeInstruction movapsObserved)) 0x1017 := by
  refine ⟨by decide, by decide, by decide, ?_⟩
  generalize hdecoded : finalState (decodeInstruction movapsObserved) = decoded
  have hmodrm : fetchModrm {} decoded =
      .ok { byte := 0x05, mod := 0, rm := 5 } (finalState (fetchModrm {} decoded)) := by
    rw [← hdecoded]
    exact eq_ok_of_returned (by decide)
  generalize hselected : finalState (fetchModrm {} decoded) = selected at hmodrm
  have hoperand : decodeRmOperand {} { byte := 0x05, mod := 0, rm := 5 } selected =
      .ok (.memory ⟨0x1017, true, 0x10⟩)
        (finalState (decodeRmOperand {} { byte := 0x05, mod := 0, rm := 5 } selected)) := by
    rw [← hselected, ← hdecoded]
    exact eq_ok_of_returned (by decide)
  refine (dataLoad_iff_of_operand rfl _ _).mpr ⟨_, _, _, _, hmodrm, hoperand, ?_⟩
  rw [← hselected, ← hdecoded]
  decide

end Examples

end SoftCPU64

end LUE
