import LinuxUserspaceEmulator.SoftCPU64.Division
import LinuxUserspaceEmulator.SoftCPU64.Immediates
import LinuxUserspaceEmulator.SoftCPU64.TwoRuns

/-!
# Short and long exchange

The one-byte exchange swaps two whole registers whatever the operand width is; the exchange with
a ModRM byte swaps the operands and writes them at the width.  The two differ in the bits above
the operand.

Main results:

- Theorem `gpr_executeXchg`: the long exchange writes each operand over the other.
- Theorem `step_xchg_agree_iff`: when the two exchanges leave the same registers.
- Theorem `step_xchg_short`: `xchg %ecx, %eax` keeps the upper halves.
-/

namespace LUE

open StateExcept

namespace SoftCPU64

variable {prefixes : Prefixes} {a b : U64} {r : Register}

/-! ## Operands over registers -/

/-- A register after an operand was written over it: 16 bits are replaced, 32 bits are extended
with zeros. -/
def overwritten (width : Width) (old value : U64) : U64 :=
  if width = .w32 then value &&& maskForWidth .w32
  else old &&& ~~~maskForWidth width ||| value &&& maskForWidth width

/-- Two registers whose exchange at a width is an exchange of the whole registers. -/
def WholeExchange (width : Width) (a b : U64) : Prop :=
  match width with
  | .w32 => a &&& ~~~maskForWidth .w32 = 0 ∧ b &&& ~~~maskForWidth .w32 = 0
  | .w64 => True
  | width => a &&& ~~~maskForWidth width = b &&& ~~~maskForWidth width

theorem or_and_eq_iff (a b mask : U64) :
    a &&& ~~~mask ||| b &&& mask = b ↔ a &&& ~~~mask = b &&& ~~~mask := by
  constructor
  · intro h
    ext i hi
    have hbit := congrArg (fun value : U64 => value[i]) h
    simp only [BitVec.getElem_or, BitVec.getElem_and, BitVec.getElem_not] at hbit ⊢
    grind
  · intro h
    ext i hi
    have hbit := congrArg (fun value : U64 => value[i]) h
    simp only [BitVec.getElem_or, BitVec.getElem_and, BitVec.getElem_not] at hbit ⊢
    grind

theorem and_eq_self_iff (a mask : U64) : a &&& mask = a ↔ a &&& ~~~mask = 0 := by
  constructor
  · intro h
    ext i hi
    have hbit := congrArg (fun value : U64 => value[i]) h
    simp only [BitVec.getElem_and, BitVec.getElem_not] at hbit ⊢
    grind
  · intro h
    ext i hi
    have hbit := congrArg (fun value : U64 => value[i]) h
    simp only [BitVec.getElem_and, BitVec.getElem_not] at hbit ⊢
    grind

/-- Writing the operands over each other exchanges the registers. -/
theorem overwritten_eq_iff (width : Width) :
    (overwritten width a b = b ∧ overwritten width b a = a) ↔ WholeExchange width a b := by
  cases width with
  | w32 =>
      simp only [overwritten, if_true, WholeExchange, and_eq_self_iff]
      exact And.comm
  | w8 =>
      simp only [overwritten, WholeExchange, or_and_eq_iff, reduceCtorEq, if_false]
      exact and_iff_left_of_imp Eq.symm
  | w16 =>
      simp only [overwritten, WholeExchange, or_and_eq_iff, reduceCtorEq, if_false]
      exact and_iff_left_of_imp Eq.symm
  | w64 =>
      have hmask : ~~~maskForWidth .w64 = 0 := by decide
      have hall : ∀ value other : U64, value &&& ~~~maskForWidth .w64 =
          other &&& ~~~maskForWidth .w64 := by
        intro value other
        rw [hmask]
        exact BitVec.and_zero.trans BitVec.and_zero.symm
      simp only [overwritten, WholeExchange, or_and_eq_iff, reduceCtorEq, if_false]
      exact iff_of_true ⟨hall a b, hall b a⟩ trivial

/-- Writing a lane that is not a byte overwrites its register. -/
theorem writeLane_of_ne_w8 {width : Width} (hwidth : width ≠ .w8) (file : Register → U64)
    (register : Register) (value : U64) :
    writeLane file register width prefixes value =
      Function.update file register (overwritten width (file register) value) := by
  unfold writeLane
  simp only [isHighByte_of_ne hwidth]
  cases width with
  | w8 => exact absurd rfl hwidth
  | w16 => rfl
  | w32 => rfl
  | w64 =>
      have hmask : ~~~maskForWidth .w64 = 0 := by decide
      simp [overwritten, hmask]

theorem overwritten_and (width : Width) (old value : U64) :
    overwritten width old (value &&& maskForWidth width) = overwritten width old value := by
  unfold overwritten
  by_cases hwidth : width = .w32
  · rw [if_pos hwidth, if_pos hwidth, hwidth, BitVec.and_assoc, BitVec.and_self]
  · rw [if_neg hwidth, if_neg hwidth, BitVec.and_assoc, BitVec.and_self]

/-! ## The two exchanges -/

/-- The register file after one operand was written over `a` and the other over `b`. -/
def exchanged (width : Width) (file : Register → U64) (a b : Register) : Register → U64 :=
  Function.update (Function.update file a (overwritten width (file a) (file b))) b
    (overwritten width (file b) (file a))

theorem exchanged_comm {width : Width} {file : Register → U64} {a b : Register} (hne : a ≠ b) :
    exchanged width file a b = exchanged width file b a :=
  Function.update_comm hne _ _ _

/-- Reading a register leaves the registers as they are. -/
theorem gpr_afterReadGpr (register : Register) (width : Width) (s : Emulator) :
    (afterReadGpr register width prefixes s).cpu.gpr = s.cpu.gpr := by
  unfold afterReadGpr
  split
  · rfl
  · rfl

/-- The long exchange writes each operand over the other. -/
theorem gpr_executeXchg {s selected s' : Emulator} {modrm : ModRM}
    (hmodrm : fetchModrm prefixes s = .ok modrm selected) (hregister : modrm.isRegister = true)
    (hne : modrm.rm ≠ modrm.reg) (h : executeXchg prefixes s = .ok () s') :
    s'.cpu.gpr = exchanged (operandWidth prefixes) s.cpu.gpr modrm.rm modrm.reg := by
  have hoperand : decodeRmOperand prefixes modrm selected = .ok (.register modrm.rm) selected := by
    rw [decodeRmOperand, if_pos hregister]
    rfl
  have hgpr : selected.cpu.gpr = s.cpu.gpr := by
    rw [fetchModrm_eq_ok hmodrm]
    rfl
  have hwidth := operandWidth_ne_w8 prefixes
  rw [executeXchg, bind_of_ok hmodrm, bind_of_ok hoperand] at h
  rcases bind_eq_ok_iff.mp h with ⟨lhs, afterLhs, hlhs, hrest⟩
  rcases bind_eq_ok_iff.mp hrest with ⟨rhs, afterRhs, hrhs, hwrites⟩
  have hleft : readGpr modrm.rm (operandWidth prefixes) prefixes selected = .ok lhs afterLhs := hlhs
  rw [readGpr_apply] at hleft hrhs
  cases hleft
  cases hrhs
  cases hwrites
  change writeLane (writeLane (afterReadGpr _ _ _ (afterReadGpr _ _ _ _)).cpu.gpr _ _ _ _)
    _ _ _ _ = _
  rw [gpr_afterReadGpr, gpr_afterReadGpr, hgpr]
  simp only [writeLane_of_ne_w8 hwidth,
    readLane_of_not_isHighByte _ (isHighByte_of_ne hwidth _ _), overwritten_and,
    Function.update_of_ne hne.symm, exchanged]

/-- The short exchange swaps the whole registers. -/
theorem gpr_executeXchgShort {s s' : Emulator} {opcode : U8}
    (hr : registerAt opcode prefixes.rexB = r) (hne : r ≠ .rax)
    (h : executeXchgShort opcode prefixes s = .ok () s') :
    s'.cpu.gpr = Function.update (Function.update s.cpu.gpr .rax (s.cpu.gpr r)) r
      (s.cpu.gpr .rax) := by
  subst hr
  unfold executeXchgShort at h
  rw [if_neg hne] at h
  cases h
  rfl

/-! ## Steps -/

/-- The short exchange of a register with the accumulator and the long exchange of the two leave
the same registers exactly when exchanging the operands exchanges the whole registers: with 64
bits, with the same bits above 16, or with nothing above 32. -/
theorem step_xchg_agree_iff {host : Host} {short decoded short' long decoded' long' : Emulator}
    {prefixes' : Prefixes} {opcode : U8} {modrm : ModRM} {selected : Emulator}
    (hshort : decodeOpcode short = .ok (prefixes, opcode) decoded)
    (hopcode : 0x90 ≤ opcode ∧ opcode ≤ 0x97) (hr : registerAt opcode prefixes.rexB = r)
    (hne : r ≠ .rax) (hlong : decodeOpcode long = .ok (prefixes', 0x87) decoded')
    (hmodrm : fetchModrm prefixes' decoded' = .ok modrm selected)
    (hregister : modrm.isRegister = true)
    (hnames : modrm.rm = .rax ∧ modrm.reg = r ∨ modrm.rm = r ∧ modrm.reg = .rax)
    (hwidth : operandWidth prefixes' = operandWidth prefixes)
    (hgpr : long.cpu.gpr = short.cpu.gpr) (hstep : step host short = .ok () short')
    (hstep' : step host long = .ok () long') :
    short'.cpu.gpr = long'.cpu.gpr ↔
      WholeExchange (operandWidth prefixes) (short.cpu.gpr .rax) (short.cpu.gpr r) := by
  rcases decodeOpcode_eq_ok hshort with ⟨pc, rfl⟩
  rcases decodeOpcode_eq_ok hlong with ⟨pc', rfl⟩
  rcases execute_of_step hshort hstep with ⟨final, hexecute, rfl⟩
  rcases execute_of_step hlong hstep' with ⟨final', hexecute', rfl⟩
  rw [execute_of_xchgShort hopcode] at hexecute
  have hswapped := gpr_executeXchgShort hr hne hexecute
  have hrm : modrm.rm ≠ modrm.reg := by
    rcases hnames with ⟨hrm, hreg⟩ | ⟨hrm, hreg⟩
    · rw [hrm, hreg]
      exact hne.symm
    · rw [hrm, hreg]
      exact hne
  have hexchanged := gpr_executeXchg hmodrm hregister hrm hexecute'
  have hboth : final'.cpu.gpr = exchanged (operandWidth prefixes) short.cpu.gpr .rax r := by
    rw [hexchanged, hwidth]
    change exchanged _ long.cpu.gpr _ _ = _
    rw [hgpr]
    rcases hnames with ⟨hrm, hreg⟩ | ⟨hrm, hreg⟩
    · rw [hrm, hreg]
    · rw [hrm, hreg, exchanged_comm hne]
  change final.cpu.gpr = final'.cpu.gpr ↔ _
  rw [hswapped, hboth, ← overwritten_eq_iff]
  change Function.update (Function.update short.cpu.gpr .rax (short.cpu.gpr r)) r
    (short.cpu.gpr .rax) = exchanged _ short.cpu.gpr .rax r ↔ _
  constructor
  · intro hsame
    have hrax := congrFun hsame .rax
    have hother := congrFun hsame r
    simp only [exchanged, Function.update_self, Function.update_of_ne hne.symm] at hrax hother
    exact ⟨hrax.symm, hother.symm⟩
  · rintro ⟨hrax, hother⟩
    rw [exchanged, hrax, hother]

section Examples

/-- A program with values in two registers. -/
def exchanging (code : List U8) (a b : U64) : Emulator :=
  let emulator := startingAt code
  emulator.withCPU ((emulator.cpu.setReg .rax a).setReg .rcx b)

/-- `xchg %ecx, %eax` and `xchg %eax, %ecx` on values that fit 32 bits. -/
theorem step_xchg_agree_small :
    (finalState (step Emulator.quietHost (exchanging [0x91] 1 2))).cpu.gpr =
      (finalState (step Emulator.quietHost (exchanging [0x87, 0xc1] 1 2))).cpu.gpr := by
  have hshort : decodeOpcode (exchanging [0x91] 1 2) =
      .ok ({}, 0x91) (finalState (decodeOpcode (exchanging [0x91] 1 2))) :=
    eq_ok_of_returned (by decide)
  have hlong : decodeOpcode (exchanging [0x87, 0xc1] 1 2) =
      .ok ({}, 0x87) (finalState (decodeOpcode (exchanging [0x87, 0xc1] 1 2))) :=
    eq_ok_of_returned (by decide)
  have hmodrm : fetchModrm {} (finalState (decodeOpcode (exchanging [0x87, 0xc1] 1 2))) =
      .ok { byte := 0xc1, mod := 3, rm := .rcx } (finalState
        (fetchModrm {} (finalState (decodeOpcode (exchanging [0x87, 0xc1] 1 2))))) :=
    eq_ok_of_returned (by decide)
  have hstep : step Emulator.quietHost (exchanging [0x91] 1 2) =
      .ok () (finalState (step Emulator.quietHost (exchanging [0x91] 1 2))) :=
    eq_ok_of_returned (by decide)
  have hstep' : step Emulator.quietHost (exchanging [0x87, 0xc1] 1 2) =
      .ok () (finalState (step Emulator.quietHost (exchanging [0x87, 0xc1] 1 2))) :=
    eq_ok_of_returned (by decide)
  have hwhole : WholeExchange (operandWidth {}) 1 2 := ⟨by decide, by decide⟩
  exact (step_xchg_agree_iff hshort (by decide) rfl (by decide) hlong hmodrm rfl
    (Or.inr ⟨rfl, rfl⟩) rfl rfl hstep hstep').mpr hwhole

/-- `xchg %ecx, %eax` keeps the upper half of `%rcx`, which `xchg %eax, %ecx` clears. -/
theorem step_xchg_short :
    ∃ short long, step Emulator.quietHost (exchanging [0x91] 1 (-1)) = .ok () short ∧
      step Emulator.quietHost (exchanging [0x87, 0xc1] 1 (-1)) = .ok () long ∧
      short.cpu.gpr .rax = -1 ∧ long.cpu.gpr .rax = 0xffffffff := by
  have hrun : returned (step Emulator.quietHost (exchanging [0x91] 1 (-1))) = some () ∧
      returned (step Emulator.quietHost (exchanging [0x87, 0xc1] 1 (-1))) = some () ∧
      (finalState (step Emulator.quietHost (exchanging [0x91] 1 (-1)))).cpu.gpr .rax = -1 ∧
      (finalState (step Emulator.quietHost (exchanging [0x87, 0xc1] 1 (-1)))).cpu.gpr .rax =
        0xffffffff := by
    decide
  exact ⟨_, _, eq_ok_of_returned hrun.1, eq_ok_of_returned hrun.2.1, hrun.2.2⟩

end Examples

end SoftCPU64

end LUE
