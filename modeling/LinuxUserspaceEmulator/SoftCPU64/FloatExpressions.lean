import Mathlib.Data.Fintype.Basic
import Mathlib.Data.List.GetD
import Mathlib.Tactic.FinCases
import LinuxUserspaceEmulator.SoftCPU64.AssembledMoves

/-!
# Floating-point expressions

The eight registers of the floating-point unit are a ring that the top of the stack turns
through.  As long as no more than eight values are on it the ring is a stack, and the register
forms of the instructions compute like a calculator in postfix notation.

Main results:

- Theorems `HoldsStack.fpuPush`, `HoldsStack.fpuPop` and `HoldsStack.setFst`: the ring as a list.
- Theorem `stepAll_assembledFloats`: the CPU runs instructions as the calculator does.
- Theorem `stepAll_expression`: the code of an expression puts its value on the stack.
-/

namespace LUE

open StateExcept

namespace SoftCPU64

/-! ## The ring as a stack -/

section Ring

variable {cpu : SoftCPU64} {stack : List LongDouble} {value : LongDouble} {i j : Nat}

theorem fpuSlot_inj (hi : i < 8) (hj : j < 8) : cpu.fpuSlot i = cpu.fpuSlot j ↔ i = j := by
  have htop := cpu.fpuTop.isLt
  rw [Fin.ext_iff]
  change (cpu.fpuTop.val + i) % 8 = (cpu.fpuTop.val + j) % 8 ↔ i = j
  omega

theorem fpuSlot_zero : cpu.fpuSlot 0 = cpu.fpuTop := by
  rw [Fin.ext_iff]
  exact Nat.mod_eq_of_lt cpu.fpuTop.isLt

/-- No other register of the ring is the top. -/
theorem fpuSlot_succ_ne_top (hi : i < 7) : cpu.fpuSlot (i + 1) ≠ cpu.fpuTop := by
  intro heq
  rw [← fpuSlot_zero, fpuSlot_inj (Nat.succ_lt_succ hi) (by decide)] at heq
  exact Nat.succ_ne_zero i heq

/-- Behind a pushed value the registers are as they were. -/
theorem fpuSlot_fpuPush : (cpu.fpuPush value).fpuSlot (i + 1) = cpu.fpuSlot i := by
  have htop := cpu.fpuTop.isLt
  rw [Fin.ext_iff]
  change ((cpu.fpuTop - 1).val + (i + 1)) % 8 = (cpu.fpuTop.val + i) % 8
  rw [Fin.val_sub]
  change ((8 - 1 + cpu.fpuTop.val) % 8 + (i + 1)) % 8 = (cpu.fpuTop.val + i) % 8
  omega

theorem fpuSlot_fpuPop : cpu.fpuPop.fpuSlot i = cpu.fpuSlot (i + 1) := by
  rw [Fin.ext_iff]
  change ((cpu.fpuTop + 1).val + i) % 8 = (cpu.fpuTop.val + (i + 1)) % 8
  rw [Fin.val_add]
  change ((cpu.fpuTop.val + 1) % 8 + i) % 8 = (cpu.fpuTop.val + (i + 1)) % 8
  omega

/-- The values on the register stack, the top first. -/
structure HoldsStack (cpu : SoftCPU64) (stack : List LongDouble) : Prop where
  length_le : stack.length ≤ 8
  values : ∀ i (h : i < stack.length), cpu.fst i = stack[i]
  filled : ∀ i < stack.length, cpu.fstEmpty i = false

theorem HoldsStack.fpuPush (h : HoldsStack cpu stack) (hroom : stack.length < 8)
    (value : LongDouble) : HoldsStack (cpu.fpuPush value) (value :: stack) := by
  -- no register of the stack is the one that the top has turned to
  have hother : ∀ i < stack.length, (cpu.fpuPush value).fpuSlot (i + 1) ≠
      (cpu.fpuPush value).fpuTop :=
    fun i hi => fpuSlot_succ_ne_top (by omega)
  constructor
  · rw [List.length_cons]
    exact hroom
  · intro i hi
    cases i with
    | zero =>
        rw [fst, fpuSlot_zero]
        exact Function.update_self _ _ _
    | succ i =>
        have hi' : i < stack.length := Nat.lt_of_succ_lt_succ hi
        have hkept : (cpu.fpuPush value).fst (i + 1) = cpu.fpuSt ((cpu.fpuPush value).fpuSlot
            (i + 1)) := Function.update_of_ne (hother i hi') _ _
        rw [hkept, fpuSlot_fpuPush]
        exact h.values i hi'
  · intro i hi
    cases i with
    | zero =>
        rw [fstEmpty, fpuSlot_zero]
        exact Function.update_self _ _ _
    | succ i =>
        have hi' : i < stack.length := Nat.lt_of_succ_lt_succ hi
        have hkept : (cpu.fpuPush value).fstEmpty (i + 1) = cpu.fpuEmpty
            ((cpu.fpuPush value).fpuSlot (i + 1)) := Function.update_of_ne (hother i hi') _ _
        rw [hkept, fpuSlot_fpuPush]
        exact h.filled i hi'

theorem HoldsStack.fpuPop (h : HoldsStack cpu (value :: stack)) : HoldsStack cpu.fpuPop stack := by
  have hlength : stack.length < 8 := h.length_le
  constructor
  · exact Nat.le_of_lt hlength
  · intro i hi
    rw [fst, fpuSlot_fpuPop]
    exact h.values (i + 1) (Nat.succ_lt_succ hi)
  · intro i hi
    have hother : cpu.fpuSlot (i + 1) ≠ cpu.fpuTop := fpuSlot_succ_ne_top (by omega)
    rw [fstEmpty, fpuSlot_fpuPop]
    exact (Function.update_of_ne hother _ _).trans (h.filled (i + 1) (Nat.succ_lt_succ hi))

theorem HoldsStack.setFst (h : HoldsStack cpu stack) (hi : i < stack.length)
    (value : LongDouble) : HoldsStack (cpu.setFst i value) (stack.set i value) := by
  have hlength := h.length_le
  constructor
  · rw [List.length_set]
    exact hlength
  · intro j hj
    rw [List.length_set] at hj
    rw [List.getElem_set]
    by_cases hij : i = j
    · rw [if_pos hij, ← hij]
      exact Function.update_self _ _ _
    · rw [if_neg hij, ← h.values j hj]
      have hother : cpu.fpuSlot j ≠ cpu.fpuSlot i := by
        rw [Ne, fpuSlot_inj (by omega) (by omega)]
        exact Ne.symm hij
      exact Function.update_of_ne hother _ _
  · intro j hj
    rw [List.length_set] at hj
    exact h.filled j hj

end Ring

/-! ## Instructions -/

/-- The constants of `D9`. -/
inductive FloatConstant where
  | one | log2Ten | log2E | pi | log10Two | logTwo | zero
  deriving DecidableEq, Repr

/-- The operations of `D9` that replace the top of the stack. -/
inductive FloatUnary where
  | neg | abs | exp2MinusOne | sqrt | rint | sin | cos
  deriving DecidableEq, Repr

/-- The operations of `DE` with a pop: the value below the top comes first. -/
inductive FloatBinary where
  | add | mul | sub | div
  deriving DecidableEq, Repr

/-- An instruction that works on the register stack. -/
inductive FloatInstruction where
  | constant (constant : FloatConstant)
  | copy (register : Fin 8)
  | unary (operation : FloatUnary)
  | binary (operation : FloatBinary)
  deriving DecidableEq, Repr

variable (float : HostFloat)

namespace FloatConstant

def byte : FloatConstant → U8
  | one => 0xe8
  | log2Ten => 0xe9
  | log2E => 0xea
  | pi => 0xeb
  | log10Two => 0xec
  | logTwo => 0xed
  | zero => 0xee

def value : FloatConstant → LongDouble
  | one => LongDouble.one
  | log2Ten => float.math.log2 LongDouble.ten
  | log2E => float.math.log2 LongDouble.e
  | pi => LongDouble.pi
  | log10Two => float.math.log10 LongDouble.two
  | logTwo => float.math.log LongDouble.two
  | zero => LongDouble.zero

end FloatConstant

namespace FloatUnary

def byte : FloatUnary → U8
  | neg => 0xe0
  | abs => 0xe1
  | exp2MinusOne => 0xf0
  | sqrt => 0xfa
  | rint => 0xfc
  | sin => 0xfe
  | cos => 0xff

def apply : FloatUnary → LongDouble → LongDouble
  | neg, a => LongDouble.neg a
  | abs, a => LongDouble.abs a
  | exp2MinusOne, a => float.extended.sub (float.math.exp2 a) LongDouble.one
  | sqrt, a => float.extended.sqrt a
  | rint, a => float.math.rint a
  | sin, a => float.math.sin a
  | cos, a => float.math.cos a

end FloatUnary

namespace FloatBinary

def byte : FloatBinary → U8
  | add => 0xc1
  | mul => 0xc9
  | sub => 0xe9
  | div => 0xf9

def apply : FloatBinary → LongDouble → LongDouble → LongDouble
  | add, a, b => float.extended.add a b
  | mul, a, b => float.extended.mul a b
  | sub, a, b => float.extended.sub a b
  | div, a, b => float.extended.div a b

end FloatBinary

namespace FloatInstruction

def opcode : FloatInstruction → U8
  | constant _ => 0xd9
  | copy _ => 0xd9
  | unary _ => 0xd9
  | binary _ => 0xde

def byte : FloatInstruction → U8
  | constant c => c.byte
  | copy register => BitVec.ofNat 8 (0xc0 + register.val)
  | unary operation => operation.byte
  | binary operation => operation.byte

/-- What the instruction does to the registers. -/
def effect (cpu : SoftCPU64) : FloatInstruction → SoftCPU64
  | constant c => cpu.fpuPush (c.value float)
  | copy register => cpu.fpuPush (cpu.fst register.val)
  | unary operation => cpu.setFst 0 (operation.apply float (cpu.fst 0))
  | binary operation =>
      (cpu.setFst 1 (operation.apply float (cpu.fst 1) (cpu.fst 0))).fpuPop

/-- What the instruction does to a stack; `none` when a value or the room for one is missing. -/
def onStack : FloatInstruction → List LongDouble → Option (List LongDouble)
  | constant c, stack => if stack.length < 8 then some (c.value float :: stack) else none
  | copy register, stack =>
      if stack.length < 8 then stack[register.val]?.map (fun a => a :: stack) else none
  | unary operation, a :: stack => some (operation.apply float a :: stack)
  | binary operation, a :: b :: stack => some (operation.apply float b a :: stack)
  | _, _ => none

variable {float}

theorem opcode_cases (instruction : FloatInstruction) :
    instruction.opcode = 0xd9 ∨ instruction.opcode = 0xde := by
  cases instruction with
  | constant c => exact Or.inl rfl
  | copy register => exact Or.inl rfl
  | unary operation => exact Or.inl rfl
  | binary operation => exact Or.inr rfl

theorem executeX87Register_eq (instruction : FloatInstruction) (emulator : Emulator) :
    executeX87Register float instruction.opcode instruction.byte emulator =
      .ok () (emulator.withCPU (instruction.effect float emulator.cpu)) := by
  cases instruction with
  | constant c => cases c <;> rfl
  | copy register => fin_cases register <;> rfl
  | unary operation => cases operation <;> rfl
  | binary operation => cases operation <;> rfl

theorem isRegister_byte (instruction : FloatInstruction) :
    (instruction.byte >>> 6 &&& 3 == 3) = true := by
  cases instruction with
  | constant c => cases c <;> rfl
  | copy register => fin_cases register <;> rfl
  | unary operation => cases operation <;> rfl
  | binary operation => cases operation <;> rfl

/-- The registers hold what the instruction makes of the stack. -/
theorem holdsStack_effect {cpu : SoftCPU64} {stack stack' : List LongDouble}
    (instruction : FloatInstruction) (hholds : HoldsStack cpu stack)
    (h : instruction.onStack float stack = some stack') :
    HoldsStack (instruction.effect float cpu) stack' := by
  cases instruction with
  | constant c =>
      obtain ⟨hroom, hstack⟩ := Option.ite_none_right_eq_some.mp h
      cases hstack
      exact hholds.fpuPush hroom _
  | copy register =>
      obtain ⟨hroom, hstack⟩ := Option.ite_none_right_eq_some.mp h
      obtain ⟨a, ha, rfl⟩ := Option.map_eq_some_iff.mp hstack
      obtain ⟨hregister, rfl⟩ := List.getElem?_eq_some_iff.mp ha
      rw [effect, hholds.values register.val hregister]
      exact hholds.fpuPush hroom _
  | unary operation =>
      cases stack with
      | nil => cases h
      | cons a stack =>
          cases h
          have htop : cpu.fst 0 = a := hholds.values 0 (Nat.succ_pos _)
          rw [effect, htop]
          exact hholds.setFst (Nat.succ_pos _) _
  | binary operation =>
      cases stack with
      | nil => cases h
      | cons a stack =>
          cases stack with
          | nil => cases h
          | cons b stack =>
              cases h
              have htop : cpu.fst 0 = a := hholds.values 0 (Nat.succ_pos _)
              have hbelow : cpu.fst 1 = b := hholds.values 1 (Nat.succ_lt_succ (Nat.succ_pos _))
              rw [effect, htop, hbelow]
              exact (hholds.setFst (Nat.succ_lt_succ (Nat.succ_pos _)) _).fpuPop

/-- The instruction works on the register stack only. -/
theorem effect_rest (instruction : FloatInstruction) (cpu : SoftCPU64) :
    (instruction.effect float cpu).decodePc = cpu.decodePc ∧
      (instruction.effect float cpu).gpr = cpu.gpr ∧
      (instruction.effect float cpu).rflags = cpu.rflags ∧
      (instruction.effect float cpu).xmm = cpu.xmm := by
  cases instruction <;> exact ⟨rfl, rfl, rfl, rfl⟩

/-- Its bytes. -/
def assemble (instruction : FloatInstruction) : List U8 :=
  [instruction.opcode, instruction.byte]

/-- Its ModRM byte without prefixes. -/
def modrm (instruction : FloatInstruction) : ModRM where
  byte := instruction.byte
  mod := instruction.byte >>> 6 &&& 3
  reg := registerAt (instruction.byte >>> 3) false
  rm := registerAt instruction.byte false

end FloatInstruction

/-! ## Runs -/

variable {float} {emulator : Emulator} {stack stack' : List LongDouble}

/-- The bytes of some instructions. -/
def assembleFloats (instructions : List FloatInstruction) : List U8 :=
  instructions.flatMap FloatInstruction.assemble

/-- The calculator: one instruction after the other on a stack. -/
def calculate (float : HostFloat) : List FloatInstruction → List LongDouble →
    Option (List LongDouble)
  | [], stack => some stack
  | instruction :: instructions, stack =>
      (instruction.onStack float stack).bind (calculate float instructions)

theorem executeX87_float (instruction : FloatInstruction) {pc : U64}
    (hread : emulator.mmu.read8 pc = .ok instruction.byte) :
    executeX87 float instruction.opcode {} (afterDecoding emulator pc) =
      .ok () (emulator.withCPU
        (instruction.effect float (afterDecoding emulator (pc + 1)).cpu)) := by
  have hmodrm : fetchModrm {} (afterDecoding emulator pc) =
      .ok instruction.modrm (afterDecoding emulator (pc + 1)) :=
    bind_of_ok (fetch8_afterDecoding hread)
  have hoperand : decodeRmOperand {} instruction.modrm (afterDecoding emulator (pc + 1)) =
      .ok (.register instruction.modrm.rm) (afterDecoding emulator (pc + 1)) :=
    congrFun (if_pos instruction.isRegister_byte) _
  rw [executeX87, bind_of_ok hmodrm, bind_of_ok hoperand]
  exact instruction.executeX87Register_eq _

/-- A step of the CPU on the bytes of an instruction. -/
theorem step_assembledFloat (host : Host) (instruction : FloatInstruction)
    (hcode : CodeAt emulator.mmu emulator.cpu.rip instruction.assemble) :
    step host emulator = .ok () (emulator.withCPU (finishInstruction (instruction.effect host.float
      (afterDecoding emulator (emulator.cpu.rip + 1 + 1)).cpu))) := by
  have hopcode : addPrefix instruction.opcode {} = none := by
    rcases instruction.opcode_cases with h | h <;> rw [h] <;> rfl
  have hdecode : decodeOpcode emulator = .ok ({}, instruction.opcode)
      (afterDecoding emulator (emulator.cpu.rip + 1)) :=
    decodeOpcode_of_code (by decide) (show CodeAt _ _ ([] ++ [_]) from ⟨hcode.1, trivial⟩) rfl
      hopcode
  have hexecute : execute host {} instruction.opcode =
      executeX87 host.float instruction.opcode {} := by
    rcases instruction.opcode_cases with h | h <;> rw [h] <;> rfl
  rw [step_of_decoded hdecode, hexecute,
    bind_of_ok (executeX87_float instruction hcode.2.1)]
  rfl

/-- Where a calculation has come to: the stack is on the registers, and the integer registers,
the flags and the vector registers are those of the start. -/
structure CalculatedTo (start : SoftCPU64) (rip : U64) (stack : List LongDouble)
    (cpu : SoftCPU64) : Prop where
  stack : HoldsStack cpu stack
  rip : cpu.rip = rip
  gpr : cpu.gpr = start.gpr
  rflags : cpu.rflags = start.rflags
  xmm : cpu.xmm = start.xmm

/-- A step of the CPU is a step of the calculator. -/
theorem step_calculatedTo (host : Host) (instruction : FloatInstruction)
    (hcode : CodeAt emulator.mmu emulator.cpu.rip instruction.assemble)
    (hholds : HoldsStack emulator.cpu stack)
    (h : instruction.onStack host.float stack = some stack') :
    ∃ cpu, step host emulator = .ok () (emulator.withCPU cpu) ∧
      CalculatedTo emulator.cpu (emulator.cpu.rip + 1 + 1) stack' cpu := by
  refine ⟨_, step_assembledFloat host instruction hcode, ?_⟩
  have hdecoded : HoldsStack (afterDecoding emulator (emulator.cpu.rip + 1 + 1)).cpu stack :=
    ⟨hholds.length_le, hholds.values, hholds.filled⟩
  have heffect := instruction.holdsStack_effect hdecoded h
  obtain ⟨hposition, hgpr, hrflags, hxmm⟩ := instruction.effect_rest
    (afterDecoding emulator (emulator.cpu.rip + 1 + 1)).cpu
  exact ⟨⟨heffect.length_le, heffect.values, heffect.filled⟩, hposition, hgpr, hrflags, hxmm⟩

/-- The CPU runs instructions as the calculator does, and changes nothing in memory. -/
theorem stepAll_assembledFloats (host : Host) (instructions : List FloatInstruction)
    (hcode : CodeAt emulator.mmu emulator.cpu.rip (assembleFloats instructions))
    (hholds : HoldsStack emulator.cpu stack)
    (h : calculate host.float instructions stack = some stack') :
    ∃ cpu, stepAll host instructions.length emulator = .ok () (emulator.withCPU cpu) ∧
      CalculatedTo emulator.cpu
        (emulator.cpu.rip + BitVec.ofNat 64 (assembleFloats instructions).length) stack' cpu := by
  induction instructions generalizing emulator stack with
  | nil =>
      cases h
      exact ⟨emulator.cpu, rfl, hholds, (BitVec.add_zero _).symm, rfl, rfl, rfl⟩
  | cons instruction instructions ih =>
      obtain ⟨middle, hfirst, hrest⟩ := Option.bind_eq_some_iff.mp h
      obtain ⟨hhere, hthere⟩ : CodeAt _ _ instruction.assemble ∧ CodeAt _ _ _ := hcode.of_append
      obtain ⟨cpu, hstep, hto⟩ := step_calculatedTo host instruction hhere hholds hfirst
      have hposition : emulator.cpu.rip + BitVec.ofNat 64 instruction.assemble.length =
          emulator.cpu.rip + 1 + 1 := offset_succ _ 1
      rw [hposition, ← hto.rip] at hthere
      have hbehind : CodeAt (emulator.withCPU cpu).mmu (emulator.withCPU cpu).cpu.rip
          (assembleFloats instructions) := hthere
      obtain ⟨cpu', hruns, hend⟩ := ih hbehind hto.stack hrest
      have hrip : cpu'.rip = cpu.rip + BitVec.ofNat 64 (assembleFloats instructions).length :=
        hend.rip
      refine ⟨cpu', (bind_of_ok hstep).trans hruns, hend.stack, ?_, hend.gpr.trans hto.gpr,
        hend.rflags.trans hto.rflags, hend.xmm.trans hto.xmm⟩
      change _ = emulator.cpu.rip + BitVec.ofNat 64 ((assembleFloats instructions).length + 1 + 1)
      rw [offset_succ, offset_succ, hrip, hto.rip]

/-! ## Expressions -/

/-- An expression over the constants and the values on the register stack. -/
inductive FloatExpression where
  | constant (constant : FloatConstant)
  | argument (index : Nat)
  | unary (operation : FloatUnary) (operand : FloatExpression)
  | binary (operation : FloatBinary) (left right : FloatExpression)
  deriving DecidableEq, Repr

namespace FloatExpression

/-- The instructions in postfix order, behind so many pushed values. -/
def code (pushed : Nat) : FloatExpression → List FloatInstruction
  | constant c => [.constant c]
  | argument index => [.copy ⟨(pushed + index) % 8, Nat.mod_lt _ (by decide)⟩]
  | unary operation operand => operand.code pushed ++ [.unary operation]
  | binary operation left right =>
      left.code pushed ++ right.code (pushed + 1) ++ [.binary operation]

def value (float : HostFloat) (stack : List LongDouble) : FloatExpression → LongDouble
  | constant c => c.value float
  | argument index => stack.getD index LongDouble.zero
  | unary operation operand => operation.apply float (operand.value float stack)
  | binary operation left right =>
      operation.apply float (left.value float stack) (right.value float stack)

/-- How many registers the code needs. -/
def depth : FloatExpression → Nat
  | constant _ => 1
  | argument _ => 1
  | unary _ operand => operand.depth
  | binary _ left right => max left.depth (right.depth + 1)

/-- How many values the expression takes its arguments from. -/
def arity : FloatExpression → Nat
  | constant _ => 0
  | argument index => index + 1
  | unary _ operand => operand.arity
  | binary _ left right => max left.arity right.arity

theorem calculate_append (first second : List FloatInstruction) (stack : List LongDouble) :
    calculate float (first ++ second) stack =
      (calculate float first stack).bind (calculate float second) := by
  induction first generalizing stack with
  | nil => rfl
  | cons instruction first ih =>
      rw [List.cons_append, calculate, calculate, Option.bind_assoc]
      exact congrArg _ (funext ih)

/-- The calculator puts the value of an expression above what has been pushed, where that leaves
the room for it. -/
theorem calculate_code (expression : FloatExpression) {pushed : List LongDouble}
    (harity : expression.arity ≤ stack.length)
    (hroom : (pushed ++ stack).length + expression.depth ≤ 8) :
    calculate float (expression.code pushed.length) (pushed ++ stack) =
      some (expression.value float stack :: (pushed ++ stack)) := by
  induction expression generalizing pushed with
  | constant c =>
      have hfree : (pushed ++ stack).length < 8 := hroom
      rw [code, calculate, FloatInstruction.onStack, if_pos hfree]
      rfl
  | argument index =>
      have hfree : (pushed ++ stack).length < 8 := hroom
      have hindex : index < stack.length := harity
      have hlength : (pushed ++ stack).length = pushed.length + stack.length :=
        List.length_append
      have hregister : (pushed.length + index) % 8 = pushed.length + index :=
        Nat.mod_eq_of_lt (by omega)
      have hfound : (pushed ++ stack)[(pushed.length + index) % 8]? =
          some (stack.getD index LongDouble.zero) := by
        rw [hregister, List.getElem?_append_right (Nat.le_add_right _ _), Nat.add_sub_cancel_left,
          List.getD_eq_getElem _ _ hindex]
        exact List.getElem?_eq_getElem hindex
      rw [code, calculate, FloatInstruction.onStack, if_pos hfree]
      change (Option.map _ (pushed ++ stack)[(pushed.length + index) % 8]?).bind _ = _
      rw [hfound]
      rfl
  | unary operation operand ih =>
      rw [code, calculate_append, ih harity hroom]
      rfl
  | binary operation left right ihl ihr =>
      rw [arity] at harity
      rw [depth] at hroom
      have hleft : (pushed ++ stack).length + left.depth ≤ 8 := by omega
      have hright : ((left.value float stack :: pushed) ++ stack).length + right.depth ≤ 8 := by
        rw [List.cons_append, List.length_cons]
        omega
      have hsecond : calculate float (right.code (pushed.length + 1))
          (left.value float stack :: (pushed ++ stack)) = _ := ihr (by omega) hright
      rw [code, calculate_append, calculate_append, ihl (by omega) hleft, Option.bind_some,
        hsecond]
      rfl

end FloatExpression

/-- The code of an expression, run by the CPU: its value is on the register stack, above the
values that its arguments come from, and the memory, the integer registers, the flags and the
vector registers are as before. -/
theorem stepAll_expression (host : Host) (expression : FloatExpression)
    (hcode : CodeAt emulator.mmu emulator.cpu.rip (assembleFloats (expression.code 0)))
    (hholds : HoldsStack emulator.cpu stack)
    (harity : expression.arity ≤ stack.length)
    (hroom : stack.length + expression.depth ≤ 8) :
    ∃ cpu, stepAll host (expression.code 0).length emulator = .ok () (emulator.withCPU cpu) ∧
      CalculatedTo emulator.cpu
        (emulator.cpu.rip + BitVec.ofNat 64 (assembleFloats (expression.code 0)).length)
        (expression.value host.float stack :: stack) cpu :=
  stepAll_assembledFloats host (expression.code 0) hcode hholds
    (@FloatExpression.calculate_code host.float stack expression [] harity hroom)

section Examples

/-- The cosine of a value less one, times the value. -/
def cosineLessOne : FloatExpression :=
  .binary .mul (.binary .sub (.unary .cos (.argument 0)) (.constant .one)) (.argument 0)

/-- A page of code with the expression, and pi on the register stack. -/
def cosineStart : Emulator :=
  Emulator.withMMU
    (Emulator.withCPU {}
      { rip := 0x1000, fpuSt := fun _ => LongDouble.pi, fpuEmpty := fun slot => slot.val != 0 })
    { regions := [Emulator.pageOf 0x1000 protRead (assembleFloats (cosineLessOne.code 0))] }

/-- The six instructions of the expression leave its value above the argument. -/
theorem stepAll_expression_cosine :
    ∃ cpu, stepAll Emulator.quietHost 6 cosineStart = .ok () (cosineStart.withCPU cpu) ∧
      cpu.fst 0 = cosineLessOne.value Emulator.quietHost.float [LongDouble.pi] ∧
        cpu.fst 1 = LongDouble.pi ∧ cpu.rip = 0x100c := by
  have hcode : CodeAt cosineStart.mmu cosineStart.cpu.rip
      (assembleFloats (cosineLessOne.code 0)) := by decide +kernel
  have hholds : HoldsStack cosineStart.cpu [LongDouble.pi] := by
    refine ⟨by decide, fun i hi => ?_, fun i hi => ?_⟩
    · cases Nat.lt_one_iff.mp hi
      rfl
    · cases Nat.lt_one_iff.mp hi
      rfl
  obtain ⟨cpu, hruns, hend⟩ := stepAll_expression Emulator.quietHost cosineLessOne hcode hholds
    (by decide) (by decide)
  exact ⟨cpu, hruns, hend.stack.values 0 (Nat.succ_pos _),
    hend.stack.values 1 (Nat.succ_lt_succ (Nat.succ_pos _)), hend.rip⟩

end Examples

end SoftCPU64

end LUE
