import Mathlib.Data.Nat.Digits.Defs
import Mathlib.Tactic.Ring

/-!
# Shifting rows of limbs

A number of several limbs is multiplied or divided by a factor of the base limb by limb: each
limb is shifted and takes the bits that its neighbour loses.  The base is `factor * rest`, so
that a limb keeps what is below `rest` when it is multiplied by `factor`.

Main results:

- Theorem `ofDigits_shiftLeft`: the row shifted left stands for the product.
- Theorem `ofDigits_shiftRight`: the row shifted right stands for the quotient.
-/

namespace LimbShift

variable {factor rest : Nat}

/-! ## To the left -/

/-- Limbs shifted left, most significant first: each takes the upper part of the next. -/
def shiftLeft (factor rest : Nat) : List Nat → List Nat
  | [] => []
  | [limb] => [limb * factor % (factor * rest)]
  | limb :: next :: limbs =>
      (limb * factor % (factor * rest) + next / rest) :: shiftLeft factor rest (next :: limbs)

theorem length_shiftLeft (factor rest : Nat) (limbs : List Nat) :
    (shiftLeft factor rest limbs).length = limbs.length := by
  induction limbs using shiftLeft.induct with
  | case1 => rfl
  | case2 limb => rfl
  | case3 limb next limbs ih => simp only [shiftLeft, List.length_cons, ih]

/-- The number of limbs, most significant first. -/
theorem ofDigits_reverse_cons (base limb : Nat) (limbs : List Nat) :
    Nat.ofDigits base (limb :: limbs).reverse =
      limb * base ^ limbs.length + Nat.ofDigits base limbs.reverse := by
  rw [List.reverse_cons, Nat.ofDigits_append, List.length_reverse, Nat.ofDigits_singleton,
    Nat.mul_comm, Nat.add_comm]

/-- What the first limb of a row loses when the row is multiplied. -/
theorem ofDigits_mul_div (hbase : 1 < factor * rest) (next : Nat) {limbs : List Nat}
    (hlimbs : ∀ limb ∈ limbs, limb < factor * rest) :
    Nat.ofDigits (factor * rest) (next :: limbs).reverse * factor /
        (factor * rest) ^ (limbs.length + 1) = next / rest := by
  have hfactor : 0 < factor := Nat.pos_of_mul_pos_right (Nat.zero_lt_of_lt hbase)
  have hlow : Nat.ofDigits (factor * rest) limbs.reverse < (factor * rest) ^ limbs.length := by
    rw [← List.length_reverse]
    exact Nat.ofDigits_lt_base_pow_length hbase fun limb hlimb =>
      hlimbs limb (List.mem_reverse.mp hlimb)
  have hpower : (factor * rest) ^ (limbs.length + 1) =
      (factor * rest) ^ limbs.length * rest * factor := by ring
  rw [ofDigits_reverse_cons, hpower, Nat.mul_div_mul_right _ _ hfactor, ← Nat.div_div_eq_div_mul,
    Nat.mul_comm next, Nat.mul_add_div (Nat.pow_pos (Nat.zero_lt_of_lt hbase)),
    Nat.div_eq_of_lt hlow, Nat.add_zero]

/-- A shifted limb has room for what the next one loses. -/
theorem mul_add_mod (hrest : 0 < rest) (limb : Nat) {next : Nat} (hnext : next < factor * rest) :
    (limb * factor + next / rest) % (factor * rest) =
      limb * factor % (factor * rest) + next / rest := by
  have hlost : next / rest < factor := Nat.div_lt_of_lt_mul (by rwa [Nat.mul_comm] at hnext)
  have hkept : limb * factor % (factor * rest) = factor * (limb % rest) := by
    rw [Nat.mul_comm limb, Nat.mul_mod_mul_left]
  have hroom : factor * (limb % rest) + next / rest < factor * rest := by
    calc factor * (limb % rest) + next / rest < factor * (limb % rest) + factor := by omega
      _ = factor * (limb % rest + 1) := by ring
      _ ≤ factor * rest := Nat.mul_le_mul_left factor (Nat.mod_lt limb hrest)
  rw [← Nat.mod_add_mod, hkept, Nat.mod_eq_of_lt hroom]

/-- The row shifted left stands for the product. -/
theorem ofDigits_shiftLeft (hbase : 1 < factor * rest) (limbs : List Nat)
    (hlimbs : ∀ limb ∈ limbs, limb < factor * rest) :
    Nat.ofDigits (factor * rest) (shiftLeft factor rest limbs).reverse =
      Nat.ofDigits (factor * rest) limbs.reverse * factor % (factor * rest) ^ limbs.length := by
  induction limbs using shiftLeft.induct with
  | case1 => simp [shiftLeft, Nat.mod_one]
  | case2 limb => simp [shiftLeft]
  | case3 limb next limbs ih =>
      have htail := (List.forall_mem_cons.mp hlimbs).2
      have hnext := (List.forall_mem_cons.mp htail).1
      have hlost := ofDigits_mul_div hbase next (List.forall_mem_cons.mp htail).2
      have hrest : 0 < rest := Nat.pos_of_mul_pos_left (Nat.zero_lt_of_lt hbase)
      have hpower : 0 < (factor * rest) ^ (limbs.length + 1) :=
        Nat.pow_pos (Nat.zero_lt_of_lt hbase)
      have hwhole : (limb * (factor * rest) ^ (limbs.length + 1) +
            Nat.ofDigits (factor * rest) (next :: limbs).reverse) * factor =
          (factor * rest) ^ (limbs.length + 1) * (limb * factor) +
            Nat.ofDigits (factor * rest) (next :: limbs).reverse * factor := by ring
      have hproduct : ((factor * rest) ^ (limbs.length + 1) * (limb * factor) +
            Nat.ofDigits (factor * rest) (next :: limbs).reverse * factor) %
            ((factor * rest) ^ (limbs.length + 1) * (factor * rest)) =
          Nat.ofDigits (factor * rest) (next :: limbs).reverse * factor %
              (factor * rest) ^ (limbs.length + 1) +
            (factor * rest) ^ (limbs.length + 1) *
              (limb * factor % (factor * rest) + next / rest) := by
        rw [Nat.mod_mul, Nat.mul_add_mod, Nat.mul_add_div hpower, hlost,
          mul_add_mod hrest limb hnext]
      rw [shiftLeft, ofDigits_reverse_cons, length_shiftLeft, ih htail,
        ofDigits_reverse_cons _ limb, List.length_cons, List.length_cons, List.length_cons, hwhole,
        pow_succ _ (limbs.length + 1), hproduct]
      ring

/-! ## To the right -/

/-- Limbs shifted right, least significant first: each takes the lower part of the next. -/
def shiftRight (factor rest : Nat) : List Nat → List Nat
  | [] => []
  | [limb] => [limb / factor]
  | limb :: next :: limbs =>
      (limb / factor + next % factor * rest) :: shiftRight factor rest (next :: limbs)

/-- The row shifted right stands for the quotient. -/
theorem ofDigits_shiftRight (hfactor : 0 < factor) (limbs : List Nat) :
    Nat.ofDigits (factor * rest) (shiftRight factor rest limbs) =
      Nat.ofDigits (factor * rest) limbs / factor := by
  induction limbs using shiftRight.induct with
  | case1 => simp [shiftRight]
  | case2 limb => simp [shiftRight]
  | case3 limb next limbs ih =>
      have hlow : Nat.ofDigits (factor * rest) (next :: limbs) % factor = next % factor := by
        rw [Nat.ofDigits_cons, Nat.mul_assoc, Nat.add_mul_mod_self_left]
      have hsplit := Nat.div_add_mod (Nat.ofDigits (factor * rest) (next :: limbs)) factor
      have hwhole : Nat.ofDigits (factor * rest) (limb :: next :: limbs) =
          limb + factor * (rest * Nat.ofDigits (factor * rest) (next :: limbs)) := by
        rw [Nat.ofDigits_cons, Nat.mul_assoc]
      rw [shiftRight, Nat.ofDigits_cons, ih, hwhole, Nat.add_mul_div_left _ _ hfactor]
      conv_rhs => rw [← hsplit, hlow]
      ring

end LimbShift
