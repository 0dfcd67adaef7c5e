import Mathlib.Data.Nat.Digits.Defs
import Mathlib.Tactic.Ring
import Mathlib.Tactic.Linarith

/-!
# Digit chains with a carry

Multi-digit additions and subtractions work digit by digit, least significant first, and
hand a carry to the next digit.  A digit operation balances two digits up to the carry it
takes, the carry it reports, and what it loses.  This file telescopes such a chain: the
numbers balance up to the final carry, exactly when no digit lost anything.

Main results:

- Theorem `Chain.ofDigits_eq`: the two numbers of a chain balance.
- Theorem `Chain.exact_iff`: the final carry alone balances them iff nothing was lost.
- Theorem `digit_lt_add_carry_iff`: comparing numbers with a borrow, digit by digit.
-/

namespace Ripple

/-- A chain from one carry to another over two digit lists, with the sum of the lost
carries weighted by their places. -/
inductive Chain (base : Nat) : Bool → List Nat → List Nat → Nat → Bool → Prop
  | nil (carry : Bool) : Chain base carry [] [] 0 carry
  | cons {carry carry' carry'' : Bool} {left right lost total : Nat} {lefts rights : List Nat} :
      left + base * (carry'.toNat + lost) = right + carry.toNat →
      Chain base carry' lefts rights total carry'' →
      Chain base carry (left :: lefts) (right :: rights) (lost + base * total) carry''

variable {base total : Nat} {carry carry' : Bool} {lefts rights : List Nat}

/-- The numbers balance up to the final carry and the lost carries. -/
theorem Chain.ofDigits_eq (h : Chain base carry lefts rights total carry') :
    Nat.ofDigits base lefts + base ^ lefts.length * carry'.toNat + base * total =
      Nat.ofDigits base rights + carry.toNat := by
  induction h with
  | nil carry => simp
  | @cons carry carry' carry'' left right lost total lefts rights hdigit hrest ih =>
      rw [Nat.ofDigits_cons, Nat.ofDigits_cons, List.length_cons, pow_succ]
      calc left + base * Nat.ofDigits base lefts + base ^ lefts.length * base * carry''.toNat +
            base * (lost + base * total)
          = left + base * lost + base * (Nat.ofDigits base lefts +
              base ^ lefts.length * carry''.toNat + base * total) := by ring
        _ = left + base * lost + base * (Nat.ofDigits base rights + carry'.toNat) := by rw [ih]
        _ = left + base * (carry'.toNat + lost) + base * Nat.ofDigits base rights := by ring
        _ = right + base * Nat.ofDigits base rights + carry.toNat := by rw [hdigit]; ring

/-- The final carry alone balances the numbers exactly when nothing was lost. -/
theorem Chain.exact_iff (h : Chain base carry lefts rights total carry') (hbase : 0 < base) :
    Nat.ofDigits base lefts + base ^ lefts.length * carry'.toNat =
        Nat.ofDigits base rights + carry.toNat ↔ total = 0 := by
  have hvalue := h.ofDigits_eq
  constructor
  · intro hexact
    have hzero : base * total = 0 := by omega
    exact (Nat.mul_eq_zero.mp hzero).resolve_left hbase.ne'
  · rintro rfl
    simpa using hvalue

/-- A number with a borrow compares by its high digits, and by its low digit where these
agree: the low digit hands its own borrow up. -/
theorem digit_lt_add_carry_iff {a b high high' : Nat} (ha : a < base) (hb : b < base)
    (carry : Bool) :
    a + base * high < b + base * high' + carry.toNat ↔
      high < high' + (decide (a < b + carry.toNat)).toNat := by
  have hcarry := Bool.toNat_le carry
  by_cases hlow : a < b + carry.toNat
  · simp only [hlow, decide_true, Bool.toNat_true]
    constructor
    · intro hlt
      by_contra hge
      have hmul : base * (high' + 1) ≤ base * high := Nat.mul_le_mul_left base (by omega)
      rw [Nat.mul_add, Nat.mul_one] at hmul
      omega
    · intro hlt
      have hmul : base * high ≤ base * high' := Nat.mul_le_mul_left base (by omega)
      omega
  · simp only [hlow, decide_false, Bool.toNat_false, Nat.add_zero]
    constructor
    · intro hlt
      by_contra hge
      have hmul : base * high' ≤ base * high := Nat.mul_le_mul_left base (by omega)
      omega
    · intro hlt
      have hmul : base * (high + 1) ≤ base * high' := Nat.mul_le_mul_left base hlt
      rw [Nat.mul_add, Nat.mul_one] at hmul
      omega

end Ripple
