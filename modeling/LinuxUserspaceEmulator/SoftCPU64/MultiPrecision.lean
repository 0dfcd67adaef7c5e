import LinuxUserspaceEmulator.Library.Ripple
import LinuxUserspaceEmulator.SoftCPU64.Flags

/-!
# Multi-precision addition and subtraction

A guest adds long numbers with one `ADD` and a row of `ADC`, and subtracts them with one
`SUB` and a row of `SBB`.  The carry flag links the limbs.  At 64 bits the host sum wraps
too: `add` then never sees a carry, and `sub` loses the borrow of a limb of all ones.

Main results:

- Theorem `add_balance` and `sub_balance`: what one limb keeps and what it loses.
- Theorem `add_limbs_exact_iff`: when a long addition is exact.
- Theorem `sub_limbs_exact_iff`: when a long subtraction is exact.
-/

namespace LUE

namespace SoftCPU64

/-- A two-operand operation with a carry in, such as `add` and `sub`. -/
abbrev CarryOperation :=
  SoftCPU64 → U64 → U64 → Width → Bool → U64 × SoftCPU64

/-- A run of one operation over limbs, least significant first.  The first operation is told
whether to take the carry flag, every later one takes it; between two operations the CPU may
change, but its flags do not. -/
inductive LimbRun (op : CarryOperation) (width : Width) :
    Bool → SoftCPU64 → List (U64 × U64) → List U64 → SoftCPU64 → Prop
  | nil (withCarry : Bool) (cpu : SoftCPU64) : LimbRun op width withCarry cpu [] [] cpu
  | cons {withCarry : Bool} {cpu next last : SoftCPU64} {a b : U64} {limbs : List (U64 × U64)}
      {results : List U64} :
      next.rflags = (op cpu a b width withCarry).2.rflags →
      LimbRun op width true next limbs results last →
      LimbRun op width withCarry cpu ((a, b) :: limbs)
        ((op cpu a b width withCarry).1 :: results) last

/-- The number that limbs stand for. -/
def limbsValue (width : Width) (limbs : List U64) : Nat :=
  Nat.ofDigits (2 ^ width.bits) (limbs.map BitVec.toNat)

/-- The operands are limbs of the width. -/
def AreLimbs (width : Width) (limbs : List (U64 × U64)) : Prop :=
  ∀ limb ∈ limbs, limb.1.toNat < 2 ^ width.bits ∧ limb.2.toNat < 2 ^ width.bits

instance (width : Width) (limbs : List (U64 × U64)) : Decidable (AreLimbs width limbs) :=
  inferInstanceAs (Decidable (∀ limb ∈ limbs, _))

variable {width : Width} {cpu cpu' : SoftCPU64} {lhs rhs : U64} {withCarry : Bool}

/-! ## One limb -/

theorem toNat_carryValue (carry : Bool) :
    (if carry then 1 else 0 : U64).toNat = carry.toNat := by
  cases carry <;> rfl

/-- The carry that an addition at 64 bits loses. -/
def lostCarry (width : Width) (a b : U64) (carry : Bool) : Nat :=
  if width = .w64 ∧ 2 ^ 64 ≤ a.toNat + b.toNat + carry.toNat then 1 else 0

/-- The borrow that a subtraction at 64 bits loses. -/
def lostBorrow (width : Width) (b : U64) (borrow : Bool) : Nat :=
  if width = .w64 ∧ b = BitVec.allOnes 64 ∧ borrow = true then 1 else 0

theorem toNat_decide (p : Prop) [Decidable p] : (decide p).toNat = if p then 1 else 0 := by
  by_cases h : p <;> simp [h]

/-- One addition: result, reported carry and lost carry make up the sum. -/
theorem add_balance (hlhs : lhs.toNat < 2 ^ width.bits) (hrhs : rhs.toNat < 2 ^ width.bits) :
    (cpu.add lhs rhs width withCarry).1.toNat + 2 ^ width.bits *
        (((cpu.add lhs rhs width withCarry).2.flag CF).toNat +
          lostCarry width lhs rhs (carryIn cpu withCarry)) =
      lhs.toNat + rhs.toNat + (carryIn cpu withCarry).toNat := by
  have hcarry := Bool.toNat_le (carryIn cpu withCarry)
  have hl := toNat_and_maskForWidth lhs width
  have hr := toNat_and_maskForWidth rhs width
  rw [Nat.mod_eq_of_lt hlhs] at hl
  rw [Nat.mod_eq_of_lt hrhs] at hr
  have hfull : ((lhs &&& maskForWidth width) + (rhs &&& maskForWidth width) +
      if carryIn cpu withCarry then 1 else 0 : U64).toNat =
        (lhs.toNat + rhs.toNat + (carryIn cpu withCarry).toNat) % 2 ^ 64 := by
    rw [BitVec.toNat_add, BitVec.toNat_add, hl, hr, toNat_carryValue]
    omega
  have hresult : (cpu.add lhs rhs width withCarry).1.toNat =
      (lhs.toNat + rhs.toNat + (carryIn cpu withCarry).toNat) % 2 ^ 64 % 2 ^ width.bits := by
    rw [← hfull, ← toNat_and_maskForWidth, ← add_fst]
  have hflag : (cpu.add lhs rhs width withCarry).2.flag CF =
      decide (2 ^ width.bits - 1 <
        (lhs.toNat + rhs.toNat + (carryIn cpu withCarry).toNat) % 2 ^ 64) := by
    rw [flag_CF_add, decide_eq_decide, BitVec.lt_def, hfull, toNat_maskForWidth]
  rw [hresult, hflag, toNat_decide, lostCarry]
  clear hfull hresult hflag hl hr
  -- below 64 bits the host sum is exact, at 64 bits it is never above the mask
  split <;> split <;> rename_i hset hlost <;> cases width <;>
    simp only [Width.bits, reduceCtorEq, false_and, true_and] at * <;> omega

/-- One subtraction: the reported borrow and the lost one pay for the result. -/
theorem sub_balance (hlhs : lhs.toNat < 2 ^ width.bits) (hrhs : rhs.toNat < 2 ^ width.bits) :
    lhs.toNat + 2 ^ width.bits * (((cpu.sub lhs rhs width withCarry).2.flag CF).toNat +
        lostBorrow width rhs (carryIn cpu withCarry)) =
      (cpu.sub lhs rhs width withCarry).1.toNat + rhs.toNat +
        (carryIn cpu withCarry).toNat := by
  have hcarry := Bool.toNat_le (carryIn cpu withCarry)
  have hl := toNat_and_maskForWidth lhs width
  have hr := toNat_and_maskForWidth rhs width
  rw [Nat.mod_eq_of_lt hlhs] at hl
  rw [Nat.mod_eq_of_lt hrhs] at hr
  have hborrow : ((rhs &&& maskForWidth width) +
      if carryIn cpu withCarry then 1 else 0 : U64).toNat =
        (rhs.toNat + (carryIn cpu withCarry).toNat) % 2 ^ 64 := by
    rw [BitVec.toNat_add, hr, toNat_carryValue]
  have hresult : (cpu.sub lhs rhs width withCarry).1.toNat =
      (2 ^ 64 - (rhs.toNat + (carryIn cpu withCarry).toNat) % 2 ^ 64 + lhs.toNat) % 2 ^ 64 %
        2 ^ width.bits := by
    rw [← hborrow, ← hl, ← BitVec.toNat_sub, ← toNat_and_maskForWidth, ← sub_fst]
  have hones : rhs = BitVec.allOnes 64 ↔ rhs.toNat = 2 ^ 64 - 1 := by
    rw [← BitVec.toNat_inj, BitVec.toNat_allOnes]
  have hflag : (cpu.sub lhs rhs width withCarry).2.flag CF =
      decide (lhs.toNat < (rhs.toNat + (carryIn cpu withCarry).toNat) % 2 ^ 64) := by
    rw [flag_CF_sub, decide_eq_decide, BitVec.lt_def, hborrow, hl]
  rw [hresult, hflag, toNat_decide, lostBorrow]
  simp only [hones]
  clear hborrow hresult hflag hones hl hr
  -- the subtrahend with its borrow wraps only for a limb of all ones at 64 bits
  cases width <;> cases carryIn cpu withCarry <;>
    simp only [Width.bits, reduceCtorEq, false_and, true_and, and_true, and_false, if_false,
      Bool.toNat_true, Bool.toNat_false] at * <;>
    split_ifs <;> omega

/-! ## Rows of limbs -/

open Ripple

variable {limbs : List (U64 × U64)} {results : List U64} {last : SoftCPU64}

theorem LimbRun.length_eq {op : CarryOperation}
    (hrun : LimbRun op width withCarry cpu limbs results last) :
    results.length = limbs.length := by
  induction hrun with
  | nil => rfl
  | cons hflags hrest ih => rw [List.length_cons, List.length_cons, ih]

theorem AreLimbs.tail {limb : U64 × U64} (h : AreLimbs width (limb :: limbs)) :
    AreLimbs width limbs :=
  fun other hother => h other (List.mem_cons_of_mem limb hother)

/-- At 64 bits the host sum is never above the mask. -/
theorem flag_CF_add_w64 : (cpu.add lhs rhs .w64 withCarry).2.flag CF = false := by
  rw [flag_CF_add, decide_eq_false_iff_not, BitVec.lt_def, toNat_maskForWidth]
  exact Nat.not_lt.mpr (Nat.le_pred_of_lt (BitVec.isLt _))

/-- A row of additions is a digit chain, and it loses nothing when no 64-bit pair of limbs
has a carry. -/
theorem LimbRun.add_chain (hrun : LimbRun add width withCarry cpu limbs results last)
    (hlimbs : AreLimbs width limbs) (hfinal : limbs ≠ [] ∨ withCarry = true)
    (hfirst : width = .w64 → carryIn cpu withCarry = false) :
    ∃ total, Chain (2 ^ width.bits) (carryIn cpu withCarry) (results.map BitVec.toNat)
        (List.zipWith (· + ·) (limbs.map fun limb => limb.1.toNat)
          (limbs.map fun limb => limb.2.toNat)) total (last.flag CF) ∧
      (total = 0 ↔ (width = .w64 → ∀ limb ∈ limbs, limb.1.toNat + limb.2.toNat < 2 ^ 64)) := by
  induction hrun with
  | nil withCarry cpu =>
      have htake : withCarry = true := hfinal.resolve_left fun h => h rfl
      subst htake
      exact ⟨0, Chain.nil _, by simp⟩
  | @cons withCarry cpu next last a b limbs results hflags hrest ih =>
      obtain ⟨ha, hb⟩ := hlimbs (a, b) List.mem_cons_self
      have hcarry : carryIn next true = (cpu.add a b width withCarry).2.flag CF :=
        flag_congr hflags CF
      obtain ⟨total, hchain, hzero⟩ := ih hlimbs.tail (Or.inr rfl) (by
        rintro rfl
        rw [hcarry, flag_CF_add_w64])
      rw [hcarry] at hchain
      refine ⟨_, Chain.cons (add_balance ha hb) hchain, ?_⟩
      have hlost : lostCarry width a b (carryIn cpu withCarry) = 0 ↔
          (width = .w64 → a.toNat + b.toNat < 2 ^ 64) := by
        by_cases hwidth : width = .w64
        · simp [lostCarry, hwidth, hfirst hwidth]
        · simp [lostCarry, hwidth]
      have hbase : 2 ^ width.bits ≠ 0 := (Nat.two_pow_pos width.bits).ne'
      rw [Nat.add_eq_zero_iff, Nat.mul_eq_zero, or_iff_right hbase, hlost, hzero]
      simp only [List.forall_mem_cons]
      exact imp_and.symm

/-- Some limb of all ones sits above lower limbs that borrow. -/
def BorrowMeetsOnes (borrow : Bool) (limbs : List (U64 × U64)) : Prop :=
  ∃ lower limb upper, limbs = lower ++ limb :: upper ∧ limb.2 = BitVec.allOnes 64 ∧
    limbsValue .w64 (lower.map Prod.fst) < limbsValue .w64 (lower.map Prod.snd) + borrow.toNat

theorem not_borrowMeetsOnes_nil (borrow : Bool) : ¬BorrowMeetsOnes borrow [] := by
  rintro ⟨lower, limb, upper, h, -⟩
  simp at h

/-- The lowest limb meets a borrow, or hands its own borrow to the limbs above it. -/
theorem borrowMeetsOnes_cons (borrow : Bool) (a b : U64) (limbs : List (U64 × U64)) :
    BorrowMeetsOnes borrow ((a, b) :: limbs) ↔
      (b = BitVec.allOnes 64 ∧ borrow = true) ∨
        BorrowMeetsOnes (decide (a.toNat < b.toNat + borrow.toNat)) limbs := by
  have hdigit : ∀ lower : List (U64 × U64),
      limbsValue .w64 (((a, b) :: lower).map Prod.fst) <
          limbsValue .w64 (((a, b) :: lower).map Prod.snd) + borrow.toNat ↔
        limbsValue .w64 (lower.map Prod.fst) < limbsValue .w64 (lower.map Prod.snd) +
          (decide (a.toNat < b.toNat + borrow.toNat)).toNat :=
    fun lower => digit_lt_add_carry_iff a.isLt b.isLt borrow
  constructor
  · rintro ⟨lower, limb, upper, hlimbs, hones, hlower⟩
    cases lower with
    | nil =>
        obtain ⟨rfl, rfl⟩ := List.cons.inj hlimbs
        left
        refine ⟨hones, ?_⟩
        cases borrow with
        | true => rfl
        | false => exact absurd hlower (Nat.lt_irrefl 0)
    | cons first lower =>
        obtain ⟨rfl, rfl⟩ := List.cons.inj hlimbs
        exact Or.inr ⟨lower, limb, upper, rfl, hones, (hdigit lower).mp hlower⟩
  · rintro (⟨hones, rfl⟩ | ⟨lower, limb, upper, rfl, hones, hlower⟩)
    · exact ⟨[], (a, b), limbs, rfl, hones, Nat.zero_lt_one⟩
    · exact ⟨(a, b) :: lower, limb, upper, rfl, hones, (hdigit lower).mpr hlower⟩

/-- A subtraction that loses no borrow reports the true one. -/
theorem flag_CF_sub_of_lostBorrow_eq_zero (hlhs : lhs.toNat < 2 ^ width.bits)
    (hrhs : rhs.toNat < 2 ^ width.bits)
    (hlost : lostBorrow width rhs (carryIn cpu withCarry) = 0) :
    (cpu.sub lhs rhs width withCarry).2.flag CF =
      decide (lhs.toNat < rhs.toNat + (carryIn cpu withCarry).toNat) := by
  have hbalance := @sub_balance width cpu lhs rhs withCarry hlhs hrhs
  have hresult : (cpu.sub lhs rhs width withCarry).1.toNat < 2 ^ width.bits := by
    rw [sub_fst, toNat_and_maskForWidth]
    exact Nat.mod_lt _ (Nat.two_pow_pos width.bits)
  rw [hlost, Nat.add_zero] at hbalance
  cases hflag : (cpu.sub lhs rhs width withCarry).2.flag CF with
  | true =>
      rw [hflag, Bool.toNat_true, Nat.mul_one] at hbalance
      exact (decide_eq_true (by omega)).symm
  | false =>
      rw [hflag, Bool.toNat_false, Nat.mul_zero] at hbalance
      exact (decide_eq_false (by omega)).symm

/-- A row of subtractions is a digit chain, and it loses nothing when no 64-bit limb of all
ones meets a borrow. -/
theorem LimbRun.sub_chain (hrun : LimbRun sub width withCarry cpu limbs results last)
    (hlimbs : AreLimbs width limbs) (hfinal : limbs ≠ [] ∨ withCarry = true) :
    ∃ total, Chain (2 ^ width.bits) (carryIn cpu withCarry)
        (limbs.map fun limb => limb.1.toNat)
        (List.zipWith (· + ·) (results.map BitVec.toNat) (limbs.map fun limb => limb.2.toNat))
        total (last.flag CF) ∧
      (total = 0 ↔ ¬(width = .w64 ∧ BorrowMeetsOnes (carryIn cpu withCarry) limbs)) := by
  induction hrun with
  | nil withCarry cpu =>
      have htake : withCarry = true := hfinal.resolve_left fun h => h rfl
      subst htake
      exact ⟨0, Chain.nil _, by simp [not_borrowMeetsOnes_nil]⟩
  | @cons withCarry cpu next last a b limbs results hflags hrest ih =>
      obtain ⟨ha, hb⟩ := hlimbs (a, b) List.mem_cons_self
      have hcarry : carryIn next true = (cpu.sub a b width withCarry).2.flag CF :=
        flag_congr hflags CF
      obtain ⟨total, hchain, hzero⟩ := ih hlimbs.tail (Or.inr rfl)
      rw [hcarry] at hchain hzero
      refine ⟨_, Chain.cons (sub_balance ha hb) hchain, ?_⟩
      have hbase : 2 ^ width.bits ≠ 0 := (Nat.two_pow_pos width.bits).ne'
      rw [Nat.add_eq_zero_iff, Nat.mul_eq_zero, or_iff_right hbase, borrowMeetsOnes_cons]
      by_cases hwidth : width = .w64
      · by_cases hones : b = BitVec.allOnes 64 ∧ carryIn cpu withCarry = true
        · -- the borrow of this limb is lost
          simp [lostBorrow, hwidth, hones]
        · have hlost : lostBorrow width b (carryIn cpu withCarry) = 0 :=
            if_neg fun h => hones h.2
          rw [flag_CF_sub_of_lostBorrow_eq_zero ha hb hlost] at hzero
          rw [hlost, hzero, or_iff_right hones]
          exact and_iff_right rfl
      · have hlost : lostBorrow width b (carryIn cpu withCarry) = 0 :=
          if_neg fun h => hwidth h.1
        rw [hlost, hzero]
        simp [hwidth]

/-! ## Exactness -/

theorem ofDigits_zipWith {left right : List Nat} (base : Nat) (h : left.length = right.length) :
    Nat.ofDigits base (List.zipWith (· + ·) left right) =
      Nat.ofDigits base left + Nat.ofDigits base right :=
  (Nat.ofDigits_add_ofDigits_eq_ofDigits_zipWith_of_length_eq h).symm

/-- A long addition is exact below 64 bits, and at 64 bits exactly when no pair of limbs
has a carry of its own. -/
theorem add_limbs_exact_iff (hlimbs : AreLimbs width limbs) (hne : limbs ≠ [])
    (hrun : LimbRun add width false cpu limbs results last) :
    limbsValue width results + (last.flag CF).toNat * 2 ^ (width.bits * limbs.length) =
        limbsValue width (limbs.map Prod.fst) + limbsValue width (limbs.map Prod.snd) ↔
      (width = .w64 → ∀ limb ∈ limbs, limb.1.toNat + limb.2.toNat < 2 ^ 64) := by
  obtain ⟨total, hchain, hzero⟩ := hrun.add_chain hlimbs (Or.inl hne) fun _ => rfl
  have hexact := hchain.exact_iff (Nat.two_pow_pos width.bits)
  rw [ofDigits_zipWith _ (by simp), List.length_map, hrun.length_eq, ← Nat.pow_mul] at hexact
  rw [← hzero, ← hexact, Nat.mul_comm _ (last.flag CF).toNat]
  simp [limbsValue, carryIn, Function.comp_def]

/-- Two limbs of sixteen bits with a carry between them. -/
theorem add_limbs_exact_iff_carry :
    let low := add {} 0xffff 1 .w16 false
    let high := low.2.add 0 0 .w16 true
    limbsValue .w16 [low.1, high.1] + (high.2.flag CF).toNat * 2 ^ (16 * 2) =
      limbsValue .w16 [0xffff, 0] + limbsValue .w16 [1, 0] := by
  intro low high
  have hrun : LimbRun add .w16 false {} [(0xffff, 1), (0, 0)] [low.1, high.1] high.2 :=
    .cons rfl (.cons rfl (.nil true _))
  have hlimbs : AreLimbs .w16 [(0xffff, 1), (0, 0)] := by
    simp [AreLimbs, Width.bits]
  exact (add_limbs_exact_iff hlimbs (List.cons_ne_nil _ _) hrun).mpr (by decide)

/-- At 64 bits the carry of a single limb is lost. -/
theorem add_limbs_loses_carry :
    ¬∀ (cpu last : SoftCPU64) (results : List U64),
      LimbRun add .w64 false cpu [(0xffffffffffffffff, 1)] results last →
      limbsValue .w64 results + (last.flag CF).toNat * 2 ^ (64 * 1) =
        limbsValue .w64 [0xffffffffffffffff] + limbsValue .w64 [1] := by
  intro hexact
  have hrun := hexact {} _ _ (.cons rfl (.nil true _))
  exact absurd hrun (by decide)

/-- A long subtraction is exact below 64 bits, and at 64 bits exactly when no limb of all
ones of the subtrahend sits above limbs that borrow. -/
theorem sub_limbs_exact_iff (hlimbs : AreLimbs width limbs) (hne : limbs ≠ [])
    (hrun : LimbRun sub width false cpu limbs results last) :
    (limbsValue width results : Int) =
        limbsValue width (limbs.map Prod.fst) - limbsValue width (limbs.map Prod.snd) +
          (last.flag CF).toNat * 2 ^ (width.bits * limbs.length) ↔
      ¬(width = .w64 ∧ BorrowMeetsOnes false limbs) := by
  obtain ⟨total, hchain, hzero⟩ := hrun.sub_chain hlimbs (Or.inl hne)
  have hexact := hchain.exact_iff (Nat.two_pow_pos width.bits)
  rw [ofDigits_zipWith _ (by simp [hrun.length_eq]), List.length_map, ← Nat.pow_mul] at hexact
  have hborrow : carryIn cpu false = false := rfl
  rw [hborrow] at hzero hexact
  rw [← hzero, ← hexact]
  simp only [limbsValue, List.map_map, Function.comp_def, Bool.toNat_false, Nat.add_zero]
  rw [← Int.natCast_inj]
  push_cast
  constructor <;> intro h <;> linarith

/-- A borrow out of the lower limb. -/
theorem sub_limbs_exact_iff_borrow :
    let low := sub {} 0 1 .w64 false
    let high := low.2.sub 5 3 .w64 true
    (limbsValue .w64 [low.1, high.1] : Int) = limbsValue .w64 [0, 5] - limbsValue .w64 [1, 3] +
      (high.2.flag CF).toNat * 2 ^ (64 * 2) := by
  intro low high
  have hrun : LimbRun sub .w64 false {} [(0, 1), (5, 3)] [low.1, high.1] high.2 :=
    .cons rfl (.cons rfl (.nil true _))
  have hlimbs : AreLimbs .w64 [(0, 1), (5, 3)] := by
    simp [AreLimbs, Width.bits]
  exact (sub_limbs_exact_iff hlimbs (List.cons_ne_nil _ _) hrun).mpr (by
    simp [borrowMeetsOnes_cons, not_borrowMeetsOnes_nil])

/-- At 64 bits the borrow into a limb of all ones is lost. -/
theorem sub_limbs_loses_borrow :
    ¬∀ (cpu last : SoftCPU64) (results : List U64),
      LimbRun sub .w64 false cpu [(0, 1), (0, 0xffffffffffffffff)] results last →
      (limbsValue .w64 results : Int) =
        limbsValue .w64 [0, 0] - limbsValue .w64 [1, 0xffffffffffffffff] +
          (last.flag CF).toNat * 2 ^ (64 * 2) := by
  intro hexact
  have hrun := hexact {} _ _ (.cons rfl (.cons rfl (.nil true _)))
  exact absurd hrun (by decide)

end SoftCPU64

end LUE
