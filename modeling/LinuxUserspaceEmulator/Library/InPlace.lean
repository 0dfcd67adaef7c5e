import Mathlib.Logic.Function.Basic
import Mathlib.Tactic.Common

/-!
# Loops in place

A loop that changes an array while later rounds still read it.  When every round writes cells of
its own, and reads no cell of the array but these, the loop does what all rounds would do at once.

Main results:

- Theorems `run_of_cell` and `run_of_no_cell`: the cells after a loop.
- Theorem `actsOn_assign`: assignments to different cells are such rounds.
-/

namespace InPlace

universe u v

variable {ι : Type u} {α : Type v}

/-- `for (k = 0; k < count; ++k) body(k)`. -/
def run {state : Type u} (body : Nat → state → state) : Nat → state → state
  | 0, array => array
  | count + 1, array => body count (run body count array)

/-- Bodies that agree below the count make the same loop. -/
theorem run_congr {state : Type u} {body body' : Nat → state → state} {count : Nat}
    (h : ∀ k < count, ∀ array, body k array = body' k array) (array : state) :
    run body count array = run body' count array := by
  induction count with
  | zero => rfl
  | succ count ih =>
      rw [run, run, ih fun k hk => h k (Nat.lt_succ_of_lt hk), h count (Nat.lt_succ_self count)]

/-- Rounds at the end that do nothing are left out. -/
theorem run_of_idle {state : Type u} {body : Nat → state → state} {first count : Nat}
    (hle : first ≤ count) (h : ∀ k, first ≤ k → k < count → ∀ array, body k array = array)
    (array : state) : run body count array = run body first array := by
  induction count with
  | zero => rw [Nat.le_zero.mp hle]
  | succ count ih =>
      by_cases hall : first = count + 1
      · rw [hall]
      · have hlast : first ≤ count := by omega
        rw [run, h count hlast (Nat.lt_succ_self count),
          ih hlast fun k hfirst hk => h k hfirst (Nat.lt_succ_of_lt hk)]

/-- Every round has cells of its own, writes no others, and what it writes depends on no others. -/
structure ActsOn (count : Nat) (cells : Nat → ι → Prop) (body : Nat → (ι → α) → ι → α) :
    Prop where
  disjoint : ∀ {k l i}, k < count → l < count → cells k i → cells l i → k = l
  others : ∀ {k i}, k < count → ∀ array, ¬cells k i → body k array i = array i
  reads : ∀ {k i}, k < count → ∀ array array' : ι → α, (∀ j, cells k j → array j = array' j) →
    cells k i → body k array i = body k array' i

variable {cells : Nat → ι → Prop} {body : Nat → (ι → α) → ι → α} {count : Nat}

theorem ActsOn.init (h : ActsOn (count + 1) cells body) : ActsOn count cells body where
  disjoint hk hl := h.disjoint (Nat.lt_succ_of_lt hk) (Nat.lt_succ_of_lt hl)
  others hk := h.others (Nat.lt_succ_of_lt hk)
  reads hk := h.reads (Nat.lt_succ_of_lt hk)

/-- A cell of no round is kept. -/
theorem run_of_no_cell (h : ActsOn count cells body) {i : ι} (hcells : ∀ k < count, ¬cells k i)
    (array : ι → α) : run body count array i = array i := by
  induction count with
  | zero => rfl
  | succ count ih =>
      have hlast := Nat.lt_succ_self count
      rw [run, h.others hlast _ (hcells count hlast),
        ih h.init fun k hk => hcells k (Nat.lt_succ_of_lt hk)]

/-- A cell of a round is what this round makes of the array before the loop. -/
theorem run_of_cell (h : ActsOn count cells body) {i : ι} {k : Nat} (hk : k < count)
    (hcell : cells k i) (array : ι → α) : run body count array i = body k array i := by
  induction count with
  | zero => exact absurd hk (Nat.not_lt_zero k)
  | succ count ih =>
      have hlast := Nat.lt_succ_self count
      rw [run]
      by_cases hsame : k = count
      · subst hsame
        refine h.reads hlast _ _ (fun j hj => ?_) hcell
        refine run_of_no_cell h.init (fun l hl hcell' => ?_) array
        exact Nat.ne_of_gt hl (h.disjoint hlast (Nat.lt_succ_of_lt hl) hj hcell')
      · have hother : ¬cells count i := fun hcell' => hsame (h.disjoint hk hlast hcell hcell')
        rw [h.others hlast _ hother, ih h.init (by omega)]

/-- Assignments to different cells. -/
theorem actsOn_assign [DecidableEq ι] {cell : Nat → ι} (value : Nat → (ι → α) → α)
    (hcell : ∀ k < count, ∀ l < count, cell k = cell l → k = l)
    (hvalue : ∀ k < count, ∀ array array' : ι → α, array (cell k) = array' (cell k) →
      value k array = value k array') :
    ActsOn count (fun k i => cell k = i)
      fun k array => Function.update array (cell k) (value k array) := by
  constructor
  · rintro k l i hk hl rfl h
    exact hcell k hk l hl h.symm
  · intro k i _ array hother
    exact Function.update_of_ne (Ne.symm hother) _ _
  · rintro k i hk array array' hsame rfl
    rw [Function.update_self, Function.update_self, hvalue k hk _ _ (hsame _ rfl)]

end InPlace
