import Mathlib.Algebra.Group.Nat.Defs
import Mathlib.Data.List.Nodup
import Mathlib.Tactic.Common

/-!
# Loops that advance a cursor

A loop that looks at a cursor and either ends or moves the cursor one further.  The cursor is a
machine word, so a loop that nothing stops comes back to where it started.

Main results:

- Theorem `run_eq_of_stop`: a loop ends at the latest where every state stops.
- Theorem `nodup_cursorsFrom`: until the cursor comes back it looks at no cursor twice.
-/

namespace CursorLoop

variable {w : Nat} {σ ρ : Type*}

/-- What the loop does at a cursor: it goes on with another state, or it ends. -/
inductive Round (σ ρ : Type*) where
  | next (state : σ)
  | done (result : ρ)

/-- The cursors that a loop has looked at, where it has left the cursor, and its result unless its
rounds have run out. -/
structure Trace (w : Nat) (ρ : Type*) where
  examined : List (BitVec w)
  cursor : BitVec w
  result : Option ρ

/-- Run the loop from a cursor, for so many rounds at most. -/
def run (round : BitVec w → σ → Round σ ρ) : Nat → BitVec w → σ → Trace w ρ
  | 0, cursor, _ => ⟨[], cursor, none⟩
  | rounds + 1, cursor, state =>
      match round cursor state with
      | .done result => ⟨[cursor], cursor, some result⟩
      | .next state =>
          let rest := run round rounds (cursor + 1) state
          ⟨cursor :: rest.examined, rest.cursor, rest.result⟩

theorem run_of_done {round : BitVec w → σ → Round σ ρ} {cursor : BitVec w} {state : σ}
    {result : ρ} (h : round cursor state = .done result) (rounds : Nat) :
    run round (rounds + 1) cursor state = ⟨[cursor], cursor, some result⟩ := by
  rw [run, h]

theorem run_of_next {round : BitVec w → σ → Round σ ρ} {cursor : BitVec w} {state next : σ}
    (h : round cursor state = .next next) (rounds : Nat) :
    run round (rounds + 1) cursor state =
      ⟨cursor :: (run round rounds (cursor + 1) next).examined,
        (run round rounds (cursor + 1) next).cursor,
        (run round rounds (cursor + 1) next).result⟩ := by
  rw [run, h]

/-- So many cursors from one on. -/
def cursorsFrom (cursor : BitVec w) (count : Nat) : List (BitVec w) :=
  (List.range count).map fun i => cursor + BitVec.ofNat w i

theorem offset_succ (cursor : BitVec w) (i : Nat) :
    cursor + BitVec.ofNat w (i + 1) = cursor + 1 + BitVec.ofNat w i := by
  rw [Nat.add_comm, BitVec.ofNat_add, BitVec.add_assoc]
  rfl

theorem cursorsFrom_zero (cursor : BitVec w) : cursorsFrom cursor 0 = [] :=
  rfl

theorem cursorsFrom_succ (cursor : BitVec w) (count : Nat) :
    cursorsFrom cursor (count + 1) = cursor :: cursorsFrom (cursor + 1) count := by
  rw [cursorsFrom, List.range_succ_eq_map, List.map_cons, List.map_map, BitVec.add_zero]
  exact congrArg _ (List.map_congr_left fun i _ => offset_succ cursor i)

/-- Cursors repeat only after as many as there are words. -/
theorem nodup_cursorsFrom (cursor : BitVec w) {count : Nat} (h : count ≤ 2 ^ w) :
    (cursorsFrom cursor count).Nodup := by
  apply List.Nodup.map_on _ List.nodup_range
  intro i hi j hj hsame
  have hoffsets := (BitVec.add_right_inj cursor).mp hsame
  have hlt := List.mem_range.mp hi
  have hlt' := List.mem_range.mp hj
  have hnat := congrArg BitVec.toNat hoffsets
  rwa [BitVec.toNat_ofNat, BitVec.toNat_ofNat, Nat.mod_eq_of_lt (by omega),
    Nat.mod_eq_of_lt (by omega)] at hnat

/-- A loop ends at the latest where every state stops, and has looked at every cursor up to
there. -/
theorem run_eq_of_stop {round : BitVec w → σ → Round σ ρ} {distance : Nat} {cursor : BitVec w}
    (hstop : ∀ state, ∃ result, round (cursor + BitVec.ofNat w distance) state = .done result)
    (state : σ) :
    ∃ count last result, count ≤ distance ∧
      round (cursor + BitVec.ofNat w count) last = .done result ∧
      ∀ rounds, count < rounds →
        run round rounds cursor state =
          ⟨cursorsFrom cursor (count + 1), cursor + BitVec.ofNat w count, some result⟩ := by
  induction distance generalizing cursor state with
  | zero =>
      rcases hstop state with ⟨result, hresult⟩
      refine ⟨0, state, result, Nat.le_refl 0, hresult, fun rounds hrounds => ?_⟩
      rw [BitVec.add_zero] at hresult
      cases rounds with
      | zero => exact absurd hrounds (Nat.lt_irrefl 0)
      | succ rounds =>
          rw [run_of_done hresult, cursorsFrom_succ, cursorsFrom_zero, BitVec.add_zero]
  | succ distance ih =>
      cases hround : round cursor state with
      | done result =>
          refine ⟨0, state, result, Nat.zero_le _, ?_, fun rounds hrounds => ?_⟩
          · rwa [BitVec.add_zero]
          cases rounds with
          | zero => exact absurd hrounds (Nat.lt_irrefl 0)
          | succ rounds =>
              rw [run_of_done hround, cursorsFrom_succ, cursorsFrom_zero, BitVec.add_zero]
      | next next =>
          simp only [offset_succ] at hstop
          rcases ih hstop next with ⟨count, last, result, hcount, hlast, hrun⟩
          refine ⟨count + 1, last, result, Nat.succ_le_succ hcount, ?_, fun rounds hrounds => ?_⟩
          · rwa [offset_succ]
          cases rounds with
          | zero => exact absurd hrounds (Nat.not_lt_zero _)
          | succ rounds =>
              have hrest := hrun rounds (Nat.lt_of_succ_lt_succ hrounds)
              rw [run_of_next hround, hrest, cursorsFrom_succ cursor, offset_succ]

end CursorLoop
