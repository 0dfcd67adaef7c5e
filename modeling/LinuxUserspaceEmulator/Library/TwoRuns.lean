import LinuxUserspaceEmulator.Library.StateExcept

/-!
# Two runs

A property of pairs of runs: whatever the difference between two states, two programs that
both return leave states and values that are related again.  The first run is followed by a
measure that never falls, such as a position in a text that is read once; the two runs are
compared as long as the measure is within a bound.

Main results:

- Theorems `Lockstep.bind` and `Lockstep.bindRelated`: related sequences.
- Theorem `Lockstep.forOffsets`: related loops.
- Theorem `Lockstep.onPart`: related programs on a part of the state.
-/

namespace StateExcept

universe u

variable {ε σ τ α β : Type u}

/-- From related states, when both programs return and the measure of the first run is
within the bound, what they leave is related. -/
structure Lockstep (measure : σ → Nat) (bound : Nat) (R : σ → σ → Prop)
    (x y : EStateM ε σ α) (Q : α → α → σ → σ → Prop) : Prop where
  grows : ∀ {s a s'}, x s = .ok a s' → measure s ≤ measure s'
  related : ∀ {s t a b s' t'}, R s t → x s = .ok a s' → y t = .ok b t' →
    measure s' ≤ bound → Q a b s' t'

namespace Lockstep

variable {measure : σ → Nat} {bound : Nat} {R R' : σ → σ → Prop} {x y x' y' : EStateM ε σ α}
  {Q Q' : α → α → σ → σ → Prop} {S : β → β → σ → σ → Prop}

theorem pure {a b : α} (h : ∀ s t, R s t → Q a b s t) :
    Lockstep measure bound R (pure a : EStateM ε σ α) (pure b) Q where
  grows := by
    intro s a s' hx
    cases hx
    exact Nat.le_refl _
  related := by
    intro s t a b s' t' hst hx hy _
    cases hx
    cases hy
    exact h s t hst

/-- A program that never returns is in step with everything. -/
theorem of_ne_ok (h : ∀ {s a s'}, x s ≠ .ok a s') : Lockstep measure bound R x y Q where
  grows := fun hx => absurd hx h
  related := fun _ hx => absurd hx h

/-- Sequences are in step when their first programs are, and their rests are from there on. -/
theorem bind {f g : α → EStateM ε σ β} (hx : Lockstep measure bound R x y Q)
    (hf : ∀ a b, Lockstep measure bound (Q a b) (f a) (g b) S) :
    Lockstep measure bound R (x >>= f) (y >>= g) S where
  grows := by
    intro s c s' h
    rcases bind_eq_ok_iff.mp h with ⟨a, middle, hfirst, hrest⟩
    exact Nat.le_trans (hx.grows hfirst) ((hf a a).grows hrest)
  related := by
    intro s t c d s' t' hst h h' hbound
    rcases bind_eq_ok_iff.mp h with ⟨a, middle, hfirst, hrest⟩
    rcases bind_eq_ok_iff.mp h' with ⟨b, middle', hfirst', hrest'⟩
    have hmiddle := Nat.le_trans ((hf a b).grows hrest) hbound
    exact (hf a b).related (hx.related hst hfirst hfirst' hmiddle) hrest hrest' hbound

/-- The rests need only be in step for values that the first programs can return together. -/
theorem bindRelated {V : α → α → Prop} {f g : α → EStateM ε σ β} (hrefl : ∀ a, V a a)
    (hx : Lockstep measure bound R x y fun a b s t => V a b ∧ Q a b s t)
    (hf : ∀ a b, V a b → Lockstep measure bound (Q a b) (f a) (g b) S) :
    Lockstep measure bound R (x >>= f) (y >>= g) S where
  grows := by
    intro s c s' h
    rcases bind_eq_ok_iff.mp h with ⟨a, middle, hfirst, hrest⟩
    exact Nat.le_trans (hx.grows hfirst) ((hf a a (hrefl a)).grows hrest)
  related := by
    intro s t c d s' t' hst h h' hbound
    rcases bind_eq_ok_iff.mp h with ⟨a, middle, hfirst, hrest⟩
    rcases bind_eq_ok_iff.mp h' with ⟨b, middle', hfirst', hrest'⟩
    have hmiddle := Nat.le_trans ((hf a a (hrefl a)).grows hrest) hbound
    rcases hx.related hst hfirst hfirst' hmiddle with ⟨hvalues, hstates⟩
    exact (hf a b hvalues).related hstates hrest hrest' hbound

/-- After a first program that returns the same in both runs, the rests start with it. -/
theorem bindSame {R' : α → σ → σ → Prop} {f g : α → EStateM ε σ β}
    (hx : Lockstep measure bound R x y fun a b s t => a = b ∧ R' a s t)
    (hf : ∀ a, Lockstep measure bound (R' a) (f a) (g a) S) :
    Lockstep measure bound R (x >>= f) (y >>= g) S := by
  refine bindRelated (Q := fun a _ => R' a) (V := Eq) (fun _ => rfl) hx fun a b hab => ?_
  subst hab
  exact hf a

/-- More is asked for before, or less is promised after. -/
theorem weaken (hx : Lockstep measure bound R x y Q) (hbefore : ∀ s t, R' s t → R s t)
    (hafter : ∀ a b s t, Q a b s t → Q' a b s t) : Lockstep measure bound R' x y Q' where
  grows := hx.grows
  related := fun hst h h' hbound => hafter _ _ _ _ (hx.related (hbefore _ _ hst) h h' hbound)

/-- Both runs take the same branch. -/
theorem ite {c : Prop} [Decidable c] (hx : c → Lockstep measure bound R x y Q)
    (hx' : ¬c → Lockstep measure bound R x' y' Q) :
    Lockstep measure bound R (if c then x else x') (if c then y else y') Q := by
  by_cases h : c
  · rw [if_pos h, if_pos h]
    exact hx h
  · rw [if_neg h, if_neg h]
    exact hx' h

/-- A change of the state that leaves the measure alone. -/
theorem modify {f g : σ → σ} {Q : PUnit → PUnit → σ → σ → Prop}
    (hmeasure : ∀ s, measure (f s) = measure s) (h : ∀ s t, R s t → Q ⟨⟩ ⟨⟩ (f s) (g t)) :
    Lockstep measure bound R (modify f : EStateM ε σ PUnit) (modify g) Q where
  grows := by
    intro s a s' hx
    cases hx
    exact Nat.le_of_eq (hmeasure s).symm
  related := by
    intro s t a b s' t' hst hx hy _
    cases hx
    cases hy
    exact h s t hst

/-- A const method. -/
theorem observe {f g : σ → Except ε α}
    (h : ∀ s t a b, R s t → f s = .ok a → g t = .ok b → Q a b s t) :
    Lockstep measure bound R (observe f) (observe g) Q where
  grows := by
    intro s a s' hx
    rcases observe_eq_ok_iff.mp hx with ⟨-, rfl⟩
    exact Nat.le_refl _
  related := by
    intro s t a b s' t' hst hx hy _
    rcases observe_eq_ok_iff.mp hx with ⟨ha, rfl⟩
    rcases observe_eq_ok_iff.mp hy with ⟨hb, rfl⟩
    exact h _ _ a b hst ha hb

/-- Loops whose iterations keep a relation keep it. -/
theorem forOffsets {body body' : Nat → EStateM ε σ PUnit} {count : Nat}
    (hbody : ∀ i < count, Lockstep measure bound R (body i) (body' i) fun _ _ => R) :
    Lockstep measure bound R (forOffsets body count) (forOffsets body' count) fun _ _ => R := by
  induction count with
  | zero => exact Lockstep.pure fun _ _ hst => hst
  | succ count ih =>
      exact (ih fun i hi => hbody i (Nat.lt_succ_of_lt hi)).bind fun _ _ =>
        hbody count (Nat.lt_succ_self count)

/-- Programs on a part of the state that the measure does not look at. -/
theorem onPart {part : σ → τ} {put : σ → τ → σ} {R : τ → τ → Prop} {Q : α → α → τ → τ → Prop}
    {R' : σ → σ → Prop} {Q' : α → α → σ → σ → Prop} {x y : EStateM ε τ α}
    (hx : Lockstep (fun _ => 0) 0 R x y Q) (hmeasure : ∀ s t, measure (put s t) = measure s)
    (hbefore : ∀ s t, R' s t → R (part s) (part t))
    (hafter : ∀ s t a b s' t', R' s t → x (part s) = .ok a s' → y (part t) = .ok b t' →
      Q a b s' t' → Q' a b (put s s') (put t t')) :
    Lockstep measure bound R' (onPart part put x) (onPart part put y) Q' where
  grows := by
    intro s a s' h
    rcases onPart_eq_ok_iff.mp h with ⟨u, -, rfl⟩
    exact Nat.le_of_eq (hmeasure s u).symm
  related := by
    intro s t a b s' t' hst h h' _
    rcases onPart_eq_ok_iff.mp h with ⟨u, hu, rfl⟩
    rcases onPart_eq_ok_iff.mp h' with ⟨v, hv, rfl⟩
    have hrelated := hx.related (hbefore s t hst) hu hv (Nat.le_refl 0)
    exact hafter s t a b u v hst hu hv hrelated

end Lockstep

end StateExcept
