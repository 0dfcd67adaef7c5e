import LinuxUserspaceEmulator.Library.StateExcept

/-!
# Bisimilar programs

Two programs are bisimilar under a relation between their states when, from related states,
either both return related values or both raise the same error, and what they leave behind is
related again.  Unlike a comparison of runs that return, nothing is lost when a program raises,
so a whole system that stops on the first error can be compared with another one.

Main results:

- Theorem `Agree.bind`: sequences that agree from given states.
- Theorems `Bisimilar.bind` and `Bisimilar.bindSame`: bisimilar sequences.
- Theorem `Bisimilar.forOffsets`: bisimilar loops.
- Theorem `Bisimilar.onPart`: bisimilar programs on a part of the state.
- Theorem `Bisimilar.forM`: bisimilar runs over a list of inputs.
- Theorem `Agree.forM`: runs whose rounds are bisimilar from the states they go through.
- Theorem `Bisimilar.withInvariant`: what a program keeps may be added to the relation.
-/

namespace StateExcept

universe u

variable {ε σ σ' τ τ' α α' β β' : Type u}

/-! ## Computations that may fail -/

/-- Two computations that may fail end alike: with related values or with the same error. -/
inductive SameOutcome (V : α → β → Prop) : Except ε α → Except ε β → Prop where
  | ok {a : α} {b : β} : V a b → SameOutcome V (.ok a) (.ok b)
  | error (e : ε) : SameOutcome V (.error e) (.error e)

theorem SameOutcome.refl (x : Except ε α) : SameOutcome Eq x x := by
  cases x with
  | ok a => exact .ok rfl
  | error e => exact .error e

theorem SameOutcome.bindSame {W : α' → β' → Prop} (x : Except ε α) {f : α → Except ε α'}
    {g : α → Except ε β'} (hf : ∀ a, SameOutcome W (f a) (g a)) :
    SameOutcome W (x >>= f) (x >>= g) := by
  cases x with
  | ok a => exact hf a
  | error e => exact .error e

theorem SameOutcome.bind {V : α → β → Prop} {W : α' → β' → Prop} {x : Except ε α}
    {y : Except ε β} {f : α → Except ε α'} {g : β → Except ε β'} (hx : SameOutcome V x y)
    (hf : ∀ a b, V a b → SameOutcome W (f a) (g b)) : SameOutcome W (x >>= f) (y >>= g) := by
  cases hx with
  | ok hab => exact hf _ _ hab
  | error e => exact .error e

theorem SameOutcome.ite {V : α → β → Prop} {c : Prop} [Decidable c] {x x' : Except ε α}
    {y y' : Except ε β} (hx : c → SameOutcome V x y) (hx' : ¬c → SameOutcome V x' y') :
    SameOutcome V (if c then x else x') (if c then y else y') := by
  by_cases h : c
  · rw [if_pos h, if_pos h]
    exact hx h
  · rw [if_neg h, if_neg h]
    exact hx' h

/-! ## Programs -/

/-- Two outcomes agree: related values or the same error, and related states. -/
inductive Agree (R : σ → τ → Prop) (V : α → β → Prop) :
    EStateM.Result ε σ α → EStateM.Result ε τ β → Prop where
  | ok {a : α} {b : β} {s : σ} {t : τ} : V a b → R s t → Agree R V (.ok a s) (.ok b t)
  | error {s : σ} {t : τ} (e : ε) : R s t → Agree R V (.error e s) (.error e t)

namespace Agree

variable {R R' : σ → τ → Prop} {V V' : α → β → Prop} {r : EStateM.Result ε σ α}
  {r' : EStateM.Result ε τ β}

theorem finalState (h : Agree R V r r') : R (finalState r) (StateExcept.finalState r') := by
  cases h with
  | ok _ hstates => exact hstates
  | error _ hstates => exact hstates

theorem mono (h : Agree R V r r') (hstates : ∀ s t, R s t → R' s t)
    (hvalues : ∀ a b, V a b → V' a b) : Agree R' V' r r' := by
  cases h with
  | ok hab hst => exact .ok (hvalues _ _ hab) (hstates _ _ hst)
  | error e hst => exact .error e (hstates _ _ hst)

/-- When one program returns, the other one does. -/
theorem returns {a : α} {s : σ} (h : Agree R V r r') (hr : r = .ok a s) :
    ∃ b t, r' = .ok b t ∧ V a b ∧ R s t := by
  subst hr
  cases h with
  | ok hab hst => exact ⟨_, _, rfl, hab, hst⟩

/-- When one program raises, the other one raises the same error. -/
theorem raises {e : ε} {s : σ} (h : Agree R V r r') (hr : r = .error e s) :
    ∃ t, r' = .error e t ∧ R s t := by
  subst hr
  cases h with
  | error _ hst => exact ⟨_, rfl, hst⟩

/-- Sequences whose first programs agree, and whose rests agree from what these left. -/
theorem bind {W : α' → β' → Prop} {x : EStateM ε σ α} {y : EStateM ε τ β} {s : σ} {t : τ}
    {f : α → EStateM ε σ α'} {g : β → EStateM ε τ β'} (hx : Agree R V (x s) (y t))
    (hf : ∀ a b u v, x s = .ok a u → V a b → R u v → Agree R W (f a u) (g b v)) :
    Agree R W ((x >>= f) s) ((y >>= g) t) := by
  cases hrun : x s with
  | ok a u =>
      obtain ⟨b, v, hrun', hab, huv⟩ := hx.returns hrun
      rw [bind_of_ok hrun, bind_of_ok hrun']
      exact hf a b u v hrun hab huv
  | error e u =>
      obtain ⟨v, hrun', huv⟩ := hx.raises hrun
      rw [bind_of_error hrun, bind_of_error hrun']
      exact .error e huv

end Agree

/-- From related states the outcomes of the two programs agree. -/
def Bisimilar (R : σ → τ → Prop) (V : α → β → Prop) (x : EStateM ε σ α) (y : EStateM ε τ β) :
    Prop :=
  ∀ s t, R s t → Agree R V (x s) (y t)

namespace Bisimilar

variable {R : σ → τ → Prop} {V V' : α → β → Prop} {W : α' → β' → Prop} {x x' : EStateM ε σ α}
  {y y' : EStateM ε τ β}

theorem pure {a : α} {b : β} (h : V a b) :
    Bisimilar R V (pure a : EStateM ε σ α) (pure b : EStateM ε τ β) :=
  fun _ _ hst => .ok h hst

theorem throw (e : ε) : Bisimilar R V (throw e : EStateM ε σ α) (throw e : EStateM ε τ β) :=
  fun _ _ hst => .error e hst

theorem mono (h : Bisimilar R V x y) (hvalues : ∀ a b, V a b → V' a b) : Bisimilar R V' x y :=
  fun s t hst => (h s t hst).mono (fun _ _ hst => hst) hvalues

/-- Sequences are bisimilar when their first programs are, and their rests are for related
values. -/
theorem bind {f : α → EStateM ε σ α'} {g : β → EStateM ε τ β'} (hx : Bisimilar R V x y)
    (hf : ∀ a b, V a b → Bisimilar R W (f a) (g b)) : Bisimilar R W (x >>= f) (y >>= g) :=
  fun s t hst => (hx s t hst).bind fun a b u v _ hab huv => hf a b hab u v huv

/-- After the same value the rests start with it. -/
theorem bindSame {y : EStateM ε τ α} {f : α → EStateM ε σ α'} {g : α → EStateM ε τ β'}
    (hx : Bisimilar R Eq x y) (hf : ∀ a, Bisimilar R W (f a) (g a)) :
    Bisimilar R W (x >>= f) (y >>= g) := by
  refine hx.bind fun a b hab => ?_
  subst hab
  exact hf a

/-- Both programs take the same branch. -/
theorem ite {c : Prop} [Decidable c] (hx : c → Bisimilar R V x y)
    (hx' : ¬c → Bisimilar R V x' y') :
    Bisimilar R V (if c then x else x') (if c then y else y') := by
  by_cases h : c
  · rw [if_pos h, if_pos h]
    exact hx h
  · rw [if_neg h, if_neg h]
    exact hx' h

theorem modify {f : σ → σ} {g : τ → τ} (h : ∀ s t, R s t → R (f s) (g t)) :
    Bisimilar R Eq (modify f : EStateM ε σ PUnit) (modify g : EStateM ε τ PUnit) :=
  fun s t hst => .ok rfl (h s t hst)

theorem get : Bisimilar R R (get : EStateM ε σ σ) (get : EStateM ε τ τ) :=
  fun _ _ hst => .ok hst hst

/-- Const methods that compute the same. -/
theorem observe {f : σ → Except ε α} {g : τ → Except ε α} (h : ∀ s t, R s t → f s = g t) :
    Bisimilar R Eq (observe f) (observe g) := by
  intro s t hst
  unfold StateExcept.observe
  rw [h s t hst]
  cases g t with
  | ok a => exact .ok rfl hst
  | error e => exact .error e hst

/-- Const methods that end alike. -/
theorem observeRelated {f : σ → Except ε α} {g : τ → Except ε β}
    (h : ∀ s t, R s t → SameOutcome V (f s) (g t)) :
    Bisimilar R V (StateExcept.observe f) (StateExcept.observe g) := by
  intro s t hst
  have houtcome := h s t hst
  unfold StateExcept.observe
  generalize f s = r, g t = r' at houtcome
  cases houtcome with
  | ok hab => exact .ok hab hst
  | error e => exact .error e hst

/-- Programs on parts of the states. -/
theorem onPart {S : σ' → τ' → Prop} {part : σ → σ'} {part' : τ → τ'} {put : σ → σ' → σ}
    {put' : τ → τ' → τ} {x : EStateM ε σ' α} {y : EStateM ε τ' β} (hx : Bisimilar S V x y)
    (hpart : ∀ s t, R s t → S (part s) (part' t))
    (hput : ∀ s t u v, R s t → S u v → R (put s u) (put' t v)) :
    Bisimilar R V (onPart part put x) (onPart part' put' y) := by
  intro s t hst
  have hrun := hx _ _ (hpart s t hst)
  unfold StateExcept.onPart
  generalize x (part s) = r, y (part' t) = r' at hrun
  cases hrun with
  | ok hab huv => exact .ok hab (hput s t _ _ hst huv)
  | error e huv => exact .error e (hput s t _ _ hst huv)

/-- Programs whose errors are handled alike. -/
theorem tryCatch {handler : ε → EStateM ε σ α} {handler' : ε → EStateM ε τ β}
    (hx : Bisimilar R V x y) (hhandler : ∀ e, Bisimilar R V (handler e) (handler' e)) :
    Bisimilar R V (tryCatch x handler) (tryCatch y handler') := by
  intro s t hst
  have hrun := hx s t hst
  simp only [tryCatchThe, MonadExcept.tryCatch, MonadExceptOf.tryCatch, EStateM.tryCatch]
  generalize x s = r, y t = r' at hrun
  cases hrun with
  | ok hab huv => exact .ok hab huv
  | error e huv => exact hhandler e _ _ huv

/-- Loops whose iterations are bisimilar. -/
theorem forOffsets {body : Nat → EStateM ε σ PUnit} {body' : Nat → EStateM ε τ PUnit}
    {count : Nat} (hbody : ∀ i < count, Bisimilar R Eq (body i) (body' i)) :
    Bisimilar R Eq (forOffsets body count) (forOffsets body' count) := by
  induction count with
  | zero => exact pure rfl
  | succ count ih =>
      exact (ih fun i hi => hbody i (Nat.lt_succ_of_lt hi)).bindSame fun _ =>
        hbody count (Nat.lt_succ_self count)

/-- Runs over a list of inputs whose rounds are bisimilar. -/
theorem forM {ι : Type u} {body : ι → EStateM ε σ PUnit} {body' : ι → EStateM ε τ PUnit}
    {l : List ι} (hbody : ∀ i ∈ l, Bisimilar R Eq (body i) (body' i)) :
    Bisimilar R Eq (l.forM body) (l.forM body') := by
  induction l with
  | nil => exact pure rfl
  | cons i l ih =>
      exact (hbody i List.mem_cons_self).bindSame fun _ =>
        ih fun j hj => hbody j (List.mem_cons_of_mem i hj)

/-- What the first program keeps may be added to the relation. -/
theorem withInvariant {P : σ → Prop} (hx : Bisimilar R V x y) (hkeeps : Preserves P x) :
    Bisimilar (fun s t => R s t ∧ P s) V x y := by
  intro s t hst
  have hrun := hx s t hst.1
  have hkept := hkeeps s hst.2
  generalize x s = r, y t = r' at hrun hkept
  cases hrun with
  | ok hab huv => exact .ok hab ⟨huv, hkept⟩
  | error e huv => exact .error e ⟨huv, hkept⟩

end Bisimilar

/-! ## Runs under a condition -/

/-- Every round of a run over a list of inputs starts in a state with `P`. -/
def Along {ι : Type u} (P : σ → Prop) (body : ι → EStateM ε σ PUnit) : List ι → σ → Prop
  | [], _ => True
  | i :: l, s => P s ∧ ∀ t, body i s = .ok ⟨⟩ t → Along P body l t

/-- Runs agree when their rounds do from the states that the first run goes through. -/
theorem Agree.forM {ι : Type u} {R : σ → τ → Prop} {P : σ → Prop}
    {body : ι → EStateM ε σ PUnit} {body' : ι → EStateM ε τ PUnit}
    (hbody : ∀ i s t, P s → R s t → Agree R Eq (body i s) (body' i t)) {l : List ι} {s : σ}
    {t : τ} (halong : Along P body l s) (hst : R s t) :
    Agree R Eq (l.forM body s) (l.forM body' t) := by
  induction l generalizing s t with
  | nil => exact .ok rfl hst
  | cons i l ih =>
      obtain ⟨hs, hrest⟩ := halong
      exact (hbody i s t hs hst).bind fun _ _ u v hrun _ huv => ih (hrest u hrun) huv

end StateExcept
