import Mathlib.Tactic.Common
import Mathlib.Logic.Relation

/-!
# Programs that change a state and may raise

A C++ member function that mutates its object and may throw is a program
`EStateM ε σ α`: it ends by returning a value or by raising an error, and in both
cases it leaves a state behind.  This file collects the reasoning rules for such
programs that do not depend on what the state is.

Main results:

- Theorems `bind_eq_ok_iff` and `bind_eq_error_iff`: a sequence is taken apart into
  the outcome of its first program and the outcome of the rest.
- Theorem `Preserves.bind`: an invariant kept by both halves of a sequence is kept by
  the sequence, whether it returns or raises.
- Theorem `forOffsets_eq_ok`: a counted loop returns with the invariant of its iterations.
- Theorem `forOffsets_advances`: a counted loop that returns has advanced its invariant.
- Theorem `Preserves.forOffsets`: a counted loop keeps what its body keeps.
- Theorems `mapM_eq_ok` and `mapM_eq_error`: mapping a list by a function that may fail.
- Theorem `LeadsTo.bind`: what a sequence makes of the invariant of its first program.
- Theorem `RaisesOnly.bind`: which errors a sequence can raise.
- Theorem `Ensures.bind_preserves`: what a sequence leaves when it returns.
- Theorem `runAll_invariant`: an invariant of every operation holds after a whole run.
-/

namespace StateExcept

universe u

variable {ε σ τ α β : Type u}

/-! ## Outcomes -/

/-- The state a program leaves behind, whether it returned or raised. -/
def finalState : EStateM.Result ε σ α → σ
  | .ok _ s => s
  | .error _ s => s

@[simp]
theorem finalState_ok (a : α) (s : σ) :
    finalState (.ok a s : EStateM.Result ε σ α) = s :=
  rfl

@[simp]
theorem finalState_error (e : ε) (s : σ) :
    finalState (.error e s : EStateM.Result ε σ α) = s :=
  rfl

/-- Whether a program returned a value in a state is decided by comparing both. -/
instance decidableEqOk [DecidableEq α] [DecidableEq σ] (r : EStateM.Result ε σ α) (a : α)
    (s : σ) : Decidable (r = .ok a s) :=
  match r with
  | .ok _ _ => decidable_of_iff _ (EStateM.Result.ok.injEq _ _ _ _).to_iff.symm
  | .error _ _ => isFalse nofun

/-- The value a program returned. -/
def returned : EStateM.Result ε σ α → Option α
  | .ok a _ => some a
  | .error _ _ => none

theorem eq_ok_of_returned {r : EStateM.Result ε σ α} {a : α} (h : returned r = some a) :
    r = .ok a (finalState r) := by
  cases r with
  | ok b s =>
      cases h
      rfl
  | error e s => cases h

/-- The error a program raised. -/
def raised : EStateM.Result ε σ α → Option ε
  | .ok _ _ => none
  | .error e _ => some e

/-- A sequence returns exactly when its first program returns and the rest does. -/
theorem bind_eq_ok_iff {x : EStateM ε σ α} {f : α → EStateM ε σ β} {s s' : σ} {b : β} :
    (x >>= f) s = .ok b s' ↔ ∃ a t, x s = .ok a t ∧ f a t = .ok b s' := by
  simp only [bind, EStateM.bind]
  cases hx : x s with
  | ok a t => simp
  | error e t => simp

/-- A sequence raises when its first program raises, or returns and the rest raises. -/
theorem bind_eq_error_iff {x : EStateM ε σ α} {f : α → EStateM ε σ β} {s s' : σ} {e : ε} :
    (x >>= f) s = .error e s' ↔
      x s = .error e s' ∨ ∃ a t, x s = .ok a t ∧ f a t = .error e s' := by
  simp only [bind, EStateM.bind]
  cases hx : x s with
  | ok a t => simp
  | error e t => simp

/-- Running a sequence whose first program is known to return. -/
theorem bind_of_ok {x : EStateM ε σ α} {f : α → EStateM ε σ β} {s t : σ} {a : α}
    (hx : x s = .ok a t) : (x >>= f) s = f a t := by
  simp only [bind, EStateM.bind, hx]

/-- Running a sequence whose first program is known to raise. -/
theorem bind_of_error {x : EStateM ε σ α} {f : α → EStateM ε σ β} {s t : σ} {e : ε}
    (hx : x s = .error e t) : (x >>= f) s = .error e t := by
  simp only [bind, EStateM.bind, hx]

/-- A sequence depends on its first program through its outcome alone. -/
theorem bind_congr_outcome {x y : EStateM ε σ α} {s t : σ} (h : x s = y t)
    (f : α → EStateM ε σ β) : (x >>= f) s = (y >>= f) t := by
  simp only [bind, EStateM.bind, h]

/-- A first program that runs under a condition. -/
theorem ite_bind_eq {c : Prop} [Decidable c] (x : EStateM ε σ PUnit) (f : PUnit → EStateM ε σ α) :
    (if c then x >>= f else f ⟨⟩) = (if c then x else pure ⟨⟩) >>= f := by
  by_cases h : c
  · rw [if_pos h, if_pos h]
  · rw [if_neg h, if_neg h, pure_bind]

/-- What the rest of a sequence leaves alone is as the first program left it. -/
theorem finalState_bind_of_keeps {x : EStateM ε σ α} {f : α → EStateM ε σ β} (view : σ → τ)
    (hf : ∀ a s, view (finalState (f a s)) = view s) (s : σ) :
    view (finalState ((x >>= f) s)) = view (finalState (x s)) := by
  cases hx : x s with
  | ok a t =>
      rw [bind_of_ok hx]
      exact hf a t
  | error e t => rw [bind_of_error hx]; rfl

@[simp]
theorem pure_apply (a : α) (s : σ) : (pure a : EStateM ε σ α) s = .ok a s :=
  rfl

@[simp]
theorem throw_apply (e : ε) (s : σ) : (throw e : EStateM ε σ α) s = .error e s :=
  rfl

@[simp]
theorem get_apply (s : σ) : (get : EStateM ε σ σ) s = .ok s s :=
  rfl

@[simp]
theorem set_apply (s t : σ) : (set t : EStateM ε σ PUnit) s = .ok ⟨⟩ t :=
  rfl

@[simp]
theorem modify_apply (f : σ → σ) (s : σ) : (modify f : EStateM ε σ PUnit) s = .ok ⟨⟩ (f s) :=
  rfl

/-! ## Const methods and parts of the state -/

/-- A const method: it reads the state, may raise, and changes nothing. -/
def observe (f : σ → Except ε α) : EStateM ε σ α := fun s =>
  match f s with
  | .ok a => .ok a s
  | .error e => .error e s

@[simp]
theorem observe_eq_ok_iff {f : σ → Except ε α} {s s' : σ} {a : α} :
    observe f s = .ok a s' ↔ f s = .ok a ∧ s = s' := by
  unfold observe
  cases f s <;> simp

@[simp]
theorem observe_eq_error_iff {f : σ → Except ε α} {s s' : σ} {e : ε} :
    observe f s = .error e s' ↔ f s = .error e ∧ s = s' := by
  unfold observe
  cases f s <;> simp

/-- Run a program on one part of a larger state. -/
def onPart (part : σ → τ) (put : σ → τ → σ) (x : EStateM ε τ α) : EStateM ε σ α := fun s =>
  match x (part s) with
  | .ok a t => .ok a (put s t)
  | .error e t => .error e (put s t)

theorem onPart_eq_ok_iff {part : σ → τ} {put : σ → τ → σ} {x : EStateM ε τ α} {s s' : σ}
    {a : α} :
    onPart part put x s = .ok a s' ↔ ∃ t, x (part s) = .ok a t ∧ put s t = s' := by
  unfold onPart
  cases x (part s) <;> simp [eq_comm]

theorem onPart_eq_error_iff {part : σ → τ} {put : σ → τ → σ} {x : EStateM ε τ α} {s s' : σ}
    {e : ε} :
    onPart part put x s = .error e s' ↔ ∃ t, x (part s) = .error e t ∧ put s t = s' := by
  unfold onPart
  cases x (part s) <;> simp [eq_comm]

/-! ## Computations that may fail -/

/-- A sequence of functions that may fail succeeds when both parts do. -/
theorem except_bind_eq_ok_iff {x : Except ε α} {f : α → Except ε β} {b : β} :
    (x >>= f) = .ok b ↔ ∃ a, x = .ok a ∧ f a = .ok b := by
  cases x with
  | ok a => simp [bind, Except.bind]
  | error e => simp [bind, Except.bind]

theorem except_bind_of_ok {x : Except ε α} {f : α → Except ε β} {a : α} (hx : x = .ok a) :
    (x >>= f) = f a := by
  rw [hx]
  rfl

theorem exists_eq_ok_of_isOk {x : Except ε α} (h : x.isOk = true) : ∃ a, x = .ok a := by
  cases x with
  | ok a => exact ⟨a, rfl⟩
  | error e => cases h

/-- When every element can be mapped, the whole list can. -/
theorem mapM_eq_ok {f : α → Except ε β} {g : α → β} {l : List α}
    (h : ∀ a ∈ l, f a = .ok (g a)) : l.mapM f = .ok (l.map g) := by
  induction l with
  | nil => rfl
  | cons a l ih =>
      have hrest := ih fun b hb => h b (List.mem_cons_of_mem a hb)
      rw [List.mapM_cons, h a List.mem_cons_self, hrest]
      rfl

theorem exists_mapM_eq_ok {f : α → Except ε β} {l : List α} (h : ∀ a ∈ l, ∃ b, f a = .ok b) :
    ∃ bs, l.mapM f = .ok bs := by
  induction l with
  | nil => exact ⟨[], rfl⟩
  | cons a l ih =>
      obtain ⟨b, hb⟩ := h a List.mem_cons_self
      obtain ⟨bs, hbs⟩ := ih fun c hc => h c (List.mem_cons_of_mem a hc)
      rw [List.mapM_cons, hb, hbs]
      exact ⟨b :: bs, rfl⟩

theorem ok_of_mapM_eq_ok {f : α → Except ε β} {l : List α} {bs : List β}
    (h : l.mapM f = .ok bs) : ∀ a ∈ l, ∃ b, f a = .ok b := by
  induction l generalizing bs with
  | nil => simp
  | cons a l ih =>
      rw [List.mapM_cons] at h
      rcases except_bind_eq_ok_iff.mp h with ⟨first, hfirst, hrest⟩
      rcases except_bind_eq_ok_iff.mp hrest with ⟨rest, hmap, -⟩
      rw [List.forall_mem_cons]
      exact ⟨⟨first, hfirst⟩, ih hmap⟩

/-- The results of a list that could be mapped. -/
theorem mem_of_mapM_eq_ok {f : α → Except ε β} {l : List α} {bs : List β}
    (h : l.mapM f = .ok bs) (b : β) : b ∈ bs ↔ ∃ a ∈ l, f a = .ok b := by
  induction l generalizing bs with
  | nil =>
      cases h
      simp
  | cons a l ih =>
      rw [List.mapM_cons] at h
      rcases except_bind_eq_ok_iff.mp h with ⟨first, hfirst, hrest⟩
      rcases except_bind_eq_ok_iff.mp hrest with ⟨rest, hmap, hend⟩
      cases hend
      have hhead : f a = .ok b ↔ b = first := by
        rw [hfirst, Except.ok.injEq, eq_comm]
      simp only [List.mem_cons, exists_eq_or_imp, ih hmap, hhead]

/-- A program that maps a list returns when every element has a result with a property and the
rest returns on such results. -/
theorem exists_mapM_bind_eq_ok {γ : Type u} {f : α → Except ε β} {l : List α} {P : β → Prop}
    {k : List β → Except ε γ} {Q : γ → Prop} (h : ∀ a ∈ l, ∃ b, f a = .ok b ∧ P b)
    (hk : ∀ bs, (∀ b ∈ bs, P b) → ∃ c, k bs = .ok c ∧ Q c) :
    ∃ c, l.mapM f >>= k = .ok c ∧ Q c := by
  obtain ⟨bs, hbs⟩ := exists_mapM_eq_ok fun a ha => (h a ha).imp fun _ hb => hb.1
  have hall : ∀ b ∈ bs, P b := by
    intro b hb
    obtain ⟨a, ha, hok⟩ := (mem_of_mapM_eq_ok hbs b).mp hb
    obtain ⟨b', hok', hproperty⟩ := h a ha
    cases hok.symm.trans hok'
    exact hproperty
  rw [except_bind_of_ok hbs]
  exact hk bs hall

/-- When one element fails and every failure is the same, the whole list fails so. -/
theorem mapM_eq_error {f : α → Except ε β} {e : ε} {l : List α}
    (hf : ∀ a ∈ l, f a = .error e ∨ ∃ b, f a = .ok b) (h : ∃ a ∈ l, f a = .error e) :
    l.mapM f = .error e := by
  induction l with
  | nil => simp at h
  | cons a l ih =>
      rw [List.mapM_cons]
      rcases hf a List.mem_cons_self with herror | ⟨b, hok⟩
      · rw [herror]
        rfl
      · obtain ⟨c, hc, hfail⟩ := h
        rcases List.mem_cons.mp hc with rfl | hc
        · rw [hok] at hfail
          contradiction
        · have hrest := ih (fun d hd => hf d (List.mem_cons_of_mem a hd)) ⟨c, hc, hfail⟩
          rw [hok, hrest]
          rfl

/-! ## Invariants of programs -/

/-- The program keeps `P`: from a state with `P` it leaves a state with `P`, whether it
returns or raises. -/
def Preserves (P : σ → Prop) (x : EStateM ε σ α) : Prop :=
  ∀ s, P s → P (finalState (x s))

variable {P : σ → Prop}

theorem Preserves.pure (a : α) : Preserves P (pure a : EStateM ε σ α) :=
  fun _ h => h

theorem Preserves.throw (e : ε) : Preserves P (throw e : EStateM ε σ α) :=
  fun _ h => h

theorem Preserves.get : Preserves P (get : EStateM ε σ σ) :=
  fun _ h => h

theorem Preserves.observe (f : σ → Except ε α) : Preserves P (observe f) := by
  intro s hs
  unfold StateExcept.observe
  cases f s <;> exact hs

theorem Preserves.modify {f : σ → σ} (hf : ∀ s, P s → P (f s)) :
    Preserves P (modify f : EStateM ε σ PUnit) :=
  hf

/-- A program of a part of the state keeps what it keeps of the part. -/
theorem Preserves.onPart {Q : τ → Prop} {part : σ → τ} {put : σ → τ → σ} {x : EStateM ε τ α}
    (hput : ∀ s t, part (put s t) = t) (hx : Preserves Q x) :
    Preserves (fun s => Q (part s)) (onPart part put x) := by
  intro s hs
  have hpart := hx (part s) hs
  unfold StateExcept.onPart
  cases hrun : x (part s) with
  | ok a t =>
      rw [hrun] at hpart
      simpa [hput] using hpart
  | error e t =>
      rw [hrun] at hpart
      simpa [hput] using hpart

/-- A sequence keeps what both of its parts keep. -/
theorem Preserves.bind {x : EStateM ε σ α} {f : α → EStateM ε σ β}
    (hx : Preserves P x) (hf : ∀ a, Preserves P (f a)) : Preserves P (x >>= f) := by
  intro s hs
  have hmid := hx s hs
  cases hxs : x s with
  | ok a t =>
      rw [bind_of_ok hxs]
      exact hf a t (by simpa [hxs] using hmid)
  | error e t =>
      rw [bind_of_error hxs]
      simpa [hxs] using hmid

theorem Preserves.ite {c : Prop} [Decidable c] {x y : EStateM ε σ α}
    (hx : c → Preserves P x) (hy : ¬c → Preserves P y) :
    Preserves P (if c then x else y) := by
  split <;> rename_i h
  · exact hx h
  · exact hy h

/-- From a state with `Q` the program leaves a state with `P`, whether it returns or raises. -/
def LeadsTo (Q P : σ → Prop) (x : EStateM ε σ α) : Prop :=
  ∀ s, Q s → P (finalState (x s))

variable {Q : σ → Prop}

theorem LeadsTo.pure (h : ∀ s, Q s → P s) (a : α) : LeadsTo Q P (pure a : EStateM ε σ α) :=
  h

/-- A program that keeps `Q` comes before one that leads from `Q` to `P`. -/
theorem LeadsTo.bind {x : EStateM ε σ α} {f : α → EStateM ε σ β} (hx : Preserves Q x)
    (hraise : ∀ s, Q s → P s) (hf : ∀ a, LeadsTo Q P (f a)) : LeadsTo Q P (x >>= f) := by
  intro s hs
  have hmid := hx s hs
  cases hxs : x s with
  | ok a t =>
      rw [hxs] at hmid
      rw [bind_of_ok hxs]
      exact hf a t hmid
  | error e t =>
      rw [hxs] at hmid
      rw [bind_of_error hxs]
      exact hraise t hmid

/-- A change of the state from `Q` to `P` comes before a program that keeps `P`. -/
theorem LeadsTo.modify_bind {g : σ → σ} {f : PUnit → EStateM ε σ β} (hg : ∀ s, Q s → P (g s))
    (hf : ∀ a, Preserves P (f a)) : LeadsTo Q P (modify g >>= f) :=
  fun s hs => hf ⟨⟩ (g s) (hg s hs)

theorem LeadsTo.ite {c : Prop} [Decidable c] {x y : EStateM ε σ α} (hx : c → LeadsTo Q P x)
    (hy : ¬c → LeadsTo Q P y) : LeadsTo Q P (if c then x else y) := by
  split <;> rename_i h
  · exact hx h
  · exact hy h

/-- From a state with `P` the program only raises errors with `E`. -/
def RaisesOnly (P : σ → Prop) (E : ε → Prop) (x : EStateM ε σ α) : Prop :=
  ∀ s, P s → ∀ e t, x s = .error e t → E e

variable {E : ε → Prop}

theorem RaisesOnly.pure (a : α) : RaisesOnly P E (pure a : EStateM ε σ α) :=
  fun _ _ _ _ h => by cases h

/-- A sequence raises what one of its parts raises. -/
theorem RaisesOnly.bind {x : EStateM ε σ α} {f : α → EStateM ε σ β} (hx : RaisesOnly P E x)
    (hkeeps : Preserves P x) (hf : ∀ a, RaisesOnly P E (f a)) : RaisesOnly P E (x >>= f) := by
  intro s hs e t h
  rcases bind_eq_error_iff.mp h with herror | ⟨a, u, hok, herror⟩
  · exact hx s hs e t herror
  · have hu := hkeeps s hs
    rw [hok] at hu
    exact hf a u hu e t herror

/-- Every value that the program returns satisfies a predicate. -/
def Yields (R : α → Prop) (x : EStateM ε σ α) : Prop :=
  ∀ s a t, x s = .ok a t → R a

variable {R : α → Prop}

theorem Yields.pure {a : α} (h : R a) : Yields R (pure a : EStateM ε σ α) := by
  intro s b t hrun
  cases hrun
  exact h

/-- A sequence returns what its last program returns. -/
theorem Yields.bind {x : EStateM ε σ β} {f : β → EStateM ε σ α} (hf : ∀ b, Yields R (f b)) :
    Yields R (x >>= f) := by
  intro s a t hrun
  obtain ⟨b, u, -, hrest⟩ := bind_eq_ok_iff.mp hrun
  exact hf b u a t hrest

theorem Yields.ite {c : Prop} [Decidable c] {x y : EStateM ε σ α} (hx : Yields R x)
    (hy : Yields R y) : Yields R (if c then x else y) := by
  split
  · exact hx
  · exact hy

/-- Every state in which the program returns has `P`. -/
def Ensures (P : σ → Prop) (x : EStateM ε σ α) : Prop :=
  ∀ s a t, x s = .ok a t → P t

/-- The last program of a sequence ensures what the sequence does. -/
theorem Ensures.bind {x : EStateM ε σ α} {f : α → EStateM ε σ β} (hf : ∀ a, Ensures P (f a)) :
    Ensures P (x >>= f) := by
  intro s b t hrun
  obtain ⟨a, u, -, hrest⟩ := bind_eq_ok_iff.mp hrun
  exact hf a u b t hrest

/-- What the first program ensures is kept by the rest. -/
theorem Ensures.bind_preserves {x : EStateM ε σ α} {f : α → EStateM ε σ β} (hx : Ensures P x)
    (hf : ∀ a, Preserves P (f a)) : Ensures P (x >>= f) := by
  intro s b t hrun
  obtain ⟨a, u, hfirst, hrest⟩ := bind_eq_ok_iff.mp hrun
  have hkept := hf a u (hx s a u hfirst)
  rwa [hrest] at hkept

theorem Ensures.throw (e : ε) : Ensures P (throw e : EStateM ε σ α) := by
  intro s a t hrun
  cases hrun

theorem Ensures.ite {c : Prop} [Decidable c] {x y : EStateM ε σ α} (hx : c → Ensures P x)
    (hy : ¬c → Ensures P y) : Ensures P (if c then x else y) := by
  split <;> rename_i h
  · exact hx h
  · exact hy h

/-! ## Counted loops -/

/-- `for (i = 0; i < count; ++i) body(i)`. -/
def forOffsets (body : Nat → EStateM ε σ PUnit) : Nat → EStateM ε σ PUnit
  | 0 => pure ⟨⟩
  | count + 1 => do
      forOffsets body count
      body count

@[simp]
theorem forOffsets_zero (body : Nat → EStateM ε σ PUnit) (s : σ) :
    forOffsets body 0 s = .ok ⟨⟩ s :=
  rfl

theorem forOffsets_succ (body : Nat → EStateM ε σ PUnit) (count : Nat) :
    forOffsets body (count + 1) = forOffsets body count >>= fun _ => body count :=
  rfl

/-- One more iteration returns when the earlier ones and the last one do. -/
theorem forOffsets_succ_eq_ok_iff {body : Nat → EStateM ε σ PUnit} {count : Nat} {s s' : σ} :
    forOffsets body (count + 1) s = .ok ⟨⟩ s' ↔
      ∃ t, forOffsets body count s = .ok ⟨⟩ t ∧ body count t = .ok ⟨⟩ s' := by
  rw [forOffsets_succ, bind_eq_ok_iff]
  constructor
  · rintro ⟨⟨⟩, t, hfirst, hlast⟩
    exact ⟨t, hfirst, hlast⟩
  · rintro ⟨t, hfirst, hlast⟩
    exact ⟨⟨⟩, t, hfirst, hlast⟩

/-- A counted loop runs its first iterations and then the rest. -/
theorem forOffsets_add (body : Nat → EStateM ε σ PUnit) (m n : Nat) :
    forOffsets body (m + n) =
      forOffsets body m >>= fun _ => forOffsets (fun i => body (m + i)) n := by
  induction n with
  | zero =>
      rw [Nat.add_zero]
      exact (bind_pure _).symm
  | succ n ih =>
      rw [← Nat.add_assoc, forOffsets_succ, ih, bind_assoc]
      rfl

/-- A loop of loops of one length is one loop. -/
theorem forOffsets_mul (body : Nat → EStateM ε σ PUnit) (n m : Nat) :
    forOffsets (fun k => forOffsets (fun j => body (k * m + j)) m) n =
      forOffsets body (n * m) := by
  induction n with
  | zero =>
      rw [Nat.zero_mul]
      rfl
  | succ n ih => rw [forOffsets_succ, ih, Nat.succ_mul, forOffsets_add]

/-- Loops with equal bodies are equal. -/
theorem forOffsets_congr {body body' : Nat → EStateM ε σ PUnit} {count : Nat}
    (h : ∀ i < count, body i = body' i) : forOffsets body count = forOffsets body' count := by
  induction count with
  | zero => rfl
  | succ count ih =>
      rw [forOffsets_succ, forOffsets_succ, ih fun i hi => h i (Nat.lt_succ_of_lt hi),
        h count (Nat.lt_succ_self count)]

/-- A counted loop whose iterations return and advance an invariant returns with it. -/
theorem forOffsets_eq_ok {body : Nat → EStateM ε σ PUnit} (inv : Nat → σ → Prop)
    {count : Nat} {s : σ} (hzero : inv 0 s)
    (hstep : ∀ i t, i < count → inv i t → ∃ t', body i t = .ok ⟨⟩ t' ∧ inv (i + 1) t') :
    ∃ s', forOffsets body count s = .ok ⟨⟩ s' ∧ inv count s' := by
  induction count with
  | zero => exact ⟨s, rfl, hzero⟩
  | succ count ih =>
      obtain ⟨t, hfirst, ht⟩ := ih fun i t hi => hstep i t (Nat.lt_succ_of_lt hi)
      obtain ⟨s', hlast, hs'⟩ := hstep count t (Nat.lt_succ_self count) ht
      exact ⟨s', forOffsets_succ_eq_ok_iff.mpr ⟨t, hfirst, hlast⟩, hs'⟩

/-- A counted loop that returns has advanced an invariant that its iterations advance. -/
theorem forOffsets_advances {body : Nat → EStateM ε σ PUnit} (inv : Nat → σ → Prop)
    (hstep : ∀ i t t', inv i t → body i t = .ok ⟨⟩ t' → inv (i + 1) t') {count : Nat} {s s' : σ}
    (hs : inv 0 s) (h : forOffsets body count s = .ok ⟨⟩ s') : inv count s' := by
  induction count generalizing s' with
  | zero =>
      cases h
      exact hs
  | succ count ih =>
      obtain ⟨t, hfirst, hlast⟩ := forOffsets_succ_eq_ok_iff.mp h
      exact hstep count t s' (ih hfirst) hlast

/-- A counted loop keeps what each of its iterations keeps. -/
theorem Preserves.forOffsets_of_lt {body : Nat → EStateM ε σ PUnit} {count : Nat}
    (hbody : ∀ i < count, Preserves P (body i)) : Preserves P (forOffsets body count) := by
  induction count with
  | zero => exact Preserves.pure _
  | succ count ih =>
      exact (ih fun i hi => hbody i (Nat.lt_succ_of_lt hi)).bind fun _ =>
        hbody count (Nat.lt_succ_self count)

theorem Preserves.forOffsets {body : Nat → EStateM ε σ PUnit}
    (hbody : ∀ i, Preserves P (body i)) (count : Nat) :
    Preserves P (forOffsets body count) :=
  Preserves.forOffsets_of_lt fun i _ => hbody i

/-- Running a program for every element of a list keeps what each run keeps. -/
theorem Preserves.forM {body : α → EStateM ε σ PUnit} (hbody : ∀ a, Preserves P (body a))
    (l : List α) : Preserves P (l.forM body) := by
  induction l with
  | nil => exact Preserves.pure _
  | cons a l ih => exact (hbody a).bind fun _ => ih

theorem Preserves.mapM {f : α → EStateM ε σ β} (hf : ∀ a, Preserves P (f a)) (l : List α) :
    Preserves P (l.mapM f) := by
  induction l with
  | nil => exact Preserves.pure _
  | cons a l ih =>
      rw [List.mapM_cons]
      exact (hf a).bind fun _ => ih.bind fun _ => Preserves.pure _

theorem Preserves.foldlM {f : β → α → EStateM ε σ β} (hf : ∀ b a, Preserves P (f b a))
    (l : List α) (b : β) : Preserves P (l.foldlM f b) := by
  induction l generalizing b with
  | nil => exact Preserves.pure _
  | cons a l ih =>
      rw [List.foldlM_cons]
      exact (hf b a).bind fun _ => ih _

theorem RaisesOnly.forOffsets {body : Nat → EStateM ε σ PUnit}
    (hbody : ∀ i, RaisesOnly P E (body i)) (hkeeps : ∀ i, Preserves P (body i)) (count : Nat) :
    RaisesOnly P E (forOffsets body count) := by
  induction count with
  | zero => exact RaisesOnly.pure _
  | succ count ih =>
      exact ih.bind (Preserves.forOffsets hkeeps count) fun _ => hbody count

/-- A fold over the first indices that returns has advanced an invariant of its steps. -/
theorem foldlM_range_eq_ok {step : β → Nat → EStateM ε σ β} (inv : Nat → β → σ → Prop)
    (hstep : ∀ i b s b' s', inv i b s → step b i s = .ok b' s' → inv (i + 1) b' s')
    {count : Nat} {b b' : β} {s s' : σ} (hzero : inv 0 b s)
    (h : (List.range count).foldlM step b s = .ok b' s') : inv count b' s' := by
  induction count generalizing b' s' with
  | zero =>
      cases h
      exact hzero
  | succ count ih =>
      rw [List.range_succ, List.foldlM_append] at h
      obtain ⟨b₁, s₁, hfirst, hlast⟩ := bind_eq_ok_iff.mp h
      rw [List.foldlM_cons, bind_eq_ok_iff] at hlast
      obtain ⟨b₂, s₂, hone, hreturn⟩ := hlast
      cases hreturn
      exact hstep count b₁ s₁ b' s' (ih hfirst) hone

/-! ## Runs -/

/-- The state after a list of operations, each of which may return or raise. -/
def runAll {op : Type u} (exec : op → EStateM ε σ α) (ops : List op) (s : σ) : σ :=
  ops.foldl (fun s op => finalState (exec op s)) s

@[simp]
theorem runAll_nil {op : Type u} (exec : op → EStateM ε σ α) (s : σ) :
    runAll exec [] s = s :=
  rfl

@[simp]
theorem runAll_cons {op : Type u} (exec : op → EStateM ε σ α) (o : op) (ops : List op) (s : σ) :
    runAll exec (o :: ops) s = runAll exec ops (finalState (exec o s)) :=
  rfl

/-- What holds at first and is kept by every operation of a run holds after the run. -/
theorem runAll_invariant {op : Type u} {exec : op → EStateM ε σ α} {ops : List op} {s : σ}
    (hops : ∀ o ∈ ops, Preserves P (exec o)) (hs : P s) :
    P (runAll exec ops s) := by
  induction ops generalizing s with
  | nil => exact hs
  | cons o ops ih =>
      rw [runAll_cons]
      exact ih (fun o' ho' => hops o' (List.mem_cons_of_mem o ho'))
        (hops o List.mem_cons_self s hs)

/-- Every operation of a run meets a condition on the state it starts in. -/
def StepsMeet {op : Type u} (exec : op → EStateM ε σ α) (condition : op → σ → Prop) :
    List op → σ → Prop
  | [], _ => True
  | o :: ops, s => condition o s ∧ StepsMeet exec condition ops (finalState (exec o s))

/-- What holds at first and is kept by every operation that meets the condition holds after
a run whose operations all meet it. -/
theorem runAll_invariant_of_stepsMeet {op : Type u} {exec : op → EStateM ε σ α}
    {condition : op → σ → Prop} {ops : List op} {s : σ}
    (hstep : ∀ o s, P s → condition o s → P (finalState (exec o s)))
    (hmeet : StepsMeet exec condition ops s) (hs : P s) : P (runAll exec ops s) := by
  induction ops generalizing s with
  | nil => exact hs
  | cons o ops ih =>
      rw [runAll_cons]
      exact ih hmeet.2 (hstep o s hs hmeet.1)

end StateExcept
