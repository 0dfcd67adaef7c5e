import LinuxUserspaceEmulator.Library.Bisimulation
import LinuxUserspaceEmulator.Library.SegmentList
import Mathlib.Data.List.Forall2
import Mathlib.Data.List.Sort

/-!
# Lists related element by element

Two lists whose elements are related one by one stay so under scans, edits, sorts and maps
that may fail, as long as these look at what related elements have in common.

Main results:

- Theorems `forall₂_find?` and `forall₂_lookup`: scans stop at related elements.
- Theorems `forall₂_update` and `forall₂_update_lookup`: edits of the first segment that covers
  a point.
- Theorem `forall₂_insertionSort`: sorting by a key that related elements share.
- Theorem `SameOutcome.mapM`: mapping by functions that may fail.
-/

namespace RelatedLists

open StateExcept

universe u

variable {α β : Type u} {R : α → β → Prop} {l : List α} {l' : List β}

theorem forall₂_trans {γ : Type u} {S : β → γ → Prop} {T : α → γ → Prop} {l'' : List γ}
    (htrans : ∀ a b c, R a b → S b c → T a c) (h : List.Forall₂ R l l')
    (h' : List.Forall₂ S l' l'') : List.Forall₂ T l l'' := by
  induction h generalizing l'' with
  | nil =>
      cases h'
      exact .nil
  | cons hab _ ih =>
      cases h' with
      | cons hbc hrest => exact .cons (htrans _ _ _ hab hbc) (ih hrest)

/-- Scans by predicates that related elements share stop at related elements. -/
theorem forall₂_find? {p : α → Bool} {q : β → Bool} (hpq : ∀ a b, R a b → p a = q b)
    (h : List.Forall₂ R l l') : Option.Rel R (l.find? p) (l'.find? q) := by
  induction h with
  | nil => exact .none
  | @cons a b _ _ hab _ ih =>
      cases hp : p a with
      | true =>
          have hq : q b = true := (hpq a b hab).symm.trans hp
          rw [List.find?_cons_of_pos hp, List.find?_cons_of_pos hq]
          exact .some hab
      | false =>
          have hq : q b = false := (hpq a b hab).symm.trans hp
          rw [List.find?_cons_of_neg (by simp [hp]), List.find?_cons_of_neg (by simp [hq])]
          exact ih

variable {ι : Type*} {covers : α → ι → Bool} {covers' : β → ι → Bool}

theorem forall₂_lookup (hcovers : ∀ a b, R a b → ∀ i, covers a i = covers' b i)
    (h : List.Forall₂ R l l') (i : ι) :
    Option.Rel R (SegmentList.lookup covers l i) (SegmentList.lookup covers' l' i) :=
  forall₂_find? (fun a b hab => hcovers a b hab i) h

/-- Edits that take related segments to related segments. -/
theorem forall₂_update (hcovers : ∀ a b, R a b → ∀ i, covers a i = covers' b i) {f : α → α}
    {g : β → β} (hfg : ∀ a b, R a b → R (f a) (g b)) (h : List.Forall₂ R l l') (i : ι) :
    List.Forall₂ R (SegmentList.update covers l i f) (SegmentList.update covers' l' i g) := by
  induction h with
  | nil => exact .nil
  | @cons a b _ _ hab hrest ih =>
      rw [SegmentList.update, SegmentList.update, hcovers a b hab i]
      split
      · exact .cons (hfg a b hab) hrest
      · exact .cons hab ih

variable {le : α → α → Prop} {le' : β → β → Prop} [DecidableRel le] [DecidableRel le']

theorem forall₂_orderedInsert (hle : ∀ a b, R a b → ∀ c d, R c d → (le a c ↔ le' b d)) {a : α}
    {b : β} (hab : R a b) (h : List.Forall₂ R l l') :
    List.Forall₂ R (l.orderedInsert le a) (l'.orderedInsert le' b) := by
  induction h with
  | nil => exact .cons hab .nil
  | @cons c d _ _ hcd hrest ih =>
      rw [List.orderedInsert, List.orderedInsert]
      by_cases hac : le a c
      · rw [if_pos hac, if_pos ((hle a b hab c d hcd).mp hac)]
        exact .cons hab (.cons hcd hrest)
      · rw [if_neg hac, if_neg fun hbd => hac ((hle a b hab c d hcd).mpr hbd)]
        exact .cons hcd ih

/-- Sorting by orders that related elements share. -/
theorem forall₂_insertionSort (hle : ∀ a b, R a b → ∀ c d, R c d → (le a c ↔ le' b d))
    (h : List.Forall₂ R l l') :
    List.Forall₂ R (l.insertionSort le) (l'.insertionSort le') := by
  induction h with
  | nil => exact .nil
  | cons hab _ ih => exact forall₂_orderedInsert hle hab ih

end RelatedLists

namespace StateExcept

universe u

variable {ε α β γ δ : Type u} {R : α → β → Prop}

/-- Mapping related lists by functions with the same outcome on related elements. -/
theorem SameOutcome.mapM {V : γ → δ → Prop} {f : α → Except ε γ} {g : β → Except ε δ}
    {l : List α} {l' : List β} (hfg : ∀ a b, R a b → SameOutcome V (f a) (g b))
    (h : List.Forall₂ R l l') : SameOutcome (List.Forall₂ V) (l.mapM f) (l'.mapM g) := by
  induction h with
  | nil => exact .ok .nil
  | cons hab _ ih =>
      rw [List.mapM_cons, List.mapM_cons]
      exact (hfg _ _ hab).bind fun c d hcd => ih.bind fun cs ds hcds => .ok (.cons hcd hcds)

end StateExcept
