import Mathlib.Tactic.Common
import Mathlib.Data.List.Basic
import Mathlib.Data.List.Pairwise

/-!
# Lists of separated segments as partial maps

A table of address ranges is a list of segments, each covering some points, such that no
point is covered twice.  Looking up a point means scanning for the first segment that
covers it.  Since the segments are separated, the scan is a partial map that does not
depend on the order of the list, and splitting, filtering and editing the list act on it
point by point.

Main results:

- Theorem `lookup_eq_some_iff`: the scan finds the one segment covering the point.
- Theorem `lookup_perm`: the scan does not depend on the order of the list.
- Theorem `lookup_flatMap`: cutting every segment into pieces looks the point up in the
  pieces of its own segment.
- Theorem `lookup_filter`: deleting segments deletes exactly their points.
- Theorem `lookup_map`: editing every segment edits the segment found.
- Theorem `map_lookup_update`: editing what the first segment that covers a point says about
  that point changes nothing else.
-/

namespace SegmentList

variable {σ ι : Type*} (covers : σ → ι → Bool)

/-! ## Separation and lookup -/

/-- The first segment of the list that covers the point. -/
def lookup (l : List σ) (a : ι) : Option σ :=
  l.find? fun s => covers s a

/-- No point is covered by both segments. -/
def Apart (s t : σ) : Prop :=
  ∀ a, covers s a = true → covers t a = true → False

/-- Any two segments of the list are apart. -/
def Separated (l : List σ) : Prop :=
  l.Pairwise (Apart covers)

variable {covers}

theorem Apart.symm {s t : σ} (h : Apart covers s t) : Apart covers t s :=
  fun a ht hs => h a hs ht

/-- Segments inside two apart segments are apart. -/
theorem Apart.mono {s t s' t' : σ} (h : Apart covers s t)
    (hs : ∀ a, covers s' a = true → covers s a = true)
    (ht : ∀ a, covers t' a = true → covers t a = true) : Apart covers s' t' :=
  fun a ha hb => h a (hs a ha) (ht a hb)

instance : Std.Symm (Apart covers) :=
  ⟨fun _ _ h => h.symm⟩

theorem Separated.perm {l l' : List σ} (h : Separated covers l) (hperm : l.Perm l') :
    Separated covers l' :=
  (hperm.pairwise_iff Apart.symm).mp h

theorem Separated.filter {l : List σ} (h : Separated covers l) (p : σ → Bool) :
    Separated covers (l.filter p) :=
  List.Pairwise.filter p h

/-- Two listed segments that cover the same point are the same segment. -/
theorem Separated.eq_of_covers {l : List σ} (h : Separated covers l) {s t : σ} {a : ι}
    (hs : s ∈ l) (ht : t ∈ l) (hsa : covers s a = true) (hta : covers t a = true) :
    s = t := by
  by_contra hne
  have hapart : Apart covers s t := List.Pairwise.forall h hs ht hne
  exact hapart a hsa hta

theorem lookup_mem {l : List σ} {a : ι} {s : σ} (h : lookup covers l a = some s) : s ∈ l :=
  List.mem_of_find?_eq_some h

theorem lookup_covers {l : List σ} {a : ι} {s : σ} (h : lookup covers l a = some s) :
    covers s a = true := by
  simpa using List.find?_some h

theorem lookup_eq_none_iff {l : List σ} {a : ι} :
    lookup covers l a = none ↔ ∀ s ∈ l, covers s a = false := by
  simp [lookup, List.find?_eq_none]

/-- In a separated list the scan finds the one segment that covers the point. -/
theorem lookup_eq_some_iff {l : List σ} (h : Separated covers l) {a : ι} {s : σ} :
    lookup covers l a = some s ↔ s ∈ l ∧ covers s a = true := by
  constructor
  · intro hs
    exact ⟨lookup_mem hs, lookup_covers hs⟩
  · rintro ⟨hmem, hcov⟩
    cases hfound : lookup covers l a with
    | none =>
        rw [lookup_eq_none_iff] at hfound
        simp [hfound s hmem] at hcov
    | some t =>
        rw [h.eq_of_covers hmem (lookup_mem hfound) hcov (lookup_covers hfound)]

/-- Two separated lists whose segments cover the point in the same way agree on it. -/
theorem lookup_congr {l l' : List σ} (h : Separated covers l) (h' : Separated covers l')
    {a : ι} (hmem : ∀ s, covers s a = true → (s ∈ l ↔ s ∈ l')) :
    lookup covers l a = lookup covers l' a := by
  apply Option.ext
  intro s
  rw [lookup_eq_some_iff h, lookup_eq_some_iff h']
  constructor
  · rintro ⟨hs, hcov⟩
    exact ⟨(hmem s hcov).mp hs, hcov⟩
  · rintro ⟨hs, hcov⟩
    exact ⟨(hmem s hcov).mpr hs, hcov⟩

/-- The order of a separated list does not matter to the scan. -/
theorem lookup_perm {l l' : List σ} (h : Separated covers l) (hperm : l.Perm l') (a : ι) :
    lookup covers l a = lookup covers l' a :=
  lookup_congr h (h.perm hperm) fun _ _ => hperm.mem_iff

/-! ## Cutting segments into pieces -/

/-- Cutting every segment into pieces that are inside it and apart from each other keeps
the list separated. -/
theorem Separated.flatMap {l : List σ} (h : Separated covers l) {pieces : σ → List σ}
    (hinside : ∀ s ∈ l, ∀ p ∈ pieces s, ∀ a, covers p a = true → covers s a = true)
    (hpieces : ∀ s ∈ l, Separated covers (pieces s)) :
    Separated covers (l.flatMap pieces) := by
  induction l with
  | nil => exact List.Pairwise.nil
  | cons s l ih =>
      rw [Separated, List.pairwise_cons] at h
      rw [List.flatMap_cons, Separated, List.pairwise_append]
      refine ⟨hpieces s List.mem_cons_self, ?_, ?_⟩
      · exact ih h.2 (fun t ht => hinside t (List.mem_cons_of_mem s ht))
          (fun t ht => hpieces t (List.mem_cons_of_mem s ht))
      · intro p hp q hq
        obtain ⟨t, ht, hqt⟩ := List.mem_flatMap.mp hq
        exact (h.1 t ht).mono (hinside s List.mem_cons_self p hp)
          (hinside t (List.mem_cons_of_mem s ht) q hqt)

/-- After cutting, a point is looked up among the pieces of its own segment. -/
theorem lookup_flatMap {l : List σ} (h : Separated covers l) {pieces : σ → List σ}
    (hinside : ∀ s ∈ l, ∀ p ∈ pieces s, ∀ a, covers p a = true → covers s a = true)
    (hpieces : ∀ s ∈ l, Separated covers (pieces s)) (a : ι) :
    lookup covers (l.flatMap pieces) a =
      (lookup covers l a).bind fun s => lookup covers (pieces s) a := by
  have hcut : Separated covers (l.flatMap pieces) := h.flatMap hinside hpieces
  apply Option.ext
  intro p
  rw [lookup_eq_some_iff hcut, Option.bind_eq_some_iff]
  constructor
  · rintro ⟨hp, hcov⟩
    obtain ⟨s, hs, hps⟩ := List.mem_flatMap.mp hp
    refine ⟨s, ?_, ?_⟩
    · exact (lookup_eq_some_iff h).mpr ⟨hs, hinside s hs p hps a hcov⟩
    · exact (lookup_eq_some_iff (hpieces s hs)).mpr ⟨hps, hcov⟩
  · rintro ⟨s, hs, hp⟩
    exact ⟨List.mem_flatMap.mpr ⟨s, lookup_mem hs, lookup_mem hp⟩, lookup_covers hp⟩

/-! ## Deleting, adding and editing segments -/

/-- Deleting segments deletes exactly the points they cover. -/
theorem lookup_filter {l : List σ} (h : Separated covers l) (p : σ → Bool) (a : ι) :
    lookup covers (l.filter p) a = (lookup covers l a).filter p := by
  apply Option.ext
  intro s
  rw [lookup_eq_some_iff (h.filter p), Option.filter_eq_some_iff, lookup_eq_some_iff h,
    List.mem_filter]
  tauto

/-- Editing every segment in place edits the segment found. -/
theorem lookup_map {l : List σ} {f : σ → σ}
    (hf : ∀ s a, covers (f s) a = covers s a) (a : ι) :
    lookup covers (l.map f) a = (lookup covers l a).map f := by
  have hcomp : (fun s => covers s a) ∘ f = fun s => covers s a :=
    funext fun s => hf s a
  rw [lookup, List.find?_map, hcomp]
  rfl

/-- Editing every segment in place keeps the list separated. -/
theorem Separated.map {l : List σ} (h : Separated covers l) {f : σ → σ}
    (hf : ∀ s a, covers (f s) a = covers s a) : Separated covers (l.map f) := by
  refine List.Pairwise.map f (fun s t hst => ?_) h
  intro a hs ht
  rw [hf] at hs ht
  exact hst a hs ht

/-- A segment apart from all others can be added. -/
theorem Separated.append_singleton {l : List σ} (h : Separated covers l) {s : σ}
    (hs : ∀ t ∈ l, Apart covers t s) : Separated covers (l ++ [s]) := by
  rw [Separated, List.pairwise_append]
  refine ⟨h, List.pairwise_singleton _ _, ?_⟩
  intro t ht s' hs'
  rw [List.mem_singleton.mp hs']
  exact hs t ht

/-- Points of an added segment belong to it, all others are looked up as before. -/
theorem lookup_append_singleton {l : List σ} {s : σ} (hs : ∀ t ∈ l, Apart covers t s)
    (a : ι) :
    lookup covers (l ++ [s]) a = if covers s a = true then some s else lookup covers l a := by
  simp only [lookup, List.find?_append, List.find?_cons, List.find?_nil]
  by_cases hcov : covers s a = true
  · have hnone : l.find? (fun t => covers t a) = none := by
      rw [List.find?_eq_none]
      intro t ht htcov
      exact hs t ht a htcov hcov
    simp [hnone, hcov]
  · simp [hcov]

/-- Replace the first segment that covers the point. -/
def update (covers : σ → ι → Bool) (l : List σ) (a : ι) (f : σ → σ) : List σ :=
  match l with
  | [] => []
  | s :: l => if covers s a then f s :: l else s :: update covers l a f

/-- What holds of every segment and is kept by the edit holds of every segment after it. -/
theorem forall_mem_update {Q : σ → Prop} {l : List σ} {a : ι} {f : σ → σ}
    (hf : ∀ s ∈ l, covers s a = true → Q s → Q (f s)) (h : ∀ s ∈ l, Q s) :
    ∀ s ∈ update covers l a f, Q s := by
  induction l with
  | nil => exact h
  | cons s l ih =>
      simp only [List.mem_cons, forall_eq_or_imp] at h hf
      rw [update]
      split <;> rename_i hcov
      · simp only [List.mem_cons, forall_eq_or_imp]
        exact ⟨hf.1 hcov h.1, h.2⟩
      · simp only [List.mem_cons, forall_eq_or_imp]
        exact ⟨h.1, ih hf.2 h.2⟩

/-- An edit that keeps a relation to all other segments keeps it pairwise. -/
theorem pairwise_update {R : σ → σ → Prop} {l : List σ} {a : ι} {f : σ → σ}
    (hf : ∀ s ∈ l, covers s a = true → ∀ t, (R s t → R (f s) t) ∧ (R t s → R t (f s)))
    (h : l.Pairwise R) : (update covers l a f).Pairwise R := by
  induction l with
  | nil => exact h
  | cons s l ih =>
      rw [List.pairwise_cons] at h
      simp only [List.mem_cons, forall_eq_or_imp] at hf
      rw [update]
      split <;> rename_i hcov
      · exact List.pairwise_cons.mpr ⟨fun t ht => (hf.1 hcov t).1 (h.1 t ht), h.2⟩
      · refine List.pairwise_cons.mpr ⟨?_, ih hf.2 h.2⟩
        exact forall_mem_update (fun t ht htcov hst => (hf.2 t ht htcov s).2 hst) h.1

/-- An edit that keeps what the segment covers keeps the list separated. -/
theorem Separated.update {l : List σ} (h : Separated covers l) {a : ι} {f : σ → σ}
    (hf : ∀ s ∈ l, covers s a = true → ∀ b, covers (f s) b = covers s b) :
    Separated covers (update covers l a f) := by
  refine pairwise_update (fun s hs hsa t => ⟨?_, ?_⟩) h
  · intro hst b hb
    exact hst b (by rwa [hf s hs hsa b] at hb)
  · intro hts b hb hfb
    exact hts b hb (by rwa [hf s hs hsa b] at hfb)

/-- A table together with what each segment says about its points is a partial map.  An edit
of the segment found at a point that keeps what it covers, and what it says about the other
points, replaces the value of the map at that point. -/
theorem map_lookup_update [DecidableEq ι] {β : Type*} {view : σ → ι → β} {l : List σ} {a : ι}
    {s : σ} {f : σ → σ} (hs : lookup covers l a = some s)
    (hcovers : ∀ b, covers (f s) b = covers s b) (hview : ∀ b, b ≠ a → view (f s) b = view s b) :
    (fun b => (lookup covers (update covers l a f) b).map fun t => view t b) =
      Function.update (fun b => (lookup covers l b).map fun t => view t b) a
        (some (view (f s) a)) := by
  funext b
  induction l with
  | nil => cases hs
  | cons t l ih =>
      rw [SegmentList.update]
      by_cases hta : covers t a = true
      · have hfirst : t = s := by simpa [lookup, hta] using hs
        subst hfirst
        rw [if_pos hta]
        by_cases hb : b = a
        · subst hb
          simp [lookup, hcovers, hta]
        · rw [Function.update_of_ne hb]
          by_cases htb : covers t b = true
          · simp [lookup, hcovers, htb, hview b hb]
          · simp [lookup, hcovers, htb]
      · rw [if_neg hta]
        have hrest : lookup covers l a = some s := by simpa [lookup, hta] using hs
        by_cases htb : covers t b = true
        · have hb : b ≠ a := fun heq => hta (heq ▸ htb)
          rw [Function.update_of_ne hb]
          simp [lookup, htb]
        · have ih' := ih hrest
          by_cases hb : b = a
          · subst hb
            simpa [lookup, htb] using ih'
          · rw [Function.update_of_ne hb] at ih' ⊢
            simpa [lookup, htb] using ih'

end SegmentList
