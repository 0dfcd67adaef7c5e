import Mathlib.Data.List.Nodup
import Mathlib.Logic.Function.Basic

/-!
# Writes at listed places

A partial map that is written at the places of a list, one after the other.  A later write to
the same place wins, so what has been written reads back when the places are distinct.

Main results:

- Theorem `writeAll_append`: writes in two lists.
- Theorem `writeAll_of_not_mem`: nothing changes at other places.
- Theorem `map_writeAll_zip`: values written at distinct places read back.
-/

namespace PointwiseWrites

variable {ι β : Type*}

/-- Pairing with a list in two parts. -/
theorem append_zip (places places' : List ι) (values : List β) :
    (places ++ places').zip values =
      places.zip (values.take places.length) ++ places'.zip (values.drop places.length) := by
  induction places generalizing values with
  | nil => rfl
  | cons place places ih =>
      cases values with
      | nil => simp
      | cons value values => simp [ih]

variable [DecidableEq ι] {f : ι → Option β}

/-- The map after some writes, the first one first. -/
def writeAll (f : ι → Option β) (writes : List (ι × β)) : ι → Option β :=
  writes.foldl (fun f write => Function.update f write.1 (some write.2)) f

@[simp]
theorem writeAll_nil (f : ι → Option β) : writeAll f [] = f :=
  rfl

theorem writeAll_cons (f : ι → Option β) (write : ι × β) (writes : List (ι × β)) :
    writeAll f (write :: writes) =
      writeAll (Function.update f write.1 (some write.2)) writes :=
  rfl

theorem writeAll_append (f : ι → Option β) (writes writes' : List (ι × β)) :
    writeAll f (writes ++ writes') = writeAll (writeAll f writes) writes' :=
  List.foldl_append

theorem writeAll_of_not_mem {writes : List (ι × β)} {a : ι} (h : a ∉ writes.map Prod.fst) :
    writeAll f writes a = f a := by
  induction writes generalizing f with
  | nil => rfl
  | cons write writes ih =>
      rw [List.map_cons, List.mem_cons, not_or] at h
      rw [writeAll_cons, ih h.2, Function.update_of_ne h.1]

/-- Places are written at the places of the list only. -/
theorem writeAll_zip_of_not_mem {places : List ι} {values : List β} {a : ι} (h : a ∉ places) :
    writeAll f (places.zip values) a = f a := by
  refine writeAll_of_not_mem fun hmem => h ?_
  obtain ⟨⟨place, value⟩, hpair, rfl⟩ := List.mem_map.mp hmem
  exact (List.of_mem_zip hpair).1

/-- Values written at distinct places read back. -/
theorem map_writeAll_zip {places : List ι} {values : List β} (hplaces : places.Nodup)
    (hlength : values.length ≤ places.length) :
    (places.take values.length).map (writeAll f (places.zip values)) = values.map some := by
  induction places generalizing f values with
  | nil =>
      rw [List.length_nil, Nat.le_zero, List.length_eq_zero_iff] at hlength
      subst hlength
      rfl
  | cons place places ih =>
      cases values with
      | nil => rfl
      | cons value values =>
          rw [List.nodup_cons] at hplaces
          rw [List.length_cons, List.length_cons] at hlength
          have hrest := ih (f := Function.update f place (some value)) hplaces.2
            (Nat.le_of_succ_le_succ hlength)
          have hfirst : writeAll (Function.update f place (some value)) (places.zip values)
              place = some value := by
            rw [writeAll_zip_of_not_mem hplaces.1, Function.update_self]
          rw [List.zip_cons_cons, writeAll_cons, List.length_cons, List.take_succ_cons,
            List.map_cons, List.map_cons, hrest, hfirst]

end PointwiseWrites
