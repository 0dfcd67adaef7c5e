import LinuxUserspaceEmulator.Library.LittleEndian
import Mathlib.Algebra.BigOperators.Group.List.Basic
import Mathlib.Algebra.GroupWithZero.Nat

/-!
# Records of little-endian words

A record that a binary interface lays out without gaps is a sequence of words of one, two,
four or eight bytes.  Its bytes are those of its fields in order, and a field is found at the
sum of the widths before it.

Main results:

- Theorem `length_bytes`: a record is as long as its fields together.
- Theorem `getD_bytes`: the bytes of a field inside the record.
- Theorem `wordAt_bytes`: every field of the record reads back.
- Theorem `getD_flatMap`: the bytes of an element inside an array.
-/

namespace WordRecord

/-- A field: its width in bytes and its value. -/
structure Field where
  width : Nat
  value : BitVec 64
deriving DecidableEq, Repr

/-- The value of a field fits its width. -/
def Field.Fits (field : Field) : Prop :=
  field.width ≤ 8 ∧ field.value.toNat < 2 ^ (field.width * 8)

/-- The bytes of a field, lowest first. -/
def Field.bytes (field : Field) : List (BitVec 8) :=
  (List.range field.width).map (LittleEndian.byte field.value)

/-- The bytes of a record. -/
def bytes (fields : List Field) : List (BitVec 8) :=
  fields.flatMap Field.bytes

/-- The size of a record. -/
def size (fields : List Field) : Nat :=
  (fields.map Field.width).sum

/-- The word of so many bytes at an offset of a buffer. -/
def wordAt (buffer : List (BitVec 8)) (offset width : Nat) : BitVec 64 :=
  LittleEndian.assemble (fun i => buffer.getD (offset + i) 0) width

@[simp]
theorem Field.length_bytes (field : Field) : field.bytes.length = field.width := by
  simp [Field.bytes]

@[simp]
theorem length_bytes (fields : List Field) : (bytes fields).length = size fields := by
  simp [bytes, size, List.length_flatMap]

/-- The bytes of a field stand after the fields before it. -/
theorem getD_bytes (before after : List Field) (field : Field) {i : Nat} (hi : i < field.width) :
    (bytes (before ++ field :: after)).getD (size before + i) 0 =
      LittleEndian.byte field.value i := by
  have hsplit : bytes (before ++ field :: after) =
      bytes before ++ (field.bytes ++ bytes after) := by
    simp [bytes]
  have hlength : (bytes before).length = size before := length_bytes before
  have hinside : i < field.bytes.length := by simpa using hi
  rw [hsplit, List.getD_eq_getElem?_getD, List.getElem?_append_right (by omega),
    List.getElem?_append_left (by omega)]
  simp [Field.bytes, hlength, hi]

/-- A word is decided by its bytes. -/
theorem assemble_of_fits {field : Field} (h : field.Fits) {buffer : Nat → BitVec 8}
    (hbytes : ∀ i < field.width, buffer i = LittleEndian.byte field.value i) :
    LittleEndian.assemble buffer field.width = field.value := by
  have hvalue : (field.value.setWidth (field.width * 8)).setWidth 64 = field.value := by
    apply BitVec.eq_of_toNat_eq
    simp only [BitVec.toNat_setWidth]
    rw [Nat.mod_eq_of_lt h.2, Nat.mod_eq_of_lt field.value.isLt]
  rw [LittleEndian.assemble_congr hbytes]
  have hassembled := LittleEndian.assemble_byte_setWidth h.1
    (field.value.setWidth (field.width * 8))
  rw [hvalue] at hassembled
  exact hassembled

/-- Every field that fits reads back from the bytes of the record. -/
theorem wordAt_bytes (before after : List Field) {field : Field} (h : field.Fits) :
    wordAt (bytes (before ++ field :: after)) (size before) field.width = field.value :=
  assemble_of_fits h fun _ hi => getD_bytes before after field hi

/-! ## Arrays -/

/-- In an array of elements of one size the bytes of an element stand at its index times the
size. -/
theorem getD_flatMap {α β : Type} {f : α → List β} {size : Nat}
    (hsize : ∀ a, (f a).length = size) {l : List α} {i j : Nat} {d : β} (hi : i < l.length)
    (hj : j < size) : (l.flatMap f).getD (i * size + j) d = (f l[i]).getD j d := by
  simp only [List.getD_eq_getElem?_getD]
  induction l generalizing i with
  | nil => exact absurd hi (Nat.not_lt_zero i)
  | cons a l ih =>
      rw [List.flatMap_cons]
      cases i with
      | zero =>
          rw [Nat.zero_mul, Nat.zero_add, List.getElem?_append_left (by rwa [hsize])]
          rfl
      | succ i =>
          have hsplit : (i + 1) * size + j = (f a).length + (i * size + j) := by
            rw [hsize, Nat.succ_mul]
            omega
          rw [hsplit, List.getElem?_append_right (Nat.le_add_right _ _), Nat.add_sub_cancel_left]
          exact ih (Nat.lt_of_succ_lt_succ hi)

end WordRecord
