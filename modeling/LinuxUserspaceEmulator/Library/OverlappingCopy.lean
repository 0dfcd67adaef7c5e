import Mathlib.Data.BitVec
import Mathlib.Tactic.LinearCombination
import Mathlib.Tactic.Ring

/-!
# Copies between overlapping ranges

A range of memory can be copied byte by byte, each byte read after the bytes before it are
written, or element by element, each element read as a whole before it is written.  The ranges
may overlap: byte by byte, what is read behind the distance of the ranges has been written before,
and the first bytes are repeated with the distance as a period.

Main results:

- Theorem `copyBytes_apply`: what a copy byte by byte leaves.
- Theorem `copyBytes_eq_copyElement_iff`: when one element is copied alike in both ways.
- Theorem `bytewise_eq_elementwise_iff`: when a run of elements with disjoint destinations is.
-/

namespace OverlappingCopy

universe u

variable {n : Nat} {α : Type u}

/-- The distance of two ranges. -/
def distance (source destination : BitVec n) : Nat :=
  (destination - source).toNat

/-- `for (b = 0; b < count; ++b) memory[destination + b] = memory[source + b]`. -/
def copyBytes (source destination : BitVec n) : Nat → (BitVec n → α) → BitVec n → α
  | 0, memory => memory
  | count + 1, memory =>
      let copied := copyBytes source destination count memory
      Function.update copied (destination + BitVec.ofNat n count)
        (copied (source + BitVec.ofNat n count))

/-- A whole element is read and then written. -/
def copyElement (source destination : BitVec n) (width : Nat) (memory : BitVec n → α) :
    BitVec n → α := fun address =>
  if (address - destination).toNat < width then memory (source + (address - destination))
  else memory address

variable {source destination : BitVec n} {count width : Nat} {memory : BitVec n → α}

/-! ## One range -/

theorem ofNat_sub_toNat (destination address : BitVec n) :
    destination + BitVec.ofNat n (address - destination).toNat = address := by
  rw [BitVec.ofNat_toNat, BitVec.setWidth_eq, BitVec.add_comm, BitVec.sub_add_cancel]

theorem toNat_add_sub {k : Nat} (hk : k < 2 ^ n) (destination : BitVec n) :
    (destination + BitVec.ofNat n k - destination).toNat = k := by
  rw [BitVec.add_comm, BitVec.add_sub_cancel, BitVec.toNat_ofNat, Nat.mod_eq_of_lt hk]

/-- Where a byte of the source lies in the destination. -/
theorem toNat_source_sub {k : Nat} (hk : k < 2 ^ n) (source destination : BitVec n) :
    (source + BitVec.ofNat n k - destination).toNat =
      if distance source destination ≤ k then k - distance source destination
      else 2 ^ n + k - distance source destination := by
  have hshift : source + BitVec.ofNat n k - destination =
      BitVec.ofNat n k - (destination - source) := by ring
  have hlt : distance source destination < 2 ^ n := (destination - source).isLt
  rw [hshift, BitVec.toNat_sub, BitVec.toNat_ofNat, Nat.mod_eq_of_lt hk]
  change (2 ^ n - distance source destination + k) % 2 ^ n = _
  split <;> rename_i hle
  · have hsum : 2 ^ n - distance source destination + k =
        k - distance source destination + 2 ^ n := by omega
    rw [hsum, Nat.add_mod_right, Nat.mod_eq_of_lt (by omega)]
  · rw [Nat.mod_eq_of_lt (by omega)]
    omega

/-- A copy byte by byte repeats the first bytes with the distance as a period. -/
theorem copyBytes_apply (hcount : count ≤ 2 ^ n) (address : BitVec n) :
    copyBytes source destination count memory address =
      if (address - destination).toNat < count then
        memory (source + BitVec.ofNat n
          ((address - destination).toNat % distance source destination))
      else memory address := by
  induction count generalizing address with
  | zero => rfl
  | succ count ih =>
      have hlt : count < 2 ^ n := hcount
      have hprevious := ih (Nat.le_of_lt hlt)
      by_cases hlast : address = destination + BitVec.ofNat n count
      · -- the byte that is written last was read from the copy so far
        subst hlast
        rw [copyBytes, Function.update_self, hprevious, toNat_source_sub hlt, toNat_add_sub hlt,
          if_pos (Nat.lt_succ_self count)]
        have hdistance : distance source destination < 2 ^ n := (destination - source).isLt
        by_cases hbehind : distance source destination ≤ count
        · rw [if_pos hbehind, Nat.mod_eq_sub_mod hbehind]
          by_cases hzero : distance source destination = 0
          · rw [hzero, Nat.sub_zero, if_neg (Nat.lt_irrefl count), Nat.mod_zero]
          · rw [if_pos (by omega)]
        · rw [if_neg hbehind, if_neg (by omega), Nat.mod_eq_of_lt (Nat.lt_of_not_le hbehind)]
      · have hindex : (address - destination).toNat ≠ count := by
          intro h
          exact hlast (by rw [← h, ofNat_sub_toNat])
        have hiff : (address - destination).toNat < count + 1 ↔
            (address - destination).toNat < count := by omega
        rw [copyBytes, Function.update_of_ne hlast, hprevious]
        simp only [hiff]

/-- An element is copied alike in both ways exactly when its source repeats with the distance as a
period. -/
theorem copyBytes_eq_copyElement_iff (hwidth : width ≤ 2 ^ n) :
    copyBytes source destination width memory = copyElement source destination width memory ↔
      ∀ b < width, memory (source + BitVec.ofNat n b) =
        memory (source + BitVec.ofNat n (b % distance source destination)) := by
  constructor
  · intro hsame b hb
    have hlt : b < 2 ^ n := Nat.lt_of_lt_of_le hb hwidth
    have hbyte := congrFun hsame (destination + BitVec.ofNat n b)
    rw [copyBytes_apply hwidth, copyElement, toNat_add_sub hlt, if_pos hb, if_pos hb,
      BitVec.add_comm destination, BitVec.add_sub_cancel] at hbyte
    exact hbyte.symm
  · intro hrepeats
    funext address
    rw [copyBytes_apply hwidth, copyElement]
    by_cases hin : (address - destination).toNat < width
    · rw [if_pos hin, if_pos hin, ← hrepeats _ hin, BitVec.ofNat_toNat, BitVec.setWidth_eq]
    · rw [if_neg hin, if_neg hin]

/-- A byte of the source that the copy has not read yet. -/
theorem copyBytes_source (hcount : count ≤ 2 ^ n) {k : Nat} (hk : k < 2 ^ n) (hlater : count ≤ k) :
    copyBytes source destination count memory (source + BitVec.ofNat n k) =
      memory (source + BitVec.ofNat n
        (if k < count + distance source destination then k % distance source destination
        else k)) := by
  have hdistance : distance source destination < 2 ^ n := (destination - source).isLt
  rw [copyBytes_apply hcount, toNat_source_sub hk]
  by_cases hbehind : distance source destination ≤ k
  · rw [if_pos hbehind, ← Nat.mod_eq_sub_mod hbehind]
    by_cases hwritten : k - distance source destination < count
    · rw [if_pos hwritten, if_pos (by omega)]
    · rw [if_neg hwritten, if_neg (by omega)]
  · rw [if_neg hbehind, if_neg (by omega), if_pos (by omega),
      Nat.mod_eq_of_lt (Nat.lt_of_not_le hbehind)]

/-! ## Runs of elements -/

/-- The memory after some elements. -/
def runElements (copy : Nat → (BitVec n → α) → BitVec n → α) :
    Nat → (BitVec n → α) → BitVec n → α
  | 0, memory => memory
  | count + 1, memory => copy count (runElements copy count memory)

variable {sources destinations : Nat → BitVec n}

/-- The elements are copied byte by byte. -/
def bytewise (sources destinations : Nat → BitVec n) (width : Nat) :
    Nat → (BitVec n → α) → BitVec n → α :=
  runElements fun i => copyBytes (sources i) (destinations i) width

/-- Every element is read as a whole. -/
def elementwise (sources destinations : Nat → BitVec n) (width : Nat) :
    Nat → (BitVec n → α) → BitVec n → α :=
  runElements fun i => copyElement (sources i) (destinations i) width

/-- No two elements of the destination share a byte. -/
def Disjoint (destinations : Nat → BitVec n) (width count : Nat) : Prop :=
  ∀ i < count, ∀ j < i, ∀ b < width, ∀ c < width,
    destinations i + BitVec.ofNat n b ≠ destinations j + BitVec.ofNat n c

theorem copyBytes_of_ne {address : BitVec n}
    (h : ∀ b < count, address ≠ destination + BitVec.ofNat n b) :
    copyBytes source destination count memory address = memory address := by
  induction count with
  | zero => rfl
  | succ count ih =>
      rw [copyBytes, Function.update_of_ne (h count (Nat.lt_succ_self count))]
      exact ih fun b hb => h b (Nat.lt_succ_of_lt hb)

theorem copyElement_of_ne {address : BitVec n}
    (h : ∀ b < width, address ≠ destination + BitVec.ofNat n b) :
    copyElement source destination width memory address = memory address := by
  rw [copyElement, if_neg]
  intro hin
  exact h _ hin (ofNat_sub_toNat destination address).symm

/-- Later elements leave an earlier one. -/
theorem runElements_of_disjoint {copy : Nat → (BitVec n → α) → BitVec n → α}
    (hframe : ∀ i memory address, (∀ b < width, address ≠ destinations i + BitVec.ofNat n b) →
      copy i memory address = memory address)
    (hdisjoint : Disjoint destinations width count) {i : Nat} (hi : i < count) {b : Nat}
    (hb : b < width) :
    runElements copy count memory (destinations i + BitVec.ofNat n b) =
      copy i (runElements copy i memory) (destinations i + BitVec.ofNat n b) := by
  induction count with
  | zero => exact absurd hi (Nat.not_lt_zero i)
  | succ count ih =>
      rcases Nat.lt_succ_iff_lt_or_eq.mp hi with hlt | rfl
      · have hearlier := ih (fun i hi => hdisjoint i (Nat.lt_succ_of_lt hi)) hlt
        rw [runElements, hframe, hearlier]
        exact fun c hc h => hdisjoint count (Nat.lt_succ_self count) i hlt c hc b hb h.symm
      · rfl

/-- A run of elements with disjoint destinations is copied alike in both ways exactly when every
source, as the run finds it, repeats with the distance as a period. -/
theorem bytewise_eq_elementwise_iff (hwidth : width ≤ 2 ^ n)
    (hdisjoint : Disjoint destinations width count) :
    bytewise sources destinations width count memory =
        elementwise sources destinations width count memory ↔
      ∀ i < count, ∀ b < width,
        bytewise sources destinations width i memory (sources i + BitVec.ofNat n b) =
          bytewise sources destinations width i memory (sources i +
            BitVec.ofNat n (b % distance (sources i) (destinations i))) := by
  constructor
  · intro hsame
    have hsteps : ∀ i < count,
        bytewise sources destinations width i memory =
          elementwise sources destinations width i memory →
        copyBytes (sources i) (destinations i) width
            (bytewise sources destinations width i memory) =
          copyElement (sources i) (destinations i) width
            (bytewise sources destinations width i memory) := by
      intro i hi hprevious
      funext address
      by_cases hin : (address - destinations i).toNat < width
      · have hbyte := congrFun hsame address
        rw [← ofNat_sub_toNat (destinations i) address] at hbyte ⊢
        rw [bytewise, elementwise, runElements_of_disjoint (fun _ _ _ h => copyBytes_of_ne h)
          hdisjoint hi hin, runElements_of_disjoint (fun _ _ _ h => copyElement_of_ne h)
          hdisjoint hi hin] at hbyte
        exact hbyte.trans (congrArg (copyElement _ _ width · _) hprevious.symm)
      · have hout : ∀ b < width, address ≠ destinations i + BitVec.ofNat n b := by
          rintro b hb rfl
          rw [toNat_add_sub (Nat.lt_of_lt_of_le hb hwidth)] at hin
          exact hin hb
        rw [copyBytes_of_ne hout, copyElement_of_ne hout]
    have hearlier : ∀ i ≤ count, bytewise sources destinations width i memory =
        elementwise sources destinations width i memory := by
      intro i hi
      induction i with
      | zero => rfl
      | succ i ih =>
          have hprevious := ih (Nat.le_of_succ_le hi)
          have hstep := hsteps i hi hprevious
          rw [bytewise, elementwise, runElements, runElements]
          exact hstep.trans (congrArg (copyElement _ _ width) hprevious)
    exact fun i hi => (copyBytes_eq_copyElement_iff hwidth).mp
      (hsteps i hi (hearlier i (Nat.le_of_lt hi)))
  · intro hrepeats
    induction count with
    | zero => rfl
    | succ count ih =>
        have hprevious := ih (fun i hi => hdisjoint i (Nat.lt_succ_of_lt hi))
          fun i hi => hrepeats i (Nat.lt_succ_of_lt hi)
        have hstep := (copyBytes_eq_copyElement_iff hwidth).mpr
          (hrepeats count (Nat.lt_succ_self count))
        rw [bytewise, elementwise, runElements, runElements]
        exact hstep.trans (congrArg (copyElement _ _ width) hprevious)

/-- A byte outside the destinations so far. -/
theorem runElements_of_ne {copy : Nat → (BitVec n → α) → BitVec n → α}
    (hframe : ∀ i memory address, (∀ b < width, address ≠ destinations i + BitVec.ofNat n b) →
      copy i memory address = memory address) {address : BitVec n}
    (h : ∀ i < count, ∀ b < width, address ≠ destinations i + BitVec.ofNat n b) :
    runElements copy count memory address = memory address := by
  induction count with
  | zero => rfl
  | succ count ih =>
      rw [runElements, hframe _ _ _ (h count (Nat.lt_succ_self count))]
      exact ih fun i hi => h i (Nat.lt_succ_of_lt hi)

theorem ofNat_inj {a b : Nat} (ha : a < 2 ^ n) (hb : b < 2 ^ n)
    (h : BitVec.ofNat n a = BitVec.ofNat n b) : a = b := by
  have htoNat := congrArg BitVec.toNat h
  rwa [BitVec.toNat_ofNat, BitVec.toNat_ofNat, Nat.mod_eq_of_lt ha, Nat.mod_eq_of_lt hb] at htoNat

/-- An index into a run of elements. -/
theorem index_lt {i b : Nat} (hi : i < count) (hb : b < width) : i * width + b < count * width := by
  calc i * width + b < i * width + width := Nat.add_lt_add_left hb _
    _ = (i + 1) * width := (Nat.succ_mul i width).symm
    _ ≤ count * width := Nat.mul_le_mul_right width hi

/-! ## Upwards -/

/-- The elements of a range, in the order of their addresses. -/
def upwards (start : BitVec n) (width : Nat) (i : Nat) : BitVec n :=
  start + BitVec.ofNat n (i * width)

theorem upwards_add (start : BitVec n) (width i b : Nat) :
    upwards start width i + BitVec.ofNat n b = start + BitVec.ofNat n (i * width + b) := by
  rw [upwards, BitVec.add_assoc, ← BitVec.ofNat_add]

theorem distance_upwards (source destination : BitVec n) (width i : Nat) :
    distance (upwards source width i) (upwards destination width i) =
      distance source destination := by
  rw [distance, distance, upwards, upwards]
  congr 1
  ring

theorem disjoint_upwards (hfits : count * width ≤ 2 ^ n) :
    Disjoint (upwards destination width) width count := by
  intro i hi j hj b hb c hc h
  rw [upwards_add, upwards_add] at h
  have hlater := index_lt hi hb
  have hearlier := index_lt hj hc
  have hsame := ofNat_inj (by omega) (by omega) (add_left_cancel h)
  omega

theorem copyBytes_add (source destination : BitVec n) (first second : Nat)
    (memory : BitVec n → α) :
    copyBytes source destination (first + second) memory =
      copyBytes (source + BitVec.ofNat n first) (destination + BitVec.ofNat n first) second
        (copyBytes source destination first memory) := by
  induction second with
  | zero => rfl
  | succ second ih =>
      rw [← Nat.add_assoc, copyBytes, copyBytes, ih, BitVec.ofNat_add, ← BitVec.add_assoc,
        ← BitVec.add_assoc]

/-- Elements that are copied upwards byte by byte are one range. -/
theorem bytewise_upwards (source destination : BitVec n) (width count : Nat)
    (memory : BitVec n → α) :
    bytewise (upwards source width) (upwards destination width) width count memory =
      copyBytes source destination (count * width) memory := by
  induction count with
  | zero => rw [Nat.zero_mul]; rfl
  | succ count ih =>
      rw [Nat.succ_mul, copyBytes_add, ← ih]
      rfl

/-- Elements are copied upwards alike in both ways exactly when what is not written before it is
read repeats the start of the source. -/
theorem bytewise_upwards_iff (hfits : count * width ≤ 2 ^ n) (hwidth : width ≤ 2 ^ n) :
    bytewise (upwards source width) (upwards destination width) width count memory =
        elementwise (upwards source width) (upwards destination width) width count memory ↔
      ∀ i < count, ∀ b < width, distance source destination ≤ b →
        memory (source + BitVec.ofNat n (i * width + b)) =
          memory (source + BitVec.ofNat n ((i * width + b) % distance source destination)) := by
  rw [bytewise_eq_elementwise_iff hwidth (disjoint_upwards hfits)]
  refine forall₂_congr fun i hi => forall₂_congr fun b hb => ?_
  have hlast := index_lt hi hb
  have hwritten : i * width ≤ 2 ^ n := by omega
  rw [distance_upwards, bytewise_upwards, upwards_add, upwards_add,
    copyBytes_source hwritten (k := i * width + b) (by omega) (by omega)]
  by_cases hzero : distance source destination = 0
  · simp only [hzero, Nat.mod_zero, Nat.add_zero, Nat.zero_le, true_implies]
    rw [copyBytes_source hwritten (by omega) (by omega)]
    simp [hzero]
  · have hlow : b % distance source destination < distance source destination :=
      Nat.mod_lt b (Nat.pos_of_ne_zero hzero)
    have hle := Nat.mod_le b (distance source destination)
    have hstart : (if i * width + b % distance source destination <
          i * width + distance source destination then
        (i * width + b % distance source destination) % distance source destination
        else i * width + b % distance source destination) =
          (i * width + b) % distance source destination := by
      rw [if_pos (by omega), Nat.add_mod_mod]
    rw [copyBytes_source hwritten (k := i * width + b % distance source destination) (by omega)
      (by omega), hstart]
    by_cases hbehind : distance source destination ≤ b
    · rw [if_neg (by omega)]
      exact ⟨fun h _ => h, fun h => h hbehind⟩
    · rw [if_pos (by omega)]
      exact iff_of_true rfl fun h => absurd h hbehind

/-! ## Downwards -/

/-- The elements of a range, against the order of their addresses. -/
def downwards (start : BitVec n) (width : Nat) (i : Nat) : BitVec n :=
  start - BitVec.ofNat n (i * width)

theorem distance_downwards (source destination : BitVec n) (width i : Nat) :
    distance (downwards source width i) (downwards destination width i) =
      distance source destination := by
  rw [distance, distance, downwards, downwards]
  congr 1
  ring

/-- Counted from the last element on, the addresses go up. -/
theorem downwards_add (start : BitVec n) (width : Nat) {q : Nat} (hq : q < count) (b : Nat) :
    downwards start width (count - 1 - q) + BitVec.ofNat n b =
      downwards start width (count - 1) + BitVec.ofNat n (q * width + b) := by
  have hlast : count - 1 = count - 1 - q + q := by omega
  rw [downwards, downwards, congrArg (· * width) hlast, Nat.add_mul, BitVec.ofNat_add,
    BitVec.ofNat_add]
  ring

theorem disjoint_downwards (hfits : count * width ≤ 2 ^ n) :
    Disjoint (downwards destination width) width count := by
  intro i hi j hj b hb c hc h
  have hsum : BitVec.ofNat n (j * width + b) = BitVec.ofNat n (i * width + c) := by
    rw [BitVec.ofNat_add, BitVec.ofNat_add]
    rw [downwards, downwards] at h
    linear_combination h
  have hlater := index_lt hi hc
  have hearlier := index_lt (Nat.lt_trans hj hi) hb
  have hstep := index_lt hj hb
  have hsame := ofNat_inj (by omega) (by omega) hsum
  omega

/-- Elements are copied downwards alike in both ways exactly when every source repeats with the
distance as a period. -/
theorem bytewise_downwards_iff (hfits : count * width + width ≤ 2 ^ n) :
    bytewise (downwards source width) (downwards destination width) width count memory =
        elementwise (downwards source width) (downwards destination width) width count memory ↔
      ∀ i < count, ∀ b < width, distance source destination ≤ b →
        memory (downwards source width i + BitVec.ofNat n b) =
          memory (downwards source width i +
            BitVec.ofNat n (b % distance source destination)) := by
  rw [bytewise_eq_elementwise_iff (by omega) (disjoint_downwards (by omega))]
  refine forall₂_congr fun i hi => forall₂_congr fun b hb => ?_
  rw [distance_downwards]
  by_cases hbehind : distance source destination ≤ b
  · by_cases hzero : distance source destination = 0
    · simp [hzero]
    · -- the elements so far lie above the source
      have hunread : ∀ c < width,
          bytewise (downwards source width) (downwards destination width) width i memory
              (downwards source width i + BitVec.ofNat n c) =
            memory (downwards source width i + BitVec.ofNat n c) := by
        intro c hc
        refine runElements_of_ne (fun _ _ _ h => copyBytes_of_ne h) fun j hj d hd h => ?_
        have hsum : BitVec.ofNat n (j * width + c) =
            BitVec.ofNat n (i * width + d + distance source destination) := by
          have hdistance : destination =
              source + BitVec.ofNat n (distance source destination) := by
            rw [distance, BitVec.ofNat_toNat, BitVec.setWidth_eq]
            ring
          rw [downwards, downwards, hdistance] at h
          rw [BitVec.ofNat_add, BitVec.ofNat_add, BitVec.ofNat_add]
          linear_combination h
        have hlater := index_lt hi hd
        have hearlier := index_lt hj hc
        have hstep := index_lt hi hc
        have hsame := ofNat_inj (by omega) (by omega) hsum
        omega
      rw [hunread b hb, hunread _ (Nat.lt_of_le_of_lt (Nat.mod_le _ _) hb)]
      exact ⟨fun h _ => h, fun h => h hbehind⟩
  · rw [Nat.mod_eq_of_lt (Nat.lt_of_not_le hbehind)]
    exact iff_of_true rfl fun h => absurd h hbehind

end OverlappingCopy
