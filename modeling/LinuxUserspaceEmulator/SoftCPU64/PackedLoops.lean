import LinuxUserspaceEmulator.Library.InPlace
import LinuxUserspaceEmulator.Library.LittleEndian
import LinuxUserspaceEmulator.SoftCPU64.OperandWidth

/-!
# The loops of the packed instructions

The packed instructions assign to the bytes of their destination one after another, and some of
them read the destination while they change it.  The functions on whole registers are what these
loops compute.

Main results:

- Theorem `runElements_eq_mapLanes`: a loop that stores element after element in place.
- Theorem `unpackLoop_eq`: interleaving from a copy of the destination.
- Theorem `packedInteger_eq_loop`: the packed instructions run their loops.
-/

namespace LUE

open InPlace SoftCPU64

namespace Xmm

variable {v lhs rhs : Xmm} {offset size count : Nat}

/-! ## Assignments -/

/-- `for (b = 0; b < count; ++b) destination[offset + b] = value(b)`. -/
def assignLoop (offset : Nat) (value : Nat → U8) (count : Nat) (destination : Xmm) : Xmm :=
  run (fun b destination => Function.update destination (Fin.ofNat 16 (offset + b)) (value b))
    count destination

theorem assignLoop_apply (value : Nat → U8) (hfits : offset + count ≤ 16) (v : Xmm) (i : Fin 16) :
    assignLoop offset value count v i =
      if offset ≤ i.val ∧ i.val < offset + count then value (i.val - offset) else v i := by
  have hcell : ∀ b < count, (Fin.ofNat 16 (offset + b)).val = offset + b := fun b hb =>
    Nat.mod_eq_of_lt (by omega)
  have hacts : ActsOn count (fun b i => Fin.ofNat 16 (offset + b) = i) fun b (v : Xmm) =>
      Function.update v (Fin.ofNat 16 (offset + b)) (value b) :=
    actsOn_assign (fun b _ => value b) (fun k hk l hl h => by
      have hval := congrArg Fin.val h
      rw [hcell k hk, hcell l hl] at hval
      omega) fun _ _ _ _ _ => rfl
  by_cases hinside : offset ≤ i.val ∧ i.val < offset + count
  · have hcell' : Fin.ofNat 16 (offset + (i.val - offset)) = i := by
      apply Fin.ext
      rw [hcell _ (by omega)]
      omega
    rw [if_pos hinside, assignLoop, run_of_cell hacts (by omega) hcell', hcell',
      Function.update_self]
  · rw [if_neg hinside]
    refine run_of_no_cell hacts (fun b hb h => hinside ?_) v
    rw [← h, hcell b hb]
    omega

/-- The bytes of an integer are assigned one after another. -/
theorem assignLoop_byte (value : U64) (hfits : offset + count ≤ 16) (v : Xmm) :
    assignLoop offset (LittleEndian.byte value) count v = v.store offset count value := by
  funext i
  rw [assignLoop_apply _ hfits, store]
  rfl

/-- One byte is assigned over and over. -/
theorem assignLoop_fill (fill : Bool) (hsize : count ≤ 8) (hfits : offset + count ≤ 16) (v : Xmm) :
    assignLoop offset (fun _ => if fill then 0xff else 0) count v =
      v.store offset count (if fill then BitVec.allOnes 64 else 0) := by
  funext i
  rw [assignLoop_apply _ hfits, store]
  by_cases hinside : offset ≤ i.val ∧ i.val < offset + count
  · rw [if_pos hinside, if_pos hinside]
    have hbyte : i.val - offset < 8 := by omega
    cases fill with
    | true =>
        apply BitVec.eq_of_getLsbD_eq
        intro j hj
        have hbit : (i.val - offset) * 8 + j < 64 := by omega
        have hones : (0xff : U8) = BitVec.allOnes 8 := rfl
        rw [if_pos rfl, if_pos rfl, hones, BitVec.getLsbD_allOnes, BitVec.getLsbD_setWidth,
          BitVec.getLsbD_ushiftRight, BitVec.getLsbD_allOnes, decide_eq_true hbit, Bool.and_true]
    | false => simp
  · rw [if_neg hinside, if_neg hinside]

/-! ## Elements -/

/-- `for (offset = 0; offset < 16; offset += size)` with an element that is stored at each
offset. -/
def runElements (size : Nat) (value : Nat → Xmm → U64) (destination : Xmm) : Xmm :=
  run (fun k destination =>
      destination.store (k * size) size (value (k * size) destination)) (16 / size) destination

/-- The bytes of an element. -/
theorem load_congr {v w : Xmm} (h : ∀ b < count, v.byte (offset + b) = w.byte (offset + b)) :
    v.load offset count = w.load offset count := by
  induction count with
  | zero => rfl
  | succ count ih =>
      rw [load, load, ih fun b hb => h b (Nat.lt_succ_of_lt hb), h count (Nat.lt_succ_self count)]

/-- The positions of an element. -/
theorem mul_div_le (hsize : size ∣ 16) (i : Fin 16) :
    i.val / size * size ≤ i.val ∧ i.val < i.val / size * size + size ∧
      i.val / size * size + size ≤ 16 := by
  have hpos : 0 < size := Nat.pos_of_dvd_of_pos hsize (by decide)
  have hdivision := Nat.div_add_mod' i.val size
  have hmod := Nat.mod_lt i.val hpos
  have hnext : (i.val / size + 1) * size ≤ 16 :=
    (Nat.le_div_iff_mul_le hpos).mp (Nat.div_lt_div_of_lt_of_dvd hsize i.isLt)
  rw [Nat.add_mul, Nat.one_mul] at hnext
  omega

/-- Elements that are computed from the destination's own element. -/
theorem runElements_apply (hsize : size ∣ 16) {value : Nat → Xmm → U64}
    (hvalue : ∀ k, ∀ v w : Xmm, (∀ b < size, v.byte (k * size + b) = w.byte (k * size + b)) →
      value (k * size) v = value (k * size) w) (v : Xmm) (i : Fin 16) :
    runElements size value v i =
      (value (i.val / size * size) v >>> ((i.val - i.val / size * size) * 8)).setWidth 8 := by
  have hinside := mul_div_le hsize i
  have hacts : ActsOn (16 / size) (fun k (i : Fin 16) => i.val / size = k)
      fun k (destination : Xmm) =>
        destination.store (k * size) size (value (k * size) destination) := by
    constructor
    · rintro k l i _ _ rfl rfl
      rfl
    · intro k i _ destination hother
      rw [store, if_neg]
      rintro ⟨hle, hlt⟩
      exact hother (Nat.div_eq_of_lt_le hle (by rwa [Nat.succ_mul]))
    · rintro k i _ destination destination' hsame rfl
      have hbounds := mul_div_le hsize i
      have hbyte : ∀ b < size, byte destination (i.val / size * size + b) =
          byte destination' (i.val / size * size + b) := by
        intro b hb
        refine hsame _ ?_
        have hval : (Fin.ofNat 16 (i.val / size * size + b)).val = i.val / size * size + b :=
          Nat.mod_eq_of_lt (by omega)
        rw [hval]
        exact Nat.div_eq_of_lt_le (Nat.le_add_right _ _) (by rw [Nat.succ_mul]; omega)
      rw [store, store, hvalue _ _ _ hbyte, if_pos ⟨hbounds.1, hbounds.2.1⟩,
        if_pos ⟨hbounds.1, hbounds.2.1⟩]
  have hcount : i.val / size < 16 / size := Nat.div_lt_div_of_lt_of_dvd hsize i.isLt
  rw [runElements, run_of_cell hacts hcount rfl, store, if_pos ⟨hinside.1, hinside.2.1⟩]

/-- Elements that are computed in place. -/
theorem runElements_eq_mapLanes (hsize : size ∣ 16) (f : U64 → U64 → U64) (lhs rhs : Xmm) :
    runElements size (fun offset destination =>
      f (destination.load offset size) (rhs.load offset size)) lhs = lhs.mapLanes rhs size f := by
  funext i
  refine (runElements_apply hsize (fun k v w h => ?_) lhs i).trans rfl
  simp only [load_congr h]

/-- Elements that are computed from a copy of the destination. -/
theorem runElements_copy_eq_mapLanes (hsize : size ∣ 16) (f : U64 → U64 → U64)
    (lhs rhs : Xmm) :
    runElements size (fun offset _ => f (lhs.load offset size) (rhs.load offset size)) lhs =
      lhs.mapLanes rhs size f := by
  funext i
  exact (runElements_apply hsize (fun k v w _ => rfl) lhs i).trans rfl

/-! ## Loops that store elements -/

/-- `for (offset = 0; offset < 16; offset += size)` with the bytes of an element assigned at each
offset. -/
def elementLoop (size : Nat) (value : Nat → Xmm → Nat → U8) (destination : Xmm) : Xmm :=
  run (fun k destination =>
      assignLoop (k * size) (value (k * size) destination) size destination) (16 / size) destination

theorem elementLoop_eq (hsize : size ∣ 16) {value : Nat → Xmm → Nat → U8}
    {value' : Nat → Xmm → U64} (h : ∀ offset destination, offset + size ≤ 16 →
      assignLoop offset (value offset destination) size destination =
        destination.store offset size (value' offset destination)) (v : Xmm) :
    elementLoop size value v = runElements size value' v := by
  refine run_congr (fun k hk destination => h _ destination ?_) v
  have hpos : 0 < size := Nat.pos_of_dvd_of_pos hsize (by decide)
  have hnext : (k + 1) * size ≤ 16 := (Nat.le_div_iff_mul_le hpos).mp hk
  rwa [Nat.add_mul, Nat.one_mul] at hnext

/-- `PSUBB`, `PSUBW`, `PSUBD`. -/
def subtractLoop (size : Nat) (destination rhs : Xmm) : Xmm :=
  elementLoop size (fun offset destination =>
    LittleEndian.byte ((destination.load offset size - rhs.load offset size) &&&
      ((1 : U64) <<< (size * 8) - 1))) destination

/-- `PADDQ`. -/
def addLoop (destination rhs : Xmm) : Xmm :=
  run (fun i destination =>
      if i = 0 ∨ i = 8 then
        assignLoop i (LittleEndian.byte (destination.load i 8 + rhs.load i 8)) 8 destination
      else destination) 16 destination

/-- `equal &= lhs[offset + b] == rhs[offset + b]`. -/
def equalBytes (lhs rhs : Xmm) (offset : Nat) : Nat → Bool
  | 0 => true
  | count + 1 =>
      equalBytes lhs rhs offset count && lhs.byte (offset + count) == rhs.byte (offset + count)

/-- `PCMPEQB`, `PCMPEQW`, `PCMPEQD`. -/
def equalLoop (size : Nat) (lhs rhs : Xmm) : Xmm :=
  elementLoop size (fun offset _ _ => if equalBytes lhs rhs offset size then 0xff else 0) lhs

/-- `(value ^ sign) - sign` for an element of so many bytes. -/
def withSign (size : Nat) (value : U64) : U64 :=
  (value ^^^ (1 : U64) <<< (size * 8 - 1)) - (1 : U64) <<< (size * 8 - 1)

/-- `PCMPGTB`, `PCMPGTW`, `PCMPGTD`. -/
def greaterLoop (size : Nat) (lhs rhs : Xmm) : Xmm :=
  elementLoop size (fun offset _ _ =>
    if (withSign size (rhs.load offset size)).slt (withSign size (lhs.load offset size)) then 0xff
    else 0) lhs

/-- `PMINUB`, `PMAXUB`. -/
def extremeLoop (extreme : U8 → U8 → U8) (destination rhs : Xmm) : Xmm :=
  run (fun i destination => Function.update destination (Fin.ofNat 16 i)
      (extreme (destination.byte i) (rhs.byte i))) 16 destination

/-- `PUNPCKLBW` to `PUNPCKHDQ`. -/
def unpackLoop (size start : Nat) (lhs rhs : Xmm) : Xmm :=
  run (fun lane destination =>
      run (fun b destination =>
          Function.update
            (Function.update destination (Fin.ofNat 16 (lane * size * 2 + b))
              (lhs.byte (start + lane * size + b)))
            (Fin.ofNat 16 (lane * size * 2 + size + b)) (rhs.byte (start + lane * size + b)))
        size destination) (8 / size) lhs

/-- `PUNPCKLQDQ`, `PUNPCKHQDQ`. -/
def unpackQuadwordLoop (offset : Nat) (lhs rhs : Xmm) : Xmm :=
  run (fun i destination =>
      Function.update (Function.update destination (Fin.ofNat 16 i) (lhs.byte (offset + i)))
        (Fin.ofNat 16 (8 + i)) (rhs.byte (offset + i))) 8 lhs

/-- A load assembles bytes. -/
theorem load_eq_assemble (v : Xmm) (offset count : Nat) :
    v.load offset count = LittleEndian.assemble (fun b => v.byte (offset + b)) count := by
  induction count with
  | zero => rfl
  | succ count ih => rw [load, ih, LittleEndian.assemble]

/-- Only the low bytes of an element are stored. -/
theorem mapLanes_congr (hsize : size ∣ 16) {f g : U64 → U64 → U64}
    (h : ∀ l r, ∀ b < size, LittleEndian.byte (f l r) b = LittleEndian.byte (g l r) b)
    (lhs rhs : Xmm) : lhs.mapLanes rhs size f = lhs.mapLanes rhs size g := by
  funext i
  have hinside := mul_div_le hsize i
  exact h _ _ (i.val - i.val / size * size) (by omega)

theorem byte_and_maskForWidth (value : U64) (width : Width) {b : Nat} (hb : b < width.bytes) :
    LittleEndian.byte (value &&& maskForWidth width) b = LittleEndian.byte value b := by
  apply BitVec.eq_of_getLsbD_eq
  intro j hj
  have hbit : b * 8 + j < width.bits := by
    rw [width.bits_eq]
    omega
  simp only [LittleEndian.byte, BitVec.getLsbD_setWidth, BitVec.getLsbD_ushiftRight,
    BitVec.getLsbD_and, AgreeAt.getLsbD_maskForWidth, hbit]
  simp

/-- The sizes of elements. -/
theorem bytes_dvd (width : Width) : width.bytes ∣ 16 := by
  cases width <;> decide

theorem subtractLoop_eq {width : Width} (hwidth : width ≠ .w64) (lhs rhs : Xmm) :
    subtractLoop width.bytes lhs rhs = lhs.mapLanes rhs width.bytes fun l r => l - r := by
  have hmask : (1 : U64) <<< (width.bytes * 8) - 1 = maskForWidth width := by
    rw [maskForWidth, if_neg hwidth, width.bits_eq]
  have hloop := elementLoop_eq (bytes_dvd width) (v := lhs) fun offset destination hfits =>
    assignLoop_byte ((destination.load offset width.bytes - rhs.load offset width.bytes) &&&
      maskForWidth width) hfits destination
  rw [subtractLoop, hmask, hloop,
    runElements_eq_mapLanes (bytes_dvd width) fun l r => (l - r) &&& maskForWidth width]
  exact mapLanes_congr (bytes_dvd width)
    (fun l r b hb => byte_and_maskForWidth (l - r) width hb) lhs rhs

theorem addLoop_eq (lhs rhs : Xmm) :
    addLoop lhs rhs = lhs.mapLanes rhs 8 fun l r => l + r := by
  have hrounds : addLoop lhs rhs = elementLoop 8 (fun offset destination =>
      LittleEndian.byte (destination.load offset 8 + rhs.load offset 8)) lhs := by
    -- of the sixteen rounds two do something
    rw [addLoop, run_of_idle (by decide : 9 ≤ 16) fun k hfirst _ destination =>
        if_neg (by omega), run, if_pos (Or.inr rfl),
      run_of_idle (by decide : 1 ≤ 8) fun k hfirst _ destination => if_neg (by omega), run,
      if_pos (Or.inl rfl)]
    rfl
  have hloop := elementLoop_eq (by decide : 8 ∣ 16) (v := lhs) fun offset destination hfits =>
    assignLoop_byte (destination.load offset 8 + rhs.load offset 8) hfits destination
  rw [hrounds, hloop, runElements_eq_mapLanes (by decide) fun l r => l + r]

/-- Elements are equal when their bytes are. -/
theorem equalBytes_eq (hcount : count ≤ 8) (lhs rhs : Xmm) :
    equalBytes lhs rhs offset count = decide (lhs.load offset count = rhs.load offset count) := by
  have hbytes : equalBytes lhs rhs offset count =
      decide (∀ b < count, lhs.byte (offset + b) = rhs.byte (offset + b)) := by
    clear hcount
    induction count with
    | zero => simp [equalBytes]
    | succ count ih =>
        rw [equalBytes, ih, Bool.eq_iff_iff]
        simp only [Bool.and_eq_true, decide_eq_true_eq, beq_iff_eq]
        exact Nat.forall_lt_succ_right.symm
  rw [hbytes, load_eq_assemble, load_eq_assemble]
  exact decide_eq_decide.mpr (LittleEndian.assemble_eq_iff hcount).symm

/-- A loop that fills elements that are chosen from a copy of the destination. -/
theorem fillLoop_eq (hsize : size ∣ 16) (hle : size ≤ 8) (chosen : Nat → Bool)
    (condition : U64 → U64 → Bool) (lhs rhs : Xmm)
    (hchosen : ∀ offset, chosen offset =
      condition (lhs.load offset size) (rhs.load offset size)) :
    elementLoop size (fun offset _ _ => if chosen offset then 0xff else 0) lhs =
      lhs.mapLanes rhs size fun l r => if condition l r then BitVec.allOnes 64 else 0 := by
  have hloop := elementLoop_eq hsize (v := lhs) fun offset destination hfits =>
    assignLoop_fill (chosen offset) hle hfits destination
  rw [hloop, ← runElements_copy_eq_mapLanes hsize]
  simp only [hchosen]

theorem equalLoop_eq (hsize : size ∣ 16) (hle : size ≤ 8) (lhs rhs : Xmm) :
    equalLoop size lhs rhs =
      lhs.mapLanes rhs size fun l r => if l = r then BitVec.allOnes 64 else 0 := by
  have hloop := fillLoop_eq hsize hle (fun offset => equalBytes lhs rhs offset size)
    (fun l r => decide (l = r)) lhs rhs fun offset => equalBytes_eq hle lhs rhs
  simp only [decide_eq_true_eq] at hloop
  exact hloop

/-- An element has no bits above its width. -/
theorem load_and_maskForWidth (v : Xmm) (offset : Nat) (width : Width) :
    v.load offset width.bytes &&& maskForWidth width = v.load offset width.bytes := by
  apply BitVec.eq_of_getLsbD_eq
  intro i _
  rw [BitVec.getLsbD_and, AgreeAt.getLsbD_maskForWidth, load_eq_assemble,
    LittleEndian.getLsbD_assemble width.bytes_le, width.bits_eq]
  cases decide (i < width.bytes * 8) <;> simp

/-- The sign that is computed by hand. -/
theorem toInt_withSign (v : Xmm) (offset : Nat) (width : Width) :
    (withSign width.bytes (v.load offset width.bytes)).toInt =
      signedElement (v.load offset width.bytes) width.bytes := by
  have hsign : withSign width.bytes (v.load offset width.bytes) =
      signExtend (v.load offset width.bytes) width := by
    rw [signExtend, load_and_maskForWidth, signBitForWidth, width.bits_eq]
    rfl
  rw [hsign, signExtend_eq, BitVec.toInt_signExtend_of_le width.bits_le, signedElement]
  cases width <;> rfl

theorem greaterLoop_eq (width : Width) (lhs rhs : Xmm) :
    greaterLoop width.bytes lhs rhs = lhs.mapLanes rhs width.bytes fun l r =>
      if signedElement l width.bytes > signedElement r width.bytes then BitVec.allOnes 64
      else 0 := by
  have hloop := fillLoop_eq (bytes_dvd width) width.bytes_le (fun offset =>
      (withSign width.bytes (rhs.load offset width.bytes)).slt
        (withSign width.bytes (lhs.load offset width.bytes)))
    (fun l r =>
      decide (signedElement l width.bytes > signedElement r width.bytes)) lhs rhs
    fun offset => by rw [BitVec.slt, toInt_withSign, toInt_withSign]
  simp only [decide_eq_true_eq] at hloop
  exact hloop

theorem extremeLoop_eq (extreme : U8 → U8 → U8) (lhs rhs : Xmm) :
    extremeLoop extreme lhs rhs = lhs.mapBytes rhs extreme := by
  funext i
  have hcell : Fin.ofNat 16 i.val = i := Fin.ext (Nat.mod_eq_of_lt i.isLt)
  have hacts : ActsOn 16 (fun k i => Fin.ofNat 16 k = i) fun k (v : Xmm) =>
      Function.update v (Fin.ofNat 16 k) (extreme (v.byte k) (rhs.byte k)) := by
    refine actsOn_assign (fun k v => extreme (byte v k) (rhs.byte k)) (fun k hk l hl h => ?_)
      fun k hk v v' h => ?_
    · have hval := congrArg Fin.val h
      rwa [Fin.val_ofNat, Fin.val_ofNat, Nat.mod_eq_of_lt hk, Nat.mod_eq_of_lt hl] at hval
    · simp only [byte, h]
  rw [extremeLoop, run_of_cell hacts i.isLt hcell, hcell, Function.update_self, byte, byte, hcell]
  rfl

/-- One round of interleaving: elements from two places side by side. -/
def unpackRound (size base source : Nat) (lhs rhs destination : Xmm) : Xmm :=
  run (fun b destination =>
      Function.update
        (Function.update destination (Fin.ofNat 16 (base + b)) (lhs.byte (source + b)))
        (Fin.ofNat 16 (base + size + b)) (rhs.byte (source + b))) size destination

theorem unpackRound_apply {base : Nat} (hfits : base + size * 2 ≤ 16) (source : Nat)
    (lhs rhs v : Xmm) (i : Fin 16) :
    unpackRound size base source lhs rhs v i =
      if base ≤ i.val ∧ i.val < base + size * 2 then
        if i.val - base < size then lhs.byte (source + (i.val - base))
        else rhs.byte (source + (i.val - base - size))
      else v i := by
  have hcell : ∀ {k}, k < 16 → ∀ i : Fin 16, i = Fin.ofNat 16 k ↔ i.val = k := by
    intro k hk i
    rw [Fin.ext_iff, Fin.val_ofNat, Nat.mod_eq_of_lt hk]
  have hacts : ActsOn size (fun b (i : Fin 16) => i.val = base + b ∨ i.val = base + size + b)
      fun b (v : Xmm) => Function.update
        (Function.update v (Fin.ofNat 16 (base + b)) (lhs.byte (source + b)))
        (Fin.ofNat 16 (base + size + b)) (rhs.byte (source + b)) := by
    constructor
    · intro k l i hk hl hfirst hsecond
      omega
    · intro k i hk v hother
      rw [not_or] at hother
      rw [Function.update_of_ne (mt (hcell (by omega) i).mp hother.2),
        Function.update_of_ne (mt (hcell (by omega) i).mp hother.1)]
    · intro k i hk v v' _ hi
      by_cases hsecond : i.val = base + size + k
      · rw [(hcell (by omega) i).mpr hsecond, Function.update_self, Function.update_self]
      · have hfirst := hi.resolve_right hsecond
        rw [Function.update_of_ne (mt (hcell (by omega) i).mp hsecond),
          Function.update_of_ne (mt (hcell (by omega) i).mp hsecond),
          (hcell (by omega) i).mpr hfirst, Function.update_self, Function.update_self]
  by_cases hinside : base ≤ i.val ∧ i.val < base + size * 2
  · rw [if_pos hinside]
    by_cases hlow : i.val - base < size
    · have hi : i.val = base + (i.val - base) := by omega
      have hne : ¬i.val = base + size + (i.val - base) := by omega
      rw [if_pos hlow, unpackRound, run_of_cell hacts hlow (Or.inl hi),
        Function.update_of_ne (mt (hcell (by omega) i).mp hne),
        ← (hcell (by omega) i).mpr hi, Function.update_self]
    · have hi : i.val = base + size + (i.val - base - size) := by omega
      rw [if_neg hlow, unpackRound, run_of_cell hacts (by omega) (Or.inr hi),
        ← (hcell (by omega) i).mpr hi, Function.update_self]
  · rw [if_neg hinside]
    exact run_of_no_cell hacts (fun b hb h => by omega) v

theorem unpackLoop_eq (hsize : size ∣ 8) (start : Nat) (lhs rhs : Xmm) :
    unpackLoop size start lhs rhs = lhs.unpack rhs size start := by
  have hpos : 0 < size := Nat.pos_of_dvd_of_pos hsize (by decide)
  have hfits : ∀ k < 8 / size, k * size * 2 + size * 2 ≤ 16 := by
    intro k hk
    have hnext : (k + 1) * size ≤ 8 := (Nat.le_div_iff_mul_le hpos).mp hk
    rw [Nat.add_mul, Nat.one_mul] at hnext
    omega
  have hround : ∀ i : Fin 16, ∀ k, i.val / (size * 2) = k ↔
      k * size * 2 ≤ i.val ∧ i.val < k * size * 2 + size * 2 := by
    intro i k
    rw [Nat.mul_assoc]
    constructor
    · rintro rfl
      have hdivision := Nat.div_add_mod' i.val (size * 2)
      have hmod := Nat.mod_lt i.val (by omega : 0 < size * 2)
      omega
    · rintro ⟨hle, hlt⟩
      exact Nat.div_eq_of_lt_le hle (by rwa [Nat.succ_mul])
  have hacts : ActsOn (8 / size) (fun k (i : Fin 16) => i.val / (size * 2) = k)
      fun k (v : Xmm) => unpackRound size (k * size * 2) (start + k * size) lhs rhs v := by
    constructor
    · rintro k l i _ _ rfl rfl
      rfl
    · intro k i hk v hother
      rw [unpackRound_apply (hfits k hk), if_neg (mt (hround i k).mpr hother)]
    · intro k i hk v v' _ hi
      rw [unpackRound_apply (hfits k hk), unpackRound_apply (hfits k hk),
        if_pos ((hround i k).mp hi), if_pos ((hround i k).mp hi)]
  funext i
  have hlane : i.val / (size * 2) < 8 / size := by
    have hlt := Nat.div_lt_div_of_lt_of_dvd (Nat.mul_dvd_mul_right hsize 2) i.isLt
    rwa [Nat.mul_div_mul_right 8 size (by decide)] at hlt
  have hwithin : i.val - i.val / (size * 2) * size * 2 = i.val % (size * 2) := by
    rw [Nat.mul_assoc, Nat.mod_eq_sub_div_mul]
  have hrun : unpackLoop size start lhs rhs i = unpackRound size (i.val / (size * 2) * size * 2)
      (start + i.val / (size * 2) * size) lhs rhs lhs i := run_of_cell hacts hlane rfl lhs
  rw [hrun, unpackRound_apply (hfits _ hlane), if_pos ((hround i _).mp rfl), hwithin]
  rfl

theorem unpackQuadwordLoop_eq (offset : Nat) (lhs rhs : Xmm) :
    unpackQuadwordLoop offset lhs rhs = lhs.unpack rhs 8 offset := by
  rw [← unpackLoop_eq (Nat.dvd_refl 8)]
  simp [unpackLoop, unpackQuadwordLoop, run]

end Xmm

namespace SoftCPU64

/-- The loops of the packed comparisons, sums, differences, extremes and interleavings. -/
def packedLoop (opcode : U8) : Option (Xmm → Xmm → Xmm) :=
  match opcode.toNat with
  | 0x60 | 0x61 | 0x62 | 0x68 | 0x69 | 0x6a =>
      some (Xmm.unpackLoop (elementSizeOf (opcode &&& 3).toNat)
        (if opcode &&& 8 ≠ 0 then 8 else 0))
  | 0x64 => some (Xmm.greaterLoop 1)
  | 0x65 => some (Xmm.greaterLoop 2)
  | 0x66 => some (Xmm.greaterLoop 4)
  | 0x6c => some (Xmm.unpackQuadwordLoop 0)
  | 0x6d => some (Xmm.unpackQuadwordLoop 8)
  | 0x74 => some (Xmm.equalLoop 1)
  | 0x75 => some (Xmm.equalLoop 2)
  | 0x76 => some (Xmm.equalLoop 4)
  | 0xd4 => some Xmm.addLoop
  | 0xda => some (Xmm.extremeLoop fun l r => if r < l then r else l)
  | 0xde => some (Xmm.extremeLoop fun l r => if l < r then r else l)
  | 0xf8 => some (Xmm.subtractLoop 1)
  | 0xf9 => some (Xmm.subtractLoop 2)
  | 0xfa => some (Xmm.subtractLoop 4)
  | _ => none

theorem elementSizeOf_dvd (low : Nat) : elementSizeOf low ∣ 8 := by
  unfold elementSizeOf
  split
  · decide
  · split <;> decide

/-- The packed instructions run their loops. -/
theorem packedInteger_eq_loop {opcode : U8} {loop : Xmm → Xmm → Xmm}
    (h : packedLoop opcode = some loop) (prefixes : Prefixes) :
    packedInteger opcode prefixes = some (packedOperation prefixes loop) := by
  have hunpack : ∀ size start, size ∣ 8 → Xmm.unpackLoop size start =
      fun lhs rhs => lhs.unpack rhs size start := fun size start hsize =>
    funext fun lhs => funext fun rhs => Xmm.unpackLoop_eq hsize start lhs rhs
  have hquadword : ∀ offset, Xmm.unpackQuadwordLoop offset =
      fun lhs rhs => lhs.unpack rhs 8 offset := fun offset =>
    funext fun lhs => funext fun rhs => Xmm.unpackQuadwordLoop_eq offset lhs rhs
  have hgreater : ∀ width : Width, Xmm.greaterLoop width.bytes = _ := fun width =>
    funext fun lhs => funext fun rhs => Xmm.greaterLoop_eq width lhs rhs
  have hequal : ∀ width : Width, Xmm.equalLoop width.bytes = _ := fun width =>
    funext fun lhs => funext fun rhs =>
      Xmm.equalLoop_eq (Xmm.bytes_dvd width) width.bytes_le lhs rhs
  have hsubtract : ∀ width : Width, width ≠ .w64 → Xmm.subtractLoop width.bytes = _ :=
    fun width hwidth => funext fun lhs => funext fun rhs => Xmm.subtractLoop_eq hwidth lhs rhs
  have hadd : Xmm.addLoop = _ := funext fun lhs => funext fun rhs => Xmm.addLoop_eq lhs rhs
  have hextreme : ∀ extreme, Xmm.extremeLoop extreme = _ := fun extreme =>
    funext fun lhs => funext fun rhs => Xmm.extremeLoop_eq extreme lhs rhs
  have hsame : ∀ {f g : Xmm → Xmm → Xmm},
      packedInteger opcode prefixes = some (packedOperation prefixes f) → some g = some loop →
      g = f → packedInteger opcode prefixes = some (packedOperation prefixes loop) := by
    rintro f g hpacked hloop rfl
    cases hloop
    exact hpacked
  unfold packedLoop at h
  split at h <;> rename_i hopcode
  case h_1 | h_2 | h_3 | h_4 | h_5 | h_6 =>
    exact hsame (by simp only [packedInteger, hopcode]) h (hunpack _ _ (elementSizeOf_dvd _))
  case h_7 => exact hsame (by simp only [packedInteger, hopcode]; rfl) h (hgreater .w8)
  case h_8 => exact hsame (by simp only [packedInteger, hopcode]; rfl) h (hgreater .w16)
  case h_9 => exact hsame (by simp only [packedInteger, hopcode]; rfl) h (hgreater .w32)
  case h_10 => exact hsame (by simp only [packedInteger, hopcode]) h (hquadword 0)
  case h_11 => exact hsame (by simp only [packedInteger, hopcode]) h (hquadword 8)
  case h_12 => exact hsame (by simp only [packedInteger, hopcode]; rfl) h (hequal .w8)
  case h_13 => exact hsame (by simp only [packedInteger, hopcode]; rfl) h (hequal .w16)
  case h_14 => exact hsame (by simp only [packedInteger, hopcode]; rfl) h (hequal .w32)
  case h_15 => exact hsame (by simp only [packedInteger, hopcode]) h hadd
  case h_16 => exact hsame (by simp only [packedInteger, hopcode]) h (hextreme _)
  case h_17 => exact hsame (by simp only [packedInteger, hopcode]) h (hextreme _)
  case h_18 => exact hsame (by simp only [packedInteger, hopcode]; rfl) h (hsubtract .w8 nofun)
  case h_19 => exact hsame (by simp only [packedInteger, hopcode]; rfl) h (hsubtract .w16 nofun)
  case h_20 => exact hsame (by simp only [packedInteger, hopcode]; rfl) h (hsubtract .w32 nofun)
  case h_21 => cases h

end SoftCPU64

end LUE
