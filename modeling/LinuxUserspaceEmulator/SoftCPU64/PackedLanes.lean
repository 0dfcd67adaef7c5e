import LinuxUserspaceEmulator.SoftCPU64.Immediates
import LinuxUserspaceEmulator.SoftCPU64.OperandForms
import LinuxUserspaceEmulator.SoftCPU64.PackedLoops
import LinuxUserspaceEmulator.SoftCPU64.Reading
import Mathlib.Tactic.Ring

/-!
# Lanes of packed instructions

The elements of an XMM register as machine words.  A packed instruction computes each element of
its destination from the elements at the same place, or interleaves elements of both operands.

Main results:

- Theorem `Xmm.lane_mapLanes`: the elements of a result that is computed bytewise.
- Theorem `Xmm.lane_unpack`: the elements of interleaved registers.
- Theorem `packedLoop_holds`: what the loops of the packed instructions do with elements.
- Theorem `step_packed`: a step of a packed instruction, and what it leaves alone.
-/

namespace LUE

open StateExcept

/-! ## Elements -/

namespace Xmm

/-- An element of a register. -/
def lane (v : Xmm) (width : Width) (k : Nat) : BitVec (width.bytes * 8) :=
  (v.load (k * width.bytes) width.bytes).setWidth (width.bytes * 8)

variable {v w lhs rhs : Xmm} {width : Width} {k l : Nat}

/-- Elements are equal when their bytes are. -/
theorem lane_eq_lane_iff :
    v.lane width k = w.lane width l ↔ ∀ b < width.bytes,
      v.byte (k * width.bytes + b) = w.byte (l * width.bytes + b) := by
  rw [lane, lane, load_eq_assemble, load_eq_assemble,
    LittleEndian.setWidth_assemble_inj width.bytes_le,
    LittleEndian.assemble_eq_iff width.bytes_le]

/-- Elements are equal when the loaded integers are. -/
theorem lane_eq_iff :
    v.lane width k = w.lane width k ↔
      v.load (k * width.bytes) width.bytes = w.load (k * width.bytes) width.bytes := by
  rw [lane, lane, load_eq_assemble, load_eq_assemble]
  exact LittleEndian.setWidth_assemble_inj width.bytes_le

theorem byte_of_lt (v : Xmm) {i : Nat} (hi : i < 16) : v.byte i = v ⟨i, hi⟩ :=
  congrArg v (Fin.ext (Nat.mod_eq_of_lt hi))

/-- The bytes of an element lie in the register. -/
theorem lane_lt (hk : k < 16 / width.bytes) {b : Nat} (hb : b < width.bytes) :
    k * width.bytes + b < 16 := by
  have hnext : (k + 1) * width.bytes ≤ 16 := (Nat.le_div_iff_mul_le width.bytes_pos).mp hk
  rw [Nat.add_mul, Nat.one_mul] at hnext
  omega

/-- The elements of a result that is computed bytewise. -/
theorem lane_mapLanes (f : U64 → U64 → U64) (hk : k < 16 / width.bytes) :
    (lhs.mapLanes rhs width.bytes f).lane width k =
      (f (lhs.load (k * width.bytes) width.bytes)
        (rhs.load (k * width.bytes) width.bytes)).setWidth (width.bytes * 8) := by
  have hbytes : ∀ b < width.bytes, (lhs.mapLanes rhs width.bytes f).byte (k * width.bytes + b) =
      LittleEndian.byte (f (lhs.load (k * width.bytes) width.bytes)
        (rhs.load (k * width.bytes) width.bytes)) b := by
    intro b hb
    have hquotient : (k * width.bytes + b) / width.bytes = k :=
      Nat.div_eq_of_lt_le (Nat.le_add_right _ _) (by rw [Nat.succ_mul]; omega)
    rw [byte_of_lt _ (lane_lt hk hb), mapLanes]
    simp only [hquotient, Nat.add_sub_cancel_left]
    rfl
  rw [lane, load_eq_assemble, LittleEndian.assemble_congr hbytes,
    LittleEndian.setWidth_assemble_byte width.bytes_le]

/-- The elements of one byte. -/
theorem lane_w8 (v : Xmm) (hk : k < 16) : v.lane .w8 k = v ⟨k, hk⟩ := by
  have hload : v.load (k * 1) 1 = 0#64 ||| (v.byte (k * 1 + 0)).setWidth 64 <<< (0 * 8) := rfl
  change (v.load (k * 1) 1).setWidth 8 = _
  rw [hload, Nat.mul_one, Nat.add_zero, byte_of_lt v hk, Nat.zero_mul, BitVec.shiftLeft_zero,
    BitVec.zero_or, BitVec.setWidth_setWidth_of_le _ (by decide), BitVec.setWidth_eq]

/-- The elements of interleaved registers. -/
theorem lane_unpack (start : Nat) (hk : k < 8 / width.bytes) :
    (lhs.unpack rhs width.bytes (start * width.bytes)).lane width (2 * k) =
        lhs.lane width (start + k) ∧
      (lhs.unpack rhs width.bytes (start * width.bytes)).lane width (2 * k + 1) =
        rhs.lane width (start + k) := by
  have hpos := width.bytes_pos
  have hnext : (k + 1) * width.bytes ≤ 8 := (Nat.le_div_iff_mul_le hpos).mp hk
  rw [Nat.add_mul, Nat.one_mul] at hnext
  have hscale : k * (width.bytes * 2) = k * width.bytes * 2 := by ring
  have hround : ∀ within < width.bytes * 2,
      (k * (width.bytes * 2) + within) / (width.bytes * 2) = k ∧
        (k * (width.bytes * 2) + within) % (width.bytes * 2) = within := by
    intro within hwithin
    rw [Nat.mul_comm k, Nat.mul_add_div (by omega), Nat.mul_add_mod, Nat.div_eq_of_lt hwithin,
      Nat.mod_eq_of_lt hwithin]
    exact ⟨rfl, rfl⟩
  constructor
  · refine lane_eq_lane_iff.mpr fun b hb => ?_
    have hposition : 2 * k * width.bytes + b = k * (width.bytes * 2) + b := by ring
    rcases hround b (by omega) with ⟨hquotient, hremainder⟩
    rw [hposition, byte_of_lt _ (by omega : k * (width.bytes * 2) + b < 16), unpack]
    simp only [hquotient, hremainder, if_pos hb, Nat.add_mul]
  · refine lane_eq_lane_iff.mpr fun b hb => ?_
    have hposition : (2 * k + 1) * width.bytes + b =
        k * (width.bytes * 2) + (width.bytes + b) := by ring
    rcases hround (width.bytes + b) (by omega) with ⟨hquotient, hremainder⟩
    have hhigh : ¬width.bytes + b < width.bytes := by omega
    rw [hposition, byte_of_lt _ (by omega : k * (width.bytes * 2) + (width.bytes + b) < 16), unpack]
    simp only [hquotient, hremainder, if_neg hhigh, Nat.add_mul, Nat.add_sub_cancel_left]

end Xmm

/-! ## Operations on elements -/

/-- What the packed instructions compute from two elements. -/
inductive LaneOperation where
  | subtract
  | add
  | equal
  | greater
  | minimum
  | maximum
deriving DecidableEq, Repr

/-- An element of the result, from those of the destination and of the source. -/
def LaneOperation.apply {w : Nat} (operation : LaneOperation) (destination source : BitVec w) :
    BitVec w :=
  match operation with
  | subtract => destination - source
  | add => destination + source
  | equal => if destination = source then BitVec.allOnes w else 0
  | greater => if source.slt destination then BitVec.allOnes w else 0
  | minimum => if source < destination then source else destination
  | maximum => if destination < source then source else destination

/-- Packed instructions: an operation on all elements, or the elements of one half of each operand
interleaved. -/
inductive PackedInstruction where
  | lanes (operation : LaneOperation) (width : Width)
  | interleave (width : Width) (high : Bool)
deriving DecidableEq, Repr

/-- What an instruction leaves in its destination. -/
def PackedInstruction.Holds (instruction : PackedInstruction) (destination source result : Xmm) :
    Prop :=
  match instruction with
  | lanes operation width => ∀ k < 16 / width.bytes,
      result.lane width k = operation.apply (destination.lane width k) (source.lane width k)
  | interleave width high => ∀ k < 8 / width.bytes,
      result.lane width (2 * k) =
          destination.lane width ((if high then 8 / width.bytes else 0) + k) ∧
        result.lane width (2 * k + 1) =
          source.lane width ((if high then 8 / width.bytes else 0) + k)

/-- The packed instructions after `0F`. -/
def packedInstruction (opcode : U8) : Option PackedInstruction :=
  match opcode.toNat with
  | 0x60 => some (.interleave .w8 false)
  | 0x61 => some (.interleave .w16 false)
  | 0x62 => some (.interleave .w32 false)
  | 0x64 => some (.lanes .greater .w8)
  | 0x65 => some (.lanes .greater .w16)
  | 0x66 => some (.lanes .greater .w32)
  | 0x68 => some (.interleave .w8 true)
  | 0x69 => some (.interleave .w16 true)
  | 0x6a => some (.interleave .w32 true)
  | 0x6c => some (.interleave .w64 false)
  | 0x6d => some (.interleave .w64 true)
  | 0x74 => some (.lanes .equal .w8)
  | 0x75 => some (.lanes .equal .w16)
  | 0x76 => some (.lanes .equal .w32)
  | 0xd4 => some (.lanes .add .w64)
  | 0xda => some (.lanes .minimum .w8)
  | 0xde => some (.lanes .maximum .w8)
  | 0xf8 => some (.lanes .subtract .w8)
  | 0xf9 => some (.lanes .subtract .w16)
  | 0xfa => some (.lanes .subtract .w32)
  | _ => none

section Operations

variable {destination source : Xmm} {width : Width}

theorem bytes_mul_le (width : Width) : width.bytes * 8 ≤ 64 := by
  cases width <;> decide

theorem holds_subtract (hwidth : width ≠ .w64) :
    (PackedInstruction.lanes .subtract width).Holds destination source
      (Xmm.subtractLoop width.bytes destination source) := by
  intro k hk
  rw [Xmm.subtractLoop_eq hwidth, Xmm.lane_mapLanes _ hk]
  refine BitVec.eq_sub_iff_add_eq.mpr ?_
  rw [Xmm.lane, ← BitVec.setWidth_add _ _ (bytes_mul_le width), BitVec.sub_add_cancel]
  rfl

theorem holds_add : (PackedInstruction.lanes .add .w64).Holds destination source
    (Xmm.addLoop destination source) := by
  intro k hk
  have hsum : Xmm.addLoop destination source =
      destination.mapLanes source Width.w64.bytes fun l r => l + r := Xmm.addLoop_eq _ _
  rw [hsum, Xmm.lane_mapLanes _ hk, LaneOperation.apply,
    BitVec.setWidth_add _ _ (bytes_mul_le .w64)]
  rfl

/-- A mask that is chosen for each element. -/
theorem setWidth_fill (width : Width) (condition : Prop) [Decidable condition] :
    (if condition then BitVec.allOnes 64 else 0).setWidth (width.bytes * 8) =
      if condition then BitVec.allOnes (width.bytes * 8) else 0 := by
  have hle := bytes_mul_le width
  split
  · apply BitVec.eq_of_getLsbD_eq
    intro i hi
    have hlt : i < 64 := Nat.lt_of_lt_of_le hi hle
    rw [BitVec.getLsbD_setWidth, BitVec.getLsbD_allOnes, BitVec.getLsbD_allOnes,
      decide_eq_true hlt, Bool.and_true]
  · exact BitVec.setWidth_zero _ _

theorem holds_equal : (PackedInstruction.lanes .equal width).Holds destination source
    (Xmm.equalLoop width.bytes destination source) := by
  intro k hk
  rw [Xmm.equalLoop_eq (Xmm.bytes_dvd width) width.bytes_le, Xmm.lane_mapLanes _ hk, setWidth_fill,
    LaneOperation.apply]
  simp only [Xmm.lane_eq_iff]

theorem holds_greater : (PackedInstruction.lanes .greater width).Holds destination source
    (Xmm.greaterLoop width.bytes destination source) := by
  intro k hk
  rw [Xmm.greaterLoop_eq, Xmm.lane_mapLanes _ hk, setWidth_fill, LaneOperation.apply, BitVec.slt]
  simp only [decide_eq_true_eq]
  rfl

theorem holds_minimum : (PackedInstruction.lanes .minimum .w8).Holds destination source
    (Xmm.extremeLoop (fun l r => if r < l then r else l) destination source) := by
  intro k hk
  rw [Xmm.extremeLoop_eq, Xmm.lane_w8 _ hk, Xmm.lane_w8 _ hk, Xmm.lane_w8 _ hk]
  rfl

theorem holds_maximum : (PackedInstruction.lanes .maximum .w8).Holds destination source
    (Xmm.extremeLoop (fun l r => if l < r then r else l) destination source) := by
  intro k hk
  rw [Xmm.extremeLoop_eq, Xmm.lane_w8 _ hk, Xmm.lane_w8 _ hk, Xmm.lane_w8 _ hk]
  rfl

theorem holds_interleave (width : Width) (high : Bool) :
    (PackedInstruction.interleave width high).Holds destination source
      (Xmm.unpackLoop width.bytes (if high then 8 else 0) destination source) := by
  intro k hk
  have hsize : width.bytes ∣ 8 := by cases width <;> decide
  have hstart : (if high then 8 / width.bytes else 0) * width.bytes = if high then 8 else 0 := by
    cases high <;> cases width <;> rfl
  rw [Xmm.unpackLoop_eq hsize, ← hstart]
  exact Xmm.lane_unpack _ hk

theorem holds_interleaveQuadwords (high : Bool) :
    (PackedInstruction.interleave .w64 high).Holds destination source
      (Xmm.unpackQuadwordLoop (if high then 8 else 0) destination source) := by
  rw [Xmm.unpackQuadwordLoop_eq, ← Xmm.unpackLoop_eq (Nat.dvd_refl 8)]
  exact holds_interleave .w64 high

/-- What the loops of the packed instructions do with elements. -/
theorem packedLoop_holds {opcode : U8} {instruction : PackedInstruction}
    (h : packedInstruction opcode = some instruction) :
    ∃ loop, SoftCPU64.packedLoop opcode = some loop ∧
      ∀ destination source, instruction.Holds destination source (loop destination source) := by
  have hfound : ∀ (byte : U8) {loop : Xmm → Xmm → Xmm} {found : PackedInstruction},
      opcode.toNat = byte.toNat → some found = some instruction →
      SoftCPU64.packedLoop byte = some loop →
      (∀ destination source, found.Holds destination source (loop destination source)) →
      ∃ loop, SoftCPU64.packedLoop opcode = some loop ∧
        ∀ destination source, instruction.Holds destination source (loop destination source) := by
    intro byte loop found hopcode hinstruction hloop hholds
    cases BitVec.eq_of_toNat_eq hopcode
    cases hinstruction
    exact ⟨loop, hloop, hholds⟩
  unfold packedInstruction at h
  split at h <;> rename_i hopcode
  case h_1 => exact hfound 0x60 hopcode h rfl fun _ _ => holds_interleave .w8 false
  case h_2 => exact hfound 0x61 hopcode h rfl fun _ _ => holds_interleave .w16 false
  case h_3 => exact hfound 0x62 hopcode h rfl fun _ _ => holds_interleave .w32 false
  case h_4 => exact hfound 0x64 hopcode h rfl fun _ _ => holds_greater
  case h_5 => exact hfound 0x65 hopcode h rfl fun _ _ => holds_greater
  case h_6 => exact hfound 0x66 hopcode h rfl fun _ _ => holds_greater
  case h_7 => exact hfound 0x68 hopcode h rfl fun _ _ => holds_interleave .w8 true
  case h_8 => exact hfound 0x69 hopcode h rfl fun _ _ => holds_interleave .w16 true
  case h_9 => exact hfound 0x6a hopcode h rfl fun _ _ => holds_interleave .w32 true
  case h_10 => exact hfound 0x6c hopcode h rfl fun _ _ => holds_interleaveQuadwords false
  case h_11 => exact hfound 0x6d hopcode h rfl fun _ _ => holds_interleaveQuadwords true
  case h_12 => exact hfound 0x74 hopcode h rfl fun _ _ => holds_equal
  case h_13 => exact hfound 0x75 hopcode h rfl fun _ _ => holds_equal
  case h_14 => exact hfound 0x76 hopcode h rfl fun _ _ => holds_equal
  case h_15 => exact hfound 0xd4 hopcode h rfl fun _ _ => holds_add
  case h_16 => exact hfound 0xda hopcode h rfl fun _ _ => holds_minimum
  case h_17 => exact hfound 0xde hopcode h rfl fun _ _ => holds_maximum
  case h_18 => exact hfound 0xf8 hopcode h rfl fun _ _ => holds_subtract nofun
  case h_19 => exact hfound 0xf9 hopcode h rfl fun _ _ => holds_subtract nofun
  case h_20 => exact hfound 0xfa hopcode h rfl fun _ _ => holds_subtract nofun
  case h_21 => cases h

end Operations

/-! ## Steps -/

namespace SoftCPU64

/-- The 128 bits that an operand holds. -/
def HoldsXmm (emulator located : Emulator) (operand : Operand) (value : Xmm) : Prop :=
  match operand with
  | .register register => emulator.cpu.xmm register = value
  | .memory address => ∃ base, effectiveAddress address located = .ok base located ∧
      ∀ i : Fin 16, emulator.mmu.read8 (base + BitVec.ofNat 64 i.val) = .ok (value i)

/-- The instruction at the instruction pointer has a two-byte opcode, a destination register and
a source operand of 128 bits. -/
def AtPacked (emulator : Emulator) (opcode : U8) (register : Register) (source : Xmm) : Prop :=
  ∃ prefixes decoded modrm selected operand located,
    decodeInstruction emulator = .ok (prefixes, .twoByte opcode) decoded ∧
    fetchModrm prefixes decoded = .ok modrm selected ∧
    decodeRmOperand prefixes modrm selected = .ok operand located ∧
    modrm.reg = register ∧ HoldsXmm emulator located operand source

/-- An instruction has computed one XMM register, and left everything else alone. -/
structure ChangesXmm (register : Register) (before after : Emulator) : Prop where
  others : ∀ other, other ≠ register → after.cpu.xmm other = before.cpu.xmm other
  gpr : after.cpu.gpr = before.cpu.gpr
  rflags : after.cpu.rflags = before.cpu.rflags
  regions : after.mmu.regions = before.mmu.regions

variable {emulator read located : Emulator} {operand : Operand} {source : Xmm}

/-- Consecutive bytes are read one after another. -/
theorem readBytes_of_bytes {mmu : SoftMMU} {address : U64} {bytes : Nat → U8} {count : Nat}
    (h : ∀ i < count, mmu.read8 (address + BitVec.ofNat 64 i) = .ok (bytes i)) :
    readBytes address count mmu = .ok ((List.range count).map bytes) := by
  have hlist : ∀ offsets : List Nat, (∀ i ∈ offsets, i < count) →
      (offsets.mapM fun i => mmu.read8 (address + BitVec.ofNat 64 i)) =
        .ok (offsets.map bytes) := by
    intro offsets
    induction offsets with
    | nil => exact fun _ => rfl
    | cons i rest ih =>
        intro hoffsets
        rw [List.mapM_cons, except_bind_of_ok (h i (hoffsets i (List.mem_cons_self ..))),
          except_bind_of_ok (ih fun j hj => hoffsets j (List.mem_cons_of_mem i hj))]
        rfl
  exact hlist _ fun i hi => List.mem_range.mp hi

/-- The source operand is read. -/
theorem readXmmFromOperand_of_holds (hmachine : SameMachine emulator located)
    (h : HoldsXmm emulator located operand source) :
    readXmmFromOperand operand located = .ok source located := by
  cases operand with
  | register register =>
      have hxmm : located.cpu.xmm = emulator.cpu.xmm :=
        (congrArg SoftCPU64.xmm hmachine.cpu :)
      have hsource : located.cpu.xmm register = source := by rw [hxmm]; exact h
      rw [← hsource]
      rfl
  | memory address =>
      rcases h with ⟨base, hbase, hbytes⟩
      have hread : ∀ i < 16, located.mmu.read8 (base + BitVec.ofNat 64 i) =
          .ok (source (Fin.ofNat 16 i)) := by
        intro i hi
        have hbyte := hbytes (Fin.ofNat 16 i)
        rw [Fin.val_ofNat, Nat.mod_eq_of_lt hi] at hbyte
        rw [← hbyte]
        simp only [SoftMMU.read8, SoftMMU.regionFor, SoftMMU.findRegion, hmachine.regions]
      have hlist : readMMU (readBytes base 16) located =
          .ok ((List.range 16).map fun i => source (Fin.ofNat 16 i)) located :=
        readMMU_eq_ok_iff.mpr ⟨readBytes_of_bytes hread, rfl⟩
      have hsource : xmmOfBytes ((List.range 16).map fun i => source (Fin.ofNat 16 i)) =
          source := by
        funext i
        have hi : i.val < ((List.range 16).map fun i => source (Fin.ofNat 16 i)).length := by
          rw [List.length_map, List.length_range]
          exact i.isLt
        rw [xmmOfBytes, ← List.getElem_eq_getD (h := hi), List.getElem_map, List.getElem_range]
        exact congrArg source (Fin.ext (Nat.mod_eq_of_lt i.isLt))
      change (effectiveAddress address >>= fun address => readMMU (readBytes address 16) >>=
        fun bytes => pure (xmmOfBytes bytes)) located = _
      rw [bind_of_ok hbase, bind_of_ok hlist, hsource]
      rfl

/-- A step that decodes, reads, and assigns to one XMM register. -/
theorem step_of_setXmm {prefixes : Prefixes} {opcode : Opcode} {pc : U64} {register : Register}
    {value : Xmm} (host : Host)
    (hdecode : decodeInstruction emulator = .ok (prefixes, opcode) (afterDecoding emulator pc))
    (hmachine : SameMachine (afterDecoding emulator pc) read)
    (hexecute : opcode.execute host prefixes (afterDecoding emulator pc) =
      .ok () (read.withCPU (read.cpu.setXmm register value))) :
    ∃ final, step host emulator = .ok () final ∧ final.cpu.xmm register = value ∧
      ChangesXmm register emulator final := by
  have hxmm : read.cpu.xmm = emulator.cpu.xmm := (congrArg SoftCPU64.xmm hmachine.cpu :)
  rw [step_of_decodedInstruction hdecode, bind_of_ok hexecute, modifyCPU_apply]
  refine ⟨_, rfl, Function.update_self _ _ _, fun other hother => ?_, (hmachine.gpr :),
    (hmachine.rflags :), (hmachine.regions :)⟩
  rw [← hxmm]
  exact Function.update_of_ne hother _ _

/-- A packed instruction computes the elements of its destination, and leaves everything else
alone. -/
theorem step_packed {opcode : U8} {instruction : PackedInstruction} {register : Register}
    (host : Host) (hinstruction : packedInstruction opcode = some instruction)
    (hat : AtPacked emulator opcode register source) :
    ∃ final, step host emulator = .ok () final ∧
      instruction.Holds (emulator.cpu.xmm register) source (final.cpu.xmm register) ∧
      ChangesXmm register emulator final := by
  rcases packedLoop_holds hinstruction with ⟨loop, hloop, hholds⟩
  rcases hat with ⟨prefixes, decoded, modrm, selected, operand, located, hdecode, hmodrm, hoperand,
    rfl, hsource⟩
  rcases decodeInstruction_eq_ok hdecode with ⟨pc, rfl⟩
  have hmachine : SameMachine (afterDecoding emulator pc) located :=
    ((ReadsOnly.fetchModrm prefixes).of_ok hmodrm).trans
      ((ReadsOnly.decodeRmOperand prefixes modrm).of_ok hoperand)
  have hxmm : located.cpu.xmm = emulator.cpu.xmm := (congrArg SoftCPU64.xmm hmachine.cpu :)
  have hexecute : (Opcode.twoByte opcode).execute host prefixes (afterDecoding emulator pc) =
      .ok () (located.withCPU (located.cpu.setXmm modrm.reg
        (loop (emulator.cpu.xmm modrm.reg) source))) := by
    rw [Opcode.execute, executeTwoByte_of_packedInteger (packedInteger_eq_loop hloop prefixes),
      packedOperation, bind_of_ok hmodrm, bind_of_ok hoperand,
      bind_of_ok (readXmmFromOperand_of_holds hmachine hsource), ← hxmm]
    rfl
  rcases step_of_setXmm host hdecode hmachine hexecute with ⟨final, hstep, hresult, hchanges⟩
  refine ⟨final, hstep, ?_, hchanges⟩
  rw [hresult]
  exact hholds _ _

section Examples

/-- `pcmpgtb %xmm1, %xmm0`. -/
def comparing : Emulator where
  mmu := { regions := [Emulator.pageOf 0x1000 (protRead ||| protExecute)
    [0x66, 0x0f, 0x64, 0xc1]] }
  cpu :=
    { rip := 0x1000
      xmm := fun register i => if register = 0 then BitVec.ofNat 8 i.val else 0x80 }

/-- The bytes of the destination are compared with the lowest signed byte. -/
theorem step_packed_pcmpgtb :
    ∃ final, step Emulator.quietHost comparing = .ok () final ∧
      (PackedInstruction.lanes .greater .w8).Holds (comparing.cpu.xmm 0) (fun _ => 0x80)
        (final.cpu.xmm 0) ∧ ChangesXmm 0 comparing final := by
  have hdecode : decodeInstruction comparing =
      .ok ({ operand16 := true }, .twoByte 0x64) (finalState (decodeInstruction comparing)) :=
    eq_ok_of_returned (by decide)
  let decoded := finalState (decodeInstruction comparing)
  let selected := finalState (fetchModrm { operand16 := true } decoded)
  have hmodrm : fetchModrm { operand16 := true } decoded = .ok ⟨0xc1, 3, 0, 1⟩ selected :=
    eq_ok_of_returned (by decide)
  have hat : AtPacked comparing 0x64 0 fun _ => 0x80 :=
    ⟨_, _, _, _, .register 1, _, hdecode, hmodrm, rfl, rfl, rfl⟩
  exact step_packed Emulator.quietHost rfl hat

end Examples

end SoftCPU64

end LUE
