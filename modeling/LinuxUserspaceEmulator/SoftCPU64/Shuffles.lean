import LinuxUserspaceEmulator.SoftCPU64.PackedLanes

/-!
# Shuffles

Five shuffles share two opcodes and differ in their mandatory prefix.  Each of them selects the
elements of its result by the fields of a selector byte.  The emulator executes one of them for
each opcode, whatever the prefixes are.

Main results:

- Theorem `Xmm.forall_lane_iff`: elements that are selected, as bytes.
- Theorem `Shuffle.holds_iff`: the bytes that a shuffle selects.
- Theorem `step_honoursPrefix_iff`: when a step of a shuffle honours the mandatory prefix.
-/

namespace LUE

open StateExcept

namespace Xmm

variable {v w : Xmm} {width : Width} {k l : Nat}

/-- Elements that are selected, as bytes. -/
theorem forall_lane_iff {result : Xmm} {operand : Nat → Xmm} {index : Nat → Nat} :
    (∀ k < 16 / width.bytes, result.lane width k = (operand k).lane width (index k)) ↔
      ∀ i < 16, result.byte i = (operand (i / width.bytes)).byte
        (index (i / width.bytes) * width.bytes + i % width.bytes) := by
  have hpos := width.bytes_pos
  constructor
  · intro h i hi
    have hlane := h (i / width.bytes) (Nat.div_lt_div_of_lt_of_dvd (bytes_dvd width) hi)
    have hbyte := lane_eq_lane_iff.mp hlane (i % width.bytes) (Nat.mod_lt i hpos)
    rwa [Nat.div_add_mod'] at hbyte
  · intro h k hk
    refine lane_eq_lane_iff.mpr fun b hb => ?_
    have hbyte := h (k * width.bytes + b) (lane_lt hk hb)
    have hquotient : (k * width.bytes + b) / width.bytes = k :=
      Nat.div_eq_of_lt_le (Nat.le_add_right _ _) (by rw [Nat.succ_mul]; omega)
    have hremainder : (k * width.bytes + b) % width.bytes = b := by
      rw [Nat.mul_comm, Nat.mul_add_mod, Nat.mod_eq_of_lt hb]
    rwa [hquotient, hremainder] at hbyte

end Xmm

/-! ## The five shuffles -/

/-- The shuffles of XMM registers. -/
inductive Shuffle where
  | shufps
  | shufpd
  | pshufd
  | pshuflw
  | pshufhw
deriving DecidableEq, Repr

namespace Shuffle

/-- The elements that a shuffle moves. -/
def width : Shuffle → Width
  | shufps => .w32
  | shufpd => .w64
  | pshufd => .w32
  | pshuflw => .w16
  | pshufhw => .w16

/-- Whether an element of the result comes from the source. -/
def fromSource (shuffle : Shuffle) (k : Nat) : Bool :=
  match shuffle with
  | shufps => 2 ≤ k
  | shufpd => 1 ≤ k
  | pshufd | pshuflw | pshufhw => true

/-- The element of the operand that is selected. -/
def selected (shuffle : Shuffle) (selector : U8) (k : Nat) : Nat :=
  match shuffle with
  | shufps | pshufd => (selector >>> (k * 2) &&& 3).toNat
  | shufpd => (selector >>> k &&& 1).toNat
  | pshuflw => if k < 4 then (selector >>> (k * 2) &&& 3).toNat else k
  | pshufhw => if k < 4 then k else 4 + (selector >>> ((k - 4) * 2) &&& 3).toNat

/-- What a shuffle leaves in its destination. -/
def Holds (shuffle : Shuffle) (selector : U8) (destination source result : Xmm) : Prop :=
  ∀ k < 16 / shuffle.width.bytes, result.lane shuffle.width k =
    (if shuffle.fromSource k then source else destination).lane shuffle.width
      (shuffle.selected selector k)

/-- The byte of the operands that a shuffle puts at a position. -/
def pick (shuffle : Shuffle) (selector : U8) (destination source : Xmm) (i : Nat) : U8 :=
  (if shuffle.fromSource (i / shuffle.width.bytes) then source else destination).byte
    (shuffle.selected selector (i / shuffle.width.bytes) * shuffle.width.bytes +
      i % shuffle.width.bytes)

/-- The bytes that a shuffle selects. -/
theorem holds_iff {shuffle : Shuffle} {selector : U8} {destination source result : Xmm} :
    shuffle.Holds selector destination source result ↔
      ∀ i < 16, result.byte i = shuffle.pick selector destination source i :=
  Xmm.forall_lane_iff

/-- The shuffle that a mandatory prefix selects: `F2` and `F3` come before `66`, and the other
encodings are no shuffles of XMM registers. -/
def ofPrefixes (opcode : U8) (prefixes : Prefixes) : Option Shuffle :=
  if opcode = 0xc6 then
    if prefixes.repz || prefixes.repnz then none
    else if prefixes.operand16 then some shufpd
    else some shufps
  else
    match prefixes.repz, prefixes.repnz with
    | true, true => none
    | true, false => some pshufhw
    | false, true => some pshuflw
    | false, false => if prefixes.operand16 then some pshufd else none

/-- The shuffle that is executed. -/
def executed (opcode : U8) : Shuffle :=
  if opcode = 0xc6 then shufpd else pshufd

end Shuffle

namespace SoftCPU64

/-! ## Execution -/

/-- `0F 70` is executed as `PSHUFD`. -/
theorem holds_shuffle (selector : U8) (destination source : Xmm) :
    Shuffle.pshufd.Holds selector destination source (source.shuffle selector) := by
  refine Shuffle.holds_iff.mpr fun i hi => ?_
  rw [Xmm.byte_of_lt _ hi]
  rfl

/-- `0F C6` is executed as `SHUFPD`. -/
theorem holds_shufflePd (selector : U8) (destination source : Xmm) :
    Shuffle.shufpd.Holds selector destination source
      (destination.shufflePd source selector) := by
  refine Shuffle.holds_iff.mpr fun i hi => ?_
  have hpick : Shuffle.shufpd.pick selector destination source i =
      (if decide (1 ≤ i / 8) then source else destination).byte
        ((selector >>> (i / 8) &&& 1).toNat * 8 + i % 8) := rfl
  rw [Xmm.byte_of_lt _ hi, Xmm.shufflePd, hpick]
  by_cases hlow : i < 8
  · have hquotient : i / 8 = 0 := Nat.div_eq_of_lt hlow
    have hremainder : i % 8 = i := Nat.mod_eq_of_lt hlow
    simp only [hlow, hquotient, hremainder, if_true, BitVec.ushiftRight_zero]
    rfl
  · have hquotient : i / 8 = 1 := by omega
    have hremainder : i % 8 = i - 8 := by omega
    simp only [hlow, hquotient, hremainder, if_false]
    rfl

/-- The register that an opcode computes. -/
def shuffleResult (opcode : U8) (selector : U8) (destination source : Xmm) : Xmm :=
  if opcode = 0xc6 then destination.shufflePd source selector else source.shuffle selector

theorem holds_executed (opcode selector : U8) (destination source : Xmm) :
    (Shuffle.executed opcode).Holds selector destination source
      (shuffleResult opcode selector destination source) := by
  unfold Shuffle.executed shuffleResult
  split
  · exact holds_shufflePd selector destination source
  · exact holds_shuffle selector destination source

theorem packedInteger_shuffle {opcode : U8} (hopcode : opcode = 0x70 ∨ opcode = 0xc6)
    (prefixes : Prefixes) :
    packedInteger opcode prefixes =
      some (selectedOperation prefixes (shuffleResult opcode)) := by
  rcases hopcode with rfl | rfl <;> rfl

/-- The instruction at the instruction pointer shuffles XMM registers, with a selector byte. -/
def AtShuffle (emulator : Emulator) (prefixes : Prefixes) (opcode : U8) (register : Register)
    (selector : U8) (source : Xmm) : Prop :=
  ∃ decoded modrm selected operand located chosen,
    decodeInstruction emulator = .ok (prefixes, .twoByte opcode) decoded ∧
    fetchModrm prefixes decoded = .ok modrm selected ∧
    decodeRmOperand prefixes modrm selected = .ok operand located ∧
    fetch8 located = .ok selector chosen ∧
    modrm.reg = register ∧ HoldsXmm emulator chosen operand source

variable {emulator : Emulator} {prefixes : Prefixes} {opcode selector : U8} {register : Register}
  {source : Xmm}

/-- A step of a shuffle executes what the opcode alone selects. -/
theorem step_shuffle (host : Host) (hopcode : opcode = 0x70 ∨ opcode = 0xc6)
    (hat : AtShuffle emulator prefixes opcode register selector source) :
    ∃ final, step host emulator = .ok () final ∧
      final.cpu.xmm register =
        shuffleResult opcode selector (emulator.cpu.xmm register) source ∧
      ChangesXmm register emulator final := by
  rcases hat with ⟨decoded, modrm, selected, operand, located, chosen, hdecode, hmodrm, hoperand,
    hselector, rfl, hsource⟩
  rcases decodeInstruction_eq_ok hdecode with ⟨pc, rfl⟩
  have hmachine : SameMachine (afterDecoding emulator pc) chosen :=
    (((ReadsOnly.fetchModrm prefixes).of_ok hmodrm).trans
      ((ReadsOnly.decodeRmOperand prefixes modrm).of_ok hoperand)).trans
      (ReadsOnly.fetch8.of_ok hselector)
  have hxmm : chosen.cpu.xmm = emulator.cpu.xmm := (congrArg SoftCPU64.xmm hmachine.cpu :)
  have hexecute : (Opcode.twoByte opcode).execute host prefixes (afterDecoding emulator pc) =
      .ok () (chosen.withCPU (chosen.cpu.setXmm modrm.reg
        (shuffleResult opcode selector (emulator.cpu.xmm modrm.reg) source))) := by
    rw [Opcode.execute, executeTwoByte_of_packedInteger (packedInteger_shuffle hopcode prefixes),
      selectedOperation, bind_of_ok hmodrm, bind_of_ok hoperand, bind_of_ok hselector,
      bind_of_ok (readXmmFromOperand_of_holds hmachine hsource), ← hxmm]
    rfl
  exact step_of_setXmm host hdecode hmachine hexecute

/-! ## Mandatory prefixes -/

/-- A step executes the shuffle of the mandatory prefix, or reports that there is none. -/
def HonoursPrefix (host : Host) (emulator : Emulator) (prefixes : Prefixes) (opcode : U8)
    (register : Register) (selector : U8) (source : Xmm) : Prop :=
  match Shuffle.ofPrefixes opcode prefixes with
  | some shuffle => ∃ final, step host emulator = .ok () final ∧
      shuffle.Holds selector (emulator.cpu.xmm register) source (final.cpu.xmm register) ∧
      ChangesXmm register emulator final
  | none => ∃ message final, step host emulator = .error (.emulatorError message) final

/-- The mandatory prefix selects a shuffle that puts the same bytes everywhere as the shuffle
that is executed. -/
def SelectsAlike (prefixes : Prefixes) (opcode selector : U8) (destination source : Xmm) : Prop :=
  ∃ shuffle, Shuffle.ofPrefixes opcode prefixes = some shuffle ∧
    ∀ i < 16, (Shuffle.executed opcode).pick selector destination source i =
      shuffle.pick selector destination source i

/-- When a step of a shuffle honours the mandatory prefix. -/
theorem step_honoursPrefix_iff (host : Host) (hopcode : opcode = 0x70 ∨ opcode = 0xc6)
    (hat : AtShuffle emulator prefixes opcode register selector source) :
    HonoursPrefix host emulator prefixes opcode register selector source ↔
      SelectsAlike prefixes opcode selector (emulator.cpu.xmm register) source := by
  rcases step_shuffle host hopcode hat with ⟨final, hstep, hresult, hchanges⟩
  have hexecuted := Shuffle.holds_iff.mp
    (holds_executed opcode selector (emulator.cpu.xmm register) source)
  rw [← hresult] at hexecuted
  unfold HonoursPrefix SelectsAlike
  cases hshuffle : Shuffle.ofPrefixes opcode prefixes with
  | none =>
      constructor
      · rintro ⟨message, final', herror⟩
        rw [hstep] at herror
        cases herror
      · rintro ⟨shuffle, hnone, -⟩
        cases hnone
  | some shuffle =>
      constructor
      · rintro ⟨final', hstep', hholds, -⟩
        rw [hstep] at hstep'
        cases hstep'
        refine ⟨shuffle, rfl, fun i hi => ?_⟩
        rw [← hexecuted i hi, Shuffle.holds_iff.mp hholds i hi]
      · rintro ⟨_, hsome, hsame⟩
        cases hsome
        refine ⟨final, hstep, Shuffle.holds_iff.mpr fun i hi => ?_, hchanges⟩
        rw [hexecuted i hi, hsame i hi]

section Examples

/-- A shuffle of `%xmm1` into `%xmm0`, whose bytes are numbered. -/
def shuffling (code : List U8) : Emulator where
  mmu := { regions := [Emulator.pageOf 0x1000 (protRead ||| protExecute) code] }
  cpu := { rip := 0x1000, xmm := fun register i => BitVec.ofNat 8 (register.val * 16 + i.val) }

/-- `shufpd $1, %xmm1, %xmm0` is what it says. -/
theorem step_honoursPrefix_shufpd :
    HonoursPrefix Emulator.quietHost (shuffling [0x66, 0x0f, 0xc6, 0xc1, 0x01])
      { operand16 := true } 0xc6 0 1
      ((shuffling [0x66, 0x0f, 0xc6, 0xc1, 0x01]).cpu.xmm 1) := by
  have hdecode : decodeInstruction (shuffling [0x66, 0x0f, 0xc6, 0xc1, 0x01]) =
      .ok ({ operand16 := true }, .twoByte 0xc6)
        (finalState (decodeInstruction (shuffling [0x66, 0x0f, 0xc6, 0xc1, 0x01]))) :=
    eq_ok_of_returned (by decide)
  let decoded := finalState (decodeInstruction (shuffling [0x66, 0x0f, 0xc6, 0xc1, 0x01]))
  let located := finalState (fetchModrm { operand16 := true } decoded)
  have hmodrm : fetchModrm { operand16 := true } decoded = .ok ⟨0xc1, 3, 0, 1⟩ located :=
    eq_ok_of_returned (by decide)
  have hselector : fetch8 located = .ok 1 (finalState (fetch8 located)) :=
    eq_ok_of_returned (by decide)
  have hat : AtShuffle (shuffling [0x66, 0x0f, 0xc6, 0xc1, 0x01]) { operand16 := true } 0xc6 0 1
      ((shuffling [0x66, 0x0f, 0xc6, 0xc1, 0x01]).cpu.xmm 1) :=
    ⟨_, _, _, .register 1, _, _, hdecode, hmodrm, rfl, hselector, rfl, rfl⟩
  exact (step_honoursPrefix_iff Emulator.quietHost (Or.inr rfl) hat).mpr
    ⟨.shufpd, rfl, fun _ _ => rfl⟩

/-- `shufps $0xe4, %xmm1, %xmm0` moves the low quadword of the source, not the high one. -/
theorem step_shufps_as_shufpd :
    ∃ final, step Emulator.quietHost (shuffling [0x0f, 0xc6, 0xc1, 0xe4]) = .ok () final ∧
      ¬Shuffle.shufps.Holds 0xe4 ((shuffling [0x0f, 0xc6, 0xc1, 0xe4]).cpu.xmm 0)
        ((shuffling [0x0f, 0xc6, 0xc1, 0xe4]).cpu.xmm 1) (final.cpu.xmm 0) := by
  have hrun : returned (step Emulator.quietHost (shuffling [0x0f, 0xc6, 0xc1, 0xe4])) =
        some () ∧
      ((finalState (step Emulator.quietHost (shuffling [0x0f, 0xc6, 0xc1, 0xe4]))).cpu.xmm 0).lane
        .w32 2 ≠ ((shuffling [0x0f, 0xc6, 0xc1, 0xe4]).cpu.xmm 1).lane .w32 2 := by
    decide
  exact ⟨_, eq_ok_of_returned hrun.1, fun hholds => hrun.2 (hholds 2 (by decide))⟩

end Examples

end SoftCPU64

end LUE
