import LinuxUserspaceEmulator.SoftCPU64.DescribedLength

/-!
# The length of a traced instruction

The tracer prints an instruction before it is executed, with the bytes its disassembler has passed
over.  The executor and the disassembler read the same prefixes and the same opcode.  When the
instruction is done the instruction pointer has advanced by the number of the printed bytes, unless
the instruction is one of those that the disassembler reads less of.

Main results:

- Theorem `describeInstruction_of_decodeInstruction`: both decoders find the same opcode.
- Theorem `tracedLength_iff`: when the printed bytes are the bytes of the instruction.
- Theorem `tracedLength_testImmediate`: the printed bytes of `test $1, %al` end too early.
-/

namespace LUE

open StateExcept

namespace SoftCPU64

/-! ## The same bytes -/

/-- The cursor is where the decoder is. -/
structure Follows (cursor : Cursor) (emulator : Emulator) : Prop where
  mmu : cursor.mmu = emulator.mmu
  pc : cursor.pc = emulator.cpu.decodePc

theorem Follows.advance {cursor : Cursor} {emulator : Emulator} (h : Follows cursor emulator)
    (count : Nat) :
    Follows (cursor.advance count)
      (atDecodePc emulator (emulator.cpu.decodePc + BitVec.ofNat 64 count)) where
  mmu := h.mmu
  pc := by rw [Cursor.advance_pc, h.pc]; rfl

/-- A byte that the executor fetches is there for the disassembler. -/
theorem Follows.read8 {cursor : Cursor} {emulator after : Emulator} {byte : U8}
    (h : Follows cursor emulator) (hfetch : fetch8 emulator = .ok byte after) :
    Cursor.read8 cursor = .ok byte (cursor.advance 1) ∧ Readable cursor.mmu cursor.pc 1 ∧
      Follows (cursor.advance 1) after := by
  have hreadable : Readable cursor.mmu cursor.pc 1 := by
    rw [h.mmu, h.pc]
    exact (fetches_fetch8 hfetch).1.readable
  have hread := Cursor.read8_of_readable hreadable
  rw [h.mmu, h.pc, ← fetch8_eq_byteAt hfetch] at hread
  refine ⟨hread, hreadable, ?_⟩
  rw [fetch8_eq_ok hfetch]
  exact h.advance 1

section Prefixes

variable {state : PrefixState} {prefixes prefixes' : Prefixes} {byte : U8}

/-- The disassembler takes the prefixes that the executor takes. -/
theorem Matches.add_some (h : Matches state prefixes)
    (hprefixed : addPrefix byte prefixes = some prefixes') :
    ∃ state', state.add byte = some state' ∧ Matches state' prefixes' := by
  unfold addPrefix at hprefixed
  split_ifs at hprefixed with hoperand haddress hlegacy hlock hrepnz hrepz hfs hgs hrex
  all_goals cases hprefixed
  · exact ⟨_, if_pos hoperand, rfl, h.rex⟩
  · subst haddress
    exact ⟨_, rfl, h.operand16, h.rex⟩
  · rcases hlegacy with rfl | rfl | rfl | rfl <;> exact ⟨_, rfl, h.operand16, h.rex⟩
  · subst hlock
    exact ⟨_, rfl, h.operand16, h.rex⟩
  · subst hrepnz
    exact ⟨_, rfl, h.operand16, h.rex⟩
  · subst hrepz
    exact ⟨_, rfl, h.operand16, h.rex⟩
  · subst hfs
    exact ⟨_, rfl, h.operand16, h.rex⟩
  · subst hgs
    exact ⟨_, rfl, h.operand16, h.rex⟩
  · refine ⟨{ state with rexPresent := true, rex := byte - 0x40 }, ?_, h.operand16, rfl⟩
    rw [PrefixState.add, if_neg hoperand, if_neg haddress, if_neg hlock, if_neg hrepnz,
      if_neg hrepz, if_neg (by tauto), if_pos hrex]

/-- It takes no others. -/
theorem add_none (hopcode : addPrefix byte prefixes = none) : state.add byte = none := by
  unfold addPrefix at hopcode
  split_ifs at hopcode with hoperand haddress hlegacy hlock hrepnz hrepz hfs hgs hrex
  rw [PrefixState.add, if_neg hoperand, if_neg haddress, if_neg hlock, if_neg hrepnz,
    if_neg hrepz, if_neg (by tauto), if_neg hrex]

/-- Both loops pass over the same prefixes. -/
theorem describePrefixes_of_readPrefixesLoop {fuel : Nat} {emulator after : Emulator}
    {cursor : Cursor} (hmatches : Matches state prefixes) (hfollows : Follows cursor emulator)
    (h : readPrefixesLoop fuel prefixes emulator = .ok prefixes' after) :
    ∃ count state', describePrefixes fuel state cursor = .ok state' (cursor.advance count) ∧
      Matches state' prefixes' ∧ Readable cursor.mmu cursor.pc count ∧
      Follows (cursor.advance count) after := by
  induction fuel generalizing state prefixes emulator cursor with
  | zero => cases h
  | succ fuel ih =>
      rw [readPrefixesLoop, bind_of_ok (getCPU_apply emulator)] at h
      rcases bind_eq_ok_iff.mp h with ⟨byte, middle, hread, hrest⟩
      rcases readMMU_eq_ok_iff.mp hread with ⟨hbyte, rfl⟩
      rw [← hfollows.mmu, ← hfollows.pc] at hbyte
      have hobserve : observe (fun cursor : Cursor => cursor.mmu.read8 cursor.pc) cursor =
          .ok byte cursor := observe_eq_ok_iff.mpr ⟨hbyte, rfl⟩
      rw [describePrefixes, bind_of_ok hobserve]
      cases hprefixed : addPrefix byte prefixes with
      | none =>
          rw [hprefixed] at hrest
          cases hrest
          rw [add_none hprefixed]
          refine ⟨0, state, ?_, hmatches, Readable.zero _ _, ?_⟩
          · rw [Cursor.advance_zero]
            rfl
          · rwa [Cursor.advance_zero]
      | some next =>
          rw [hprefixed] at hrest
          rcases hmatches.add_some hprefixed with ⟨state', hadded, hnext⟩
          rcases ih hnext (hfollows.advance 1) hrest with
            ⟨count, last, hdescribe, hlast, hreadable, hafter⟩
          refine ⟨1 + count, last, ?_, hlast, (Readable.one hbyte).append hreadable, ?_⟩
          · rw [hadded, ← Cursor.advance_advance]
            exact hdescribe
          · rwa [← Cursor.advance_advance]

end Prefixes

/-! ## The opcode -/

section Decoding

variable {emulator decoded : Emulator} {prefixes : Prefixes} {opcode : Opcode}

/-- The disassembler starts where a step starts. -/
def startCursor (emulator : Emulator) : Cursor :=
  ⟨emulator.mmu, emulator.cpu.rip, emulator.cpu.rip⟩

/-- The operation field of the byte behind the opcode. -/
def operationField (decoded : Emulator) : Nat :=
  (modrmAt decoded.mmu decoded.cpu.decodePc).operation

/-- Both decoders find the same opcode, behind as many bytes. -/
theorem describeInstruction_of_decodeInstruction {cursor : Cursor}
    (hstart : cursor = startCursor emulator)
    (h : decodeInstruction emulator = .ok (prefixes, opcode) decoded) :
    ∃ count state, Matches state prefixes ∧ opcode ≠ .oneByte 0x0f ∧
      Readable cursor.mmu cursor.pc count ∧ Follows (cursor.advance count) decoded ∧
      describeInstruction cursor =
        (opcode.describe state >>= fun text => pure (state.words ++ text))
          (cursor.advance count) := by
  rcases bind_eq_ok_iff.mp h with ⟨⟨prefixes', first⟩, middle, hopcode, hrest⟩
  rw [decodeOpcode, bind_of_ok (modifyCPU_apply _ emulator)] at hopcode
  rcases bind_eq_ok_iff.mp hopcode with ⟨found, prefixed, hloop, hfetch⟩
  rcases bind_eq_ok_iff.mp hfetch with ⟨byte, fetched, hbyte, hreturn⟩
  cases hreturn
  have hnone : Matches {} {} := ⟨rfl, rfl⟩
  have hbegin : Follows cursor (emulator.withCPU emulator.cpu.beginInstruction) := by
    rw [hstart]
    exact ⟨rfl, rfl⟩
  rcases describePrefixes_of_readPrefixesLoop hnone hbegin hloop with
    ⟨count, state, hdescribe, hmatches, hreadable, hprefixed⟩
  rcases hprefixed.read8 hbyte with ⟨hread, hone, hfetched⟩
  have hdescribed : describeInstruction cursor =
      (describeOneByte state first >>= fun text => pure (state.words ++ text))
        ((cursor.advance count).advance 1) := by
    rw [describeInstruction, bind_of_ok hdescribe, bind_of_ok hread]
  rw [Cursor.advance_advance] at hdescribed hfetched
  by_cases hescape : first = 0x0f
  · subst hescape
    rcases bind_eq_ok_iff.mp hrest with ⟨second, last, hsecond, hreturn⟩
    cases hreturn
    rcases hfetched.read8 hsecond with ⟨hread', hone', hlast⟩
    refine ⟨count + 1 + 1, state, hmatches, (fun h => by cases h), ?_, ?_, ?_⟩
    · exact (hreadable.append hone).append hone'
    · rwa [← Cursor.advance_advance]
    · rw [hdescribed, ← Cursor.advance_advance cursor (count + 1)]
      exact bind_congr_outcome (bind_of_ok hread') _
  · simp only [if_neg hescape] at hrest
    cases hrest
    refine ⟨count + 1, state, hmatches, ?_, hreadable.append hone, hfetched, hdescribed⟩
    rintro ⟨⟩
    exact hescape rfl

/-- Behind the opcode of an executed instruction the disassembler reads its tail. -/
theorem describe_of_execute {host : Host} {state : PrefixState} {after : Emulator}
    {cursor : Cursor} (hmatches : Matches state prefixes) (hescape : opcode ≠ .oneByte 0x0f)
    (hfollows : Follows cursor decoded)
    (hexecute : opcode.execute host prefixes decoded = .ok () after)
    (htransfer : ¬opcode.Transfers (operationField decoded))
    (hsmallest : ¬opcode.MovesSmallest prefixes decoded.mmu decoded.cpu.decodePc) :
    let count := (opcode.describedTail prefixes).length decoded.mmu decoded.cpu.decodePc
    Readable cursor.mmu cursor.pc count ∧
      ∃ text, opcode.describe state cursor = .ok text (cursor.advance count) := by
  intro count
  have hreadable : Readable decoded.mmu decoded.cpu.decodePc count :=
    (Opcode.consumed_execute hescape hexecute htransfer).readable.mono
      (describedTail_length_le _ _ _)
  unfold count at hreadable ⊢
  rw [← hfollows.mmu, ← hfollows.pc] at hreadable hsmallest ⊢
  exact ⟨hreadable, Opcode.describes hmatches hescape hexecute htransfer hreadable hsmallest⟩

end Decoding

/-! ## The printed bytes -/

/-- The tracer prints so many bytes. -/
def TracesLength (emulator : Emulator) (length : Nat) : Prop :=
  ∃ description, describeCurrentInstruction emulator.cpu emulator.mmu = .ok description ∧
    description.bytes.length = length

section Printed

variable {emulator : Emulator} {text : String} {count : Nat}

/-- The way of an address that has advanced, modulo the size of the address space. -/
theorem toNat_advance (address : U64) (count : Nat) :
    (address + BitVec.ofNat 64 count - address).toNat = count % 2 ^ 64 := by
  rw [BitVec.add_comm, BitVec.add_sub_cancel, BitVec.toNat_ofNat]

/-- The printed bytes are the bytes that the disassembler has passed over. -/
theorem tracesLength_of_ok (hreadable : Readable emulator.mmu emulator.cpu.rip count)
    (hdescribe : describeInstruction (startCursor emulator) =
      .ok text ((startCursor emulator).advance count)) (length : Nat) :
    TracesLength emulator length ↔ count % 2 ^ 64 = length := by
  have hbytes : ∀ i ∈ List.range (count % 2 ^ 64),
      emulator.mmu.read8 (emulator.cpu.rip + BitVec.ofNat 64 i) =
        .ok (byteAt emulator.mmu (emulator.cpu.rip + BitVec.ofNat 64 i)) := by
    intro i hi
    have hlt : i < count := Nat.lt_of_lt_of_le (List.mem_range.mp hi) (Nat.mod_le _ _)
    rcases hreadable i hlt with ⟨byte, hbyte⟩
    rw [byteAt_of_read8 hbyte, hbyte]
  have hcurrent : describeCurrentInstruction emulator.cpu emulator.mmu =
      .ok ⟨text, (List.range (count % 2 ^ 64)).map fun i =>
        byteAt emulator.mmu (emulator.cpu.rip + BitVec.ofNat 64 i)⟩ := by
    rw [startCursor] at hdescribe
    rw [describeCurrentInstruction, hdescribe]
    simp only [Cursor.advance, toNat_advance, mapM_eq_ok hbytes]
    rfl
  rw [TracesLength, hcurrent]
  constructor
  · rintro ⟨description, hok, rfl⟩
    cases hok
    simp
  · rintro rfl
    exact ⟨_, rfl, by simp⟩

theorem not_tracesLength_of_error {after : Cursor} {e : Raise}
    (hdescribe : describeInstruction (startCursor emulator) = .error e after) (length : Nat) :
    ¬TracesLength emulator length := by
  rintro ⟨description, hok, -⟩
  rw [startCursor] at hdescribe
  rw [describeCurrentInstruction, hdescribe] at hok
  cases hok

end Printed

/-- When an instruction that transfers no control is done, the instruction pointer has advanced by
the number of the bytes that the tracer printed for it, unless the disassembler reads less of the
instruction than the executor, or has to print the smallest number. -/
theorem tracedLength_iff {host : Host} {emulator final : Emulator}
    (h : step host emulator = .ok () final) :
    ∃ prefixes opcode decoded, decodeInstruction emulator = .ok (prefixes, opcode) decoded ∧
      (¬opcode.Transfers (operationField decoded) →
        (TracesLength emulator (final.cpu.rip - emulator.cpu.rip).toNat ↔
          ¬opcode.CutShort (operationField decoded) ∧
            ¬opcode.MovesSmallest prefixes decoded.mmu decoded.cpu.decodePc)) := by
  rcases exists_decodeInstruction h with ⟨prefixes, opcode, decoded, after, hdecode, hexecute, rfl⟩
  refine ⟨prefixes, opcode, decoded, hdecode, fun htransfer => ?_⟩
  rcases describeInstruction_of_decodeInstruction rfl hdecode with
    ⟨count, state, hmatches, hescape, hreadable, hfollows, hdescribe⟩
  have hrip : (after.withCPU after.cpu.finishInstruction).cpu.rip = after.cpu.decodePc := rfl
  rw [hrip]
  have hadvance : (after.cpu.decodePc - emulator.cpu.rip).toNat =
      (count + (opcode.tail prefixes).length decoded.mmu decoded.cpu.decodePc) % 2 ^ 64 := by
    rw [(Opcode.consumed_execute hescape hexecute htransfer).position, ← hfollows.pc,
      Cursor.advance_pc, BitVec.add_assoc, ← BitVec.ofNat_add]
    exact toNat_advance emulator.cpu.rip _
  by_cases hsmallest : opcode.MovesSmallest prefixes decoded.mmu decoded.cpu.decodePc
  · have hfault := hsmallest
    rw [← hfollows.mmu, ← hfollows.pc] at hfault
    have herror := hdescribe.trans
      (bind_of_error (Opcode.describe_of_movesSmallest hmatches hfault))
    exact iff_of_false (not_tracesLength_of_error herror _) fun h => h.2 hsmallest
  · rcases describe_of_execute hmatches hescape hfollows hexecute htransfer hsmallest with
      ⟨htail, text, htext⟩
    rw [bind_of_ok htext, Cursor.advance_advance] at hdescribe
    rw [tracesLength_of_ok (hreadable.append htail) hdescribe, hadvance]
    -- the tails are too short for their difference to vanish around the address space
    have hbound := Opcode.tail_length_le prefixes opcode decoded.mmu decoded.cpu.decodePc
    constructor
    · intro hsame
      refine ⟨fun hcut => ?_, hsmallest⟩
      have hlt : (opcode.describedTail prefixes).length decoded.mmu decoded.cpu.decodePc <
          (opcode.tail prefixes).length decoded.mmu decoded.cpu.decodePc :=
        describedTail_length_lt hcut
      omega
    · rintro ⟨hcut, -⟩
      rw [describedTail_length_eq hcut]

section Examples

/-- The tracer prints all six bytes of `add $0x12345678, %eax`, and the step takes them. -/
theorem tracedLength_add :
    let final := finalState (step Emulator.quietHost addImmediate)
    step Emulator.quietHost addImmediate = .ok () final ∧
      TracesLength addImmediate (final.cpu.rip - addImmediate.cpu.rip).toNat := by
  intro final
  have hstep : step Emulator.quietHost addImmediate = .ok () final :=
    eq_ok_of_returned (by decide)
  have hopcode : decodeInstruction addImmediate =
      .ok ({}, .oneByte 0x81) (finalState (decodeInstruction addImmediate)) :=
    eq_ok_of_returned (by decide)
  rcases tracedLength_iff hstep with ⟨prefixes, opcode, decoded, hdecode, htraces⟩
  rw [hopcode] at hdecode
  cases hdecode
  refine ⟨hstep, (htraces ?_).mpr ⟨?_, ?_⟩⟩
  all_goals simp [Opcode.Transfers, Opcode.CutShort, Opcode.MovesSmallest]

/-- `test $1, %al`. -/
def testByteImmediate : Emulator :=
  startingAt [0xf6, 0xc0, 0x01]

/-- The step takes three bytes, and the tracer prints two. -/
theorem tracedLength_testImmediate :
    let final := finalState (step Emulator.quietHost testByteImmediate)
    step Emulator.quietHost testByteImmediate = .ok () final ∧
      (final.cpu.rip - testByteImmediate.cpu.rip).toNat = 3 ∧
      describeCurrentInstruction testByteImmediate.cpu testByteImmediate.mmu =
        .ok ⟨"test %al", [0xf6, 0xc0]⟩ ∧
      ¬TracesLength testByteImmediate (final.cpu.rip - testByteImmediate.cpu.rip).toNat := by
  intro final
  have hlength : (final.cpu.rip - testByteImmediate.cpu.rip).toNat = 3 := by decide
  have hdescribe : describeCurrentInstruction testByteImmediate.cpu testByteImmediate.mmu =
      .ok ⟨"test %al", [0xf6, 0xc0]⟩ := by
    decide
  refine ⟨eq_ok_of_returned (by decide), hlength, hdescribe, ?_⟩
  rintro ⟨description, hok, hprinted⟩
  rw [hdescribe] at hok
  cases hok
  rw [hlength] at hprinted
  contradiction

end Examples

end SoftCPU64

end LUE
