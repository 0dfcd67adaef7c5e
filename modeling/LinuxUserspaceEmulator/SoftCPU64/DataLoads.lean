import LinuxUserspaceEmulator.SoftCPU64.ReadLog

/-!
# The loads of an instruction

What an instruction loads from guest memory as data: its operand, a word of a bit string, the
elements of a string, an area of saved state, or the top of the stack.  The read observer is
called for the loads that go through `read_operand` and `pop64_with_shadow`.  The others are
plain reads.

Main results:

- Theorem `operandLoads_of_operand`: most opcodes load their operand where they come to it.
- Theorems `logsFrom_readOperand` and `logsFrom_pop64WithShadow`: what a shadowed read logs.
-/

namespace LUE

open StateExcept

namespace SoftCPU64

/-! ## What is loaded -/

/-- Consecutive addresses. -/
def loadBytes (address : U64) (count : Nat) : List U64 :=
  (List.range count).map fun i => address + BitVec.ofNat 64 i

/-- The address of a memory operand when it is accessed at a decoder position. -/
def resolveAt (decoded : DecodedAddress) (pc : U64) : U64 :=
  if decoded.ripRelative then pc + decoded.ripDisplacement else decoded.address

/-- The bytes of an operand in memory; a register has none. -/
def operandBytes (operand : Operand) (pc : U64) (count : Nat) : List U64 :=
  match operand with
  | .register _ => []
  | .memory decoded => loadBytes (resolveAt decoded pc) count

/-- The bytes that the memory form of an x87 instruction loads. -/
def x87LoadSize (opcode : U8) (operation : Nat) : Nat :=
  match opcode.toNat, operation with
  | 0xd8, _ => 4
  | 0xdc, _ => 8
  | 0xda, _ => 4
  | 0xde, _ => 2
  | 0xd9, 0 => 4
  | 0xd9, 5 => 2
  | 0xdd, 0 => 8
  | 0xdb, 0 => 4
  | 0xdb, 5 => 10
  | 0xdf, 0 => 2
  | 0xdf, 5 => 8
  | _, _ => 0

/-- The packed integer opcodes with a whole XMM operand as their source. -/
def packedSources : List U8 :=
  [0x28, 0x57, 0x60, 0x61, 0x62, 0x64, 0x65, 0x66, 0x68, 0x69, 0x6a, 0x6c, 0x6d, 0x6f, 0x70,
    0x74, 0x75, 0x76, 0xc6, 0xd4, 0xd7, 0xda, 0xdb, 0xde, 0xdf, 0xeb, 0xef, 0xf8, 0xf9, 0xfa]

/-- The bytes that an SSE instruction loads of a memory operand. -/
def sseLoadSize (opcode : U8) (prefixes : Prefixes) : Nat :=
  if opcode ∈ packedSources then 16
  else
    match opcode.toNat with
    | 0x10 | 0x51 | 0x58 | 0x59 | 0x5c | 0x5d | 0x5e | 0x5f =>
        (SseKind.ofPrefixes prefixes).sourceBytes
    | 0x12 | 0x16 => 8
    | 0x14 | 0x15 | 0x54 | 0x55 | 0x56 | 0x5b | 0xe6 => 16
    | 0x2a | 0x6e => if prefixes.rexW then 8 else 4
    | 0x2c | 0x2d => if prefixes.repnz then 8 else 4
    | 0x2e | 0x2f => if prefixes.operand16 then 8 else 4
    | 0x5a => if prefixes.repz then 4 else if prefixes.repnz then 8 else 16
    | 0x7e => if prefixes.repz then 8 else 0
    | _ => 0

/-- The bytes that an instruction loads of its operand. -/
def loadSize (prefixes : Prefixes) (modrm : ModRM) : Opcode → Nat
  | .oneByte byte =>
      if byte ≤ 0x3d then
        if byte &&& 7 = 0 ∨ byte &&& 7 = 2 then 1 else (operandWidth prefixes).bytes
      else
        match byte.toNat with
        | 0x63 => 4
        | 0x80 | 0x84 | 0x8a | 0xc0 | 0xd0 | 0xd2 | 0xf6 => 1
        | 0x69 | 0x6b | 0x81 | 0x83 | 0x85 | 0x87 | 0x8b | 0xc1 | 0xd1 | 0xd3 | 0xf7 =>
            (operandWidth prefixes).bytes
        | 0xff => if modrm.operation ≤ 1 then (operandWidth prefixes).bytes else 8
        | 0xd8 | 0xd9 | 0xda | 0xdb | 0xdc | 0xdd | 0xde | 0xdf =>
            x87LoadSize byte modrm.operation
        | _ => 0
  | .twoByte byte =>
      if 0x40 ≤ byte ∧ byte ≤ 0x4f then (operandWidth prefixes).bytes
      else
        match byte.toNat with
        | 0xb0 | 0xb6 | 0xbe | 0xc0 => 1
        | 0xb7 | 0xbf => 2
        | 0xa4 | 0xa5 | 0xac | 0xad | 0xaf | 0xb1 | 0xba | 0xbc | 0xbd | 0xc1 =>
            (operandWidth prefixes).bytes
        | _ => sseLoadSize byte prefixes

/-- The count of a shift: an immediate, one, or `CL`. -/
def shiftCount (byte : U8) (before : Emulator) : Nat :=
  if byte = 0xc0 ∨ byte = 0xc1 then
    match before.mmu.read8 before.cpu.decodePc with
    | .ok immediate => (immediate &&& 0x3f).toNat
    | .error _ => 0
  else if byte = 0xd0 ∨ byte = 0xd1 then 1
  else ((before.cpu.reg .rcx).setWidth 8 &&& (0x3f : U8)).toNat

/-- An instruction that does not come to its operand: a shift by zero, a conditional move whose
condition does not hold. -/
def passesOver (before : Emulator) : Opcode → Bool
  | .oneByte byte =>
      byte ∈ ([0xc0, 0xc1, 0xd0, 0xd1, 0xd2, 0xd3] : List U8) && shiftCount byte before == 0
  | .twoByte byte =>
      (0x40 ≤ byte && byte ≤ 0x4f) && !before.cpu.condition (byte &&& 0xf)

/-- The word of a bit string that holds the selected bit. -/
def bitWordAddress (prefixes : Prefixes) (modrm : ModRM) (cpu : SoftCPU64) (base : U64) : U64 :=
  let width := operandWidth prefixes
  let offset := signedOperand (readLane cpu.gpr modrm.reg width prefixes) width
  base + BitVec.ofInt 64 (offset / width.bits * width.bytes)

/-- Where the decoder is when an instruction comes to its operand. -/
def accessPosition (prefixes : Prefixes) (opcode : Opcode) (modrm : ModRM) (pc : U64) : U64 :=
  if opcode.ReadsEarly then pc
  else pc + BitVec.ofNat 64 (opcode.trailingBytes prefixes modrm)

/-- What an instruction loads once it has decoded its operand. -/
def operandLoads (prefixes : Prefixes) (opcode : Opcode) (modrm : ModRM) (operand : Operand)
    (before : Emulator) : List U64 :=
  let pc := before.cpu.decodePc
  if opcode = .oneByte 0x8f then loadBytes (before.cpu.reg .rsp) 8
  else if opcode = .twoByte 0xae then
    if modrm.operation = 1 then
      match operand with
      | .register _ => []
      | .memory decoded =>
          loadBytes (resolveAt decoded pc + 24) 4 ++ loadBytes (resolveAt decoded pc + 160) 256
    else if modrm.operation = 3 then operandBytes operand pc 4
    else []
  else if opcode ∈ ([0xa3, 0xab, 0xb3, 0xbb] : List U8).map Opcode.twoByte then
    match operand with
    | .register _ => []
    | .memory decoded =>
        loadBytes (bitWordAddress prefixes modrm before.cpu (resolveAt decoded pc))
          (operandWidth prefixes).bytes
  else if passesOver before opcode then []
  else
    operandBytes operand (accessPosition prefixes opcode modrm pc) (loadSize prefixes modrm opcode)

/-- What an instruction without an operand loads from the stack. -/
def stackLoads (cpu : SoftCPU64) : Opcode → List U64
  | .oneByte byte =>
      if (0x58 ≤ byte ∧ byte ≤ 0x5f) ∨ byte = 0xc2 ∨ byte = 0xc3 then loadBytes (cpu.reg .rsp) 8
      else if byte = 0xc9 then loadBytes (cpu.reg .rbp) 8
      else []
  | .twoByte _ => []

/-- What an instruction of an opcode loads, from the state after the opcode was decoded. -/
def DataLoad (prefixes : Prefixes) (opcode : Opcode) (decoded : Emulator) (address : U64) :
    Prop :=
  if opcode = .oneByte 0xa4 ∨ opcode = .oneByte 0xa5 then
    let width := if opcode = .oneByte 0xa4 then 1 else (operandWidth prefixes).bytes
    let count := if prefixes.repz then (decoded.cpu.reg .rcx).toNat else 1
    let step := if decoded.cpu.flag DF then -BitVec.ofNat 64 width else BitVec.ofNat 64 width
    ∃ i < count, address ∈ loadBytes (decoded.cpu.reg .rsi + BitVec.ofNat 64 i * step +
      decoded.cpu.segmentBase prefixes) width
  else if opcode.WithoutOperand then address ∈ stackLoads decoded.cpu opcode
  else
    ∃ modrm selected operand before, fetchModrm prefixes decoded = .ok modrm selected ∧
      decodeRmOperand prefixes modrm selected = .ok operand before ∧
      address ∈ operandLoads prefixes opcode modrm operand before

/-- The opcodes whose data loads are plain reads: the string moves, the bit strings, `FXRSTOR`
and `LDMXCSR`, the x87 instructions, and the SSE instructions that load a whole operand or a
floating-point number. -/
def Opcode.LoadsPlainly : Opcode → Bool
  | oneByte byte =>
      byte ∈ ([0xa4, 0xa5, 0xd8, 0xd9, 0xda, 0xdb, 0xdc, 0xdd, 0xde, 0xdf] : List U8)
  | twoByte byte =>
      byte ∈ ([0xa3, 0xab, 0xb3, 0xbb, 0xae] : List U8) || byte ∈ packedSources ||
        (isSseFloat byte && byte != 0x2a)

/-- The opcodes with loads of their own. -/
def specialLoads : List Opcode :=
  [.oneByte 0x8f, .twoByte 0xae, .twoByte 0xa3, .twoByte 0xab, .twoByte 0xb3, .twoByte 0xbb]

section Loads

variable {prefixes : Prefixes} {opcode : Opcode} {modrm : ModRM} {operand : Operand}
  {before : Emulator} {size : Nat} {pc : U64}

/-- The other opcodes load their operand where they come to it, if they do. -/
theorem operandLoads_of_not_special (hspecial : opcode ∉ specialLoads) :
    operandLoads prefixes opcode modrm operand before =
      if passesOver before opcode then []
      else operandBytes operand (accessPosition prefixes opcode modrm before.cpu.decodePc)
        (loadSize prefixes modrm opcode) := by
  simp only [specialLoads, List.mem_cons, List.not_mem_nil, or_false, not_or] at hspecial
  rcases hspecial with ⟨hpop, harea, hbits⟩
  have hstring : opcode ∉ ([0xa3, 0xab, 0xb3, 0xbb] : List U8).map Opcode.twoByte := by
    simpa using hbits
  unfold operandLoads
  dsimp only
  rw [if_neg hpop, if_neg harea, if_neg hstring]

theorem operandLoads_of_operand (hspecial : opcode ∉ specialLoads)
    (hpasses : passesOver before opcode = false)
    (hposition : accessPosition prefixes opcode modrm before.cpu.decodePc = pc)
    (hsize : loadSize prefixes modrm opcode = size) :
    operandLoads prefixes opcode modrm operand before = operandBytes operand pc size := by
  rw [operandLoads_of_not_special hspecial, hpasses, hposition, hsize]
  rfl

theorem operandLoads_of_passesOver (hspecial : opcode ∉ specialLoads)
    (hpasses : passesOver before opcode = true) :
    operandLoads prefixes opcode modrm operand before = [] := by
  rw [operandLoads_of_not_special hspecial, if_pos hpasses]

/-- Most of them have fetched all their bytes then, or do not wait for it. -/
theorem accessPosition_eq (h : opcode.ReadsEarly = true ∨ opcode.trailingBytes prefixes modrm = 0)
    (pc : U64) : accessPosition prefixes opcode modrm pc = pc := by
  rcases h with h | h
  · rw [accessPosition, if_pos h]
  · rw [accessPosition, h]
    split
    · rfl
    · exact BitVec.add_zero pc

end Loads

/-! ## What is logged -/

/-- When the program returns from the state, it has logged these reads. -/
def LogsFrom {α : Type} (program : EmulatorProgram α) (emulator : Emulator)
    (logged : List U64) : Prop :=
  ∀ a after, program emulator = .ok a after →
    after.mmu.readObserver = emulator.mmu.readObserver.map (· ++ logged)

section Logs

variable {α β : Type} {x : EmulatorProgram α} {f : α → EmulatorProgram β} {emulator : Emulator}
  {logged more : List U64}

theorem KeepsReads.logsFrom (h : KeepsReads x) (emulator : Emulator) :
    LogsFrom x emulator [] := by
  intro a after hrun
  have hkept := h _ emulator rfl
  rw [hrun] at hkept
  simp only [List.append_nil]
  exact hkept.trans Option.map_id'.symm

theorem LogsFrom.bind (hx : LogsFrom x emulator logged)
    (hf : ∀ a after, x emulator = .ok a after → LogsFrom (f a) after more) :
    LogsFrom (x >>= f) emulator (logged ++ more) := by
  intro b last hrun
  rcases bind_eq_ok_iff.mp hrun with ⟨a, after, hfirst, hrest⟩
  rw [hf a after hfirst b last hrest, hx a after hfirst]
  cases emulator.mmu.readObserver <;> simp

/-- What comes after the read of an operand logs nothing. -/
theorem LogsFrom.bind_keeps (hx : LogsFrom x emulator logged) (hf : ∀ a, KeepsReads (f a)) :
    LogsFrom (x >>= f) emulator logged := by
  have h := hx.bind fun a after _ => (hf a).logsFrom after
  rwa [List.append_nil] at h

/-- What comes before it does not either. -/
theorem LogsFrom.after (hx : KeepsReads x)
    (hf : ∀ a after, x emulator = .ok a after → LogsFrom (f a) after logged) :
    LogsFrom (x >>= f) emulator logged :=
  (hx.logsFrom emulator).bind hf

/-- And it leaves the decoder in place. -/
theorem LogsFrom.after_position (hx : KeepsReads x) (hposition : KeepsPosition x)
    (hf : ∀ a after, after.cpu.decodePc = emulator.cpu.decodePc → LogsFrom (f a) after logged) :
    LogsFrom (x >>= f) emulator logged :=
  LogsFrom.after hx fun a after hrun => hf a after (hposition.eq_of_ok hrun)

end Logs

/-! ## Shadowed reads -/

@[simp]
theorem loadBytes_zero (address : U64) : loadBytes address 0 = [] :=
  rfl

theorem loadBytes_succ (address : U64) (count : Nat) :
    loadBytes address (count + 1) =
      loadBytes address count ++ [address + BitVec.ofNat 64 count] := by
  simp [loadBytes, List.range_succ]

@[simp]
theorem operandBytes_zero (operand : Operand) (pc : U64) : operandBytes operand pc 0 = [] := by
  cases operand <;> rfl

/-- A shadowed byte read that returns is logged. -/
theorem readObserver_of_read8WithShadow {mmu after : SoftMMU} {address : U64}
    {value : ValueWithShadow 8} (h : SoftMMU.read8WithShadow address mmu = .ok value after) :
    after.readObserver = mmu.readObserver.map (· ++ [address]) := by
  cases hregion : mmu.regionFor address protRead with
  | error e =>
      rw [SoftMMU.read8WithShadow, bind_of_error (SoftMMU.observe_regionFor_error hregion)] at h
      cases h
  | ok region =>
      have hlog := SoftMMU.readObserver_read8WithShadow hregion
      rwa [h] at hlog

/-- So is a longer one, byte by byte. -/
theorem readObserver_of_readIntegerWithShadow {mmu after : SoftMMU} {address : U64}
    {count : Nat} {value : ValueWithShadow 64}
    (h : SoftMMU.readIntegerWithShadow address count mmu = .ok value after) :
    after.readObserver = mmu.readObserver.map (· ++ loadBytes address count) := by
  induction count generalizing after value with
  | zero =>
      cases h
      cases mmu.readObserver <;> simp
  | succ count ih =>
      rcases bind_eq_ok_iff.mp h with ⟨low, middle, hlow, hrest⟩
      rcases bind_eq_ok_iff.mp hrest with ⟨byte, last, hbyte, hend⟩
      cases hend
      rw [readObserver_of_read8WithShadow hbyte, ih hlow, loadBytes_succ]
      cases mmu.readObserver <;> simp

theorem readObserver_of_readMemoryOperand {mmu after : SoftMMU} {address : U64} {width : Width}
    {value : ValueWithShadow 64} (h : readMemoryOperand address width mmu = .ok value after) :
    after.readObserver = mmu.readObserver.map (· ++ loadBytes address width.bytes) := by
  cases width with
  | w8 =>
      rcases bind_eq_ok_iff.mp h with ⟨byte, last, hbyte, hend⟩
      cases hend
      have hfirst : loadBytes address Width.w8.bytes = [address] := by
        simp [loadBytes, Width.bytes, Width.bits, List.range_succ]
      rw [hfirst, readObserver_of_read8WithShadow hbyte]
  | w16 => exact readObserver_of_readIntegerWithShadow h
  | w32 => exact readObserver_of_readIntegerWithShadow h
  | w64 => exact readObserver_of_readIntegerWithShadow h

/-- The read of an operand logs its bytes. -/
theorem logsFrom_readOperand (operand : Operand) (width : Width) (prefixes : Prefixes)
    (emulator : Emulator) :
    LogsFrom (readOperand operand width prefixes) emulator
      (operandBytes operand emulator.cpu.decodePc width.bytes) := by
  cases operand with
  | register register => exact (KeepsReads.readGpr register width prefixes).logsFrom emulator
  | memory decoded =>
      have haddress : effectiveAddress decoded emulator =
          .ok (resolveAt decoded emulator.cpu.decodePc) emulator := rfl
      intro value last hrun
      rw [readOperand, bind_of_ok haddress] at hrun
      rcases bind_eq_ok_iff.mp hrun with ⟨read, after, hread, hrest⟩
      rcases onMMU_eq_ok_iff.mp hread with ⟨mmu, hmmu, rfl⟩
      have hlog := readObserver_of_readMemoryOperand hmmu
      split at hrest <;> cases hrest <;> exact hlog

/-- A pop logs the top of the stack. -/
theorem logsFrom_pop64WithShadow (emulator : Emulator) :
    LogsFrom pop64WithShadow emulator (loadBytes (emulator.cpu.reg .rsp) 8) := by
  intro value last hrun
  rw [pop64WithShadow, bind_of_ok (getCPU_apply emulator)] at hrun
  rcases bind_eq_ok_iff.mp hrun with ⟨read, after, hread, hrest⟩
  rcases onMMU_eq_ok_iff.mp hread with ⟨mmu, hmmu, rfl⟩
  cases hrest
  exact readObserver_of_readIntegerWithShadow hmmu

end SoftCPU64

end LUE
