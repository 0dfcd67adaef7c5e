import LinuxUserspaceEmulator.Emulator.Load
import LinuxUserspaceEmulator.SoftMMU.Words
import LinuxUserspaceEmulator.SoftMMU.Runs
import Mathlib.Algebra.GroupWithZero.Nat

/-!
# The initial stack

`setup_stack` pushes blocks of bytes, each below the previous one: strings first, then one
table of words.  A push leaves every block above it as it is.

Main results:

- Theorem `Stacked.pushBytes`: one push adds one block.
- Theorem `setupStack_stacked`: the blocks of the initial stack.
- Theorem `setupStack_decodes`: what a decoder of the initial stack finds.
-/

namespace LUE

open StateExcept SoftMMU

/-! ## Blocks -/

/-- Consecutive bytes at an address. -/
structure Block where
  address : U64
  bytes : List U8
deriving DecidableEq, Repr

namespace Block

/-- The address behind the block, without wrapping. -/
def endAddress (block : Block) : Nat :=
  block.address.toNat + block.bytes.length

/-- One block lies below another. -/
def Below (block other : Block) : Prop :=
  block.endAddress ≤ other.address.toNat

/-- The memory holds the bytes of the block. -/
def Holds (block : Block) (mmu : SoftMMU) : Prop :=
  ∀ i, (h : i < block.bytes.length) →
    mmu.guestByte (block.address + BitVec.ofNat 64 i) = some block.bytes[i]

end Block

/-- The lowest address of the stack. -/
def stackLow : Nat :=
  (stackBase - stackSize).toNat

/-- The stack region is readable and writable. -/
def StackMapped (mmu : SoftMMU) : Prop :=
  ∀ a : U64, stackLow ≤ a.toNat → a.toNat < stackBase.toNat →
    protections mmu a = some (protRead ||| protWrite)

/-- The stack with the blocks that have been pushed, the latest one first. -/
structure Stacked (state : StackState) (blocks : List Block) : Prop where
  wellFormed : RegionsWellFormed state.mmu.regions
  mapped : StackMapped state.mmu
  top_le : state.stackTop.toNat ≤ stackBase.toNat
  above : ∀ block ∈ blocks, state.stackTop.toNat ≤ block.address.toNat ∧
    block.endAddress ≤ stackBase.toNat
  apart : blocks.Pairwise Block.Below
  holds : ∀ block ∈ blocks, block.Holds state.mmu

/-! ## Writing below the blocks -/

variable {mmu mmu' : SoftMMU} {state : StackState} {blocks : List Block}

theorem StackMapped.access (h : StackMapped mmu) {a : U64} (hlow : stackLow ≤ a.toNat)
    (hhigh : a.toNat < stackBase.toNat) {prot : Protection}
    (hprot : (protRead ||| protWrite) &&& prot = prot) :
    ∃ cell, mmu.addressMap.access a prot = .ok cell := by
  have hcell := h a hlow hhigh
  rw [protections, Option.map_eq_some_iff] at hcell
  rcases hcell with ⟨cell, hcell, hcellProt⟩
  exact ⟨cell, AddressMap.access_eq_ok_iff.mpr ⟨hcell, by rw [hcellProt]; exact hprot⟩⟩

/-- Bytes of the stack can be read back. -/
theorem StackMapped.read8 (h : StackMapped mmu) (hwf : RegionsWellFormed mmu.regions) {a : U64}
    (hlow : stackLow ≤ a.toNat) (hhigh : a.toNat < stackBase.toNat) {byte : U8}
    (hbyte : mmu.guestByte a = some byte) : mmu.read8 a = .ok byte := by
  have hread : (protRead ||| protWrite) &&& protRead = protRead := by decide
  rcases h.access hlow hhigh hread with ⟨cell, hcell⟩
  rw [read8_eq_access hwf, hcell]
  rw [guestByte, (AddressMap.access_eq_ok_iff.mp hcell).1] at hbyte
  cases hbyte
  rfl

/-- Writing bytes below the blocks puts one more block there. -/
theorem Stacked.writeBytes (h : Stacked state blocks) (data : List U8) (top : U64)
    (htop : top.toNat + data.length ≤ state.stackTop.toNat) (hlow : stackLow ≤ top.toNat) :
    ∃ mmu', copyToGuest top data state.mmu = .ok () mmu' ∧
      Stacked ⟨mmu', top⟩ (⟨top, data⟩ :: blocks) := by
  have hbase : stackBase.toNat < 2 ^ 64 := stackBase.isLt
  have htopLe := h.top_le
  have haddress : ∀ i < data.length, (top + BitVec.ofNat 64 i).toNat = top.toNat + i := by
    intro i hi
    rw [BitVec.toNat_add, BitVec.toNat_ofNat]
    omega
  have hwritable : ∀ i < data.length, ∃ cell,
      state.mmu.addressMap.access (top + BitVec.ofNat 64 i) protWrite = .ok cell := by
    intro i hi
    have haddress' := haddress i hi
    exact h.mapped.access (by omega) (by omega) (by decide)
  rcases @writeBytes_of_writable _ _ _ (fun i => data.getD i 0) h.wellFormed (by omega)
    hwritable with ⟨mmu', hwrite, hedits⟩
  have hprot := protections_editCells hedits.addressMap
  have hbytes := guestByte_of_writeBytes (by omega) hwrite
  refine ⟨mmu', hwrite, hedits.wellFormed, ?_, ?_, ?_, ?_, ?_⟩
  · intro a hlow' hhigh
    rw [hprot]
    exact h.mapped a hlow' hhigh
  · change top.toNat ≤ stackBase.toNat
    omega
  · intro block hblock
    change top.toNat ≤ block.address.toNat ∧ _
    rcases List.mem_cons.mp hblock with rfl | hold
    · simp only [Block.endAddress]
      omega
    · have habove := h.above block hold
      omega
  · refine List.pairwise_cons.mpr ⟨fun block hblock => ?_, h.apart⟩
    have habove := (h.above block hblock).1
    simp only [Block.Below, Block.endAddress]
    omega
  · intro block hblock
    rcases List.mem_cons.mp hblock with rfl | hold
    · intro i hi
      change i < data.length at hi
      have hoffset : (top + BitVec.ofNat 64 i - top).toNat = i := by
        rw [BitVec.add_comm, BitVec.add_sub_cancel, BitVec.toNat_ofNat]
        omega
      rw [hbytes, hoffset, if_pos hi]
      simp [List.getD_eq_getElem?_getD, List.getElem?_eq_getElem hi]
    · intro i hi
      have habove := h.above block hold
      unfold Block.endAddress at habove
      have hout : ¬(block.address + BitVec.ofNat 64 i - top).toNat < data.length := by
        rw [BitVec.toNat_sub, BitVec.toNat_add, BitVec.toNat_ofNat]
        omega
      rw [hbytes, if_neg hout]
      exact h.holds block hold i hi

/-! ## Pushing one block -/

/-- One push adds one block. -/
theorem Stacked.pushBytes (h : Stacked state blocks) (data : List U8)
    (hroom : stackLow + data.length ≤ state.stackTop.toNat) :
    ∃ state', LUE.pushBytes data state = .ok state'.stackTop state' ∧
      state'.stackTop.toNat = state.stackTop.toNat - data.length ∧
      Stacked state' (⟨state'.stackTop, data⟩ :: blocks) := by
  have htop : (state.stackTop - BitVec.ofNat 64 data.length).toNat =
      state.stackTop.toNat - data.length := by
    have hlt := state.stackTop.isLt
    rw [BitVec.toNat_sub, BitVec.toNat_ofNat]
    omega
  rcases h.writeBytes data (state.stackTop - BitVec.ofNat 64 data.length) (by omega)
    (by omega) with ⟨mmu', hcopy, hstacked⟩
  refine ⟨⟨mmu', state.stackTop - BitVec.ofNat 64 data.length⟩, ?_, htop, hstacked⟩
  unfold LUE.pushBytes
  rw [bind_of_ok (modify_apply _ state), bind_of_ok (get_apply _)]
  exact bind_of_ok (onPart_eq_ok_iff.mpr ⟨mmu', hcopy, rfl⟩)

/-- Storing a word stores its bytes. -/
theorem write64_eq_copyToGuest (address value : U64) :
    write64 address value = copyToGuest address (LittleEndian.bytes value) := by
  rw [write64, writeInteger, copyToGuest, LittleEndian.length_bytes]
  refine forOffsets_congr fun i hi => ?_
  have hbyte : (LittleEndian.bytes value).getD i 0 = LittleEndian.byte value i := by
    simp [LittleEndian.bytes, List.getD_eq_getElem?_getD, List.getElem?_range hi]
  rw [hbyte]
  rfl

theorem push64_eq (value : U64) :
    push64 value = pushBytes (LittleEndian.bytes value) >>= fun _ => pure () := by
  unfold push64 pushBytes
  rw [LittleEndian.length_bytes]
  simp only [write64_eq_copyToGuest, bind_assoc, pure_bind, bind_pure_unit]
  rfl

theorem Stacked.push64 (h : Stacked state blocks) (value : U64)
    (hroom : stackLow + 8 ≤ state.stackTop.toNat) :
    ∃ state', LUE.push64 value state = .ok () state' ∧
      state'.stackTop.toNat = state.stackTop.toNat - 8 ∧
      Stacked state' (⟨state'.stackTop, LittleEndian.bytes value⟩ :: blocks) := by
  have hlength := LittleEndian.length_bytes value
  rcases h.pushBytes (LittleEndian.bytes value) (by omega) with
    ⟨state', hpush, htop, hstacked⟩
  refine ⟨state', ?_, by omega, hstacked⟩
  rw [push64_eq, bind_of_ok hpush]
  rfl

/-- Moving the top down keeps the blocks. -/
theorem Stacked.lower (h : Stacked state blocks) {top : U64}
    (htop : top.toNat ≤ state.stackTop.toNat) : Stacked { state with stackTop := top } blocks where
  wellFormed := h.wellFormed
  mapped := h.mapped
  top_le := Nat.le_trans htop h.top_le
  above := fun block hblock =>
    ⟨Nat.le_trans htop (h.above block hblock).1, (h.above block hblock).2⟩
  apart := h.apart
  holds := h.holds

/-! ## Pushing many -/

/-- An empty block at the top. -/
theorem Stacked.emptyBlock (h : Stacked state blocks) :
    Stacked state (⟨state.stackTop, []⟩ :: blocks) where
  wellFormed := h.wellFormed
  mapped := h.mapped
  top_le := h.top_le
  above := by
    intro block hblock
    rcases List.mem_cons.mp hblock with rfl | hold
    · exact ⟨Nat.le_refl _, h.top_le⟩
    · exact h.above block hold
  apart := List.pairwise_cons.mpr ⟨fun block hblock => (h.above block hblock).1, h.apart⟩
  holds := by
    intro block hblock
    rcases List.mem_cons.mp hblock with rfl | hold
    · intro i hi
      exact absurd hi (Nat.not_lt_zero i)
    · exact h.holds block hold

/-- Two adjacent blocks are one. -/
theorem Stacked.append {low high : Block}
    (h : Stacked state (low :: high :: blocks))
    (hadjacent : low.endAddress = high.address.toNat) :
    Stacked state (⟨low.address, low.bytes ++ high.bytes⟩ :: blocks) := by
  have hlow := h.above low List.mem_cons_self
  have hhigh := h.above high (List.mem_cons_of_mem _ List.mem_cons_self)
  rcases List.pairwise_cons.mp h.apart with ⟨-, hrest⟩
  rcases List.pairwise_cons.mp hrest with ⟨hbelow, hapart⟩
  have hend : (⟨low.address, low.bytes ++ high.bytes⟩ : Block).endAddress = high.endAddress := by
    simp only [Block.endAddress, List.length_append] at hadjacent ⊢
    omega
  refine ⟨h.wellFormed, h.mapped, h.top_le, ?_, ?_, ?_⟩
  · intro block hblock
    rcases List.mem_cons.mp hblock with rfl | hold
    · rw [hend]
      exact ⟨hlow.1, hhigh.2⟩
    · exact h.above block (List.mem_cons_of_mem _ (List.mem_cons_of_mem _ hold))
  · refine List.pairwise_cons.mpr ⟨fun block hblock => ?_, hapart⟩
    rw [Block.Below, hend]
    exact hbelow block hblock
  · intro block hblock
    rcases List.mem_cons.mp hblock with rfl | hold
    · intro i hi
      change i < (low.bytes ++ high.bytes).length at hi
      change state.mmu.guestByte (low.address + BitVec.ofNat 64 i) =
        some (low.bytes ++ high.bytes)[i]
      by_cases hfirst : i < low.bytes.length
      · rw [List.getElem_append_left hfirst]
        exact h.holds low List.mem_cons_self i hfirst
      · rw [List.length_append] at hi
        rw [List.getElem_append_right (by omega)]
        have haddress : low.address + BitVec.ofNat 64 i =
            high.address + BitVec.ofNat 64 (i - low.bytes.length) := by
          apply BitVec.eq_of_toNat_eq
          unfold Block.endAddress at hadjacent
          rw [BitVec.toNat_add, BitVec.toNat_add, BitVec.toNat_ofNat, BitVec.toNat_ofNat]
          omega
        rw [haddress]
        exact h.holds high (List.mem_cons_of_mem _ List.mem_cons_self) _ (by omega)
    · exact h.holds block (List.mem_cons_of_mem _ (List.mem_cons_of_mem _ hold))

/-- The bytes of a table of words. -/
def wordsBytes (words : List U64) : List U8 :=
  words.flatMap LittleEndian.bytes

theorem length_wordsBytes (words : List U64) : (wordsBytes words).length = 8 * words.length := by
  induction words with
  | nil => rfl
  | cons word words ih =>
      rw [wordsBytes, List.flatMap_cons, List.length_append, LittleEndian.length_bytes]
      rw [wordsBytes] at ih
      rw [ih, List.length_cons]
      omega

/-- Words pushed from the last to the first are a table. -/
theorem Stacked.pushWords (h : Stacked state blocks) (words : List U64)
    (hroom : stackLow + 8 * words.length ≤ state.stackTop.toNat) :
    ∃ state', words.reverse.forM LUE.push64 state = .ok () state' ∧
      state'.stackTop.toNat = state.stackTop.toNat - 8 * words.length ∧
      Stacked state' (⟨state'.stackTop, wordsBytes words⟩ :: blocks) := by
  induction words with
  | nil => exact ⟨state, rfl, rfl, h.emptyBlock⟩
  | cons word words ih =>
      rw [List.length_cons] at hroom
      rcases ih (by omega) with ⟨state₁, hwords, htop₁, hstacked₁⟩
      rcases hstacked₁.push64 word (by omega) with ⟨state₂, hword, htop₂, hstacked₂⟩
      refine ⟨state₂, ?_, by rw [List.length_cons]; omega, hstacked₂.append ?_⟩
      · have hlast : [word].forM LUE.push64 state₁ = .ok () state₂ := bind_of_ok hword
        have hsplit : (words.reverse ++ [word]).forM LUE.push64 =
            words.reverse.forM LUE.push64 >>= fun _ => [word].forM LUE.push64 :=
          List.forM_append
        rw [List.reverse_cons, hsplit, bind_of_ok hwords, hlast]
      · simp only [Block.endAddress, LittleEndian.length_bytes]
        omega

/-- The size of strings with their terminators. -/
def stringsSize (strings : List (List U8)) : Nat :=
  (strings.map fun string => string.length + 1).sum

/-- The blocks of strings at their addresses. -/
def stringBlocks (addresses : List U64) (strings : List (List U8)) : List Block :=
  List.zipWith (fun address string => ⟨address, string ++ [0]⟩) addresses strings

/-- Strings pushed from the last to the first. -/
theorem Stacked.pushStrings (h : Stacked state blocks) (strings : List (List U8))
    (hroom : stackLow + stringsSize strings ≤ state.stackTop.toNat) :
    ∃ state' addresses, strings.reverse.mapM pushString state = .ok addresses.reverse state' ∧
      addresses.length = strings.length ∧
      state'.stackTop.toNat = state.stackTop.toNat - stringsSize strings ∧
      Stacked state' (stringBlocks addresses strings ++ blocks) := by
  induction strings with
  | nil => exact ⟨state, [], rfl, rfl, rfl, h⟩
  | cons string strings ih =>
      have hsize : stringsSize (string :: strings) = string.length + 1 + stringsSize strings := by
        simp [stringsSize]
      rcases ih (by omega) with ⟨state₁, addresses, hstrings, hlength, htop₁, hstacked₁⟩
      have hterminated : (string ++ [0]).length = string.length + 1 := by simp
      rcases hstacked₁.pushBytes (string ++ [0]) (by omega) with
        ⟨state₂, hstring, htop₂, hstacked₂⟩
      refine ⟨state₂, state₂.stackTop :: addresses, ?_, by simp [hlength], by omega, hstacked₂⟩
      have hlast : [string].mapM pushString state₁ = .ok [state₂.stackTop] state₂ := by
        rw [List.mapM_cons]
        exact bind_of_ok hstring
      rw [List.reverse_cons, List.mapM_append, bind_of_ok hstrings, bind_of_ok hlast,
        List.reverse_cons]
      rfl

/-! ## The whole stack -/

/-- The words of the initial stack, from `m_stack_top` on. -/
def stackTable (argv envp : List U64) (auxv : List (U64 × U64)) : List U64 :=
  BitVec.ofNat 64 argv.length ::
    (argv ++ 0 :: (envp ++ 0 :: auxv.flatMap fun entry => [entry.1, entry.2]))

theorem length_stackTable (argv envp : List U64) (auxv : List (U64 × U64)) :
    (stackTable argv envp auxv).length = argv.length + envp.length + 2 * auxv.length + 3 := by
  have hauxv : (auxv.flatMap fun entry => [entry.1, entry.2]).length = 2 * auxv.length := by
    induction auxv with
    | nil => rfl
    | cons entry auxv ih =>
        rw [List.flatMap_cons, List.length_append, ih]
        simp only [List.length_cons, List.length_nil]
        omega
  simp only [stackTable, List.length_cons, List.length_append, hauxv]
  omega

/-- The pairs of the auxiliary vector are pushed as words. -/
theorem forM_pairs (auxv : List (U64 × U64)) :
    (auxv.reverse.forM fun entry => do
      push64 entry.2
      push64 entry.1) =
      (auxv.flatMap fun entry => [entry.1, entry.2]).reverse.forM push64 := by
  induction auxv with
  | nil => rfl
  | cons entry auxv ih =>
      simp only [List.forM_eq_forM] at ih ⊢
      simp only [List.reverse_cons, List.flatMap_cons, List.reverse_append, List.forM_append, ih,
        List.reverse_nil, List.nil_append, List.forM_cons, List.forM_nil, bind_pure_unit,
        bind_assoc]

/-- The pushes after the alignment are those of one table. -/
theorem pushTable_eq (argv envp : List U64) (auxv : List (U64 × U64)) :
    (do
      auxv.reverse.forM fun entry => do
        push64 entry.2
        push64 entry.1
      push64 0
      envp.reverse.forM push64
      push64 0
      argv.reverse.forM push64
      push64 (BitVec.ofNat 64 argv.length)) = (stackTable argv envp auxv).reverse.forM push64 := by
  rw [forM_pairs]
  simp only [List.forM_eq_forM, stackTable, List.reverse_cons, List.reverse_append,
    List.forM_append, List.forM_cons, List.forM_nil, bind_pure_unit, bind_assoc]

/-- The space that the initial stack takes. -/
def stackDemand (launch : Launch) : Nat :=
  (stringsSize launch.arguments + stringsSize launch.environment +
      (stringBytes launch.executablePath).length + 24 + 15) / 16 * 16 +
    8 * (launch.arguments.length + launch.environment.length + 41)

/-- The blocks of the initial stack, from the lowest on. -/
def stackBlocks (launch : Launch) (host : HostIdentity) (top : U64) (table : List U64)
    (argv envp : List U64) (execfn platform random : U64) : List Block :=
  ⟨top, wordsBytes table⟩ :: ⟨random, (List.range 16).map host.random⟩ ::
    ⟨platform, stringBytes "x86_64" ++ [0]⟩ ::
    ⟨execfn, stringBytes launch.executablePath ++ [0]⟩ ::
    (stringBlocks envp launch.environment ++ stringBlocks argv launch.arguments)

/-- What `setup_stack` leaves on a stack with enough room. -/
theorem setupStack_stacked {launch : Launch} {program : LoadedProgram} {host : HostIdentity}
    (h : Stacked ⟨mmu, stackBase⟩ []) (hfits : stackDemand launch ≤ stackSize.toNat) :
    ∃ state' argv envp execfn platform random,
      setupStack launch program host ⟨mmu, stackBase⟩ = .ok () state' ∧
      argv.length = launch.arguments.length ∧ envp.length = launch.environment.length ∧
      stackLow ≤ state'.stackTop.toNat ∧
      Stacked state' (stackBlocks launch host state'.stackTop
        (stackTable argv envp (auxiliaryVector program host platform random execfn))
        argv envp execfn platform random) := by
  have hbase : stackBase.toNat = 0x7fffff000000 := by decide
  have hsize : stackSize.toNat = 0x800000 := by decide
  have hlow : stackLow = 0x7ffffe800000 := by decide
  have hpath : (stringBytes launch.executablePath ++ [0]).length =
      (stringBytes launch.executablePath).length + 1 := by simp
  have hplatformLength : (stringBytes "x86_64" ++ [0]).length = 7 := by decide
  have hrandomLength : ((List.range 16).map host.random).length = 16 := by simp
  unfold stackDemand at hfits
  have htop : (⟨mmu, stackBase⟩ : StackState).stackTop.toNat = 0x7fffff000000 := hbase
  rcases h.pushStrings launch.arguments (by omega) with
    ⟨state₁, argv, hargv, hargvLength, htop₁, hstacked₁⟩
  rcases hstacked₁.pushStrings launch.environment (by omega) with
    ⟨state₂, envp, henvp, henvpLength, htop₂, hstacked₂⟩
  rcases hstacked₂.pushBytes (stringBytes launch.executablePath ++ [0]) (by omega) with
    ⟨state₃, hexecfn, htop₃, hstacked₃⟩
  rcases hstacked₃.pushBytes (stringBytes "x86_64" ++ [0]) (by omega) with
    ⟨state₄, hplatform, htop₄, hstacked₄⟩
  rcases hstacked₄.pushBytes ((List.range 16).map host.random) (by omega) with
    ⟨state₅, hrandom, htop₅, hstacked₅⟩
  have haligned : (state₅.stackTop &&& ~~~0xf).toNat = state₅.stackTop.toNat / 16 * 16 :=
    toNat_and_not_lowMask (k := 4) (by decide) state₅.stackTop
  have hstacked₆ := hstacked₅.lower (show (state₅.stackTop &&& ~~~0xf).toNat ≤ _ by omega)
  generalize htable : stackTable argv envp (auxiliaryVector program host state₄.stackTop
    state₅.stackTop state₃.stackTop) = table at *
  have hcount : table.length = launch.arguments.length + launch.environment.length + 41 := by
    rw [← htable, length_stackTable, hargvLength, henvpLength]
    rfl
  rcases hstacked₆.pushWords table (by
    change stackLow + 8 * table.length ≤ (state₅.stackTop &&& ~~~0xf).toNat
    omega) with ⟨state₇, htableRun, htop₇, hstacked₇⟩
  change state₇.stackTop.toNat = (state₅.stackTop &&& ~~~0xf).toNat - _ at htop₇
  refine ⟨state₇, argv, envp, state₃.stackTop, state₄.stackTop, state₅.stackTop, ?_,
    hargvLength, henvpLength, by omega, ?_⟩
  · unfold setupStack
    rw [bind_of_ok hargv, bind_of_ok henvp]
    simp only [pushString, List.reverse_reverse]
    rw [bind_of_ok hexecfn, bind_of_ok hplatform, bind_of_ok hrandom,
      bind_of_ok (modify_apply _ state₅), pushTable_eq, htable]
    exact htableRun
  · rw [htable]
    simpa [stackBlocks] using hstacked₇

/-! ## Decoding -/

/-- A string and its terminator can be read at the address. -/
def StringAt (mmu : SoftMMU) (address : U64) (string : List U8) : Prop :=
  ∀ i, (h : i < (string ++ [0]).length) →
    mmu.read8 (address + BitVec.ofNat 64 i) = .ok (string ++ [0])[i]

/-- The loop of `read_c_string` collects what is left of a string. -/
theorem readCStringLoop_of_bytes {address : U64} (rest : List U8) (value : List U8)
    {remaining : Nat} (hremaining : rest.length < remaining) (hnul : 0 ∉ rest)
    (h : StringAt mmu address (value ++ rest)) :
    mmu.readCStringLoop address value remaining = .ok (value ++ rest) := by
  induction rest generalizing value remaining with
  | nil =>
      cases remaining with
      | zero => exact absurd hremaining (Nat.not_lt_zero _)
      | succ remaining =>
          have hread : mmu.read8 (address + BitVec.ofNat 64 value.length) = .ok 0 := by
            have hbyte := h value.length (by simp)
            simpa using hbyte
          rw [readCStringLoop, except_bind_of_ok hread, List.append_nil]
          rfl
  | cons ch rest ih =>
      cases remaining with
      | zero => exact absurd hremaining (Nat.not_lt_zero _)
      | succ remaining =>
          have hread : mmu.read8 (address + BitVec.ofNat 64 value.length) = .ok ch := by
            have hbyte := h value.length (by simp)
            simpa using hbyte
          have hch : ch ≠ 0 := fun hzero => hnul (by simp [hzero])
          have hsplit : value ++ ch :: rest = (value ++ [ch]) ++ rest := by simp
          rw [hsplit] at h ⊢
          rw [readCStringLoop, except_bind_of_ok hread, if_neg hch]
          exact ih (value ++ [ch]) (Nat.lt_of_succ_lt_succ hremaining)
            (fun hmem => hnul (List.mem_cons_of_mem _ hmem)) h

/-- A string without NUL is read back. -/
theorem readCString_of_stringAt {address : U64} {string : List U8}
    (h : StringAt mmu address string) (hnul : 0 ∉ string) {limit : Nat}
    (hlimit : string.length < limit) : mmu.readCString address limit = .ok string :=
  readCStringLoop_of_bytes string [] hlimit hnul h

/-- The bytes of a table of words. -/
theorem getElem?_wordsBytes (words : List U64) (i : Nat) {j : Nat} (hj : j < 8) :
    (wordsBytes words)[8 * i + j]? = words[i]?.map (LittleEndian.byte · j) := by
  induction words generalizing i with
  | nil => simp [wordsBytes]
  | cons word words ih =>
      rw [wordsBytes, List.flatMap_cons]
      cases i with
      | zero =>
          rw [List.getElem?_append_left (by rw [LittleEndian.length_bytes]; omega)]
          simp [LittleEndian.bytes, List.getElem?_range hj]
      | succ i =>
          rw [List.getElem?_append_right (by rw [LittleEndian.length_bytes]; omega),
            LittleEndian.length_bytes, List.getElem?_cons_succ, ← ih i]
          have hindex : 8 * (i + 1) + j - 8 = 8 * i + j := by omega
          rw [hindex, wordsBytes]

/-- The bytes of a block can be read back. -/
theorem Stacked.read8 (h : Stacked state blocks) {block : Block} (hblock : block ∈ blocks)
    (hlow : stackLow ≤ state.stackTop.toNat) {i : Nat} (hi : i < block.bytes.length) :
    state.mmu.read8 (block.address + BitVec.ofNat 64 i) = .ok block.bytes[i] := by
  have hbase : stackBase.toNat = 0x7fffff000000 := by decide
  have habove := h.above block hblock
  unfold Block.endAddress at habove
  have haddress : (block.address + BitVec.ofNat 64 i).toNat = block.address.toNat + i := by
    rw [BitVec.toNat_add, BitVec.toNat_ofNat]
    omega
  exact h.mapped.read8 h.wellFormed (by omega) (by omega) (h.holds block hblock i hi)

/-- The words of a table can be read back. -/
theorem Stacked.read64 (h : Stacked state blocks) {address : U64} {words : List U64}
    (hblock : ⟨address, wordsBytes words⟩ ∈ blocks) (hlow : stackLow ≤ state.stackTop.toNat)
    {i : Nat} (hi : i < words.length) :
    state.mmu.read64 (address + BitVec.ofNat 64 (8 * i)) = .ok words[i] := by
  have hbytes : ∀ j < 8, state.mmu.read8
      (address + BitVec.ofNat 64 (8 * i) + BitVec.ofNat 64 j) =
        .ok (LittleEndian.byte words[i] j) := by
    intro j hj
    have hlength := length_wordsBytes words
    have hlt : 8 * i + j < (wordsBytes words).length := by omega
    have hread := h.read8 hblock hlow hlt
    have hbyte : (wordsBytes words)[8 * i + j] = LittleEndian.byte words[i] j := by
      have hsome := getElem?_wordsBytes words i hj
      rw [List.getElem?_eq_getElem hlt, List.getElem?_eq_getElem hi] at hsome
      exact Option.some.inj hsome
    rw [BitVec.add_assoc, ← BitVec.ofNat_add]
    exact hread.trans (congrArg Except.ok hbyte)
  rw [SoftMMU.read64, readInteger_of_bytes hbytes, LittleEndian.assemble_byte]

/-- What a decoder of the initial stack finds, from `m_stack_top` on: the number of arguments,
their pointers and a zero, the pointers of the environment and a zero, and the auxiliary vector,
with the strings and bytes that the pointers name, none of which overlap. -/
structure StackDecodes (launch : Launch) (host : HostIdentity) (mmu : SoftMMU) (stackTop : U64)
    (argv envp : List U64) (auxv : List (U64 × U64)) (execfn platform random : U64) : Prop where
  argv_length : argv.length = launch.arguments.length
  envp_length : envp.length = launch.environment.length
  table : ∀ i, (h : i < (stackTable argv envp auxv).length) →
    mmu.read64 (stackTop + BitVec.ofNat 64 (8 * i)) = .ok (stackTable argv envp auxv)[i]
  auxv_end : ∃ entries, auxv = entries ++ [(atNull, 0)] ∧ ∀ entry ∈ entries, entry.1 ≠ atNull
  auxv_execfn : (atExecfn, execfn) ∈ auxv
  auxv_random : (atRandom, random) ∈ auxv
  arguments : ∀ (i : Nat) (address : U64) (string : List U8),
    argv[i]? = some address → launch.arguments[i]? = some string →
      StringAt mmu address string ∧
        ∀ limit, string.length < limit → mmu.readCString address limit = .ok string
  environment : ∀ (i : Nat) (address : U64) (string : List U8),
    envp[i]? = some address → launch.environment[i]? = some string →
      StringAt mmu address string ∧
        ∀ limit, string.length < limit → mmu.readCString address limit = .ok string
  executable : StringAt mmu execfn (stringBytes launch.executablePath)
  random_bytes : ∀ i < 16, mmu.read8 (random + BitVec.ofNat 64 i) = .ok (host.random i)
  apart : (stackBlocks launch host stackTop (stackTable argv envp auxv) argv envp execfn platform
    random).Pairwise Block.Below

/-- A mapped stack region is an empty stack. -/
theorem stacked_of_mapZeroed {mapped : SoftMMU} (hwf : RegionsWellFormed mmu.regions)
    (h : mapZeroed (stackBase - stackSize) stackSize (protRead ||| protWrite) "[stack]" mmu =
      .ok () mapped) : Stacked ⟨mapped, stackBase⟩ [] := by
  rcases mapZeroed_eq_ok h with ⟨rfl, hfree⟩
  have hwf' := hfree.regionsWellFormed hwf
  refine ⟨hwf', ?_, Nat.le_refl _, nofun, List.Pairwise.nil, nofun⟩
  intro a hlow hhigh
  have hcontains : (Region.ofZeroes (pageAlignDown (stackBase - stackSize))
      (pageAlignUp stackSize) (protRead ||| protWrite) "[stack]").contains a = true := by
    rw [hfree.wellFormed.contains_iff]
    have hbase : (pageAlignDown (stackBase - stackSize)).toNat = stackLow := by decide
    have hend : stackLow + (pageAlignUp stackSize).toNat = stackBase.toNat := by decide
    change (pageAlignDown (stackBase - stackSize)).toNat ≤ a.toNat ∧ a.toNat <
      (pageAlignDown (stackBase - stackSize)).toNat + (pageAlignUp stackSize).toNat
    omega
  change Option.map Cell.prot ((mmu.withRegion _).addressMap a) = _
  rw [hfree.addressMap hwf, AddressMap.fill_apply, if_pos hcontains]
  rfl

/-- A string whose block has been pushed can be read. -/
theorem Stacked.stringAt (h : Stacked state blocks) {address : U64} {string : List U8}
    (hblock : ⟨address, string ++ [0]⟩ ∈ blocks) (hlow : stackLow ≤ state.stackTop.toNat) :
    StringAt state.mmu address string :=
  fun _ hi => h.read8 hblock hlow hi

/-- The blocks of strings are at their addresses. -/
theorem stringBlock_mem {addresses : List U64} {strings : List (List U8)} {i : Nat}
    {address : U64} {string : List U8} (haddress : addresses[i]? = some address)
    (hstring : strings[i]? = some string) :
    ⟨address, string ++ [0]⟩ ∈ stringBlocks addresses strings := by
  have hblock : (stringBlocks addresses strings)[i]? = some ⟨address, string ++ [0]⟩ := by
    rw [stringBlocks, List.getElem?_zipWith, haddress, hstring]
  exact List.mem_of_getElem? hblock

/-- Only the last entry of the auxiliary vector is `AT_NULL`. -/
theorem auxiliaryVector_end (program : LoadedProgram) (host : HostIdentity)
    (platform random execfn : U64) :
    ∃ entries, auxiliaryVector program host platform random execfn = entries ++ [(atNull, 0)] ∧
      ∀ entry ∈ entries, entry.1 ≠ atNull := by
  refine ⟨(auxiliaryVector program host platform random execfn).dropLast, rfl, ?_⟩
  intro entry hentry
  have htag : entry.1 ∈ ((auxiliaryVector program host platform random execfn).dropLast).map
      Prod.fst := List.mem_map_of_mem hentry
  change entry.1 ∈ [atPhdr, atPhent, atPhnum, atPagesz, atBase, atFlags, atEntry, atUid, atEuid,
    atGid, atEgid, atPlatform, atHwcap, atClktck, atSecure, atRandom, atHwcap2, atExecfn] at htag
  intro hnull
  rw [hnull] at htag
  exact absurd htag (by decide)

/-- After `setup_stack` on the stack that `load` maps, the arguments and the environment can be
decoded from `m_stack_top` on. -/
theorem setupStack_decodes {mapped : SoftMMU} {launch : Launch} {program : LoadedProgram}
    {host : HostIdentity} (hreachable : Reachable mmu)
    (hmap : mapZeroed (stackBase - stackSize) stackSize (protRead ||| protWrite) "[stack]" mmu =
      .ok () mapped)
    (hnul : ∀ string ∈ launch.arguments ++ launch.environment, 0 ∉ string)
    (hfits : stackDemand launch ≤ stackSize.toNat) :
    ∃ state', setupStack launch program host ⟨mapped, stackBase⟩ = .ok () state' ∧
      ∃ argv envp execfn platform random,
        StackDecodes launch host state'.mmu state'.stackTop argv envp
          (auxiliaryVector program host platform random execfn) execfn platform random := by
  have hempty := stacked_of_mapZeroed hreachable.regionsWellFormed hmap
  rcases @setupStack_stacked _ launch program host hempty hfits with
    ⟨state', argv, envp, execfn, platform, random, hrun, hargv, henvp, hlow, hstacked⟩
  have hstrings : ∀ {addresses : List U64} {strings : List (List U8)},
      (∀ block ∈ stringBlocks addresses strings, block ∈ stackBlocks launch host state'.stackTop
        (stackTable argv envp (auxiliaryVector program host platform random execfn)) argv envp
        execfn platform random) →
      (∀ string ∈ strings, 0 ∉ string) →
      ∀ (i : Nat) (address : U64) (string : List U8), addresses[i]? = some address →
        strings[i]? = some string → StringAt state'.mmu address string ∧
          ∀ limit, string.length < limit → state'.mmu.readCString address limit = .ok string := by
    intro addresses strings hblocks hnul' i address string haddress hstring
    have hat := hstacked.stringAt (hblocks _ (stringBlock_mem haddress hstring)) hlow
    exact ⟨hat, fun limit => readCString_of_stringAt hat
      (hnul' string (List.mem_of_getElem? hstring))⟩
  refine ⟨state', hrun, argv, envp, execfn, platform, random, hargv, henvp, ?_,
    auxiliaryVector_end program host platform random execfn, by simp [auxiliaryVector],
    by simp [auxiliaryVector], ?_, ?_, ?_, ?_, hstacked.apart⟩
  · intro i hi
    exact hstacked.read64 List.mem_cons_self hlow hi
  · exact hstrings (fun block hblock => by simp [stackBlocks, hblock])
      fun string hstring => hnul string (List.mem_append_left _ hstring)
  · exact hstrings (fun block hblock => by simp [stackBlocks, hblock])
      fun string hstring => hnul string (List.mem_append_right _ hstring)
  · exact hstacked.stringAt (by simp [stackBlocks]) hlow
  · intro i hi
    have hblock : ⟨random, (List.range 16).map host.random⟩ ∈ stackBlocks launch host
        state'.stackTop (stackTable argv envp (auxiliaryVector program host platform random
          execfn)) argv envp execfn platform random := by
      simp [stackBlocks]
    have hlength : i < ((List.range 16).map host.random).length := by simpa using hi
    have hread := hstacked.read8 hblock hlow hlength
    simpa using hread

/-- A command line with one argument and one environment string. -/
def smallLaunch : Launch where
  executablePath := "a.out"
  arguments := [[0x61, 0x2e, 0x6f, 0x75, 0x74]]
  environment := [[0x4b, 0x3d, 0x76]]

/-- A host. -/
def someIdentity : HostIdentity where
  uid := 1000
  euid := 1000
  gid := 1000
  egid := 1000
  clockTicks := 100
  random := fun i => BitVec.ofNat 8 (7 * i)

/-- The stack of the small command line on an empty memory map. -/
theorem setupStack_decodes_small :
    ∃ mapped state', mapZeroed (stackBase - stackSize) stackSize (protRead ||| protWrite)
        "[stack]" {} = .ok () mapped ∧
      setupStack smallLaunch {} someIdentity ⟨mapped, stackBase⟩ = .ok () state' ∧
      ∃ argv envp execfn platform random,
        StackDecodes smallLaunch someIdentity state'.mmu state'.stackTop argv envp
          (auxiliaryVector {} someIdentity platform random execfn) execfn platform random := by
  have hmap : mapZeroed (stackBase - stackSize) stackSize (protRead ||| protWrite) "[stack]" {} =
      .ok () _ := eq_ok_of_returned (by decide)
  rcases setupStack_decodes reachable_empty hmap (by decide : ∀ string ∈
    smallLaunch.arguments ++ smallLaunch.environment, 0 ∉ string) (by decide) with
    ⟨state', hrun, hdecodes⟩
  exact ⟨_, state', hmap, hrun, hdecodes⟩

end LUE
