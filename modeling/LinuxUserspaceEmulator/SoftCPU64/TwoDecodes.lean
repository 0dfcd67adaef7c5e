import LinuxUserspaceEmulator.SoftCPU64.OperandForms
import LinuxUserspaceEmulator.SoftCPU64.TwoRuns

/-!
# Two runs decode the same instruction

Instruction bytes are fetched without shadow, so two states that agree on the code decode the
same prefixes, opcode and ModRM byte.  The operand they decode is the same unless a register
that feeds its address is uninitialized; then the instruction is tainted.

Main results:

- Theorem `decodeInstruction_same`: the same prefixes and opcode.
- Theorem `twoRuns_decodeRmOperand`: the same operand, or a tainted instruction.
- Theorem `untainted_decodeRmOperand`: clear address registers leave the instruction untainted.
-/

namespace LUE

open StateExcept

namespace SoftCPU64

variable {last : Nat} {P : Prop} {s t s' t' : Emulator} {α : Type}

/-! ## Fetching -/

/-- The last address is not in any region, so a byte that is read has a successor. -/
theorem toNat_succ_of_read8 {mmu : SoftMMU} {address : U64} {byte : U8}
    (h : mmu.read8 address = .ok byte) : (address + 1).toNat = address.toNat + 1 := by
  rcases except_bind_eq_ok_iff.mp h with ⟨region, hregion, -⟩
  have hfound := (SoftMMU.regionFor_eq_ok_iff.mp hregion).1
  have hcontains : region.contains address = true := SegmentList.lookup_covers hfound
  simp only [Region.contains, Bool.and_eq_true, decide_eq_true_eq] at hcontains
  have hlt : address.toNat < region.endAddress.toNat := hcontains.2
  have hbound := region.endAddress.isLt
  rw [BitVec.toNat_add]
  exact Nat.mod_eq_of_lt (by simp; omega)

theorem fetch8_eq_ok_iff {byte : U8} :
    fetch8 s = .ok byte s' ↔
      s.mmu.read8 s.cpu.decodePc = .ok byte ∧ s' = atDecodePc s (s.cpu.decodePc + 1) := by
  rw [fetch8, bind_of_ok (getCPU_apply s), bind_of_ok (modifyCPU_apply _ s), readMMU_eq_ok_iff,
    eq_comm (a := s')]
  rfl

/-- A fetched byte is behind the decoder. -/
theorem position_fetch8 {byte : U8} (h : fetch8 s = .ok byte s') :
    position s' = position s + 1 := by
  rcases fetch8_eq_ok_iff.mp h with ⟨hread, rfl⟩
  exact toNat_succ_of_read8 hread

/-- The states with their decoders at another position that is not before. -/
theorem InStep.atDecodePc (h : InStep last true P s t) {pc : U64}
    (hposition : position s ≤ pc.toNat) :
    InStep last true P (atDecodePc s pc) (atDecodePc t pc) where
  same := h.same.withCPU (h.same.cpu.setDecodePc pc)
  untainted := h.untainted
  code := fun _ address byte byte' hfrom =>
    h.code rfl address byte byte' (Nat.le_trans hposition hfrom)

theorem twoRuns_fetch8 :
    TwoRuns last (InStep last true P) fetch8 fetch8
      fun a b s t => a = b ∧ InStep last true P s t where
  grows := by
    intro s a s' h
    have hmoved := position_fetch8 h
    omega
  related := by
    intro s t a b s' t' hst h h' hlast
    have hmoved := position_fetch8 h
    rcases fetch8_eq_ok_iff.mp h with ⟨hread, rfl⟩
    rcases fetch8_eq_ok_iff.mp h' with ⟨hread', rfl⟩
    have hpc := hst.same.cpu.decodePc
    rw [hpc] at hread' ⊢
    refine ⟨hst.code rfl _ a b (Nat.le_refl _) ?_ hread hread', hst.atDecodePc ?_⟩
    · rw [hmoved] at hlast
      exact hlast
    · exact Nat.le_trans (Nat.le_succ _) (Nat.le_of_eq hmoved.symm)

/-- Readable bytes in a row do not wrap around. -/
theorem toNat_add_of_bytes {mmu : SoftMMU} {address : U64} {bytes : Nat → U8} {count : Nat}
    (h : ∀ i < count, mmu.read8 (address + BitVec.ofNat 64 i) = .ok (bytes i)) :
    (address + BitVec.ofNat 64 count).toNat = address.toNat + count := by
  induction count with
  | zero => simp
  | succ count ih =>
      have hprevious := ih fun i hi => h i (Nat.lt_succ_of_lt hi)
      have hnext := toNat_succ_of_read8 (h count (Nat.lt_succ_self count))
      have hsum : address + BitVec.ofNat 64 (count + 1) = address + BitVec.ofNat 64 count + 1 := by
        rw [BitVec.ofNat_add, BitVec.add_assoc]
        rfl
      rw [hsum, hnext, hprevious, Nat.add_assoc]

/-- What a fetch of several bytes has read, and where it leaves the decoder. -/
theorem fetchInteger_bytes {count : Nat} {value : U64} (h : fetchInteger count s = .ok value s') :
    ∃ bytes : Nat → U8,
      (∀ i < count, s.mmu.read8 (s.cpu.decodePc + BitVec.ofNat 64 i) = .ok (bytes i)) ∧
        value = LittleEndian.assemble bytes count ∧
          s' = atDecodePc s (s.cpu.decodePc + BitVec.ofNat 64 count) := by
  rw [fetchInteger, bind_of_ok (getCPU_apply s)] at h
  rcases bind_eq_ok_iff.mp h with ⟨read, middle, hread, hrest⟩
  rcases readMMU_eq_ok_iff.mp hread with ⟨hvalue, rfl⟩
  cases hrest
  rcases SoftMMU.readInteger_bytes hvalue with ⟨bytes, hbytes, hassemble⟩
  exact ⟨bytes, hbytes, hassemble, rfl⟩

theorem twoRuns_fetchInteger (count : Nat) :
    TwoRuns last (InStep last true P) (fetchInteger count) (fetchInteger count)
      fun a b s t => a = b ∧ InStep last true P s t where
  grows := by
    intro s a s' h
    rcases fetchInteger_bytes h with ⟨bytes, hbytes, -, rfl⟩
    exact Nat.le_trans (Nat.le_add_right _ count) (Nat.le_of_eq (toNat_add_of_bytes hbytes).symm)
  related := by
    intro s t a b s' t' hst h h' hlast
    rcases fetchInteger_bytes h with ⟨bytes, hbytes, rfl, rfl⟩
    rcases fetchInteger_bytes h' with ⟨bytes', hbytes', rfl, rfl⟩
    rw [hst.same.cpu.decodePc] at hbytes' ⊢
    have hend := toNat_add_of_bytes hbytes
    have hbound : s.cpu.decodePc.toNat + count ≤ last := by
      rw [← hend]
      exact hlast
    refine ⟨LittleEndian.assemble_congr fun i hi => ?_, hst.atDecodePc ?_⟩
    · have hposition : (s.cpu.decodePc + BitVec.ofNat 64 i).toNat = s.cpu.decodePc.toNat + i :=
        toNat_add_of_bytes fun j hj => hbytes j (Nat.lt_trans hj hi)
      refine hst.code rfl _ _ _ ?_ ?_ (hbytes i hi) (hbytes' i hi)
      · rw [hposition]
        exact Nat.le_add_right _ i
      · rw [hposition]
        omega
    · rw [hend]
      exact Nat.le_add_right _ count

/-- A fetch and a function of its value. -/
theorem twoRuns_fetchThen {x : EmulatorProgram α} {β : Type} (f : α → β)
    (hx : TwoRuns last (InStep last true P) x x fun a b s t => a = b ∧ InStep last true P s t) :
    TwoRuns last (InStep last true P) (do let a ← x; return f a) (do let a ← x; return f a)
      fun a b s t => a = b ∧ InStep last true P s t :=
  hx.bindSame fun _ => Lockstep.pure fun _ _ hst => ⟨rfl, hst⟩

theorem twoRuns_fetchI8 :
    TwoRuns last (InStep last true P) fetchI8 fetchI8
      fun a b s t => a = b ∧ InStep last true P s t :=
  twoRuns_fetchThen _ twoRuns_fetch8

theorem twoRuns_fetchI32 :
    TwoRuns last (InStep last true P) fetchI32 fetchI32
      fun a b s t => a = b ∧ InStep last true P s t :=
  twoRuns_fetchThen _ (twoRuns_fetchInteger 4)

theorem twoRuns_fetchImmediate (width : Width) :
    TwoRuns last (InStep last true P) (fetchImmediate width) (fetchImmediate width)
      fun a b s t => a = b ∧ InStep last true P s t := by
  cases width with
  | w8 => exact twoRuns_fetchThen _ twoRuns_fetch8
  | w16 => exact twoRuns_fetchInteger 2
  | w32 => exact twoRuns_fetchThen _ (twoRuns_fetchInteger 4)
  | w64 => exact twoRuns_fetchThen _ (twoRuns_fetchInteger 4)

theorem twoRuns_fetchModrm (prefixes : Prefixes) :
    TwoRuns last (InStep last true P) (fetchModrm prefixes) (fetchModrm prefixes)
      fun a b s t => a = b ∧ InStep last true P s t :=
  twoRuns_fetchThen _ twoRuns_fetch8

/-! ## Addresses -/

/-- Values that come with a taint are the same unless they are tainted. -/
def SameUntainted {β : Type} (tainted : β → Bool) (value value' : β) : Prop :=
  tainted value = tainted value' ∧ (tainted value = false → value = value')

theorem SameUntainted.refl {β : Type} (tainted : β → Bool) (value : β) :
    SameUntainted tainted value value :=
  ⟨rfl, fun _ => rfl⟩

/-- A register that feeds an address. -/
theorem twoRuns_addressRegister (register : Register) :
    TwoRuns last (InStep last true P) (addressRegister register) (addressRegister register)
      fun a b s t => SameUntainted Prod.snd a b ∧ InStep last true P s t where
  grows := by
    intro s a s' h
    cases h
    exact Nat.le_refl _
  related := by
    intro s t a b s' t' hst h h' _
    cases h
    cases h'
    refine ⟨⟨?_, fun hclear => ?_⟩, hst⟩
    · rw [hst.same.cpu.gprShadow]
    · have hshadow : s.cpu.gprShadow register = 0 := by simpa using hclear
      have hregister := hst.same.cpu.gpr register
      rw [hshadow] at hregister
      rw [hst.same.cpu.gprShadow]
      exact congrArg (·, s.cpu.gprShadow register != 0) hregister.eq_of_zero

/-- The part of `decode_memory_address` after the index register. -/
def sibBase (prefixes : Prefixes) (modrm : ModRM) (sib : U8) (index : U64 × Bool) :
    EmulatorProgram AddressParts := do
  let scale := (1 : U64) <<< (sib >>> 6 &&& 3).toNat
  let baseLow := sib &&& 7
  if modrm.mod = 0 && baseLow = 5 then
    let displacement ← fetchI32
    return {
      index := index.1, scale := scale, displacement := displacement, tainted := index.2 }
  else
    let base ← addressRegister (registerAt baseLow prefixes.rexB)
    return {
      base := base.1, index := index.1, scale := scale, tainted := index.2 || base.2 }

theorem decodeSib_eq (prefixes : Prefixes) (modrm : ModRM) :
    decodeSib prefixes modrm = (do
      let sib ← fetch8
      if sib >>> 3 &&& 7 ≠ 4 || prefixes.rexX then
        addressRegister (registerAt (sib >>> 3 &&& 7) prefixes.rexX) >>=
          sibBase prefixes modrm sib
      else sibBase prefixes modrm sib (0, false)) :=
  rfl

theorem twoRuns_sibBase (prefixes : Prefixes) (modrm : ModRM) (sib : U8)
    {index index' : U64 × Bool} (hindex : SameUntainted Prod.snd index index') :
    TwoRuns last (InStep last true P) (sibBase prefixes modrm sib index)
      (sibBase prefixes modrm sib index')
      fun a b s t => SameUntainted AddressParts.tainted a b ∧ InStep last true P s t := by
  refine Lockstep.ite (fun _ => ?_) fun _ => ?_
  · refine twoRuns_fetchI32.bindSame fun displacement => Lockstep.pure fun _ _ hst => ⟨?_, hst⟩
    refine ⟨hindex.1, fun hclear => ?_⟩
    rw [hindex.2 hclear]
  · refine (twoRuns_addressRegister _).bindRelated (SameUntainted.refl Prod.snd)
      fun base base' hbase => Lockstep.pure fun _ _ hst => ⟨⟨?_, fun hclear => ?_⟩, hst⟩
    · exact congrArg₂ (· || ·) hindex.1 hbase.1
    · have hboth := Bool.or_eq_false_iff.mp hclear
      rw [hindex.2 hboth.1, hbase.2 hboth.2]

theorem twoRuns_decodeSib (prefixes : Prefixes) (modrm : ModRM) :
    TwoRuns last (InStep last true P) (decodeSib prefixes modrm) (decodeSib prefixes modrm)
      fun a b s t => SameUntainted AddressParts.tainted a b ∧ InStep last true P s t := by
  rw [decodeSib_eq]
  refine twoRuns_fetch8.bindSame fun sib => Lockstep.ite (fun _ => ?_) fun _ => ?_
  · exact (twoRuns_addressRegister _).bindRelated (SameUntainted.refl Prod.snd)
      fun _ _ hindex => twoRuns_sibBase prefixes modrm sib hindex
  · exact twoRuns_sibBase prefixes modrm sib (SameUntainted.refl Prod.snd _)

theorem twoRuns_decodeAddressParts (prefixes : Prefixes) (modrm : ModRM) :
    TwoRuns last (InStep last true P) (decodeAddressParts prefixes modrm)
      (decodeAddressParts prefixes modrm)
      fun a b s t => SameUntainted AddressParts.tainted a b ∧ InStep last true P s t := by
  refine Lockstep.ite (fun _ => twoRuns_decodeSib prefixes modrm) fun _ =>
    Lockstep.ite (fun _ => ?_) fun _ => ?_
  · exact twoRuns_fetchI32.bindSame fun displacement => Lockstep.pure fun _ _ hst =>
      ⟨SameUntainted.refl _ _, hst⟩
  · refine (twoRuns_addressRegister _).bindRelated (SameUntainted.refl Prod.snd)
      fun base base' hbase => Lockstep.pure fun _ _ hst => ⟨⟨hbase.1, fun hclear => ?_⟩, hst⟩
    rw [hbase.2 hclear]

/-- The end of `decode_memory_address`: the sum of the parts, and the taint of the registers. -/
def sumAddress (prefixes : Prefixes) (parts : AddressParts) (displacement : U64) :
    EmulatorProgram DecodedAddress := do
  let cpu ← getCPU
  let address :=
    if parts.ripRelative then cpu.decodePc + displacement
    else parts.base + parts.index * parts.scale + displacement
  let address := if prefixes.address32 then address &&& 0xffffffff else address
  let address :=
    match prefixes.segment with
    | .fs => address + cpu.fsBase
    | .gs => address + cpu.gsBase
    | _ => address
  if parts.tainted then
    modifyCPU fun cpu => cpu.warnUninitializedPointer.taint
  return ⟨address, parts.ripRelative, displacement⟩

theorem decodeMemoryAddress_eq (prefixes : Prefixes) (modrm : ModRM) :
    decodeMemoryAddress prefixes modrm = (do
      let parts ← decodeAddressParts prefixes modrm
      if modrm.mod = 1 then fetchI8 >>= sumAddress prefixes parts
      else if modrm.mod = 2 then fetchI32 >>= sumAddress prefixes parts
      else sumAddress prefixes parts parts.displacement) :=
  rfl

/-- The state after the parts of an address were added up. -/
def afterSum (parts : AddressParts) (emulator : Emulator) : Emulator :=
  if parts.tainted then emulator.withCPU emulator.cpu.warnUninitializedPointer.taint else emulator

/-- The sum depends on the parts, the displacement, the segment bases and the decoder. -/
theorem sumAddress_eq_ok {prefixes : Prefixes} {parts : AddressParts} {displacement : U64}
    {address : DecodedAddress} (h : sumAddress prefixes parts displacement s = .ok address s') :
    s' = afterSum parts s ∧ ∀ t : Emulator, t.cpu.decodePc = s.cpu.decodePc →
      t.cpu.fsBase = s.cpu.fsBase → t.cpu.gsBase = s.cpu.gsBase →
      sumAddress prefixes parts displacement t = .ok address (afterSum parts t) := by
  unfold sumAddress afterSum at *
  rw [bind_of_ok (getCPU_apply s)] at h
  cases htainted : parts.tainted with
  | true =>
      simp only [htainted, if_true] at h ⊢
      cases h
      refine ⟨rfl, fun t hpc hfs hgs => ?_⟩
      rw [bind_of_ok (getCPU_apply t), hpc, hfs, hgs]
      rfl
  | false =>
      simp only [htainted] at h ⊢
      cases h
      refine ⟨rfl, fun t hpc hfs hgs => ?_⟩
      rw [bind_of_ok (getCPU_apply t), hpc, hfs, hgs]
      rfl

theorem position_afterSum (parts : AddressParts) (emulator : Emulator) :
    position (afterSum parts emulator) = position emulator := by
  unfold afterSum warnUninitializedPointer
  split
  · split <;> rfl
  · rfl

/-- Two sums of the same parts: the same address, or a tainted instruction. -/
theorem twoRuns_sumAddress (prefixes : Prefixes) {parts parts' : AddressParts}
    {displacement displacement' : U64} (hparts : SameUntainted AddressParts.tainted parts parts')
    (hdisplacement : parts.tainted = false → displacement = displacement') :
    TwoRuns last (InStep last true P) (sumAddress prefixes parts displacement)
      (sumAddress prefixes parts' displacement')
      fun a b => InStep last true (P ∧ a = b) where
  grows := by
    intro s a s' h
    rw [(sumAddress_eq_ok h).1, position_afterSum]
  related := by
    intro s t a b s' t' hst h h' _
    rcases sumAddress_eq_ok h with ⟨rfl, hother⟩
    rcases sumAddress_eq_ok h' with ⟨rfl, -⟩
    unfold afterSum
    rw [← hparts.1]
    cases htainted : parts.tainted with
    | true =>
        refine hst.withCPU hst.same.cpu.warnUninitializedPointer.taint ?_ nofun
        unfold warnUninitializedPointer
        split <;> rfl
    | false =>
        rw [← hparts.2 htainted, ← hdisplacement htainted] at h'
        have hsame := hother t hst.same.cpu.decodePc
          (hst.same.cpu.field SoftCPU64.fsBase fun _ _ => rfl)
          (hst.same.cpu.field SoftCPU64.gsBase fun _ _ => rfl)
        rw [hsame] at h'
        cases h'
        exact hst.mono fun hP => ⟨hP, rfl⟩

/-- The same address, or a tainted instruction. -/
theorem twoRuns_decodeMemoryAddress (prefixes : Prefixes) (modrm : ModRM) :
    TwoRuns last (InStep last true P) (decodeMemoryAddress prefixes modrm)
      (decodeMemoryAddress prefixes modrm) fun a b => InStep last true (P ∧ a = b) := by
  rw [decodeMemoryAddress_eq]
  refine (twoRuns_decodeAddressParts prefixes modrm).bindRelated
    (SameUntainted.refl AddressParts.tainted) fun parts parts' hparts => ?_
  refine Lockstep.ite (fun _ => ?_) fun _ => Lockstep.ite (fun _ => ?_) fun _ => ?_
  · exact twoRuns_fetchI8.bindSame fun _ => twoRuns_sumAddress prefixes hparts fun _ => rfl
  · exact twoRuns_fetchI32.bindSame fun _ => twoRuns_sumAddress prefixes hparts fun _ => rfl
  · exact twoRuns_sumAddress prefixes hparts fun hclear => by rw [hparts.2 hclear]

/-- The same operand, or a tainted instruction. -/
theorem twoRuns_decodeRmOperand (prefixes : Prefixes) (modrm : ModRM) :
    TwoRuns last (InStep last true P) (decodeRmOperand prefixes modrm)
      (decodeRmOperand prefixes modrm) fun a b => InStep last true (P ∧ a = b) := by
  refine Lockstep.ite (fun _ => ?_) fun _ => ?_
  · exact Lockstep.pure fun _ _ hst => hst.mono fun hP => ⟨hP, rfl⟩
  · refine (twoRuns_decodeMemoryAddress prefixes modrm).bind fun address address' =>
      Lockstep.pure fun _ _ hst => hst.mono fun hP => ⟨hP.1, ?_⟩
    rw [hP.2]

/-! ## Clear address registers -/

/-- The registers that feed the address of a memory operand. -/
def addressRegisters (prefixes : Prefixes) (modrm : ModRM) (sib : U8) : List Register :=
  let rmLow := modrm.byte &&& 7
  if rmLow = 4 then
    (if sib >>> 3 &&& 7 ≠ 4 || prefixes.rexX then [registerAt (sib >>> 3 &&& 7) prefixes.rexX]
      else []) ++
    (if modrm.mod = 0 && sib &&& 7 = 5 then [] else [registerAt (sib &&& 7) prefixes.rexB])
  else if modrm.mod = 0 && rmLow = 5 then []
  else [registerAt rmLow prefixes.rexB]

/-- The registers that feed the address of the operand after a ModRM byte have clear shadows.
With `rmLow = 4` the decoder is at the SIB byte. -/
def ClearAddress (prefixes : Prefixes) (modrm : ModRM) (emulator : Emulator) : Prop :=
  modrm.isRegister = false → ∀ sib,
    (modrm.byte &&& 7 = 4 → emulator.mmu.read8 emulator.cpu.decodePc = .ok sib) →
      ∀ register ∈ addressRegisters prefixes modrm sib, emulator.cpu.gprShadow register = 0

/-- A program that only moves the decoder. -/
def OnlyMoves {α : Type} (program : EmulatorProgram α) : Prop :=
  ∀ {emulator emulator' : Emulator} {a : α}, program emulator = .ok a emulator' →
    ∃ pc, emulator' = atDecodePc emulator pc

theorem onlyMoves_fetch8 : OnlyMoves fetch8 :=
  fun h => ⟨_, (fetch8_eq_ok_iff.mp h).2⟩

theorem onlyMoves_fetchI8 : OnlyMoves fetchI8 := by
  intro emulator emulator' a h
  rcases bind_eq_ok_iff.mp h with ⟨byte, middle, hfetch, hreturn⟩
  cases hreturn
  exact onlyMoves_fetch8 hfetch

theorem onlyMoves_fetchI32 : OnlyMoves fetchI32 := by
  intro emulator emulator' a h
  rcases bind_eq_ok_iff.mp h with ⟨value, middle, hfetch, hreturn⟩
  cases hreturn
  rcases fetchInteger_bytes hfetch with ⟨bytes, -, -, hmoved⟩
  exact ⟨_, hmoved⟩

/-- The taint of a register that feeds an address. -/
theorem addressRegister_apply (register : Register) (emulator : Emulator) :
    addressRegister register emulator =
      .ok (emulator.cpu.reg register, emulator.cpu.gprShadow register != 0) emulator :=
  rfl

/-- With a clear index and a clear base the parts of a SIB address are untainted. -/
theorem untainted_sibBase {prefixes : Prefixes} {modrm : ModRM} {sib : U8} {index : U64 × Bool}
    {parts : AddressParts} (hindex : index.2 = false)
    (hbase : ¬(modrm.mod = 0 && sib &&& 7 = 5) = true →
      s.cpu.gprShadow (registerAt (sib &&& 7) prefixes.rexB) = 0)
    (h : sibBase prefixes modrm sib index s = .ok parts s') :
    parts.tainted = false ∧ ∃ pc, s' = atDecodePc s pc := by
  unfold sibBase at h
  by_cases hnone : (modrm.mod = 0 && sib &&& 7 = 5) = true
  · rw [if_pos hnone] at h
    rcases bind_eq_ok_iff.mp h with ⟨displacement, moved, hmove, hreturn⟩
    rcases onlyMoves_fetchI32 hmove with ⟨pc, rfl⟩
    cases hreturn
    exact ⟨hindex, pc, rfl⟩
  · rw [if_neg hnone, bind_of_ok (addressRegister_apply _ _)] at h
    cases h
    refine ⟨?_, s.cpu.decodePc, rfl⟩
    simp only [hindex, Bool.false_or]
    exact bne_eq_false_iff_eq.mpr (hbase hnone)

/-- With clear registers the parts of a SIB address are untainted. -/
theorem untainted_decodeSib {prefixes : Prefixes} {modrm : ModRM} {parts : AddressParts}
    (hsib : modrm.byte &&& 7 = 4)
    (hclear : ∀ sib, s.mmu.read8 s.cpu.decodePc = .ok sib →
      ∀ register ∈ addressRegisters prefixes modrm sib, s.cpu.gprShadow register = 0)
    (h : decodeSib prefixes modrm s = .ok parts s') :
    parts.tainted = false ∧ ∃ pc, s' = atDecodePc s pc := by
  rw [decodeSib_eq] at h
  rcases bind_eq_ok_iff.mp h with ⟨sib, middle, hfetch, hrest⟩
  rcases fetch8_eq_ok_iff.mp hfetch with ⟨hread, rfl⟩
  have hregisters := hclear sib hread
  rw [addressRegisters, if_pos hsib] at hregisters
  have hbase : ¬(modrm.mod = 0 && sib &&& 7 = 5) = true →
      s.cpu.gprShadow (registerAt (sib &&& 7) prefixes.rexB) = 0 := by
    intro hnone
    rw [if_neg hnone] at hregisters
    exact hregisters _ (List.mem_append_right _ List.mem_cons_self)
  by_cases hindexed : (decide (sib >>> 3 &&& 7 ≠ 4) || prefixes.rexX) = true
  · rw [if_pos hindexed, bind_of_ok (addressRegister_apply _ _)] at hrest
    rw [if_pos hindexed] at hregisters
    have hshadow := hregisters _ (List.mem_append_left _ List.mem_cons_self)
    rcases untainted_sibBase (s := atDecodePc s (s.cpu.decodePc + 1))
      (bne_eq_false_iff_eq.mpr hshadow) hbase hrest with ⟨huntainted, pc, rfl⟩
    exact ⟨huntainted, pc, rfl⟩
  · rw [if_neg hindexed] at hrest
    rcases untainted_sibBase (s := atDecodePc s (s.cpu.decodePc + 1)) rfl hbase hrest with
      ⟨huntainted, pc, rfl⟩
    exact ⟨huntainted, pc, rfl⟩

/-- With clear registers the parts of an address are untainted. -/
theorem untainted_decodeAddressParts {prefixes : Prefixes} {modrm : ModRM} {parts : AddressParts}
    (hmemory : modrm.isRegister = false) (hclear : ClearAddress prefixes modrm s)
    (h : decodeAddressParts prefixes modrm s = .ok parts s') :
    parts.tainted = false ∧ ∃ pc, s' = atDecodePc s pc := by
  have hregisters := hclear hmemory
  unfold decodeAddressParts at h
  by_cases hsib : modrm.byte &&& 7 = 4
  · rw [if_pos hsib] at h
    exact untainted_decodeSib hsib (fun sib hread => hregisters sib fun _ => hread) h
  · rw [if_neg hsib] at h
    have hall := hregisters 0 fun hfour => absurd hfour hsib
    rw [addressRegisters, if_neg hsib] at hall
    by_cases hnone : (decide (modrm.mod = 0) && decide (modrm.byte &&& 7 = 5)) = true
    · rw [if_pos hnone] at h
      rcases bind_eq_ok_iff.mp h with ⟨displacement, moved, hmove, hreturn⟩
      rcases onlyMoves_fetchI32 hmove with ⟨pc, rfl⟩
      cases hreturn
      exact ⟨rfl, pc, rfl⟩
    · rw [if_neg hnone, bind_of_ok (addressRegister_apply _ _)] at h
      cases h
      rw [if_neg hnone] at hall
      exact ⟨bne_eq_false_iff_eq.mpr (hall _ List.mem_cons_self), s.cpu.decodePc, rfl⟩

/-- With clear registers decoding an address leaves the taint of the instruction alone. -/
theorem untainted_decodeMemoryAddress {prefixes : Prefixes} {modrm : ModRM}
    {address : DecodedAddress} (hmemory : modrm.isRegister = false)
    (hclear : ClearAddress prefixes modrm s)
    (h : decodeMemoryAddress prefixes modrm s = .ok address s') :
    s'.cpu.currentTaint = s.cpu.currentTaint := by
  rw [decodeMemoryAddress_eq] at h
  rcases bind_eq_ok_iff.mp h with ⟨parts, middle, hparts, hrest⟩
  rcases untainted_decodeAddressParts hmemory hclear hparts with ⟨huntainted, pc, rfl⟩
  have hsum : ∀ {displacement : U64} {before : Emulator},
      sumAddress prefixes parts displacement before = .ok address s' → s' = before := by
    intro displacement before hrun
    have hafter := (sumAddress_eq_ok hrun).1
    rwa [afterSum, huntainted] at hafter
  by_cases hone : modrm.mod = 1
  · rw [if_pos hone] at hrest
    rcases bind_eq_ok_iff.mp hrest with ⟨displacement, moved, hmove, hrun⟩
    rcases onlyMoves_fetchI8 hmove with ⟨pc', rfl⟩
    rw [hsum hrun]
    rfl
  · rw [if_neg hone] at hrest
    by_cases htwo : modrm.mod = 2
    · rw [if_pos htwo] at hrest
      rcases bind_eq_ok_iff.mp hrest with ⟨displacement, moved, hmove, hrun⟩
      rcases onlyMoves_fetchI32 hmove with ⟨pc', rfl⟩
      rw [hsum hrun]
      rfl
    · rw [if_neg htwo] at hrest
      rw [hsum hrest]
      rfl

/-- With clear registers decoding an operand leaves the taint of the instruction alone. -/
theorem untainted_decodeRmOperand {prefixes : Prefixes} {modrm : ModRM} {operand : Operand}
    (hclear : ClearAddress prefixes modrm s)
    (h : decodeRmOperand prefixes modrm s = .ok operand s') :
    s'.cpu.currentTaint = s.cpu.currentTaint := by
  unfold decodeRmOperand at h
  by_cases hregister : modrm.isRegister = true
  · rw [if_pos hregister] at h
    cases h
    rfl
  · rw [if_neg hregister] at h
    rcases bind_eq_ok_iff.mp h with ⟨address, middle, haddress, hreturn⟩
    cases hreturn
    exact untainted_decodeMemoryAddress (Bool.eq_false_iff.mpr hregister) hclear haddress

/-! ## Opcodes -/

/-- The loop of `read_prefixes` and the opcode after it. -/
def opcodeLoop (fuel : Nat) (prefixes : Prefixes) : EmulatorProgram (Prefixes × U8) := do
  let prefixes ← readPrefixesLoop fuel prefixes
  let opcode ← fetch8
  return (prefixes, opcode)

/-- The byte at the decoder is a prefix, and the loop goes on behind it, or it is the opcode. -/
theorem opcodeLoop_succ_eq_ok {fuel : Nat} {prefixes : Prefixes} {decoded : Prefixes × U8}
    (h : opcodeLoop (fuel + 1) prefixes s = .ok decoded s') :
    ∃ byte, s.mmu.read8 s.cpu.decodePc = .ok byte ∧
      ((∃ next, addPrefix byte prefixes = some next ∧
          opcodeLoop fuel next (atDecodePc s (s.cpu.decodePc + 1)) = .ok decoded s') ∨
        (addPrefix byte prefixes = none ∧ decoded = (prefixes, byte) ∧
          s' = atDecodePc s (s.cpu.decodePc + 1))) := by
  rcases bind_eq_ok_iff.mp h with ⟨final, middle, hloop, hrest⟩
  have hpeek := hloop
  rw [readPrefixesLoop, bind_of_ok (getCPU_apply s)] at hpeek
  rcases bind_eq_ok_iff.mp hpeek with ⟨byte, same, hread, -⟩
  rcases readMMU_eq_ok_iff.mp hread with ⟨hbyte, -⟩
  refine ⟨byte, hbyte, ?_⟩
  cases hprefixed : addPrefix byte prefixes with
  | some next =>
      rw [readPrefixesLoop_of_prefixByte hbyte hprefixed fuel] at hloop
      exact Or.inl ⟨next, rfl, bind_eq_ok_iff.mpr ⟨final, middle, hloop, hrest⟩⟩
  | none =>
      rw [readPrefixesLoop_of_opcode hbyte hprefixed fuel] at hloop
      cases hloop
      rw [bind_of_ok (fetch8_of_read hbyte)] at hrest
      cases hrest
      exact Or.inr ⟨rfl, rfl, rfl⟩

/-- The opcode is behind the decoder. -/
theorem position_opcodeLoop {fuel : Nat} {prefixes : Prefixes} {decoded : Prefixes × U8}
    (h : opcodeLoop fuel prefixes s = .ok decoded s') : position s < position s' := by
  induction fuel generalizing prefixes s with
  | zero => cases h
  | succ fuel ih =>
      rcases opcodeLoop_succ_eq_ok h with ⟨byte, hbyte, ⟨next, -, hrest⟩ | ⟨-, -, rfl⟩⟩
      · have hnext : position (atDecodePc s (s.cpu.decodePc + 1)) = position s + 1 :=
          toNat_succ_of_read8 hbyte
        have hlater := ih hrest
        omega
      · have hnext : position (atDecodePc s (s.cpu.decodePc + 1)) = position s + 1 :=
          toNat_succ_of_read8 hbyte
        omega

/-- The same prefixes and the same opcode byte, by induction on the prefixes of the first
run. -/
theorem opcodeLoop_same {fuel : Nat} {prefixes : Prefixes} {decoded decoded' : Prefixes × U8}
    (hst : InStep last true P s t) (h : opcodeLoop fuel prefixes s = .ok decoded s')
    (h' : opcodeLoop fuel prefixes t = .ok decoded' t') (hlast : position s' ≤ last) :
    decoded = decoded' ∧ InStep last true P s' t' := by
  induction fuel generalizing prefixes s t with
  | zero => cases h
  | succ fuel ih =>
      have hgrows := position_opcodeLoop h
      rcases opcodeLoop_succ_eq_ok h with ⟨byte, hbyte, hcase⟩
      rcases opcodeLoop_succ_eq_ok h' with ⟨byte', hbyte', hcase'⟩
      rw [hst.same.cpu.decodePc] at hbyte' hcase'
      have hsame : byte = byte' :=
        hst.code rfl _ _ _ (Nat.le_refl _) (Nat.lt_of_lt_of_le hgrows hlast) hbyte hbyte'
      subst hsame
      have hmoved : InStep last true P (atDecodePc s (s.cpu.decodePc + 1))
          (atDecodePc t (s.cpu.decodePc + 1)) :=
        hst.atDecodePc (Nat.le_of_lt (by rw [toNat_succ_of_read8 hbyte]; exact Nat.lt_succ_self _))
      rcases hcase with ⟨next, hnext, hrest⟩ | ⟨hopcode, rfl, rfl⟩
      · rcases hcase' with ⟨next', hnext', hrest'⟩ | ⟨hopcode', -, -⟩
        · rw [hnext] at hnext'
          cases hnext'
          exact ih hmoved hrest hrest'
        · rw [hnext] at hopcode'
          cases hopcode'
      · rcases hcase' with ⟨next', hnext', -⟩ | ⟨-, rfl, rfl⟩
        · rw [hopcode] at hnext'
          cases hnext'
        · exact ⟨rfl, hmoved⟩

/-- The two states at the start of an instruction. -/
theorem inStep_beginInstruction (hsame : s.SameInitialized t)
    (hcode : ∀ address byte byte', s.cpu.rip.toNat ≤ address.toNat → address.toNat < last →
      s.mmu.read8 address = .ok byte → t.mmu.read8 address = .ok byte' → byte = byte') :
    InStep last true True (s.withCPU (beginInstruction s.cpu))
      (t.withCPU (beginInstruction t.cpu)) where
  same := by
    refine hsame.withCPU ?_
    exact hsame.cpu.map beginInstruction (fun _ _ => rfl) rfl
  untainted := fun _ => trivial
  code := fun _ => hcode

/-- An instruction starts untainted. -/
theorem untainted_decodeInstruction {prefixes : Prefixes} {opcode : Opcode}
    (h : decodeInstruction s = .ok (prefixes, opcode) s') : s'.cpu.currentTaint = false := by
  rcases decodeInstruction_eq_ok h with ⟨pc, rfl⟩
  rfl

/-- The same prefixes and the same opcode. -/
theorem decodeInstruction_same {prefixes prefixes' : Prefixes} {opcode opcode' : Opcode}
    (hst : InStep last true True (s.withCPU (beginInstruction s.cpu))
      (t.withCPU (beginInstruction t.cpu)))
    (h : decodeInstruction s = .ok (prefixes, opcode) s')
    (h' : decodeInstruction t = .ok (prefixes', opcode') t') (hlast : position s' ≤ last) :
    (prefixes = prefixes' ∧ opcode = opcode') ∧ InStep last true True s' t' := by
  rcases bind_eq_ok_iff.mp h with ⟨first, middle, hfirst, hrest⟩
  rcases bind_eq_ok_iff.mp h' with ⟨first', middle', hfirst', hrest'⟩
  have hfetch : TwoRuns last (InStep last true True)
      (if first.2 = 0x0f then do
        let second ← fetch8
        return (first.1, Opcode.twoByte second)
      else return (first.1, Opcode.oneByte first.2))
      (if first.2 = 0x0f then do
        let second ← fetch8
        return (first.1, Opcode.twoByte second)
      else return (first.1, Opcode.oneByte first.2))
      fun a b s t => a = b ∧ InStep last true True s t :=
    Lockstep.ite (fun _ => twoRuns_fetchThen _ twoRuns_fetch8) fun _ =>
      Lockstep.pure fun _ _ hst => ⟨rfl, hst⟩
  have hmiddle := Nat.le_trans (hfetch.grows hrest) hlast
  rcases opcodeLoop_same hst hfirst hfirst' hmiddle with ⟨rfl, hstates⟩
  rcases hfetch.related hstates hrest hrest' hlast with ⟨hdecoded, hfinal⟩
  cases hdecoded
  exact ⟨⟨rfl, rfl⟩, hfinal⟩

end SoftCPU64

end LUE
