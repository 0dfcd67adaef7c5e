import LinuxUserspaceEmulator.Emulator.ImageBase
import LinuxUserspaceEmulator.Emulator.InitialStack

/-!
# The stack pointer at the entry point

The x86-64 ABI asks for a stack pointer that is a multiple of 16 when a program starts.
`setup_stack` aligns `m_stack_top` once, above the table of words.  The table has an odd
number of words beside the pointers to the strings.

Main results:

- Theorem `stackTop_of_setupStack`: the table lies below an aligned address.
- Theorem `load_eq_ok`: when loading returns.
- Theorem `load_rsp_aligned_iff`: the stack pointer is aligned exactly when the number of
  strings is odd.
-/

namespace LUE

open StateExcept SoftMMU

/-! ## Where the pushes end -/

variable {state state' : StackState}

theorem stackTop_of_push64 {value : U64} (h : push64 value state = .ok () state') :
    state'.stackTop = state.stackTop - 8 := by
  unfold push64 at h
  rw [bind_of_ok (modify_apply _ state), bind_of_ok (get_apply _)] at h
  obtain ⟨mmu, -, rfl⟩ := onPart_eq_ok_iff.mp h
  rfl

/-- Every word takes eight bytes, on a stack of any size. -/
theorem stackTop_of_pushWords {words : List U64} (h : words.forM push64 state = .ok () state') :
    state'.stackTop = state.stackTop - BitVec.ofNat 64 (8 * words.length) := by
  induction words generalizing state with
  | nil =>
      cases h
      simp
  | cons word words ih =>
      obtain ⟨_, pushed, hword, hwords⟩ := bind_eq_ok_iff.mp h
      rw [ih hwords, stackTop_of_push64 hword, List.length_cons]
      have hword : (8 : U64).toNat = 8 := rfl
      apply BitVec.eq_of_toNat_eq
      simp only [BitVec.toNat_sub, BitVec.toNat_ofNat, hword]
      omega

theorem length_of_pushStrings {strings : List (List U8)} {addresses : List U64}
    (h : strings.mapM pushString state = .ok addresses state') :
    addresses.length = strings.length := by
  induction strings generalizing state addresses with
  | nil =>
      cases h
      rfl
  | cons string strings ih =>
      rw [List.mapM_cons] at h
      obtain ⟨address, pushed, -, hrest⟩ := bind_eq_ok_iff.mp h
      obtain ⟨rest, _, hstrings, hend⟩ := bind_eq_ok_iff.mp hrest
      cases hend
      simp [ih hstrings]

/-- The table of words lies below an aligned address: it has a word for every string and
41 others. -/
theorem stackTop_of_setupStack {launch : Launch} {program : LoadedProgram}
    {host : HostIdentity} (h : setupStack launch program host state = .ok () state') :
    ∃ top : U64, state'.stackTop = (top &&& ~~~0xf) -
      BitVec.ofNat 64 (8 * (launch.arguments.length + launch.environment.length + 41)) := by
  unfold setupStack at h
  obtain ⟨argv, _, hargv, h⟩ := bind_eq_ok_iff.mp h
  obtain ⟨envp, _, henvp, h⟩ := bind_eq_ok_iff.mp h
  obtain ⟨execfn, _, -, h⟩ := bind_eq_ok_iff.mp h
  obtain ⟨platform, _, -, h⟩ := bind_eq_ok_iff.mp h
  obtain ⟨random, below, -, h⟩ := bind_eq_ok_iff.mp h
  rw [bind_of_ok (modify_apply _ _), pushTable_eq] at h
  have htop := stackTop_of_pushWords h
  rw [List.length_reverse, length_stackTable, List.length_reverse, List.length_reverse,
    length_of_pushStrings hargv, length_of_pushStrings henvp, List.length_reverse,
    List.length_reverse] at htop
  exact ⟨below.stackTop, htop⟩

/-- Aligned addresses stay aligned by pairs of words. -/
theorem aligned_sub_words_iff (top : U64) (count : Nat) :
    ((top &&& ~~~0xf) - BitVec.ofNat 64 (8 * count)).toNat % 16 = 0 ↔ count % 2 = 0 := by
  have haligned : (top &&& ~~~0xf).toNat = top.toNat / 16 * 16 :=
    toNat_and_not_lowMask (k := 4) (by decide) top
  rw [BitVec.toNat_sub, BitVec.toNat_ofNat, haligned]
  omega

/-! ## Loading -/

open Emulator

variable {files : HostFiles} {host : HostIdentity} {launch : Launch}
  {emulator emulator' : Emulator}

/-- The stack pointer at the entry point is the final `m_stack_top`. -/
theorem rsp_of_load (h : load files host launch emulator = .ok () emulator') :
    ∃ program state state', setupStack launch program host state = .ok () state' ∧
      emulator'.cpu.gpr .rsp = state'.stackTop := by
  unfold load at h
  obtain ⟨program, _, -, h⟩ := bind_eq_ok_iff.mp h
  rw [bind_of_ok (modify_apply _ _), bind_of_ok (modify_apply _ _)] at h
  obtain ⟨_, _, -, h⟩ := bind_eq_ok_iff.mp h
  rw [bind_of_ok (modify_apply _ _)] at h
  obtain ⟨_, mapped, -, h⟩ := bind_eq_ok_iff.mp h
  obtain ⟨stackTop, built, hstack, h⟩ := bind_eq_ok_iff.mp h
  unfold buildStack at hstack
  cases hrun : setupStack launch program host ⟨mapped.mmu, stackBase⟩ with
  | error e state =>
      rw [hrun] at hstack
      cases hstack
  | ok u state' =>
      rw [hrun] at hstack
      cases hstack
      cases h
      exact ⟨program, _, state', hrun, by simp [SoftCPU64.setReg]⟩

/-- The stack pointer that `load` hands to the entry point is a multiple of 16 exactly when
the number of arguments and environment strings is odd. -/
theorem load_rsp_aligned_iff (h : load files host launch emulator = .ok () emulator') :
    (emulator'.cpu.gpr .rsp).toNat % 16 = 0 ↔
      (launch.arguments.length + launch.environment.length) % 2 = 1 := by
  obtain ⟨program, state, state', hrun, hrsp⟩ := rsp_of_load h
  obtain ⟨top, htop⟩ := stackTop_of_setupStack hrun
  rw [hrsp, htop, aligned_sub_words_iff]
  omega

/-! ## Two command lines -/

/-- Every step of `loadProgram` keeps the region list well formed. -/
theorem loadProgram_wellFormed {path : String} {mmu mmu' : SoftMMU} {program : LoadedProgram}
    (hwf : RegionsWellFormed mmu.regions) (h : loadProgram files path mmu = .ok program mmu') :
    RegionsWellFormed mmu'.regions := by
  unfold loadProgram at h
  obtain ⟨object, loaded, hobject, hrest⟩ := bind_eq_ok_iff.mp h
  obtain ⟨_, -, -, -, hsegments⟩ := loadObject_eq_ok hwf hobject
  dsimp only at hrest
  split at hrest
  · cases hrest
    exact hsegments.wellFormed
  · obtain ⟨interpreter, _, hinterpreter, hend⟩ := bind_eq_ok_iff.mp hrest
    obtain ⟨_, -, -, -, hsegments'⟩ := loadObject_eq_ok hsegments.wellFormed hinterpreter
    cases hend
    exact hsegments'.wellFormed

/-- `load` returns when the file is loaded, the trampoline and the stack can be mapped, and
the strings fit. -/
theorem load_eq_ok {program : LoadedProgram} {mmu₁ mmu₂ mmu₃ : SoftMMU}
    (hwf : RegionsWellFormed emulator.mmu.regions)
    (hprogram : loadProgram files launch.executablePath emulator.mmu = .ok program mmu₁)
    (htrampoline : mapBytes signalTrampolineAddress pageSize (protRead ||| protExecute)
      signalTrampolineCode 0 "[signal trampoline]" mmu₁ = .ok () mmu₂)
    (hstack : mapZeroed (stackBase - stackSize) stackSize (protRead ||| protWrite) "[stack]" mmu₂ =
      .ok () mmu₃)
    (hfits : stackDemand launch ≤ stackSize.toNat) :
    ∃ emulator', load files host launch emulator = .ok () emulator' := by
  have hwf₂ : RegionsWellFormed mmu₂.regions := by
    have hkept := MMUCall.preserves_regionsWellFormed
      (.mapBytes signalTrampolineAddress pageSize (protRead ||| protExecute)
        signalTrampolineCode 0 "[signal trampoline]") mmu₁ (loadProgram_wellFormed hwf hprogram)
    change SoftMMU.Has RegionsWellFormed (finalState (mapBytes _ _ _ _ _ _ mmu₁)) at hkept
    rw [htrampoline] at hkept
    exact hkept
  obtain ⟨state, _, _, _, _, _, hrun, -⟩ := @setupStack_stacked _ launch program host
    (stacked_of_mapZeroed hwf₂ hstack) hfits
  have hregistered : (registerInterpreter files program (registerExecutable files program
      (emulator.withMMU mmu₁))).mmu = mmu₁ := by
    unfold registerInterpreter registerExecutable
    split <;> simp [registerLoadedImage_mmu]
  unfold load
  rw [bind_of_ok (onMMU_eq_ok_iff.mpr ⟨mmu₁, hprogram, rfl⟩), bind_of_ok (modify_apply _ _),
    bind_of_ok (modify_apply _ _)]
  generalize registerInterpreter files program (registerExecutable files program
    (emulator.withMMU mmu₁)) = registered at hregistered ⊢
  have hset : setupSignalTrampoline registered = .ok ()
      { registered.withMMU mmu₂ with signalTrampoline := signalTrampolineAddress } := by
    unfold setupSignalTrampoline
    rw [bind_of_ok (onMMU_eq_ok_iff.mpr ⟨mmu₂, by rwa [hregistered], rfl⟩)]
    rfl
  rw [bind_of_ok hset, bind_of_ok (modify_apply _ _),
    bind_of_ok (onMMU_eq_ok_iff.mpr ⟨mmu₃, hstack, rfl⟩)]
  unfold buildStack
  exact ⟨_, bind_of_ok (by rw [Emulator.withMMU_mmu, hrun])⟩

/-- `load` of a small program with a command line that fits. -/
theorem load_pieFile (hpath : launch.executablePath = "a.out")
    (hfits : stackDemand launch ≤ stackSize.toNat) :
    ∃ emulator', load (filesWith pieFile) host launch {} = .ok () emulator' := by
  have hprogram : loadProgram (filesWith pieFile) "a.out" {} =
      .ok (oneSegmentProgram 0x555555554000 0x555555554800 0x555555554040 0x555555555000) _ :=
    eq_ok_of_returned (by decide +kernel)
  have htrampoline := @eq_ok_of_returned _ _ _ (mapBytes signalTrampolineAddress pageSize
    (protRead ||| protExecute) signalTrampolineCode 0 "[signal trampoline]" (finalState
      (loadProgram (filesWith pieFile) "a.out" {}))) () (by decide +kernel)
  have hstack := @eq_ok_of_returned _ _ _ (mapZeroed (stackBase - stackSize) stackSize
    (protRead ||| protWrite) "[stack]" (finalState (mapBytes signalTrampolineAddress pageSize
    (protRead ||| protExecute) signalTrampolineCode 0 "[signal trampoline]" (finalState
      (loadProgram (filesWith pieFile) "a.out" {}))))) () (by decide +kernel)
  rw [← hpath] at hprogram htrampoline hstack
  exact load_eq_ok reachable_empty.regionsWellFormed hprogram htrampoline hstack hfits

/-- A command line with one argument and no environment. -/
def bareLaunch : Launch :=
  { smallLaunch with environment := [] }

theorem load_rsp_aligned_iff_bare :
    ∃ emulator', load (filesWith pieFile) someIdentity bareLaunch {} = .ok () emulator' ∧
      (emulator'.cpu.gpr .rsp).toNat % 16 = 0 := by
  obtain ⟨emulator', hload⟩ := @load_pieFile someIdentity bareLaunch rfl (by decide)
  exact ⟨emulator', hload, (load_rsp_aligned_iff hload).mpr (by decide)⟩

/-- One argument and one environment string put the entry point off by one word. -/
theorem rsp_misaligned :
    ∃ emulator', load (filesWith pieFile) someIdentity smallLaunch {} = .ok () emulator' ∧
      stackDemand smallLaunch ≤ stackSize.toNat ∧ (emulator'.cpu.gpr .rsp).toNat % 16 ≠ 0 := by
  obtain ⟨emulator', hload⟩ := @load_pieFile someIdentity smallLaunch rfl (by decide)
  obtain ⟨program, state, state', hrun, hrsp⟩ := rsp_of_load hload
  obtain ⟨top, htop⟩ := stackTop_of_setupStack hrun
  refine ⟨emulator', hload, by decide, ?_⟩
  rw [hrsp, htop, Ne, aligned_sub_words_iff]
  decide

end LUE
