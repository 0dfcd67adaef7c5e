import LinuxUserspaceEmulator.Emulator.SignalReturn
import LinuxUserspaceEmulator.MallocTracer.UseAfterFree

/-!
# Calls of the allocator

The tracer infers the calls of the allocator from the instruction pointer after each
instruction: a call is entered at an allocation function, and it is taken to be over at the
first instruction outside of the C library and the loader.  A signal handler of the guest is
such an instruction, so a signal in the middle of a call ends it for the tracer.

Main results:

- Theorem `CallHistory.Followed.round`: what one round keeps while calls are undisturbed.
- Theorem `recorded_eq_of_run`: in runs with undisturbed calls the tracer records exactly the
  blocks of the calls that have returned.
- Theorem `recorded_of_interrupted_call`: a signal in `malloc` makes the tracer record a block
  that was never returned, and miss the one that is.
-/

namespace LUE

open StateExcept MallocTracer TracedEmulator

/-! ## The loop of `exec` -/

/-- An access that an observer of the memory hears of. -/
inductive Access where
  | read (address : U64)
  | write (address : U64)
deriving DecidableEq, Repr

namespace Access

/-- The address of a read. -/
def readAddress : Access → Option U64
  | read address => some address
  | write _ => none

/-- The address of a write. -/
def writeAddress : Access → Option U64
  | read _ => none
  | write address => some address

/-- The callback of the tracer. -/
def hear (emulator : Emulator) (tracer : MallocTracer) : Access → MallocTracer
  | read address => onMemoryRead emulator address tracer
  | write address => onMemoryWrite emulator address tracer

/-- The callbacks of some accesses. -/
def hearAll (emulator : Emulator) (accesses : List Access) (tracer : MallocTracer) :
    MallocTracer :=
  accesses.foldl (hear emulator) tracer

/-- The accesses the observers heard of between two states of the memory. -/
def Observed (before after : SoftMMU) (accesses : List Access) : Prop :=
  after.readObserver = before.readObserver.map (· ++ accesses.filterMap readAddress) ∧
    after.writeObserver = before.writeObserver.map (· ++ accesses.filterMap writeAddress)

instance (before after : SoftMMU) (accesses : List Access) :
    Decidable (Observed before after accesses) :=
  inferInstanceAs (Decidable (_ ∧ _))

end Access

open Access

/-- One round of the loop of `exec` under the tracer.  An instruction changes its address at
its end, so the callbacks see the emulator as it was before; `boundary` is what the tracer
sees after the instruction. -/
inductive TracedRound : TracedEmulator → TracedEmulator → TracedEmulator → Prop where
  | round {emulator stepped signalled : Emulator} {tracer : MallocTracer}
      {followed : TracedEmulator} {host : Host} {arrived : Nat → Bool}
      {accesses frameAccesses : List Access}
      (hstep : SoftCPU64.step host emulator = .ok () stepped)
      (haccesses : Observed emulator.mmu stepped.mmu accesses)
      (hfollow : step ⟨stepped, hearAll emulator accesses tracer⟩ = .ok () followed)
      (hsignals : Emulator.signalRound arrived followed.emulator = .ok () signalled)
      (hframe : Observed followed.emulator.mmu signalled.mmu frameAccesses) :
      TracedRound ⟨emulator, tracer⟩ ⟨stepped, hearAll emulator accesses tracer⟩
        ⟨signalled, hearAll followed.emulator frameAccesses followed.tracer⟩

/-! ## Calls of the guest -/

/-- A call of an allocation function, as it is at its entry. -/
structure GuestCall where
  function : MallocTracer.Function
  args : U64 × U64
  /-- The word at the top of the stack, if it can be read. -/
  returnAddress : Option U64
  rsp : U64
deriving DecidableEq, Repr

namespace GuestCall

/-- The call that begins at an instruction boundary: the guest is at the entry of an
allocation function, and its caller is neither the C library nor the loader. -/
def entered (emulator : Emulator) : Option GuestCall :=
  let function := detectAllocationFunctionEntry emulator emulator.cpu.rip
  let returnAddress := (emulator.mmu.read64 (emulator.cpu.reg .rsp)).toOption
  if function = .none ∨ returnAddress.any (isInternal emulator) then none
  else
    some
      { function := function
        args := (emulator.cpu.reg .rdi, emulator.cpu.reg .rsi)
        returnAddress := returnAddress
        rsp := emulator.cpu.reg .rsp }

/-- The call is back at its caller. -/
def returnsAt (call : GuestCall) (emulator : Emulator) : Bool :=
  call.returnAddress = some emulator.cpu.rip && emulator.cpu.reg .rsp = call.rsp + 8

/-- The block that a call with a result allocates. -/
def block (call : GuestCall) (result : U64) : Option (U64 × U64) :=
  if result = 0 then none
  else (sizeArgument call.function call.args).map fun size => (result, size)

end GuestCall

/-- The guest's calls in a run: the ones that have not returned, the innermost first, and the
ones that have, with their results. -/
structure CallHistory where
  active : List GuestCall := []
  returned : List (GuestCall × U64) := []
deriving DecidableEq, Repr

namespace CallHistory

variable (history : CallHistory) (emulator : Emulator)

/-- The innermost call that is back at its caller returns; calls inside of it have been
abandoned. -/
def afterReturn : CallHistory :=
  match history.active.dropWhile fun call => !call.returnsAt emulator with
  | [] => history
  | call :: outer =>
      { active := outer
        returned := history.returned ++ [(call, emulator.cpu.reg .rax)] }

/-- A call that is entered where none is active is a new call; an active call is entered again
when it is resumed at its entry or continues as another function. -/
def begins : Option GuestCall :=
  (GuestCall.entered emulator).filter fun call =>
    history.active.all fun outer => call.rsp ≠ outer.rsp

/-- The history after an instruction boundary. -/
def observe : CallHistory :=
  let history := history.afterReturn emulator
  match history.begins emulator with
  | none => history
  | some call => { history with active := call :: history.active }

/-- The blocks that the calls have returned. -/
def blocks : List (U64 × U64) :=
  history.returned.filterMap fun entry => entry.1.block entry.2

/-- Until the active call returns, the guest runs only the C library, the loader and the
allocation functions, and begins no other call; and the call returns to code of the guest. -/
def Undisturbed : Prop :=
  match history.active with
  | [] => True
  | call :: _ =>
      if call.returnsAt emulator then
        isInternal emulator emulator.cpu.rip = false ∧
          detectAllocationFunctionEntry emulator emulator.cpu.rip = .none
      else
        (isInternal emulator emulator.cpu.rip = true ∨
          detectAllocationFunctionEntry emulator emulator.cpu.rip ≠ .none) ∧
          history.begins emulator = none

instance : Decidable (history.Undisturbed emulator) := by
  unfold Undisturbed
  split <;> infer_instance

end CallHistory

/-! ## Runs -/

/-- The block that `on_function_leave` records in the next step of the tracer. -/
def recordedBlock (traced : TracedEmulator) : Option (U64 × U64) :=
  if traced.leavesFunction = true ∧ traced.emulator.cpu.reg .rax ≠ 0 then
    (requestedSize traced.tracer).map fun size => (traced.emulator.cpu.reg .rax, size)
  else none

/-- The runs of the loop in which every round is allowed, with the guest's calls and the
blocks that the tracer records. -/
inductive TracedRun (allowed : CallHistory → Emulator → Prop) (start : TracedEmulator) :
    TracedEmulator → CallHistory → List (U64 × U64) → Prop where
  | start : TracedRun allowed start start {} []
  | round {traced boundary traced' : TracedEmulator} {history : CallHistory}
      {recorded : List (U64 × U64)} (run : TracedRun allowed start traced history recorded)
      (hround : TracedRound traced boundary traced')
      (hallowed : allowed history boundary.emulator) :
      TracedRun allowed start traced' (history.observe boundary.emulator)
        (recorded ++ (recordedBlock boundary).toList)

/-! ## What is recorded -/

namespace MallocTracer

section Recorded

variable {tracer : MallocTracer} {result p n : U64}

/-- A block is recorded, live or freed. -/
def Known (tracer : MallocTracer) (p n : U64) : Prop :=
  HasBlock tracer.allocations p n ∨ HasBlock tracer.freed p n

theorem known_moveToFreed {ptr : U64} (h : Known (moveToFreed ptr tracer) p n) :
    Known tracer p n := by
  rcases h with h | h
  · exact Or.inl ((hasBlock_moveToFreed p n).mp h).1
  · rcases hasBlock_freed_moveToFreed h with h | h
    · exact Or.inr h
    · exact Or.inl h.2

theorem known_releaseReallocated {ptr : U64} (h : Known (releaseReallocated ptr tracer) p n) :
    Known tracer p n := by
  rcases releaseReallocated_records ptr tracer with ⟨hlive, hfreed⟩
  have hmoved : Known (moveToFreed ptr tracer) p n := by
    rwa [Known, ← hlive, ← hfreed]
  exact known_moveToFreed hmoved

theorem known_keepAllocation {size : U64} {initialized : Bool}
    (h : Known (keepAllocation result size initialized tracer) p n) :
    Known tracer p n ∨ p = result ∧ n = size := by
  rcases h with h | h
  · rcases hasBlock_insert_iff.mp h with hnew | hold
    · exact Or.inr hnew
    · exact Or.inl (Or.inl hold.1)
  · exact Or.inl (Or.inr (hasBlock_erase_iff.mp h).1)

theorem known_keepPreserved {preserved : U64}
    (h : Known (keepPreserved result preserved tracer) p n) : Known tracer p n := by
  rwa [Known, hasBlock_keepPreserved, keepPreserved_freed] at h

theorem hasBlock_keepAllocation {size : U64} {initialized : Bool} :
    HasBlock (keepAllocation result size initialized tracer).allocations result size :=
  hasBlock_insert_iff.mpr (Or.inl ⟨rfl, rfl⟩)

/-- Leaving a function records no block but the one it returns. -/
theorem known_leaveEffect (h : Known (leaveEffect result tracer) p n) :
    Known tracer p n ∨ result ≠ 0 ∧ requestedSize tracer = some n ∧ p = result := by
  cases leaveEffect_outcome result tracer with
  | nothing hnone hleft =>
      rw [hleft] at h
      exact Or.inl h
  | allocates hresult hsize hplain hleft =>
      rw [hleft] at h
      rcases known_keepAllocation h with hknown | ⟨rfl, rfl⟩
      · exact Or.inl hknown
      · exact Or.inr ⟨hresult, hsize, rfl⟩
  | frees hfunction hpending hleft =>
      rw [hleft] at h
      exact Or.inl (known_moveToFreed h)
  | releases hfunction hold hnone hleft =>
      rcases hleft with ⟨hleft, -⟩ | ⟨hleft, -⟩
      · rw [hleft] at h
        exact Or.inl (known_moveToFreed h)
      · rw [hleft] at h
        exact Or.inl (known_releaseReallocated h)
  | moves hfunction hold hresult hsize hleft =>
      rw [hleft] at h
      rcases known_keepAllocation (known_keepPreserved h) with hknown | ⟨rfl, rfl⟩
      · exact Or.inl (known_releaseReallocated hknown)
      · exact Or.inr ⟨hresult, hsize, rfl⟩

/-- Leaving a function that returns a block records it. -/
theorem hasBlock_leaveEffect (hne : result ≠ 0) (hsize : requestedSize tracer = some n) :
    HasBlock (leaveEffect result tracer).allocations result n := by
  have hreturns : ¬(result = 0 ∨ requestedSize tracer = none) := by
    rintro (hzero | hnone)
    · exact hne hzero
    · cases hsize.symm.trans hnone
  cases leaveEffect_outcome result tracer with
  | nothing hnone hleft => exact absurd hnone hreturns
  | allocates hresult hsize' hplain hleft =>
      cases hsize.symm.trans hsize'
      rw [hleft]
      exact hasBlock_keepAllocation
  | frees hfunction hpending hleft =>
      rw [requestedSize, hfunction] at hsize
      cases hsize
  | releases hfunction hold hnone hleft => exact absurd hnone hreturns
  | moves hfunction hold hresult hsize' hleft =>
      cases hsize.symm.trans hsize'
      rw [hleft, hasBlock_keepPreserved]
      exact hasBlock_keepAllocation

end Recorded

end MallocTracer

/-- A step of the tracer with nothing to follow leaves no function. -/
theorem TracedEmulator.Ignores.not_leaves {traced : TracedEmulator} (h : traced.Ignores) :
    traced.leavesFunction ≠ true := by
  rw [Ne, leavesFunction_eq_true_iff]
  rintro ⟨henabled, hbusy, houtside, hnone⟩
  rcases h with hoff | ⟨hidle, -⟩ | ⟨-, hinternal | hentry⟩
  · rw [henabled] at hoff
    cases hoff
  · exact hbusy hidle
  · rw [houtside] at hinternal
    cases hinternal
  · exact hentry hnone

theorem recordedBlock_of_not_leaves {traced : TracedEmulator}
    (h : traced.leavesFunction ≠ true) : recordedBlock traced = none := by
  rw [recordedBlock, if_neg fun hboth => h hboth.1]

theorem recordedBlock_eq_some_iff {traced : TracedEmulator} {p n : U64} :
    recordedBlock traced = some (p, n) ↔ traced.ReturnsBlock p n := by
  unfold recordedBlock ReturnsBlock
  split <;> rename_i h
  · constructor
    · intro hsome
      rcases Option.map_eq_some_iff.mp hsome with ⟨size, hsize, hpair⟩
      cases hpair
      exact ⟨h.1, rfl, h.2, hsize⟩
    · rintro ⟨-, rfl, -, hsize⟩
      rw [hsize]
      rfl
  · refine ⟨nofun, ?_⟩
    rintro ⟨hleaves, rfl, hne, -⟩
    exact absurd ⟨hleaves, hne⟩ h

/-- A step of the tracer makes the block that it records live, and no other block known. -/
theorem recordedBlock_spec {traced traced' : TracedEmulator} {p n : U64}
    (h : step traced = .ok () traced') :
    (recordedBlock traced = some (p, n) → HasBlock traced'.tracer.allocations p n) ∧
      (Known traced'.tracer p n →
        Known traced.tracer p n ∨ recordedBlock traced = some (p, n)) := by
  rw [recordedBlock_eq_some_iff]
  cases step_outcome h with
  | ignores hignores hkept =>
      subst hkept
      exact ⟨fun hreturns => absurd hreturns.1 hignores.not_leaves, Or.inl⟩
  | enters henabled hidle hentry hcaller henters =>
      refine ⟨fun hreturns => ?_, fun hknown => Or.inl ?_⟩
      · exact absurd hidle (leavesFunction_eq_true_iff.mp hreturns.1).2.1
      · rwa [Known, henters.allocations, henters.freed] at hknown
  | leaves henabled hbusy houtside hnone hleft =>
      rw [hleft]
      constructor
      · rintro ⟨-, rfl, hne, hsize⟩
        exact hasBlock_leaveEffect hne hsize
      · intro hknown
        rcases known_leaveEffect hknown with hold | ⟨hne, hsize, rfl⟩
        · exact Or.inl hold
        · have hleaves : traced.leavesFunction = true :=
            leavesFunction_eq_true_iff.mpr ⟨henabled, hbusy, houtside, hnone⟩
          exact Or.inr ⟨hleaves, rfl, hne, hsize⟩

/-! ## One round -/

namespace MallocTracer

/-- What the tracer remembers of a call. -/
structure KeepsCall (tracer tracer' : MallocTracer) : Prop where
  enabled : tracer'.enabled = tracer.enabled
  activeFunction : tracer'.activeFunction = tracer.activeFunction
  entryArgs : tracer'.entryArgs = tracer.entryArgs

namespace KeepsCall

variable {tracer tracer' tracer'' : MallocTracer}

theorem refl (tracer : MallocTracer) : KeepsCall tracer tracer :=
  ⟨rfl, rfl, rfl⟩

theorem trans (h : KeepsCall tracer tracer') (h' : KeepsCall tracer' tracer'') :
    KeepsCall tracer tracer'' :=
  ⟨h'.enabled.trans h.enabled, h'.activeFunction.trans h.activeFunction,
    h'.entryArgs.trans h.entryArgs⟩

theorem reportOnce (key : ErrorKey) (what : Report) (tracer : MallocTracer) :
    KeepsCall tracer (tracer.reportOnce key what) := by
  unfold MallocTracer.reportOnce
  split <;> exact ⟨rfl, rfl, rfl⟩

theorem rememberWrite (address : U64) (tracer : MallocTracer) :
    KeepsCall tracer (tracer.rememberWrite address) := by
  unfold MallocTracer.rememberWrite
  split <;> exact ⟨rfl, rfl, rfl⟩

theorem onMemoryRead (emulator : Emulator) (address : U64) (tracer : MallocTracer) :
    KeepsCall tracer (tracer.onMemoryRead emulator address) := by
  unfold MallocTracer.onMemoryRead
  split
  · exact .refl tracer
  split
  · exact .refl tracer
  split
  · exact .reportOnce _ _ _
  split
  · exact .refl tracer
  split
  · exact .reportOnce _ _ _
  · exact .refl tracer

theorem onMemoryWrite (emulator : Emulator) (address : U64) (tracer : MallocTracer) :
    KeepsCall tracer (tracer.onMemoryWrite emulator address) := by
  have hwritten := rememberWrite address tracer
  unfold MallocTracer.onMemoryWrite
  split
  · exact .refl tracer
  dsimp only
  split
  · exact hwritten
  split
  · exact hwritten.trans (.reportOnce _ _ _)
  split
  · exact hwritten.trans (.reportOnce _ _ _)
  · exact hwritten

/-- Hearing of accesses changes nothing of the call that is followed. -/
theorem hearAll (emulator : Emulator) (accesses : List Access) (tracer : MallocTracer) :
    KeepsCall tracer (Access.hearAll emulator accesses tracer) := by
  induction accesses generalizing tracer with
  | nil => exact .refl tracer
  | cons access accesses ih =>
      have hhear : KeepsCall tracer (Access.hear emulator tracer access) := by
        cases access with
        | read address => exact onMemoryRead emulator address tracer
        | write address => exact onMemoryWrite emulator address tracer
      exact hhear.trans (ih _)

end KeepsCall

end MallocTracer

namespace CallHistory

variable {history : CallHistory} {tracer tracer' : MallocTracer} {emulator : Emulator}
  {call : GuestCall}

/-- The tracer follows the guest's call: it is idle when the guest is in none, and remembers
the one the guest is in. -/
inductive Followed (history : CallHistory) (tracer : MallocTracer) : Prop where
  | idle (hactive : history.active = []) (henabled : tracer.enabled = true)
      (hfunction : tracer.activeFunction = .none)
  | within (call : GuestCall) (hactive : history.active = [call])
      (henabled : tracer.enabled = true) (hcall : call.function ≠ .none)
      (hfunction : tracer.activeFunction = call.function)
      (hargs : tracer.entryArgs = call.args)

theorem Followed.of_keepsCall (h : Followed history tracer) (hkeeps : KeepsCall tracer tracer') :
    Followed history tracer' := by
  cases h with
  | idle hactive henabled hfunction =>
      exact .idle hactive (hkeeps.enabled.trans henabled)
        (hkeeps.activeFunction.trans hfunction)
  | within call hactive henabled hcall hfunction hargs =>
      exact .within call hactive (hkeeps.enabled.trans henabled) hcall
        (hkeeps.activeFunction.trans hfunction) (hkeeps.entryArgs.trans hargs)

/-! ### The guest's side of a boundary -/

theorem observe_of_idle (hactive : history.active = [])
    (hentered : GuestCall.entered emulator = none) : history.observe emulator = history := by
  simp [observe, afterReturn, begins, hactive, hentered]

theorem observe_of_entered (hactive : history.active = [])
    (hentered : GuestCall.entered emulator = some call) :
    history.observe emulator = ⟨[call], history.returned⟩ := by
  simp [observe, afterReturn, begins, hactive, hentered, Option.filter]

theorem observe_of_running (hactive : history.active = [call])
    (hreturns : call.returnsAt emulator = false) (hbegins : history.begins emulator = none) :
    history.observe emulator = history := by
  have hkept : history.afterReturn emulator = history := by
    simp [afterReturn, hactive, hreturns]
  simp only [observe, hkept, hbegins]

theorem observe_of_return (hactive : history.active = [call])
    (hreturns : call.returnsAt emulator = true)
    (hentry : detectAllocationFunctionEntry emulator emulator.cpu.rip = .none) :
    history.observe emulator =
      ⟨[], history.returned ++ [(call, emulator.cpu.reg .rax)]⟩ := by
  have hentered : GuestCall.entered emulator = none := by
    simp [GuestCall.entered, hentry]
  simp [observe, afterReturn, begins, hactive, hreturns, hentered]

/-- No call of the guest is entered where the tracer sees none. -/
theorem entered_eq_none_iff :
    GuestCall.entered emulator = none ↔
      detectAllocationFunctionEntry emulator emulator.cpu.rip = .none ∨
        callerIsInternal emulator = .ok true := by
  have hcaller : (emulator.mmu.read64 (emulator.cpu.reg .rsp)).toOption.any
      (isInternal emulator) = true ↔ callerIsInternal emulator = .ok true := by
    unfold callerIsInternal
    cases emulator.mmu.read64 (emulator.cpu.reg .rsp) with
    | ok address => simp [Except.toOption]
    | error raise => cases raise <;> simp [Except.toOption]
  rw [← hcaller]
  simp only [GuestCall.entered, ite_eq_left_iff, reduceCtorEq, imp_false, not_not]

theorem eq_of_entered (h : GuestCall.entered emulator = some call) :
    call.function = detectAllocationFunctionEntry emulator emulator.cpu.rip ∧
      call.args = (emulator.cpu.reg .rdi, emulator.cpu.reg .rsi) := by
  unfold GuestCall.entered at h
  dsimp only at h
  split at h
  · cases h
  · cases h
    exact ⟨rfl, rfl⟩

/-! ### The tracer's side -/

theorem leaveEffect_enabled (result : U64) (tracer : MallocTracer) :
    (leaveEffect result tracer).enabled = tracer.enabled := by
  have hfreed : ∀ ptr (tracer : MallocTracer),
      (moveToFreed ptr tracer).enabled = tracer.enabled := by
    intro ptr tracer
    unfold moveToFreed
    split <;> rfl
  have hreleased : ∀ ptr (tracer : MallocTracer),
      (releaseReallocated ptr tracer).enabled = tracer.enabled := by
    intro ptr tracer
    unfold releaseReallocated
    split
    · exact hfreed ptr tracer
    · split <;> rfl
  have hpreserved : ∀ result preserved (tracer : MallocTracer),
      (keepPreserved result preserved tracer).enabled = tracer.enabled := by
    intro result preserved tracer
    unfold keepPreserved
    split <;> rfl
  unfold leaveEffect
  cases tracer.activeFunction with
  | none => rfl
  | malloc => dsimp only; split <;> rfl
  | calloc => dsimp only; split <;> rfl
  | free =>
      dsimp only
      split
      · rfl
      · exact hfreed _ _
  | realloc =>
      dsimp only
      split
      · split <;> rfl
      split
      · exact hfreed _ _
      split
      · exact hreleased _ _
      · exact (hpreserved _ _ _).trans (hreleased _ _)

/-- What is recorded when the tracer leaves the call it remembers. -/
theorem recordedBlock_of_leaves {traced : TracedEmulator} (h : traced.leavesFunction = true)
    (hfunction : traced.tracer.activeFunction = call.function)
    (hargs : traced.tracer.entryArgs = call.args) :
    recordedBlock traced = call.block (traced.emulator.cpu.reg .rax) := by
  unfold recordedBlock GuestCall.block requestedSize
  rw [hfunction, hargs]
  by_cases hzero : traced.emulator.cpu.reg .rax = 0
  · rw [if_neg fun hboth => hboth.2 hzero, if_pos hzero]
  · rw [if_pos ⟨h, hzero⟩, if_neg hzero]

/-- What a boundary has to keep: the tracer follows the guest's call, and what it records is
what the guest's calls return. -/
def BoundaryFollowed (history : CallHistory) (traced traced' : TracedEmulator) : Prop :=
  Followed (history.observe traced.emulator) traced'.tracer ∧
    (history.observe traced.emulator).blocks = history.blocks ++ (recordedBlock traced).toList

/-- A boundary at which nothing happens. -/
theorem boundaryFollowed_of_quiet {traced : TracedEmulator}
    (hfollowed : Followed history traced.tracer)
    (hobserve : history.observe traced.emulator = history)
    (hleaves : traced.leavesFunction ≠ true) : BoundaryFollowed history traced traced := by
  refine ⟨hobserve.symm ▸ hfollowed, ?_⟩
  rw [hobserve, recordedBlock_of_not_leaves hleaves]
  exact (List.append_nil _).symm

variable {traced traced' : TracedEmulator}

/-- Without a call in progress the tracer enters the call that the guest enters. -/
theorem step_of_idle (hactive : history.active = []) (henabled : traced.tracer.enabled = true)
    (hfunction : traced.tracer.activeFunction = .none) (h : step traced = .ok () traced') :
    BoundaryFollowed history traced traced' := by
  have hquiet : traced.leavesFunction ≠ true := fun hleaves =>
    (leavesFunction_eq_true_iff.mp hleaves).2.1 hfunction
  cases step_outcome h with
  | ignores hignores hkept =>
      subst hkept
      have hentered : GuestCall.entered traced'.emulator = none := by
        rw [entered_eq_none_iff]
        rcases hignores with hoff | ⟨-, hnone⟩ | ⟨hbusy, -⟩
        · rw [henabled] at hoff
          cases hoff
        · exact hnone
        · exact absurd hfunction hbusy
      exact boundaryFollowed_of_quiet (.idle hactive henabled hfunction)
        (observe_of_idle hactive hentered) hquiet
  | enters _ _ hentry hcaller henters =>
      cases hentered : GuestCall.entered traced.emulator with
      | none =>
          rcases entered_eq_none_iff.mp hentered with hnone | hinternal
          · exact absurd hnone hentry
          · rw [hcaller] at hinternal
            cases hinternal
      | some call =>
          rcases eq_of_entered hentered with ⟨hcall, hargs⟩
          rw [BoundaryFollowed, observe_of_entered hactive hentered,
            recordedBlock_of_not_leaves hquiet]
          refine ⟨?_, (List.append_nil _).symm⟩
          exact .within call rfl (henters.enabled.trans henabled) (hcall ▸ hentry)
            (henters.active.trans hcall.symm) (henters.args.trans hargs.symm)
  | leaves _ hbusy => exact absurd hfunction hbusy

/-- A call that goes on is not left. -/
theorem step_of_running (hfollowed : Followed history traced.tracer)
    (hbusy : traced.tracer.activeFunction ≠ .none)
    (hobserve : history.observe traced.emulator = history)
    (hquiet : traced.leavesFunction ≠ true) (h : step traced = .ok () traced') :
    BoundaryFollowed history traced traced' := by
  cases step_outcome h with
  | ignores _ hkept =>
      subst hkept
      exact boundaryFollowed_of_quiet hfollowed hobserve hquiet
  | enters _ hidle => exact absurd hidle hbusy
  | leaves henabled _ houtside hnone =>
      exact absurd (leavesFunction_eq_true_iff.mpr ⟨henabled, hbusy, houtside, hnone⟩) hquiet

/-- A call that returns to the guest is left, and its block is recorded. -/
theorem step_of_return (hactive : history.active = [call])
    (hfunction : traced.tracer.activeFunction = call.function)
    (hargs : traced.tracer.entryArgs = call.args)
    (hreturns : call.returnsAt traced.emulator = true) (hleaves : traced.leavesFunction = true)
    (h : step traced = .ok () traced') : BoundaryFollowed history traced traced' := by
  rcases leavesFunction_eq_true_iff.mp hleaves with ⟨henabled, hbusy, houtside, hnone⟩
  cases step_outcome h with
  | ignores hignores hkept =>
      rcases hignores with hoff | ⟨hidle, -⟩ | ⟨-, hinternal | hentry⟩
      · rw [henabled] at hoff
        cases hoff
      · exact absurd hidle hbusy
      · rw [houtside] at hinternal
        cases hinternal
      · exact absurd hnone hentry
  | enters _ hidle => exact absurd hidle hbusy
  | leaves _ _ _ _ hleft =>
      rw [BoundaryFollowed, observe_of_return hactive hreturns hnone,
        recordedBlock_of_leaves hleaves hfunction hargs]
      refine ⟨.idle rfl ?_ (by rw [hleft]), ?_⟩
      · rw [hleft]
        exact (leaveEffect_enabled _ _).trans henabled
      · simp only [blocks, List.filterMap_append]
        cases hblock : call.block (traced.emulator.cpu.reg .rax) <;> simp [hblock]

/-- At an undisturbed boundary the tracer sees what the guest's call does. -/
theorem Followed.step (hfollowed : Followed history traced.tracer)
    (hundisturbed : history.Undisturbed traced.emulator) (h : step traced = .ok () traced') :
    BoundaryFollowed history traced traced' := by
  cases hcase : hfollowed with
  | idle hactive henabled hfunction => exact step_of_idle hactive henabled hfunction h
  | within call hactive henabled hcall hfunction hargs =>
      have hbusy : traced.tracer.activeFunction ≠ .none := hfunction ▸ hcall
      simp only [Undisturbed, hactive] at hundisturbed
      cases hreturns : call.returnsAt traced.emulator with
      | true =>
          simp only [hreturns, if_true] at hundisturbed
          exact step_of_return hactive hfunction hargs hreturns
            (leavesFunction_eq_true_iff.mpr ⟨henabled, hbusy, hundisturbed⟩) h
      | false =>
          rw [hreturns, if_neg Bool.false_ne_true] at hundisturbed
          refine step_of_running hfollowed hbusy
            (observe_of_running hactive hreturns hundisturbed.2) (fun hleaves => ?_) h
          rcases leavesFunction_eq_true_iff.mp hleaves with ⟨-, -, houtside, hnone⟩
          rcases hundisturbed.1 with hinternal | hentry
          · rw [houtside] at hinternal
            cases hinternal
          · exact hentry hnone

end CallHistory

/-! ## All rounds -/

namespace TracedEmulator

variable {traced traced' : TracedEmulator} {history : CallHistory} {recorded : List (U64 × U64)}

/-- Hearing of accesses makes no block known. -/
theorem known_hearAll {emulator : Emulator} {accesses : List Access} {tracer : MallocTracer}
    {p n : U64} (h : Known (hearAll emulator accesses tracer) p n) : Known tracer p n := by
  induction accesses generalizing tracer with
  | nil => exact h
  | cons access accesses ih =>
      have hheard : Known (access.hear emulator tracer) p n := ih h
      cases access with
      | read address =>
          rcases onMemoryRead_records emulator address tracer with ⟨hlive, hfreed⟩
          exact (show Known _ _ _ ↔ _ by rw [Known, Known, hear, hlive, hfreed]).mp hheard
      | write address =>
          rcases onMemoryWrite_records emulator address tracer with ⟨hlive, hfreed⟩
          exact (show Known _ _ _ ↔ _ by rw [Known, Known, hear, hlive, hfreed]).mp hheard

/-- What every run of undisturbed calls keeps: the tracer follows the guest's call, it has
recorded the blocks of the calls that have returned, and it knows no others. -/
structure RunFollowed (traced : TracedEmulator) (history : CallHistory)
    (recorded : List (U64 × U64)) : Prop where
  followed : history.Followed traced.tracer
  recorded_eq : recorded = history.blocks
  known : ∀ p n, Known traced.tracer p n → (p, n) ∈ recorded

theorem runFollowed_start (emulator : Emulator) :
    RunFollowed ⟨emulator, { enabled := true }⟩ {} [] where
  followed := .idle rfl rfl rfl
  recorded_eq := rfl
  known := by
    rintro p n (⟨record, hmem, -⟩ | ⟨record, hmem, -⟩) <;> cases hmem

/-- One round of an undisturbed call. -/
theorem RunFollowed.round {boundary : TracedEmulator}
    (hrun : RunFollowed traced history recorded) (hround : TracedRound traced boundary traced')
    (hundisturbed : history.Undisturbed boundary.emulator) :
    RunFollowed traced' (history.observe boundary.emulator)
      (recorded ++ (recordedBlock boundary).toList) := by
  cases hround with
  | round hstep haccesses hfollow hsignals hframe =>
      rcases (hrun.followed.of_keepsCall (.hearAll _ _ _)).step hundisturbed hfollow with
        ⟨hfollowed, hblocks⟩
      refine ⟨hfollowed.of_keepsCall (.hearAll _ _ _), ?_, ?_⟩
      · rw [hblocks, hrun.recorded_eq]
      · intro p n hknown
        rw [List.mem_append]
        rcases (recordedBlock_spec hfollow).2 (known_hearAll hknown) with hold | hnew
        · exact Or.inl (hrun.known p n (known_hearAll hold))
        · exact Or.inr (by rw [hnew]; simp)

/-- In every run with undisturbed calls, the tracer records exactly the blocks of the calls of
the guest that have returned, in the order in which they return, and it knows no others. -/
theorem recorded_eq_of_run {emulator : Emulator}
    (hrun : TracedRun CallHistory.Undisturbed ⟨emulator, { enabled := true }⟩ traced history
      recorded) :
    recorded = history.blocks ∧ ∀ p n, Known traced.tracer p n → (p, n) ∈ recorded := by
  have hfollowed : RunFollowed traced history recorded := by
    induction hrun with
    | start => exact runFollowed_start emulator
    | round run hround hallowed ih => exact ih.round hround hallowed
  exact ⟨hfollowed.recorded_eq, hfollowed.known⟩

/-! ## A call that a signal interrupts -/

section Interrupted

/-- What a run of the loop has reached. -/
structure RunState where
  traced : TracedEmulator
  history : CallHistory := {}
  recorded : List (U64 × U64) := []

/-- What the observers have newly heard of; the reads come first. -/
def newAccesses (before after : SoftMMU) : List Access :=
  let added (before after : Option (List U64)) : List U64 :=
    (after.getD []).drop (before.getD []).length
  (added before.readObserver after.readObserver).map .read ++
    (added before.writeObserver after.writeObserver).map .write

/-- Run one round of the loop, if it is allowed. -/
def RunState.round (allowed : CallHistory → Emulator → Bool) (host : Host)
    (arrived : Nat → Bool) (state : RunState) : Option RunState :=
  match SoftCPU64.step host state.traced.emulator with
  | .error _ _ => none
  | .ok _ stepped =>
      let emulator := state.traced.emulator
      let accesses := newAccesses emulator.mmu stepped.mmu
      let boundary := ⟨stepped, hearAll emulator accesses state.traced.tracer⟩
      match step boundary with
      | .error _ _ => none
      | .ok _ followed =>
          match Emulator.signalRound arrived followed.emulator with
          | .error _ _ => none
          | .ok _ signalled =>
              let frameAccesses := newAccesses followed.emulator.mmu signalled.mmu
              if allowed state.history stepped ∧ Observed emulator.mmu stepped.mmu accesses ∧
                  Observed followed.emulator.mmu signalled.mmu frameAccesses then
                some
                  { traced :=
                      ⟨signalled, hearAll followed.emulator frameAccesses followed.tracer⟩
                    history := state.history.observe stepped
                    recorded := state.recorded ++ (recordedBlock boundary).toList }
              else none

/-- Run some rounds. -/
def RunState.rounds (allowed : CallHistory → Emulator → Bool) (host : Host) :
    List (Nat → Bool) → RunState → Option RunState
  | [], state => some state
  | arrived :: rest, state =>
      (state.round allowed host arrived).bind (RunState.rounds allowed host rest)

theorem tracedRun_of_rounds {allowed : CallHistory → Emulator → Bool} {host : Host}
    {arrivals : List (Nat → Bool)} {start : TracedEmulator} {state state' : RunState}
    (hrun : TracedRun (fun history emulator => allowed history emulator = true) start
      state.traced state.history state.recorded)
    (h : state.rounds allowed host arrivals = some state') :
    TracedRun (fun history emulator => allowed history emulator = true) start state'.traced
      state'.history state'.recorded := by
  induction arrivals generalizing state with
  | nil =>
      cases h
      exact hrun
  | cons arrived rest ih =>
      rcases Option.bind_eq_some_iff.mp h with ⟨next, hround, hrest⟩
      refine ih ?_ hrest
      unfold RunState.round at hround
      split at hround
      · cases hround
      rename_i hstep
      dsimp only at hround
      split at hround
      · cases hround
      rename_i hfollow
      split at hround
      · cases hround
      rename_i hsignals
      split at hround <;> rename_i hallowed
      · cases hround
        exact hrun.round (.round hstep hallowed.2.1 hfollow hsignals hallowed.2.2) hallowed.1
      · cases hround

/-- A guest that calls `malloc(24)`; `malloc` returns `0x5000` after its second instruction.
The handler of every signal is at `0x1010`, and RAX happens to be `0x77`. -/
def mallocCaller : Emulator where
  mmu :=
    { regions := [Emulator.pageOf 0x1000 (protRead ||| protExecute)
          ([0xe8, 0xfb, 0x0f, 0x00, 0x00] ++ List.replicate 11 0x90 ++ [0xc3]),
        Emulator.pageOf 0x2000 (protRead ||| protExecute)
          [0x90, 0xb8, 0x00, 0x50, 0x00, 0x00, 0xc3],
        Emulator.pageOf 0x3000 (protRead ||| protWrite) [],
        Emulator.pageOf 0x4000 (protRead ||| protExecute) signalTrampolineCode]
      writeObserver := some []
      readObserver := some [] }
  cpu := { ((({} : SoftCPU64).setReg .rsp 0x3148).setReg .rdi 24).setReg .rax 0x77 with
    rip := 0x1000 }
  loadedImages := [⟨"libc.so", "libc.so", "libc", 0x2000, 0x3000, [], []⟩]
  mallocSymbol := ⟨0x2000, 0x2007, "malloc"⟩
  signalTrampoline := 0x4000
  signalActions := fun _ => { handler := 0x1010 }

/-- The run before its first round. -/
def mallocCallerStart : RunState where
  traced := ⟨mallocCaller, { enabled := true }⟩

/-- The call of `malloc`. -/
def mallocCall : GuestCall where
  function := .malloc
  args := (24, 0)
  returnAddress := some 0x1005
  rsp := 0x3140

/-- The call of `malloc` is followed when no signal arrives. -/
theorem recorded_eq_of_run_malloc :
    ∃ traced history recorded,
      TracedRun CallHistory.Undisturbed ⟨mallocCaller, { enabled := true }⟩ traced history
          recorded ∧
        history.returned = [(mallocCall, 0x5000)] ∧ recorded = [(0x5000, 24)] ∧
        ∀ p n, Known traced.tracer p n → (p, n) ∈ recorded := by
  have hquiet : (mallocCallerStart.rounds (fun history emulator => history.Undisturbed emulator)
      Emulator.quietHost (List.replicate 4 fun _ => false)).map (fun state =>
        (state.history, state.recorded)) =
        some (⟨[], [(mallocCall, 0x5000)]⟩, [(0x5000, 24)]) := by
    decide +kernel
  rcases Option.map_eq_some_iff.mp hquiet with ⟨state, hstate, hresult⟩
  rcases Prod.mk.inj hresult with ⟨hhistory, hrecorded⟩
  have hrun := tracedRun_of_rounds .start hstate
  simp only [decide_eq_true_eq] at hrun
  refine ⟨_, _, _, hrun, by rw [hhistory], hrecorded, (recorded_eq_of_run hrun).2⟩

/-- A signal in the middle of `malloc` makes the tracer record a block that no call has
returned, and miss the block that the call returns. -/
theorem recorded_of_interrupted_call :
    ¬∀ emulator traced history recorded,
      TracedRun (fun _ _ => True) ⟨emulator, { enabled := true }⟩ traced history recorded →
        recorded = history.blocks := by
  intro hall
  have hsignal : (mallocCallerStart.rounds (fun _ _ => true) Emulator.quietHost
      ([fun _ => false, (· = 1)] ++ List.replicate 5 fun _ => false)).map (fun state =>
        (state.history, state.recorded)) =
        some (⟨[], [(mallocCall, 0x5000)]⟩, [(0x77, 24)]) := by
    decide +kernel
  rcases Option.map_eq_some_iff.mp hsignal with ⟨state, hstate, hresult⟩
  rcases Prod.mk.inj hresult with ⟨hhistory, hrecorded⟩
  have hrun := tracedRun_of_rounds .start hstate
  simp only at hrun
  have hblocks := hall _ _ _ _ hrun
  rw [hhistory, hrecorded] at hblocks
  exact absurd hblocks (by decide)

end Interrupted

end TracedEmulator

end LUE
