import LinuxUserspaceEmulator.Library.OverlappingCopy
import LinuxUserspaceEmulator.LinuxSyscalls.Vectors

/-!
# What the status calls return

The calls that ask for the status of a file or of a file system hand the question to the host
and copy its answer into guest memory, field by field converted to the layout that the guest
knows.  Either the guest gets an error and nothing has happened, or every field that it loads
has the value that the host has answered, and no byte beside the structure has changed.

Main results:

- Theorem `returnStruct_stored`: a structure that has been copied to the guest reads back.
- Theorem `hostSyscall_status`: what the six status calls return.
-/

namespace LUE

open StateExcept SoftMMU WordRecord

variable {emulator emulator' : Emulator} {address n : U64} {fields : List Field}

/-! ## Structures -/

/-- The guest finds a structure at an address: every word that it loads at the place of a field
is the value of the field, and memory has changed inside the structure only. -/
structure RecordStored (address : U64) (fields : List Field) (emulator emulator' : Emulator) :
    Prop where
  word : ∀ {before field after value}, fields = before ++ field :: after →
    emulator'.mmu.readInteger (address + BitVec.ofNat 64 (size before)) field.width = .ok value →
      value = field.value
  frame : ∀ a, size fields ≤ (a - address).toNat →
    emulator'.mmu.guestByte a = emulator.mmu.guestByte a

/-- A structure that has been copied to the guest reads back. -/
theorem returnStruct_stored (hfits : ∀ field ∈ fields, field.Fits)
    (hsize : size fields ≤ 2 ^ 64)
    (h : returnStruct address (WordRecord.bytes fields) emulator = .ok n emulator') :
    n = 0 ∧ RecordStored address fields emulator emulator' := by
  obtain ⟨_, after, hcopied, hreturn⟩ := bind_eq_ok_iff.mp h
  cases hreturn
  have hafter := guestByte_copied ((length_bytes fields).symm ▸ hsize) hcopied
  rw [length_bytes] at hafter
  refine ⟨rfl, fun {before field rest value} hfields hread => ?_, fun a ha => ?_⟩
  · obtain ⟨bytes, hbytes, rfl⟩ := readInteger_bytes hread
    refine assemble_of_fits (hfits field (hfields ▸ List.mem_append_right _ List.mem_cons_self))
      fun i hi => ?_
    have hinside : size before + i < size fields := by
      have hparts : size fields = size before + (field.width + size rest) := by
        rw [hfields]
        simp [WordRecord.size]
      omega
    have hplace : address + BitVec.ofNat 64 (size before) + BitVec.ofNat 64 i =
        address + BitVec.ofNat 64 (size before + i) := by
      rw [BitVec.add_assoc, ← BitVec.ofNat_add]
    have hbyte := guestByte_of_read8 (hbytes i hi)
    rw [hplace, hafter, OverlappingCopy.toNat_add_sub (by omega), if_pos hinside, hfields,
      getD_bytes before rest field hi, Option.some_inj] at hbyte
    exact hbyte.symm
  · rw [hafter, if_neg (Nat.not_lt.mpr ha)]

/-! ## Answers of the host -/

/-- The host has failed and nothing has happened, or it has answered. -/
theorem afterHost_eq_ok {α : Type} {answer : Except Errno α} {rest : α → EmulatorProgram U64}
    (h : afterHost answer rest emulator = .ok n emulator') :
    (IsErrno n ∧ emulator' = emulator) ∨
      ∃ a, answer = .ok a ∧ rest a emulator = .ok n emulator' := by
  cases answer with
  | error errno =>
      cases h
      exact Or.inl ⟨isErrno_syscallError errno, rfl⟩
  | ok a => exact Or.inr ⟨a, rfl, h⟩

theorem readOptionalString_keeps {path : Option (List U8)}
    (h : readOptionalString address emulator = .ok path emulator') : emulator' = emulator := by
  rw [readOptionalString] at h
  split at h
  · obtain ⟨_, _, hread, hreturn⟩ := bind_eq_ok_iff.mp h
    cases hreturn
    exact (readMMU_eq_ok_iff.mp hread).2.symm
  · cases h
    rfl

/-- What the host has answered to a status call: the number of the call, where the guest wants
the answer, and the fields of the answer in the layout of the guest. -/
inductive StatusAnswer (calls : HostCalls) (emulator : Emulator) (arg1 arg2 arg3 arg4 : U64) :
    Nat → U64 → List Field → Prop where
  | stat {path : List U8} {st : HostStat} (hpath : readString arg1 emulator = .ok path emulator)
      (h : calls.stat path = .ok st) :
      StatusAnswer calls emulator arg1 arg2 arg3 arg4 4 arg2 (convertStat st)
  | fstat {st : HostStat} (h : calls.fstat (arg1.setWidth 32) = .ok st) :
      StatusAnswer calls emulator arg1 arg2 arg3 arg4 5 arg2 (convertStat st)
  | lstat {path : List U8} {st : HostStat} (hpath : readString arg1 emulator = .ok path emulator)
      (h : calls.lstat path = .ok st) :
      StatusAnswer calls emulator arg1 arg2 arg3 arg4 6 arg2 (convertStat st)
  | statfs {path : List U8} {sf : HostStatfs}
      (hpath : readString arg1 emulator = .ok path emulator) (h : calls.statfs path = .ok sf) :
      StatusAnswer calls emulator arg1 arg2 arg3 arg4 137 arg2 (convertStatfs sf)
  | fstatfs {sf : HostStatfs} (h : calls.fstatfs (arg1.setWidth 32) = .ok sf) :
      StatusAnswer calls emulator arg1 arg2 arg3 arg4 138 arg2 (convertStatfs sf)
  | newfstatat {path : Option (List U8)} {st : HostStat}
      (hpath : readOptionalString arg2 emulator = .ok path emulator)
      (h : calls.newfstatat (arg1.setWidth 32) path (arg4.setWidth 32) = .ok st) :
      StatusAnswer calls emulator arg1 arg2 arg3 arg4 262 arg3 (convertStat st)

/-! ## The calls -/

/-- A status call that has returned: with an error and the guest unchanged, or with the answer of
the host. -/
def StatusReturned (calls : HostCalls) (emulator : Emulator) (arg1 arg2 arg3 arg4 : U64)
    (number : Nat) (n : U64) (emulator' : Emulator) : Prop :=
  (IsErrno n ∧ emulator' = emulator) ∨
    n = 0 ∧ ∃ address fields,
      StatusAnswer calls emulator arg1 arg2 arg3 arg4 number address fields ∧
        RecordStored address fields emulator emulator'

theorem size_convertStat (st : HostStat) : size (convertStat st) ≤ 2 ^ 64 := by
  rw [← length_bytes, length_guestStat]
  decide

theorem size_convertStatfs (sf : HostStatfs) : size (convertStatfs sf) ≤ 2 ^ 64 := by
  rw [← length_bytes, length_guestStatfs]
  decide

section Calls

variable {calls : HostCalls} {host : Host} {arg1 arg2 arg3 arg4 arg5 arg6 : U64} {number : Nat}

/-- A call that puts the status of a file at an address. -/
theorem statusReturned_stat {answer : Except Errno HostStat}
    (hanswer : ∀ st, answer = .ok st →
      StatusAnswer calls emulator arg1 arg2 arg3 arg4 number address (convertStat st))
    (h : afterHost answer (returnStat address) emulator = .ok n emulator') :
    StatusReturned calls emulator arg1 arg2 arg3 arg4 number n emulator' := by
  obtain hfailed | ⟨st, hst, hstore⟩ := afterHost_eq_ok h
  · exact Or.inl hfailed
  · obtain ⟨hn, hstored⟩ := returnStruct_stored (fits_convertStat st) (size_convertStat st) hstore
    exact Or.inr ⟨hn, address, _, hanswer st hst, hstored⟩

/-- A call that puts the status of a file system at an address. -/
theorem statusReturned_statfs {answer : Except Errno HostStatfs}
    (hanswer : ∀ sf, answer = .ok sf →
      StatusAnswer calls emulator arg1 arg2 arg3 arg4 number address (convertStatfs sf))
    (h : afterHost answer (returnStatfs address) emulator = .ok n emulator') :
    StatusReturned calls emulator arg1 arg2 arg3 arg4 number n emulator' := by
  obtain hfailed | ⟨sf, hsf, hstore⟩ := afterHost_eq_ok h
  · exact Or.inl hfailed
  · obtain ⟨hn, hstored⟩ :=
      returnStruct_stored (fits_convertStatfs sf) (size_convertStatfs sf) hstore
    exact Or.inr ⟨hn, address, _, hanswer sf hsf, hstored⟩

/-- The six status calls: the guest gets an error and nothing has happened, or every field that
it loads is what the host has answered for the path or descriptor that the guest has named. -/
theorem hostSyscall_status {number : U64}
    (hnumber : number.toNat ∈ [4, 5, 6, 137, 138, 262])
    (h : hostSyscall calls host number arg1 arg2 arg3 arg4 arg5 arg6 emulator =
      .ok n emulator') :
    StatusReturned calls emulator arg1 arg2 arg3 arg4 number.toNat n emulator' := by
  unfold hostSyscall at h
  generalize number.toNat = k at hnumber h ⊢
  have hcases : k = 4 ∨ k = 5 ∨ k = 6 ∨ k = 137 ∨ k = 138 ∨ k = 262 := by simpa using hnumber
  rcases hcases with rfl | rfl | rfl | rfl | rfl | rfl
  · obtain ⟨path, _, hpath, hrest⟩ := bind_eq_ok_iff.mp h
    obtain rfl := (readMMU_eq_ok_iff.mp hpath).2
    exact statusReturned_stat (fun _ => .stat hpath) hrest
  · exact statusReturned_stat (fun _ => .fstat) h
  · obtain ⟨path, _, hpath, hrest⟩ := bind_eq_ok_iff.mp h
    obtain rfl := (readMMU_eq_ok_iff.mp hpath).2
    exact statusReturned_stat (fun _ => .lstat hpath) hrest
  · obtain ⟨path, _, hpath, hrest⟩ := bind_eq_ok_iff.mp h
    obtain rfl := (readMMU_eq_ok_iff.mp hpath).2
    exact statusReturned_statfs (fun _ => .statfs hpath) hrest
  · exact statusReturned_statfs (fun _ => .fstatfs) h
  · obtain ⟨path, _, hpath, hrest⟩ := bind_eq_ok_iff.mp h
    obtain rfl := readOptionalString_keeps hpath
    exact statusReturned_stat (fun _ => .newfstatat hpath) hrest

end Calls

section Examples

/-- A guest with a page to be written. -/
def statusGuest : Emulator :=
  Emulator.withMMU {}
    { regions := [Emulator.pageOf 0x2000 (protRead ||| protWrite) []] }

/-- A host on which every descriptor is a file of seven bytes. -/
def sevenBytes : HostCalls :=
  { (default : HostCalls) with fstat := fun _ => .ok { stSize := 7 } }

/-- The guest is told about the file. -/
theorem hostSyscall_status_sevenBytes :
    StatusReturned sevenBytes statusGuest 3 0x2000 0 0 5 0
      (finalState (hostSyscall sevenBytes Emulator.quietHost 5 3 0x2000 0 0 0 0 statusGuest)) := by
  have hrun : hostSyscall sevenBytes Emulator.quietHost 5 3 0x2000 0 0 0 0 statusGuest =
      .ok 0 (finalState
        (hostSyscall sevenBytes Emulator.quietHost 5 3 0x2000 0 0 0 0 statusGuest)) :=
    eq_ok_of_returned (by decide +kernel)
  exact hostSyscall_status (by decide) hrun

end Examples

end LUE
