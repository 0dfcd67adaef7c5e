import LinuxUserspaceEmulator.Library.OverlappingCopy
import LinuxUserspaceEmulator.LinuxSyscalls.Vectors

/-!
# Arrays of poll entries

`poll` and `ppoll` copy an array of entries out of guest memory, hand it to the host, and copy
the whole array back with the events that the host has returned.  What the guest finds there
are its own entries with these events, and the array is written over itself: only the returned
events can change.

Main results:

- Theorem `GuestPollFD.ofBytes_bytes`: an entry reads back.
- Theorem `getD_bytes_withRevents`: entries with other returned events have the bytes that they
  were read from, but for these events.
- Theorem `sysPoll_polled`: what `poll` leaves in guest memory.
- Theorem `sysPpoll_polled`: `ppoll` leaves the same.
-/

namespace LUE

open StateExcept SoftMMU WordRecord

/-! ## One entry -/

theorem narrow_setWidth {w : Nat} (hw : w ≤ 64) (value : BitVec w) :
    (value.setWidth 64).setWidth w = value := by
  rw [BitVec.setWidth_setWidth_of_le _ hw, BitVec.setWidth_eq]

/-- The bytes of a word that a narrower field keeps. -/
theorem byte_narrow {w i : Nat} (hw : w ≤ 64) (hi : i * 8 + 8 ≤ w) (value : U64) :
    LittleEndian.byte ((value.setWidth w).setWidth 64) i = LittleEndian.byte value i := by
  apply BitVec.eq_of_getLsbD_eq
  intro j hj
  have hinside : i * 8 + j < w := by omega
  have hword : i * 8 + j < 64 := by omega
  simp [LittleEndian.byte, hinside, hword]

namespace GuestPollFD

theorem ofBytes_congr {buffer buffer' : List U8}
    (h : ∀ j < 8, buffer.getD j 0 = buffer'.getD j 0) : ofBytes buffer = ofBytes buffer' := by
  have hword : ∀ offset width, offset + width ≤ 8 →
      wordAt buffer offset width = wordAt buffer' offset width := fun offset width hinside =>
    LittleEndian.assemble_congr fun i hi => h (offset + i) (by omega)
  simp only [ofBytes, hword 0 4 (by decide), hword 4 2 (by decide), hword 6 2 (by decide)]

/-- An entry reads back from its bytes. -/
theorem ofBytes_bytes (entry : GuestPollFD) : ofBytes entry.bytes = entry := by
  obtain ⟨fd, events, revents⟩ := entry
  have hfd : wordAt (bytes ⟨fd, events, revents⟩) 0 4 = fd.setWidth 64 :=
    wordAt_bytes [] _ (fits_setWidth (by decide) (by decide) fd)
  have hevents : wordAt (bytes ⟨fd, events, revents⟩) 4 2 = events.setWidth 64 :=
    wordAt_bytes [⟨4, fd.setWidth 64⟩] _ (fits_setWidth (by decide) (by decide) events)
  have hrevents : wordAt (bytes ⟨fd, events, revents⟩) 6 2 = revents.setWidth 64 :=
    wordAt_bytes [⟨4, fd.setWidth 64⟩, ⟨2, events.setWidth 64⟩] _
      (fits_setWidth (by decide) (by decide) revents)
  rw [ofBytes, hfd, hevents, hrevents, narrow_setWidth (by decide), narrow_setWidth (by decide),
    narrow_setWidth (by decide)]

/-- The descriptor and the requested events keep the six bytes that they were read from. -/
theorem getD_bytes_ofBytes (buffer : List U8) (revents : BitVec 16) {j : Nat} (hj : j < 6) :
    (bytes { ofBytes buffer with revents := revents }).getD j 0 = buffer.getD j 0 := by
  by_cases hfd : j < 4
  · have hfield : (bytes { ofBytes buffer with revents := revents }).getD (0 + j) 0 =
        LittleEndian.byte ((ofBytes buffer).fd.setWidth 64) j := getD_bytes [] _ ⟨4, _⟩ hfd
    have hword : LittleEndian.byte ((ofBytes buffer).fd.setWidth 64) j = buffer.getD (0 + j) 0 :=
      (byte_narrow (by decide) (by omega) _).trans (LittleEndian.byte_assemble (by decide) hfd)
    rw [hword] at hfield
    simpa only [Nat.zero_add] using hfield
  · obtain ⟨i, rfl⟩ := Nat.exists_eq_add_of_le (Nat.le_of_not_lt hfd)
    have hi : i < 2 := by omega
    have hfield : (bytes { ofBytes buffer with revents := revents }).getD (4 + i) 0 =
        LittleEndian.byte ((ofBytes buffer).events.setWidth 64) i :=
      getD_bytes [⟨4, _⟩] _ ⟨2, _⟩ hi
    have hword : LittleEndian.byte ((ofBytes buffer).events.setWidth 64) i =
        buffer.getD (4 + i) 0 :=
      (byte_narrow (by decide) (by omega) _).trans (LittleEndian.byte_assemble (by decide) hi)
    exact hfield.trans hword

end GuestPollFD

/-! ## Arrays -/

theorem getD_drop (buffer : List U8) (n j : Nat) :
    (buffer.drop n).getD j 0 = buffer.getD (n + j) 0 := by
  rw [List.getD_eq_getElem?_getD, List.getD_eq_getElem?_getD, List.getElem?_drop]

/-- The entries of an array read back. -/
theorem map_pollFdAt_flatMap (fds : List GuestPollFD) :
    (List.range fds.length).map (pollFdAt (fds.flatMap GuestPollFD.bytes)) = fds := by
  refine List.ext_getElem (by rw [List.length_map, List.length_range]) fun i _ hi => ?_
  rw [List.getElem_map, List.getElem_range, pollFdAt]
  refine Eq.trans ?_ (GuestPollFD.ofBytes_bytes fds[i])
  refine GuestPollFD.ofBytes_congr fun j hj => ?_
  rw [getD_drop, getD_flatMap GuestPollFD.length_bytes hi hj]

/-- Entries with other returned events have the bytes that they were read from, but for these
events. -/
theorem getD_bytes_withRevents {buffer : List U8} {number : Nat} (revents : Nat → BitVec 16)
    {k : Nat} (hk : k < number * 8) (hkept : k % 8 < 6) :
    ((withRevents ((List.range number).map (pollFdAt buffer)) revents).flatMap
      GuestPollFD.bytes).getD k 0 = buffer.getD k 0 := by
  have hsplit : k / 8 * 8 + k % 8 = k := by omega
  have hi : k / 8 < (withRevents ((List.range number).map (pollFdAt buffer)) revents).length := by
    rw [withRevents, List.length_mapIdx, List.length_map, List.length_range]
    omega
  have hbytes := getD_flatMap (d := 0) GuestPollFD.length_bytes hi (Nat.mod_lt k (by decide))
  rw [hsplit] at hbytes
  rw [hbytes]
  simp only [withRevents, List.getElem_mapIdx, List.getElem_map, List.getElem_range, pollFdAt]
  rw [GuestPollFD.getD_bytes_ofBytes _ _ hkept, getD_drop, Nat.mul_comm]
  exact congrArg (buffer.getD · 0) (by omega)

/-! ## Polling -/

variable {emulator emulator' : Emulator}

/-- What is left of an array when the host has returned events for it: read again, its entries
have these events, and memory has changed in the returned events only. -/
structure Polled (address : U64) (entries : List GuestPollFD) (revents : Nat → BitVec 16)
    (emulator emulator' : Emulator) : Prop where
  again : ∀ {again last}, copyPollFds address entries.length emulator' = .ok again last →
    again = withRevents entries revents
  changed : ∀ a, emulator'.mmu.guestByte a ≠ emulator.mmu.guestByte a →
    (a - address).toNat < entries.length * 8 ∧ 6 ≤ (a - address).toNat % 8

theorem copyPollFds_eq_ok {address : U64} {number : Nat} {entries : List GuestPollFD}
    (hnumber : number ≠ 0) (h : copyPollFds address number emulator = .ok entries emulator') :
    ∃ buffer, copyBytesFromGuest address (number * 8) emulator = .ok buffer emulator' ∧
      entries = (List.range number).map (pollFdAt buffer) := by
  rw [copyPollFds, if_pos hnumber] at h
  obtain ⟨buffer, _, hcopy, hreturn⟩ := bind_eq_ok_iff.mp h
  cases hreturn
  exact ⟨buffer, hcopy, rfl⟩

/-- What has been copied to the guest is copied from there again. -/
theorem eq_of_copied_back {address : U64} {source buffer : List U8} {after last : Emulator}
    (hlength : source.length ≤ 2 ^ 64)
    (hto : copyBytesToGuest address source emulator = .ok () after)
    (hfrom : copyBytesFromGuest address source.length after = .ok buffer last) :
    buffer = source := by
  refine List.ext_getElem (length_copyBytesFromGuest hfrom) fun k hk hk' => ?_
  have hbyte := guestByte_read hfrom hk'
  have hoffset := OverlappingCopy.toNat_add_sub (Nat.lt_of_lt_of_le hk' hlength) address
  rw [guestByte_copied hlength hto, hoffset, if_pos hk', Option.some_inj] at hbyte
  simpa [List.getD_eq_getElem?_getD, hk, hk'] using hbyte.symm

/-- Copying the entries back changes their returned events only. -/
theorem returnPollFds_polled {address n : U64} {number : Nat} {entries : List GuestPollFD}
    {answer : U64 × (Nat → BitVec 16)} (hnumber : number * 8 ≤ 2 ^ 64)
    (hentries : copyPollFds address number emulator = .ok entries emulator)
    (h : returnPollFds address entries answer emulator = .ok n emulator') :
    n = answer.1 ∧ Polled address entries answer.2 emulator emulator' := by
  by_cases hzero : number = 0
  · subst hzero
    cases hentries
    cases h
    refine ⟨rfl, fun hagain => ?_, fun a hchanged => absurd rfl hchanged⟩
    cases hagain
    rfl
  obtain ⟨buffer, hcopy, rfl⟩ := copyPollFds_eq_ok hzero hentries
  generalize hread : (List.range number).map (pollFdAt buffer) = entries at h
  have hlength : entries.length = number := by
    rw [← hread, List.length_map, List.length_range]
  generalize hwritten : (withRevents entries answer.2).flatMap GuestPollFD.bytes = written at h
  have hsize : written.length = number * 8 := by
    rw [← hwritten]
    simp [List.length_flatMap, GuestPollFD.length_bytes, withRevents, hlength]
  rw [returnPollFds, if_pos (hlength ▸ hzero), hwritten] at h
  obtain ⟨_, after, hcopied, hreturn⟩ := bind_eq_ok_iff.mp h
  cases hreturn
  refine ⟨rfl, fun {again last} hagain => ?_, fun a hchanged => ?_⟩
  · -- What is read again has been written.
    rw [hlength] at hagain
    obtain ⟨buffer', hcopy', rfl⟩ := copyPollFds_eq_ok hzero hagain
    rw [← hsize] at hcopy'
    have hsame : buffer' = written := eq_of_copied_back (hsize ▸ hnumber) hcopied hcopy'
    have hback := map_pollFdAt_flatMap (withRevents entries answer.2)
    rw [withRevents, List.length_mapIdx, hlength, ← withRevents, hwritten] at hback
    rw [hsame, hback]
  · -- What has been written over the first six bytes of an entry was there before.
    rw [hlength]
    rw [guestByte_copied (hsize ▸ hnumber) hcopied, hsize] at hchanged
    split at hchanged <;> rename_i hinside
    · refine ⟨hinside, Nat.le_of_not_lt fun hkept => hchanged ?_⟩
      have hbefore := guestByte_read hcopy hinside
      rw [OverlappingCopy.ofNat_sub_toNat] at hbefore
      rw [hbefore, ← hwritten, ← hread, getD_bytes_withRevents answer.2 hinside hkept]
    · exact absurd rfl hchanged

/-! ## The calls -/

section Calls

variable {calls : HostCalls} {address count timeout n : U64} {entries : List GuestPollFD}
  {answer : U64 × (Nat → BitVec 16)}

theorem arraySize_le (hcount : count ≤ 4096) : count.toNat * 8 ≤ 2 ^ 64 := by
  rw [BitVec.le_def] at hcount
  have hlimit : (4096 : U64).toNat = 4096 := rfl
  omega

/-- `poll` returns the number of ready entries; the guest finds its entries with the events that
the host has returned, and nothing else has changed. -/
theorem sysPoll_polled (hcount : count ≤ 4096)
    (hentries : copyPollFds address count.toNat emulator = .ok entries emulator)
    (hanswer : calls.poll entries (timeout.setWidth 32) = .ok answer)
    (h : sysPoll calls address count timeout emulator = .ok n emulator') :
    n = answer.1 ∧ Polled address entries answer.2 emulator emulator' := by
  rw [sysPoll, if_neg (BitVec.not_lt.mpr hcount), bind_of_ok hentries, hanswer] at h
  exact returnPollFds_polled (arraySize_le hcount) hentries h

/-- `ppoll` does the same, whatever it is told about the time. -/
theorem sysPpoll_polled {wait : Option (List U8)} (hcount : count ≤ 4096)
    (hentries : copyPollFds address count.toNat emulator = .ok entries emulator)
    (hwait : copyOptional timeout 16 emulator = .ok wait emulator)
    (hanswer : calls.ppoll entries (wait.map GuestTimespec.ofBytes) = .ok answer)
    (h : sysPpoll calls address count timeout emulator = .ok n emulator') :
    n = answer.1 ∧ Polled address entries answer.2 emulator emulator' := by
  rw [sysPpoll, if_neg (BitVec.not_lt.mpr hcount), bind_of_ok hentries, bind_of_ok hwait,
    hanswer] at h
  exact returnPollFds_polled (arraySize_le hcount) hentries h

end Calls

section Examples

/-- A descriptor to read from and one to write to. -/
def twoDescriptors : List GuestPollFD :=
  [⟨3, 1, 0⟩, ⟨4, 4, 0⟩]

/-- A guest with the entries at the start of a page. -/
def pollingGuest : Emulator :=
  Emulator.withMMU {}
    { regions := [Emulator.pageOf 0x2000 (protRead ||| protWrite)
        (twoDescriptors.flatMap GuestPollFD.bytes)] }

/-- A host on which the second descriptor is ready. -/
def secondReady : HostCalls :=
  { (default : HostCalls) with poll := fun _ _ => .ok (1, fun i => if i = 1 then 4 else 0) }

/-- The guest finds the event in the second entry. -/
theorem sysPoll_polled_twoDescriptors :
    Polled 0x2000 twoDescriptors (fun i => if i = 1 then 4 else 0) pollingGuest
      (finalState (sysPoll secondReady 0x2000 2 0 pollingGuest)) := by
  have hentries : copyPollFds 0x2000 (2 : U64).toNat pollingGuest = .ok twoDescriptors
      (finalState (copyPollFds 0x2000 (2 : U64).toNat pollingGuest)) :=
    eq_ok_of_returned (by decide +kernel)
  obtain ⟨_, hcopy, -⟩ := copyPollFds_eq_ok (by decide) hentries
  rw [(copyBytesFromGuest_eq_ok hcopy).1] at hentries
  have hrun : sysPoll secondReady 0x2000 2 0 pollingGuest =
      .ok 1 (finalState (sysPoll secondReady 0x2000 2 0 pollingGuest)) :=
    eq_ok_of_returned (by decide +kernel)
  exact (sysPoll_polled (by decide) hentries rfl hrun).2

end Examples

end LUE
