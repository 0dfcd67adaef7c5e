import LinuxUserspaceEmulator.Emulator.SignalReturn
import LinuxUserspaceEmulator.Library.PointwiseWrites
import LinuxUserspaceEmulator.LinuxSyscalls.HostDispatch
import LinuxUserspaceEmulator.SoftMMU.Words

/-!
# Vectors of buffers

`readv` puts what the host delivers into the buffers of a vector, one after the other, and
`writev` collects the buffers again.  The bytes of a vector stand at a list of addresses, the
buffers end to end; scattering writes at the first of these addresses and gathering reads all
of them, so what `readv` has delivered is what `writev` passes on.

Main results:

- Theorem `guestByte_copyBytesToGuest`: copying to the guest writes at the addresses of a range.
- Theorems `guestByte_copied` and `guestByte_read`: copies address by address.
- Theorem `guestByte_scatter`: scattering writes at the addresses of the vector.
- Theorem `writev_after_readv`: `writev` passes on what `readv` has delivered.
-/

namespace LUE

open StateExcept SoftMMU PointwiseWrites

/-! ## Ranges -/

/-- The addresses of a range, from its start on. -/
def addressesFrom (base : U64) (count : Nat) : List U64 :=
  (List.range count).map fun i => base + BitVec.ofNat 64 i

@[simp]
theorem length_addressesFrom (base : U64) (count : Nat) :
    (addressesFrom base count).length = count := by
  rw [addressesFrom, List.length_map, List.length_range]

variable {mmu mmu' : SoftMMU} {emulator emulator' : Emulator}

/-- Consecutive writes write at the addresses of a range. -/
theorem guestByte_writeBytes {address : U64} {bytes : Nat → U8} {count : Nat}
    (h : writeBytes address bytes count mmu = .ok () mmu') :
    mmu'.guestByte = writeAll mmu.guestByte
      ((List.range count).map fun i => (address + BitVec.ofNat 64 i, bytes i)) := by
  induction count generalizing mmu' with
  | zero =>
      cases h
      rfl
  | succ count ih =>
      obtain ⟨middle, hfirst, hlast⟩ := forOffsets_succ_eq_ok_iff.mp h
      rw [guestByte_of_write8 hlast, ih hfirst, List.range_succ, List.map_append, writeAll_append]
      rfl

/-- Copying to the guest writes at the first addresses of a range. -/
theorem guestByte_copyBytesToGuest {destination : U64} {source : List U8} {count : Nat}
    (hcount : source.length ≤ count)
    (h : copyBytesToGuest destination source emulator = .ok () emulator') :
    emulator'.mmu.guestByte = writeAll emulator.mmu.guestByte
      ((addressesFrom destination count).zip source) := by
  obtain ⟨mmu, hwrite, rfl⟩ := onMMU_eq_ok_iff.mp h
  have hpairs : (List.range source.length).map (fun i =>
      (destination + BitVec.ofNat 64 i, source.getD i 0)) =
        (addressesFrom destination count).zip source := by
    refine List.ext_getElem (by simp [hcount]) fun i hi hi' => ?_
    have hlength : i < source.length := by simpa using hi
    simp [addressesFrom, List.getElem?_eq_getElem hlength]
  rw [← hpairs]
  exact guestByte_writeBytes hwrite

/-- Memory after a copy to the guest, address by address. -/
theorem guestByte_copied {destination : U64} {source : List U8}
    (hlength : source.length ≤ 2 ^ 64)
    (h : copyBytesToGuest destination source emulator = .ok () emulator') (a : U64) :
    emulator'.mmu.guestByte a =
      if (a - destination).toNat < source.length then
        some (source.getD (a - destination).toNat 0)
      else emulator.mmu.guestByte a := by
  obtain ⟨mmu, hwrite, rfl⟩ := onMMU_eq_ok_iff.mp h
  exact guestByte_of_writeBytes hlength hwrite a

/-- What a list of reads has read. -/
theorem map_of_mapM_eq_ok {α β : Type} {f : α → Except Raise β} {g : α → Option β}
    (hfg : ∀ a b, f a = .ok b → g a = some b) {l : List α} {bs : List β}
    (h : l.mapM f = .ok bs) : l.map g = bs.map some := by
  induction l generalizing bs with
  | nil =>
      cases h
      rfl
  | cons a l ih =>
      rw [List.mapM_cons] at h
      obtain ⟨b, hb, hrest⟩ := except_bind_eq_ok_iff.mp h
      obtain ⟨bs', hbs, hreturn⟩ := except_bind_eq_ok_iff.mp hrest
      cases hreturn
      rw [List.map_cons, List.map_cons, hfg a b hb, ih hbs]

/-- Copying from the guest reads the addresses of a range and changes nothing. -/
theorem copyBytesFromGuest_eq_ok {source : U64} {size : Nat} {bytes : List U8}
    (h : copyBytesFromGuest source size emulator = .ok bytes emulator') :
    emulator' = emulator ∧
      (addressesFrom source size).map emulator.mmu.guestByte = bytes.map some := by
  obtain ⟨hread, rfl⟩ := readMMU_eq_ok_iff.mp h
  refine ⟨rfl, ?_⟩
  rw [addressesFrom, List.map_map]
  exact map_of_mapM_eq_ok (fun _ _ => guestByte_of_read8) hread

theorem length_copyBytesFromGuest {source : U64} {size : Nat} {bytes : List U8}
    (h : copyBytesFromGuest source size emulator = .ok bytes emulator') : bytes.length = size := by
  have hlength := congrArg List.length (copyBytesFromGuest_eq_ok h).2
  rwa [List.length_map, List.length_map, length_addressesFrom, eq_comm] at hlength

/-- The bytes that a copy from the guest has read. -/
theorem guestByte_read {source : U64} {size k : Nat} {bytes : List U8}
    (h : copyBytesFromGuest source size emulator = .ok bytes emulator') (hk : k < size) :
    emulator.mmu.guestByte (source + BitVec.ofNat 64 k) = some (bytes.getD k 0) := by
  have hlength : k < bytes.length := by rwa [length_copyBytesFromGuest h]
  have hat := congrArg (fun cells => cells[k]?) (copyBytesFromGuest_eq_ok h).2
  simpa [addressesFrom, hk, hlength] using hat

/-! ## Vectors -/

/-- The addresses of the bytes of a vector, its buffers end to end. -/
def vectorAddresses (entries : List GuestIOVec) : List U64 :=
  entries.flatMap fun entry => addressesFrom entry.base entry.length.toNat

theorem vectorAddresses_cons (entry : GuestIOVec) (entries : List GuestIOVec) :
    vectorAddresses (entry :: entries) =
      addressesFrom entry.base entry.length.toNat ++ vectorAddresses entries :=
  rfl

theorem length_vectorAddresses (entries : List GuestIOVec) :
    (vectorAddresses entries).length = (entries.map fun entry => entry.length.toNat).sum := by
  simp [vectorAddresses, List.length_flatMap]

/-- Scattering some bytes writes them at the first addresses of the vector. -/
theorem guestByte_scatter {entries : List GuestIOVec} {bytes : List U8}
    (h : scatter (entries.zip (fillBuffers (entries.map fun entry => entry.length.toNat) bytes))
      bytes.length emulator = .ok () emulator') :
    emulator'.mmu.guestByte =
      writeAll emulator.mmu.guestByte ((vectorAddresses entries).zip bytes) := by
  induction entries generalizing emulator bytes with
  | nil =>
      cases h
      rfl
  | cons entry entries ih =>
      rw [List.map_cons, fillBuffers, List.zip_cons_cons, scatter] at h
      generalize hsize : entry.length.toNat = size at h
      rw [vectorAddresses_cons, hsize, append_zip, length_addressesFrom]
      split at h <;> rename_i hzero
      · rw [List.length_eq_zero_iff] at hzero
        subst hzero
        cases h
        simp
      · obtain ⟨_, middle, hcopy, hrest⟩ := bind_eq_ok_iff.mp h
        have htaken : (bytes.take size).length = min bytes.length size := by
          rw [List.length_take, min_comm]
        have hbuffer : (bytes.take size ++ List.replicate (size - bytes.length) 0).length =
            size := by
          rw [List.length_append, htaken, List.length_replicate]
          omega
        have hdropped : bytes.length - min bytes.length size = (bytes.drop size).length := by
          rw [List.length_drop]
          omega
        rw [hbuffer, ← htaken, List.take_left] at hcopy
        rw [hbuffer, hdropped] at hrest
        have hcopied := guestByte_copyBytesToGuest (List.length_take_le size bytes) hcopy
        rw [writeAll_append, ih hrest, hcopied]

/-- Gathering reads the addresses of the vector and changes nothing. -/
theorem gather_eq_ok {entries : List GuestIOVec} {buffers : List (List U8)}
    (h : gather entries emulator = .ok buffers emulator') :
    emulator' = emulator ∧
      buffers.map List.length = entries.map (fun entry => entry.length.toNat) ∧
      (vectorAddresses entries).map emulator.mmu.guestByte = buffers.flatten.map some := by
  induction entries generalizing buffers with
  | nil =>
      cases h
      exact ⟨rfl, rfl, rfl⟩
  | cons entry entries ih =>
      obtain ⟨buffer, middle, hcopy, hrest⟩ := bind_eq_ok_iff.mp h
      obtain ⟨rest, last, hgather, hreturn⟩ := bind_eq_ok_iff.mp hrest
      cases hreturn
      obtain ⟨rfl, hbytes⟩ := copyBytesFromGuest_eq_ok hcopy
      obtain ⟨rfl, hlengths, hflat⟩ := ih hgather
      refine ⟨rfl, ?_, ?_⟩
      · rw [List.map_cons, List.map_cons, length_copyBytesFromGuest hcopy, hlengths]
      · rw [vectorAddresses_cons, List.map_append, hbytes, hflat, List.flatten_cons,
          List.map_append]

/-- The entries of a vector are read again where nothing has been written. -/
theorem copyIovecs_again {address : U64} {count : Nat} {entries again : List GuestIOVec}
    {emulator₁ emulator₂ : Emulator} (h : copyIovecs address count emulator = .ok entries emulator₁)
    (h' : copyIovecs address count emulator' = .ok again emulator₂)
    (hsame : ∀ a ∈ addressesFrom address (count * 16),
      emulator'.mmu.guestByte a = emulator.mmu.guestByte a) : again = entries := by
  obtain ⟨buffer, _, hcopy, hreturn⟩ := bind_eq_ok_iff.mp h
  obtain ⟨buffer', _, hcopy', hreturn'⟩ := bind_eq_ok_iff.mp h'
  cases hreturn
  cases hreturn'
  have hbuffers : buffer'.map some = buffer.map some := by
    rw [← (copyBytesFromGuest_eq_ok hcopy).2, ← (copyBytesFromGuest_eq_ok hcopy').2]
    exact List.map_congr_left hsame
  rw [List.map_injective_iff.mpr (Option.some_injective U8) hbuffers]

theorem copyIovecs_keeps {address : U64} {count : Nat} {entries : List GuestIOVec}
    (h : copyIovecs address count emulator = .ok entries emulator') : emulator' = emulator := by
  obtain ⟨buffer, _, hcopy, hreturn⟩ := bind_eq_ok_iff.mp h
  cases hreturn
  exact (copyBytesFromGuest_eq_ok hcopy).1

section Transfer

variable {calls calls' : HostCalls} {fd fd' address count : U64} {entries : List GuestIOVec}
  {filled : Filled (entries.map fun entry => entry.length.toNat).sum}

/-- `readv` puts what the host delivers at the first addresses of the vector. -/
theorem sysReadv_eq_ok {n : U64} (hcount : count ≤ 1024)
    (hentries : copyIovecs address count.toNat emulator = .ok entries emulator)
    (hanswer : calls.readv (fd.setWidth 32) (entries.map fun entry => entry.length.toNat) =
      .ok filled)
    (h : sysReadv calls fd address count emulator = .ok n emulator') :
    n = BitVec.ofNat 64 filled.bytes.length ∧
      emulator'.mmu.guestByte =
        writeAll emulator.mmu.guestByte ((vectorAddresses entries).zip filled.bytes) := by
  rw [sysReadv, if_neg (BitVec.not_lt.mpr hcount), bind_of_ok hentries, hanswer] at h
  obtain ⟨_, scattered, hscatter, hreturn⟩ := bind_eq_ok_iff.mp h
  cases hreturn
  exact ⟨rfl, guestByte_scatter hscatter⟩

/-- `writev` passes on what it has gathered. -/
theorem sysWritev_eq_ok {m : U64} (hcount : count ≤ 1024)
    (h : sysWritev calls fd address count emulator = .ok m emulator') :
    emulator' = emulator ∧ ∃ entries buffers,
      copyIovecs address count.toNat emulator = .ok entries emulator ∧
        gather entries emulator = .ok buffers emulator ∧
          m = syscallResult (calls.writev (fd.setWidth 32) buffers) := by
  rw [sysWritev, if_neg (BitVec.not_lt.mpr hcount)] at h
  obtain ⟨entries, middle, hentries, hrest⟩ := bind_eq_ok_iff.mp h
  obtain ⟨buffers, last, hgather, hreturn⟩ := bind_eq_ok_iff.mp hrest
  cases hreturn
  cases copyIovecs_keeps hentries
  cases (gather_eq_ok hgather).1
  exact ⟨rfl, entries, buffers, hentries, hgather, rfl⟩

/-- What `readv` has delivered into a vector of buffers that share no byte is what `writev` of
the same vector passes to the host, and nothing else has changed. -/
theorem writev_after_readv {n m : U64} {emulator'' : Emulator} (hcount : count ≤ 1024)
    (hentries : copyIovecs address count.toNat emulator = .ok entries emulator)
    (hdistinct : (vectorAddresses entries).Nodup)
    (hapart : List.Disjoint (addressesFrom address (count.toNat * 16)) (vectorAddresses entries))
    (hanswer : calls.readv (fd.setWidth 32) (entries.map fun entry => entry.length.toNat) =
      .ok filled)
    (hread : sysReadv calls fd address count emulator = .ok n emulator')
    (hwrite : sysWritev calls' fd' address count emulator' = .ok m emulator'') :
    n = BitVec.ofNat 64 filled.bytes.length ∧
      (∀ a, a ∉ vectorAddresses entries →
        emulator''.mmu.guestByte a = emulator.mmu.guestByte a) ∧
      ∃ buffers, m = syscallResult (calls'.writev (fd'.setWidth 32) buffers) ∧
        buffers.map List.length = entries.map (fun entry => entry.length.toNat) ∧
        buffers.flatten.take filled.bytes.length = filled.bytes := by
  obtain ⟨hresult, hscattered⟩ := sysReadv_eq_ok hcount hentries hanswer hread
  have hframe : ∀ a, a ∉ vectorAddresses entries →
      emulator'.mmu.guestByte a = emulator.mmu.guestByte a := fun a ha => by
    rw [hscattered, writeAll_zip_of_not_mem ha]
  obtain ⟨rfl, again, buffers, hagain, hgather, hpassed⟩ := sysWritev_eq_ok hcount hwrite
  have hsame : again = entries := copyIovecs_again hentries hagain fun a ha =>
    hframe a (hapart ha)
  subst hsame
  obtain ⟨-, hlengths, hgathered⟩ := gather_eq_ok hgather
  refine ⟨hresult, hframe, buffers, hpassed, hlengths, ?_⟩
  have hfits : filled.bytes.length ≤ (vectorAddresses again).length := by
    rw [length_vectorAddresses]
    exact filled.length_le
  have hback := map_writeAll_zip (f := emulator.mmu.guestByte) hdistinct hfits
  rw [← hscattered, List.map_take, hgathered, ← List.map_take] at hback
  exact List.map_injective_iff.mpr (Option.some_injective U8) hback

end Transfer

section Examples

/-- A vector of two buffers, of two and three bytes. -/
def twoBuffers : List GuestIOVec :=
  [⟨0x2100, 2⟩, ⟨0x2200, 3⟩]

/-- A guest with the vector at the start of a page. -/
def vectorGuest : Emulator :=
  Emulator.withMMU {}
    { regions := [Emulator.pageOf 0x2000 (protRead ||| protWrite)
        (twoBuffers.flatMap GuestIOVec.bytes)] }

/-- A host that delivers up to four bytes and takes whatever it gets. -/
def fourBytes : HostCalls :=
  { (default : HostCalls) with
    readv := fun _ sizes => .ok ⟨[1, 2, 3, 4].take sizes.sum, List.length_take_le _ _⟩
    writev := fun _ buffers => .ok (BitVec.ofNat 64 buffers.flatten.length) }

/-- A guest that reads into the vector and writes it out. -/
def readThenWrite : EmulatorProgram (U64 × U64) := do
  let n ← sysReadv fourBytes 0 0x2000 2
  let m ← sysWritev fourBytes 1 0x2000 2
  return (n, m)

/-- The four bytes come back, in the two buffers. -/
theorem writev_after_readv_twoBuffers :
    ∃ buffers : List (List U8),
      (5 : U64) = syscallResult (fourBytes.writev ((1 : U64).setWidth 32) buffers) ∧
        buffers.map List.length = [2, 3] ∧ buffers.flatten.take 4 = [1, 2, 3, 4] := by
  have hcount : (2 : U64) ≤ 1024 := by decide
  have hcopy : copyIovecs 0x2000 (2 : U64).toNat vectorGuest = .ok twoBuffers
      (finalState (copyIovecs 0x2000 (2 : U64).toNat vectorGuest)) :=
    eq_ok_of_returned (by decide +kernel)
  rw [copyIovecs_keeps hcopy] at hcopy
  have hdistinct : (vectorAddresses twoBuffers).Nodup := by decide +kernel
  have hapart : List.Disjoint (addressesFrom 0x2000 ((2 : U64).toNat * 16))
      (vectorAddresses twoBuffers) := by
    have hbelow : (addressesFrom 0x2000 32).all (· < 0x2100) = true := by decide +kernel
    have habove : (vectorAddresses twoBuffers).all (0x2100 ≤ ·) = true := by decide +kernel
    exact fun a ha ha' => BitVec.not_lt.mpr
      (of_decide_eq_true (List.all_eq_true.mp habove a ha'))
      (of_decide_eq_true (List.all_eq_true.mp hbelow a ha))
  have hanswer : fourBytes.readv ((0 : U64).setWidth 32)
      (twoBuffers.map fun entry => entry.length.toNat) =
        .ok ⟨[1, 2, 3, 4], by decide⟩ := rfl
  have hboth : readThenWrite vectorGuest = .ok (4, 5) (finalState (readThenWrite vectorGuest)) :=
    eq_ok_of_returned (by decide +kernel)
  generalize finalState (readThenWrite vectorGuest) = last at hboth
  obtain ⟨n, middle, hread, hrest⟩ := bind_eq_ok_iff.mp hboth
  obtain ⟨m, last', hwrite, hreturn⟩ := bind_eq_ok_iff.mp hrest
  have hpair : (n, m) = (4, 5) := by
    cases hreturn
    rfl
  cases hpair
  obtain ⟨-, -, buffers, hpassed, hlengths, hbytes⟩ :=
    writev_after_readv hcount hcopy hdistinct hapart hanswer hread hwrite
  exact ⟨buffers, hpassed, hlengths, hbytes⟩

end Examples

end LUE
