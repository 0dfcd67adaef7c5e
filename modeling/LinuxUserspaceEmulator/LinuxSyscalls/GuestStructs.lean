import LinuxUserspaceEmulator.Library.WordRecord
import LinuxUserspaceEmulator.Types

/-!
# The structures of the system-call interface

The emulator declares the structures that cross the boundary between guest and kernel itself,
with a `static_assert` for the size of each.  They are words without gaps, `GuestUtsname`
aside, which is six character arrays.

Main results:

- Theorem `length_guestStat` and its companions: the sizes that the source asserts.
- Theorem `GuestIOVec.ofBytes_bytes`: a structure of two words reads back.
-/

namespace LUE

open WordRecord

/-! ## Pairs of words -/

/-- `GuestTimespec`. -/
structure GuestTimespec where
  tvSec : U64 := 0
  tvNsec : U64 := 0
deriving DecidableEq, Repr

/-- `GuestTimeval`. -/
structure GuestTimeval where
  tvSec : U64 := 0
  tvUsec : U64 := 0
deriving DecidableEq, Repr

/-- `GuestIOVec`. -/
structure GuestIOVec where
  base : U64
  length : U64
deriving DecidableEq, Repr

/-- `GuestRLimit64`. -/
structure GuestRLimit64 where
  rlimCur : U64 := 0
  rlimMax : U64 := 0
deriving DecidableEq, Repr

/-- The bytes of a structure of two 64-bit words. -/
def pairBytes (first second : U64) : List U8 :=
  WordRecord.bytes [⟨8, first⟩, ⟨8, second⟩]

def GuestTimespec.bytes (time : GuestTimespec) : List U8 :=
  pairBytes time.tvSec time.tvNsec

def GuestTimespec.ofBytes (buffer : List U8) : GuestTimespec :=
  ⟨wordAt buffer 0 8, wordAt buffer 8 8⟩

def GuestTimeval.bytes (time : GuestTimeval) : List U8 :=
  pairBytes time.tvSec time.tvUsec

def GuestTimeval.ofBytes (buffer : List U8) : GuestTimeval :=
  ⟨wordAt buffer 0 8, wordAt buffer 8 8⟩

def GuestIOVec.bytes (entry : GuestIOVec) : List U8 :=
  pairBytes entry.base entry.length

def GuestIOVec.ofBytes (buffer : List U8) : GuestIOVec :=
  ⟨wordAt buffer 0 8, wordAt buffer 8 8⟩

def GuestRLimit64.bytes (limit : GuestRLimit64) : List U8 :=
  pairBytes limit.rlimCur limit.rlimMax

def GuestRLimit64.ofBytes (buffer : List U8) : GuestRLimit64 :=
  ⟨wordAt buffer 0 8, wordAt buffer 8 8⟩

/-! ## Poll entries -/

/-- `GuestPollFD`. -/
structure GuestPollFD where
  fd : BitVec 32
  events : BitVec 16
  revents : BitVec 16
deriving DecidableEq, Repr

def GuestPollFD.bytes (entry : GuestPollFD) : List U8 :=
  WordRecord.bytes
    [⟨4, entry.fd.setWidth 64⟩, ⟨2, entry.events.setWidth 64⟩, ⟨2, entry.revents.setWidth 64⟩]

def GuestPollFD.ofBytes (buffer : List U8) : GuestPollFD :=
  ⟨(wordAt buffer 0 4).setWidth 32, (wordAt buffer 4 2).setWidth 16,
    (wordAt buffer 6 2).setWidth 16⟩

/-! ## File status -/

/-- The fields of the host's `struct stat` that `convert_stat` copies. -/
structure HostStat where
  stDev : U64 := 0
  stIno : U64 := 0
  stNlink : U64 := 0
  stMode : BitVec 32 := 0
  stUid : BitVec 32 := 0
  stGid : BitVec 32 := 0
  stRdev : U64 := 0
  stSize : U64 := 0
  stBlksize : U64 := 0
  stBlocks : U64 := 0
  stAtim : GuestTimespec := {}
  stMtim : GuestTimespec := {}
  stCtim : GuestTimespec := {}
deriving DecidableEq, Repr

/-- `convert_stat`: the fields of `GuestStat` in order, padding and spare words zero. -/
def convertStat (st : HostStat) : List Field :=
  [⟨8, st.stDev⟩, ⟨8, st.stIno⟩, ⟨8, st.stNlink⟩, ⟨4, st.stMode.setWidth 64⟩,
    ⟨4, st.stUid.setWidth 64⟩, ⟨4, st.stGid.setWidth 64⟩, ⟨4, 0⟩, ⟨8, st.stRdev⟩,
    ⟨8, st.stSize⟩, ⟨8, st.stBlksize⟩, ⟨8, st.stBlocks⟩, ⟨8, st.stAtim.tvSec⟩,
    ⟨8, st.stAtim.tvNsec⟩, ⟨8, st.stMtim.tvSec⟩, ⟨8, st.stMtim.tvNsec⟩, ⟨8, st.stCtim.tvSec⟩,
    ⟨8, st.stCtim.tvNsec⟩, ⟨8, 0⟩, ⟨8, 0⟩, ⟨8, 0⟩]

/-- The fields of the host's `struct statfs` that `convert_statfs` copies. -/
structure HostStatfs where
  fType : U64 := 0
  fBsize : U64 := 0
  fBlocks : U64 := 0
  fBfree : U64 := 0
  fBavail : U64 := 0
  fFiles : U64 := 0
  fFfree : U64 := 0
  fFsid : BitVec 32 × BitVec 32 := (0, 0)
  fNamelen : U64 := 0
  fFrsize : U64 := 0
  fFlags : U64 := 0
deriving DecidableEq, Repr

/-- `convert_statfs`: the fields of `GuestStatfs` in order, spare words zero. -/
def convertStatfs (sf : HostStatfs) : List Field :=
  [⟨8, sf.fType⟩, ⟨8, sf.fBsize⟩, ⟨8, sf.fBlocks⟩, ⟨8, sf.fBfree⟩, ⟨8, sf.fBavail⟩,
    ⟨8, sf.fFiles⟩, ⟨8, sf.fFfree⟩, ⟨4, sf.fFsid.1.setWidth 64⟩, ⟨4, sf.fFsid.2.setWidth 64⟩,
    ⟨8, sf.fNamelen⟩, ⟨8, sf.fFrsize⟩, ⟨8, sf.fFlags⟩, ⟨8, 0⟩, ⟨8, 0⟩, ⟨8, 0⟩, ⟨8, 0⟩]

/-! ## System names -/

/-- The strings of the host's `struct utsname`. -/
structure HostUtsname where
  sysname : List U8 := []
  nodename : List U8 := []
  release : List U8 := []
  version : List U8 := []
  domainname : List U8 := []
deriving DecidableEq, Repr

/-- `copy_capped`: a string in an array, cut off for its NUL and filled up with NULs. -/
def copyCapped (source : List U8) (size : Nat) : List U8 :=
  let kept := (source.takeWhile (· ≠ 0)).take (size - 1)
  kept ++ List.replicate (size - kept.length) 0

/-- The machine that `uname` names. -/
def machineName : List U8 :=
  "x86_64".toList.map fun c => BitVec.ofNat 8 c.toNat

/-- The bytes of `GuestUtsname`. -/
def guestUtsname (host : HostUtsname) : List U8 :=
  [host.sysname, host.nodename, host.release, host.version, machineName,
    host.domainname].flatMap fun name => copyCapped name 65

/-! ## Sizes -/

theorem length_copyCapped (source : List U8) {size : Nat} (h : 0 < size) :
    (copyCapped source size).length = size := by
  simp only [copyCapped, List.length_append, List.length_take, List.length_replicate]
  omega

theorem length_guestStat (st : HostStat) : (WordRecord.bytes (convertStat st)).length = 144 := by
  rw [WordRecord.length_bytes]
  simp only [WordRecord.size, convertStat, List.map_cons, List.map_nil, List.sum_cons,
    List.sum_nil]
  rfl

theorem length_guestStatfs (sf : HostStatfs) :
    (WordRecord.bytes (convertStatfs sf)).length = 120 := by
  rw [WordRecord.length_bytes]
  simp only [WordRecord.size, convertStatfs, List.map_cons, List.map_nil, List.sum_cons,
    List.sum_nil]
  rfl

theorem length_guestUtsname (host : HostUtsname) : (guestUtsname host).length = 390 := by
  simp [guestUtsname, length_copyCapped]

theorem length_pairBytes (first second : U64) : (pairBytes first second).length = 16 :=
  WordRecord.length_bytes _

theorem GuestPollFD.length_bytes (entry : GuestPollFD) : entry.bytes.length = 8 :=
  WordRecord.length_bytes _

/-! ## Reading back -/

theorem fits_word (value : U64) : Field.Fits ⟨8, value⟩ :=
  ⟨Nat.le_refl 8, value.isLt⟩

/-- A narrower value fits its width. -/
theorem fits_setWidth {w width : Nat} (hwidth : width ≤ 8) (hw : w ≤ width * 8)
    (value : BitVec w) : Field.Fits ⟨width, value.setWidth 64⟩ := by
  refine ⟨hwidth, ?_⟩
  rw [BitVec.toNat_setWidth]
  calc value.toNat % 2 ^ 64 ≤ value.toNat := Nat.mod_le _ _
    _ < 2 ^ w := value.isLt
    _ ≤ 2 ^ (width * 8) := Nat.pow_le_pow_right (by decide) hw

theorem GuestIOVec.ofBytes_bytes (entry : GuestIOVec) : ofBytes entry.bytes = entry := by
  have hbase := wordAt_bytes [] [⟨8, entry.length⟩] (fits_word entry.base)
  have hlength := wordAt_bytes [⟨8, entry.base⟩] [] (fits_word entry.length)
  cases entry
  exact congrArg₂ GuestIOVec.mk hbase hlength

/-- Every field of a file status fits its width. -/
theorem fits_convertStat (st : HostStat) : ∀ field ∈ convertStat st, field.Fits := by
  simp only [convertStat, List.forall_mem_cons, List.not_mem_nil, false_implies, implies_true,
    and_true, fits_word, true_and]
  exact ⟨fits_setWidth (by decide) (by decide) st.stMode,
    fits_setWidth (by decide) (by decide) st.stUid,
    fits_setWidth (by decide) (by decide) st.stGid, by decide, by decide⟩

theorem fits_convertStatfs (sf : HostStatfs) : ∀ field ∈ convertStatfs sf, field.Fits := by
  simp only [convertStatfs, List.forall_mem_cons, List.not_mem_nil, false_implies, implies_true,
    and_true, fits_word, true_and]
  exact ⟨fits_setWidth (by decide) (by decide) sf.fFsid.1,
    fits_setWidth (by decide) (by decide) sf.fFsid.2⟩

end LUE
