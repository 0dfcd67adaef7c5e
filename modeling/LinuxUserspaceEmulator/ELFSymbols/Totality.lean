import LinuxUserspaceEmulator.ELFSymbols
import LinuxUserspaceEmulator.Library.StateExcept
import Mathlib.Data.List.TakeWhile

/-!
# Total reading of symbols

The symbol reader trusts no offset, count, link or name of the file.  Once the ELF header
is accepted every object it reads lies inside the file, and so does every index of a name.

Main results:

- Theorem `readTable_of_fits`: a table inside the file is read without an error.
- Theorem `checkedSymbolNameAt_eq`: the loop over a name stays inside the file.
- Theorem `readElfImageInfo_total`: the reader raises a header error or returns.
-/

namespace LUE

open ELF StateExcept

variable {path : String} {data : List U8}

/-! ## Objects and tables -/

/-- An object that lies inside the file is read. -/
theorem objectAt_of_le {size : Nat} {offset : U64} (description : String)
    (h : offset.toNat + size ≤ data.length) :
    objectAt data size offset description = .ok ((data.drop offset.toNat).take size) := by
  unfold objectAt
  rw [if_neg]
  omega

/-- The entries of a table that lies inside the file are read: the offset of an entry may
wrap, but the wrapped offset is only smaller. -/
theorem readTable_of_fits {α : Type} (ofBytes : List U8 → α) {offset entsize : U64}
    {size count : Nat} (hsize : size ≤ entsize.toNat)
    (h : offset.toNat + count * entsize.toNat ≤ data.length) :
    ∃ table, readTable ofBytes data offset entsize size count = .ok table := by
  unfold readTable
  refine ⟨_, mapM_eq_ok (g := fun i => ofBytes
    ((data.drop (offset + BitVec.ofNat 64 i * entsize).toNat).take size)) fun i hi => ?_⟩
  have hcount : i + 1 ≤ count := List.mem_range.mp hi
  have hentry : (i + 1) * entsize.toNat ≤ count * entsize.toNat := Nat.mul_le_mul_right _ hcount
  have hindex : (BitVec.ofNat 64 i * entsize).toNat ≤ i * entsize.toNat := by
    rw [BitVec.toNat_mul, BitVec.toNat_ofNat]
    exact (Nat.mod_le _ _).trans (Nat.mul_le_mul_right _ (Nat.mod_le _ _))
  have hoffset : (offset + BitVec.ofNat 64 i * entsize).toNat ≤
      offset.toNat + i * entsize.toNat := by
    rw [BitVec.toNat_add]
    exact (Nat.mod_le _ _).trans (Nat.add_le_add_left hindex _)
  rw [objectAt_of_le]
  · rfl
  · rw [Nat.succ_mul] at hentry
    omega

/-- What `tableFits` checks is enough to read the table. -/
theorem readTable_of_tableFits {α : Type} (ofBytes : List U8 → α) {offset : U64}
    {entsize count : U16} {size : Nat} (h : tableFits data offset entsize count size) :
    ∃ table, readTable ofBytes data offset (entsize.setWidth 64) size count.toNat =
      .ok table := by
  simp only [tableFits, Bool.and_eq_true, decide_eq_true_eq, beq_iff_eq] at h
  obtain ⟨⟨⟨-, hsize⟩, hoffset⟩, hfits⟩ := h
  have hwidth : (entsize.setWidth 64).toNat = entsize.toNat := by
    simp only [BitVec.toNat_setWidth]
    omega
  apply readTable_of_fits
  · omega
  · rw [hwidth]
    omega

/-! ## The header -/

/-- The header that `read_elf_image_info` accepts. -/
def readEhdr (path : String) (data : List U8) : Except Raise Ehdr :=
  if data.length < sizeofEhdr then
    .error (.emulatorError (path ++ " is too small to be an ELF64 file"))
  else do
    let header ← objectAt data sizeofEhdr 0 "ELF symbol object"
    checkEhdr path (Ehdr.ofBytes header)
    return Ehdr.ofBytes header

/-- The errors that reject a header. -/
def headerErrors (path : String) : List Raise :=
  [.emulatorError (path ++ " is too small to be an ELF64 file"),
    .emulatorError (path ++ " is not an ELF file"),
    .emulatorError (path ++ " is not a supported x86_64 ELF"),
    .emulatorError (path ++ " is neither ET_EXEC nor ET_DYN")]

theorem checkEhdr_error {ehdr : Ehdr} {e : Raise} (h : checkEhdr path ehdr = .error e) :
    e ∈ headerErrors path := by
  unfold checkEhdr at h
  split at h
  · cases h
    simp [headerErrors]
  split at h
  · cases h
    simp [headerErrors]
  split at h
  · cases h
    simp [headerErrors]
  · cases h

/-- The header object itself is never past the end of the file. -/
theorem readEhdr_error {e : Raise} (h : readEhdr path data = .error e) :
    e ∈ headerErrors path := by
  unfold readEhdr at h
  split at h
  · cases h
    simp [headerErrors]
  · rename_i hsize
    rw [except_bind_of_ok (objectAt_of_le _ (by simpa using hsize))] at h
    cases hcheck : checkEhdr path (Ehdr.ofBytes ((data.drop (0 : U64).toNat).take sizeofEhdr)) with
    | error e' =>
        rw [hcheck] at h
        cases h
        exact checkEhdr_error hcheck
    | ok =>
        rw [hcheck] at h
        cases h

/-- The program headers, when the file contains their table. -/
def readPhdrs (data : List U8) (ehdr : Ehdr) : Except Raise (List Phdr) :=
  if tableFits data ehdr.phoff ehdr.phentsize ehdr.phnum sizeofPhdr then
    readTable Phdr.ofBytes data ehdr.phoff (ehdr.phentsize.setWidth 64) sizeofPhdr
      ehdr.phnum.toNat
  else .ok []

/-- The function symbols, when the file contains its section headers. -/
def readFunctionSymbols (data : List U8) (ehdr : Ehdr) : Except Raise (List ELFSymbol) :=
  if tableFits data ehdr.shoff ehdr.shentsize ehdr.shnum sizeofShdr then
    readTable Shdr.ofBytes data ehdr.shoff (ehdr.shentsize.setWidth 64) sizeofShdr
      ehdr.shnum.toNat >>= functionSymbolsOf data
  else .ok []

/-- An accepted header is the first object of the file. -/
theorem readEhdr_eq_ok {ehdr : Ehdr} (h : readEhdr path data = .ok ehdr) :
    ehdr = Ehdr.ofBytes (data.take sizeofEhdr) := by
  unfold readEhdr at h
  split at h
  · cases h
  · obtain ⟨header, hheader, hrest⟩ := except_bind_eq_ok_iff.mp h
    obtain ⟨-, -, hend⟩ := except_bind_eq_ok_iff.mp hrest
    unfold objectAt at hheader
    split at hheader
    · cases hheader
    · cases hheader
      cases hend
      rfl

/-- What follows an accepted header: the program headers, then the symbol tables. -/
def readTables (data : List U8) (ehdr : Ehdr) : Except Raise ELFImageInfo := do
  let phdrs ← readPhdrs data ehdr
  let info := phdrs.foldl addPhdr { minVaddr := BitVec.allOnes 64 }
  let symbols ← readFunctionSymbols data ehdr
  return { info with
    minVaddr := if info.minVaddr = BitVec.allOnes 64 then 0 else info.minVaddr
    functionSymbols := symbols.insertionSort fun a b => a.value ≤ b.value }

theorem readElfImageInfo_eq :
    readElfImageInfo path data = readEhdr path data >>= readTables data := by
  unfold readElfImageInfo readEhdr
  simp only [bind, Except.bind, pure, Except.pure, throw, throwThe, MonadExceptOf.throw]
  split
  · rfl
  cases objectAt data sizeofEhdr 0 "ELF symbol object" with
  | error e => rfl
  | ok header =>
      dsimp only
      cases checkEhdr path (Ehdr.ofBytes header) with
      | error e => rfl
      | ok =>
          simp only [readTables, readPhdrs, readFunctionSymbols, bind, Except.bind, pure,
            Except.pure]
          -- Both sides branch on the same tables; the minimum is put in order here or there.
          split
          · cases readTable Phdr.ofBytes data (Ehdr.ofBytes header).phoff
              ((Ehdr.ofBytes header).phentsize.setWidth 64) sizeofPhdr
              (Ehdr.ofBytes header).phnum.toNat with
            | error e => rfl
            | ok phdrs =>
                dsimp only
                split <;> split <;> grind
          · split <;> split <;> grind

/-! ## Symbol names -/

/-- The loop of `symbol_name_at`, with every index into the file checked. -/
def nameBytes (data : List U8) (limit i : Nat) : Except Raise (List U8) :=
  if i < limit then
    match data[i]? with
    | none => .error .hostFault
    | some byte =>
        if byte = 0 then .ok []
        else do
          let rest ← nameBytes data limit (i + 1)
          return byte :: rest
  else .ok []
termination_by limit - i

/-- `symbol_name_at` through its loop. -/
def checkedSymbolNameAt (data : List U8) (strings : Shdr) (offset : U32) :
    Except Raise String :=
  if offset.toNat ≥ strings.size.toNat then .ok ""
  else
    let start := strings.offset + offset.setWidth 64
    if start.toNat ≥ data.length then .ok ""
    else do
      let limit := min data.length (strings.offset + strings.size).toNat
      let bytes ← nameBytes data limit start.toNat
      return String.ofList ((bytes.map fun byte => Char.ofNat byte.toNat).takeWhile (· ≠ '@'))

/-- A limit inside the file keeps the loop inside the file. -/
theorem nameBytes_of_le {limit : Nat} (hlimit : limit ≤ data.length) (i : Nat) :
    nameBytes data limit i =
      .ok (((data.drop i).take (limit - i)).takeWhile (· ≠ 0)) := by
  induction h : limit - i generalizing i with
  | zero =>
      rw [nameBytes, if_neg (by omega)]
      simp
  | succ n ih =>
      have hi : i < data.length := by omega
      rw [nameBytes, if_pos (by omega), List.getElem?_eq_getElem hi, List.drop_eq_getElem_cons hi,
        List.take_succ_cons, List.takeWhile_cons]
      dsimp only
      by_cases hbyte : data[i] = 0
      · simp [hbyte]
      · rw [ih (i + 1) (by omega), if_neg hbyte, if_pos (by simpa using hbyte)]
        rfl

theorem checkedSymbolNameAt_eq (strings : Shdr) (offset : U32) :
    checkedSymbolNameAt data strings offset = .ok (symbolNameAt data strings offset) := by
  unfold checkedSymbolNameAt symbolNameAt
  split
  · rfl
  · dsimp only
    split
    · rfl
    · rw [nameBytes_of_le (Nat.min_le_left _ _)]
      rfl

/-- A name without terminator and without version suffix. -/
def IsSymbolName (name : String) : Prop :=
  name ≠ "" ∧ Char.ofNat 0 ∉ name.toList ∧ '@' ∉ name.toList

theorem ofNat_byte_ne_nul {byte : U8} (h : byte ≠ 0) : Char.ofNat byte.toNat ≠ Char.ofNat 0 := by
  revert h byte
  decide +revert

theorem symbolNameAt_isSymbolName {strings : Shdr} {offset : U32}
    (h : symbolNameAt data strings offset ≠ "") :
    IsSymbolName (symbolNameAt data strings offset) := by
  refine ⟨h, ?_⟩
  unfold symbolNameAt at h ⊢
  split at h
  · contradiction
  · dsimp only at h ⊢
    split at h
    · contradiction
    · rename_i hoffset hstart
      rw [if_neg hoffset, if_neg hstart, String.toList_ofList]
      constructor
      · intro hmem
        obtain ⟨byte, hbyte, heq⟩ := List.mem_map.mp (List.takeWhile_subset _ hmem)
        have hne : byte ≠ 0 := by simpa using List.mem_takeWhile_imp hbyte
        exact ofNat_byte_ne_nul hne heq
      · intro hmem
        simpa using List.mem_takeWhile_imp hmem

/-! ## Symbol tables -/

theorem sectionSymbols_ok {strings entry : Shdr} (hentsize : entry.entsize.toNat = sizeofSym)
    (hoffset : entry.offset.toNat ≤ data.length)
    (hsize : entry.size.toNat ≤ data.length - entry.offset.toNat) :
    ∃ symbols, sectionSymbols data strings entry = .ok symbols ∧
      ∀ symbol ∈ symbols, IsSymbolName symbol.name := by
  have hcount := Nat.div_mul_le_self entry.size.toNat entry.entsize.toNat
  have hread : ∃ table, readTable Sym.ofBytes data entry.offset entry.entsize sizeofSym
      (entry.size.toNat / entry.entsize.toNat) = .ok table :=
    readTable_of_fits Sym.ofBytes (Nat.le_of_eq hentsize.symm) (by omega)
  obtain ⟨table, htable⟩ := hread
  refine ⟨_, except_bind_of_ok htable, ?_⟩
  intro symbol hsymbol
  obtain ⟨entry, -, hentry⟩ := List.mem_filterMap.mp hsymbol
  split at hentry
  · cases hentry
  · dsimp only at hentry
    split at hentry
    · cases hentry
    · rename_i hname
      cases hentry
      exact symbolNameAt_isSymbolName hname

theorem functionSymbolsOf_ok (sections : List Shdr) :
    ∃ symbols, functionSymbolsOf data sections = .ok symbols ∧
      ∀ symbol ∈ symbols, IsSymbolName symbol.name := by
  unfold functionSymbolsOf
  have hflatten : ∀ tables : List (List ELFSymbol),
      (∀ table ∈ tables, ∀ symbol ∈ table, IsSymbolName symbol.name) →
        ∃ symbols, (.ok tables.flatten : Except Raise (List ELFSymbol)) = .ok symbols ∧
          ∀ symbol ∈ symbols, IsSymbolName symbol.name := by
    intro tables hnames
    refine ⟨_, rfl, fun symbol hsymbol => ?_⟩
    obtain ⟨table, htable, hmem⟩ := List.mem_flatten.mp hsymbol
    exact hnames table htable symbol hmem
  refine exists_mapM_bind_eq_ok (fun entry _ => ?_) hflatten
  split
  · exact ⟨[], rfl, by simp⟩
  · -- a section that is not skipped links to a section that exists
    rename_i hskip
    simp only [skipSection, Bool.or_eq_true, Bool.and_eq_true, decide_eq_true_eq,
      not_or, ne_eq, not_not, ge_iff_le, gt_iff_lt, Nat.not_lt, Nat.not_le] at hskip
    obtain ⟨⟨-, hentsize, hlink⟩, hoffset, hsize⟩ := hskip
    rw [List.getElem?_eq_getElem hlink]
    dsimp only
    split
    · exact ⟨[], rfl, by simp⟩
    · exact sectionSymbols_ok hentsize hoffset hsize

/-! ## The whole reader -/

theorem readPhdrs_ok (data : List U8) (ehdr : Ehdr) : ∃ phdrs, readPhdrs data ehdr = .ok phdrs := by
  unfold readPhdrs
  split
  · exact readTable_of_tableFits _ ‹_›
  · exact ⟨[], rfl⟩

theorem readFunctionSymbols_ok (data : List U8) (ehdr : Ehdr) :
    ∃ symbols, readFunctionSymbols data ehdr = .ok symbols ∧
      ∀ symbol ∈ symbols, IsSymbolName symbol.name := by
  unfold readFunctionSymbols
  split
  · obtain ⟨sections, hsections⟩ := readTable_of_tableFits Shdr.ofBytes ‹_›
    rw [except_bind_of_ok hsections]
    exact functionSymbolsOf_ok sections
  · exact ⟨[], rfl, by simp⟩

theorem readTables_ok (ehdr : Ehdr) :
    ∃ info, readTables data ehdr = .ok info ∧
      ∀ symbol ∈ info.functionSymbols, IsSymbolName symbol.name := by
  obtain ⟨phdrs, hphdrs⟩ := readPhdrs_ok data ehdr
  obtain ⟨symbols, hsymbols, hnames⟩ := readFunctionSymbols_ok data ehdr
  unfold readTables
  rw [except_bind_of_ok hphdrs, except_bind_of_ok hsymbols]
  refine ⟨_, rfl, ?_⟩
  intro symbol hsymbol
  exact hnames symbol ((List.perm_insertionSort _ _).mem_iff.mp hsymbol)

/-- On every content of the file the reader raises one of the errors that reject a header,
or it returns.  After an accepted header no bound check fails and no name is read past the
end of the file, and every name it returns is one. -/
theorem readElfImageInfo_total (path : String) (data : List U8) :
    ((∃ e ∈ headerErrors path,
        readEhdr path data = .error e ∧ readElfImageInfo path data = .error e) ∨
      ∃ ehdr info, readEhdr path data = .ok ehdr ∧ readElfImageInfo path data = .ok info ∧
        ∀ symbol ∈ info.functionSymbols, IsSymbolName symbol.name) ∧
      ∀ (strings : Shdr) (offset : U32),
        checkedSymbolNameAt data strings offset = .ok (symbolNameAt data strings offset) := by
  refine ⟨?_, checkedSymbolNameAt_eq⟩
  rw [readElfImageInfo_eq]
  cases hread : readEhdr path data with
  | error e => exact Or.inl ⟨e, readEhdr_error hread, rfl, rfl⟩
  | ok ehdr =>
      obtain ⟨info, hinfo, hnames⟩ := readTables_ok ehdr
      exact Or.inr ⟨ehdr, info, rfl, hinfo, hnames⟩

end LUE
