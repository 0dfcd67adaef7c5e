import LinuxUserspaceEmulator.ELFLoader.Segments
import LinuxUserspaceEmulator.ELFSymbols.Totality
import LinuxUserspaceEmulator.Emulator.Load
import Mathlib.Order.Bounds.Basic

/-!
# Where a loaded image is registered

The loader adds the bias of a file to every address in it.  `register_loaded_image`
subtracts the lowest page of the file from the address it is given.  That is right for the
address of the lowest mapping, which `register_mapped_file` passes.  `load` passes the bias.

Main results:

- Theorem `pageBounds_of_readElfImageInfo`: the symbolizer sees the segments of the loader.
- Theorem `registerExecutable_agrees_iff`: the registered image is where the loader put the
  file exactly when the file starts at page zero, up to files whose image reaches past their
  segments or that have nothing to find.
-/

namespace LUE

open StateExcept SoftMMU ELF

variable {path : String} {data : List U8} {info : ELFImageInfo} {phdrs : List Phdr}
  {loadBase low high : U64}

/-! ## What the symbolizer reads -/

/-- A fold that takes the minimum with every element ends with the least of them and its
start. -/
theorem foldl_isLeast {α β γ : Type*} [LinearOrder γ] (key : β → γ) (value : α → γ)
    {f : β → α → β} (hstep : ∀ b a, key (f b a) = min (key b) (value a)) (l : List α) (b : β) :
    IsLeast {c | c = key b ∨ ∃ a ∈ l, value a = c} (key (l.foldl f b)) := by
  induction l generalizing b with
  | nil =>
      constructor
      · exact Or.inl rfl
      · rintro c (rfl | ⟨a, ha, -⟩)
        · exact le_rfl
        · cases ha
  | cons a l ih =>
      rcases ih (f b a) with ⟨hmem, hleast⟩
      have hfirst : key (l.foldl f (f b a)) ≤ min (key b) (value a) :=
        (hleast (Or.inl rfl)).trans_eq (hstep b a)
      constructor
      · rcases hmem with heq | ⟨c, hc, heq⟩
        · rw [hstep] at heq
          rcases le_total (key b) (value a) with hmin | hmin
          · exact Or.inl (heq.trans (min_eq_left hmin))
          · exact Or.inr ⟨a, List.mem_cons_self, (heq.trans (min_eq_right hmin)).symm⟩
        · exact Or.inr ⟨c, List.mem_cons_of_mem a hc, heq⟩
      · rintro c (rfl | ⟨d, hd, rfl⟩)
        · exact hfirst.trans (min_le_left _ _)
        · rcases List.mem_cons.mp hd with rfl | hd
          · exact hfirst.trans (min_le_right _ _)
          · exact hleast (Or.inr ⟨d, hd, rfl⟩)

/-- The program headers that `read_elf_image_info` walks. -/
def imagePhdrs (data : List U8) : Except Raise (List Phdr) :=
  let ehdr := ehdrOf data
  if tableFits data ehdr.phoff ehdr.phentsize ehdr.phnum sizeofPhdr then
    readTable Phdr.ofBytes data ehdr.phoff (ehdr.phentsize.setWidth 64) sizeofPhdr
      ehdr.phnum.toNat
  else .ok []

/-- The walk over the program headers. -/
def walkPhdrs (phdrs : List Phdr) : ELFImageInfo :=
  phdrs.foldl addPhdr { minVaddr := BitVec.allOnes 64 }

/-- The address range comes from the walk alone. -/
theorem readElfImageInfo_eq_ok (h : readElfImageInfo path data = .ok info) :
    ∃ phdrs, imagePhdrs data = .ok phdrs ∧
      info.minVaddr = (if (walkPhdrs phdrs).minVaddr = BitVec.allOnes 64 then 0
        else (walkPhdrs phdrs).minVaddr) ∧
      info.maxVaddr = (walkPhdrs phdrs).maxVaddr := by
  rw [readElfImageInfo_eq] at h
  obtain ⟨ehdr, hread, htables⟩ := except_bind_eq_ok_iff.mp h
  have hehdr := readEhdr_eq_ok hread
  subst hehdr
  obtain ⟨phdrs, hphdrs, hrest⟩ := except_bind_eq_ok_iff.mp htables
  -- What follows reads the symbols and keeps the range.
  obtain ⟨symbols, -, hend⟩ := except_bind_eq_ok_iff.mp hrest
  cases hend
  exact ⟨phdrs, hphdrs, rfl, rfl⟩

/-- A header of a `PT_LOAD` segment of a file. -/
abbrev SegmentOf (data : List U8) (phdr : LoaderPhdr) : Prop :=
  SegmentBelow data (ehdrOf data) (ehdrOf data).phnum.toNat phdr

theorem SegmentOf.type_eq {phdr : LoaderPhdr} (h : SegmentOf data phdr) : phdr.type = ptLoad := by
  rcases h with ⟨i, hi, hphdr, htype⟩
  exact htype

/-- The lowest and the highest page boundary of the segments of a file, as addresses of the
file. -/
structure PageBounds (data : List U8) (low high : U64) : Prop where
  low_le : ∀ phdr, SegmentOf data phdr → low.toNat ≤ (pageAlignDown phdr.vaddr).toNat
  low_mem : ∃ phdr, SegmentOf data phdr ∧ pageAlignDown phdr.vaddr = low
  le_high : ∀ phdr, SegmentOf data phdr →
    (pageAlignUp (phdr.vaddr + phdr.memsz)).toNat ≤ high.toNat
  high_mem : ∃ phdr, SegmentOf data phdr ∧ pageAlignUp (phdr.vaddr + phdr.memsz) = high

/-- Two pairs of page bounds of one file are the same. -/
theorem PageBounds.unique {low' high' : U64} (h : PageBounds data low high)
    (h' : PageBounds data low' high') : low = low' ∧ high = high' := by
  rcases h.low_mem with ⟨phdr, hphdr, rfl⟩
  rcases h'.low_mem with ⟨phdr', hphdr', rfl⟩
  rcases h.high_mem with ⟨last, hlast, rfl⟩
  rcases h'.high_mem with ⟨last', hlast', rfl⟩
  exact ⟨BitVec.eq_of_toNat_eq (le_antisymm (h.low_le _ hphdr') (h'.low_le _ hphdr)),
    BitVec.eq_of_toNat_eq (le_antisymm (h'.le_high _ hlast) (h.le_high _ hlast'))⟩

/-- After the checks of the loader, the symbolizer leaves out only a table at offset zero. -/
theorem tableFits_of_checkLoaderEhdr
    (h : checkLoaderEhdr path data.length (ehdrOf data) = .ok ()) :
    tableFits data (ehdrOf data).phoff (ehdrOf data).phentsize (ehdrOf data).phnum sizeofPhdr =
      decide ((ehdrOf data).phoff ≠ 0) := by
  unfold checkLoaderEhdr at h
  iterate 8
    split at h
    · cases h
  rename_i hentsize hphnum hinside
  rw [ne_eq, not_not] at hentsize
  rw [hentsize, not_or, Nat.not_lt, Nat.not_lt] at hinside
  simp [tableFits, hentsize, hinside.1, hinside.2]

/-- The symbolizer walks the headers that the loader loads. -/
theorem mem_imagePhdrs (hcheck : checkLoaderEhdr path data.length (ehdrOf data) = .ok ())
    (hphoff : (ehdrOf data).phoff ≠ 0) (h : imagePhdrs data = .ok phdrs) (phdr : Phdr) :
    phdr ∈ phdrs ↔ ∃ i < (ehdrOf data).phnum.toNat, ∃ loaded : LoaderPhdr,
      phdrAt data (ehdrOf data) i = .ok loaded ∧ loaded.toPhdr = phdr := by
  rw [imagePhdrs, tableFits_of_checkLoaderEhdr hcheck, if_pos (decide_eq_true hphoff),
    readTable] at h
  rw [mem_of_mapM_eq_ok h]
  simp only [List.mem_range]
  refine exists_congr fun i => and_congr_right fun _ => ?_
  unfold phdrAt objectAt
  split
  · constructor
    · intro herror
      cases herror
    · rintro ⟨loaded, herror, -⟩
      cases herror
  · constructor
    · intro hread
      cases hread
      exact ⟨_, rfl, rfl⟩
    · rintro ⟨loaded, hread, rfl⟩
      cases hread
      rfl

/-- One header lowers the lower bound to its page. -/
theorem toNat_minVaddr_addPhdr (info : ELFImageInfo) (phdr : Phdr) :
    (addPhdr info phdr).minVaddr.toNat = min info.minVaddr.toNat
      (if phdr.type = ptLoad then (pageAlignDown phdr.vaddr).toNat else 2 ^ 64 - 1) := by
  have hlt := info.minVaddr.isLt
  unfold addPhdr
  by_cases htype : phdr.type = ptLoad
  · rw [if_neg (not_not.mpr htype), if_pos htype]
    exact toNat_stdMin _ _
  · rw [if_pos htype, if_neg htype]
    omega

/-- One header raises the upper bound to its last page. -/
theorem toNat_maxVaddr_addPhdr (info : ELFImageInfo) (phdr : Phdr) :
    (addPhdr info phdr).maxVaddr.toNat = max info.maxVaddr.toNat
      (if phdr.type = ptLoad then (pageAlignUp (phdr.vaddr + phdr.memsz)).toNat else 0) := by
  unfold addPhdr
  by_cases htype : phdr.type = ptLoad
  · rw [if_neg (not_not.mpr htype), if_pos htype]
    exact toNat_stdMax _ _
  · rw [if_pos htype, if_neg htype]
    omega

/-- The lower bound of the walk: no page of a segment is lower, and unless the bound is the
start of the walk it is such a page. -/
theorem walkPhdrs_minVaddr (phdrs : List Phdr) :
    (∀ phdr ∈ phdrs, phdr.type = ptLoad →
      (walkPhdrs phdrs).minVaddr.toNat ≤ (pageAlignDown phdr.vaddr).toNat) ∧
    ((walkPhdrs phdrs).minVaddr.toNat = 2 ^ 64 - 1 ∨ ∃ phdr ∈ phdrs, phdr.type = ptLoad ∧
      (pageAlignDown phdr.vaddr).toNat = (walkPhdrs phdrs).minVaddr.toNat) := by
  rcases foldl_isLeast (fun info : ELFImageInfo => info.minVaddr.toNat) _
    toNat_minVaddr_addPhdr phdrs { minVaddr := BitVec.allOnes 64 } with ⟨hmem, hleast⟩
  constructor
  · intro phdr hphdr htype
    exact hleast (Or.inr ⟨phdr, hphdr, if_pos htype⟩)
  · rcases hmem with hstart | ⟨phdr, hphdr, hvalue⟩
    · exact Or.inl hstart
    · split at hvalue
      · exact Or.inr ⟨phdr, hphdr, by assumption, hvalue⟩
      · exact Or.inl hvalue.symm

/-- The upper bound of the walk. -/
theorem walkPhdrs_maxVaddr (phdrs : List Phdr) :
    (∀ phdr ∈ phdrs, phdr.type = ptLoad →
      (pageAlignUp (phdr.vaddr + phdr.memsz)).toNat ≤ (walkPhdrs phdrs).maxVaddr.toNat) ∧
    ((walkPhdrs phdrs).maxVaddr.toNat = 0 ∨ ∃ phdr ∈ phdrs, phdr.type = ptLoad ∧
      (pageAlignUp (phdr.vaddr + phdr.memsz)).toNat = (walkPhdrs phdrs).maxVaddr.toNat) := by
  rcases foldl_isLeast (fun info : ELFImageInfo => OrderDual.toDual info.maxVaddr.toNat)
    (fun phdr => OrderDual.toDual
      (if phdr.type = ptLoad then (pageAlignUp (phdr.vaddr + phdr.memsz)).toNat else 0))
    toNat_maxVaddr_addPhdr phdrs { minVaddr := BitVec.allOnes 64 } with ⟨hmem, hleast⟩
  constructor
  · intro phdr hphdr htype
    exact hleast (Or.inr ⟨phdr, hphdr, congrArg OrderDual.toDual (if_pos htype)⟩)
  · rcases hmem with hstart | ⟨phdr, hphdr, hvalue⟩
    · exact Or.inl hstart
    · have hvalue' := congrArg OrderDual.ofDual hvalue
      simp only [OrderDual.ofDual_toDual] at hvalue'
      split at hvalue'
      · exact Or.inr ⟨phdr, hphdr, by assumption, hvalue'⟩
      · exact Or.inl hvalue'.symm

/-- The symbolizer sees the segments of the loader: its address range is theirs. -/
theorem pageBounds_of_readElfImageInfo
    (hcheck : checkLoaderEhdr path data.length (ehdrOf data) = .ok ())
    (hphoff : (ehdrOf data).phoff ≠ 0) (hsegment : ∃ phdr, SegmentOf data phdr)
    (hinfo : readElfImageInfo path data = .ok info) :
    PageBounds data info.minVaddr info.maxVaddr := by
  rcases readElfImageInfo_eq_ok hinfo with ⟨phdrs, hphdrs, hmin, hmax⟩
  have hmem : ∀ loaded, SegmentOf data loaded → loaded.toPhdr ∈ phdrs := by
    rintro loaded ⟨i, hi, hloaded, -⟩
    exact (mem_imagePhdrs hcheck hphoff hphdrs _).mpr ⟨i, hi, loaded, hloaded, rfl⟩
  have hsource : ∀ phdr ∈ phdrs, phdr.type = ptLoad →
      ∃ loaded, SegmentOf data loaded ∧ loaded.toPhdr = phdr := by
    intro phdr hphdr htype
    rcases (mem_imagePhdrs hcheck hphoff hphdrs phdr).mp hphdr with ⟨i, hi, loaded, hloaded, rfl⟩
    exact ⟨loaded, ⟨i, hi, hloaded, htype⟩, rfl⟩
  rcases hsegment with ⟨some, hsome⟩
  rcases walkPhdrs_minVaddr phdrs with ⟨hleast, hstart⟩
  rcases walkPhdrs_maxVaddr phdrs with ⟨hgreatest, hzero⟩
  -- A page boundary is never the start of the walk.
  have hbelow := hleast _ (hmem some hsome) hsome.type_eq
  have hpage := pageAlignDown_mod some.vaddr
  have hvaddr := (pageAlignDown some.vaddr).isLt
  have hne : (walkPhdrs phdrs).minVaddr ≠ BitVec.allOnes 64 := by
    intro heq
    rw [heq, BitVec.toNat_allOnes] at hbelow
    omega
  rw [if_neg hne] at hmin
  rw [hmin, hmax]
  refine ⟨fun loaded hloaded => hleast _ (hmem loaded hloaded) hloaded.type_eq, ?_,
    fun loaded hloaded => hgreatest _ (hmem loaded hloaded) hloaded.type_eq, ?_⟩
  · rcases hstart with hsentinel | ⟨phdr, hphdr, htype, hvalue⟩
    · exact absurd (BitVec.eq_of_toNat_eq (by rw [hsentinel, BitVec.toNat_allOnes])) hne
    · rcases hsource phdr hphdr htype with ⟨loaded, hloaded, rfl⟩
      exact ⟨loaded, hloaded, BitVec.eq_of_toNat_eq hvalue⟩
  · rcases hzero with hzero | ⟨phdr, hphdr, htype, hvalue⟩
    · refine ⟨some, hsome, BitVec.eq_of_toNat_eq ?_⟩
      have hle := hgreatest _ (hmem some hsome) hsome.type_eq
      change (pageAlignUp (some.vaddr + some.memsz)).toNat ≤ _ at hle
      omega
    · rcases hsource phdr hphdr htype with ⟨loaded, hloaded, rfl⟩
      exact ⟨loaded, hloaded, BitVec.eq_of_toNat_eq hvalue⟩

/-- A table at offset zero is skipped, and the range is empty. -/
theorem readElfImageInfo_of_phoff_zero
    (hcheck : checkLoaderEhdr path data.length (ehdrOf data) = .ok ())
    (hphoff : (ehdrOf data).phoff = 0) (hinfo : readElfImageInfo path data = .ok info) :
    info.minVaddr = 0 ∧ info.maxVaddr = 0 := by
  rcases readElfImageInfo_eq_ok hinfo with ⟨phdrs, hphdrs, hmin, hmax⟩
  rw [imagePhdrs, tableFits_of_checkLoaderEhdr hcheck,
    if_neg (by rw [decide_eq_true_eq]; exact not_not.mpr hphoff)] at hphdrs
  cases hphdrs
  exact ⟨hmin, hmax⟩

/-! ## The registered image -/

/-- `LoadedImage::contains`. -/
def LoadedImage.contains (image : LoadedImage) (address : U64) : Bool :=
  image.base ≤ address && address < image.endAddress

/-- The image and the loader agree on where a file is: the image contains every address of a
segment, and every function symbol has the address where the function was put. -/
structure ImageAgrees (data : List U8) (info : ELFImageInfo) (loadBase : U64)
    (image : LoadedImage) : Prop where
  contains : ∀ phdr, SegmentOf data phdr → ∀ i < phdr.memsz.toNat,
    image.contains (segmentStart loadBase phdr + BitVec.ofNat 64 i) = true
  symbols : ∀ (i : Nat) symbol, info.functionSymbols[i]? = some symbol →
    ∃ range, image.symbols[i]? = some range ∧ range.start = loadBase + symbol.value

/-- What `load` registers for the main executable. -/
theorem registerExecutable_loadedImages {files : HostFiles} {program : LoadedProgram}
    {emulator : Emulator} (hempty : emulator.loadedImages = [])
    (hpath : program.executablePath ≠ "")
    (hfile : files.readFile program.executablePath = .ok data)
    (hinfo : readElfImageInfo program.executablePath data = .ok info) :
    (emulator.registerExecutable files program).loadedImages =
      [LoadedImage.ofInfo program.executablePath program.executableBase "executable" info] := by
  have hread : (files.readFileFor program.executablePath "ELF file for symbols" >>=
      readElfImageInfo program.executablePath) = .ok info := by
    rw [HostFiles.readFileFor, hfile]
    exact hinfo
  have hkind : (LoadedImage.ofInfo program.executablePath program.executableBase "executable"
      info).kind ≠ "libc" := by
    simp [LoadedImage.ofInfo]
  rw [Emulator.registerExecutable, Emulator.registerLoadedImage, if_neg hpath, hempty,
    List.any_nil, if_neg Bool.false_ne_true, hread]
  dsimp only
  rw [if_neg hkind, hempty, List.nil_append]

/-- A nonempty segment lies in an image exactly when its first byte and its end do. -/
theorem contains_segment_iff {image : LoadedImage} {start size : U64} (hsize : 0 < size.toNat) :
    (∀ i < size.toNat, image.contains (start + BitVec.ofNat 64 i) = true) ↔
      image.base.toNat ≤ start.toNat ∧ start.toNat + size.toNat ≤ image.endAddress.toNat := by
  have hcontains : ∀ address : U64, image.contains address = true ↔
      image.base.toNat ≤ address.toNat ∧ address.toNat < image.endAddress.toNat := by
    intro address
    simp [LoadedImage.contains, BitVec.le_def, BitVec.lt_def]
  have hend := image.endAddress.isLt
  have hstart := start.isLt
  constructor
  · intro h
    have hfirst := (hcontains _).mp (h 0 hsize)
    -- The last byte that does not wrap.
    have hlast := (hcontains _).mp
      (h (min (size.toNat - 1) (2 ^ 64 - 1 - start.toNat)) (by omega))
    rw [BitVec.toNat_add, BitVec.toNat_ofNat] at hfirst hlast
    omega
  · intro h i hi
    rw [hcontains, BitVec.toNat_add, BitVec.toNat_ofNat]
    omega

/-- The symbols are right exactly when there are none or the image base is the bias. -/
theorem symbols_ofInfo_iff (kind : String) (loadBase : U64) (info : ELFImageInfo) :
    (∀ (i : Nat) symbol, info.functionSymbols[i]? = some symbol →
      ∃ range, (LoadedImage.ofInfo path loadBase kind info).symbols[i]? = some range ∧
        range.start = loadBase + symbol.value) ↔
      info.functionSymbols = [] ∨ info.minVaddr = 0 := by
  have hrange : ∀ (i : Nat) symbol, info.functionSymbols[i]? = some symbol →
      ((∃ range, (LoadedImage.ofInfo path loadBase kind info).symbols[i]? = some range ∧
        range.start = loadBase + symbol.value) ↔
        loadBase - info.minVaddr + symbol.value = loadBase + symbol.value) := by
    intro i symbol hsymbol
    simp [LoadedImage.ofInfo, List.getElem?_map, hsymbol]
  have hsame : ∀ value : U64,
      loadBase - info.minVaddr + value = loadBase + value ↔ info.minVaddr = 0 := by
    intro value
    rw [BitVec.add_left_inj]
    constructor <;> intro h <;> bv_omega
  constructor
  · intro h
    cases hsymbols : info.functionSymbols with
    | nil => exact Or.inl rfl
    | cons symbol rest =>
        have hfirst : info.functionSymbols[0]? = some symbol := by rw [hsymbols]; rfl
        exact Or.inr ((hsame _).mp ((hrange 0 symbol hfirst).mp (h 0 symbol hfirst)))
  · rintro (hnone | hzero) i symbol hsymbol
    · rw [hnone] at hsymbol
      cases hsymbol
    · exact (hrange i symbol hsymbol).mpr ((hsame _).mpr hzero)

/-! ## Segments inside the image -/

/-- The guest range of a segment lies between the ends of the image. -/
def SegmentInside (loadBase low high : U64) (phdr : LoaderPhdr) : Prop :=
  (loadBase - low).toNat ≤ (segmentStart loadBase phdr).toNat ∧
    (segmentStart loadBase phdr).toNat + phdr.memsz.toNat ≤ (loadBase - low + high).toNat

/-- A segment that has bytes in guest memory. -/
def NonemptySegment (data : List U8) (phdr : LoaderPhdr) : Prop :=
  SegmentOf data phdr ∧ 0 < phdr.memsz.toNat

/-- The loader keeps segments off the last page of the address space. -/
theorem SegmentsLoaded.end_le {object : LoadedObject} {mmu : SoftMMU} {phdr : LoaderPhdr}
    (h : SegmentsLoaded data (ehdrOf data) loadBase (ehdrOf data).phnum.toNat object mmu)
    (hphdr : SegmentOf data phdr)
    (hlt : (segmentStart loadBase phdr).toNat + phdr.memsz.toNat < 2 ^ 64) :
    (segmentStart loadBase phdr).toNat + phdr.memsz.toNat ≤ 2 ^ 64 - 4096 := by
  rcases h.region phdr hphdr with ⟨region, hmem, hregion⟩
  have hwf := h.wellFormed.wellFormed region hmem
  have hend := hwf.end_lt
  have hbaseMod := hwf.base_mod
  have hsizeMod := hwf.size_mod
  have hbase : region.base.toNat = (segmentStart loadBase phdr).toNat / 4096 * 4096 := by
    rw [hregion.base, toNat_pageAlignDown]
  have hsize := hregion.size_ge (by unfold SizeFits; omega)
  omega

/-- A segment that ends before the last page lies below the highest page of the file. -/
theorem PageBounds.end_le_high {phdr : LoaderPhdr} (h : PageBounds data low high)
    (hphdr : SegmentOf data phdr)
    (hle : phdr.vaddr.toNat + phdr.memsz.toNat ≤ 2 ^ 64 - 4096) :
    phdr.vaddr.toNat + phdr.memsz.toNat ≤ high.toNat := by
  have hsum : (phdr.vaddr + phdr.memsz).toNat = phdr.vaddr.toNat + phdr.memsz.toNat := by
    rw [BitVec.toNat_add]
    omega
  have hhigh := h.le_high phdr hphdr
  rw [toNat_pageAlignUp_of_le (by omega), hsum] at hhigh
  exact (le_roundUpToPage _).trans hhigh

/-- In a file that starts at page zero every segment is inside, unless an address wraps. -/
theorem segmentInside_zero_iff {object : LoadedObject} {mmu : SoftMMU}
    (h : SegmentsLoaded data (ehdrOf data) loadBase (ehdrOf data).phnum.toNat object mmu)
    (hbounds : PageBounds data 0 high) (hsome : ∃ phdr, NonemptySegment data phdr) :
    (∀ phdr, NonemptySegment data phdr → SegmentInside loadBase 0 high phdr) ↔
      loadBase.toNat + high.toNat < 2 ^ 64 ∧
        ∀ phdr, NonemptySegment data phdr →
          loadBase.toNat + phdr.vaddr.toNat + phdr.memsz.toNat < 2 ^ 64 := by
  have hbase : (loadBase - 0).toNat = loadBase.toNat := by bv_omega
  have hloadBase := loadBase.isLt
  have hhigh := high.isLt
  simp only [SegmentInside, BitVec.toNat_add (loadBase - 0), hbase]
  constructor
  · intro hinside
    rcases hsome with ⟨phdr, hphdr⟩
    have hfirst := hinside phdr hphdr
    have hlt : loadBase.toNat + high.toNat < 2 ^ 64 := by omega
    refine ⟨hlt, fun other hother => ?_⟩
    have hother' := hinside other hother
    have hvaddr := other.vaddr.isLt
    rw [segmentStart, BitVec.toNat_add] at hother'
    omega
  · rintro ⟨hlt, hsegments⟩ phdr hphdr
    have hphdr' := hsegments phdr hphdr
    have hstart : (segmentStart loadBase phdr).toNat = loadBase.toNat + phdr.vaddr.toNat := by
      rw [segmentStart, BitVec.toNat_add]
      omega
    have hend := h.end_le hphdr.1 (by omega)
    have hle := hbounds.end_le_high hphdr.1 (by omega)
    omega

/-- In a file that starts above page zero a segment is inside only if the image still covers
it `low` bytes further down. -/
def CoveredBelow (loadBase low high : U64) (phdr : LoaderPhdr) : Prop :=
  if loadBase.toNat + phdr.vaddr.toNat < 2 ^ 64 then
    phdr.vaddr.toNat + phdr.memsz.toNat + low.toNat ≤ high.toNat
  else
    2 ^ 64 ≤ phdr.vaddr.toNat + low.toNat ∧
      phdr.vaddr.toNat + phdr.memsz.toNat + low.toNat ≤ 2 ^ 64 + high.toNat

theorem segmentInside_iff {object : LoadedObject} {mmu : SoftMMU}
    (h : SegmentsLoaded data (ehdrOf data) loadBase (ehdrOf data).phnum.toNat object mmu)
    (hbounds : PageBounds data low high) (hsome : ∃ phdr, NonemptySegment data phdr) :
    (∀ phdr, NonemptySegment data phdr → SegmentInside loadBase low high phdr) ↔
      low.toNat ≤ loadBase.toNat ∧ loadBase.toNat + high.toNat < 2 ^ 64 + low.toNat ∧
        ∀ phdr, NonemptySegment data phdr → CoveredBelow loadBase low high phdr := by
  have hloadBase := loadBase.isLt
  have hlow := low.isLt
  have hhigh := high.isLt
  simp only [SegmentInside, BitVec.toNat_add (loadBase - low), BitVec.toNat_sub]
  constructor
  · intro hinside
    rcases hsome with ⟨phdr, hphdr⟩
    have hfirst := hinside phdr hphdr
    have hle : low.toNat ≤ loadBase.toNat := by
      by_contra hgt
      have hpage := hbounds.low_le phdr hphdr.1
      rw [toNat_pageAlignDown] at hpage
      have hvaddr := phdr.vaddr.isLt
      have hend := h.end_le hphdr.1 (by omega)
      by_cases hwraps : loadBase.toNat + phdr.vaddr.toNat < 2 ^ 64
      · -- The file would have to end before its first page.
        have hstart : (segmentStart loadBase phdr).toNat =
            loadBase.toNat + phdr.vaddr.toNat := by
          rw [segmentStart, BitVec.toNat_add]
          omega
        have htop := hbounds.end_le_high hphdr.1 (by omega)
        omega
      · rw [segmentStart, BitVec.toNat_add] at hfirst
        omega
    have hlt : loadBase.toNat + high.toNat < 2 ^ 64 + low.toNat := by omega
    refine ⟨hle, hlt, fun other hother => ?_⟩
    have hother' := hinside other hother
    have hvaddr := other.vaddr.isLt
    rw [segmentStart, BitVec.toNat_add] at hother'
    unfold CoveredBelow
    split <;> omega
  · rintro ⟨hle, hlt, hsegments⟩ phdr hphdr
    have hphdr' := hsegments phdr hphdr
    have hvaddr := phdr.vaddr.isLt
    rw [segmentStart, BitVec.toNat_add]
    unfold CoveredBelow at hphdr'
    split at hphdr' <;> omega

/-! ## The main executable -/

/-- No byte of the file is in guest memory, and the symbolizer finds no symbol or takes the
bias for the image base. -/
structure NothingToFind (data : List U8) (info : ELFImageInfo) : Prop where
  empty : ∀ phdr, ¬NonemptySegment data phdr
  symbols : info.functionSymbols = [] ∨ (ehdrOf data).phoff = 0 ∨
    ∃ phdr, SegmentOf data phdr ∧ pageAlignDown phdr.vaddr = 0

/-- The file starts at page zero, and neither its pages nor its segments wrap at the bias. -/
structure StartsAtZero (data : List U8) (loadBase high : U64) : Prop where
  bounds : PageBounds data 0 high
  high_lt : loadBase.toNat + high.toNat < 2 ^ 64
  segment_lt : ∀ phdr, NonemptySegment data phdr →
    loadBase.toNat + phdr.vaddr.toNat + phdr.memsz.toNat < 2 ^ 64

/-- The file starts at another page but names no function, and its pages reach so far past
its nonempty segments that these are covered all the same. -/
structure ReachesPast (data : List U8) (info : ELFImageInfo) (loadBase low high : U64) :
    Prop where
  bounds : PageBounds data low high
  symbols : info.functionSymbols = []
  low_le : low.toNat ≤ loadBase.toNat
  high_lt : loadBase.toNat + high.toNat < 2 ^ 64 + low.toNat
  covered : ∀ phdr, NonemptySegment data phdr → CoveredBelow loadBase low high phdr

/-- The files whose image is registered where they are loaded. -/
def ImagePlaced (data : List U8) (info : ELFImageInfo) (loadBase : U64) : Prop :=
  NothingToFind data info ∨
    (ehdrOf data).phoff ≠ 0 ∧
      ((∃ high, StartsAtZero data loadBase high) ∨
        ∃ low high, ReachesPast data info loadBase low high)

theorem loadProgram_eq_ok {files : HostFiles} {mmu mmu' : SoftMMU} {program : LoadedProgram}
    (h : loadProgram files path mmu = .ok program mmu') :
    program.executablePath = path ∧ ∃ object loaded,
      loadObject files path executableDynBase mmu = .ok object loaded ∧
        program.executableBase = object.loadBase := by
  unfold loadProgram at h
  rcases bind_eq_ok_iff.mp h with ⟨object, loaded, hobject, hrest⟩
  dsimp only at hrest
  split at hrest
  · cases hrest
    exact ⟨rfl, object, _, hobject, rfl⟩
  · rcases bind_eq_ok_iff.mp hrest with ⟨interpreter, _, -, hend⟩
    cases hend
    exact ⟨rfl, object, loaded, hobject, rfl⟩

/-- What agreement asks of the image of a file. -/
theorem imageAgrees_ofInfo_iff (kind : String) :
    ImageAgrees data info loadBase (LoadedImage.ofInfo path loadBase kind info) ↔
      (∀ phdr, NonemptySegment data phdr →
        SegmentInside loadBase info.minVaddr info.maxVaddr phdr) ∧
      (info.functionSymbols = [] ∨ info.minVaddr = 0) := by
  constructor
  · rintro ⟨hcontains, hsymbols⟩
    exact ⟨fun phdr hphdr => (contains_segment_iff hphdr.2).mp (hcontains phdr hphdr.1),
      (symbols_ofInfo_iff kind loadBase info).mp hsymbols⟩
  · rintro ⟨hinside, hsymbols⟩
    refine ⟨fun phdr hphdr i hi => ?_, (symbols_ofInfo_iff kind loadBase info).mpr hsymbols⟩
    have hsize : 0 < phdr.memsz.toNat := Nat.zero_lt_of_lt hi
    have hends : (LoadedImage.ofInfo path loadBase kind info).base.toNat ≤
        (segmentStart loadBase phdr).toNat ∧
        (segmentStart loadBase phdr).toNat + phdr.memsz.toNat ≤
          (LoadedImage.ofInfo path loadBase kind info).endAddress.toNat :=
      hinside phdr ⟨hphdr, hsize⟩
    exact (contains_segment_iff hsize).mpr hends i hi

/-- A loaded file whose header table is at offset zero has an empty image. -/
theorem imageAgrees_iff_of_phoff_zero (kind : String)
    (hcheck : checkLoaderEhdr path data.length (ehdrOf data) = .ok ())
    (hinfo : readElfImageInfo path data = .ok info) (hphoff : (ehdrOf data).phoff = 0) :
    ImageAgrees data info loadBase (LoadedImage.ofInfo path loadBase kind info) ↔
      NothingToFind data info := by
  rcases readElfImageInfo_of_phoff_zero hcheck hphoff hinfo with ⟨hmin, hmax⟩
  rw [imageAgrees_ofInfo_iff, hmin, hmax]
  constructor
  · rintro ⟨hinside, -⟩
    refine ⟨fun phdr hphdr => ?_, Or.inr (Or.inl hphoff)⟩
    have h := hinside phdr hphdr
    have hsize := hphdr.2
    have hends : (loadBase - 0 + 0).toNat = (loadBase - 0).toNat := by bv_omega
    rw [SegmentInside, hends] at h
    omega
  · intro h
    exact ⟨fun phdr hphdr => absurd hphdr (h.empty phdr), Or.inr rfl⟩

/-- The image of a loaded file agrees with the loader exactly when the file is placed. -/
theorem imageAgrees_iff (kind : String) {object : LoadedObject} {mmu : SoftMMU}
    (hcheck : checkLoaderEhdr path data.length (ehdrOf data) = .ok ())
    (hinfo : readElfImageInfo path data = .ok info) (hbrk : object.brkStart ≠ 0)
    (h : SegmentsLoaded data (ehdrOf data) loadBase (ehdrOf data).phnum.toNat object mmu) :
    ImageAgrees data info loadBase (LoadedImage.ofInfo path loadBase kind info) ↔
      ImagePlaced data info loadBase := by
  by_cases hphoff : (ehdrOf data).phoff = 0
  · rw [imageAgrees_iff_of_phoff_zero kind hcheck hinfo hphoff, ImagePlaced]
    simp [hphoff]
  have hbounds := pageBounds_of_readElfImageInfo hcheck hphoff (h.segment hbrk) hinfo
  rw [imageAgrees_ofInfo_iff]
  by_cases hempty : ∀ phdr, ¬NonemptySegment data phdr
  · -- Nothing has to be inside: only the symbols count.
    have hinside : ∀ phdr, NonemptySegment data phdr →
        SegmentInside loadBase info.minVaddr info.maxVaddr phdr :=
      fun phdr hphdr => absurd hphdr (hempty phdr)
    constructor
    · rintro ⟨-, hnone | hzero⟩
      · exact Or.inl ⟨hempty, Or.inl hnone⟩
      · rcases hbounds.low_mem with ⟨phdr, hphdr, hpage⟩
        exact Or.inl ⟨hempty, Or.inr (Or.inr ⟨phdr, hphdr, hpage.trans hzero⟩)⟩
    · rintro (⟨-, hnone | hzero | ⟨phdr, hphdr, hpage⟩⟩ | ⟨-, ⟨high, hzero⟩ | ⟨low, high, hpast⟩⟩)
      · exact ⟨hinside, Or.inl hnone⟩
      · exact absurd hzero hphoff
      · have hle := hbounds.low_le phdr hphdr
        rw [hpage] at hle
        exact ⟨hinside, Or.inr (BitVec.eq_of_toNat_eq (Nat.le_zero.mp hle))⟩
      · exact ⟨hinside, Or.inr (hbounds.unique hzero.bounds).1⟩
      · exact ⟨hinside, Or.inl hpast.symbols⟩
  · push Not at hempty
    constructor
    · rintro ⟨hinside, hsymbols⟩
      refine Or.inr ⟨hphoff, ?_⟩
      by_cases hzero : info.minVaddr = 0
      · rw [hzero] at hinside hbounds
        rcases (segmentInside_zero_iff h hbounds hempty).mp hinside with ⟨hlt, hsegments⟩
        exact Or.inl ⟨_, hbounds, hlt, hsegments⟩
      · rcases (segmentInside_iff h hbounds hempty).mp hinside with ⟨hle, hlt, hsegments⟩
        exact Or.inr ⟨_, _, hbounds, hsymbols.resolve_right hzero, hle, hlt, hsegments⟩
    · rintro (hnothing | ⟨-, ⟨high, hzero⟩ | ⟨low, high, hpast⟩⟩)
      · rcases hempty with ⟨phdr, hphdr⟩
        exact absurd hphdr (hnothing.empty phdr)
      · rcases hbounds.unique hzero.bounds with ⟨hmin, hmax⟩
        rw [hmin, hmax]
        exact ⟨(segmentInside_zero_iff h hzero.bounds hempty).mpr
          ⟨hzero.high_lt, hzero.segment_lt⟩, Or.inr rfl⟩
      · rcases hbounds.unique hpast.bounds with ⟨hmin, hmax⟩
        rw [hmin, hmax]
        exact ⟨(segmentInside_iff h hpast.bounds hempty).mpr
          ⟨hpast.low_le, hpast.high_lt, hpast.covered⟩, Or.inl hpast.symbols⟩

/-- The image that `load` registers for the main executable agrees with the loader exactly
when the file is placed. -/
theorem registerExecutable_agrees_iff {files : HostFiles} {mmu' : SoftMMU}
    {program : LoadedProgram} {emulator : Emulator} (hreachable : Reachable emulator.mmu)
    (hempty : emulator.loadedImages = []) (hpath : path ≠ "")
    (hfile : files.readFile path = .ok data)
    (hinfo : readElfImageInfo path data = .ok info)
    (hload : loadProgram files path emulator.mmu = .ok program mmu') :
    (∃ image, ((emulator.withMMU mmu').registerExecutable files program).loadedImages = [image] ∧
        ImageAgrees data info program.executableBase image) ↔
      ImagePlaced data info (loadBaseFor (ehdrOf data) executableDynBase) := by
  rcases loadProgram_eq_ok hload with ⟨rfl, object, loaded, hobject, hbase⟩
  rcases loadObject_eq_ok hreachable.regionsWellFormed hobject with
    ⟨data', hdata', hcheck, hbrk, hsegments⟩
  rw [HostFiles.readFileFor, hfile] at hdata'
  cases hdata'
  have hbase' : loadBaseFor (ehdrOf data) executableDynBase = program.executableBase :=
    hsegments.base_eq.symm.trans hbase.symm
  rw [hbase'] at hsegments ⊢
  have himages := @registerExecutable_loadedImages _ _ files program (emulator.withMMU mmu')
    hempty hpath hfile hinfo
  rw [himages, ← imageAgrees_iff "executable" hcheck hinfo hbrk hsegments]
  constructor
  · rintro ⟨image, himage, hagrees⟩
    cases himage
    exact hagrees
  · intro hagrees
    exact ⟨_, rfl, hagrees⟩

/-! ## Two files -/

/-- A position-independent file whose only segment lies on page zero. -/
abbrev pieFile : List U8 :=
  oneSegmentFile 3 0x800 0x10

/-- A file with a fixed address, as most programs had before. -/
abbrev fixedFile : List U8 :=
  oneSegmentFile 2 0x400800 0x10

theorem readFile_filesWith (data : List U8) (path : String) :
    (filesWith data).readFile path = .ok data :=
  rfl

/-- What `ELFLoader::load` returns for a file with one segment. -/
def oneSegmentProgram (base entry phdr brkStart : U64) : LoadedProgram :=
  { entry := entry, executableEntry := entry, executableBase := base, phdr := phdr,
    phent := 56, phnum := 1, brkStart := brkStart, executablePath := "a.out" }

/-- The position-independent file is registered where it is loaded. -/
theorem registerExecutable_agrees_iff_pie :
    ∃ program mmu' info, loadProgram (filesWith pieFile) "a.out" {} = .ok program mmu' ∧
      readElfImageInfo "a.out" pieFile = .ok info ∧
      ∃ image, ((({} : Emulator).withMMU mmu').registerExecutable (filesWith pieFile)
          program).loadedImages = [image] ∧
        ImageAgrees pieFile info program.executableBase image := by
  have hload : loadProgram (filesWith pieFile) "a.out" {} =
      .ok (oneSegmentProgram 0x555555554000 0x555555554800 0x555555554040 0x555555555000) _ :=
    eq_ok_of_returned (by decide +kernel)
  have hinfo : readElfImageInfo "a.out" pieFile =
      .ok { maxVaddr := 0x1000, executableRanges := [(0, 0x1000)] } := by decide +kernel
  have honly := @segmentBelow_of_single pieFile (oneSegment 0x800 0x10) (by decide)
    (by decide +kernel) rfl
  refine ⟨_, _, _, hload, hinfo,
    (@registerExecutable_agrees_iff "a.out" pieFile _ (filesWith pieFile) _ _ {} reachable_empty
      rfl (by decide) (readFile_filesWith _ _) hinfo hload).mpr ?_⟩
  refine Or.inr ⟨by decide, Or.inl ⟨0x1000, ⟨?_, ?_, ?_, ?_⟩, by decide, ?_⟩⟩
  · intro phdr _
    exact Nat.zero_le _
  · exact ⟨_, (honly _).mpr rfl, by decide⟩
  · intro phdr hphdr
    rw [(honly phdr).mp hphdr]
    decide
  · exact ⟨_, (honly _).mpr rfl, by decide⟩
  · rintro phdr ⟨hphdr, -⟩
    rw [(honly phdr).mp hphdr]
    decide

/-- The file with a fixed address is loaded at it, and its image is registered below. -/
theorem fixed_image_misplaced :
    ∃ program mmu' info, loadProgram (filesWith fixedFile) "a.out" {} = .ok program mmu' ∧
      readElfImageInfo "a.out" fixedFile = .ok info ∧
      ¬∃ image, ((({} : Emulator).withMMU mmu').registerExecutable (filesWith fixedFile)
          program).loadedImages = [image] ∧
        ImageAgrees fixedFile info program.executableBase image := by
  have hload : loadProgram (filesWith fixedFile) "a.out" {} =
      .ok (oneSegmentProgram 0 0x400800 64 0x401000) _ :=
    eq_ok_of_returned (by decide +kernel)
  have hinfo : readElfImageInfo "a.out" fixedFile =
      .ok { minVaddr := 0x400000, maxVaddr := 0x401000,
            executableRanges := [(0x400000, 0x401000)] } := by decide +kernel
  have hsegment := (@segmentBelow_of_single fixedFile _ (by decide)
    (by decide +kernel) rfl (oneSegment 0x400800 0x10)).mpr rfl
  refine ⟨_, _, _, hload, hinfo, ?_⟩
  rintro ⟨image, himage, hagrees⟩
  rw [@registerExecutable_loadedImages fixedFile _ (filesWith fixedFile)
    (oneSegmentProgram 0 0x400800 64 0x401000) _ rfl (by decide) (readFile_filesWith _ _) hinfo]
    at himage
  cases himage
  exact absurd (hagrees.contains _ hsegment 0 (by decide)) (by decide)

end LUE
