import LinuxUserspaceEmulator.MallocTracer.Tracer
import Mathlib.Data.List.MinMax

/-!
# Names of code addresses

A backtrace names an address by its image, the nearest symbol that contains it and the offset
from there.  Images are position independent: the name of an address depends on its place inside
the image, not on where the loader has put the image.

Main results:

- Theorem `symbolContaining_eq_argmax`: the symbol is the first of those with the highest start
  among the symbols that contain the address.
- Theorem `symbolContaining_ofInfo`: in an image that does not wrap it is the symbol that contains
  the offset in the file.
- Theorem `describeAddress_relocated`: the name does not depend on where the image is.
-/

namespace LUE

/-! ## Lookup -/

/-- `SymbolRange::contains`. -/
def SymbolRange.contains (symbol : SymbolRange) (address : U64) : Bool :=
  address ≥ symbol.start && address < symbol.endAddress

/-- The better of the symbols found so far and another one that contains the address. -/
def betterSymbol (best : Option SymbolRange) (symbol : SymbolRange) : Option SymbolRange :=
  match best with
  | none => some symbol
  | some found => if symbol.start > found.start then some symbol else some found

/-- `symbol_containing`. -/
def symbolContaining (image : LoadedImage) (address : U64) : Option SymbolRange :=
  image.symbols.foldl
    (fun best symbol => if symbol.contains address then betterSymbol best symbol else best) none

/-- What `describe_address` writes behind the address: the image, and a symbol with an offset or
the place in the image. -/
def LoadedImage.describe (image : LoadedImage) (address : U64) : String :=
  " [" ++ image.name ++ "]: " ++
    match symbolContaining image address with
    | some symbol =>
        let offset := address - symbol.start
        if offset ≠ 0 then symbol.name ++ "+" ++ hex offset else symbol.name
    | none => hex (address - image.base)

/-- `describe_address` and `symbolize`. -/
def describeAddress (emulator : Emulator) (address : U64) : String :=
  match emulator.imageContaining address with
  | none => hex address
  | some image => hex address ++ image.describe address

/-- The symbol is the first of those with the highest start among the symbols that contain the
address. -/
theorem symbolContaining_eq_argmax (image : LoadedImage) (address : U64) :
    symbolContaining image address =
      (image.symbols.filter (·.contains address)).argmax SymbolRange.start := by
  rw [List.argmax, List.foldl_filter, symbolContaining]
  congr 1
  funext best symbol
  cases best <;> rfl

/-! ## Images that are put somewhere -/

/-- The size that `register_loaded_image` takes a symbol to have. -/
def ELFSymbol.extent (symbol : ELFSymbol) : U64 :=
  if symbol.size ≠ 0 then symbol.size else 1

/-- The range of a symbol of an image. -/
def ELFSymbol.placed (base : U64) (symbol : ELFSymbol) : SymbolRange :=
  ⟨base + symbol.value, base + symbol.value + symbol.extent, symbol.name⟩

/-- The symbol contains an offset in the file. -/
def ELFSymbol.Covers (offset : U64) (symbol : ELFSymbol) : Prop :=
  symbol.value.toNat ≤ offset.toNat ∧ offset.toNat < symbol.value.toNat + symbol.extent.toNat

instance ELFSymbol.decidableCovers (offset : U64) (symbol : ELFSymbol) :
    Decidable (symbol.Covers offset) :=
  instDecidableAnd

/-- A symbol that lies inside the address space when the image is put at a base. -/
def ELFSymbol.FitsAt (base : U64) (symbol : ELFSymbol) : Prop :=
  base.toNat + symbol.value.toNat + symbol.extent.toNat < 2 ^ 64

namespace ELFSymbol

variable {base offset : U64} {symbol other : ELFSymbol}

theorem toNat_start (h : symbol.FitsAt base) :
    (symbol.placed base).start.toNat = base.toNat + symbol.value.toNat := by
  unfold FitsAt at h
  rw [placed, BitVec.toNat_add, Nat.mod_eq_of_lt (by omega)]

theorem toNat_endAddress (h : symbol.FitsAt base) :
    (symbol.placed base).endAddress.toNat =
      base.toNat + symbol.value.toNat + symbol.extent.toNat := by
  unfold FitsAt at h
  rw [placed, BitVec.toNat_add, BitVec.toNat_add, Nat.mod_add_mod, Nat.mod_eq_of_lt h]

/-- A placed symbol contains the addresses of the offsets that it covers. -/
theorem contains_placed (hoffset : base.toNat + offset.toNat < 2 ^ 64)
    (h : symbol.FitsAt base) :
    (symbol.placed base).contains (base + offset) = decide (symbol.Covers offset) := by
  have haddress : (base + offset).toNat = base.toNat + offset.toNat := by
    rw [BitVec.toNat_add, Nat.mod_eq_of_lt hoffset]
  rw [SymbolRange.contains, ← Bool.decide_and, decide_eq_decide, ge_iff_le, BitVec.le_def,
    BitVec.lt_def, toNat_start h, toNat_endAddress h, haddress, Covers]
  omega

/-- Placing keeps the order of the starts. -/
theorem start_lt_iff (h : symbol.FitsAt base) (hother : other.FitsAt base) :
    (other.placed base).start < (symbol.placed base).start ↔ other.value < symbol.value := by
  rw [BitVec.lt_def, BitVec.lt_def, toNat_start h, toNat_start hother]
  omega

end ELFSymbol

/-! ## The name of a place in an image -/

/-- The best of the images of a list is the image of the best. -/
theorem argmax_map {α β γ δ : Type} [Preorder β] [Preorder δ] [DecidableLT β] [DecidableLT δ]
    {f : α → β} {g : γ → δ} {h : γ → α} {l : List γ}
    (hlt : ∀ c ∈ l, ∀ d ∈ l, f (h c) < f (h d) ↔ g c < g d) :
    (l.map h).argmax f = (l.argmax g).map h := by
  induction l using List.reverseRecOn with
  | nil => rfl
  | append_singleton l d ih =>
      rw [List.map_append, List.map_singleton, List.argmax_concat, List.argmax_concat,
        ih fun c hc c' hc' => hlt c (List.mem_append_left _ hc) c' (List.mem_append_left _ hc')]
      cases hbest : l.argmax g with
      | none => rfl
      | some c =>
          have hmem : c ∈ l := List.argmax_mem hbest
          have hiff := hlt c (List.mem_append_left _ hmem) d
            (List.mem_append_right _ (List.mem_singleton_self d))
          simp only [Option.map_some, hiff]
          split <;> rfl

variable {emulator : Emulator} {path kind : String} {loadBase offset : U64} {info : ELFImageInfo}

/-- The base of an image. -/
def imageBase (info : ELFImageInfo) (loadBase : U64) : U64 :=
  loadBase - info.minVaddr

/-- The symbol of a file that covers an offset, the first of those that start last. -/
def symbolAt (info : ELFImageInfo) (offset : U64) : Option ELFSymbol :=
  (info.functionSymbols.filter (·.Covers offset)).argmax ELFSymbol.value

/-- The symbol of an address is the symbol of its offset. -/
theorem symbolContaining_ofInfo
    (hoffset : (imageBase info loadBase).toNat + offset.toNat < 2 ^ 64)
    (hfits : ∀ symbol ∈ info.functionSymbols, symbol.FitsAt (imageBase info loadBase)) :
    symbolContaining (.ofInfo path loadBase kind info) (imageBase info loadBase + offset) =
      (symbolAt info offset).map (ELFSymbol.placed (imageBase info loadBase)) := by
  have hsymbols : (LoadedImage.ofInfo path loadBase kind info).symbols =
      info.functionSymbols.map (ELFSymbol.placed (imageBase info loadBase)) := rfl
  have hcovered : ∀ symbol ∈ info.functionSymbols,
      ((·.contains (imageBase info loadBase + offset)) ∘
        ELFSymbol.placed (imageBase info loadBase)) symbol = decide (symbol.Covers offset) :=
    fun symbol hsymbol => ELFSymbol.contains_placed hoffset (hfits symbol hsymbol)
  rw [symbolContaining_eq_argmax, hsymbols, List.filter_map, List.filter_congr hcovered,
    symbolAt]
  exact argmax_map fun symbol hsymbol other hother => ELFSymbol.start_lt_iff
    (hfits other (List.mem_filter.mp hother).1) (hfits symbol (List.mem_filter.mp hsymbol).1)

/-- The name of a place in an image: the file, and the symbol with the distance from its start or
the offset. -/
def placeText (path : String) (info : ELFImageInfo) (offset : U64) : String :=
  " [" ++ basename path ++ "]: " ++
    match symbolAt info offset with
    | some symbol =>
        let distance := offset - symbol.value
        if distance ≠ 0 then symbol.name ++ "+" ++ hex distance else symbol.name
    | none => hex offset

/-- An address lies in an image that the loader has put somewhere without wrapping around. -/
structure LiesIn (emulator : Emulator) (path kind : String) (info : ELFImageInfo)
    (loadBase offset : U64) : Prop where
  image : emulator.imageContaining (imageBase info loadBase + offset) =
    some (.ofInfo path loadBase kind info)
  offset : (imageBase info loadBase).toNat + offset.toNat < 2 ^ 64
  symbols : ∀ symbol ∈ info.functionSymbols, symbol.FitsAt (imageBase info loadBase)

/-- What is written for an address is the address and the name of its place in the image, which
does not depend on where the image is. -/
theorem describeAddress_relocated (h : LiesIn emulator path kind info loadBase offset) :
    describeAddress emulator (imageBase info loadBase + offset) =
      hex (imageBase info loadBase + offset) ++ placeText path info offset := by
  have hname : (LoadedImage.ofInfo path loadBase kind info).name = basename path := rfl
  have hbase : (LoadedImage.ofInfo path loadBase kind info).base = imageBase info loadBase := rfl
  have hplace : ∀ base place : U64, base + offset - (base + place) = offset - place := by
    intro base place
    bv_omega
  have hback : imageBase info loadBase + offset - imageBase info loadBase = offset := by
    rw [BitVec.add_comm, BitVec.add_sub_cancel]
  rw [describeAddress, h.image]
  dsimp only
  rw [LoadedImage.describe, placeText, symbolContaining_ofInfo h.offset h.symbols, hname, hbase,
    hback]
  cases symbolAt info offset with
  | none => rfl
  | some symbol =>
      have hstart : (symbol.placed (imageBase info loadBase)).start =
          imageBase info loadBase + symbol.value := rfl
      have hsymbol : (symbol.placed (imageBase info loadBase)).name = symbol.name := rfl
      simp only [Option.map_some, hstart, hplace, hsymbol]

section Examples

/-- A function with a label inside. -/
def labelledImage : ELFImageInfo where
  maxVaddr := 0x1000
  functionSymbols := [⟨"main", 0x100, 0x20⟩, ⟨"label", 0x110, 0⟩]

/-- A guest that has loaded the file. -/
def labelledGuest : Emulator :=
  { loadedImages := [.ofInfo "/bin/guest" 0x400000 "executable" labelledImage] }

/-- The place of the label has the name of the label. -/
theorem describeAddress_relocated_labelled :
    describeAddress labelledGuest 0x400110 =
      hex 0x400110 ++ placeText "/bin/guest" labelledImage 0x110 := by
  have hbase : imageBase labelledImage 0x400000 = 0x400000 := by decide
  have hlies : LiesIn labelledGuest "/bin/guest" "executable" labelledImage 0x400000 0x110 := by
    refine ⟨by decide +kernel, by decide, fun symbol hsymbol => ?_⟩
    rcases List.mem_pair.mp hsymbol with rfl | rfl
    · unfold ELFSymbol.FitsAt
      decide
    · unfold ELFSymbol.FitsAt
      decide
  exact describeAddress_relocated hlies

end Examples

end LUE
