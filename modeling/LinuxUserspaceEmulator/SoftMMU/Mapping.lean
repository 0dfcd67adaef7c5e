import LinuxUserspaceEmulator.SoftMMU.AddressMap

/-!
# Mapping and allocating

The three mapping functions round their range to pages, check that it is free, and push
one region.  The two allocation functions look for a free range from a moving hint, retry
behind every region in the way, and then map there.

Main results:

- Theorems `mapZeroed_eq_ok` and `mapMmap_eq_ok`: what a mapping call that returns has
  pushed.
- Theorem `Free.addressMap`: a pushed region fills its range of the flat map and
  keeps the region invariant.
- Theorem `allocateLoop_spec`: the retry loop maps a candidate that is not in the way of
  any region, or raises what the mapping function raised.
- Theorem `allocateLoop_ne_divergence`: with page alignment the retry loop ends, because
  every collision moves the candidate behind the region it hit.
-/

namespace LUE

open SegmentList StateExcept

namespace SoftMMU

variable {mmu mmu' : SoftMMU} {base size : U64} {prot : Protection} {name : String}
  {region : Region}

/-! ## Pushing one region -/

/-- The state in which one region has been added to the list. -/
def withRegion (mmu : SoftMMU) (region : Region) : SoftMMU :=
  { mmu with regions := sortRegions (mmu.regions ++ [region]) }

@[simp]
theorem withRegion_regions (mmu : SoftMMU) (region : Region) :
    (mmu.withRegion region).regions = sortRegions (mmu.regions ++ [region]) :=
  rfl

@[simp]
theorem withRegion_nextAllocation (mmu : SoftMMU) (region : Region) :
    (mmu.withRegion region).nextAllocation = mmu.nextAllocation :=
  rfl

@[simp]
theorem pushRegion_apply (region : Region) (mmu : SoftMMU) :
    pushRegion region mmu = .ok () (mmu.withRegion region) :=
  rfl

/-- A region that a mapping call may push: its range has passed the overlap check. -/
structure Free (mmu : SoftMMU) (region : Region) : Prop where
  wellFormed : region.WellFormed
  nonempty : 0 < region.size.toNat
  apart : RegionsWellFormed mmu.regions →
    ∀ old ∈ mmu.regions, Apart Region.contains old region

theorem Free.regionsWellFormed (h : mmu.Free region) (hwf : RegionsWellFormed mmu.regions) :
    RegionsWellFormed (mmu.withRegion region).regions :=
  regionsWellFormed_pushRegion hwf h.wellFormed (h.apart hwf)

theorem Free.regionInvariant (h : mmu.Free region) (hinv : RegionInvariant mmu.regions) :
    RegionInvariant (mmu.withRegion region).regions := by
  apply (h.regionsWellFormed hinv.regionsWellFormed).regionInvariant
  intro old hold
  rw [withRegion_regions, mem_sortRegions, List.mem_append, List.mem_singleton] at hold
  rcases hold with hold | rfl
  · exact hinv.nonempty old hold
  · exact h.nonempty

theorem Free.addressMap (h : mmu.Free region) (hwf : RegionsWellFormed mmu.regions) :
    (mmu.withRegion region).addressMap =
      mmu.addressMap.fill region.contains region.cellAt :=
  addressMapOf_pushRegion hwf (h.apart hwf)

/-- No address of a free range is mapped. -/
theorem Free.addressMap_eq_none (h : mmu.Free region) (hwf : RegionsWellFormed mmu.regions)
    {address : U64} (ha : region.contains address = true) : mmu.addressMap address = none := by
  rw [addressMap_eq_none_iff]
  intro old hold
  rw [Bool.eq_false_iff]
  intro hcontains
  exact h.apart hwf old hold address hcontains ha

/-- A page-aligned region whose range passes the overlap check is free. -/
theorem free_of_ensureNoOverlap (hbase : region.base.toNat % 4096 = 0)
    (hsize : region.size.toNat % 4096 = 0)
    (hbytes : region.bytes.length = region.size.toNat)
    (hinitialized : region.initialized.length = region.size.toNat)
    (h : mmu.ensureNoOverlap region.base region.size = .ok ()) : mmu.Free region := by
  obtain ⟨hpos, hlt, hmeets⟩ := ensureNoOverlap_eq_ok_iff.mp h
  have hregion : region.WellFormed := ⟨hbase, hsize, hlt, hbytes, hinitialized⟩
  exact ⟨hregion, hpos, fun hwf => apart_of_ensureNoOverlap hwf hregion h⟩

/-! ## The mapping functions -/

/-- What a mapping call leaves behind: one more region, or nothing changed. -/
def MapsOrKeeps (map : MMUProgram Unit) (mmu : SoftMMU) : Prop :=
  (∃ region, map mmu = .ok () (mmu.withRegion region) ∧ mmu.Free region) ∨
    ∃ what, map mmu = .error (.emulatorError what) mmu

/-- The overlap check can only fail with an emulator error. -/
theorem ensureNoOverlap_cases (base size : U64) (mmu : SoftMMU) :
    mmu.ensureNoOverlap base size = .ok () ∨
      ∃ what, mmu.ensureNoOverlap base size = .error (.emulatorError what) := by
  unfold ensureNoOverlap
  split
  · exact Or.inr ⟨_, rfl⟩
  · dsimp only
    split
    · exact Or.inr ⟨_, rfl⟩
    · split
      · exact Or.inr ⟨_, rfl⟩
      · exact Or.inl rfl

theorem observe_ensureNoOverlap (h : mmu.ensureNoOverlap base size = .ok ()) :
    observe (ensureNoOverlap base size) mmu = .ok () mmu :=
  observe_eq_ok_iff.mpr ⟨h, rfl⟩

theorem observe_ensureNoOverlap_error {e : Raise}
    (h : mmu.ensureNoOverlap base size = .error e) :
    observe (ensureNoOverlap base size) mmu = .error e mmu :=
  observe_eq_error_iff.mpr ⟨h, rfl⟩

/-- `map_zeroed` and `map_mmap` check the range and push a region that covers it. -/
theorem mapsOrKeeps_of_check (hregion : region.base = pageAlignDown base)
    (hsize : region.size = pageAlignUp size)
    (hbytes : region.bytes.length = region.size.toNat)
    (hinitialized : region.initialized.length = region.size.toNat) :
    MapsOrKeeps (do
      observe (ensureNoOverlap (pageAlignDown base) (pageAlignUp size))
      pushRegion region) mmu := by
  rcases ensureNoOverlap_cases (pageAlignDown base) (pageAlignUp size) mmu with h | ⟨what, h⟩
  · left
    refine ⟨region, bind_of_ok (observe_ensureNoOverlap h), ?_⟩
    rw [← hregion, ← hsize] at h
    apply free_of_ensureNoOverlap _ _ hbytes hinitialized h
    · rw [hregion]
      exact pageAlignDown_mod base
    · rw [hsize]
      exact pageAlignUp_mod size
  · right
    exact ⟨what, bind_of_error (observe_ensureNoOverlap_error h)⟩

theorem mapZeroed_mapsOrKeeps : MapsOrKeeps (mapZeroed base size prot name) mmu :=
  mapsOrKeeps_of_check rfl rfl List.length_replicate List.length_replicate

theorem mapMmap_mapsOrKeeps {path : Option String} {fileOffset : U64} :
    MapsOrKeeps (mapMmap base size prot name path fileOffset) mmu :=
  mapsOrKeeps_of_check rfl rfl List.length_replicate List.length_replicate

/-- The region `map_zeroed` pushes. -/
theorem mapZeroed_eq_ok (h : mapZeroed base size prot name mmu = .ok () mmu') :
    mmu' = mmu.withRegion (.ofZeroes (pageAlignDown base) (pageAlignUp size) prot name) ∧
      mmu.Free (.ofZeroes (pageAlignDown base) (pageAlignUp size) prot name) := by
  rw [mapZeroed, bind_eq_ok_iff] at h
  rcases h with ⟨_, t, hchecked, hpush⟩
  rcases observe_eq_ok_iff.mp hchecked with ⟨hcheck, rfl⟩
  rw [pushRegion_apply] at hpush
  cases hpush
  exact ⟨rfl, free_of_ensureNoOverlap (pageAlignDown_mod base) (pageAlignUp_mod size)
    List.length_replicate List.length_replicate hcheck⟩

/-- The region `map_mmap` pushes. -/
theorem mapMmap_eq_ok {path : Option String} {fileOffset : U64}
    (h : mapMmap base size prot name path fileOffset mmu = .ok () mmu') :
    mmu' = mmu.withRegion
        (.ofMmap (pageAlignDown base) (pageAlignUp size) prot name path fileOffset) ∧
      mmu.Free (.ofMmap (pageAlignDown base) (pageAlignUp size) prot name path fileOffset) := by
  rw [mapMmap, bind_eq_ok_iff] at h
  obtain ⟨_, t, hchecked, hpush⟩ := h
  obtain ⟨hcheck, rfl⟩ := observe_eq_ok_iff.mp hchecked
  rw [pushRegion_apply] at hpush
  cases hpush
  exact ⟨rfl, free_of_ensureNoOverlap (pageAlignDown_mod base) (pageAlignUp_mod size)
    List.length_replicate List.length_replicate hcheck⟩

/-- The bytes `map_bytes` prepares have the size of the region. -/
theorem length_mapBytes_bytes {size destinationOffset : U64} {source : List U8}
    (h : ¬(destinationOffset > size ∨ source.length > (size - destinationOffset).toNat)) :
    (List.replicate destinationOffset.toNat (0 : U8) ++ source ++
      List.replicate (size.toNat - destinationOffset.toNat - source.length) 0).length =
        size.toNat := by
  rw [not_or, gt_iff_lt, BitVec.lt_def, Nat.not_lt] at h
  obtain ⟨hle, hfits⟩ := h
  rw [gt_iff_lt, Nat.not_lt, BitVec.toNat_sub_of_le (BitVec.le_def.mpr hle)] at hfits
  simp only [List.length_append, List.length_replicate]
  omega

theorem mapBytes_mapsOrKeeps {source : List U8} {destinationOffset : U64} :
    MapsOrKeeps (mapBytes base size prot source destinationOffset name) mmu := by
  unfold mapBytes
  dsimp only
  rcases ensureNoOverlap_cases (pageAlignDown base) (pageAlignUp size) mmu with h | ⟨what, h⟩
  · have hcheck := observe_ensureNoOverlap h
    by_cases hfits : destinationOffset > pageAlignUp size ∨
        source.length > (pageAlignUp size - destinationOffset).toNat
    · right
      refine ⟨"file mapping copy exceeds destination region", ?_⟩
      rw [bind_of_ok hcheck, if_pos (by simpa using hfits)]
      rfl
    · left
      have hlength := length_mapBytes_bytes hfits
      refine ⟨{ Region.ofZeroes (pageAlignDown base) (pageAlignUp size) prot name with
        bytes := List.replicate destinationOffset.toNat (0 : U8) ++ source ++
          List.replicate ((pageAlignUp size).toNat - destinationOffset.toNat - source.length)
            0 }, ?_, ?_⟩
      · rw [bind_of_ok hcheck, if_neg (by simpa using hfits)]
        dsimp only
        rw [Region.ofBytes, if_neg (not_not_intro hlength)]
        rfl
      · exact free_of_ensureNoOverlap (pageAlignDown_mod base) (pageAlignUp_mod size) hlength
          List.length_replicate h
  · right
    exact ⟨what, bind_of_error (observe_ensureNoOverlap_error h)⟩

/-- The region `map_bytes` pushes. -/
theorem mapBytes_eq_ok {source : List U8} {destinationOffset : U64}
    (h : mapBytes base size prot source destinationOffset name mmu = .ok () mmu') :
    ∃ region, mmu' = mmu.withRegion region ∧ mmu.Free region ∧
      region.base = pageAlignDown base ∧ region.size = pageAlignUp size ∧ region.prot = prot ∧
      region.bytes = List.replicate destinationOffset.toNat 0 ++ source ++
        List.replicate ((pageAlignUp size).toNat - destinationOffset.toNat - source.length) 0 ∧
      destinationOffset.toNat + source.length ≤ (pageAlignUp size).toNat := by
  unfold mapBytes at h
  dsimp only at h
  obtain ⟨_, t, hchecked, hrest⟩ := bind_eq_ok_iff.mp h
  obtain ⟨hcheck, rfl⟩ := observe_eq_ok_iff.mp hchecked
  split at hrest <;> rename_i hfits
  · cases hrest
  · have hlength := length_mapBytes_bytes (by simpa using hfits)
    rw [Region.ofBytes, if_neg (not_not_intro hlength)] at hrest
    cases hrest
    refine ⟨_, rfl, free_of_ensureNoOverlap (pageAlignDown_mod base) (pageAlignUp_mod size)
      hlength List.length_replicate hcheck, rfl, rfl, rfl, rfl, ?_⟩
    simp only [List.length_append, List.length_replicate] at hlength
    omega

/-! ## The retry loop -/

section AllocateLoop

variable {alignment candidate : U64} {map : U64 → MMUProgram Unit}

/-- The state with another allocation hint. -/
def withHint (mmu : SoftMMU) (hint : U64) : SoftMMU :=
  { mmu with nextAllocation := hint }

@[simp]
theorem withHint_nextAllocation (mmu : SoftMMU) (hint : U64) :
    (mmu.withHint hint).nextAllocation = hint :=
  rfl

@[simp]
theorem withHint_addressMap (mmu : SoftMMU) (hint : U64) :
    (mmu.withHint hint).addressMap = mmu.addressMap :=
  rfl

theorem firstCollision_withHint (mmu : SoftMMU) (hint candidate size : U64) :
    (mmu.withHint hint).firstCollision candidate size = mmu.firstCollision candidate size :=
  rfl

/-- The next candidate of the retry loop. -/
def candidateFor (alignment hint : U64) : U64 :=
  (hint + alignment - 1) &&& ~~~(alignment - 1)

/-- One round: a collision moves the hint behind the region in the way. -/
theorem allocateLoop_succ_of_collision {rounds : Nat}
    (h : mmu.firstCollision (candidateFor alignment mmu.nextAllocation) size = some region) :
    allocateLoop size alignment map (rounds + 1) mmu =
      allocateLoop size alignment map rounds (mmu.withHint (pageAlignUp region.endAddress)) := by
  rw [allocateLoop, bind_of_ok (get_apply mmu)]
  unfold candidateFor at h
  simp only [h]
  rfl

/-- One round: without a collision the candidate is mapped. -/
theorem allocateLoop_succ_of_free {rounds : Nat}
    (h : mmu.firstCollision (candidateFor alignment mmu.nextAllocation) size = none) :
    allocateLoop size alignment map (rounds + 1) mmu =
      (do
        map (candidateFor alignment mmu.nextAllocation)
        modify (withHint · (candidateFor alignment mmu.nextAllocation + size))
        return candidateFor alignment mmu.nextAllocation) mmu := by
  rw [allocateLoop, bind_of_ok (get_apply mmu)]
  unfold candidateFor at h
  simp only [h]
  rfl

/-- The ways in which the retry loop can end. -/
inductive AllocateOutcome (size alignment : U64) (map : U64 → MMUProgram Unit)
    (mmu : SoftMMU) : EStateM.Result Raise SoftMMU U64 → Prop where
  | mapped {hint : U64} {mmu' : SoftMMU}
      (hmap : map (candidateFor alignment hint) (mmu.withHint hint) = .ok () mmu') :
      AllocateOutcome size alignment map mmu
        (.ok (candidateFor alignment hint) (mmu'.withHint (candidateFor alignment hint + size)))
  | raised {hint : U64} {e : Raise} {mmu' : SoftMMU}
      (hmap : map (candidateFor alignment hint) (mmu.withHint hint) = .error e mmu') :
      AllocateOutcome size alignment map mmu (.error e mmu')
  | diverged {hint : U64} :
      AllocateOutcome size alignment map mmu (.error .divergence (mmu.withHint hint))

/-- The retry loop changes nothing but the hint until it maps its candidate. -/
theorem allocateLoop_spec (rounds : Nat) (hint : U64) :
    AllocateOutcome size alignment map mmu
      (allocateLoop size alignment map rounds (mmu.withHint hint)) := by
  induction rounds generalizing hint with
  | zero => exact .diverged
  | succ rounds ih =>
      cases hcollision : (mmu.withHint hint).firstCollision
          (candidateFor alignment (mmu.withHint hint).nextAllocation) size with
      | some region =>
          rw [allocateLoop_succ_of_collision hcollision]
          exact ih _
      | none =>
          rw [allocateLoop_succ_of_free hcollision]
          cases hmap : map (candidateFor alignment hint) (mmu.withHint hint) with
          | ok _ mmu' =>
              rw [withHint_nextAllocation, bind_of_ok hmap]
              exact .mapped hmap
          | error e mmu' =>
              rw [withHint_nextAllocation, bind_of_error hmap]
              exact .raised hmap

/-! ## The retry loop ends -/

theorem candidateFor_pageSize (hint : U64) : candidateFor pageSize hint = pageAlignUp hint :=
  rfl

theorem firstCollision_eq_some {candidate : U64}
    (h : mmu.firstCollision candidate size = some region) :
    region ∈ mmu.regions ∧ candidate < region.endAddress := by
  have hmeets := List.find?_some h
  simp only [Bool.and_eq_true, decide_eq_true_eq] at hmeets
  exact ⟨List.mem_of_find?_eq_some h, hmeets.1⟩

/-- The number of regions that reach past an address. -/
def regionsPast (address : U64) (regions : List Region) : Nat :=
  regions.countP fun region => address < region.endAddress

/-- Moving behind a region that reached past the address leaves fewer such regions. -/
theorem regionsPast_lt {regions : List Region} {address : U64} (hregion : region ∈ regions)
    (hpast : address < region.endAddress) :
    regionsPast region.endAddress regions < regionsPast address regions := by
  simp only [BitVec.lt_def] at hpast
  simp only [regionsPast, BitVec.lt_def]
  induction regions with
  | nil => simp at hregion
  | cons first rest ih =>
      have hmono : rest.countP (fun r => decide (region.endAddress.toNat < r.endAddress.toNat)) ≤
          rest.countP (fun r => decide (address.toNat < r.endAddress.toNat)) := by
        apply List.countP_mono_left
        intro r _ hr
        simp only [decide_eq_true_eq] at hr ⊢
        omega
      rw [List.countP_cons, List.countP_cons]
      rcases List.mem_cons.mp hregion with rfl | hrest
      · simp only [Nat.lt_irrefl, decide_false, hpast, decide_true]
        simp only [if_true, Bool.false_eq_true, if_false]
        omega
      · have hlt := ih hrest
        by_cases hfirst : region.endAddress.toNat < first.endAddress.toNat
        · have hfirst' : address.toNat < first.endAddress.toNat := by omega
          simp only [hfirst, hfirst', decide_true, if_true]
          omega
        · simp only [hfirst, decide_false, Bool.false_eq_true, if_false]
          omega

/-- With page alignment every collision moves the candidate behind one more region, so the
retry loop does not run out of rounds. -/
theorem allocateLoop_ne_divergence (hwf : RegionsWellFormed mmu.regions)
    (hmap : ∀ candidate hint mmu',
      map candidate (mmu.withHint hint) ≠ .error .divergence mmu')
    {rounds : Nat} {hint : U64}
    (hrounds : regionsPast (pageAlignUp hint) mmu.regions < rounds) (mmu' : SoftMMU) :
    allocateLoop size pageSize map rounds (mmu.withHint hint) ≠ .error .divergence mmu' := by
  induction rounds generalizing hint with
  | zero => omega
  | succ rounds ih =>
      cases hcollision : (mmu.withHint hint).firstCollision
          (candidateFor pageSize (mmu.withHint hint).nextAllocation) size with
      | some region =>
          rw [allocateLoop_succ_of_collision hcollision]
          rw [candidateFor_pageSize, firstCollision_withHint, withHint_nextAllocation]
            at hcollision
          obtain ⟨hregion, hpast⟩ := firstCollision_eq_some hcollision
          have hlt := regionsPast_lt hregion hpast
          have haligned : pageAlignUp region.endAddress = region.endAddress :=
            pageAlignUp_of_mod (hwf.wellFormed region hregion).endAddress_mod
          apply ih
          rw [haligned, haligned]
          omega
      | none =>
          rw [allocateLoop_succ_of_free hcollision]
          cases hmapped : map (candidateFor pageSize hint) (mmu.withHint hint) with
          | ok _ mmu'' =>
              rw [withHint_nextAllocation, bind_of_ok hmapped]
              exact fun h => by cases h
          | error e mmu'' =>
              rw [withHint_nextAllocation, bind_of_error hmapped]
              intro h
              cases h
              exact hmap _ _ _ hmapped

end AllocateLoop

/-! ## The allocation functions -/

/-- What an allocation call leaves behind: one more region, or nothing but a new hint. -/
def AllocatesOrKeeps (allocate : MMUProgram U64) (mmu : SoftMMU) : Prop :=
  (∃ address region hint hint',
      allocate mmu = .ok address (((mmu.withHint hint).withRegion region).withHint hint') ∧
        (mmu.withHint hint).Free region) ∨
    ∃ what hint, allocate mmu = .error (.emulatorError what) (mmu.withHint hint)

/-- The retry loop with page alignment ends, and it maps one region or keeps them all. -/
theorem allocateLoop_allocatesOrKeeps {map : U64 → MMUProgram Unit}
    (hwf : RegionsWellFormed mmu.regions)
    (hmap : ∀ candidate mmu, MapsOrKeeps (map candidate) mmu) {rounds : Nat}
    (hrounds : regionsPast (pageAlignUp mmu.nextAllocation) mmu.regions < rounds) :
    AllocatesOrKeeps (allocateLoop size pageSize map rounds) mmu := by
  have hends : ∀ mmu', allocateLoop size pageSize map rounds mmu ≠ .error .divergence mmu' := by
    apply allocateLoop_ne_divergence hwf _ hrounds
    intro candidate hint mmu' hdiverged
    rcases hmap candidate (mmu.withHint hint) with ⟨region, hok, -⟩ | ⟨what, herror⟩
    · simp [hdiverged] at hok
    · simp [hdiverged] at herror
  have hspec : AllocateOutcome size pageSize map mmu
      (allocateLoop size pageSize map rounds mmu) := allocateLoop_spec rounds mmu.nextAllocation
  unfold AllocatesOrKeeps
  generalize allocateLoop size pageSize map rounds mmu = outcome at hends hspec
  cases hspec with
  | @mapped hint mmu' hmapped =>
      rcases hmap (candidateFor pageSize hint) (mmu.withHint hint) with
        ⟨region, hok, hfree⟩ | ⟨what, herror⟩
      · rw [hmapped] at hok
        cases hok
        exact Or.inl ⟨_, region, hint, _, rfl, hfree⟩
      · simp [hmapped] at herror
  | @raised hint e mmu' hraised =>
      rcases hmap (candidateFor pageSize hint) (mmu.withHint hint) with
        ⟨region, hok, -⟩ | ⟨what, herror⟩
      · simp [hraised] at hok
      · rw [hraised] at herror
        cases herror
        exact Or.inr ⟨what, hint, rfl⟩
  | diverged => exact absurd rfl (hends _)

/-- An allocation with page alignment starts the retry loop with enough rounds. -/
theorem allocateWith_pageSize (map : U64 → U64 → MMUProgram Unit) :
    allocateWith size pageSize map mmu =
      allocateLoop (pageAlignUp size) pageSize (fun candidate => map candidate (pageAlignUp size))
        (mmu.regions.length + 2) mmu := by
  rw [allocateWith, stdMax_self, bind_of_ok (get_apply mmu)]

theorem regionsPast_le_length (address : U64) (regions : List Region) :
    regionsPast address regions ≤ regions.length :=
  List.countP_le_length

/-- An allocation with page alignment maps one region or keeps them all. -/
theorem allocateWith_allocatesOrKeeps {map : U64 → U64 → MMUProgram Unit}
    (hwf : RegionsWellFormed mmu.regions)
    (hmap : ∀ candidate size mmu, MapsOrKeeps (map candidate size) mmu) :
    AllocatesOrKeeps (allocateWith size pageSize map) mmu := by
  have hle := regionsPast_le_length (pageAlignUp mmu.nextAllocation) mmu.regions
  have hloop : AllocatesOrKeeps (allocateLoop (pageAlignUp size) pageSize
      (fun candidate => map candidate (pageAlignUp size)) (mmu.regions.length + 2)) mmu :=
    allocateLoop_allocatesOrKeeps hwf (fun candidate => hmap candidate (pageAlignUp size))
      (by omega)
  rw [AllocatesOrKeeps, allocateWith_pageSize]
  exact hloop

theorem allocate_allocatesOrKeeps (hwf : RegionsWellFormed mmu.regions) :
    AllocatesOrKeeps (allocate size pageSize prot name) mmu :=
  allocateWith_allocatesOrKeeps hwf fun _ _ _ => mapZeroed_mapsOrKeeps

theorem allocateMmap_allocatesOrKeeps {path : Option String} {fileOffset : U64}
    (hwf : RegionsWellFormed mmu.regions) :
    AllocatesOrKeeps (allocateMmap size pageSize prot name path fileOffset) mmu :=
  allocateWith_allocatesOrKeeps hwf fun _ _ _ => mapMmap_mapsOrKeeps

/-- The region an `allocate_mmap` that returns has pushed. -/
theorem allocateMmap_eq_ok {path : Option String} {fileOffset address : U64}
    (h : allocateMmap size pageSize prot name path fileOffset mmu = .ok address mmu') :
    address.toNat % 4096 = 0 ∧ ∃ hint hint',
      mmu' = ((mmu.withHint hint).withRegion
        (.ofMmap address (pageAlignUp size) prot name path fileOffset)).withHint hint' ∧
      (mmu.withHint hint).Free
        (.ofMmap address (pageAlignUp size) prot name path fileOffset) := by
  have hspec : AllocateOutcome (pageAlignUp size) pageSize
      (fun candidate => mapMmap candidate (pageAlignUp size) prot name path fileOffset) mmu
      (.ok address mmu') := by
    rw [← h, allocateMmap, allocateWith_pageSize]
    exact allocateLoop_spec _ mmu.nextAllocation
  have hround : pageAlignUp (pageAlignUp size) = pageAlignUp size :=
    pageAlignUp_of_mod (pageAlignUp_mod size)
  cases hspec with
  | @mapped hint mmu'' hmapped =>
      have haligned := pageAlignUp_mod hint
      rw [candidateFor_pageSize] at hmapped
      obtain ⟨rfl, hfree⟩ := mapMmap_eq_ok hmapped
      rw [pageAlignDown_of_mod haligned, hround] at hfree ⊢
      exact ⟨haligned, hint, _, rfl, hfree⟩

end SoftMMU

end LUE
