import AmstradCpc.Proofs.Disk.Blocks

/-!
# Writing a disk that was read

A disk read from a standard image is written as a standard image again. `Disk.ofBytes_toBytes_iff`
says for which disks reading that gives the same tracks: those on which every track is there, has
sectors as long as the size code of its first sector says, and fits the 16 bits of the track size.
-/

namespace AmstradCpc

/-- The sectors are as long as the size code says that the track is written with. -/
def Track.Uniform (t : Track) : Prop := ∀ s ∈ t.sectors, s.data.length = sectorSize t.sizeCode

namespace DiskImage

/-! ## Sectors -/

theorem length_of_mem_readSectors {size count : Nat} {descriptors data : List UInt8} {s : Sector}
    (h : s ∈ readSectors false size count descriptors data) : s.data.length = size := by
  fun_induction readSectors false size count descriptors data with
  | case1 data count c h r n st1 st2 lo hi descriptors len ih =>
    rcases List.mem_cons.mp h with rfl | h
    · exact length_takePadded _ _
    · exact ih h
  | case2 => cases h

/-! ## Tracks -/

/-- A written track is read back as it was just when it is uniform. -/
theorem readTrack_trackBlock_iff (cylinder side : Nat) {t : Track}
    (h : t.sectors.length ≤ Disk.maxSectors) (tail : List UInt8) :
    readTrack false (trackBlock false cylinder side t ++ tail) = .ok t ↔ t.Uniform := by
  obtain ⟨pad, rest, hread⟩ := readTrack_trackBlock false cylinder side h tail
  rw [hread]
  constructor
  · -- whatever is read back has the size that the size code says
    intro ht s hs
    have hsectors := congrArg Track.sectors (Except.ok.inj ht)
    dsimp only at hsectors
    rw [← hsectors] at hs
    exact length_of_mem_readSectors hs
  · intro hu
    have hsectors : ∀ s ∈ t.sectors, Described false (sectorSize t.sizeCode) s := hu
    rw [readSectors_descriptors hsectors]

/-! ## All tracks -/

-- Tracks of one size are read one by one, each at its place.
theorem readTracks_replicate {size n : Nat} {rest : List UInt8} {tracks : List (Option Track)} :
    readTracks false (List.replicate n size) rest = .ok tracks ↔
      tracks.length = n ∧
        ∀ i o, tracks[i]? = some o → readPlace false size (rest.drop (i * size)) = .ok o := by
  induction n generalizing rest tracks with
  | zero =>
    rw [List.length_eq_zero_iff]
    constructor
    · intro h
      obtain rfl : [] = tracks := Except.ok.inj h
      simp
    · rintro ⟨rfl, -⟩
      rfl
  | succ n ih =>
    -- what is track `i` behind the first one is track `i + 1`
    have hnext (i : Nat) : (rest.drop size).drop (i * size) = rest.drop ((i + 1) * size) := by
      rw [List.drop_drop, Nat.succ_mul, Nat.add_comm]
    rw [List.replicate_succ, readTracks_cons]
    constructor
    · rintro ⟨o, later, rfl, hslot, hlater⟩
      obtain ⟨hlength, htracks⟩ := ih.mp hlater
      refine ⟨congrArg (· + 1) hlength, fun i o' hi => ?_⟩
      cases i with
      | zero =>
        obtain rfl : o = o' := by simpa using hi
        simpa using hslot
      | succ i =>
        rw [← hnext]
        exact htracks i o' (by simpa using hi)
    · rintro ⟨hlength, htracks⟩
      obtain ⟨o, later, rfl⟩ := List.exists_cons_of_length_eq_add_one hlength
      refine ⟨o, later, rfl, by simpa using htracks 0 o rfl, ih.mpr ⟨Nat.succ.inj hlength, ?_⟩⟩
      intro i o' hi
      rw [hnext]
      exact htracks (i + 1) o' (by simpa using hi)

end DiskImage

open DiskImage

/-! ## Standard disks -/

/-- What is true of a disk that was read from a standard image. -/
structure Disk.Standard (d : Disk) : Prop where
  extended : d.extended = false
  cylinders : d.cylinders ≤ maxCylinders
  sides : d.sides = 1 ∨ d.sides = 2
  length : d.tracks.length = d.cylinders * d.sides
  sectors : ∀ t, some t ∈ d.tracks → t.sectors.length ≤ maxSectors

namespace Disk

theorem standard_of_ofBytes {file : List UInt8} {d : Disk} (h : ofBytes file = .ok d)
    (hstd : d.extended = false) : d.Standard := by
  obtain ⟨-, hsides, extended, tracks, -, htracks, rfl⟩ := ofBytes_eq_ok_iff.mp h
  obtain rfl : extended = false := hstd
  obtain ⟨hlength, hslots⟩ := readTracks_replicate.mp htracks
  refine ⟨rfl, Nat.min_le_right .., ?_, hlength, fun t ht => ?_⟩
  · rcases hsides with hs | hs
    · exact .inl (congrArg UInt8.toNat hs)
    · exact .inr (congrArg UInt8.toNat hs)
  · obtain ⟨i, hi⟩ := List.mem_iff_getElem?.mp ht
    obtain ⟨-, -, hread⟩ := readPlace_some.mp (hslots i _ hi)
    exact length_sectors_of_readTrack hread

/-! ## The written image -/

/-- The size that a standard image has for every track. -/
def trackSize (d : Disk) : Nat := standardSize (trackBlocks d)

/-- What a standard image has behind the block about the disk. -/
def trackArea (d : Disk) : List UInt8 :=
  (trackBlocks d).flatMap fun b => padTo d.trackSize (b.getD [])

theorem toBytes_eq {d : Disk} (h : d.extended = false) :
    d.toBytes = diskBlock d (littleEndian d.trackSize) ++ d.trackArea := by
  unfold toBytes
  rw [h]
  rfl

-- Of the track size the block has 16 bits.
theorem trackSizes_diskBlock {d : Disk} (h : d.extended = false) (size count : Nat) :
    trackSizes false count (diskBlock d (littleEndian size)) =
      List.replicate count (size % 0x10000) := by
  rw [← littleEndian_read]
  unfold diskBlock
  rw [h]
  rfl

theorem ofBytes_toBytes_eq {d : Disk} (h : d.Standard) :
    ofBytes d.toBytes =
      (readTracks false (List.replicate d.tracks.length (d.trackSize % 0x10000)) d.trackArea).map
        fun tracks => { cylinders := d.cylinders, sides := d.sides, tracks, extended := false } := by
  have hfields : (littleEndian d.trackSize).length ≤ 206 := (by decide : 2 ≤ 206)
  rw [toBytes_eq h.extended, ofBytes_diskBlock hfields h.cylinders h.sides, h.extended,
    trackSizes_diskBlock h.extended, h.length]

/-! ## Places in the image -/

theorem blockSize_le_trackSize (d : Disk) : blockSize ≤ d.trackSize := by
  unfold trackSize standardSize
  cases hmax : (((trackBlocks d).filterMap id).map List.length).max? with
  | none => exact Nat.le_refl _
  | some n =>
    obtain ⟨b, hb, rfl⟩ := List.mem_map.mp (List.max?_mem hmax)
    obtain ⟨b?, hb?, rfl⟩ := List.mem_filterMap.mp hb
    obtain ⟨i, hi, hblock⟩ := List.mem_mapIdx.mp hb?
    obtain ⟨t, -, rfl⟩ := Option.map_eq_some_iff.mp hblock
    exact blockSize_le_length ..

theorem length_le_trackSize {d : Disk} {b : List UInt8} (h : some b ∈ trackBlocks d) :
    b.length ≤ d.trackSize := by
  have hmem : b.length ∈ ((trackBlocks d).filterMap id).map List.length :=
    List.mem_map_of_mem (List.mem_filterMap.mpr ⟨some b, h, rfl⟩)
  exact List.le_max?_getD_of_mem hmem

-- Pieces of one length are found at its multiples.
theorem drop_flatMap {α β : Type} {f : α → List β} {size : Nat} {xs : List α}
    (hf : ∀ x ∈ xs, (f x).length = size) {i : Nat} {x : α} (hi : xs[i]? = some x) :
    ∃ tail, (xs.flatMap f).drop (i * size) = f x ++ tail := by
  induction xs generalizing i with
  | nil => simp at hi
  | cons y xs ih =>
    rw [List.flatMap_cons]
    cases i with
    | zero =>
      obtain rfl : y = x := by simpa using hi
      rw [Nat.zero_mul]
      exact ⟨_, rfl⟩
    | succ i =>
      have hy : (f y).length = size := hf y List.mem_cons_self
      rw [Nat.succ_mul, Nat.add_comm, ← List.drop_drop, ← hy, List.drop_left, hy]
      exact ih (fun x hx => hf x (List.mem_cons_of_mem _ hx)) (by simpa using hi)

-- Behind the tracks before it stands a track's own block, or zeros for one that is not there.
theorem drop_trackArea {d : Disk} (h : d.Standard) {i : Nat} {o : Option Track}
    (hi : d.tracks[i]? = some o) : ∃ tail, d.trackArea.drop (i * d.trackSize) =
      padTo d.trackSize ((o.map (trackBlock false (i / d.sides) (i % d.sides))).getD []) ++ tail := by
  have hlength (b : Option (List UInt8)) (hb : b ∈ trackBlocks d) :
      (padTo d.trackSize (b.getD [])).length = d.trackSize := by
    rw [length_padTo]
    cases b with
    | none => exact Nat.max_eq_left (Nat.zero_le _)
    | some b => exact Nat.max_eq_left (length_le_trackSize hb)
  refine drop_flatMap hlength ?_
  unfold trackBlocks
  rw [List.getElem?_mapIdx, hi, h.extended]
  rfl

-- At every multiple of the size as the reader sees it there are at least 256 bytes left, so it
-- takes every track for one that is there.
theorem readPlace_trackArea {d : Disk} (h : d.Standard) (hsize : d.trackSize % 0x10000 ≠ 0) {i : Nat}
    {o : Option Track} (hi : d.tracks[i]? = some o) :
    readPlace false (d.trackSize % 0x10000) (d.trackArea.drop (i * (d.trackSize % 0x10000))) = .ok o ↔
      ∃ t, o = some t ∧
        readTrack false (d.trackArea.drop (i * (d.trackSize % 0x10000))) = .ok t := by
  have hlong : blockSize ≤ (d.trackArea.drop (i * (d.trackSize % 0x10000))).length := by
    obtain ⟨tail, htail⟩ := drop_trackArea h hi
    have hplace := congrArg List.length htail
    rw [List.length_drop, List.length_append, length_padTo] at hplace
    -- the reader is never further on than where the track was written
    have hbefore : i * (d.trackSize % 0x10000) ≤ i * d.trackSize :=
      Nat.mul_le_mul_left i (Nat.mod_le ..)
    have hmin := d.blockSize_le_trackSize
    rw [List.length_drop]
    omega
  constructor
  · intro hslot
    cases o with
    | none =>
      have := readPlace_none hslot
      omega
    | some t => exact ⟨t, rfl, (readPlace_some.mp hslot).2.2⟩
  · rintro ⟨t, rfl, hread⟩
    exact readPlace_some.mpr ⟨hsize, hlong, hread⟩

-- While the size fits 16 bits, a track is found where it was written.
theorem readTrack_trackArea {d : Disk} (h : d.Standard) {i : Nat} {t : Track}
    (hi : d.tracks[i]? = some (some t)) :
    readTrack false (d.trackArea.drop (i * d.trackSize)) = .ok t ↔ t.Uniform := by
  obtain ⟨tail, htail⟩ := drop_trackArea h hi
  rw [htail]
  show readTrack false (padTo d.trackSize (trackBlock false _ _ t) ++ tail) = .ok t ↔ _
  unfold padTo
  rw [List.append_assoc]
  exact readTrack_trackBlock_iff _ _ (h.sectors t (List.mem_of_getElem? hi)) _

/-! ## Reading the image again -/

/-- What it takes for a standard disk to be read again as it was. Where a track size does not fit
16 bits, what is left of it leads the reader into the middle of the data. -/
def Resavable (d : Disk) : Prop :=
  d.tracks = [] ∨
    (∀ o ∈ d.tracks, o ≠ none) ∧
      if d.trackSize < 0x10000 then ∀ t, some t ∈ d.tracks → t.Uniform
      else
        d.trackSize % 0x10000 ≠ 0 ∧
          ∀ i t, d.tracks[i]? = some (some t) →
            readTrack false (d.trackArea.drop (i * (d.trackSize % 0x10000))) = .ok t

-- Without any track the image has blocks of the least size.
theorem trackSize_of_none {d : Disk} (h : ∀ o ∈ d.tracks, o = none) :
    d.trackSize = blockSize := by
  have hblocks : (trackBlocks d).filterMap id = [] := by
    refine List.filterMap_eq_nil_iff.mpr fun b hb => ?_
    obtain ⟨i, hi, rfl⟩ := List.mem_mapIdx.mp hb
    rw [h _ (List.getElem_mem hi)]
    rfl
  unfold trackSize standardSize
  rw [hblocks]
  rfl

-- A size that ends in 16 zeros is read as zero, and then no track is there to be read.
theorem not_readPlace_of_zero {d : Disk} (hsize : d.trackSize % 0x10000 = 0) :
    ¬∀ i o, d.tracks[i]? = some o →
      readPlace false (d.trackSize % 0x10000) (d.trackArea.drop (i * (d.trackSize % 0x10000))) = .ok o := by
  intro hslots
  have hnone : ∀ o ∈ d.tracks, o = none := by
    intro o ho
    obtain ⟨i, hi⟩ := List.mem_iff_getElem?.mp ho
    have hslot := hslots i o hi
    rw [hsize] at hslot
    exact (Except.ok.inj hslot).symm
  -- but an image without tracks has a size of 256
  rw [trackSize_of_none hnone] at hsize
  exact absurd hsize (by decide)

-- With any other size each track is taken for one that is there, so each has to be.
theorem readPlace_iff {d : Disk} (h : d.Standard) (hsize : d.trackSize % 0x10000 ≠ 0) :
    (∀ i o, d.tracks[i]? = some o →
      readPlace false (d.trackSize % 0x10000) (d.trackArea.drop (i * (d.trackSize % 0x10000))) = .ok o) ↔
      (∀ o ∈ d.tracks, o ≠ none) ∧ ∀ i t, d.tracks[i]? = some (some t) →
        readTrack false (d.trackArea.drop (i * (d.trackSize % 0x10000))) = .ok t := by
  constructor
  · intro hall
    refine ⟨fun o ho => ?_, fun i t hi => ?_⟩
    · obtain ⟨i, hi⟩ := List.mem_iff_getElem?.mp ho
      obtain ⟨t, rfl, -⟩ := (readPlace_trackArea h hsize hi).mp (hall i o hi)
      exact Option.some_ne_none t
    · obtain ⟨t', ht, hread⟩ := (readPlace_trackArea h hsize hi).mp (hall i _ hi)
      rw [Option.some.inj ht]
      exact hread
  · rintro ⟨hsome, hread⟩ i o hi
    obtain ⟨t, rfl⟩ := Option.ne_none_iff_exists'.mp (hsome o (List.mem_of_getElem? hi))
    exact (readPlace_trackArea h hsize hi).mpr ⟨t, rfl, hread i t hi⟩

theorem uniform_iff {d : Disk} (h : d.Standard) (hfits : d.trackSize < 0x10000) :
    (∀ i t, d.tracks[i]? = some (some t) →
      readTrack false (d.trackArea.drop (i * (d.trackSize % 0x10000))) = .ok t) ↔
      ∀ t, some t ∈ d.tracks → t.Uniform := by
  rw [Nat.mod_eq_of_lt hfits]
  constructor
  · intro hread t ht
    obtain ⟨i, hi⟩ := List.mem_iff_getElem?.mp ht
    exact (readTrack_trackArea h hi).mp (hread i t hi)
  · intro hu i t hi
    exact (readTrack_trackArea h hi).mpr (hu t (List.mem_of_getElem? hi))

theorem readTracks_trackArea_iff {d : Disk} (h : d.Standard) :
    readTracks false (List.replicate d.tracks.length (d.trackSize % 0x10000)) d.trackArea =
        .ok d.tracks ↔ d.Resavable := by
  have hmin : 256 ≤ d.trackSize := d.blockSize_le_trackSize
  rw [readTracks_replicate]
  unfold Resavable
  by_cases hempty : d.tracks = []
  · simp [hempty]
  by_cases hsize : d.trackSize % 0x10000 = 0
  · have hlarge : ¬ d.trackSize < 0x10000 := by omega
    rw [if_neg hlarge]
    simp only [not_readPlace_of_zero hsize, and_false, false_iff]
    simp [hempty, hsize]
  · rw [readPlace_iff h hsize]
    by_cases hfits : d.trackSize < 0x10000
    · rw [if_pos hfits, uniform_iff h hfits]
      simp [hempty]
    · rw [if_neg hfits]
      simp [hempty, hsize]

-- The tracks of a disk are what can be found at its places.
theorem tracks_eq_of_track? {d d' : Disk} (h : d.Standard) (hlength : d'.tracks.length = d.tracks.length)
    (hcylinders : d'.cylinders = d.cylinders) (hsides : d'.sides = d.sides)
    (htracks : ∀ cylinder side, d'.track? cylinder side = d.track? cylinder side) :
    d'.tracks = d.tracks := by
  refine List.ext_getElem hlength fun i hi' hi => ?_
  have hpos : 0 < d.sides := by
    have := h.sides
    omega
  -- entry `i` is that of cylinder `i / sides` and side `i % sides`
  have hcylinder : i / d.sides < d.cylinders := by
    rw [Nat.div_lt_iff_lt_mul hpos, ← h.length]
    exact hi
  have hside : i % d.sides < d.sides := Nat.mod_lt i hpos
  have hplace : i / d.sides * d.sides + i % d.sides = i := Nat.div_add_mod' i d.sides
  have hsame := htracks (i / d.sides) (i % d.sides)
  unfold track? index at hsame
  rw [hcylinders, hsides, if_pos ⟨hcylinder, hside⟩, if_pos ⟨hcylinder, hside⟩, hplace,
    List.getElem?_eq_getElem hi', List.getElem?_eq_getElem hi] at hsame
  exact hsame

/-- A disk that was read from a standard image, written and read again, is the same disk just when
it is `Resavable`. -/
theorem ofBytes_toBytes_iff {file : List UInt8} {d : Disk} (h : ofBytes file = .ok d)
    (hstd : d.extended = false) :
    (∃ d', ofBytes d.toBytes = .ok d' ∧ d'.cylinders = d.cylinders ∧ d'.sides = d.sides ∧
      ∀ cylinder side, d'.track? cylinder side = d.track? cylinder side) ↔ d.Resavable := by
  have hd := standard_of_ofBytes h hstd
  rw [← readTracks_trackArea_iff hd, ofBytes_toBytes_eq hd]
  constructor
  · rintro ⟨d', hd', hcylinders, hsides, htracks⟩
    cases hread : readTracks false _ d.trackArea with
    | error e =>
      rw [hread] at hd'
      cases hd'
    | ok tracks =>
      rw [hread] at hd'
      have hread' : d'.tracks = tracks := by rw [← Except.ok.inj hd']
      have hlength : d'.tracks.length = d.tracks.length := by
        rw [hread']
        exact (readTracks_replicate.mp hread).1
      rw [← hread', tracks_eq_of_track? hd hlength hcylinders hsides htracks]
  · intro hread
    rw [hread]
    exact ⟨_, rfl, rfl, rfl, fun _ _ => rfl⟩

/-- An image that ends behind the block about its first track, which has one sector. -/
def truncatedImage (cylinders : UInt8) : List UInt8 :=
  padTo 0x30 standardHeader ++ [cylinders, 1, 0, 2] ++ List.replicate 204 0 ++
    padTo blockSize (padTo 0x14 trackHeader ++ [0, 1, 0x4E, 0xE5, 0, 0, 0xC1, 0])

set_option maxRecDepth 4000 in
/-- With one cylinder such an image is written as it was read; with two it cannot be read again. -/
theorem ofBytes_toBytes_iff_truncated :
    (∃ d, ofBytes (truncatedImage 1) = .ok d ∧
      ∃ d', ofBytes d.toBytes = .ok d' ∧ d'.cylinders = d.cylinders ∧ d'.sides = d.sides ∧
        ∀ cylinder side, d'.track? cylinder side = d.track? cylinder side) ∧
    ∃ d, ofBytes (truncatedImage 2) = .ok d ∧
      ¬∃ d', ofBytes d.toBytes = .ok d' ∧ d'.cylinders = d.cylinders ∧ d'.sides = d.sides ∧
        ∀ cylinder side, d'.track? cylinder side = d.track? cylinder side := by
  let t : Track := ⟨0x4E, 0xE5, [⟨⟨0, 0, 0xC1, 0⟩, 0, 0, List.replicate 128 0⟩]⟩
  have hone : ofBytes (truncatedImage 1) = .ok ⟨1, 1, [some t], false, false, false⟩ := rfl
  have htwo : ofBytes (truncatedImage 2) = .ok ⟨2, 1, [some t, none], false, false, false⟩ := rfl
  refine ⟨⟨_, hone, (ofBytes_toBytes_iff hone rfl).mpr (.inr ⟨by decide, ?_⟩)⟩, _, htwo, ?_⟩
  · rw [if_pos (by decide)]
    intro t' ht'
    obtain rfl : t' = t := by simpa using ht'
    unfold Track.Uniform
    decide
  · rw [ofBytes_toBytes_iff htwo rfl]
    rintro (hnil | ⟨hsome, -⟩)
    · cases hnil
    · exact hsome none (by decide) rfl

end Disk

end AmstradCpc
