import Mathlib.Algebra.Order.BigOperators.Group.List
import Mathlib.Algebra.Order.Group.Nat
import AmstradCpc.Proofs.Disk.Blocks

/-!
# Extended images hold what they are given

An extended image has a table of block sizes in units of 256 bytes, one byte for each track, and
stores the length of every sector in two bytes. `Disk.ofBytes_toBytes_of_fits` says that nothing is
lost as long as the numbers fit there: the disk that is read from the written image is the one that
was written, with unformatted tracks and sectors of any length, and it is neither write protected nor
modified.
-/

namespace AmstradCpc

open DiskImage

/-- The bytes that a track's sectors hold. -/
def Track.dataLength (t : Track) : Nat := (t.sectors.flatMap (·.data)).length

/-- The track fits its block: the descriptors fit the 256 bytes about the track, and the size of the
block fits its byte in the table. -/
structure Track.Fits (t : Track) : Prop where
  sectors : t.sectors.length ≤ Disk.maxSectors
  data : t.dataLength ≤ 254 * 0x100

/-- What an extended image can hold. -/
structure Disk.Fits (d : Disk) : Prop where
  extended : d.extended = true
  cylinders : d.cylinders ≤ maxCylinders
  sides : d.sides = 1 ∨ d.sides = 2
  length : d.tracks.length = d.cylinders * d.sides
  tracks : ∀ t, some t ∈ d.tracks → t.Fits

namespace DiskImage

/-! ## Tracks -/

-- No sector is longer than all of them, so two bytes are enough for its length.
theorem described_of_fits {t : Track} (h : t.Fits) (size : Nat) :
    ∀ s ∈ t.sectors, Described true size s := by
  intro s hs
  have hle : s.data.length ≤ t.dataLength := by
    unfold Track.dataLength
    rw [List.length_flatMap]
    exact List.le_sum_of_mem (List.mem_map_of_mem hs)
  have hdata := h.data
  show s.data.length < 0x10000
  omega

theorem readTrack_of_fits {t : Track} (h : t.Fits) (cylinder side : Nat) (tail : List UInt8) :
    readTrack true (trackBlock true cylinder side t ++ tail) = .ok t := by
  obtain ⟨pad, rest, hread⟩ := readTrack_trackBlock true cylinder side h.sectors tail
  rw [hread, readSectors_descriptors (described_of_fits h _)]

theorem length_trackBlock {t : Track} (h : t.sectors.length ≤ Disk.maxSectors)
    (extended : Bool) (cylinder side : Nat) :
    (trackBlock extended cylinder side t).length = ((t.dataLength + 0xFF) / 0x100 + 1) * 0x100 := by
  have hcount : t.sectors.length ≤ 29 := h
  have hstart : (padTo blockSize (trackStart extended cylinder side t)).length = 0x100 := by
    rw [length_padTo, length_trackStart]
    unfold blockSize
    omega
  have hdata : (t.sectors.flatMap (·.data)).length = t.dataLength := rfl
  rw [trackBlock_eq]
  unfold padToBlock
  rw [length_padTo, List.length_append, hstart, hdata]
  omega

/-- The size of a block, from its entry in the table. -/
def sizeOfEntry (entry : UInt8) : Nat := entry.toNat * blockSize

theorem sizeOfEntry_tableEntry {t : Track} (h : t.Fits) (cylinder side : Nat) :
    sizeOfEntry (tableEntry (some (trackBlock true cylinder side t))) =
      (trackBlock true cylinder side t).length := by
  have hdata := h.data
  have hlength := length_trackBlock h.sectors true cylinder side
  have hbyte (n : Nat) (hn : n < 256) : n.toUInt8.toNat = n :=
    UInt8.toNat_ofNat'.trans (Nat.mod_eq_of_lt hn)
  show ((trackBlock true cylinder side t).length / 0x100).toUInt8.toNat * 0x100 = _
  rw [hlength, Nat.mul_div_cancel _ (by decide), hbyte _ (by omega)]

/-! ## All tracks -/

-- The induction is over the tracks, with the places that they are written for left open. What is
-- left to read begins with the next block, as an unformatted track has none.
theorem readTracks_blocks {tracks : List (Option Track)} (h : ∀ t, some t ∈ tracks → t.Fits)
    (cylinder side : Nat → Nat) :
    let blocks := tracks.mapIdx fun i o => o.map (trackBlock true (cylinder i) (side i))
    readTracks true (blocks.map fun b => sizeOfEntry (tableEntry b)) (blocks.filterMap id).flatten =
      .ok tracks := by
  induction tracks generalizing cylinder side with
  | nil => rfl
  | cons o tracks ih =>
    have hlater :=
      ih (fun t ht => h t (List.mem_cons_of_mem _ ht)) (cylinder <| · + 1) (side <| · + 1)
    dsimp only at hlater ⊢
    rw [List.mapIdx_cons, List.map_cons, readTracks_cons]
    refine ⟨o, tracks, rfl, ?_⟩
    cases o with
    | none =>
      rw [Option.map_none, List.filterMap_cons_none (f := id) rfl]
      exact ⟨if_pos (.inl rfl), hlater⟩
    | some t =>
      have ht : t.Fits := h t List.mem_cons_self
      have hsize := sizeOfEntry_tableEntry ht (cylinder 0) (side 0)
      have hblock := blockSize_le_length true (cylinder 0) (side 0) t
      have hpos : 0 < blockSize := by decide
      rw [Option.map_some, hsize, List.filterMap_cons_some (f := id) rfl, List.flatten_cons,
        List.drop_left]
      refine ⟨readPlace_some.mpr ⟨by omega, ?_, readTrack_of_fits ht _ _ _⟩, hlater⟩
      rw [List.length_append]
      omega

end DiskImage

namespace Disk

/-! ## The written image -/

theorem toBytes_of_extended {d : Disk} (h : d.extended = true) :
    d.toBytes = diskBlock d ([0, 0] ++ (trackBlocks d).map tableEntry) ++
      ((trackBlocks d).filterMap id).flatten := by
  unfold toBytes
  rw [h]
  rfl

-- The table stands behind two bytes that an extended image does not use.
theorem trackSizes_table {d : Disk} {table : List UInt8} (h : table.length ≤ 204) :
    trackSizes true table.length (diskBlock d ([0, 0] ++ table)) = table.map sizeOfEntry := by
  have hfields : ([0, 0] ++ table).length ≤ 206 := by
    rw [List.length_append]
    exact Nat.add_le_add_left h 2
  have hdrop : (diskBlock d ([0, 0] ++ table)).drop 0x34 =
      table ++ List.replicate (206 - ([0, 0] ++ table).length) 0 := by
    have hplace := congrArg (List.drop 4) (drop_diskBlock d hfields)
    rwa [List.drop_drop] at hplace
  unfold trackSizes
  rw [if_pos rfl, hdrop, List.take_left]
  rfl

/-- A disk that fits an extended image is read back as it was written, without the marks that an
image does not hold. -/
theorem ofBytes_toBytes_of_fits {d : Disk} (h : d.Fits) :
    ofBytes d.toBytes = .ok { d with writeProtected := false, modified := false } := by
  have hmax : d.cylinders ≤ 84 := h.cylinders
  have hlength : ((trackBlocks d).map tableEntry).length = d.cylinders * d.sides := by
    rw [List.length_map, trackBlocks, List.length_mapIdx, h.length]
  -- the table has a byte for each of at most 168 tracks
  have htable : ((trackBlocks d).map tableEntry).length ≤ 204 := by
    rw [hlength]
    rcases h.sides with hs | hs <;> rw [hs] <;> omega
  have hfields : ([0, 0] ++ (trackBlocks d).map tableEntry).length ≤ 206 := by
    rw [List.length_append]
    exact Nat.add_le_add_left htable 2
  have htracks := readTracks_blocks h.tracks (· / d.sides) (· % d.sides)
  have hblocks : trackBlocks d =
      d.tracks.mapIdx fun i o => o.map (trackBlock true (i / d.sides) (i % d.sides)) := by
    unfold trackBlocks
    rw [h.extended]
  rw [toBytes_of_extended h.extended, ofBytes_diskBlock hfields h.cylinders h.sides, h.extended,
    ← hlength, trackSizes_table htable, List.map_map, hblocks]
  dsimp only at htracks
  show Except.map _ (readTracks true (List.map (fun b => sizeOfEntry (tableEntry b)) _) _) = _
  rw [htracks]
  rfl

/-- A track with sectors of 3, 300 and no bytes on one side, and nothing on the other. -/
def oddSizes : Disk where
  cylinders := 1
  sides := 2
  tracks := [some ⟨0x2A, 0xE5, [⟨⟨0, 0, 0xC1, 2⟩, 0x20, 0x60, [1, 2, 3]⟩,
    ⟨⟨0, 0, 0xC2, 6⟩, 0, 0, List.replicate 300 0x5A⟩, ⟨⟨0, 0, 0xC3, 0⟩, 0, 0, []⟩]⟩, none]
  extended := true
  writeProtected := true
  modified := true

theorem ofBytes_toBytes_of_fits_oddSizes : oddSizes.Fits ∧
    ofBytes oddSizes.toBytes =
      .ok { oddSizes with writeProtected := false, modified := false } := by
  have hfits : oddSizes.Fits := by
    refine ⟨rfl, by decide, .inr rfl, rfl, fun t ht => ?_⟩
    rcases List.mem_cons.mp ht with ht | ht
    · rw [Option.some.inj ht]
      refine ⟨by decide, ?_⟩
      simp only [Track.dataLength, List.flatMap_cons, List.flatMap_nil, List.length_append,
        List.length_cons, List.length_nil, List.length_replicate]
      decide
    · cases List.mem_singleton.mp ht
  exact ⟨hfits, ofBytes_toBytes_of_fits hfits⟩

end Disk

end AmstradCpc
