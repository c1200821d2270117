import AmstradCpc.Proofs.Disk.Extended
import AmstradCpc.Proofs.Disk.Overwrite

/-!
# Tracks too large for the table

In an extended image the table has a byte for the size of each track, in units of 256 bytes. The
block of a track with more than 65024 bytes of data is 256 units long or longer, and what is written
into the table is the size modulo 256. Such a track is taken for an unformatted one if nothing is
left of its size; else it is read, to its end, but the tracks behind it are looked for too early.

`Disk.reread_iff` says what that comes to. A disk is read back with the sectors it has just when it
is `Legible`: where the reader looks for each formatted track, by the sizes in the table, there is a
track with the same sectors. That is so if no track is too large (`Disk.reread_of_small`).
-/

namespace AmstradCpc

open DiskImage

namespace DiskImage

/-! ## Sizes in the table -/

theorem sizeOfEntry_none : sizeOfEntry (tableEntry none) = 0 := rfl

theorem sizeOfEntry_some (b : List UInt8) :
    sizeOfEntry (tableEntry (some b)) = b.length / 0x100 % 0x100 * 0x100 := by
  have hentry : (tableEntry (some b)).toNat = b.length / 0x100 % 0x100 := UInt8.toNat_ofNat'
  unfold sizeOfEntry blockSize
  rw [hentry]

/-- The table's size of a block is not larger than the block. -/
theorem sizeOfEntry_le_length (b : List UInt8) :
    sizeOfEntry (tableEntry (some b)) ≤ b.length := by
  rw [sizeOfEntry_some]
  omega

-- The reader is never further on than where the block was written.
theorem sizes_add_length_le {blocks : List (Option (List UInt8))} {i : Nat} {b : List UInt8}
    (h : blocks[i]? = some (some b)) :
    totalSize ((blocks.map fun b => sizeOfEntry (tableEntry b)).take i) + b.length ≤
      (blocks.filterMap id).flatten.length := by
  induction blocks generalizing i with
  | nil => simp at h
  | cons o blocks ih =>
    cases i with
    | zero =>
      obtain rfl : o = some b := by simpa using h
      rw [List.filterMap_cons_some (f := id) rfl, List.flatten_cons, List.length_append,
        List.take_zero, totalSize]
      omega
    | succ i =>
      have hlater := ih (i := i) (by simpa using h)
      rw [List.map_cons, List.take_succ_cons, totalSize]
      cases o with
      | none =>
        rw [List.filterMap_cons_none (f := id) rfl, sizeOfEntry_none]
        omega
      | some b' =>
        have hsize := sizeOfEntry_le_length b'
        rw [List.filterMap_cons_some (f := id) rfl, List.flatten_cons, List.length_append]
        omega

end DiskImage

namespace Disk

/-- An extended image as a disk is formatted and written: any number of tracks of any layout, as far
as each can be described. -/
structure Laid (d : Disk) : Prop where
  extended : d.extended = true
  cylinders : d.cylinders ≤ maxCylinders
  sides : d.sides = 1 ∨ d.sides = 2
  length : d.tracks.length = d.cylinders * d.sides
  sectors : ∀ t, some t ∈ d.tracks → t.sectors.length ≤ maxSectors

/-- The written image is read as a disk with the same sectors on every track. -/
def Rereads (d : Disk) : Prop :=
  ∃ d', ofBytes d.toBytes = .ok d' ∧ d'.cylinders = d.cylinders ∧ d'.sides = d.sides ∧
    ∀ cylinder side,
      (d'.track? cylinder side).map (·.sectors) = (d.track? cylinder side).map (·.sectors)

/-- The blocks of the formatted tracks, one after another. -/
def blockArea (d : Disk) : List UInt8 := ((trackBlocks d).filterMap id).flatten

/-- The sizes of all blocks, from their entries in the table. -/
def tableSizes (d : Disk) : List Nat :=
  (trackBlocks d).map fun b => sizeOfEntry (tableEntry b)

/-- For every formatted track the table has a size, and behind the sizes of the tracks before it
there is a track with the same sectors. -/
def Legible (d : Disk) : Prop :=
  ∀ (i : Nat) (t : Track), d.tracks[i]? = some (some t) →
    d.tableSizes[i]? ≠ some 0 ∧
      ∃ t', readTrack true (d.blockArea.drop (totalSize (d.tableSizes.take i))) = .ok t' ∧
        t'.sectors = t.sectors

section Laid

variable {d : Disk} (h : d.Laid)

include h

theorem Laid.trackBlocks_eq : trackBlocks d =
    d.tracks.mapIdx fun i o => o.map (trackBlock true (i / d.sides) (i % d.sides)) := by
  unfold trackBlocks
  rw [h.extended]

theorem Laid.ofBytes_toBytes : ofBytes d.toBytes =
    (readTracks true d.tableSizes d.blockArea).map fun tracks =>
      { cylinders := d.cylinders, sides := d.sides, tracks, extended := true } := by
  have hmax : d.cylinders ≤ 84 := h.cylinders
  have hlength : ((trackBlocks d).map tableEntry).length = d.cylinders * d.sides := by
    rw [List.length_map, trackBlocks, List.length_mapIdx, h.length]
  have htable : ((trackBlocks d).map tableEntry).length ≤ 204 := by
    rw [hlength]
    rcases h.sides with hs | hs <;> rw [hs] <;> omega
  have hfields : ([0, 0] ++ (trackBlocks d).map tableEntry).length ≤ 206 := by
    rw [List.length_append]
    exact Nat.add_le_add_left htable 2
  rw [toBytes_of_extended h.extended, ofBytes_diskBlock hfields h.cylinders h.sides, h.extended,
    ← hlength, trackSizes_table htable, List.map_map]
  rfl

-- Entry `i` is that of cylinder `i / sides` and side `i % sides`.
theorem Laid.track?_eq {d' : Disk} (hcylinders : d'.cylinders = d.cylinders)
    (hsides : d'.sides = d.sides) {i : Nat} (hi : i < d.tracks.length) :
    d'.track? (i / d.sides) (i % d.sides) = (d'.tracks[i]?).join := by
  have hpos : 0 < d.sides := by
    rcases h.sides with hs | hs <;> omega
  have hcylinder : i / d.sides < d.cylinders := by
    rw [Nat.div_lt_iff_lt_mul hpos, ← h.length]
    exact hi
  have hside : i % d.sides < d.sides := Nat.mod_lt i hpos
  have hplace : i / d.sides * d.sides + i % d.sides = i := Nat.div_add_mod' i d.sides
  unfold track? index
  rw [hcylinders, hsides, if_pos ⟨hcylinder, hside⟩, hplace]

theorem Laid.tableSizes_eq {i : Nat} {o : Option Track} (hi : d.tracks[i]? = some o) :
    d.tableSizes[i]? = some (sizeOfEntry (tableEntry
      (o.map (trackBlock true (i / d.sides) (i % d.sides))))) := by
  unfold tableSizes
  rw [h.trackBlocks_eq, List.getElem?_map, List.getElem?_mapIdx, hi]
  rfl

-- A place is read as the table says, and then as it was written if there is a track.
theorem Laid.legible_of_readTracks {tracks : List (Option Track)}
    (hread : readTracks true d.tableSizes d.blockArea = .ok tracks)
    (hsame : ∀ (i : Nat) (t : Track), d.tracks[i]? = some (some t) →
      ∃ t', tracks[i]? = some (some t') ∧ t'.sectors = t.sectors) : d.Legible := by
  obtain ⟨-, hplaces⟩ := readTracks_ok hread
  intro i t hi
  have hsize := h.tableSizes_eq hi
  obtain ⟨t', ht', hsectors⟩ := hsame i t hi
  obtain ⟨hpos, -, htrack⟩ := readPlace_some.mp (hplaces i _ _ hsize ht')
  refine ⟨fun hzero => ?_, t', htrack, hsectors⟩
  rw [hsize] at hzero
  exact hpos (Option.some.inj hzero)

theorem Laid.readTracks_of_legible (hlegible : d.Legible) :
    ∃ tracks, readTracks true d.tableSizes d.blockArea = .ok tracks ∧
      tracks.length = d.tableSizes.length ∧ ∀ (i : Nat) (o : Option Track), tracks[i]? = some o →
        o.map (·.sectors) = (d.tracks[i]?).join.map (·.sectors) := by
  refine exists_readTracks fun i size hsize => ?_
  have hi : i < d.tracks.length := by
    have hlength := (List.getElem?_eq_some_iff.mp hsize).1
    unfold tableSizes at hlength
    rwa [h.trackBlocks_eq, List.length_map, List.length_mapIdx] at hlength
  have hentry := List.getElem?_eq_getElem hi
  cases hplace : d.tracks[i] with
  | none =>
    rw [hplace] at hentry
    have hentry' := (h.tableSizes_eq hentry).symm.trans hsize
    rw [Option.map_none, sizeOfEntry_none] at hentry'
    have hzero : size = 0 := (Option.some.inj hentry').symm
    refine ⟨none, if_pos (.inl hzero), ?_⟩
    rw [hentry]
    rfl
  | some t =>
    rw [hplace] at hentry
    have hblock : (trackBlocks d)[i]? =
        some (some (trackBlock true (i / d.sides) (i % d.sides) t)) := by
      rw [h.trackBlocks_eq, List.getElem?_mapIdx, hentry]
      rfl
    have hlong := blockSize_le_length true (i / d.sides) (i % d.sides) t
    have hoffset := sizes_add_length_le hblock
    obtain ⟨hsize', t', htrack, hsectors⟩ := hlegible i t hentry
    rw [hsize] at hsize'
    have hrest : blockSize ≤ (d.blockArea.drop (totalSize (d.tableSizes.take i))).length := by
      rw [List.length_drop]
      unfold blockArea tableSizes
      omega
    have hpos : size ≠ 0 := fun hzero => hsize' (congrArg some hzero)
    refine ⟨some t', readPlace_some.mpr ⟨hpos, hrest, htrack⟩, ?_⟩
    rw [hentry]
    exact congrArg some hsectors

end Laid

/-- What is written is read back just when each formatted track is found where the table says. -/
theorem reread_iff {d : Disk} (h : d.Laid) : d.Rereads ↔ d.Legible := by
  unfold Rereads
  rw [h.ofBytes_toBytes]
  constructor
  · rintro ⟨d', hd', hcylinders, hsides, hsame⟩
    cases hread : readTracks true d.tableSizes d.blockArea with
    | error e =>
      rw [hread] at hd'
      cases hd'
    | ok tracks =>
      rw [hread] at hd'
      refine h.legible_of_readTracks hread fun i t hi => ?_
      have hlength := (List.getElem?_eq_some_iff.mp hi).1
      have hplace := hsame (i / d.sides) (i % d.sides)
      have htracks : d'.tracks = tracks := by
        cases hd'
        rfl
      rw [h.track?_eq hcylinders hsides hlength, h.track?_eq rfl rfl hlength, hi, htracks] at hplace
      obtain ⟨t', ht', hsectors⟩ := Option.map_eq_some_iff.mp hplace
      exact ⟨t', Option.join_eq_some_iff.mp ht', hsectors⟩
  · intro hlegible
    obtain ⟨tracks, hread, hlength, hplaces⟩ := h.readTracks_of_legible hlegible
    rw [hread]
    refine ⟨_, rfl, rfl, rfl, fun cylinder side => ?_⟩
    unfold track? index
    dsimp only
    split
    case isFalse => rfl
    case isTrue =>
      have hsizes : d.tableSizes.length = d.tracks.length := by
        unfold tableSizes
        rw [h.trackBlocks_eq, List.length_map, List.length_mapIdx]
      cases hi : tracks[cylinder * d.sides + side]? with
      | some o => exact hplaces _ o hi
      | none =>
        have hend := List.getElem?_eq_none_iff.mp hi
        rw [List.getElem?_eq_none (by omega : d.tracks.length ≤ cylinder * d.sides + side)]

/-- A disk with no more than 65024 bytes on a track is read back as it was written. -/
theorem reread_of_small {d : Disk} (h : d.Laid)
    (hsmall : ∀ t, some t ∈ d.tracks → t.dataLength ≤ 254 * 0x100) : d.Rereads := by
  have hfits (t : Track) (ht : some t ∈ d.tracks) : t.Fits := ⟨h.sectors t ht, hsmall t ht⟩
  have hread : readTracks true d.tableSizes d.blockArea = .ok d.tracks := by
    have htracks := readTracks_blocks hfits (· / d.sides) (· % d.sides)
    unfold tableSizes blockArea
    rw [h.trackBlocks_eq]
    exact htracks
  unfold Rereads
  rw [h.ofBytes_toBytes, hread]
  exact ⟨_, rfl, rfl, rfl, fun _ _ => rfl⟩

/-- A track is lost if its block is a multiple of 256 units long. -/
theorem not_legible_of_size {d : Disk} (h : d.Laid) {t : Track} (ht : some t ∈ d.tracks)
    (hsize : ((t.dataLength + 0xFF) / 0x100 + 1) % 0x100 = 0) : ¬ d.Legible := by
  intro hlegible
  obtain ⟨i, hi, hentry⟩ := List.getElem_of_mem ht
  have hplace : d.tracks[i]? = some (some t) := by rw [List.getElem?_eq_getElem hi, hentry]
  have hnonzero := (hlegible i t hplace).1
  rw [h.tableSizes_eq hplace, Option.map_some, sizeOfEntry_some,
    length_trackBlock (h.sectors t ht), Nat.mul_div_cancel _ (by decide), hsize] at hnonzero
  exact hnonzero rfl

end Disk

end AmstradCpc
