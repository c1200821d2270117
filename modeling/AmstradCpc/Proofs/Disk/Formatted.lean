import AmstradCpc.Proofs.Disk.Overwrite

/-!
# Formatted tracks

Formatting lays down a fresh track where a disk can have one, and the disk grows for it if it has to.
-/

namespace AmstradCpc

/-- The track holds these sectors in order, without errors, each filled over the size of its own
size code. -/
structure Track.Fresh (t : Track) (gap3 filler : UInt8) (ids : List SectorId) : Prop where
  gap3_eq : t.gap3 = gap3
  filler_eq : t.filler = filler
  ids_eq : t.sectors.map (·.id) = ids
  sectors : ∀ s ∈ t.sectors,
    s.st1 = 0 ∧ s.st2 = 0 ∧ s.data = List.replicate (sectorSize s.id.n) filler

theorem Track.fresh_formatted (gap3 filler : UInt8) (ids : List SectorId) :
    Track.Fresh ⟨gap3, filler, ids.map (Disk.freshSector filler)⟩ gap3 filler ids where
  gap3_eq := rfl
  filler_eq := rfl
  ids_eq := by
    show (ids.map (Disk.freshSector filler)).map (·.id) = ids
    rw [List.map_map]
    exact List.map_id ids
  sectors s hs := by
    obtain ⟨id, -, rfl⟩ := List.mem_map.mp hs
    exact ⟨rfl, rfl, rfl⟩

namespace Disk

section Format

variable {d : Disk} {cylinder side : Nat}

theorem cylinders_growTo (d : Disk) (cylinder : Nat) :
    (d.growTo cylinder).cylinders = max d.cylinders (cylinder + 1) := by
  unfold growTo
  split
  case isTrue h => exact (Nat.max_eq_left h).symm
  case isFalse h => exact (Nat.max_eq_right (by omega : d.cylinders ≤ cylinder + 1)).symm

theorem lt_cylinders_growTo (d : Disk) (cylinder : Nat) :
    cylinder < (d.growTo cylinder).cylinders := by
  rw [cylinders_growTo]
  exact Nat.le_max_right ..

theorem sides_growTo (d : Disk) (cylinder : Nat) : (d.growTo cylinder).sides = d.sides := by
  unfold growTo
  split <;> rfl

theorem writeProtected_growTo (d : Disk) (cylinder : Nat) :
    (d.growTo cylinder).writeProtected = d.writeProtected := by
  unfold growTo
  split <;> rfl

-- A disk that grows gets an entry for every new place.
theorem length_growTo (hentries : d.tracks.length = d.cylinders * d.sides) (cylinder : Nat) :
    (d.growTo cylinder).tracks.length = (d.growTo cylinder).cylinders * d.sides := by
  unfold growTo
  split
  case isTrue => exact hentries
  case isFalse h =>
    have hmore : d.cylinders * d.sides ≤ (cylinder + 1) * d.sides :=
      Nat.mul_le_mul_right d.sides (by omega)
    show (d.tracks ++ List.replicate ((cylinder + 1) * d.sides - d.tracks.length) none).length =
      (cylinder + 1) * d.sides
    rw [List.length_append, List.length_replicate]
    omega

-- An entry that is not there stands for an unformatted track as well.
theorem join_tracks_growTo (d : Disk) (cylinder i : Nat) :
    ((d.growTo cylinder).tracks[i]?).join = (d.tracks[i]?).join := by
  unfold growTo
  split
  case isTrue => rfl
  case isFalse =>
    show ((d.tracks ++ List.replicate _ none)[i]?).join = _
    rw [List.getElem?_append, List.getElem?_replicate]
    split
    case isTrue => rfl
    case isFalse h =>
      rw [List.getElem?_eq_none (Nat.not_lt.mp h)]
      split <;> rfl

theorem index_growTo (d : Disk) (cylinder cylinder' side' : Nat) :
    (d.growTo cylinder).index cylinder' side' = d.index cylinder' side' := by
  unfold index
  rw [sides_growTo]

section Entries

variable (hentries : d.tracks.length = d.cylinders * d.sides)

include hentries

-- Tracks are stored by cylinders, so none stands behind the last one.
theorem tracks_of_le {cylinder' side' : Nat} (h : d.cylinders ≤ cylinder') :
    d.tracks[d.index cylinder' side']? = none := by
  have hlast : d.cylinders * d.sides ≤ cylinder' * d.sides := Nat.mul_le_mul_right _ h
  refine List.getElem?_eq_none ?_
  show d.tracks.length ≤ cylinder' * d.sides + side'
  omega

theorem track?_growTo (cylinder cylinder' side' : Nat) :
    (d.growTo cylinder).track? cylinder' side' = d.track? cylinder' side' := by
  unfold track?
  rw [join_tracks_growTo, index_growTo, cylinders_growTo, sides_growTo]
  by_cases hcylinder : cylinder' < d.cylinders
  · have hgrown : cylinder' < max d.cylinders (cylinder + 1) := by omega
    simp only [hcylinder, hgrown, true_and]
  · rw [tracks_of_le hentries (Nat.not_lt.mp hcylinder), Option.join_none, ite_self, ite_self]

/-- The entries of new places are those of unformatted tracks. -/
theorem tracks_growTo_of_le {cylinder cylinder' side' : Nat} (hnew : d.cylinders ≤ cylinder')
    (hcylinder : cylinder' < (d.growTo cylinder).cylinders) (hside : side' < d.sides) :
    (d.growTo cylinder).tracks[d.index cylinder' side']? = some none := by
  have hjoin := d.join_tracks_growTo cylinder (d.index cylinder' side')
  have hindex := index_lt hcylinder ((d.sides_growTo cylinder).symm ▸ hside)
  rw [index_growTo, sides_growTo, ← length_growTo hentries] at hindex
  rw [tracks_of_le hentries hnew, List.getElem?_eq_getElem hindex] at hjoin
  rw [List.getElem?_eq_getElem hindex]
  exact congrArg some hjoin

end Entries

theorem formatTrack_eq (hcylinder : cylinder < maxCylinders) (hside : side < d.sides)
    (ids : List SectorId) (gap3 filler : UInt8) :
    d.formatTrack cylinder side ids gap3 filler =
      { (d.growTo cylinder).setTrack cylinder side
          ⟨gap3, filler, (ids.take maxSectors).map (freshSector filler)⟩ with extended := true } :=
  if_pos ⟨hcylinder, hside⟩

theorem formatTrack_of_outside (h : ¬(cylinder < maxCylinders ∧ side < d.sides))
    (ids : List SectorId) (gap3 filler : UInt8) :
    d.formatTrack cylinder side ids gap3 filler = d :=
  if_neg h

theorem length_formatTrack (hentries : d.tracks.length = d.cylinders * d.sides)
    (cylinder side : Nat) (ids : List SectorId) (gap3 filler : UInt8) :
    (d.formatTrack cylinder side ids gap3 filler).tracks.length =
      (d.formatTrack cylinder side ids gap3 filler).cylinders *
        (d.formatTrack cylinder side ids gap3 filler).sides := by
  by_cases h : cylinder < maxCylinders ∧ side < d.sides
  · rw [formatTrack_eq h.1 h.2]
    show (List.set ..).length = (d.growTo cylinder).cylinders * (d.growTo cylinder).sides
    rw [List.length_set, sides_growTo]
    exact length_growTo hentries cylinder
  · rw [formatTrack_of_outside h]
    exact hentries

theorem exists_fresh (hentries : d.tracks.length = d.cylinders * d.sides)
    (hcylinder : cylinder < maxCylinders) (hside : side < d.sides) (ids : List SectorId)
    (gap3 filler : UInt8) :
    ∃ t, (d.formatTrack cylinder side ids gap3 filler).track? cylinder side = some t ∧
      t.Fresh gap3 filler (ids.take maxSectors) := by
  have hgrown := d.lt_cylinders_growTo cylinder
  have hside' : side < (d.growTo cylinder).sides := (d.sides_growTo cylinder).symm ▸ hside
  have hindex := index_lt hgrown hside'
  rw [d.sides_growTo, ← length_growTo hentries] at hindex
  refine ⟨_, ?_, Track.fresh_formatted gap3 filler (ids.take maxSectors)⟩
  rw [formatTrack_eq hcylinder hside]
  exact track?_eq_some_iff.mpr ⟨⟨hgrown, hside'⟩, List.getElem?_set_self hindex⟩

end Format

end Disk

end AmstradCpc
