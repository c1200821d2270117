import AmstradCpc.Proofs.Disk.CheckedWriting
import AmstradCpc.Proofs.Disk.Formatted

/-!
# Places of a disk with every look-up checked

What is asked of a disk by cylinder, side and identification is looked up in two lists, that of the
tracks and that of a track's sectors. The operations of this module have no answer when such a
look-up is out of range. They agree with those of `Disk` if there is an entry for every place
(`Disk.Bounded.inRange`).
-/

namespace AmstradCpc

def Sector.overwrite? (s : Sector) (data : List UInt8) : Option Sector := do
  let len := min data.length s.data.length
  let data ← copy? s.data 0 len (← slice? data 0 len)
  return { s with st1 := s.st1 &&& ~~~0x20, st2 := s.st2 &&& ~~~0x60, data }

theorem Sector.overwrite?_eq (s : Sector) (data : List UInt8) :
    s.overwrite? data = some (s.overwrite data) := by
  have hslice := slice?_eq (Nat.zero_le _) (Nat.min_le_left data.length s.data.length)
  have hpart : ((data.take (min data.length s.data.length)).drop 0).length =
      min data.length s.data.length := by
    rw [List.drop_zero, List.length_take]
    omega
  have hcopy := copy?_eq (Nat.min_le_right data.length s.data.length)
    (show 0 + _ = _ from (Nat.zero_add _).trans hpart)
  have htake : data.take (min data.length s.data.length) = data.take s.data.length := by
    rw [Nat.min_comm, ← List.take_eq_take_min]
  have hdrop : s.data.drop (min data.length s.data.length) = s.data.drop data.length :=
    List.drop_eq_drop_min.symm
  unfold overwrite?
  dsimp only
  rw [hslice, Option.bind_eq_bind, Option.bind_some, hcopy, List.take_zero, List.nil_append,
    List.drop_zero, htake, hdrop]
  rfl

namespace Disk

/-- The track at a place, where the disk has one. -/
def trackAt? (d : Disk) (cylinder side : Nat) : Option (Option Track) :=
  if cylinder < d.cylinders ∧ side < d.sides then d.tracks[d.index cylinder side]? else some none

def readSector? (d : Disk) (cylinder side : Nat) (id : SectorId) :
    Option (Option (List UInt8)) := do
  match ← d.trackAt? cylinder side with
  | none => return none
  | some t =>
    match t.findIdx? id.c id.h id.r with
    | none => return none
    | some i => return some (← t.sectors[i]?).data

def writeSector? (d : Disk) (cylinder side : Nat) (id : SectorId) (data : List UInt8) :
    Option (Option Disk) := do
  match ← d.trackAt? cylinder side with
  | none => return none
  | some t =>
    match t.findIdx? id.c id.h id.r with
    | none => return none
    | some i =>
      let sectors ← store? t.sectors i (← (← t.sectors[i]?).overwrite? data)
      let tracks ← store? d.tracks (d.index cylinder side) (some { t with sectors })
      return some { d with tracks, modified := true }

def formatTrack? (d : Disk) (cylinder side : Nat) (ids : List SectorId) (gap3 filler : UInt8) :
    Option Disk :=
  if cylinder < maxCylinders ∧ side < d.sides then do
    let d := d.growTo cylinder
    let sectors := (ids.take maxSectors).map (freshSector filler)
    let tracks ← store? d.tracks (d.index cylinder side) (some { gap3, filler, sectors })
    return { d with tracks, extended := true, modified := true }
  else return d

section Entries

variable {d : Disk} (hentries : d.tracks.length = d.cylinders * d.sides)

include hentries

theorem trackAt?_eq (cylinder side : Nat) :
    d.trackAt? cylinder side = some (d.track? cylinder side) := by
  unfold trackAt? track?
  split
  case isTrue h =>
    have hindex := index_lt h.1 h.2
    rw [← hentries] at hindex
    rw [List.getElem?_eq_getElem hindex]
    rfl
  case isFalse => rfl

-- An index that was found is one of the track's.
theorem readSector?_eq (cylinder side : Nat) (id : SectorId) :
    d.readSector? cylinder side id = some (d.readSector cylinder side id) := by
  unfold readSector? readSector
  rw [trackAt?_eq hentries]
  cases d.track? cylinder side with
  | none => rfl
  | some t =>
    dsimp only [bind, Option.bind]
    cases hi : t.findIdx? id.c id.h id.r with
    | none =>
      rw [Track.find?_of_findIdx?_eq_none hi]
      rfl
    | some i =>
      obtain ⟨s, hs, hfind, -⟩ := Track.exists_of_findIdx? hi
      rw [hfind]
      dsimp only
      rw [hs]
      rfl

theorem writeSector?_eq (cylinder side : Nat) (id : SectorId) (data : List UInt8) :
    d.writeSector? cylinder side id data = some (d.writeSector cylinder side id data) := by
  unfold writeSector? writeSector
  rw [trackAt?_eq hentries]
  cases ht : d.track? cylinder side with
  | none => rfl
  | some t =>
    dsimp only [bind, Option.bind]
    cases hi : t.findIdx? id.c id.h id.r with
    | none => rfl
    | some i =>
      obtain ⟨s, hs, -, -⟩ := Track.exists_of_findIdx? hi
      obtain ⟨hplace, -⟩ := track?_eq_some_iff.mp ht
      have hindex := index_lt hplace.1 hplace.2
      rw [← hentries] at hindex
      have hsector : i < t.sectors.length := (List.getElem?_eq_some_iff.mp hs).1
      have hmodify : t.sectors.modify i (·.overwrite data) =
          t.sectors.set i (s.overwrite data) := by
        rw [List.modify_eq_set, hs]
        rfl
      dsimp only
      rw [hs]
      dsimp only
      rw [Sector.overwrite?_eq]
      dsimp only
      rw [store?_eq hsector]
      dsimp only
      rw [store?_eq hindex, hmodify]
      rfl

theorem formatTrack?_eq (cylinder side : Nat) (ids : List SectorId) (gap3 filler : UInt8) :
    d.formatTrack? cylinder side ids gap3 filler =
      some (d.formatTrack cylinder side ids gap3 filler) := by
  unfold formatTrack? formatTrack
  split
  case isTrue h =>
    have hindex := index_lt (d.lt_cylinders_growTo cylinder)
      ((d.sides_growTo cylinder).symm ▸ h.2 : side < (d.growTo cylinder).sides)
    rw [sides_growTo, ← length_growTo hentries] at hindex
    dsimp only
    rw [store?_eq hindex]
    rfl
  case isFalse => rfl

end Entries

/-- Every look-up in the lists of a disk and in the image it is written as is in range. -/
structure InRange (d : Disk) : Prop where
  track : ∀ cylinder side, d.trackAt? cylinder side = some (d.track? cylinder side)
  readSector : ∀ cylinder side id,
    d.readSector? cylinder side id = some (d.readSector cylinder side id)
  writeSector : ∀ cylinder side id data,
    d.writeSector? cylinder side id data = some (d.writeSector cylinder side id data)
  formatTrack : ∀ cylinder side ids gap3 filler,
    d.formatTrack? cylinder side ids gap3 filler =
      some (d.formatTrack cylinder side ids gap3 filler)
  toBytes : d.toBytes? = some d.toBytes

theorem Bounded.inRange {d : Disk} (h : d.Bounded) : d.InRange where
  track := trackAt?_eq h.length
  readSector := readSector?_eq h.length
  writeSector := writeSector?_eq h.length
  formatTrack := formatTrack?_eq h.length
  toBytes := h.toBytes?_eq

end Disk

end AmstradCpc
