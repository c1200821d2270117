import AmstradCpc.Proofs.Disk.Formatted
import AmstradCpc.Proofs.Disk.Blocks

/-!
# Changes to a disk touch what they are for

A disk has an entry for every cylinder and side, however it was read, made and changed
(`Disk.Reachable.entries`). So a sector that is written and a track that is formatted are the only
ones that change, and where there is no such sector or no such place nothing does
(`Disk.Reachable.updates_local`).
-/

namespace AmstradCpc

namespace Disk

open DiskImage

/-! ## Disks in use -/

/-- A change to a disk. -/
inductive Update
  | write (cylinder side : Nat) (id : SectorId) (data : List UInt8)
  | format (cylinder side : Nat) (ids : List SectorId) (gap3 filler : UInt8)
  | markSaved
  | protect (on : Bool)

/-- The disk after a change, the same disk if the change is refused. -/
def Update.apply (d : Disk) : Update → Disk
  | .write cylinder side id data => (d.writeSector cylinder side id data).getD d
  | .format cylinder side ids gap3 filler => d.formatTrack cylinder side ids gap3 filler
  | .markSaved => d.markSaved
  | .protect on => { d with writeProtected := on }

/-- A disk that was read from an image or made without tracks, after any changes. -/
inductive Reachable : Disk → Prop
  | read {file : List UInt8} {d : Disk} : ofBytes file = .ok d → Reachable d
  | unformatted (cylinders sides : Nat) : Reachable (unformatted cylinders sides)
  | update {d : Disk} (u : Update) : Reachable d → Reachable (u.apply d)

theorem entries_ofBytes {file : List UInt8} {d : Disk} (h : ofBytes file = .ok d) :
    d.tracks.length = d.cylinders * d.sides := by
  obtain ⟨hlong, hsides, extended, tracks, -, htracks, rfl⟩ := ofBytes_eq_ok_iff.mp h
  have hheader : (file.take blockSize).length = blockSize := by
    rw [List.length_take]
    exact Nat.min_eq_left hlong
  exact (readTracks_ok htracks).1.trans (length_trackSizes hheader (places_le hsides _) extended)

theorem entries_write {d : Disk} (h : d.tracks.length = d.cylinders * d.sides) (cylinder side : Nat)
    (id : SectorId) (data : List UInt8) :
    ((d.writeSector cylinder side id data).getD d).tracks.length =
      ((d.writeSector cylinder side id data).getD d).cylinders *
        ((d.writeSector cylinder side id data).getD d).sides := by
  cases hwrite : d.writeSector cylinder side id data with
  | none => exact h
  | some d' =>
    obtain ⟨t, i, -, -, rfl⟩ := writeSector_eq_some_iff.mp hwrite
    exact (List.length_set ..).trans h

/-- There is an entry for every place. -/
theorem Reachable.entries {d : Disk} (h : d.Reachable) :
    d.tracks.length = d.cylinders * d.sides := by
  induction h with
  | read hread => exact entries_ofBytes hread
  | unformatted cylinders sides => exact List.length_replicate
  | @update d u _ ih =>
    cases u with
    | write cylinder side id data => exact entries_write ih ..
    | format cylinder side ids gap3 filler => exact length_formatTrack ih ..
    | markSaved => exact ih
    | protect on => exact ih

/-! ## What changes -/

/-- Sector `i` of the track at a place is the first one there that answers to an identification. -/
structure AnswersAt (d : Disk) (cylinder side : Nat) (id : SectorId) (i : Nat) (s : Sector) :
    Prop where
  sector : d.sector? cylinder side i = some s
  answers : s.id.c = id.c ∧ s.id.h = id.h ∧ s.id.r = id.r
  first : ∀ j < i, ∀ s', d.sector? cylinder side j = some s' →
    ¬(s'.id.c = id.c ∧ s'.id.h = id.h ∧ s'.id.r = id.r)

/-- Data has been written over sector `i` of the track at a place, whose error and deleted marks are
gone, and nothing else is different. -/
structure RewrittenAt (d d' : Disk) (cylinder side i : Nat) (data : List UInt8) : Prop where
  sector : ∀ s, d.sector? cylinder side i = some s → d'.sector? cylinder side i = some {
    id := s.id
    st1 := s.st1 &&& 0xDF
    st2 := s.st2 &&& 0x9F
    data := data.take s.data.length ++ s.data.drop data.length }
  others : ∀ cylinder' side' j, ¬(cylinder' = cylinder ∧ side' = side ∧ j = i) →
    d'.sector? cylinder' side' j = d.sector? cylinder' side' j
  tracks : ∀ cylinder' side',
    (d'.track? cylinder' side').map (fun t => (t.gap3, t.filler, t.sectors.length)) =
      (d.track? cylinder' side').map fun t => (t.gap3, t.filler, t.sectors.length)
  disk : { d' with tracks := d.tracks, modified := d.modified } = d
  modified : d'.modified = true

/-- A track has been laid down at a place, where the disk may have grown, and nothing else is
different. -/
structure FormattedAt (d d' : Disk) (cylinder side : Nat) (ids : List SectorId)
    (gap3 filler : UInt8) : Prop where
  track : ∃ t, d'.track? cylinder side = some t ∧ t.Fresh gap3 filler (ids.take 29)
  others : ∀ cylinder' side', ¬(cylinder' = cylinder ∧ side' = side) →
    d'.track? cylinder' side' = d.track? cylinder' side'
  added : ∀ cylinder' side', d.cylinders ≤ cylinder' → cylinder' < d'.cylinders → side' < d.sides →
    ¬(cylinder' = cylinder ∧ side' = side) → d'.tracks[d'.index cylinder' side']? = some none
  cylinders : d'.cylinders = max d.cylinders (cylinder + 1)
  sides : d'.sides = d.sides
  extended : d'.extended = true
  writeProtected : d'.writeProtected = d.writeProtected
  modified : d'.modified = true

section Track

variable {d : Disk} {cylinder side i : Nat} {t : Track} {id : SectorId}

theorem answersAt_of_findIdx? (ht : d.track? cylinder side = some t)
    (hi : t.findIdx? id.c id.h id.r = some i) {s : Sector} (hs : t.sectors[i]? = some s) :
    d.AnswersAt cylinder side id i s := by
  have hsector (j : Nat) : d.sector? cylinder side j = t.sectors[j]? := by
    unfold sector?
    rw [ht]
    rfl
  obtain ⟨hlt, hanswers, hfirst⟩ := List.findIdx?_eq_some_iff_getElem.mp hi
  obtain rfl : t.sectors[i] = s := Option.some.inj ((List.getElem?_eq_getElem hlt).symm.trans hs)
  refine ⟨(hsector i).trans hs, Sector.answers_iff.mp hanswers, fun j hj s' hs' hid => ?_⟩
  rw [hsector, List.getElem?_eq_getElem (Nat.lt_trans hj hlt)] at hs'
  obtain rfl := Option.some.inj hs'
  exact hfirst j hj (Sector.answers_iff.mpr hid)

theorem rewrittenAt_overwrite (ht : d.track? cylinder side = some t) (data : List UInt8) :
    d.RewrittenAt (d.setTrack cylinder side (t.overwrite i data)) cylinder side i data where
  sector s hs := by
    unfold sector? at hs ⊢
    rw [ht] at hs
    rw [track?_setTrack_self ht]
    show (t.overwrite i data).sectors[i]? = _
    rw [t.sectors_overwrite, show t.sectors[i]? = some s from hs, Option.map_some, if_pos rfl]
    rfl
  others cylinder' side' j hne := by
    refine sector?_setTrack ht fun hplace => t.sectors_overwrite_ne ?_ data
    exact fun hij => hne ⟨hplace.1, hplace.2, hij.symm⟩
  tracks cylinder' side' := by
    by_cases hplace : cylinder' = cylinder ∧ side' = side
    · obtain ⟨rfl, rfl⟩ := hplace
      rw [track?_setTrack_self ht, ht]
      show some (t.gap3, t.filler, (t.sectors.modify i _).length) = _
      rw [List.length_modify]
      rfl
    · rw [track?_setTrack_ne (track?_eq_some_iff.mp ht).1.2 hplace]
  disk := rfl
  modified := rfl

-- The sector still answers first, so its new data is what is found.
theorem readSector_overwrite (ht : d.track? cylinder side = some t)
    (hi : t.findIdx? id.c id.h id.r = some i) {s : Sector} (hs : t.sectors[i]? = some s)
    (data : List UInt8) :
    (d.setTrack cylinder side (t.overwrite i data)).readSector cylinder side id =
      some (data.take s.data.length ++ s.data.drop data.length) := by
  have hfind : (t.overwrite i data).find? id.c id.h id.r = some (s.overwrite data) := by
    rw [Track.find?_eq, Track.findIdx?_overwrite, hi]
    show (t.overwrite i data).sectors[i]? = _
    rw [t.sectors_overwrite, hs, Option.map_some, if_pos rfl]
  exact readSector_eq (track?_setTrack_self ht _) hfind

theorem formattedAt_formatTrack (hentries : d.tracks.length = d.cylinders * d.sides)
    (hcylinder : cylinder < maxCylinders) (hside : side < d.sides) (ids : List SectorId)
    (gap3 filler : UInt8) :
    d.FormattedAt (d.formatTrack cylinder side ids gap3 filler) cylinder side ids gap3 filler where
  track := exists_fresh hentries hcylinder hside ids gap3 filler
  others cylinder' side' hne := by
    rw [formatTrack_eq hcylinder hside, ← track?_growTo hentries cylinder]
    exact track?_setTrack_ne ((d.sides_growTo cylinder).symm ▸ hside) hne _
  added cylinder' side' hnew hcylinder' hside' hne := by
    rw [formatTrack_eq hcylinder hside] at hcylinder' ⊢
    have hindex : d.index cylinder side ≠ d.index cylinder' side' := fun hsame => by
      obtain ⟨rfl, rfl⟩ := index_inj hside hside' hsame
      exact hne ⟨rfl, rfl⟩
    show ((d.growTo cylinder).tracks.set ((d.growTo cylinder).index cylinder side) _)[
      (d.growTo cylinder).index cylinder' side']? = some none
    rw [index_growTo, index_growTo, List.getElem?_set_ne hindex]
    exact tracks_growTo_of_le hentries hnew hcylinder' hside'
  cylinders := by
    rw [formatTrack_eq hcylinder hside]
    exact d.cylinders_growTo cylinder
  sides := by
    rw [formatTrack_eq hcylinder hside]
    exact d.sides_growTo cylinder
  extended := by
    rw [formatTrack_eq hcylinder hside]
  writeProtected := by
    rw [formatTrack_eq hcylinder hside]
    exact d.writeProtected_growTo cylinder
  modified := by
    rw [formatTrack_eq hcylinder hside]
    rfl

end Track

/-- Of a disk in use, writing changes the first sector that answers, which then has the data it is
given as far as that fits, and formatting the track at its place. What cannot be written or formatted
is left alone, and so is the rest of the disk. -/
theorem Reachable.updates_local {d : Disk} (h : d.Reachable) :
    (∀ cylinder side id data,
      (∀ d', d.writeSector cylinder side id data = some d' →
        ∃ i s, d.AnswersAt cylinder side id i s ∧ d.RewrittenAt d' cylinder side i data ∧
          d.readSector cylinder side id = some s.data ∧ d'.readSector cylinder side id =
            some (data.take s.data.length ++ s.data.drop data.length)) ∧
      (d.writeSector cylinder side id data = none →
        (Update.write cylinder side id data).apply d = d ∧
          d.readSector cylinder side id = none)) ∧
    ∀ cylinder side ids gap3 filler,
      (cylinder < 84 ∧ side < d.sides →
        d.FormattedAt (d.formatTrack cylinder side ids gap3 filler) cylinder side ids gap3 filler) ∧
      (¬(cylinder < 84 ∧ side < d.sides) →
        d.formatTrack cylinder side ids gap3 filler = d) := by
  refine ⟨fun cylinder side id data => ⟨fun d' hwrite => ?_, fun hwrite => ?_⟩,
    fun cylinder side ids gap3 filler => ⟨fun hplace => ?_, fun hplace => ?_⟩⟩
  · obtain ⟨t, i, ht, hi, rfl⟩ := writeSector_eq_some_iff.mp hwrite
    obtain ⟨s, hs, hfind, -⟩ := Track.exists_of_findIdx? hi
    exact ⟨i, s, answersAt_of_findIdx? ht hi hs, rewrittenAt_overwrite ht data,
      readSector_eq ht hfind, readSector_overwrite ht hi hs data⟩
  · refine ⟨?_, readSector_eq_none hwrite⟩
    show (d.writeSector cylinder side id data).getD d = d
    rw [hwrite]
    rfl
  · exact formattedAt_formatTrack h.entries hplace.1 hplace.2 ids gap3 filler
  · exact formatTrack_of_outside hplace ids gap3 filler

/-- A disk with one formatted track, on which two sectors answer to the same identification. -/
def twins : Disk :=
  (unformatted 1 2).formatTrack 0 1 [⟨0, 1, 0xC1, 0⟩, ⟨0, 1, 0xC1, 0⟩] 0x4E 0xE5

theorem updates_local_twins :
    twins.Reachable ∧
      (∃ d', twins.writeSector 0 1 ⟨0, 1, 0xC1, 2⟩ [1, 2, 3] = some d' ∧
        d'.readSector 0 1 ⟨0, 1, 0xC1, 2⟩ = some ([1, 2, 3] ++ List.replicate 125 0xE5)) ∧
      twins.FormattedAt (twins.formatTrack 3 0 [] 0x4E 0) 3 0 [] 0x4E 0 := by
  have htwins : twins.Reachable := .update (.format 0 1 _ 0x4E 0xE5) (.unformatted 1 2)
  obtain ⟨hwrite, hformat⟩ := htwins.updates_local
  obtain ⟨d', hd'⟩ := Option.isSome_iff_exists.mp
    (by decide : (twins.writeSector 0 1 ⟨0, 1, 0xC1, 2⟩ [1, 2, 3]).isSome = true)
  obtain ⟨i, s, -, -, hold, hnew⟩ := (hwrite 0 1 ⟨0, 1, 0xC1, 2⟩ [1, 2, 3]).1 d' hd'
  have hdata : s.data = List.replicate 128 0xE5 := Option.some.inj (hold.symm.trans (by decide))
  rw [hdata, List.length_replicate, List.drop_replicate] at hnew
  exact ⟨htwins, ⟨d', hd', hnew⟩, (hformat 3 0 [] 0x4E 0).1 (by decide)⟩

end Disk

end AmstradCpc
