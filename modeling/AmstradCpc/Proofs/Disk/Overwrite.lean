import AmstradCpc.Disk

/-!
# Overwritten sectors

Overwriting a sector keeps its identification and its length, so every sector is still found where
it was (`Track.findIdx?_overwrite`), and no other sector changes (`Track.sectors_overwrite_ne`).
-/

namespace AmstradCpc

namespace Sector

theorem answers_iff {s : Sector} {c h r : UInt8} :
    s.answers c h r = true ↔ s.id.c = c ∧ s.id.h = h ∧ s.id.r = r := by
  unfold answers
  rw [Bool.and_eq_true, Bool.and_eq_true, beq_iff_eq, beq_iff_eq, beq_iff_eq, and_assoc]

theorem length_overwrite (s : Sector) (data : List UInt8) :
    (s.overwrite data).data.length = s.data.length := by
  show (data.take s.data.length ++ s.data.drop data.length).length = s.data.length
  rw [List.length_append, List.length_take, List.length_drop]
  omega

theorem data_overwrite {s : Sector} {data : List UInt8} (h : data.length = s.data.length) :
    (s.overwrite data).data = data := by
  show data.take s.data.length ++ s.data.drop data.length = data
  rw [h, List.drop_length, List.append_nil, ← h, List.take_length]

theorem isDeleted_overwrite (s : Sector) (data : List UInt8) :
    (s.overwrite data).isDeleted = false := by
  show ((s.st2 &&& ~~~0x60) &&& 0x40 != 0) = false
  rw [UInt8.and_assoc, show (~~~0x60 &&& 0x40 : UInt8) = 0 by decide, UInt8.and_zero]
  rfl

theorem hasDataError_overwrite (s : Sector) (data : List UInt8) :
    (s.overwrite data).hasDataError = false := by
  show ((s.st1 &&& ~~~0x20) &&& 0x20 != 0 || (s.st2 &&& ~~~0x60) &&& 0x20 != 0) = false
  rw [UInt8.and_assoc, UInt8.and_assoc, show (~~~0x20 &&& 0x20 : UInt8) = 0 by decide,
    show (~~~0x60 &&& 0x20 : UInt8) = 0 by decide, UInt8.and_zero, UInt8.and_zero]
  rfl

end Sector

namespace Track

/-! ## One sector -/

section Find

variable {t : Track} {c h r : UInt8}

theorem find?_eq (t : Track) (c h r : UInt8) :
    t.find? c h r = (t.findIdx? c h r).bind (t.sectors[·]?) :=
  List.find?_eq_bind_findIdx?_getElem?

theorem find?_of_findIdx?_eq_none (hnone : t.findIdx? c h r = none) : t.find? c h r = none := by
  rw [find?_eq, hnone]
  rfl

theorem exists_of_findIdx? {i : Nat} (hi : t.findIdx? c h r = some i) :
    ∃ s, t.sectors[i]? = some s ∧ t.find? c h r = some s ∧ s.answers c h r = true := by
  obtain ⟨hlt, hanswers, -⟩ := List.findIdx?_eq_some_iff_getElem.mp hi
  refine ⟨t.sectors[i], List.getElem?_eq_getElem hlt, ?_, hanswers⟩
  rw [find?_eq, hi]
  exact List.getElem?_eq_getElem hlt

end Find

/-- The track with the sector at an index overwritten. -/
def overwrite (t : Track) (i : Nat) (data : List UInt8) : Track :=
  { t with sectors := t.sectors.modify i (·.overwrite data) }

/-- The data of the sector at an index. -/
def sectorData (t : Track) (i : Nat) : List UInt8 := ((t.sectors[i]?).map (·.data)).getD []

/-- The sector at an index carries a plain mark and no data error. -/
def Plain (t : Track) (i : Nat) : Prop :=
  ∀ s, t.sectors[i]? = some s → s.isDeleted = false ∧ s.hasDataError = false

theorem sectorData_of_getElem? {t : Track} {i : Nat} {s : Sector} (h : t.sectors[i]? = some s) :
    t.sectorData i = s.data := by
  unfold sectorData
  rw [h]
  rfl

theorem sectorData_congr {t t' : Track} {i : Nat} (h : t'.sectors[i]? = t.sectors[i]?) :
    t'.sectorData i = t.sectorData i := by
  unfold sectorData
  rw [h]

theorem sectors_overwrite (t : Track) (i j : Nat) (data : List UInt8) :
    (t.overwrite i data).sectors[j]? =
      (t.sectors[j]?).map fun s => if i = j then s.overwrite data else s :=
  List.getElem?_modify _ i t.sectors j

theorem sectors_overwrite_ne (t : Track) {i j : Nat} (h : i ≠ j) (data : List UInt8) :
    (t.overwrite i data).sectors[j]? = t.sectors[j]? :=
  List.getElem?_modify_ne _ t.sectors h

theorem length_sectorData_overwrite (t : Track) (i j : Nat) (data : List UInt8) :
    ((t.overwrite i data).sectorData j).length = (t.sectorData j).length := by
  unfold sectorData
  rw [sectors_overwrite]
  cases t.sectors[j]? with
  | none => rfl
  | some s =>
    show (if i = j then s.overwrite data else s).data.length = s.data.length
    split
    · exact s.length_overwrite data
    · rfl

theorem sectorData_overwrite_self {t : Track} {i : Nat} {data : List UInt8}
    (h : data.length = (t.sectorData i).length) : (t.overwrite i data).sectorData i = data := by
  unfold sectorData at *
  rw [sectors_overwrite]
  cases hs : t.sectors[i]? with
  | none =>
    rw [hs] at h
    exact (List.eq_nil_of_length_eq_zero h).symm
  | some s =>
    rw [hs] at h
    show (if i = i then s.overwrite data else s).data = data
    rw [if_pos rfl, Sector.data_overwrite h]

theorem plain_overwrite_self (t : Track) (i : Nat) (data : List UInt8) :
    (t.overwrite i data).Plain i := by
  intro s hs
  rw [sectors_overwrite, Option.map_eq_some_iff] at hs
  obtain ⟨old, -, rfl⟩ := hs
  rw [if_pos rfl]
  exact ⟨old.isDeleted_overwrite data, old.hasDataError_overwrite data⟩

theorem plain_overwrite {t : Track} {j : Nat} (h : t.Plain j) (i : Nat) (data : List UInt8) :
    (t.overwrite i data).Plain j := by
  by_cases hij : i = j
  · exact hij ▸ t.plain_overwrite_self i data
  · intro s hs
    exact h s ((t.sectors_overwrite_ne hij data).symm.trans hs)

theorem ids_overwrite (t : Track) (i : Nat) (data : List UInt8) :
    (t.overwrite i data).sectors.map (·.id) = t.sectors.map (·.id) := by
  refine List.ext_getElem? fun j => ?_
  rw [List.getElem?_map, List.getElem?_map, sectors_overwrite, Option.map_map]
  congr 1
  funext s
  show (if i = j then s.overwrite data else s).id = s.id
  split <;> rfl

theorem findIdx?_eq (t : Track) (c h r : UInt8) :
    t.findIdx? c h r =
      (t.sectors.map (·.id)).findIdx? fun id => id.c == c && id.h == h && id.r == r := by
  rw [List.findIdx?_map]
  rfl

theorem findIdx?_overwrite (t : Track) (i : Nat) (data : List UInt8) (c h r : UInt8) :
    (t.overwrite i data).findIdx? c h r = t.findIdx? c h r := by
  rw [findIdx?_eq, ids_overwrite, ← findIdx?_eq]

/-! ## Some sectors -/

/-- The track with bytes written over the sectors at some indices, one after another. -/
def overwriteAll (t : Track) : List Nat → List UInt8 → Track
  | [], _ => t
  | i :: is, bytes =>
    (t.overwrite i (bytes.take (t.sectorData i).length)).overwriteAll is
      (bytes.drop (t.sectorData i).length)

/-- Bytes that the sectors at some indices hold. -/
def totalLength (t : Track) (is : List Nat) : Nat := (is.flatMap t.sectorData).length

theorem totalLength_cons (t : Track) (i : Nat) (is : List Nat) :
    t.totalLength (i :: is) = (t.sectorData i).length + t.totalLength is := by
  unfold totalLength
  rw [List.flatMap_cons, List.length_append]

theorem totalLength_overwrite (t : Track) (i : Nat) (data : List UInt8) (is : List Nat) :
    (t.overwrite i data).totalLength is = t.totalLength is := by
  induction is with
  | nil => rfl
  | cons j is ih => rw [totalLength_cons, totalLength_cons, ih, length_sectorData_overwrite]

theorem findIdx?_overwriteAll (t : Track) (is : List Nat) (bytes : List UInt8) (c h r : UInt8) :
    (t.overwriteAll is bytes).findIdx? c h r = t.findIdx? c h r := by
  induction is generalizing t bytes with
  | nil => rfl
  | cons i is ih => rw [overwriteAll, ih, findIdx?_overwrite]

theorem sectors_overwriteAll_of_not_mem {is : List Nat} {j : Nat} (h : j ∉ is) (t : Track)
    (bytes : List UInt8) : (t.overwriteAll is bytes).sectors[j]? = t.sectors[j]? := by
  induction is generalizing t bytes with
  | nil => rfl
  | cons i is ih =>
    have hi : i ≠ j := Ne.symm (List.ne_of_not_mem_cons h)
    rw [overwriteAll, ih (List.not_mem_of_not_mem_cons h), sectors_overwrite_ne _ hi]

theorem plain_overwriteAll {is : List Nat} {j : Nat} (t : Track) (h : t.Plain j ∨ j ∈ is)
    (bytes : List UInt8) : (t.overwriteAll is bytes).Plain j := by
  induction is generalizing t bytes with
  | nil => exact h.resolve_right List.not_mem_nil
  | cons i is ih =>
    refine ih _ ?_ _
    rcases h with h | h
    · exact .inl (plain_overwrite h i _)
    · rcases List.mem_cons.mp h with rfl | h
      · exact .inl (t.plain_overwrite_self j _)
      · exact .inr h

-- No sector comes twice, so none is overwritten again.
theorem flatMap_sectorData_overwriteAll {is : List Nat} (his : is.Nodup) (t : Track)
    {bytes : List UInt8} (hbytes : bytes.length = t.totalLength is) :
    is.flatMap (t.overwriteAll is bytes).sectorData = bytes := by
  induction is generalizing t bytes with
  | nil => exact (List.eq_nil_of_length_eq_zero hbytes).symm
  | cons i is ih =>
    obtain ⟨hi, his⟩ := List.nodup_cons.mp his
    rw [totalLength_cons] at hbytes
    have hfirst : (bytes.take (t.sectorData i).length).length = (t.sectorData i).length := by
      rw [List.length_take]
      omega
    have hrest : (bytes.drop (t.sectorData i).length).length = t.totalLength is := by
      rw [List.length_drop]
      omega
    rw [List.flatMap_cons, overwriteAll, ih his _ (by rw [totalLength_overwrite, hrest]),
      sectorData_congr (sectors_overwriteAll_of_not_mem hi _ _), sectorData_overwrite_self hfirst,
      List.take_append_drop]

end Track

/-! ## The track at a place -/

namespace Disk

/-- The disk with another track at a place. -/
def setTrack (d : Disk) (cylinder side : Nat) (t : Track) : Disk :=
  { d with tracks := d.tracks.set (d.index cylinder side) (some t), modified := true }

/-- The sector at an index of the track at a place. -/
def sector? (d : Disk) (cylinder side i : Nat) : Option Sector :=
  (d.track? cylinder side).bind (·.sectors[i]?)

section Place

variable {d : Disk} {cylinder side : Nat} {t : Track}

theorem track?_eq_some_iff :
    d.track? cylinder side = some t ↔
      (cylinder < d.cylinders ∧ side < d.sides) ∧
        d.tracks[d.index cylinder side]? = some (some t) := by
  unfold track?
  split
  · rename_i h
    rw [Option.join_eq_some_iff]
    exact ⟨fun ht => ⟨h, ht⟩, And.right⟩
  · rename_i h
    exact ⟨fun ht => absurd ht (Option.some_ne_none t).symm, fun ht => absurd ht.1 h⟩

theorem setTrack_setTrack (d : Disk) (cylinder side : Nat) (t t' : Track) :
    (d.setTrack cylinder side t).setTrack cylinder side t' = d.setTrack cylinder side t' := by
  unfold setTrack
  dsimp only [index]
  rw [List.set_set]

theorem track?_setTrack_self (h : d.track? cylinder side = some t) (t' : Track) :
    (d.setTrack cylinder side t').track? cylinder side = some t' := by
  obtain ⟨hplace, htrack⟩ := track?_eq_some_iff.mp h
  refine track?_eq_some_iff.mpr ⟨hplace, ?_⟩
  show (d.tracks.set (d.index cylinder side) (some t'))[d.index cylinder side]? = some (some t')
  rw [List.getElem?_set_self (List.getElem?_eq_some_iff.mp htrack).1]

theorem index_lt (hcylinder : cylinder < d.cylinders) (hside : side < d.sides) :
    d.index cylinder side < d.cylinders * d.sides := by
  have hnext : (cylinder + 1) * d.sides ≤ d.cylinders * d.sides :=
    Nat.mul_le_mul_right d.sides hcylinder
  rw [Nat.add_one_mul] at hnext
  show cylinder * d.sides + side < d.cylinders * d.sides
  omega

theorem index_inj {cylinder' side' : Nat} (hside : side < d.sides) (hside' : side' < d.sides)
    (h : d.index cylinder side = d.index cylinder' side') :
    cylinder = cylinder' ∧ side = side' := by
  unfold index at h
  have hpos : 0 < d.sides := by omega
  have hdiv : ∀ a b, b < d.sides → (a * d.sides + b) / d.sides = a := fun a b hb => by
    rw [Nat.mul_comm, Nat.mul_add_div hpos, Nat.div_eq_of_lt hb, Nat.add_zero]
  have hcylinder : cylinder = cylinder' := by
    rw [← hdiv cylinder side hside, h, hdiv cylinder' side' hside']
  subst hcylinder
  exact ⟨rfl, Nat.add_left_cancel h⟩

theorem track?_setTrack_ne {cylinder' side' : Nat} (hside : side < d.sides)
    (h : ¬(cylinder' = cylinder ∧ side' = side)) (t' : Track) :
    (d.setTrack cylinder side t').track? cylinder' side' = d.track? cylinder' side' := by
  show (if cylinder' < d.cylinders ∧ side' < d.sides then
      ((d.tracks.set (d.index cylinder side) (some t'))[d.index cylinder' side']?).join
    else none) = _
  unfold track?
  split
  · rename_i hplace
    have hne : d.index cylinder side ≠ d.index cylinder' side' := fun hindex =>
      h (index_inj hplace.2 hside hindex.symm)
    rw [List.getElem?_set_ne hne]
  · rfl

/-- A sector is the same behind a change of its track if it is so on the two tracks, and on every other
track. -/
theorem sector?_setTrack (h : d.track? cylinder side = some t) {t' : Track}
    {cylinder' side' j : Nat}
    (hsame : cylinder' = cylinder ∧ side' = side → t'.sectors[j]? = t.sectors[j]?) :
    (d.setTrack cylinder side t').sector? cylinder' side' j = d.sector? cylinder' side' j := by
  unfold sector?
  by_cases hplace : cylinder' = cylinder ∧ side' = side
  · obtain ⟨rfl, rfl⟩ := hplace
    rw [track?_setTrack_self h, h]
    exact hsame ⟨rfl, rfl⟩
  · rw [track?_setTrack_ne (track?_eq_some_iff.mp h).1.2 hplace]

theorem readSector_eq (h : d.track? cylinder side = some t) {id : SectorId} {s : Sector}
    (hs : t.find? id.c id.h id.r = some s) : d.readSector cylinder side id = some s.data := by
  unfold readSector
  rw [h]
  show (t.find? id.c id.h id.r).bind _ = _
  rw [hs]
  rfl

theorem writeSector_eq (h : d.track? cylinder side = some t) {id : SectorId} {i : Nat}
    (hi : t.findIdx? id.c id.h id.r = some i) (data : List UInt8) :
    d.writeSector cylinder side id data = some (d.setTrack cylinder side (t.overwrite i data)) := by
  unfold writeSector
  rw [h]
  show (t.findIdx? id.c id.h id.r).bind _ = _
  rw [hi]
  rfl

theorem writeSector_eq_some_iff {d' : Disk} {id : SectorId} {data : List UInt8} :
    d.writeSector cylinder side id data = some d' ↔
      ∃ t i, d.track? cylinder side = some t ∧ t.findIdx? id.c id.h id.r = some i ∧
        d' = d.setTrack cylinder side (t.overwrite i data) := by
  constructor
  · intro hwrite
    have hsome := hwrite
    unfold writeSector at hwrite
    obtain ⟨t, ht, hwrite⟩ := Option.bind_eq_some_iff.mp hwrite
    obtain ⟨i, hi, -⟩ := Option.bind_eq_some_iff.mp hwrite
    rw [writeSector_eq ht hi] at hsome
    exact ⟨t, i, ht, hi, (Option.some.inj hsome).symm⟩
  · rintro ⟨t, i, ht, hi, rfl⟩
    exact writeSector_eq ht hi data

/-- What cannot be read cannot be written. -/
theorem readSector_eq_none {id : SectorId} {data : List UInt8}
    (h : d.writeSector cylinder side id data = none) : d.readSector cylinder side id = none := by
  cases ht : d.track? cylinder side with
  | none =>
    unfold readSector
    rw [ht]
    rfl
  | some t =>
    cases hi : t.findIdx? id.c id.h id.r with
    | none =>
      unfold readSector
      rw [ht]
      show (t.find? id.c id.h id.r).bind _ = _
      rw [Track.find?_of_findIdx?_eq_none hi]
      rfl
    | some i =>
      rw [writeSector_eq ht hi] at h
      cases h

end Place

end Disk

end AmstradCpc
