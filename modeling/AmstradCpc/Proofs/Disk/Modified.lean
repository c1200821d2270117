import AmstradCpc.Proofs.Disk.Updates

/-!
# The modified flag

What a disk holds, and what is written when it is saved, is its cylinders, sides, flavour and
tracks. A change to these puts the flag up, and of all changes only saving takes it down again. So
where the flag is down behind a change, it was down before, and the disk holds the same
(`Disk.Flagged`).
-/

namespace AmstradCpc.Disk

open DiskImage

/-- Two disks hold the same, whether or not they are write protected or modified. -/
structure SameContents (d d' : Disk) : Prop where
  cylinders : d'.cylinders = d.cylinders
  sides : d'.sides = d.sides
  extended : d'.extended = d.extended
  tracks : d'.tracks = d.tracks

/-- If `d'` has become of `d`, its flag tells of any change. -/
def Flagged (d d' : Disk) : Prop := d'.modified = false → d.modified = false ∧ d.SameContents d'

section

variable {d d' d'' : Disk}

theorem SameContents.refl (d : Disk) : d.SameContents d := ⟨rfl, rfl, rfl, rfl⟩

theorem SameContents.trans (h : d.SameContents d') (h' : d'.SameContents d'') :
    d.SameContents d'' :=
  ⟨h'.cylinders.trans h.cylinders, h'.sides.trans h.sides, h'.extended.trans h.extended,
    h'.tracks.trans h.tracks⟩

theorem SameContents.toBytes_eq (h : d.SameContents d') : d'.toBytes = d.toBytes := by
  obtain ⟨hcylinders, hsides, hextended, htracks⟩ := h
  unfold toBytes trackBlocks diskBlock
  rw [hcylinders, hsides, hextended, htracks]

theorem Flagged.refl (d : Disk) : d.Flagged d := fun hclean => ⟨hclean, .refl d⟩

theorem Flagged.trans (h : d.Flagged d') (h' : d'.Flagged d'') : d.Flagged d'' := fun hclean =>
  have ⟨hbetween, hlater⟩ := h' hclean
  have ⟨hbefore, hearlier⟩ := h hbetween
  ⟨hbefore, hearlier.trans hlater⟩

theorem flagged_of_modified (h : d'.modified = true) : d.Flagged d' := by
  intro hclean
  rw [h] at hclean
  cases hclean

end

section Changes

variable (d : Disk)

theorem flagged_writeSector (cylinder side : Nat) (id : SectorId) (data : List UInt8) :
    d.Flagged ((d.writeSector cylinder side id data).getD d) := by
  cases hwrite : d.writeSector cylinder side id data with
  | none => exact .refl d
  | some d' =>
    obtain ⟨t, i, -, -, rfl⟩ := writeSector_eq_some_iff.mp hwrite
    exact flagged_of_modified rfl

theorem flagged_formatTrack (cylinder side : Nat) (ids : List SectorId) (gap3 filler : UInt8) :
    d.Flagged (d.formatTrack cylinder side ids gap3 filler) := by
  unfold formatTrack
  split
  case isTrue => exact flagged_of_modified rfl
  case isFalse => exact .refl d

/-- Any change but saving is flagged. -/
theorem flagged_update {u : Update} (h : u ≠ .markSaved) : d.Flagged (u.apply d) := by
  cases u with
  | write cylinder side id data => exact d.flagged_writeSector cylinder side id data
  | format cylinder side ids gap3 filler =>
    exact d.flagged_formatTrack cylinder side ids gap3 filler
  | markSaved => exact absurd rfl h
  | protect on => exact fun hclean => ⟨hclean, rfl, rfl, rfl, rfl⟩

end Changes

theorem modified_ofBytes {file : List UInt8} {d : Disk} (h : ofBytes file = .ok d) :
    d.modified = false := by
  obtain ⟨-, -, extended, tracks, -, -, rfl⟩ := ofBytes_eq_ok_iff.mp h
  rfl

end AmstradCpc.Disk
