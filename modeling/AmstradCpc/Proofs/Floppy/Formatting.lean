import AmstradCpc.Proofs.Disk.Formatted
import AmstradCpc.Proofs.Disk.Reread
import AmstradCpc.Proofs.Floppy.Changes

/-!
# Saving what was formatted

A blank disk that is formatted and written through the controller stays one that an extended image
can describe track by track: cylinders are added up to the last that the image has, and no track gets
more than 29 sectors (`PendingWrite.laid_onDisk`). The sizes of the tracks are not bounded so. A track
of eight sectors of 8192 bytes has no room in the table of the image, and saving such a disk can lose
that track or those behind it; `Controller.rereads_iff` says when it does not.
-/

namespace AmstradCpc

namespace Disk

-- A blank disk has one side or two, whatever is asked for.
theorem laid_unformatted {cylinders : Nat} (hcylinders : cylinders ≤ maxCylinders) (sides : Nat) :
    (unformatted cylinders sides).Laid where
  extended := rfl
  cylinders := hcylinders
  sides := by
    show max 1 (min sides 2) = 1 ∨ max 1 (min sides 2) = 2
    omega
  length := List.length_replicate
  sectors t ht := by
    cases List.eq_of_mem_replicate ht

section Laid

variable {d : Disk} (h : d.Laid)

include h

-- The tracks are as many as before, and the new one is not too long either.
theorem Laid.set {i : Nat} {t : Track} (ht : t.sectors.length ≤ maxSectors) (modified : Bool) :
    { d with tracks := d.tracks.set i (some t), modified }.Laid := by
  refine { h with length := (List.length_set ..).trans h.length, sectors := fun t' ht' => ?_ }
  rcases List.mem_or_eq_of_mem_set ht' with hold | hnew
  · exact h.sectors t' hold
  · rw [Option.some.inj hnew]
    exact ht

theorem Laid.growTo {cylinder : Nat} (hcylinder : cylinder < maxCylinders) :
    (d.growTo cylinder).Laid where
  extended := by
    unfold Disk.growTo
    split <;> exact h.extended
  cylinders := by
    rw [cylinders_growTo]
    exact Nat.max_le.mpr ⟨h.cylinders, hcylinder⟩
  sides := by
    rw [sides_growTo]
    exact h.sides
  length := by
    rw [sides_growTo]
    exact length_growTo h.length cylinder
  sectors t ht := by
    obtain ⟨i, hi⟩ := List.mem_iff_getElem?.mp ht
    have hjoin := d.join_tracks_growTo cylinder i
    rw [hi] at hjoin
    exact h.sectors t (List.mem_of_getElem? (Option.join_eq_some_iff.mp hjoin.symm))

theorem Laid.formatTrack (cylinder side : Nat) (ids : List SectorId) (gap3 filler : UInt8) :
    (d.formatTrack cylinder side ids gap3 filler).Laid := by
  unfold Disk.formatTrack
  split
  case isTrue hplace =>
    have hcount : ((ids.take maxSectors).map (freshSector filler)).length ≤ maxSectors := by
      rw [List.length_map, List.length_take]
      exact Nat.min_le_left ..
    have hset := (h.growTo hplace.1).set (i := (d.growTo cylinder).index cylinder side)
      (t := { gap3, filler, sectors := (ids.take maxSectors).map (freshSector filler) }) hcount true
    exact { hset with extended := rfl }
  case isFalse => exact h

theorem Laid.writeSector {cylinder side : Nat} {id : SectorId} {data : List UInt8} {d' : Disk}
    (hwrite : d.writeSector cylinder side id data = some d') : d'.Laid := by
  obtain ⟨t, i, ht, -, rfl⟩ := writeSector_eq_some_iff.mp hwrite
  have htrack := List.mem_of_getElem? (track?_eq_some_iff.mp ht).2
  refine h.set ?_ true
  show (t.sectors.modify i (·.overwrite data)).length ≤ maxSectors
  rw [List.length_modify]
  exact h.sectors t htrack

end Laid

end Disk

namespace Floppy

theorem laid_writeSectors {d : Disk} (h : d.Laid) (cylinder side : Nat) (targets : List SectorId)
    (bytes : List UInt8) : (writeSectors d cylinder side targets bytes).Laid := by
  induction targets generalizing d bytes with
  | nil => exact h
  | cons id targets ih =>
    unfold writeSectors
    dsimp only
    refine ih ?_ _
    cases hwrite : d.writeSector cylinder side id _ with
    | none => exact h
    | some d' => exact h.writeSector hwrite

theorem PendingWrite.laid_onDisk {d : Disk} (h : d.Laid) (pending : PendingWrite)
    (bytes : List UInt8) : (pending.onDisk bytes d).Laid := by
  cases pending with
  | sectors u cylinder targets eot n => exact laid_writeSectors h ..
  | format u cylinder gap3 filler n => exact h.formatTrack ..

namespace Controller

/-- Whatever goes through the data register, a disk that was blank is read back as it was saved just
when it is legible, and it is if no track holds more than 65024 bytes. -/
theorem rereads_iff {cylinders sides : Nat} (hcylinders : cylinders ≤ 84) {c : Controller}
    {n : DriveNumber} (hdisk : (c.drive n).disk = some (.unformatted cylinders sides))
    {calls : List HostCall} (hcalls : ∀ call ∈ calls, ¬ call.Handles n) :
    ∃ d, ((c.run calls).drive n).disk = some d ∧ (d.Rereads ↔ d.Legible) ∧
      ((∀ t, some t ∈ d.tracks → t.dataLength ≤ 254 * 0x100) → d.Rereads) := by
  have hkeeps (d : Disk) (hd : d.Laid) (pending : PendingWrite) (bytes : List UInt8) :
      (pending.onDisk bytes d).Laid := pending.laid_onDisk hd bytes
  obtain ⟨d, hd, hlaid⟩ := run_keeps hkeeps hcalls hdisk (Disk.laid_unformatted hcylinders sides)
  exact ⟨d, hd, Disk.reread_iff hlaid, Disk.reread_of_small hlaid⟩

/-- Seven sectors of 8192 bytes and one of each smaller size but the smallest. -/
def largeIds : List SectorId :=
  [⟨0, 0, 1, 6⟩, ⟨0, 0, 2, 6⟩, ⟨0, 0, 3, 6⟩, ⟨0, 0, 4, 6⟩, ⟨0, 0, 5, 6⟩, ⟨0, 0, 6, 6⟩, ⟨0, 0, 7, 6⟩,
    ⟨0, 0, 8, 5⟩, ⟨0, 0, 9, 4⟩, ⟨0, 0, 10, 3⟩, ⟨0, 0, 11, 2⟩, ⟨0, 0, 12, 1⟩]

/-- A track of 65280 bytes, whose block has 65536. -/
def largeTrack : Track := ⟨0x4E, 0xE5, largeIds.map (Disk.freshSector 0xE5)⟩

def largeDisk : Disk where
  cylinders := 1
  sides := 1
  tracks := [some largeTrack]
  extended := true
  modified := true

/-- FORMAT TRACK with 12 sectors on cylinder 0. -/
def formatCommand : List UInt8 := [0x4D, 0, 6, 12, 0x4E, 0xE5]

/-- The data of the command: what the sectors are to be. -/
def formatData : List UInt8 :=
  largeIds.flatMap fun (id : SectorId) => [id.c, id.h, id.r, id.n]

def blankController : Controller := { driveA := { disk := some (.unformatted 1 1) } }

theorem send_append (bytes rest : List UInt8) (c : Controller) :
    c.send (bytes ++ rest) = (c.send bytes).send rest :=
  List.foldl_append

theorem run_map_write (bytes : List UInt8) (c : Controller) :
    c.run (bytes.map .write) = c.send bytes := by
  unfold run send
  rw [List.foldl_map]
  rfl

theorem disk_formatLarge :
    ((blankController.run ((formatCommand ++ formatData).map .write)).drive .a).disk =
      some largeDisk := by
  let pending : PendingWrite := .format ⟨.a, 0⟩ 0 0x4E 0xE5 6
  have hcommand : blankController.send formatCommand = blankController.awaitData pending 48 := rfl
  have hdata := disk_send_data (blankController.awaitData pending 48) rfl
    (by decide : 0 < formatData.length) (by decide)
  have hids : sectorIds formatData = largeIds := by decide
  have hdisk : pending.onDisk formatData (.unformatted 1 1) = largeDisk := by
    show (Disk.unformatted 1 1).formatTrack 0 0 (sectorIds formatData) 0x4E 0xE5 = largeDisk
    rw [hids]
    rfl
  rw [run_map_write, send_append, hcommand]
  exact hdata.trans (congrArg some hdisk)

theorem dataLength_fresh (gap3 filler : UInt8) (ids : List SectorId) :
    Track.dataLength ⟨gap3, filler, ids.map (Disk.freshSector filler)⟩ =
      DiskImage.totalSize (ids.map fun id => sectorSize id.n) := by
  induction ids with
  | nil => rfl
  | cons id ids ih =>
    unfold Track.dataLength at ih ⊢
    dsimp only at ih ⊢
    rw [List.map_cons, List.flatMap_cons, List.length_append, ih, List.map_cons,
      DiskImage.totalSize]
    exact congrArg (· + _) List.length_replicate

theorem dataLength_largeTrack : largeTrack.dataLength = 65280 :=
  (dataLength_fresh ..).trans (by decide)

theorem laid_largeDisk : largeDisk.Laid where
  extended := rfl
  cylinders := by decide
  sides := .inl rfl
  length := rfl
  sectors t ht := by
    obtain rfl : t = largeTrack := Option.some.inj (List.mem_singleton.mp ht)
    show (largeIds.map (Disk.freshSector 0xE5)).length ≤ 29
    rw [List.length_map]
    decide

/-- One command formats a track that is lost when the disk is saved. -/
theorem rereads_iff_large : ∃ d,
    ((blankController.run ((formatCommand ++ formatData).map .write)).drive .a).disk = some d ∧
      ¬ d.Rereads := by
  have hcalls : ∀ call ∈ (formatCommand ++ formatData).map HostCall.write, ¬ call.Handles .a := by
    intro call hcall
    obtain ⟨v, -, rfl⟩ := List.mem_map.mp hcall
    exact id
  have hblank : (blankController.drive .a).disk = some (.unformatted 1 1) := rfl
  obtain ⟨d, hd, hiff, -⟩ := rereads_iff (by decide : 1 ≤ 84) hblank hcalls
  obtain rfl : largeDisk = d := Option.some.inj (disk_formatLarge.symm.trans hd)
  have hsize : ((largeTrack.dataLength + 0xFF) / 0x100 + 1) % 0x100 = 0 := by
    rw [dataLength_largeTrack]
  refine ⟨largeDisk, hd, fun hrereads => ?_⟩
  exact Disk.not_legible_of_size laid_largeDisk List.mem_cons_self hsize (hiff.mp hrereads)

end Controller

end Floppy

end AmstradCpc
