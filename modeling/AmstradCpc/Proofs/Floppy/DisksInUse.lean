import AmstradCpc.Proofs.Disk.CheckedPlaces
import AmstradCpc.Proofs.Disk.Updates
import AmstradCpc.Proofs.Floppy.Formatting

/-!
# Disks in use stay within the bounds of an image

A disk that was read from a file, or made without tracks on up to 84 cylinders, has one side or two,
84 cylinders at most, an entry for every place and at most 29 sectors on a track, and neither what is
written and formatted on it nor what a controller does to it changes that (`Disk.InUse.bounded`).
Counts that are larger come from files, from commands and from their data; each is cut down where it
comes in, and so nothing that is looked up later is out of range (`lookups_in_range`).
-/

namespace AmstradCpc

namespace Disk

/-! ## Bounds -/

-- The flavour of the image does not matter for the bounds.
theorem bounded_iff {d : Disk} : d.Bounded ↔ ({ d with extended := true } : Disk).Laid where
  mp h := ⟨rfl, h.cylinders, h.sides, h.length, h.sectors⟩
  mpr h := ⟨h.sides, h.cylinders, h.length, h.sectors⟩

theorem bounded_ofBytes {file : List UInt8} {d : Disk} (h : ofBytes file = .ok d) : d.Bounded where
  sides := by
    obtain ⟨-, hsides, extended, tracks, -, -, rfl⟩ := ofBytes_eq_ok_iff.mp h
    exact hsides.imp (congrArg UInt8.toNat) (congrArg UInt8.toNat)
  cylinders := by
    obtain ⟨-, -, extended, tracks, -, -, rfl⟩ := ofBytes_eq_ok_iff.mp h
    exact Nat.min_le_right ..
  length := entries_ofBytes h
  sectors t ht := by
    obtain ⟨-, -, extended, tracks, -, htracks, rfl⟩ := ofBytes_eq_ok_iff.mp h
    obtain ⟨hlength, hplaces⟩ := DiskImage.readTracks_ok htracks
    obtain ⟨i, hi⟩ := List.mem_iff_getElem?.mp ht
    have hsize := (List.getElem?_eq_some_iff.mp hi).1
    rw [hlength] at hsize
    have hplace := hplaces i _ _ (List.getElem?_eq_getElem hsize) hi
    exact DiskImage.length_sectors_of_readTrack (DiskImage.readPlace_some.mp hplace).2.2

section Bounded

variable {d : Disk} (h : d.Bounded)

include h

theorem Bounded.writeSector (cylinder side : Nat) (id : SectorId) (data : List UInt8) :
    ((d.writeSector cylinder side id data).getD d).Bounded := by
  cases hwrite : d.writeSector cylinder side id data with
  | none => exact h
  | some d' =>
    obtain ⟨t, i, ht, -, rfl⟩ := writeSector_eq_some_iff.mp hwrite
    have hcount : (t.overwrite i data).sectors.length ≤ maxSectors := by
      show (t.sectors.modify i (·.overwrite data)).length ≤ maxSectors
      rw [List.length_modify]
      exact h.sectors t (List.mem_of_getElem? (track?_eq_some_iff.mp ht).2)
    exact bounded_iff.mpr ((bounded_iff.mp h).set hcount true)

theorem Bounded.formatTrack (cylinder side : Nat) (ids : List SectorId) (gap3 filler : UInt8) :
    (d.formatTrack cylinder side ids gap3 filler).Bounded := by
  have hlaid := (bounded_iff.mp h).formatTrack cylinder side ids gap3 filler
  have hflavour : ({ d with extended := true } : Disk).formatTrack cylinder side ids gap3 filler =
      { d.formatTrack cylinder side ids gap3 filler with extended := true } := by
    unfold Disk.formatTrack growTo
    dsimp only
    split
    · split <;> rfl
    · rfl
  rw [hflavour] at hlaid
  exact bounded_iff.mpr hlaid

theorem Bounded.apply (u : Update) : (u.apply d).Bounded := by
  cases u with
  | write cylinder side id data => exact h.writeSector cylinder side id data
  | format cylinder side ids gap3 filler => exact h.formatTrack cylinder side ids gap3 filler
  | markSaved => exact { h with }
  | protect on => exact { h with }

end Bounded

end Disk

namespace Floppy

/-! ## The data of a write -/

/-- Writes `bytes` from `offset` on over sectors, one after another. -/
def writeSectorsFrom? (cylinder side : Nat) (bytes : List UInt8) :
    Disk → List SectorId → Nat → Option Disk
  | d, [], _ => some d
  | d, id :: ids, offset => do
    let stored ← d.readSector? cylinder side id
    let len := (stored.map List.length).getD (sectorSize id.n)
    let stop := min (offset + len) bytes.length
    let written ← d.writeSector? cylinder side id (← slice? bytes offset stop)
    writeSectorsFrom? cylinder side bytes (written.getD d) ids stop

/-- Sector identifications in the bytes of a format command from identification `i` on. -/
def sectorIdsFrom? (bytes : List UInt8) : Nat → Nat → Option (List SectorId)
  | 0, _ => some []
  | count + 1, i => do
    let b ← slice? bytes (i * 4) (i * 4 + 4)
    let id : SectorId := { c := ← b[0]?, h := ← b[1]?, r := ← b[2]?, n := ← b[3]? }
    return id :: (← sectorIdsFrom? bytes count (i + 1))

def Controller.commit? (pending : PendingWrite) (bytes : List UInt8) (c : Controller) :
    Option Controller :=
  match pending with
  | .sectors u cylinder targets eot n => do
    let d := c.drive u.drive
    let disk ← d.disk.mapM fun disk =>
      writeSectorsFrom? cylinder.toNat u.head.toNat bytes disk targets 0
    let c := c.setDrive u.drive { d with disk }
    let last := targets.getLastD { c := cylinder, h := u.head, r := 0, n }
    if last.r == eot then
      return c.finishFailed u St1.endOfCylinder { nextCylinder last with n }
    else return c.finishFailed u St1.noData { nextRecord last with n }
  | .format u cylinder gap3 filler n => do
    let d := c.drive u.drive
    let ids ← sectorIdsFrom? bytes (bytes.length / 4) 0
    let disk ← d.disk.mapM fun disk =>
      disk.formatTrack? cylinder.toNat u.head.toNat ids gap3 filler
    let c := c.setDrive u.drive { d with disk }
    return c.finishTransfer u.st0 0 (ids.getLastD { c := cylinder, h := u.head, r := 0, n })

theorem writeSectors_eq_next (d : Disk) (cylinder side : Nat) (id : SectorId)
    (targets : List SectorId) (bytes : List UInt8) :
    let len := ((d.readSector cylinder side id).map List.length).getD (sectorSize id.n)
    writeSectors d cylinder side (id :: targets) bytes =
      writeSectors ((d.writeSector cylinder side id (bytes.take len)).getD d) cylinder side targets
        (bytes.drop len) := by
  dsimp only
  rw [writeSectors]
  cases d.readSector cylinder side id <;> rfl

-- The offset never passes the end, and the disk stays within its bounds from sector to sector.
theorem writeSectorsFrom?_eq {d : Disk} (h : d.Bounded) (cylinder side : Nat) {bytes : List UInt8}
    (targets : List SectorId) {offset : Nat} (hoffset : offset ≤ bytes.length) :
    writeSectorsFrom? cylinder side bytes d targets offset =
      some (writeSectors d cylinder side targets (bytes.drop offset)) := by
  induction targets generalizing d offset with
  | nil => rfl
  | cons id targets ih =>
    rw [writeSectors_eq_next, writeSectorsFrom?, h.inRange.readSector]
    dsimp only [bind, Option.bind]
    generalize ((d.readSector cylinder side id).map List.length).getD (sectorSize id.n) = len
    have hstop : min (offset + len) bytes.length ≤ bytes.length := Nat.min_le_right ..
    have hpart : (bytes.take (min (offset + len) bytes.length)).drop offset =
        (bytes.drop offset).take len := by
      rw [List.take_drop, ← List.take_eq_take_min]
    have hrest : bytes.drop (min (offset + len) bytes.length) = (bytes.drop offset).drop len := by
      rw [List.drop_drop]
      exact List.drop_eq_drop_min.symm
    rw [slice?_eq (by omega) hstop, hpart]
    dsimp only
    rw [h.inRange.writeSector]
    dsimp only
    rw [ih (h.writeSector cylinder side id _) hstop, hrest]

-- As many identifications are read as there are whole ones.
theorem sectorIdsFrom?_eq {bytes : List UInt8} {count i : Nat}
    (hcount : count = (bytes.length - i * 4) / 4) :
    sectorIdsFrom? bytes count i = some (sectorIds (bytes.drop (i * 4))) := by
  induction count generalizing i with
  | zero =>
    have hlength : (bytes.drop (i * 4)).length < 4 := by
      rw [List.length_drop]
      omega
    match bytes.drop (i * 4), hlength with
    | [], _ | [_], _ | [_, _], _ | [_, _, _], _ => rfl
  | succ count ih =>
    have hslice := slice?_eq (Nat.le_add_right (i * 4) 4) (by omega : i * 4 + 4 ≤ bytes.length)
    have hsplit : bytes.drop (i * 4) =
        (bytes.take (i * 4 + 4)).drop (i * 4) ++ bytes.drop ((i + 1) * 4) := by
      rw [← List.take_drop, Nat.add_one_mul, ← List.drop_drop, List.take_append_drop]
    generalize hb : (bytes.take (i * 4 + 4)).drop (i * 4) = b at hslice hsplit
    have hlength : b.length = 4 := by
      rw [← hb, List.length_drop, List.length_take]
      omega
    match b, hlength with
    | [c, h, r, n], _ =>
      rw [sectorIdsFrom?, hslice, ih (by omega), hsplit]
      rfl

theorem PendingWrite.bounded_onDisk {d : Disk} (h : d.Bounded) (pending : PendingWrite)
    (bytes : List UInt8) : (pending.onDisk bytes d).Bounded := by
  cases pending with
  | sectors u cylinder targets eot n =>
    show (writeSectors d _ _ targets bytes).Bounded
    induction targets generalizing d bytes with
    | nil => exact h
    | cons id targets ih => exact ih (h.writeSector ..) _
  | format u cylinder gap3 filler n => exact h.formatTrack ..

theorem mapM_disk {disk : Option Disk} {f? : Disk → Option Disk} {f : Disk → Disk}
    (h : ∀ d, disk = some d → f? d = some (f d)) : disk.mapM f? = some (disk.map f) := by
  cases disk with
  | none => rfl
  | some d =>
    show (f? d).map some = _
    rw [h d rfl]
    rfl

/-- No part of the data of a write is out of range. -/
theorem Controller.commit?_eq {c : Controller} {pending : PendingWrite}
    (h : ∀ d, (c.drive pending.drive).disk = some d → d.Bounded) (bytes : List UInt8) :
    c.commit? pending bytes = some (c.commit pending bytes) := by
  cases pending with
  | sectors u cylinder targets eot n =>
    change ∀ d, (c.drive u.drive).disk = some d → d.Bounded at h
    have hdisk := mapM_disk fun d hd =>
      writeSectorsFrom?_eq (h d hd) cylinder.toNat u.head.toNat targets (Nat.zero_le bytes.length)
    unfold commit? commit
    dsimp only
    rw [hdisk]
    exact (apply_ite some ..).symm
  | format u cylinder gap3 filler n =>
    change ∀ d, (c.drive u.drive).disk = some d → d.Bounded at h
    have hids : sectorIdsFrom? bytes (bytes.length / 4) 0 = some (sectorIds bytes) :=
      sectorIdsFrom?_eq (by omega)
    have hdisk := mapM_disk fun d hd =>
      (h d hd).inRange.formatTrack cylinder.toNat u.head.toNat (sectorIds bytes) gap3 filler
    unfold commit? commit
    dsimp only
    rw [hids, Option.bind_eq_bind, Option.bind_some, hdisk]
    rfl

end Floppy

/-! ## Disks in use -/

namespace Disk

open Floppy

/-- A disk that was read from a file, or made without tracks on as many cylinders as an image can
have, after any changes of the host and any calls to a controller that it was in a drive of. -/
inductive InUse : Disk → Prop
  | read {file : List UInt8} {d : Disk} : ofBytes file = .ok d → InUse d
  | unformatted {cylinders : Nat} : cylinders ≤ 84 → ∀ sides, InUse (unformatted cylinders sides)
  | update {d : Disk} (u : Update) : InUse d → InUse (u.apply d)
  | run {c : Controller} {n : DriveNumber} {calls : List HostCall} {d d' : Disk} :
    InUse d → (c.drive n).disk = some d → (∀ call ∈ calls, ¬ call.Handles n) →
      ((c.run calls).drive n).disk = some d' → InUse d'

theorem InUse.bounded {d : Disk} (h : d.InUse) : d.Bounded := by
  induction h with
  | read hread => exact bounded_ofBytes hread
  | unformatted hcylinders sides => exact bounded_iff.mpr (laid_unformatted hcylinders sides)
  | update u _ ih => exact ih.apply u
  | run _ hdisk hcalls hrun ih =>
    have hkeeps (d : Disk) (hd : d.Bounded) (pending : PendingWrite) (bytes : List UInt8) :
        (pending.onDisk bytes d).Bounded := pending.bounded_onDisk hd bytes
    obtain ⟨d'', hd'', hbounded⟩ := Controller.run_keeps hkeeps hcalls hdisk ih
    rw [hrun] at hd''
    exact Option.some.inj hd'' ▸ hbounded

end Disk

namespace Floppy

open Controller

/-- The controller after the command that formats a track of twelve sectors. -/
def formattedController : Controller :=
  blankController.run ((formatCommand ++ formatData).map .write)

/-- A write for a sector that is on that track and one that is not. -/
def partialWrite : PendingWrite := .sectors ⟨.a, 0⟩ 0 [⟨0, 0, 12, 1⟩, ⟨0, 0, 0x42, 7⟩] 0x42 1

theorem inUse_largeDisk : largeDisk.InUse := by
  have hcalls : ∀ call ∈ (formatCommand ++ formatData).map HostCall.write, ¬ call.Handles .a := by
    intro call hcall
    obtain ⟨v, -, rfl⟩ := List.mem_map.mp hcall
    exact id
  have hblank : (blankController.drive .a).disk = some (.unformatted 1 1) := rfl
  exact .run (.unformatted (by decide) 1) hblank hcalls disk_formatLarge

/-- Reading a file looks nothing up out of range, whatever the file. A disk in use has one side or
two, 84 cylinders at most, an entry for every place and at most 29 sectors on a track; so nothing is
out of range where it is read, written, formatted and saved, nor in the data that a controller writes
to it. -/
theorem lookups_in_range :
    (∀ file, Disk.ofBytes? file = some (Disk.ofBytes file)) ∧
      (∀ d : Disk, d.InUse → d.Bounded ∧ d.InRange) ∧
      ∀ (c : Controller) (pending : PendingWrite) (bytes : List UInt8),
        (∀ d, (c.drive pending.drive).disk = some d → d.InUse) →
          c.commit? pending bytes = some (c.commit pending bytes) :=
  ⟨Disk.ofBytes?_eq, fun _ h => ⟨h.bounded, h.bounded.inRange⟩,
    fun _ _ bytes h => Controller.commit?_eq (fun d hd => (h d hd).bounded) bytes⟩

/-- The data ends within the first of the two sectors. -/
theorem lookups_in_range_partial :
    Disk.ofBytes? [] = some (Disk.ofBytes []) ∧ largeDisk.Bounded ∧ largeDisk.InRange ∧
      (∀ d, (formattedController.drive partialWrite.drive).disk = some d → d.InUse) ∧
      formattedController.commit? partialWrite [1, 2, 3] =
        some (formattedController.commit partialWrite [1, 2, 3]) := by
  obtain ⟨hfiles, hdisks, hwrites⟩ := lookups_in_range
  obtain ⟨hbounded, hinRange⟩ := hdisks largeDisk inUse_largeDisk
  have hdrive : ∀ d, (formattedController.drive partialWrite.drive).disk = some d → d.InUse := by
    intro d hd
    obtain rfl : largeDisk = d := Option.some.inj (disk_formatLarge.symm.trans hd)
    exact inUse_largeDisk
  exact ⟨hfiles [], hbounded, hinRange, hdrive, hwrites _ _ _ hdrive⟩

end Floppy

end AmstradCpc
