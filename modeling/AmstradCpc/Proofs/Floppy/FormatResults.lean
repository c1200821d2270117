import AmstradCpc.Proofs.Disk.Formatted
import AmstradCpc.Proofs.Floppy.Formatting
import AmstradCpc.Proofs.Floppy.WriteRead

/-!
# What FORMAT TRACK reports

FORMAT TRACK asks whether there is a disk and whether it may be written, and reports success if so.
A disk takes less than what may be asked of it: a side that it has, a cylinder below 84, and 29
sectors to the track. What is beyond these limits is left out and the result does not say so
(`Controller.receive_formatted`).
-/

namespace AmstradCpc

/-- The four bytes of an identification in the data of a format command. -/
def SectorId.bytes (id : SectorId) : List UInt8 := [id.c, id.h, id.r, id.n]

namespace Floppy

theorem sectorIds_flatMap (ids : List SectorId) : sectorIds (ids.flatMap (·.bytes)) = ids := by
  induction ids with
  | nil => rfl
  | cons id ids ih =>
    rw [List.flatMap_cons]
    show id :: sectorIds (ids.flatMap (·.bytes)) = id :: ids
    rw [ih]

theorem length_flatMap_bytes (ids : List SectorId) :
    (ids.flatMap (·.bytes)).length = ids.length * 4 := by
  induction ids with
  | nil => rfl
  | cons id ids ih =>
    rw [List.flatMap_cons, List.length_append, ih, List.length_cons, Nat.add_one_mul, Nat.add_comm]
    rfl

/-- The result reports success: the top two bits of the first status byte are clear. -/
def Succeeded (result : List UInt8) : Prop := result.headD 0 &&& 0xC0 = 0

theorem Unit.st0_ofByte (b : UInt8) : (Unit.ofByte b).st0 &&& 0xC0 = 0 := by
  have hall : ∀ n : Fin 256, (Unit.ofByte (UInt8.ofFin n)).st0 &&& 0xC0 = 0 := by decide +kernel
  exact hall b.toFin

theorem succeeded_resultBytes (b st1 st2 : UInt8) (id : SectorId) :
    Succeeded (resultBytes (Unit.ofByte b).st0 st1 st2 id) :=
  Unit.st0_ofByte b

theorem not_succeeded_abnormal (st0 st1 st2 : UInt8) (id : SectorId) :
    ¬ Succeeded (resultBytes (st0 ||| St0.abnormal) st1 st2 id) := by
  have hall : ∀ n : Fin 256, (UInt8.ofFin n ||| St0.abnormal) &&& 0xC0 ≠ 0 := by decide +kernel
  exact hall st0.toFin

namespace Controller

-- The host's bytes are lost while a result waits.
theorem send_result {c : Controller} {result : List UInt8} (h : c.phase = .result result)
    (bytes : List UInt8) : c.send bytes = c := by
  induction bytes with
  | nil => rfl
  | cons v bytes ih =>
    show (c.write v).send bytes = c
    rw [write_result h, ih]

theorem execute_formatTrack {op : UInt8} (hop : Command.decode op = .formatTrack)
    (parameters : List UInt8) (c : Controller) :
    c.execute (op :: parameters) = c.formatTrack (op :: parameters) := by
  unfold execute
  rw [show parameter (op :: parameters) 0 = op from rfl, hop]

section Format

variable {c : Controller} {op unit n count gap3 filler : UInt8} {ids : List SectorId} {u : Unit}
  {disk : Disk}

/-- What FORMAT TRACK names in its result if it is refused. -/
def formatId (c : Controller) (u : Unit) (n : UInt8) : SectorId :=
  { c := (c.drive u.drive).cylinder, h := u.head, r := 0, n }

theorem formatTrack_protected (hunit : Unit.ofByte unit = u)
    (hdisk : (c.drive u.drive).disk = some disk) (hprotected : disk.writeProtected = true) :
    c.formatTrack [op, unit, n, count, gap3, filler] =
      c.finishFailed u St1.notWritable (c.formatId u n) := by
  subst hunit
  unfold formatTrack
  dsimp only
  rw [show Unit.ofByte (parameter [op, unit, n, count, gap3, filler] 1) = Unit.ofByte unit from rfl,
    hdisk]
  dsimp only
  rw [hprotected, if_pos rfl]
  rfl

theorem formatTrack_writable (hunit : Unit.ofByte unit = u)
    (hdisk : (c.drive u.drive).disk = some disk) (hprotected : disk.writeProtected = false)
    (hcount : 0 < count) :
    c.formatTrack [op, unit, n, count, gap3, filler] =
      c.awaitData (.format u (c.drive u.drive).cylinder gap3 filler n) (count.toNat * 4) := by
  subst hunit
  have hne : ¬ (count == 0) = true := fun h => by
    rw [beq_iff_eq.mp h] at hcount
    exact absurd hcount (by decide)
  unfold formatTrack
  dsimp only
  rw [show Unit.ofByte (parameter [op, unit, n, count, gap3, filler] 1) = Unit.ofByte unit from rfl,
    show parameter [op, unit, n, count, gap3, filler] 3 = count from rfl, hdisk]
  dsimp only
  rw [hprotected, if_neg Bool.false_ne_true, if_neg hne]
  rfl

theorem send_awaitData (hidle : c.phase = .idle) (pending : PendingWrite) {data : List UInt8}
    (hdata : 0 < data.length) :
    (c.awaitData pending data.length).send data = c.commit pending data := by
  have hwaits : (c.awaitData pending data.length).phase =
      .executionWrite pending data.length #[] := rfl
  rw [send_data hwaits hdata (Nat.zero_add _)]
  show commit pending data { c with phase := .idle } = c.commit pending data
  rw [with_idle hidle]

theorem commit_format (hdisk : (c.drive u.drive).disk = some disk) :
    c.commit (.format u (c.drive u.drive).cylinder gap3 filler n) (ids.flatMap (·.bytes)) =
      (c.setDisk u.drive (disk.formatTrack (c.drive u.drive).cylinder.toNat u.head.toNat ids gap3
        filler)).finish (resultBytes u.st0 0 0 (ids.getLastD (c.formatId u n))) := by
  unfold commit
  dsimp only
  rw [sectorIds_flatMap, mapDisk_eq hdisk]
  rfl

theorem setDisk_self {k : DriveNumber} (h : (c.drive k).disk = some disk) :
    c.setDisk k disk = c := by
  unfold setDisk
  rw [← h]
  cases k <;> rfl

theorem receive_protected (hidle : c.phase = .idle) (hop : Command.decode op = .formatTrack)
    (hunit : Unit.ofByte unit = u) (hdisk : (c.drive u.drive).disk = some disk)
    (hprotected : disk.writeProtected = true) (data : List UInt8) :
    (c.send ([op, unit, n, count, gap3, filler] ++ data)).receive 7 =
      (resultBytes (u.st0 ||| St0.abnormal) St1.notWritable 0 (c.formatId u n), c) := by
  have hcommand : 1 + [unit, n, count, gap3, filler].length = (Command.decode op).length := by
    rw [hop]
    rfl
  rw [send_append, send_command hidle hcommand, execute_formatTrack hop,
    formatTrack_protected hunit hdisk hprotected, send_result rfl]
  have hreceive := receive_result (c := c.finishFailed u St1.notWritable (c.formatId u n)) rfl
    (List.cons_ne_nil _ _)
  exact hreceive.trans (congrArg (Prod.mk _) (with_idle hidle))

theorem receive_writable (hidle : c.phase = .idle) (hop : Command.decode op = .formatTrack)
    (hunit : Unit.ofByte unit = u) (hcount : 0 < count) (hids : ids.length = count.toNat)
    (hdisk : (c.drive u.drive).disk = some disk) (hprotected : disk.writeProtected = false) :
    (c.send ([op, unit, n, count, gap3, filler] ++ ids.flatMap (·.bytes))).receive 7 =
      (resultBytes u.st0 0 0 (ids.getLastD (c.formatId u n)),
        c.setDisk u.drive (disk.formatTrack (c.drive u.drive).cylinder.toNat u.head.toNat ids gap3
          filler)) := by
  have hcommand : 1 + [unit, n, count, gap3, filler].length = (Command.decode op).length := by
    rw [hop]
    rfl
  have hlength : (ids.flatMap (·.bytes)).length = count.toNat * 4 := by
    rw [length_flatMap_bytes, hids]
  have hpos : 0 < count.toNat := UInt8.lt_iff_toNat_lt.mp hcount
  rw [send_append, send_command hidle hcommand, execute_formatTrack hop,
    formatTrack_writable hunit hdisk hprotected hcount, ← hlength,
    send_awaitData hidle _ (by omega), commit_format hdisk]
  have hreceive := receive_result (c := (c.setDisk u.drive (disk.formatTrack
    (c.drive u.drive).cylinder.toNat u.head.toNat ids gap3 filler)).finish
      (resultBytes u.st0 0 0 (ids.getLastD (c.formatId u n)))) rfl (List.cons_ne_nil _ _)
  exact hreceive.trans (congrArg (Prod.mk _) (with_idle ((phase_setDisk _ _ c).trans hidle)))

end Format

/-- FORMAT TRACK reports success just when the disk may be written. The track is then laid out as
asked for, but for the sectors beyond the 29th, if the disk can have such a track; otherwise the
disk stays as it is. -/
theorem receive_formatted {c : Controller} {op unit n count gap3 filler : UInt8}
    {ids : List SectorId} {u : Unit} {cylinder side : Nat} {disk : Disk} (hidle : c.phase = .idle)
    (hop : Command.decode op = .formatTrack) (hunit : Unit.ofByte unit = u)
    (hcylinder : (c.drive u.drive).cylinder.toNat = cylinder) (hside : u.head.toNat = side)
    (hcount : 0 < count) (hids : ids.length = count.toNat)
    (hdisk : (c.drive u.drive).disk = some disk)
    (hentries : disk.tracks.length = disk.cylinders * disk.sides) :
    ∃ (result : List UInt8) (disk' : Disk),
      (c.send ([op, unit, n, count, gap3, filler] ++ ids.flatMap (·.bytes))).receive 7 =
        (result, c.setDrive u.drive { c.drive u.drive with disk := some disk' }) ∧
      (Succeeded result ↔ disk.writeProtected = false) ∧
      (¬ Succeeded result → disk' = disk) ∧
      (Succeeded result → cylinder < 84 → side < disk.sides →
        ∃ t, disk'.track? cylinder side = some t ∧ t.Fresh gap3 filler (ids.take 29)) ∧
      (Succeeded result → ¬(cylinder < 84 ∧ side < disk.sides) → disk' = disk) := by
  subst hcylinder hside
  cases hprotected : disk.writeProtected with
  | true =>
    have hfailed := not_succeeded_abnormal u.st0 St1.notWritable 0 (c.formatId u n)
    have hself : c.setDisk u.drive disk = c := setDisk_self hdisk
    refine ⟨_, disk, ?_, ⟨fun h => absurd h hfailed, fun h => nomatch h⟩, fun _ => rfl,
      fun h => absurd h hfailed, fun h => absurd h hfailed⟩
    show _ = (_, c.setDisk u.drive disk)
    rw [hself]
    exact receive_protected hidle hop hunit hdisk hprotected _
  | false =>
    have hsuccess : Succeeded (resultBytes u.st0 0 0 (ids.getLastD (c.formatId u n))) :=
      hunit ▸ succeeded_resultBytes unit 0 0 _
    refine ⟨_, _, receive_writable hidle hop hunit hcount hids hdisk hprotected,
      ⟨fun _ => rfl, fun _ => hsuccess⟩, fun h => absurd hsuccess h, ?_, ?_⟩
    · intro _ hcylinder hside
      exact Disk.exists_fresh hentries hcylinder hside ids gap3 filler
    · intro _ houtside
      exact Disk.formatTrack_of_outside houtside ids gap3 filler

/-- One sector is asked for on the second side of a disk that has one. Success is reported, and the
disk is as it was. -/
theorem receive_formatted_second_side :
    let c : Controller := { driveA := { disk := some (.unformatted 1 1) } }
    ∃ result, (c.send [0x4D, 0x04, 2, 1, 0x4E, 0xE5, 0, 1, 1, 2]).receive 7 = (result, c) ∧
      Succeeded result ∧ (Disk.unformatted 1 1).track? 0 1 = none := by
  intro c
  obtain ⟨result, disk', hreceive, hsuccess, -, -, houtside⟩ :=
    @receive_formatted c 0x4D 0x04 2 1 0x4E 0xE5 [⟨0, 1, 1, 2⟩] ⟨.a, 1⟩ 0 1 (.unformatted 1 1)
      rfl (by decide) rfl rfl rfl (by decide) rfl rfl (by decide)
  have hreported : Succeeded result := hsuccess.mpr rfl
  obtain rfl := houtside hreported (by decide)
  exact ⟨result, hreceive, hreported, by decide⟩

end Controller

end Floppy

end AmstradCpc
