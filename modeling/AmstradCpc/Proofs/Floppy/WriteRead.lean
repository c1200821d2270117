import AmstradCpc.Proofs.Floppy.DataRegister
import AmstradCpc.Proofs.Floppy.Runs

/-!
# Written sectors are read back

What WRITE DATA puts on a run of sectors READ DATA finds there, with the same result, and every
other sector stays as it was (`Controller.receive_written`).
-/

namespace AmstradCpc

theorem Disk.sector?_overwriteAll {d : Disk} {cylinder side : Nat} {t : Track}
    (h : d.track? cylinder side = some t) (is : List Nat) (bytes : List UInt8)
    {cylinder' side' i : Nat} (hi : ¬(cylinder' = cylinder ∧ side' = side ∧ i ∈ is)) :
    (d.setTrack cylinder side (t.overwriteAll is bytes)).sector? cylinder' side' i =
      d.sector? cylinder' side' i := by
  refine sector?_setTrack h fun hplace => ?_
  exact t.sectors_overwriteAll_of_not_mem (fun hmem => hi ⟨hplace.1, hplace.2, hmem⟩) bytes

namespace Floppy

theorem Transfer.ofBytes_cons (op op' : UInt8) (parameters : List UInt8) :
    Transfer.ofBytes (op' :: parameters) =
      { Transfer.ofBytes (op :: parameters) with skip := op' &&& 0x20 != 0 } := rfl

/-- The result of a transfer that meets no error in its run. -/
def Transfer.runResult (tr : Transfer) (t : Track) : List UInt8 :=
  resultBytes (tr.unit.st0 ||| St0.abnormal) (t.runEnd tr.following tr.id).1 0
    (t.runEnd tr.following tr.id).2

theorem Transfer.run_eq_reach (tr : Transfer) (t : Track) :
    t.run tr.id tr.eot = t.reach tr.following tr.id := t.run_eq_reach tr.id tr.eot

theorem Transfer.length_runResult (tr : Transfer) (t : Track) : (tr.runResult t).length = 7 := rfl

theorem Transfer.runResult_ne_nil (tr : Transfer) (t : Track) : tr.runResult t ≠ [] :=
  List.cons_ne_nil _ _

namespace Controller

theorem execute_writeData {op : UInt8} (hop : Command.decode op = .writeData)
    (parameters : List UInt8) (c : Controller) :
    c.execute (op :: parameters) = c.writeData (.ofBytes (op :: parameters)) := by
  unfold execute
  rw [show parameter (op :: parameters) 0 = op from rfl, hop]

theorem execute_readData {op : UInt8} (hop : Command.decode op = .readData)
    (parameters : List UInt8) (c : Controller) :
    c.execute (op :: parameters) = c.readData false (.ofBytes (op :: parameters)) := by
  unfold execute
  rw [show parameter (op :: parameters) 0 = op from rfl, hop]

/-- The controller with another disk in a drive. -/
def setDisk (n : DriveNumber) (disk : Disk) (c : Controller) : Controller :=
  c.setDrive n { c.drive n with disk := some disk }

theorem phase_setDisk (n : DriveNumber) (disk : Disk) (c : Controller) :
    (c.setDisk n disk).phase = c.phase := by
  cases n <;> rfl

theorem drive_setDisk (n : DriveNumber) (disk : Disk) (c : Controller) :
    (c.setDisk n disk).drive n = { c.drive n with disk := some disk } :=
  (drive_setDrive n n _ c).trans (if_pos rfl)

theorem mapDisk_eq {c : Controller} {n : DriveNumber} {disk : Disk}
    (hdisk : (c.drive n).disk = some disk) (f : Disk → Disk) :
    c.mapDisk n f = c.setDisk n (f disk) := by
  unfold mapDisk setDisk
  rw [hdisk]
  rfl

section Transfer

variable {c : Controller} {tr : Transfer} {disk : Disk} {t : Track} {payload : List UInt8}

/-- The write that waits for the data of a run. -/
def runWrite (c : Controller) (tr : Transfer) (t : Track) : PendingWrite :=
  .sectors tr.unit (c.drive tr.unit.drive).cylinder ((writeRun t tr.following tr.id).map (·.id))
    tr.eot tr.id.n

/-- The disk with a payload written over a run of the track under the head. -/
def writtenDisk (c : Controller) (tr : Transfer) (disk : Disk) (t : Track)
    (payload : List UInt8) : Disk :=
  disk.setTrack (c.drive tr.unit.drive).cylinder.toNat tr.unit.head.toNat
    (t.overwriteAll (t.run tr.id tr.eot) payload)

theorem writeData_eq (hdisk : (c.drive tr.unit.drive).disk = some disk)
    (hprotected : disk.writeProtected = false)
    (htrack : disk.track? (c.drive tr.unit.drive).cylinder.toNat tr.unit.head.toNat = some t)
    (hrun : writeRun t tr.following tr.id ≠ []) :
    c.writeData tr = c.awaitData (c.runWrite tr t) (t.totalLength (t.run tr.id tr.eot)) := by
  rw [tr.run_eq_reach, ← t.runLength_writeRun]
  unfold writeData runWrite
  dsimp only
  rw [hdisk]
  dsimp only
  rw [hprotected, htrack, if_neg Bool.false_ne_true]
  dsimp only
  cases h : writeRun t tr.following tr.id with
  | nil => exact absurd h hrun
  | cons s run => rfl

theorem commit_runWrite (hdisk : (c.drive tr.unit.drive).disk = some disk)
    (htrack : disk.track? (c.drive tr.unit.drive).cylinder.toNat tr.unit.head.toNat = some t)
    (hrun : writeRun t tr.following tr.id ≠ []) (payload : List UInt8) :
    c.commit (c.runWrite tr t) payload =
      (c.setDisk tr.unit.drive (c.writtenDisk tr disk t payload)).finish (tr.runResult t) := by
  have hids : (writeRun t tr.following tr.id).map (·.id) ≠ [] := mt List.map_eq_nil_iff.mp hrun
  obtain ⟨i, hi⟩ : ∃ i, t.findIdx? tr.id.c tr.id.h tr.id.r = some i := by
    cases h : t.findIdx? tr.id.c tr.id.h tr.id.r with
    | none => exact absurd (Track.writeRun_none h _) hrun
    | some i => exact ⟨i, rfl⟩
  have hfollowing : (tr.eot - tr.id.r).toNat = tr.following := rfl
  have hend := t.runEnd_eq_of_last
    { c := (c.drive tr.unit.drive).cylinder, h := tr.unit.head, r := 0, n := tr.id.n } hi hfollowing
  unfold commit runWrite Transfer.runResult writtenDisk
  dsimp only
  rw [mapDisk_eq hdisk, writeSectors_eq htrack (t.finds_writeRun tr.following tr.id) hids,
    tr.run_eq_reach, hend]
  split <;> rfl

theorem readData_overwriteAll (hdisk : (c.drive tr.unit.drive).disk = some disk)
    (htrack : disk.track? (c.drive tr.unit.drive).cylinder.toNat tr.unit.head.toNat =
      some (t.overwriteAll (t.run tr.id tr.eot) payload))
    (hpayload : payload ≠ [])
    (hlength : payload.length = t.totalLength (t.run tr.id tr.eot)) :
    c.readData false tr = { c with phase := .executionRead payload (tr.runResult t) } := by
  have hfollowing : tr.following < 256 := UInt8.toNat_lt _
  rw [tr.run_eq_reach] at htrack hlength
  unfold readData Transfer.runResult
  dsimp only
  rw [hdisk]
  dsimp only
  rw [htrack]
  dsimp only
  rw [t.readRun_overwriteAll tr.skip tr.id hfollowing hlength]
  exact if_neg (mt List.isEmpty_iff.mp hpayload)

/-! ## Through the data register -/

section Stream

variable {op op' : UInt8} {parameters : List UInt8}

theorem send_writeData (hidle : c.phase = .idle) (hop : Command.decode op = .writeData)
    (hparameters : parameters.length = 8) (htr : Transfer.ofBytes (op :: parameters) = tr)
    (hdisk : (c.drive tr.unit.drive).disk = some disk) (hprotected : disk.writeProtected = false)
    (htrack : disk.track? (c.drive tr.unit.drive).cylinder.toNat tr.unit.head.toNat = some t)
    (hrun : writeRun t tr.following tr.id ≠ []) :
    c.send (op :: parameters) =
      c.awaitData (c.runWrite tr t) (t.totalLength (t.run tr.id tr.eot)) := by
  have hcommand : 1 + parameters.length = (Command.decode op).length := by
    rw [hop, hparameters]
    rfl
  rw [send_command hidle hcommand, execute_writeData hop, htr,
    writeData_eq hdisk hprotected htrack hrun]

theorem send_payload (hidle : c.phase = .idle)
    (hdisk : (c.drive tr.unit.drive).disk = some disk)
    (htrack : disk.track? (c.drive tr.unit.drive).cylinder.toNat tr.unit.head.toNat = some t)
    (hrun : writeRun t tr.following tr.id ≠ []) (hpayload : 0 < payload.length) :
    (c.awaitData (c.runWrite tr t) payload.length).send payload =
      (c.setDisk tr.unit.drive (c.writtenDisk tr disk t payload)).finish (tr.runResult t) := by
  rw [send_data rfl hpayload (Nat.zero_add _)]
  show commit (c.runWrite tr t) payload { c with phase := .idle } = _
  rw [with_idle hidle, commit_runWrite hdisk htrack hrun]

theorem send_readData (hidle : c.phase = .idle) (hop' : Command.decode op' = .readData)
    (hparameters : parameters.length = 8) (htr : Transfer.ofBytes (op :: parameters) = tr)
    (htrack : disk.track? (c.drive tr.unit.drive).cylinder.toNat tr.unit.head.toNat = some t)
    (hpayload : payload ≠ []) (hlength : payload.length = t.totalLength (t.run tr.id tr.eot)) :
    (c.setDisk tr.unit.drive (c.writtenDisk tr disk t payload)).send (op' :: parameters) =
      { c.setDisk tr.unit.drive (c.writtenDisk tr disk t payload) with
        phase := .executionRead payload (tr.runResult t) } := by
  have hcommand : 1 + parameters.length = (Command.decode op').length := by
    rw [hop', hparameters]
    rfl
  have hdrive := c.drive_setDisk tr.unit.drive (c.writtenDisk tr disk t payload)
  let tr' := { tr with skip := op' &&& 0x20 != 0 }
  have hdisk' : ((c.setDisk tr.unit.drive (c.writtenDisk tr disk t payload)).drive
      tr'.unit.drive).disk = some (c.writtenDisk tr disk t payload) := by
    rw [hdrive]
  have htrack' : (c.writtenDisk tr disk t payload).track?
      ((c.setDisk tr.unit.drive (c.writtenDisk tr disk t payload)).drive
        tr'.unit.drive).cylinder.toNat tr'.unit.head.toNat =
      some (t.overwriteAll (t.run tr'.id tr'.eot) payload) := by
    rw [hdrive]
    exact Disk.track?_setTrack_self htrack _
  rw [send_command ((phase_setDisk _ _ c).trans hidle) hcommand, execute_readData hop',
    Transfer.ofBytes_cons op, htr]
  exact readData_overwriteAll hdisk' htrack' hpayload hlength

end Stream

end Transfer

/-- A payload written over a run of sectors is read back, by a command with the same parameters,
with the result that the write ended with. The write changes no sector outside the run. -/
theorem receive_written {c : Controller} {op op' : UInt8} {parameters : List UInt8} {tr : Transfer}
    {disk : Disk} {t : Track} {payload : List UInt8} (hidle : c.phase = .idle)
    (hop : Command.decode op = .writeData) (hop' : Command.decode op' = .readData)
    (hparameters : parameters.length = 8) (htr : Transfer.ofBytes (op :: parameters) = tr)
    (hdisk : (c.drive tr.unit.drive).disk = some disk) (hprotected : disk.writeProtected = false)
    (htrack : disk.track? (c.drive tr.unit.drive).cylinder.toNat tr.unit.head.toNat = some t)
    (hpayload : 0 < payload.length)
    (hlength : payload.length = t.totalLength (t.run tr.id tr.eot)) :
    ∃ (pending : PendingWrite) (result : List UInt8) (disk' : Disk) (after : Controller),
      (c.send (op :: parameters)).phase = .executionWrite pending payload.length #[] ∧
      ((c.send (op :: parameters)).send payload).phase = .result result ∧
      result.length = 7 ∧
      ((c.send (op :: parameters)).send payload).receive 7 = (result, after) ∧
      after = c.setDrive tr.unit.drive { c.drive tr.unit.drive with disk := some disk' } ∧
      (after.send (op' :: parameters)).phase = .executionRead payload result ∧
      (after.send (op' :: parameters)).receive (payload.length + 7) = (payload ++ result, after) ∧
      ∀ cylinder side i,
        ¬(cylinder = (c.drive tr.unit.drive).cylinder.toNat ∧ side = tr.unit.head.toNat ∧
          i ∈ t.run tr.id tr.eot) →
        disk'.sector? cylinder side i = disk.sector? cylinder side i := by
  have hnil : payload ≠ [] := List.length_pos_iff.mp hpayload
  have hrun : writeRun t tr.following tr.id ≠ [] := fun hrun => by
    rw [tr.run_eq_reach, ← t.runLength_writeRun, hrun] at hlength
    exact absurd hlength (Nat.ne_of_gt hpayload)
  let after := c.setDisk tr.unit.drive (c.writtenDisk tr disk t payload)
  have hafter : { after with phase := .idle } = after :=
    with_idle ((phase_setDisk _ _ c).trans hidle)
  have hwrite : c.send (op :: parameters) = c.awaitData (c.runWrite tr t) payload.length := by
    rw [send_writeData hidle hop hparameters htr hdisk hprotected htrack hrun, hlength]
  have hcommit : (c.send (op :: parameters)).send payload = after.finish (tr.runResult t) := by
    rw [hwrite, send_payload hidle hdisk htrack hrun hpayload]
  have hread : after.send (op' :: parameters) =
      { after with phase := .executionRead payload (tr.runResult t) } :=
    send_readData hidle hop' hparameters htr htrack hnil hlength
  refine ⟨c.runWrite tr t, tr.runResult t, c.writtenDisk tr disk t payload, after, ?_, ?_,
    tr.length_runResult t, ?_, rfl, ?_, ?_, ?_⟩
  · rw [hwrite]
    rfl
  · rw [hcommit]
    rfl
  · have hreceive : (after.finish (tr.runResult t)).receive (tr.runResult t).length = _ :=
      receive_result rfl (tr.runResult_ne_nil t)
    rw [hcommit, ← tr.length_runResult t, hreceive]
    exact congrArg (Prod.mk _) hafter
  · rw [hread]
  · rw [hread, ← tr.length_runResult t, ← List.length_append,
      receive_executionRead rfl hnil (tr.runResult_ne_nil t)]
    exact congrArg (Prod.mk _) hafter
  · intro cylinder side i hi
    exact Disk.sector?_overwriteAll htrack _ payload hi

/-- A track on which records 255 and 0 are present and record 1 is missing. Record 255 has a data
error and record 0 a deleted mark. -/
def gappedTrack : Track where
  gap3 := 0x2A
  filler := 0xE5
  sectors := [⟨⟨0, 1, 0xFF, 2⟩, 0x20, 0x20, [1, 2, 3]⟩, ⟨⟨0, 1, 5, 2⟩, 0, 0, [4]⟩,
    ⟨⟨0, 1, 0, 6⟩, 0, 0x40, [5, 6]⟩]

def gappedDisk : Disk where
  cylinders := 1
  sides := 2
  tracks := [none, some gappedTrack]
  extended := true

theorem receive_written_gapped :
    let c : Controller := { driveB := { disk := some gappedDisk } }
    let parameters : List UInt8 := [0x05, 0, 1, 0xFF, 2, 1, 0x2A, 0xFF]
    let payload : List UInt8 := [11, 12, 13, 14, 15]
    Command.decode 0x45 = .writeData ∧ Command.decode 0x66 = .readData ∧
      gappedTrack.run ⟨0, 1, 0xFF, 2⟩ 1 = [0, 2] ∧
      ∃ (result : List UInt8) (after : Controller),
        ((c.send (0x45 :: parameters)).send payload).receive 7 = (result, after) ∧
        (after.send (0x66 :: parameters)).receive 12 = (payload ++ result, after) := by
  intro c parameters payload
  have hidle : c.phase = .idle := rfl
  have hop : Command.decode 0x45 = .writeData := by decide
  have hop' : Command.decode 0x66 = .readData := by decide
  have hrun : gappedTrack.run ⟨0, 1, 0xFF, 2⟩ 1 = [0, 2] := by decide
  have htr : Transfer.ofBytes (0x45 :: parameters) =
      { unit := { drive := .b, head := 1 }, id := ⟨0, 1, 0xFF, 2⟩, eot := 1, skip := false } := by
    decide
  obtain ⟨-, result, -, after, -, -, -, hwrite, -, -, hread, -⟩ :=
    receive_written (c := c) (t := gappedTrack) hidle hop hop' rfl htr rfl rfl rfl
      (by decide : 0 < payload.length) (by decide)
  exact ⟨hop, hop', hrun, result, after, hwrite, hread⟩

end Controller

end Floppy

end AmstradCpc
