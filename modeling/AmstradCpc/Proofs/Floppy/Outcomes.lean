import AmstradCpc.Floppy.Run
import AmstradCpc.Floppy.Controller

/-!
# What commands leave alone

Most commands change nothing but the phase. READ ID also moves on to the next sector of its drive, and
SPECIFY stores the timings; what is left are the seeks and SENSE INTERRUPT STATUS. A write that is
carried out changes the disk in its drive and the phase.
-/

namespace AmstradCpc.Floppy

namespace PendingWrite

/-- The drive that the write is for. -/
def drive : PendingWrite → DriveNumber
  | .sectors u _ _ _ _ => u.drive
  | .format u _ _ _ _ => u.drive

/-- What the write does to the disk when its data has come. -/
def onDisk (bytes : List UInt8) (d : Disk) : PendingWrite → Disk
  | .sectors u cylinder targets _ _ =>
    writeSectors d cylinder.toNat u.head.toNat targets bytes
  | .format u cylinder gap3 filler _ =>
    d.formatTrack cylinder.toNat u.head.toNat (sectorIds bytes) gap3 filler

end PendingWrite

namespace Controller

variable (c : Controller)

theorem exists_phase_senseDriveStatus (unit : UInt8) :
    ∃ phase, c.senseDriveStatus unit = { c with phase } := by
  unfold senseDriveStatus
  dsimp only
  split <;> exact ⟨_, rfl⟩

theorem exists_phase_readData (deleted : Bool) (tr : Transfer) :
    ∃ phase, c.readData deleted tr = { c with phase } := by
  unfold readData
  dsimp only
  split
  · exact ⟨_, rfl⟩
  · split
    · exact ⟨_, rfl⟩
    · split <;> exact ⟨_, rfl⟩

theorem exists_phase_writeData (tr : Transfer) : ∃ phase, c.writeData tr = { c with phase } := by
  unfold writeData
  dsimp only
  split
  · exact ⟨_, rfl⟩
  · split
    · exact ⟨_, rfl⟩
    · split
      · exact ⟨_, rfl⟩
      · split <;> exact ⟨_, rfl⟩

theorem exists_phase_formatTrack (bytes : List UInt8) :
    ∃ phase, c.formatTrack bytes = { c with phase } := by
  unfold formatTrack
  dsimp only
  split
  · exact ⟨_, rfl⟩
  · split
    · exact ⟨_, rfl⟩
    · split <;> exact ⟨_, rfl⟩

theorem exists_nextId_readId (u : Unit) :
    ∃ nextId phase,
      c.readId u = { c.setDrive u.drive { c.drive u.drive with nextId } with phase } := by
  have hself : c.setDrive u.drive { c.drive u.drive with nextId := (c.drive u.drive).nextId } = c := by
    cases u.drive <;> rfl
  unfold readId
  dsimp only
  split
  · exact ⟨_, _, congrArg (fun c : Controller => c.finishNotReady u _) hself.symm⟩
  · split
    · exact ⟨_, _, congrArg (fun c : Controller => c.finishFailed u _ _) hself.symm⟩
    · exact ⟨_, _, rfl⟩

section Execute

variable {c : Controller} {bytes : List UInt8}

theorem execute_seek (h : Command.decode (parameter bytes 0) = .seek) :
    c.execute bytes = c.seek (.ofByte (parameter bytes 1)) (parameter bytes 2) := by
  unfold execute
  rw [h]

theorem execute_recalibrate (h : Command.decode (parameter bytes 0) = .recalibrate) :
    c.execute bytes = c.seek (.ofByte (parameter bytes 1)) 0 := by
  unfold execute
  rw [h]

theorem execute_senseInterruptStatus
    (h : Command.decode (parameter bytes 0) = .senseInterruptStatus) :
    c.execute bytes = c.senseInterruptStatus := by
  unfold execute
  rw [h]

theorem exists_nextId_execute (h : Command.decode (parameter bytes 0) = .readId) :
    ∃ n nextId phase, c.execute bytes =
      { c.setDrive n { c.drive n with nextId } with phase } := by
  have hc : c.execute bytes = c.readId (.ofByte (parameter bytes 1)) := by
    unfold execute
    rw [h]
  obtain ⟨nextId, phase, hread⟩ := c.exists_nextId_readId (.ofByte (parameter bytes 1))
  exact ⟨_, nextId, phase, hc.trans hread⟩

end Execute

/-- All commands but seeks, SENSE INTERRUPT STATUS and READ ID change the phase and the timings at
most. -/
theorem exists_phase_execute {bytes : List UInt8}
    (h : Command.decode (parameter bytes 0) ∉
      [.seek, .recalibrate, .senseInterruptStatus, .readId]) :
    ∃ phase timings, c.execute bytes = { c with phase, timings } := by
  unfold execute
  dsimp only
  cases hop : Command.decode (parameter bytes 0) with
  | seek | recalibrate | senseInterruptStatus | readId =>
    rw [hop] at h
    exact absurd (by decide) h
  | specify | invalid => exact ⟨_, _, rfl⟩
  | senseDriveStatus =>
    obtain ⟨phase, hc⟩ := c.exists_phase_senseDriveStatus (parameter bytes 1)
    exact ⟨phase, c.timings, hc⟩
  | readData =>
    obtain ⟨phase, hc⟩ := c.exists_phase_readData false (.ofBytes bytes)
    exact ⟨phase, c.timings, hc⟩
  | readDeletedData =>
    obtain ⟨phase, hc⟩ := c.exists_phase_readData true (.ofBytes bytes)
    exact ⟨phase, c.timings, hc⟩
  | writeData =>
    obtain ⟨phase, hc⟩ := c.exists_phase_writeData (.ofBytes bytes)
    exact ⟨phase, c.timings, hc⟩
  | formatTrack =>
    obtain ⟨phase, hc⟩ := c.exists_phase_formatTrack bytes
    exact ⟨phase, c.timings, hc⟩

theorem exists_phase_commit (pending : PendingWrite) (bytes : List UInt8) :
    ∃ phase, c.commit pending bytes =
      { c.mapDisk pending.drive (pending.onDisk bytes) with phase } := by
  cases pending with
  | sectors u cylinder targets eot n =>
    unfold commit
    dsimp only
    split <;> exact ⟨_, rfl⟩
  | format u cylinder gap3 filler n => exact ⟨_, rfl⟩

end Controller

end AmstradCpc.Floppy
