import AmstradCpc.Proofs.Floppy.Changes

/-!
# Write protection

A command that writes is refused where the disk is write protected, or where there is none. So when
the controller begins to wait for data, the disk in the drive may be written
(`Controller.writable_of_awaits_execute`). That is not looked at again when the data is complete: a
disk that the host puts in, or protects, while a write waits is written all the same
(`Controller.disk_send_data`).

As long as the host does neither while a write for the drive waits, no byte through the data register
changes a protected disk (`Controller.protected_unchanged`).
-/

namespace AmstradCpc.Floppy.Controller

/-- A write for the drive waits for data. -/
def Awaits (n : DriveNumber) (c : Controller) : Prop :=
  ∃ pending expected received, c.phase = .executionWrite pending expected received ∧
    pending.drive = n

/-- The drive has no protected disk. -/
def Writable (n : DriveNumber) (c : Controller) : Prop :=
  ∀ d, (c.drive n).disk = some d → d.writeProtected = false

section

variable {c : Controller} {n : DriveNumber}

theorem not_awaits_of_result {bytes : List UInt8} (h : c.phase = .result bytes) : ¬ c.Awaits n := by
  rintro ⟨_, _, _, hwrite, -⟩
  rw [h] at hwrite
  cases hwrite

theorem not_awaits_of_idle (h : c.phase = .idle) : ¬ c.Awaits n := by
  rintro ⟨_, _, _, hwrite, -⟩
  rw [h] at hwrite
  cases hwrite

theorem writable_of_disk {d : Disk} (hdisk : (c.drive n).disk = some d)
    (hd : d.writeProtected = false) : c.Writable n := by
  intro d' hd'
  obtain rfl : d = d' := Option.some.inj (hdisk.symm.trans hd')
  exact hd

theorem Writable.of_same {c' : Controller} (h : c.Writable n)
    (hdisk : (c'.drive n).disk = (c.drive n).disk) : c'.Writable n :=
  fun d hd => h d (hdisk.symm.trans hd)

/-! ## Commands -/

theorem not_awaits_senseDriveStatus (unit : UInt8) : ¬ (c.senseDriveStatus unit).Awaits n := by
  unfold senseDriveStatus
  dsimp only
  split <;> exact not_awaits_of_result rfl

theorem not_awaits_senseInterruptStatus : ¬ c.senseInterruptStatus.Awaits n := by
  unfold senseInterruptStatus
  split <;> exact not_awaits_of_result rfl

theorem not_awaits_readId (u : Unit) : ¬ (c.readId u).Awaits n := by
  unfold readId
  dsimp only
  split
  · exact not_awaits_of_result rfl
  · split <;> exact not_awaits_of_result rfl

theorem not_awaits_readData (deleted : Bool) (tr : Transfer) :
    ¬ (c.readData deleted tr).Awaits n := by
  unfold readData
  dsimp only
  split
  · exact not_awaits_of_result rfl
  · split
    · exact not_awaits_of_result rfl
    · split
      · exact not_awaits_of_result rfl
      · rintro ⟨_, _, _, hwrite, -⟩
        cases hwrite

theorem writable_of_awaits_writeData {tr : Transfer} (h : (c.writeData tr).Awaits n) :
    c.Writable n := by
  unfold writeData at h
  dsimp only at h
  split at h
  · exact absurd h (not_awaits_of_result rfl)
  · rename_i d hdisk
    split at h
    · exact absurd h (not_awaits_of_result rfl)
    · rename_i hprotected
      split at h
      · exact absurd h (not_awaits_of_result rfl)
      · split at h
        · exact absurd h (not_awaits_of_result rfl)
        · obtain ⟨_, _, _, hwrite, rfl⟩ := h
          cases hwrite
          exact writable_of_disk hdisk (Bool.eq_false_iff.mpr hprotected)

theorem writable_of_awaits_formatTrack {bytes : List UInt8} (h : (c.formatTrack bytes).Awaits n) :
    c.Writable n := by
  unfold formatTrack at h
  dsimp only at h
  split at h
  · exact absurd h (not_awaits_of_result rfl)
  · rename_i d hdisk
    split at h
    · exact absurd h (not_awaits_of_result rfl)
    · rename_i hprotected
      split at h
      · exact absurd h (not_awaits_of_result rfl)
      · obtain ⟨_, _, _, hwrite, rfl⟩ := h
        cases hwrite
        exact writable_of_disk hdisk (Bool.eq_false_iff.mpr hprotected)

/-- A command does not begin to wait for data unless the disk may be written. -/
theorem writable_of_awaits_execute {bytes : List UInt8} (h : (c.execute bytes).Awaits n) :
    c.Writable n := by
  unfold execute at h
  dsimp only at h
  split at h
  · exact absurd h (not_awaits_of_idle rfl)
  · exact absurd h (not_awaits_senseDriveStatus _)
  · exact absurd h (not_awaits_of_idle rfl)
  · exact absurd h (not_awaits_of_idle rfl)
  · exact absurd h not_awaits_senseInterruptStatus
  · exact absurd h (not_awaits_readData _ _)
  · exact absurd h (not_awaits_readData _ _)
  · exact writable_of_awaits_writeData h
  · exact absurd h (not_awaits_readId _)
  · exact writable_of_awaits_formatTrack h
  · exact absurd h (not_awaits_of_result rfl)

theorem writable_of_awaits_collect {bytes : List UInt8} (h : (c.collect bytes).Awaits n) :
    c.Writable n := by
  unfold collect at h
  split at h
  · obtain ⟨_, _, _, hwrite, -⟩ := h
    cases hwrite
  · exact writable_of_awaits_execute h

theorem not_awaits_commit (pending : PendingWrite) (bytes : List UInt8) :
    ¬ (c.commit pending bytes).Awaits n := by
  unfold commit
  split
  · dsimp only
    split <;> exact not_awaits_of_result rfl
  · exact not_awaits_of_result rfl

/-! ## Runs -/

/-- If a write for the drive waits, the disk may be written. -/
def Guarded (n : DriveNumber) (c : Controller) : Prop := c.Awaits n → c.Writable n

/-- A call that leaves the phase and the disk alone. -/
theorem Guarded.of_same {c' : Controller} (h : c.Guarded n) (hphase : c'.phase = c.phase)
    (hdisk : (c'.drive n).disk = (c.drive n).disk) : c'.Guarded n := by
  intro hawaits
  unfold Awaits at hawaits
  rw [hphase] at hawaits
  exact (h hawaits).of_same hdisk

theorem Guarded.write (h : c.Guarded n) (v : UInt8) : (c.write v).Guarded n := by
  intro hawaits
  cases hphase : c.phase with
  | idle =>
    rw [write_idle hphase] at hawaits ⊢
    have hwritable := writable_of_awaits_collect hawaits
    exact hwritable.of_same (disk_collect _ n _)
  | command bytes =>
    rw [write_command hphase] at hawaits ⊢
    have hwritable := writable_of_awaits_collect hawaits
    exact hwritable.of_same (disk_collect _ n _)
  | executionRead data result =>
    rw [write_executionRead hphase] at hawaits ⊢
    exact h hawaits
  | result bytes =>
    rw [write_result hphase] at hawaits ⊢
    exact h hawaits
  | executionWrite pending expected received =>
    rw [write_executionWrite hphase] at hawaits ⊢
    split at hawaits
    case isTrue hmore =>
      -- the same write goes on waiting
      rw [if_pos hmore]
      obtain ⟨_, _, _, hwrite, hdrive⟩ := hawaits
      cases hwrite
      exact (h ⟨pending, expected, received, hphase, hdrive⟩).of_same rfl
    case isFalse => exact absurd hawaits (not_awaits_commit _ _)

theorem awaits_of_awaits_read (h : c.read.2.Awaits n) : c.Awaits n := by
  obtain ⟨pending, expected, received, hwrite, hdrive⟩ := h
  unfold Controller.read at hwrite
  -- a phase that has something to read is followed by another such phase or by the idle one
  split at hwrite
  · dsimp only at hwrite
    split at hwrite <;> cases hwrite
  · cases hwrite
  · dsimp only at hwrite
    split at hwrite <;> cases hwrite
  · cases hwrite
  · exact ⟨pending, expected, received, hwrite, hdrive⟩

theorem Guarded.read (h : c.Guarded n) : c.read.2.Guarded n :=
  fun hawaits => (h (awaits_of_awaits_read hawaits)).of_same (c.disk_read n)

-- The phase stays as it is when the host exchanges a disk or changes one.
theorem Guarded.setDrive (h : c.Guarded n) {k : DriveNumber} {d : Drive}
    (hwritable : k = n → c.Awaits n → (c.setDrive k d).Writable n) : (c.setDrive k d).Guarded n := by
  by_cases hk : k = n
  · intro hawaits
    unfold Awaits at hawaits
    rw [phase_setDrive] at hawaits
    exact hwritable hk hawaits
  · have hne : n ≠ k := fun hn => hk hn.symm
    exact h.of_same (phase_setDrive k d c) (congrArg Drive.disk (drive_setDrive_ne hne d c))

theorem Guarded.act (h : c.Guarded n) {call : HostCall}
    (hwritable : call.Handles n → c.Awaits n → (call.act c).Writable n) :
    (call.act c).Guarded n := by
  cases call with
  | write v => exact h.write v
  | read => exact h.read
  | reset => exact fun hawaits => absurd hawaits (not_awaits_of_idle rfl)
  | insert k disk => exact h.setDrive hwritable
  | eject k => exact h.setDrive hwritable
  | mapDisk k f => exact h.setDrive hwritable
  | setCylinder k cylinder => exact h.of_same (phase_setDrive k _ c) (disk_setDrive k n rfl)
  | setMotor on => exact h.of_same rfl rfl

/-- While a write for the drive waits, the host puts no protected disk into it and protects none. -/
def LeavesWritable (n : DriveNumber) : List HostCall → Controller → Prop
  | [], _ => True
  | call :: calls, c =>
    (call.Handles n → c.Awaits n → (call.act c).Writable n) ∧ LeavesWritable n calls (call.act c)

theorem Guarded.run {calls : List HostCall} (h : c.Guarded n) (hcalls : LeavesWritable n calls c) :
    (c.run calls).Guarded n := by
  induction calls generalizing c with
  | nil => exact h
  | cons call calls ih =>
    obtain ⟨hcall, hlater⟩ := hcalls
    exact ih (h.act hcall) hlater

theorem awaits_of_completed? {v : UInt8} {pending : PendingWrite} {bytes : List UInt8}
    (h : c.completed? v = some (pending, bytes)) : c.Awaits pending.drive := by
  unfold completed? at h
  split at h
  case h_1 pending' expected received hphase =>
    split at h
    case isTrue => cases h
    case isFalse =>
      cases h
      exact ⟨_, expected, received, hphase, rfl⟩
  case h_2 => cases h

end

/-- A protected disk is not changed through the data register, unless it came into the drive, or was
protected there, while a write for that drive waited. -/
theorem protected_unchanged {n : DriveNumber} {calls : List HostCall}
    (hcalls : LeavesWritable n calls {}) {call : HostCall} (hcall : call.IsAccess) {d : Disk}
    (hdisk : ((run calls {}).drive n).disk = some d) (hprotected : d.writeProtected = true) :
    ((call.act (run calls {})).drive n).disk = some d := by
  have hinitial : Guarded n {} := fun hawaits => absurd hawaits (not_awaits_of_idle rfl)
  have hguarded := hinitial.run hcalls
  have hnot : ¬ call.Handles n := by
    cases call <;> first | exact id | exact hcall.elim
  rcases (run calls {}).disk_act n hnot with hsame | ⟨v, pending, bytes, -, hcompleted, rfl, -⟩
  · exact hsame.trans hdisk
  · have hwritable := hguarded (awaits_of_completed? hcompleted) d hdisk
    rw [hprotected] at hwritable
    cases hwritable

/-- A protected blank disk, on which a track is to be formatted. -/
def protectedBlank : Disk := { Disk.unformatted 1 1 with writeProtected := true }

theorem protected_unchanged_refused :
    let calls : List HostCall := [.insert .a (.unformatted 1 1),
      .mapDisk .a fun d => { d with writeProtected := true },
      .write 0x4D, .write 0, .write 2, .write 1, .write 0x4E]
    (((HostCall.write 0xE5).act (run calls {})).drive .a).disk = some protectedBlank := by
  intro calls
  have hidle (c : Controller) (h : c.phase = .idle) : ¬ c.Awaits .a := not_awaits_of_idle h
  have hcalls : LeavesWritable .a calls {} :=
    ⟨fun _ h => absurd h (hidle _ rfl), fun _ h => absurd h (hidle _ rfl), False.elim, False.elim,
      False.elim, False.elim, False.elim, trivial⟩
  have haccess : (HostCall.write 0xE5).IsAccess := trivial
  exact protected_unchanged hcalls haccess rfl rfl

-- The disk is protected when one byte of four is still to come, and changes all the same.
example :
    let calls : List HostCall := [.insert .a (.unformatted 1 1), .write 0x4D, .write 0, .write 2,
      .write 1, .write 0x4E, .write 0xE5, .write 0, .write 0, .write 1,
      .mapDisk .a fun d => { d with writeProtected := true }, .write 2]
    (((run calls {}).drive .a).disk.map fun d => (d.writeProtected, d.modified)) =
      some (true, true) := by
  decide

end AmstradCpc.Floppy.Controller
