import AmstradCpc.Proofs.Floppy.Buffers
import AmstradCpc.Proofs.Floppy.Outcomes

/-!
# What changes a disk

Among the bytes that go through the data register only one can change a disk: the last byte of the
data of a write, and only the disk in the drive that the write is for (`Controller.disk_act`).
What it then does to the disk has been decided when the command came (`PendingWrite.onDisk`).

The host's other calls on a drive exchange its disk or change it in place; they do not touch the
phase, so a write that waits goes on waiting.
-/

namespace AmstradCpc.Floppy

namespace HostCall

/-- The call is on the data register. -/
def IsAccess : HostCall → Prop
  | .write _ | .read => True
  | _ => False

/-- The call exchanges the disk in a drive or changes it in place. -/
def Handles (n : DriveNumber) : HostCall → Prop
  | .insert k _ | .eject k | .mapDisk k _ => k = n
  | _ => False

end HostCall

namespace Controller

/-! ## Drives -/

section Drives

variable {c : Controller} {n k : DriveNumber}

theorem drive_setDrive_self (n : DriveNumber) (d : Drive) (c : Controller) :
    (c.setDrive n d).drive n = d :=
  (drive_setDrive n n d c).trans (if_pos rfl)

theorem drive_setDrive_ne (h : k ≠ n) (d : Drive) (c : Controller) :
    (c.setDrive n d).drive k = c.drive k :=
  (drive_setDrive n k d c).trans (if_neg h)

-- The head may move while the disk stays.
theorem disk_setDrive (n k : DriveNumber) {d : Drive} (h : d.disk = (c.drive n).disk) :
    ((c.setDrive n d).drive k).disk = (c.drive k).disk := by
  by_cases hk : k = n
  · subst hk
    rw [drive_setDrive_self, h]
  · rw [drive_setDrive_ne hk]

theorem disk_mapDisk (n k : DriveNumber) (f : Disk → Disk) (c : Controller) :
    ((c.mapDisk n f).drive k).disk =
      if k = n then (c.drive k).disk.map f else (c.drive k).disk := by
  unfold mapDisk
  by_cases hk : k = n
  · subst hk
    rw [drive_setDrive_self, if_pos rfl]
  · rw [drive_setDrive_ne hk, if_neg hk]

end Drives

/-! ## Commands -/

section Execute

variable (c : Controller) (k : DriveNumber)

/-- A command leaves the disks as they are; a write waits for its data first. -/
theorem disk_execute (bytes : List UInt8) :
    ((c.execute bytes).drive k).disk = (c.drive k).disk := by
  cases hop : Command.decode (parameter bytes 0) with
  | seek =>
    rw [execute_seek hop]
    exact disk_setDrive _ k rfl
  | recalibrate =>
    rw [execute_recalibrate hop]
    exact disk_setDrive _ k rfl
  | senseInterruptStatus =>
    rw [execute_senseInterruptStatus hop]
    unfold senseInterruptStatus
    split <;> rfl
  | readId =>
    obtain ⟨n, nextId, phase, hc⟩ := c.exists_nextId_execute hop
    rw [hc]
    exact disk_setDrive n k rfl
  | specify | senseDriveStatus | readData | readDeletedData | writeData | formatTrack | invalid =>
    obtain ⟨phase, timings, hc⟩ := c.exists_phase_execute (by rw [hop]; decide)
    rw [hc]
    rfl

theorem disk_collect (bytes : List UInt8) :
    ((c.collect bytes).drive k).disk = (c.drive k).disk := by
  unfold collect
  split
  · rfl
  · exact c.disk_execute k bytes

theorem disk_commit (pending : PendingWrite) (bytes : List UInt8) :
    ((c.commit pending bytes).drive k).disk =
      if k = pending.drive then (c.drive k).disk.map (pending.onDisk bytes)
      else (c.drive k).disk := by
  obtain ⟨phase, hc⟩ := c.exists_phase_commit pending bytes
  rw [hc]
  exact disk_mapDisk pending.drive k (pending.onDisk bytes) c

end Execute

/-! ## Calls -/

/-- The write that a byte completes, with all its data. -/
def completed? (c : Controller) (v : UInt8) : Option (PendingWrite × List UInt8) :=
  match c.phase with
  | .executionWrite pending expected received =>
    if received.size + 1 < expected then none else some (pending, received.toList ++ [v])
  | _ => none

section Calls

variable (c : Controller) (k : DriveNumber)

theorem disk_write_of_none {v : UInt8} (h : c.completed? v = none) :
    ((c.write v).drive k).disk = (c.drive k).disk := by
  cases hphase : c.phase with
  | idle =>
    rw [write_idle hphase]
    exact disk_collect _ k _
  | command bytes =>
    rw [write_command hphase]
    exact disk_collect _ k _
  | executionRead data result => rw [write_executionRead hphase]
  | result bytes => rw [write_result hphase]
  | executionWrite pending expected received =>
    rw [write_executionWrite hphase]
    by_cases hmore : received.size + 1 < expected
    · rw [if_pos hmore]
      rfl
    · unfold completed? at h
      rw [hphase] at h
      dsimp only at h
      rw [if_neg hmore] at h
      cases h

theorem disk_write_of_some {v : UInt8} {pending : PendingWrite} {bytes : List UInt8}
    (h : c.completed? v = some (pending, bytes)) :
    ((c.write v).drive k).disk =
      if k = pending.drive then (c.drive k).disk.map (pending.onDisk bytes)
      else (c.drive k).disk := by
  unfold completed? at h
  split at h
  case h_1 pending' expected received hphase =>
    split at h
    case isTrue => cases h
    case isFalse hcomplete =>
      cases h
      rw [write_executionWrite hphase, if_neg hcomplete]
      exact disk_commit _ k pending _
  case h_2 => cases h

theorem disk_read : (c.read.2.drive k).disk = (c.drive k).disk := by
  unfold read
  split <;> rfl

/-- A call that does not handle a drive changes its disk only by completing a write for it. -/
theorem disk_act {call : HostCall} (h : ¬ call.Handles k) :
    ((call.act c).drive k).disk = (c.drive k).disk ∨
      ∃ v pending bytes, call = .write v ∧ c.completed? v = some (pending, bytes) ∧
        pending.drive = k ∧
        ((call.act c).drive k).disk = (c.drive k).disk.map (pending.onDisk bytes) := by
  cases call with
  | write v =>
    cases hcompleted : c.completed? v with
    | none => exact .inl (c.disk_write_of_none k hcompleted)
    | some complete =>
      obtain ⟨pending, bytes⟩ := complete
      have hdisk := c.disk_write_of_some k hcompleted
      by_cases hdrive : k = pending.drive
      · rw [if_pos hdrive] at hdisk
        exact .inr ⟨v, pending, bytes, rfl, hcompleted, hdrive.symm, hdisk⟩
      · rw [if_neg hdrive] at hdisk
        exact .inl hdisk
  | read => exact .inl (c.disk_read k)
  | reset => cases k <;> exact .inl rfl
  | insert n disk =>
    have hne : k ≠ n := fun hk => h hk.symm
    exact .inl (congrArg Drive.disk (drive_setDrive_ne hne _ c))
  | eject n =>
    have hne : k ≠ n := fun hk => h hk.symm
    exact .inl (congrArg Drive.disk (drive_setDrive_ne hne _ c))
  | mapDisk n f =>
    have hne : k ≠ n := fun hk => h hk.symm
    exact .inl (congrArg Drive.disk (drive_setDrive_ne hne _ c))
  | setCylinder n cylinder => exact .inl (disk_setDrive n k rfl)
  | setMotor on => exact .inl rfl

/-- The data of a write is carried out on whatever disk is there then. Whether it is protected is not
asked again. -/
theorem disk_send_data {pending : PendingWrite} {expected : Nat} {received : Array UInt8}
    (h : c.phase = .executionWrite pending expected received) {bytes : List UInt8}
    (hbytes : 0 < bytes.length) (hlength : received.size + bytes.length = expected) :
    ((c.send bytes).drive pending.drive).disk =
      (c.drive pending.drive).disk.map (pending.onDisk (received.toList ++ bytes)) := by
  rw [send_data h hbytes hlength, disk_commit, if_pos rfl]
  rfl

end Calls

/-- A run keeps what every write keeps of the disk in a drive that the host does not handle. -/
theorem run_keeps {P : Disk → Prop} {n : DriveNumber}
    (hwrite : ∀ d, P d → ∀ (pending : PendingWrite) (bytes : List UInt8), P (pending.onDisk bytes d))
    {calls : List HostCall} (hcalls : ∀ call ∈ calls, ¬ call.Handles n) {c : Controller} {d : Disk}
    (hdisk : (c.drive n).disk = some d) (hd : P d) :
    ∃ d', ((c.run calls).drive n).disk = some d' ∧ P d' := by
  induction calls generalizing c d with
  | nil => exact ⟨d, hdisk, hd⟩
  | cons call calls ih =>
    have hlater : ∀ call ∈ calls, ¬ call.Handles n :=
      fun call hcall => hcalls call (List.mem_cons_of_mem _ hcall)
    rcases c.disk_act n (hcalls call List.mem_cons_self) with
      hsame | ⟨_, pending, bytes, -, -, -, hchanged⟩
    · exact ih hlater (hsame.trans hdisk) hd
    · rw [hdisk] at hchanged
      exact ih hlater hchanged (hwrite d hd pending bytes)

end Controller

end AmstradCpc.Floppy
