import AmstradCpc.Proofs.Floppy.Protection
import AmstradCpc.Proofs.Floppy.Seeks

/-!
# Commands and the drives they name

A byte through the data register completes a command or the data of a write, or it is one of the
others and changes the phase at most (`Controller.write_cases`). `Controller.commandLog` has the
commands that a run carries out.

Most commands have a unit byte, and its bit 0 is the drive that they name. A command changes no
other drive, and the write that it may leave behind is for that drive too. So a run of commands that name
one drive leaves the other as it was: its disk, the cylinder of its head and the sector that READ ID
reports next (`Controller.drive_run_of_not_named`).
-/

namespace AmstradCpc.Floppy

/-- The drive that a command names. Three kinds of command have no unit byte. -/
def namedDrive? (bytes : List UInt8) : Option DriveNumber :=
  match Command.decode (parameter bytes 0) with
  | .specify | .senseInterruptStatus | .invalid => none
  | _ => some (.ofByte (parameter bytes 1))

/-- The host changes the drive behind the back of the controller, or resets it. -/
def HostCall.Reaches (n : DriveNumber) : HostCall → Prop
  | .write _ | .read | .setMotor _ => False
  | .reset => True
  | .insert k _ | .eject k | .mapDisk k _ | .setCylinder k _ => k = n

instance (n : DriveNumber) : DecidablePred (HostCall.Reaches n)
  | .write _ | .read | .setMotor _ => inferInstanceAs (Decidable False)
  | .reset => inferInstanceAs (Decidable True)
  | .insert k _ | .eject k | .mapDisk k _ | .setCylinder k _ => inferInstanceAs (Decidable (k = n))

namespace Controller

/-- The write that waits for data. -/
def waiting? (c : Controller) : Option PendingWrite :=
  match c.phase with
  | .executionWrite pending _ _ => some pending
  | _ => none

/-- What some calls lead to, one after another, by what each of them leads to. -/
def log {α : Type} (event? : Controller → HostCall → Option α) :
    List HostCall → Controller → List α
  | [], _ => []
  | call :: calls, c => (event? c call).toList ++ log event? calls (call.act c)

theorem forall_mem_log_cons {α : Type} {event? : Controller → HostCall → Option α} {P : α → Prop}
    {call : HostCall} {calls : List HostCall} {c : Controller} :
    (∀ e ∈ log event? (call :: calls) c, P e) ↔
      (∀ e, event? c call = some e → P e) ∧ ∀ e ∈ log event? calls (call.act c), P e := by
  rw [log, List.forall_mem_append]
  simp only [Option.mem_toList]

/-- The command that a call carries out. -/
def carriedOut? (c : Controller) : HostCall → Option (List UInt8)
  | .write v => c.command? v
  | _ => none

/-- The commands that a run carries out. One that is broken off is not among them. -/
def commandLog : List HostCall → Controller → List (List UInt8) := log carriedOut?

/-! ## The write that waits -/

section Waiting

variable {c : Controller} {p : PendingWrite}

theorem awaits_of_waiting? (h : c.waiting? = some p) : c.Awaits p.drive := by
  unfold waiting? at h
  split at h
  case h_1 pending expected received hphase =>
    cases h
    exact ⟨_, expected, received, hphase, rfl⟩
  case h_2 => cases h

theorem waiting?_of_phase {c' : Controller} (h : c'.phase = c.phase) :
    c'.waiting? = c.waiting? := by
  unfold waiting?
  rw [h]

theorem waiting?_eq_none_of_not_awaits (h : ∀ n, ¬ c.Awaits n) : c.waiting? = none := by
  cases hp : c.waiting? with
  | none => rfl
  | some p => exact absurd (awaits_of_waiting? hp) (h p.drive)

theorem waiting?_writeData {tr : Transfer} (h : (c.writeData tr).waiting? = some p) :
    ∃ cylinder targets eot n, p = .sectors tr.unit cylinder targets eot n := by
  unfold writeData at h
  dsimp only at h
  split at h
  · cases h
  · split at h
    · cases h
    · split at h
      · cases h
      · split at h <;> cases h
        exact ⟨_, _, _, _, rfl⟩

theorem waiting?_formatTrack {bytes : List UInt8} (h : (c.formatTrack bytes).waiting? = some p) :
    ∃ cylinder gap3 filler n, p = .format (.ofByte (parameter bytes 1)) cylinder gap3 filler n := by
  unfold formatTrack at h
  dsimp only at h
  split at h
  · cases h
  · split at h
    · cases h
    · split at h <;> cases h
      exact ⟨_, _, _, _, rfl⟩

/-- Two commands leave a write behind, and it is for the unit that they name. -/
theorem waiting?_execute {bytes : List UInt8} (h : (c.execute bytes).waiting? = some p) :
    (Command.decode (parameter bytes 0) = .writeData ∧
      ∃ cylinder targets eot n, p = .sectors (.ofByte (parameter bytes 1)) cylinder targets eot n) ∨
    (Command.decode (parameter bytes 0) = .formatTrack ∧ ∃ cylinder gap3 filler n,
      p = .format (.ofByte (parameter bytes 1)) cylinder gap3 filler n) := by
  have hawaits := awaits_of_waiting? h
  unfold execute at h hawaits
  dsimp only at h hawaits
  cases hop : Command.decode (parameter bytes 0) <;> rw [hop] at h hawaits <;>
    dsimp only at h hawaits
  case writeData => exact .inl ⟨rfl, waiting?_writeData h⟩
  case formatTrack => exact .inr ⟨rfl, waiting?_formatTrack h⟩
  case specify | recalibrate | seek => exact absurd hawaits (not_awaits_of_idle rfl)
  case senseDriveStatus => exact absurd hawaits (not_awaits_senseDriveStatus _)
  case senseInterruptStatus => exact absurd hawaits not_awaits_senseInterruptStatus
  case readData | readDeletedData => exact absurd hawaits (not_awaits_readData _ _)
  case readId => exact absurd hawaits (not_awaits_readId _)
  case invalid => exact absurd hawaits (not_awaits_of_result rfl)

theorem namedDrive?_of_waiting?_execute {bytes : List UInt8}
    (h : (c.execute bytes).waiting? = some p) : namedDrive? bytes = some p.drive := by
  unfold namedDrive?
  rcases waiting?_execute h with ⟨hop, _, _, _, _, rfl⟩ | ⟨hop, _, _, _, _, rfl⟩ <;>
    rw [hop] <;> rfl

end Waiting

/-! ## One byte -/

/-- A byte completes a command, or the data of a write, or it does neither and changes the phase at
most. -/
theorem write_cases (c : Controller) (v : UInt8) :
    (∃ bytes, c.command? v = some bytes ∧
      c.write v = execute bytes { c with phase := .idle }) ∨
    (c.command? v = none ∧ ∃ pending bytes, c.completed? v = some (pending, bytes) ∧
      c.waiting? = some pending ∧ c.write v = commit pending bytes { c with phase := .idle }) ∨
    (c.command? v = none ∧ c.write v = { c with phase := (c.write v).phase } ∧
      (c.write v).waiting? = c.waiting?) := by
  have hcollect (bytes : List UInt8)
      (hcommand : c.command? v =
        if bytes.length < (Command.decode (parameter bytes 0)).length then none else some bytes)
      (hwrite : c.write v = collect bytes { c with phase := .idle }) (hnone : c.waiting? = none) :
      (∃ bytes, c.command? v = some bytes ∧ c.write v = execute bytes { c with phase := .idle }) ∨
      (c.command? v = none ∧ c.write v = { c with phase := (c.write v).phase } ∧
        (c.write v).waiting? = c.waiting?) := by
    rw [hcommand, hwrite, hnone]
    unfold collect
    split
    · exact .inr ⟨rfl, rfl, rfl⟩
    · exact .inl ⟨bytes, rfl, rfl⟩
  cases hphase : c.phase with
  | idle =>
    refine (hcollect [v] ?_ (write_idle hphase v) ?_).imp_right .inr
    · unfold command?
      rw [hphase]
    · unfold waiting?
      rw [hphase]
  | command bytes =>
    refine (hcollect (bytes ++ [v]) ?_ (write_command hphase v) ?_).imp_right .inr
    · unfold command?
      rw [hphase]
    · unfold waiting?
      rw [hphase]
  | executionRead data result =>
    have hcommand : c.command? v = none := by
      unfold command?
      rw [hphase]
    rw [write_executionRead hphase]
    exact .inr (.inr ⟨hcommand, rfl, rfl⟩)
  | result bytes =>
    have hcommand : c.command? v = none := by
      unfold command?
      rw [hphase]
    rw [write_result hphase]
    exact .inr (.inr ⟨hcommand, rfl, rfl⟩)
  | executionWrite pending expected received =>
    have hcommand : c.command? v = none := by
      unfold command?
      rw [hphase]
    have hwaiting : c.waiting? = some pending := by
      unfold waiting?
      rw [hphase]
    have hcompleted : c.completed? v =
        if received.size + 1 < expected then none else some (pending, received.toList ++ [v]) := by
      unfold completed?
      rw [hphase]
    rw [write_executionWrite hphase, hcompleted]
    split
    · exact .inr (.inr ⟨hcommand, rfl, hwaiting.symm⟩)
    · exact .inr (.inl ⟨hcommand, pending, _, rfl, hwaiting, rfl⟩)

/-! ## Drives -/

section Drives

variable {c : Controller} {n : DriveNumber}

theorem drive_with_phase (c : Controller) (phase : Phase) (n : DriveNumber) :
    { c with phase }.drive n = c.drive n := by
  cases n <;> rfl

theorem execute_readId {bytes : List UInt8} (h : Command.decode (parameter bytes 0) = .readId) :
    c.execute bytes = c.readId (.ofByte (parameter bytes 1)) := by
  unfold execute
  rw [h]

/-- Seeks and READ ID alone change a drive at once. -/
theorem drive_execute {bytes : List UInt8}
    (h : Command.decode (parameter bytes 0) ∉ [.seek, .recalibrate, .readId]) :
    (c.execute bytes).drive n = c.drive n := by
  by_cases hop : Command.decode (parameter bytes 0) = .senseInterruptStatus
  · rw [execute_senseInterruptStatus hop]
    unfold senseInterruptStatus
    split <;> cases n <;> rfl
  · have hrest : Command.decode (parameter bytes 0) ∉
        [.seek, .recalibrate, .senseInterruptStatus, .readId] := by
      simpa [hop] using h
    obtain ⟨phase, timings, hc⟩ := c.exists_phase_execute hrest
    rw [hc]
    cases n <;> rfl

theorem drive_seek_of_ne {u : Unit} (h : n ≠ u.drive) (cylinder : UInt8) :
    (c.seek u cylinder).drive n = c.drive n := by
  refine Eq.trans ?_ (drive_setDrive_ne h { c.drive u.drive with cylinder } c)
  cases n <;> rfl

theorem drive_readId_of_ne {u : Unit} (h : n ≠ u.drive) : (c.readId u).drive n = c.drive n := by
  obtain ⟨nextId, phase, hc⟩ := c.exists_nextId_readId u
  rw [hc, drive_with_phase, drive_setDrive_ne h]

/-- A command changes no drive but the one it names. -/
theorem drive_execute_of_not_named {bytes : List UInt8} (h : namedDrive? bytes ≠ some n) :
    (c.execute bytes).drive n = c.drive n := by
  have hother (hnamed : namedDrive? bytes = some (.ofByte (parameter bytes 1))) :
      n ≠ (Unit.ofByte (parameter bytes 1)).drive := fun hn => h (hn ▸ hnamed)
  by_cases hone : Command.decode (parameter bytes 0) ∈ [.seek, .recalibrate, .readId]
  · simp only [List.mem_cons, List.not_mem_nil, or_false] at hone
    rcases hone with hop | hop | hop
    · rw [execute_seek hop]
      exact drive_seek_of_ne (hother (by unfold namedDrive?; rw [hop])) _
    · rw [execute_recalibrate hop]
      exact drive_seek_of_ne (hother (by unfold namedDrive?; rw [hop])) _
    · rw [execute_readId hop]
      exact drive_readId_of_ne (hother (by unfold namedDrive?; rw [hop]))
  · exact drive_execute hone

theorem drive_commit (pending : PendingWrite) (bytes : List UInt8) :
    (c.commit pending bytes).drive n =
      if n = pending.drive then
        { c.drive n with disk := (c.drive n).disk.map (pending.onDisk bytes) }
      else c.drive n := by
  obtain ⟨phase, hc⟩ := c.exists_phase_commit pending bytes
  rw [hc, drive_with_phase]
  unfold mapDisk
  rw [drive_setDrive]
  split
  case isTrue hn => rw [hn]
  case isFalse => rfl

theorem waiting?_commit (pending : PendingWrite) (bytes : List UInt8) :
    (c.commit pending bytes).waiting? = none :=
  waiting?_eq_none_of_not_awaits fun _ => not_awaits_commit pending bytes

theorem drive_read : c.read.2.drive n = c.drive n := by
  unfold read
  split <;> rfl

end Drives

/-! ## Runs -/

/-- No write waits for the drive. -/
def Apart (n : DriveNumber) (c : Controller) : Prop := ∀ p, c.waiting? = some p → p.drive ≠ n

section Apart

variable {c : Controller} {n : DriveNumber}

theorem apart_of_idle (h : c.phase = .idle) : c.Apart n :=
  fun _ hp => absurd (awaits_of_waiting? hp) (not_awaits_of_idle h)

theorem Apart.write (h : c.Apart n) {v : UInt8}
    (hcommand : ∀ bytes, c.command? v = some bytes → namedDrive? bytes ≠ some n) :
    (c.write v).drive n = c.drive n ∧ (c.write v).Apart n := by
  rcases c.write_cases v with ⟨bytes, hbytes, hc⟩ | ⟨-, pending, bytes, -, hp, hc⟩ | ⟨-, hc, hp⟩
  · have hnamed := hcommand bytes hbytes
    refine ⟨?_, fun p hp hdrive => hnamed ?_⟩
    · rw [hc, drive_execute_of_not_named hnamed, drive_with_phase]
    · rw [hc] at hp
      rw [namedDrive?_of_waiting?_execute hp, hdrive]
  · rw [hc, drive_commit, if_neg (h pending hp).symm, drive_with_phase]
    refine ⟨rfl, fun _ hnone => ?_⟩
    rw [waiting?_commit] at hnone
    cases hnone
  · refine ⟨?_, fun p hwaiting => h p (hp.symm.trans hwaiting)⟩
    rw [hc, drive_with_phase]

theorem waiting?_read {p : PendingWrite} (h : c.read.2.waiting? = some p) :
    c.waiting? = some p := by
  have hawaits := awaits_of_awaits_read (awaits_of_waiting? h)
  obtain ⟨pending, expected, received, hphase, -⟩ := hawaits
  rw [read_executionWrite hphase] at h
  exact h

-- What the host does to other drives, whatever waits.
theorem Apart.setDrive (h : c.Apart n) {k : DriveNumber} (hk : k ≠ n) (d : Drive) :
    (c.setDrive k d).drive n = c.drive n ∧ (c.setDrive k d).Apart n := by
  refine ⟨drive_setDrive_ne (Ne.symm hk) d c, fun p hp => h p ?_⟩
  rw [← hp]
  exact (waiting?_of_phase (phase_setDrive k d c)).symm

/-- A call keeps the drive, and writes away from it, unless it reaches it or carries out a command
that names it. -/
theorem Apart.act (h : c.Apart n) {call : HostCall} (hcall : ¬ call.Reaches n)
    (hcommand : ∀ bytes, c.carriedOut? call = some bytes → namedDrive? bytes ≠ some n) :
    (call.act c).drive n = c.drive n ∧ (call.act c).Apart n := by
  cases call with
  | write v => exact h.write hcommand
  | read => exact ⟨drive_read, fun p hp => h p (waiting?_read hp)⟩
  | reset => exact absurd trivial hcall
  | insert k disk => exact h.setDrive hcall _
  | eject k => exact h.setDrive hcall _
  | mapDisk k f => exact h.setDrive hcall _
  | setCylinder k cylinder => exact h.setDrive hcall _
  | setMotor on => exact ⟨by cases n <;> rfl, h⟩

end Apart

/-- Whatever bytes go through the data register of an idle controller, complete commands or not,
a drive that no command names keeps its disk, the place of its head and the sector that is reported
next. Meanwhile the host can do as it likes with the other drive. -/
theorem drive_run_of_not_named {c : Controller} (hidle : c.phase = .idle) {n : DriveNumber}
    {calls : List HostCall} (hcalls : ∀ call ∈ calls, ¬ call.Reaches n)
    (hcommands : ∀ bytes ∈ commandLog calls c, namedDrive? bytes ≠ some n) :
    (c.run calls).drive n = c.drive n := by
  suffices hrun : ∀ c : Controller, c.Apart n →
      (∀ bytes ∈ commandLog calls c, namedDrive? bytes ≠ some n) →
      (c.run calls).drive n = c.drive n from hrun c (apart_of_idle hidle) hcommands
  clear hidle hcommands c
  induction calls with
  | nil => exact fun c _ _ => rfl
  | cons call calls ih =>
    intro c hapart hcommands
    obtain ⟨hfirst, hrest⟩ := forall_mem_log_cons.mp hcommands
    obtain ⟨hdrive, hapart⟩ := hapart.act (hcalls call List.mem_cons_self) hfirst
    exact (ih (fun call hcall => hcalls call (List.mem_cons_of_mem _ hcall)) _ hapart hrest).trans
      hdrive

/-- Drive A is formatted and its head moved, between commands that name no drive; then a command
that names drive B is broken off. -/
def formattingA : List HostCall :=
  [0x4D, 0x00, 0x00, 0x01, 0x4E, 0xE5, 0x00, 0x00, 0x01, 0x00].map .write ++
    List.replicate 7 .read ++
    [0x1F].map .write ++ [.read] ++ [0x0F, 0x00, 0x27].map .write ++ [0x0D, 0x01, 0x02].map .write

theorem drive_run_of_not_named_brokenOff :
    let c : Controller := {
      driveA := { disk := some (.unformatted 1 1) }
      driveB := { disk := some (.unformatted 2 1), cylinder := 1, nextId := 3 } }
    (∀ bytes ∈ commandLog formattingA c, namedDrive? bytes ≠ some .b) ∧
      (c.run formattingA).phase = .command [0x0D, 0x01, 0x02] ∧
      (c.run formattingA).driveA.cylinder = 39 ∧
      (c.run formattingA).drive .b =
        { disk := some (.unformatted 2 1), cylinder := 1, nextId := 3 } := by
  intro c
  have hcalls : ∀ call ∈ formattingA, ¬ call.Reaches .b := by decide
  have hcommands : ∀ bytes ∈ commandLog formattingA c, namedDrive? bytes ≠ some .b := by decide
  exact ⟨hcommands, by decide, by decide, drive_run_of_not_named rfl hcalls hcommands⟩

end Controller

end AmstradCpc.Floppy
