import AmstradCpc.Floppy.Run

/-!
# Floppy disk controller

The 765 controller as the machine sees it: a status register, and a data register through which
commands, data and results pass. A command is collected byte by byte, carried out at once when it is
complete, and may then move data in an execution phase before its result is read. `Phase` holds what
each phase has in hand, so no phase can meet the leftovers of another.

Seeks take no time; their completion waits for SENSE INTERRUPT STATUS.
-/

namespace AmstradCpc.Floppy

structure Drive where
  disk : Option Disk := none
  /-- The cylinder the head is at. -/
  cylinder : UInt8 := 0
  /-- How many sectors READ ID has gone past. -/
  nextId : Nat := 0
  deriving DecidableEq, Repr, Inhabited

/-- A write that waits for its data. -/
inductive PendingWrite
  | sectors (unit : Unit) (cylinder : UInt8) (targets : List SectorId) (eot n : UInt8)
  | format (unit : Unit) (cylinder gap3 filler n : UInt8)
  deriving DecidableEq, Repr, Inhabited

inductive Phase
  | idle
  /-- The bytes of a command so far. -/
  | command (bytes : List UInt8)
  /-- Data to be read, and the result to follow it. -/
  | executionRead (data result : List UInt8)
  /-- Data written so far, of as many bytes as expected. -/
  | executionWrite (pending : PendingWrite) (expected : Nat) (received : Array UInt8)
  | result (bytes : List UInt8)
  deriving DecidableEq, Repr, Inhabited

namespace Phase

/-- The main status register. -/
def status : Phase → UInt8
  | .idle => 0x80
  | .command _ => 0x90
  | .executionRead _ _ => 0xF0
  | .executionWrite _ _ _ => 0xB0
  | .result _ => 0xD0

def name : Phase → String
  | .idle => "Idle"
  | .command _ => "Command"
  | .executionRead _ _ => "ExecutionRead"
  | .executionWrite _ _ _ => "ExecutionWrite"
  | .result _ => "Result"

end Phase

/-- Step rate, head unload and head load times, and whether the CPU moves the data. They are stored
and have no effect. -/
structure Timings where
  stepRate : UInt8 := 0
  headUnload : UInt8 := 0
  headLoad : UInt8 := 0
  nonDma : Bool := true
  deriving DecidableEq, Repr, Inhabited

/-- The drive with its head on cylinder 0. -/
def Drive.home (d : Drive) : Drive := { d with cylinder := 0, nextId := 0 }

structure Controller where
  phase : Phase := .idle
  /-- Completed seeks that have not been sensed: status byte and cylinder. -/
  seeks : List (UInt8 × UInt8) := []
  driveA : Drive := {}
  driveB : Drive := {}
  motor : Bool := false
  /-- The interrupt line, which the machine does not connect. -/
  interrupt : Bool := false
  timings : Timings := {}
  deriving DecidableEq, Repr, Inhabited

namespace Controller

/-! ## The host's side -/

/-- Abandons whatever is under way. Disks stay in their drives; the heads return to cylinder 0. -/
def reset (c : Controller) : Controller :=
  { driveA := c.driveA.home, driveB := c.driveB.home }

def drive (c : Controller) : DriveNumber → Drive
  | .a => c.driveA
  | .b => c.driveB

def setDrive (n : DriveNumber) (d : Drive) (c : Controller) : Controller :=
  match n with
  | .a => { c with driveA := d }
  | .b => { c with driveB := d }

theorem drive_setDrive (n k : DriveNumber) (d : Drive) (c : Controller) :
    (c.setDrive n d).drive k = if k = n then d else c.drive k := by
  cases n <;> cases k <;> rfl

def insert (n : DriveNumber) (disk : Disk) (c : Controller) : Controller :=
  c.setDrive n { c.drive n with disk := some disk, nextId := 0 }

/-- Takes the disk out of a drive. -/
def eject (n : DriveNumber) (c : Controller) : Option Disk × Controller :=
  ((c.drive n).disk, c.setDrive n { c.drive n with disk := none })

/-- Changes the disk in a drive, if there is one. -/
def mapDisk (n : DriveNumber) (f : Disk → Disk) (c : Controller) : Controller :=
  c.setDrive n { c.drive n with disk := (c.drive n).disk.map f }

def setCylinder (n : DriveNumber) (cylinder : UInt8) (c : Controller) : Controller :=
  c.setDrive n { c.drive n with cylinder }

def setMotor (on : Bool) (c : Controller) : Controller := { c with motor := on }

/-- The main status register. -/
def status (c : Controller) : UInt8 := c.phase.status

/-! ## Ending a command -/

def finish (bytes : List UInt8) (c : Controller) : Controller := { c with phase := .result bytes }

/-- Ends a transfer without data. -/
def finishTransfer (st0 st1 : UInt8) (id : SectorId) (c : Controller) : Controller :=
  c.finish (resultBytes st0 st1 0 id)

/-- Ends a transfer for a drive without disk. -/
def finishNotReady (u : Unit) (id : SectorId) (c : Controller) : Controller :=
  c.finishTransfer (u.st0 ||| St0.abnormal ||| St0.notReady) 0 id

/-- Ends a transfer that fails for the reason `st1`. -/
def finishFailed (u : Unit) (st1 : UInt8) (id : SectorId) (c : Controller) : Controller :=
  c.finishTransfer (u.st0 ||| St0.abnormal) st1 id

/-- Waits for the data of a write. -/
def awaitData (pending : PendingWrite) (expected : Nat) (c : Controller) : Controller :=
  { c with phase := .executionWrite pending expected #[] }

/-! ## Commands without data -/

def specify (first second : UInt8) (c : Controller) : Controller :=
  { c with
    phase := .idle
    timings := {
      stepRate := first >>> 4
      headUnload := first &&& 0x0F
      headLoad := second >>> 1
      nonDma := second &&& 1 != 0 } }

def senseDriveStatus (unitByte : UInt8) (c : Controller) : Controller :=
  let d := c.drive (Unit.ofByte unitByte).drive
  let st3 := (unitByte &&& 0x07) ||| if d.cylinder == 0 then St3.track0 else 0
  match d.disk with
  | none => c.finish [st3]
  | some disk =>
    c.finish [st3 ||| St3.ready ||| (if disk.sides == 2 then St3.twoSides else 0) |||
      if disk.writeProtected then St3.writeProtected else 0]

/-- SEEK, and RECALIBRATE, which seeks cylinder 0. -/
def seek (u : Unit) (cylinder : UInt8) (c : Controller) : Controller :=
  let d := c.drive u.drive
  let st0 := St0.seekEnd ||| u.st0 |||
    match d.disk with
    | none => St0.abnormal ||| St0.notReady
    | some _ => 0
  { c.setDrive u.drive { d with cylinder } with
    seeks := c.seeks ++ [(st0, cylinder)]
    interrupt := true
    phase := .idle }

/-- Reports the oldest completed seek. -/
def senseInterruptStatus (c : Controller) : Controller :=
  match c.seeks with
  | [] => c.finish [St0.invalid]
  | (st0, cylinder) :: rest =>
    { c with
      seeks := rest
      interrupt := !rest.isEmpty
      phase := .result [st0, cylinder] }

/-- Reports the next sector that comes round. -/
def readId (u : Unit) (c : Controller) : Controller :=
  let d := c.drive u.drive
  let nowhere : SectorId := { c := d.cylinder, h := u.head, r := 0, n := 0 }
  match d.disk with
  | none => c.finishNotReady u nowhere
  | some disk =>
    let sectors := match disk.track? d.cylinder.toNat u.head.toNat with
      | some t => t.sectors
      | none => []
    let i := d.nextId % sectors.length
    match sectors[i]? with
    | none => c.finishFailed u St1.missingMark nowhere
    | some s => (c.setDrive u.drive { d with nextId := i + 1 }).finishTransfer u.st0 0 s.id

/-! ## Transfers -/

def readData (deleted : Bool) (t : Transfer) (c : Controller) : Controller :=
  let d := c.drive t.unit.drive
  match d.disk with
  | none => c.finishNotReady t.unit t.id
  | some disk =>
    match disk.track? d.cylinder.toNat t.unit.head.toNat with
    | none => c.finishFailed t.unit St1.missingMark t.id
    | some track =>
      let run := readRun track deleted t.skip t.following t.id
      let result := resultBytes (t.unit.st0 ||| run.st0) run.st1 run.st2 run.id
      if run.data.isEmpty then c.finish result
      else { c with phase := .executionRead run.data result }

def writeData (t : Transfer) (c : Controller) : Controller :=
  let d := c.drive t.unit.drive
  match d.disk with
  | none => c.finishNotReady t.unit t.id
  | some disk =>
    if disk.writeProtected then c.finishFailed t.unit St1.notWritable t.id
    else
      match disk.track? d.cylinder.toNat t.unit.head.toNat with
      | none => c.finishFailed t.unit St1.missingMark t.id
      | some track =>
        match writeRun track t.following t.id with
        | [] => c.finishFailed t.unit St1.noData t.id
        | run =>
          c.awaitData (.sectors t.unit d.cylinder (run.map (·.id)) t.eot t.id.n) (runLength run)

def formatTrack (bytes : List UInt8) (c : Controller) : Controller :=
  let u := Unit.ofByte (parameter bytes 1)
  let n := parameter bytes 2
  let count := parameter bytes 3
  let d := c.drive u.drive
  let id : SectorId := { c := d.cylinder, h := u.head, r := 0, n }
  match d.disk with
  | none => c.finishNotReady u id
  | some disk =>
    if disk.writeProtected then c.finishFailed u St1.notWritable id
    else if count == 0 then c.finishTransfer u.st0 0 id
    else
      let pending := PendingWrite.format u d.cylinder (parameter bytes 4) (parameter bytes 5) n
      c.awaitData pending (count.toNat * 4)

/-- Carries out a write whose data is complete. A run that stopped short of the last record reports
the one it missed. -/
def commit (pending : PendingWrite) (bytes : List UInt8) (c : Controller) : Controller :=
  match pending with
  | .sectors u cylinder targets eot n =>
    let c := c.mapDisk u.drive fun d => writeSectors d cylinder.toNat u.head.toNat targets bytes
    let last := targets.getLastD { c := cylinder, h := u.head, r := 0, n }
    if last.r == eot then
      c.finishFailed u St1.endOfCylinder { nextCylinder last with n }
    else c.finishFailed u St1.noData { nextRecord last with n }
  | .format u cylinder gap3 filler n =>
    let ids := sectorIds bytes
    let c := c.mapDisk u.drive fun d =>
      d.formatTrack cylinder.toNat u.head.toNat ids gap3 filler
    c.finishTransfer u.st0 0 (ids.getLastD { c := cylinder, h := u.head, r := 0, n })

/-! ## The data register -/

/-- Carries out a complete command. -/
def execute (bytes : List UInt8) (c : Controller) : Controller :=
  let u := Unit.ofByte (parameter bytes 1)
  match Command.decode (parameter bytes 0) with
  | .specify => c.specify (parameter bytes 1) (parameter bytes 2)
  | .senseDriveStatus => c.senseDriveStatus (parameter bytes 1)
  | .recalibrate => c.seek u 0
  | .seek => c.seek u (parameter bytes 2)
  | .senseInterruptStatus => c.senseInterruptStatus
  | .readData => c.readData false (.ofBytes bytes)
  | .readDeletedData => c.readData true (.ofBytes bytes)
  | .writeData => c.writeData (.ofBytes bytes)
  | .readId => c.readId u
  | .formatTrack => c.formatTrack bytes
  | .invalid => c.finish [St0.invalid]

/-- Adds a byte to a command and carries it out when it is complete. -/
def collect (bytes : List UInt8) (c : Controller) : Controller :=
  if bytes.length < (Command.decode (parameter bytes 0)).length then
    { c with phase := .command bytes }
  else c.execute bytes

/-- Writes the data register. Where a phase expects to be read, the byte is lost. -/
def write (v : UInt8) (c : Controller) : Controller :=
  let phase := c.phase
  let c := { c with phase := .idle }
  match phase with
  | .idle => c.collect [v]
  | .command bytes => c.collect (bytes ++ [v])
  | .executionWrite pending expected received =>
    let received := received.push v
    if received.size < expected then { c with phase := .executionWrite pending expected received }
    else c.commit pending received.toList
  | phase => { c with phase }

/-- Reads the data register. Where nothing is to be read it shows ones. -/
def read (c : Controller) : UInt8 × Controller :=
  match c.phase with
  | .executionRead (v :: data) result =>
    (v, { c with phase := if data.isEmpty then .result result else .executionRead data result })
  | .executionRead [] result => (0xFF, { c with phase := .result result })
  | .result (v :: rest) => (v, { c with phase := if rest.isEmpty then .idle else .result rest })
  | .result [] => (0xFF, { c with phase := .idle })
  | _ => (0xFF, c)

end Controller

end AmstradCpc.Floppy
