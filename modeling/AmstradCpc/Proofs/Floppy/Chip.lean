import AmstradCpc.Floppy.Controller

/-!
# The controller's buffers

`Phase` gives every phase its own data. The chip has buffers that its phases share: the bytes of a
command, data on its way out or in, the result, a cursor into each of the last two, and the write
that waits for data. A phase leaves in them what it does not clear.

`Chip` is the controller in that form. A command looks its parameters up in the buffer, which fails
for a byte that is not there, and enters the next phase by itself.
-/

namespace AmstradCpc.Floppy

inductive Stage
  | idle
  | command
  | executionRead
  | executionWrite
  | result
  deriving DecidableEq, Repr, Inhabited

structure Chip where
  stage : Stage := .idle
  /-- The bytes of a command so far. -/
  command : List UInt8 := []
  /-- Data to be read, or written so far. -/
  transfer : List UInt8 := []
  /-- Where the data is read next. -/
  transferIndex : Nat := 0
  /-- Bytes that a write expects. -/
  transferLen : Nat := 0
  result : List UInt8 := []
  /-- Where the result is read next. -/
  resultIndex : Nat := 0
  pending : Option PendingWrite := none
  /-- The drives and all else, in a controller that stays idle. -/
  rest : Controller := {}

namespace Chip

/-! ## Entering a phase -/

def finish (bytes : List UInt8) (s : Chip) : Chip :=
  { s with stage := .result, result := bytes, resultIndex := 0 }

def finishTransfer (st0 st1 : UInt8) (id : SectorId) (s : Chip) : Chip :=
  s.finish (resultBytes st0 st1 0 id)

def beginRead (data bytes : List UInt8) (s : Chip) : Chip :=
  { s with
    stage := .executionRead
    transfer := data
    transferIndex := 0
    result := bytes
    resultIndex := 0 }

def beginWrite (expected : Nat) (s : Chip) : Chip :=
  { s with stage := .executionWrite, transfer := [], transferLen := expected }

/-! ## Commands without data -/

def specify (first second : UInt8) (s : Chip) : Chip :=
  { s with
    stage := .idle
    rest.timings := {
      stepRate := first >>> 4
      headUnload := first &&& 0x0F
      headLoad := second >>> 1
      nonDma := second &&& 1 != 0 } }

def senseDriveStatus (unitByte : UInt8) (s : Chip) : Chip :=
  let d := s.rest.drive (Unit.ofByte unitByte).drive
  let st3 := (unitByte &&& 0x07) ||| if d.cylinder == 0 then St3.track0 else 0
  match d.disk with
  | none => s.finish [st3]
  | some disk =>
    s.finish [st3 ||| St3.ready ||| (if disk.sides == 2 then St3.twoSides else 0) |||
      if disk.writeProtected then St3.writeProtected else 0]

def seek (u : Unit) (cylinder : UInt8) (s : Chip) : Chip :=
  let d := s.rest.drive u.drive
  let st0 := St0.seekEnd ||| u.st0 |||
    if d.disk.isNone then St0.abnormal ||| St0.notReady else 0
  { s with
    stage := .idle
    rest := { s.rest.setDrive u.drive { d with cylinder } with
      seeks := s.rest.seeks ++ [(st0, cylinder)]
      interrupt := true } }

def senseInterruptStatus (s : Chip) : Chip :=
  match s.rest.seeks with
  | [] => s.finish [St0.invalid]
  | (st0, cylinder) :: waiting =>
    { s with rest.seeks := waiting, rest.interrupt := !waiting.isEmpty }.finish [st0, cylinder]

def readId (u : Unit) (s : Chip) : Chip :=
  let d := s.rest.drive u.drive
  let nowhere : SectorId := { c := d.cylinder, h := u.head, r := 0, n := 0 }
  match d.disk with
  | none => s.finishTransfer (u.st0 ||| St0.abnormal ||| St0.notReady) 0 nowhere
  | some disk =>
    let sectors := match disk.track? d.cylinder.toNat u.head.toNat with
      | some t => t.sectors
      | none => []
    let i := d.nextId % sectors.length
    match sectors[i]? with
    | none => s.finishTransfer (u.st0 ||| St0.abnormal) St1.missingMark nowhere
    | some sector =>
      { s with rest := s.rest.setDrive u.drive { d with nextId := i + 1 } }.finishTransfer u.st0 0
        sector.id

/-! ## Transfers -/

def readData (deleted : Bool) (t : Transfer) (s : Chip) : Chip :=
  let d := s.rest.drive t.unit.drive
  match d.disk with
  | none => s.finishTransfer (t.unit.st0 ||| St0.abnormal ||| St0.notReady) 0 t.id
  | some disk =>
    match disk.track? d.cylinder.toNat t.unit.head.toNat with
    | none => s.finishTransfer (t.unit.st0 ||| St0.abnormal) St1.missingMark t.id
    | some track =>
      let run := readRun track deleted t.skip t.following t.id
      let result := resultBytes (t.unit.st0 ||| run.st0) run.st1 run.st2 run.id
      if run.data.isEmpty then s.finish result else s.beginRead run.data result

def writeData (t : Transfer) (s : Chip) : Chip :=
  let d := s.rest.drive t.unit.drive
  match d.disk with
  | none => s.finishTransfer (t.unit.st0 ||| St0.abnormal ||| St0.notReady) 0 t.id
  | some disk =>
    if disk.writeProtected then
      s.finishTransfer (t.unit.st0 ||| St0.abnormal) St1.notWritable t.id
    else
      match disk.track? d.cylinder.toNat t.unit.head.toNat with
      | none => s.finishTransfer (t.unit.st0 ||| St0.abnormal) St1.missingMark t.id
      | some track =>
        match writeRun track t.following t.id with
        | [] => s.finishTransfer (t.unit.st0 ||| St0.abnormal) St1.noData t.id
        | run =>
          let pending := PendingWrite.sectors t.unit d.cylinder (run.map (·.id)) t.eot t.id.n
          { s with pending := some pending }.beginWrite (runLength run)

def formatTrack (u : Unit) (n count gap3 filler : UInt8) (s : Chip) : Chip :=
  let d := s.rest.drive u.drive
  let id : SectorId := { c := d.cylinder, h := u.head, r := 0, n }
  match d.disk with
  | none => s.finishTransfer (u.st0 ||| St0.abnormal ||| St0.notReady) 0 id
  | some disk =>
    if disk.writeProtected then s.finishTransfer (u.st0 ||| St0.abnormal) St1.notWritable id
    else if count == 0 then s.finishTransfer u.st0 0 id
    else
      let pending := PendingWrite.format u d.cylinder gap3 filler n
      { s with pending := some pending }.beginWrite (count.toNat * 4)

/-- Gives up the write that waits, and its data. -/
def release (s : Chip) : Chip := { s with pending := none, transfer := [] }

/-- Carries out the write whose data has come. -/
def commit (s : Chip) : Chip :=
  match s.pending with
  | none => { s with stage := .idle }
  | some (.sectors u cylinder targets eot n) =>
    let written := s.rest.mapDisk u.drive fun d =>
      writeSectors d cylinder.toNat u.head.toNat targets s.transfer
    let last := targets.getLastD { c := cylinder, h := u.head, r := 0, n }
    let s := { s.release with rest := written }
    if last.r == eot then
      s.finishTransfer (u.st0 ||| St0.abnormal) St1.endOfCylinder { nextCylinder last with n }
    else s.finishTransfer (u.st0 ||| St0.abnormal) St1.noData { nextRecord last with n }
  | some (.format u cylinder gap3 filler n) =>
    let ids := sectorIds s.transfer
    let formatted := s.rest.mapDisk u.drive fun d =>
      d.formatTrack cylinder.toNat u.head.toNat ids gap3 filler
    { s.release with rest := formatted }.finishTransfer u.st0 0
      (ids.getLastD { c := cylinder, h := u.head, r := 0, n })

/-! ## Carrying out a command -/

/-- The parameters of a transfer, unless the command lacks a byte that is looked up. -/
def transfer? (command : List UInt8) : Option Transfer := do
  let first : UInt8 ← command[0]?
  let unit ← command[1]?
  let c ← command[2]?
  let h ← command[3]?
  let r ← command[4]?
  let n ← command[5]?
  let eot ← command[6]?
  return { unit := .ofByte unit, id := { c, h, r, n }, eot, skip := first &&& 0x20 != 0 }

/-- Carries out the command in the buffer, unless it lacks a byte that is looked up. -/
def execute? (s : Chip) : Option Chip := do
  let first ← s.command[0]?
  match Command.decode first with
  | .specify => return s.specify (← s.command[1]?) (← s.command[2]?)
  | .senseDriveStatus => return s.senseDriveStatus (← s.command[1]?)
  | .recalibrate => return s.seek (.ofByte (← s.command[1]?)) 0
  | .seek => return s.seek (.ofByte (← s.command[1]?)) (← s.command[2]?)
  | .senseInterruptStatus => return s.senseInterruptStatus
  | .readData => return s.readData false (← transfer? s.command)
  | .readDeletedData => return s.readData true (← transfer? s.command)
  | .writeData => return s.writeData (← transfer? s.command)
  | .readId => return s.readId (.ofByte (← s.command[1]?))
  | .formatTrack =>
    return s.formatTrack (.ofByte (← s.command[1]?)) (← s.command[2]?) (← s.command[3]?)
      (← s.command[4]?) (← s.command[5]?)
  | .invalid => return s.finish [St0.invalid]

/-! ## The data register -/

/-- Adds a byte to a command and carries it out when it is complete. -/
def collect? (v : UInt8) (s : Chip) : Option Chip := do
  let s := { s with stage := .command, command := s.command ++ [v] }
  let first ← s.command[0]?
  if (Command.decode first).length ≤ s.command.length then
    s.execute?
  else return s

def write? (v : UInt8) (s : Chip) : Option Chip :=
  match s.stage with
  | .idle => { s with command := [] }.collect? v
  | .command => s.collect? v
  | .executionWrite =>
    let s := { s with transfer := s.transfer ++ [v] }
    some (if s.transferLen ≤ s.transfer.length then s.commit else s)
  | .executionRead | .result => some s

/-- The byte that the data register shows, if a buffer has one where its cursor is. -/
def next? (s : Chip) : Option UInt8 :=
  match s.stage with
  | .executionRead => s.transfer[s.transferIndex]?
  | .result => s.result[s.resultIndex]?
  | _ => none

/-- Goes on to the next byte, and to the next phase after the last. -/
def advance (s : Chip) : Chip :=
  match s.stage with
  | .executionRead =>
    if s.transfer.length ≤ s.transferIndex + 1 then
      { s with stage := .result, transfer := [], transferIndex := 0 }
    else { s with transferIndex := s.transferIndex + 1 }
  | .result =>
    if s.result.length ≤ s.resultIndex + 1 then
      { s with stage := .idle, result := [], resultIndex := 0 }
    else { s with resultIndex := s.resultIndex + 1 }
  | _ => s

def read (s : Chip) : UInt8 × Chip := (s.next?.getD 0xFF, s.advance)

/-- Reads some bytes. -/
def receive : Nat → Chip → List UInt8 × Chip
  | 0, s => ([], s)
  | n + 1, s => (s.read.1 :: (receive n s.read.2).1, (receive n s.read.2).2)

/-- What is still to be read. -/
def unread (s : Chip) : List UInt8 :=
  match s.stage with
  | .executionRead => s.transfer.drop s.transferIndex ++ s.result.drop s.resultIndex
  | .result => s.result.drop s.resultIndex
  | _ => []

end Chip

end AmstradCpc.Floppy
