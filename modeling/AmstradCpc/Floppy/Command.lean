import AmstradCpc.Disk

/-!
# Commands of the floppy disk controller

The low five bits of the first byte of a command select the operation; the bits above modify it. A
command has a fixed number of bytes. This module decodes them and names the bits of the status
bytes that commands answer with.
-/

namespace AmstradCpc.Floppy

inductive Command
  | readData
  | readDeletedData
  | writeData
  | readId
  | formatTrack
  | specify
  | senseDriveStatus
  | recalibrate
  | senseInterruptStatus
  | seek
  | invalid
  deriving DecidableEq, Repr, Inhabited

namespace Command

def decode (b : UInt8) : Command :=
  match b &&& 0x1F with
  | 0x03 => .specify
  | 0x04 => .senseDriveStatus
  | 0x05 => .writeData
  | 0x06 => .readData
  | 0x07 => .recalibrate
  | 0x08 => .senseInterruptStatus
  | 0x0A => .readId
  | 0x0C => .readDeletedData
  | 0x0D => .formatTrack
  | 0x0F => .seek
  | _ => .invalid

def name : Command → String
  | .readData => "ReadData"
  | .readDeletedData => "ReadDeletedData"
  | .writeData => "WriteData"
  | .readId => "ReadId"
  | .formatTrack => "FormatTrack"
  | .specify => "Specify"
  | .senseDriveStatus => "SenseDriveStatus"
  | .recalibrate => "Recalibrate"
  | .senseInterruptStatus => "SenseInterruptStatus"
  | .seek => "Seek"
  | .invalid => "Invalid"

/-- Bytes of the command, the first included. -/
def length : Command → Nat
  | .readData | .readDeletedData | .writeData => 9
  | .formatTrack => 6
  | .specify | .seek => 3
  | .readId | .senseDriveStatus | .recalibrate => 2
  | .senseInterruptStatus | .invalid => 1

end Command

/-! ## Status bits -/

namespace St0

def abnormal : UInt8 := 0x40
def invalid : UInt8 := 0x80
def seekEnd : UInt8 := 0x20
def notReady : UInt8 := 0x08

end St0

namespace St1

def missingMark : UInt8 := 0x01
def notWritable : UInt8 := 0x02
def noData : UInt8 := 0x04
def dataError : UInt8 := 0x20
def endOfCylinder : UInt8 := 0x80

end St1

namespace St2

def dataError : UInt8 := 0x20
def controlMark : UInt8 := 0x40

end St2

namespace St3

def twoSides : UInt8 := 0x08
def track0 : UInt8 := 0x10
def ready : UInt8 := 0x20
def writeProtected : UInt8 := 0x40

end St3

/-! ## Parameters -/

/-- The two drives. -/
inductive DriveNumber
  | a | b
  deriving DecidableEq, Repr, Inhabited

namespace DriveNumber

def ofNat? : Nat → Option DriveNumber
  | 0 => some .a
  | 1 => some .b
  | _ => none

/-- The drive that a unit byte names; bit 0 alone counts. -/
def ofByte (b : UInt8) : DriveNumber := if b &&& 1 == 0 then .a else .b

/-- The drive's bits in the first status byte. -/
def st0 : DriveNumber → UInt8
  | .a => 0
  | .b => 1

def letter : DriveNumber → String
  | .a => "A"
  | .b => "B"

end DriveNumber

/-- The drive and the head that a unit byte names. -/
structure Unit where
  drive : DriveNumber
  head : UInt8
  deriving DecidableEq, Repr, Inhabited

def Unit.ofByte (b : UInt8) : Unit where
  drive := .ofByte b
  head := (b >>> 2) &&& 1

/-- The unit's bits in the first status byte. -/
def Unit.st0 (u : Unit) : UInt8 := u.drive.st0 ||| (u.head <<< 2)

/-- Parameters of a transfer: where it starts, the last record of the track, and whether sectors
with the other kind of mark are skipped. -/
structure Transfer where
  unit : Unit
  id : SectorId
  eot : UInt8
  skip : Bool
  deriving DecidableEq, Repr, Inhabited

/-- Byte `i` of a command. -/
@[inline] def parameter (bytes : List UInt8) (i : Nat) : UInt8 := bytes.getD i 0

def Transfer.ofBytes (bytes : List UInt8) : Transfer where
  unit := .ofByte (parameter bytes 1)
  id := { c := parameter bytes 2, h := parameter bytes 3, r := parameter bytes 4,
          n := parameter bytes 5 }
  eot := parameter bytes 6
  skip := parameter bytes 0 &&& 0x20 != 0

/-- Records from the first to the last of the track, counted without the first; they go round at
256. -/
def Transfer.following (t : Transfer) : Nat := (t.eot - t.id.r).toNat

/-- The seven bytes that end a transfer. -/
def resultBytes (st0 st1 st2 : UInt8) (id : SectorId) : List UInt8 :=
  [st0, st1, st2, id.c, id.h, id.r, id.n]

end AmstradCpc.Floppy
