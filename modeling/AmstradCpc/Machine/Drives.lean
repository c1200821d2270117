import AmstradCpc.Disk.Image
import AmstradCpc.Machine

/-!
# The drives of a machine

Disks go into drives 0 and 1, which users know as A and B, from image files and back to them.
-/

namespace AmstradCpc

open Floppy (DriveNumber)

/-- Why a disk cannot be put in or saved. -/
inductive DriveError
  | notFitted (drive : Nat)
  | empty (drive : DriveNumber)
  deriving DecidableEq, Repr, Inhabited

def DriveError.message : DriveError → String
  | .notFitted n => "drive " ++ toString n ++ " does not exist (0 = A, 1 = B)"
  | .empty d => "drive " ++ d.letter ++ ": no disk"

/-- The drive of a number. -/
def fittedDrive (n : Nat) : Except DriveError DriveNumber :=
  match DriveNumber.ofNat? n with
  | some d => .ok d
  | none => .error (.notFitted n)

/-- The message about a file. -/
def fileMessage (path cause : String) : String := path ++ ": " ++ cause

namespace Machine

def insertDisk (d : DriveNumber) (disk : Disk) (m : Machine) : Machine :=
  m.mapBoard fun b => { b with fdc := b.fdc.insert d disk }

/-- Puts in a disk from an image file. -/
def insertImage (d : DriveNumber) (path : String) (file : ByteArray) (m : Machine) :
    Except DiskError Machine := do
  let disk ← Disk.ofBytes file.data.toList
  return (m.insertDisk d disk).notify (.diskInserted d path)

/-- Takes a disk out. -/
def removeDisk (n : Nat) (m : Machine) : Option Disk × Machine :=
  match DriveNumber.ofNat? n with
  | none => (none, m)
  | some d =>
    let (disk, fdc) := m.board.fdc.eject d
    let m := m.mapBoard fun b => { b with fdc }
    (disk, if disk.any (·.modified) then m.notify (.changesLost d) else m)

/-- The image file of the disk in a drive. -/
def diskImage (n : Nat) (m : Machine) : Except DriveError (DriveNumber × List UInt8) := do
  let d ← fittedDrive n
  match (m.board.fdc.drive d).disk with
  | some disk => return (d, disk.toBytes)
  | none => throw (.empty d)

/-- The image of the disk has been written to a file. -/
def diskSaved (d : DriveNumber) (path : String) (m : Machine) : Machine :=
  (m.mapBoard fun b => { b with fdc := b.fdc.mapDisk d (·.markSaved) }).notify (.diskSaved d path)

end Machine

end AmstradCpc
