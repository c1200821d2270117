import AmstradCpc.Config
import AmstradCpc.Floppy.Command
import AmstradCpc.Snapshot
import AmstradCpc.Z80.System

/-!
# Notices

What a machine has to tell besides its answers: warnings, and information for those who ask for it.
Every notice has a subject, which is written before it in a log.
-/

namespace AmstradCpc

/-- Why a snapshot cannot be loaded. -/
inductive LoadError
  | format (e : SnapshotError)
  /-- There is less RAM than the snapshot holds. -/
  | ramSize (held installed : Nat)
  deriving DecidableEq, Repr, Inhabited

def LoadError.message : LoadError → String
  | .format e => e.message
  | .ramSize held installed =>
    "snapshot holds " ++ toString held ++ " KB of RAM but only " ++ toString installed ++
      " KB is installed"

inductive Notice
  | ready (description : String)
  | snapshotLoaded (path : String)
  | snapshotSaved (path : String)
  | snapshotRejected (path : String) (cause : LoadError)
  | otherModel (taken running : Model)
  | diskInserted (drive : Floppy.DriveNumber) (path : String)
  | diskSaved (drive : Floppy.DriveNumber) (path : String)
  | changesLost (drive : Floppy.DriveNumber)
  | undefinedOpcode (u : Z80.UndefinedOpcode)
  deriving Repr, Inhabited

namespace Notice

def isWarning : Notice → Bool
  | .snapshotRejected _ _ | .changesLost _ | .undefinedOpcode _ => true
  | _ => false

def subject : Notice → String
  | .otherModel _ _ => "emu_cpc::sna"
  | .undefinedOpcode _ => "zilog_z80::cpu::ed"
  | _ => "emu_cpc::cpc"

def message : Notice → String
  | .ready description => description
  | .snapshotLoaded path => "loaded snapshot " ++ path
  | .snapshotSaved path => "saved snapshot " ++ path
  | .snapshotRejected path cause => "snapshot " ++ path ++ " rejected: " ++ cause.message
  | .otherModel taken running =>
    "snapshot was taken on a " ++ taken.name ++ ", running on a " ++ running.name
  | .diskInserted drive path => "drive " ++ drive.letter ++ ": inserted " ++ path
  | .diskSaved drive path => "drive " ++ drive.letter ++ ": saved to " ++ path
  | .changesLost drive => "drive " ++ drive.letter ++ ": ejected with unsaved changes"
  | .undefinedOpcode u => u.message

/-- The line of a log. -/
def logLine (n : Notice) : String :=
  (if n.isWarning then "[WARN] " else "[INFO] ") ++ n.subject ++ ": " ++ n.message

end Notice

end AmstradCpc
