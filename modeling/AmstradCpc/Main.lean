import AmstradCpc.CommandLine.Run

/-!
# The program

The command line on a real system.
-/

namespace AmstradCpc.CommandLine

/-- The message of an error code, which some operations give as a negative number. -/
def codeMessage (details : String) (code : UInt32) : String :=
  let number := if 0x80000000 ≤ code then 0 - code else code
  if number == 36 then FileError.nameTooLong.message
  else details.capitalize ++ " (os error " ++ toString number.toNat ++ ")"

/-- The system's message about a failed operation on a file. -/
def systemMessage : IO.Error → String
  | .noFileOrDirectory _ code details => codeMessage details code
  | .permissionDenied _ code details => codeMessage details code
  | .inappropriateType _ code details => codeMessage details code
  | .resourceExhausted _ code details => codeMessage details code
  | .invalidArgument path? code details =>
    if '\x00' ∈ (path?.getD "").toList then FileError.nul.message else codeMessage details code
  | .otherError code details => codeMessage details code
  | e => toString e

/-- Carries out an operation on a file. -/
def attempt {α : Type} (action : IO α) : IO (Except String α) := do
  try
    return .ok (← action)
  catch e =>
    return .error (systemMessage e)

instance : Host IO where
  readFile path := attempt (IO.FS.readBinFile path)
  writeFile path bytes := attempt (IO.FS.writeBinFile path bytes)
  writePicture path fb := attempt (IO.FS.writeBinFile path (pictureFile fb))
  report line := IO.eprintln line
  print text := IO.println text

end AmstradCpc.CommandLine

def main (arguments : List String) : IO UInt32 := AmstradCpc.CommandLine.execute arguments
