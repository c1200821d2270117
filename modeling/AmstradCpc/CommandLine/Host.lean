import AmstradCpc.Image.Png
import AmstradCpc.Screen.Framebuffer

/-!
# The host of the command

The command line needs little of the system it runs on: it reads and writes whole files, and shows
messages to the user.
-/

namespace AmstradCpc.CommandLine

/-- Why a file cannot be had. -/
inductive FileError
  | notFound
  | notDirectory
  | isDirectory
  | nameTooLong
  /-- A path with a NUL in it. -/
  | nul
  deriving DecidableEq, Repr, Inhabited

def FileError.message : FileError → String
  | .notFound => "No such file or directory (os error 2)"
  | .notDirectory => "Not a directory (os error 20)"
  | .isDirectory => "Is a directory (os error 21)"
  | .nameTooLong => "File name too long (os error 36)"
  | .nul => "file name contained an unexpected NUL byte"

/-- What the command asks of its host. A file that cannot be read or written gives the host's
message. -/
class Host (m : Type → Type) where
  readFile : String → m (Except String ByteArray)
  writeFile : String → ByteArray → m (Except String Unit)
  /-- Writes an image file. -/
  writePicture : String → Framebuffer → m (Except String Unit)
  /-- Shows a message, which ends its line. -/
  report : String → m Unit
  /-- Shows a text that was asked for. -/
  print : String → m Unit

/-- The image file of a canvas. -/
def pictureFile (fb : Framebuffer) : ByteArray :=
  Png.encode Framebuffer.width Framebuffer.height fb.toRgb

end AmstradCpc.CommandLine
