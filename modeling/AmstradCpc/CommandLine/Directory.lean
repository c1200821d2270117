import AmstradCpc.CommandLine.Host

/-!
# A directory in memory

A host that lives in memory: the files of a system, on which the command works in one directory. A
path is followed name by name, so of several things that are wrong with it the first one counts.
-/

namespace AmstradCpc.CommandLine

/-! ## Files -/

inductive FileContent
  | bytes (bs : ByteArray)
  | picture (fb : Framebuffer)
  deriving Inhabited

def FileContent.toBytes : FileContent → ByteArray
  | .bytes bs => bs
  | .picture fb => pictureFile fb

/-! ## Paths -/

/-- A path, taken apart at its slashes. -/
structure Path where
  /-- Whether it begins at the root. -/
  absolute : Bool
  names : List String
  /-- Whether a slash ends it, so that it stands for a directory. -/
  slashed : Bool
  deriving DecidableEq, Repr, Inhabited

/-- Takes a path apart. An empty one leads nowhere. -/
def Path.parse (path : String) : Except FileError Path :=
  if '\x00' ∈ path.toList then .error .nul
  else if path.isEmpty then .error .notFound
  else if 0x1000 ≤ path.utf8ByteSize then .error .nameTooLong
  else .ok {
    absolute := path.startsWith "/"
    names := (path.splitOn "/").filter (!·.isEmpty)
    slashed := path.endsWith "/" }

/-- The files of a system, and the messages that have been shown. A place in the system is the list
of the names that lead there from the root. -/
structure Directory where
  files : List (List String × FileContent) := []
  messages : Array String := #[]
  deriving Inhabited

namespace Directory

/-! ## Places -/

/-- The place where the command works. -/
def workPlace : List String := ["tmp", "work"]

/-- The place of a file that stays empty. -/
def nullDevice : List String := ["dev", "null"]

/-- A system with files in the directory where the command works. -/
def ofFiles (files : List (String × ByteArray)) : Directory where
  files := (nullDevice, .bytes .empty) ::
    files.map fun (name, bs) => (workPlace ++ name.splitOn "/", .bytes bs)

def content? (d : Directory) (place : List String) : Option FileContent := d.files.lookup place

/-- Whether there is a directory: one that the command needs, or one that a file is in. -/
def isDirectory (d : Directory) (place : List String) : Bool :=
  place.isPrefixOf workPlace ||
    d.files.any fun (p, _) => place.length < p.length && place.isPrefixOf p

def checkDirectory (d : Directory) (place : List String) : Except FileError Unit :=
  if d.isDirectory place then .ok ()
  else .error (if (d.content? place).isSome then .notDirectory else .notFound)

/-- Goes from a directory to the place of a name in it. -/
def step (d : Directory) (place : List String) (name : String) :
    Except FileError (List String) := do
  d.checkDirectory place
  if name == "." then return place
  else if name == ".." then return place.dropLast
  else if 0xFF < name.utf8ByteSize then throw .nameTooLong
  else return place ++ [name]

/-- Follows names from the root, or from the place where the command works. -/
def walk (d : Directory) (absolute : Bool) (names : List String) :
    Except FileError (List String) :=
  names.foldlM d.step (if absolute then [] else workPlace)

/-! ## Reading and writing -/

/-- The file at a path. -/
def find (d : Directory) (path : String) : Except FileError FileContent := do
  let path ← Path.parse path
  let place ← d.walk path.absolute path.names
  match d.content? place with
  | some c => if path.slashed then throw .notDirectory else return c
  | none => throw (if d.isDirectory place then .isDirectory else .notFound)

/-- Gives a file its content. -/
def put (place : List String) (c : FileContent) (d : Directory) : Directory :=
  if place = nullDevice then d
  else { d with files := (place, c) :: d.files.filter (·.1 != place) }

/-- Writes a file into a directory that is there. A path that stands for a directory cannot be
written to, whatever its last name. -/
def write (path : String) (c : FileContent) (d : Directory) : Except FileError Directory := do
  let path ← Path.parse path
  let place ← d.walk path.absolute path.names.dropLast
  d.checkDirectory place
  match path.slashed, path.names.getLast? with
  | false, some name =>
    let file ← d.step place name
    if d.isDirectory file then throw .isDirectory else return d.put file c
  | _, _ => throw .isDirectory

/-- Writes a file, if that can be done. -/
def tryWrite (path : String) (c : FileContent) (d : Directory) : Except String Unit × Directory :=
  match d.write path c with
  | .ok d => (.ok (), d)
  | .error e => (.error e.message, d)

/-- The lines that have been shown. A carriage return at the end of a line belongs to the end. -/
def lines (d : Directory) : List String :=
  d.messages.toList.flatMap fun message =>
    (message.splitOn "\n").map fun line => (line.dropSuffix "\r").toString

end Directory

instance : Host (StateM Directory) where
  readFile path := fun d => (((d.find path).map FileContent.toBytes).mapError FileError.message, d)
  writeFile path bs := fun d => d.tryWrite path (.bytes bs)
  writePicture path fb := fun d => d.tryWrite path (.picture fb)
  report message := fun d => ((), { d with messages := d.messages.push message })
  print _ := fun d => ((), d)

end AmstradCpc.CommandLine
