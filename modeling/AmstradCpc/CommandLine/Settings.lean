import AmstradCpc.Config
import AmstradCpc.Text.Numeral
import AmstradCpc.Toml.Document

/-!
# Settings

What the user may choose, on the command line or in a settings file. Every setting can be left out.
-/

namespace AmstradCpc.CommandLine

structure Settings where
  model : Option Model := none
  monitor : Option Monitor := none
  keyboard : Option KeyboardLayout := none
  /-- The refresh rate in Hz, whether it exists or not. -/
  refresh : Option Nat := none
  manufacturer : Option Manufacturer := none
  /-- RAM in KB. -/
  ram : Option Nat := none
  /-- The path of the system ROM. -/
  systemRom : Option String := none
  /-- The paths of the disks in the drives. -/
  driveA : Option String := none
  driveB : Option String := none
  frames : Option Nat := none
  deriving Repr, Inhabited

namespace Settings

/-- The settings of `s`, and those of `t` where `s` has none. -/
def orElse (s t : Settings) : Settings where
  model := s.model <|> t.model
  monitor := s.monitor <|> t.monitor
  keyboard := s.keyboard <|> t.keyboard
  refresh := s.refresh <|> t.refresh
  manufacturer := s.manufacturer <|> t.manufacturer
  ram := s.ram <|> t.ram
  systemRom := s.systemRom <|> t.systemRom
  driveA := s.driveA <|> t.driveA
  driveB := s.driveB <|> t.driveB
  frames := s.frames <|> t.frames

end Settings

/-! ## Names of choices -/

def layoutNamed? (name : String) : Option KeyboardLayout :=
  KeyboardLayout.all.find? (·.name.toLower == name)

def manufacturerNamed? (name : String) : Option Manufacturer :=
  Manufacturer.all.find? (·.name.toLower == name)

/-! ## Settings files -/

/-- What a settings file holds. -/
structure SettingsFile where
  settings : Settings := {}
  /-- Slots as they are written, with the paths of their ROMs. -/
  roms : List (String × String) := []
  deriving Repr, Inhabited

namespace SettingsFile

/-- A choice by its name, which may also be the only key of a table that has an empty table or array
under it. -/
def choice? {α : Type} (named? : String → Option α) : Toml.Node → Option α
  | .text s => named? s
  | .table _ [(name, .table _ [])] => named? name
  | .table _ [(name, .emptyArray)] => named? name
  | _ => none

def text? : Toml.Node → Option String
  | .text s => some s
  | _ => none

/-- A number below a limit. -/
def number? (limit : Nat) : Toml.Node → Option Nat
  | .number (.ofNat n) => if n < limit then some n else none
  | _ => none

def texts? : Toml.Node → Option (List (String × String))
  | .table _ entries => entries.mapM fun (key, node) => (text? node).map fun s => (key, s)
  | _ => none

/-- Adds an entry of the file, which must be a setting with a value of its kind. -/
def add (f : SettingsFile) (key : String) (node : Toml.Node) : Option SettingsFile := do
  match key with
  | "model" => return { f with settings.model := ← choice? Model.ofNumber? node }
  | "monitor" => return { f with settings.monitor := ← choice? Monitor.ofName? node }
  | "keyboard" => return { f with settings.keyboard := ← choice? layoutNamed? node }
  | "refresh" => return { f with settings.refresh := ← number? 0x100000000 node }
  | "manufacturer" => return { f with settings.manufacturer := ← choice? manufacturerNamed? node }
  | "ram" => return { f with settings.ram := ← number? 0x10000 node }
  | "system_rom" => return { f with settings.systemRom := ← text? node }
  | "roms" => return { f with roms := ← texts? node }
  | "drive_a" => return { f with settings.driveA := ← text? node }
  | "drive_b" => return { f with settings.driveB := ← text? node }
  | "frames" => return { f with settings.frames := ← number? 0x100000000 node }
  | _ => none

/-- Reads a settings file. -/
def parse? (file : ByteArray) : Option SettingsFile := do
  let entries ← Toml.document? (← String.fromUTF8? file)
  entries.foldlM (fun f (key, node) => f.add key node) {}

end SettingsFile

end AmstradCpc.CommandLine
