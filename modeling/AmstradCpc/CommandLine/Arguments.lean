import AmstradCpc.CommandLine.Settings
import AmstradCpc.Text.Blank

/-!
# Arguments

The options of the command line. A long option has its value behind an equals sign or in the next
argument, and only `--rom` can be given more than once. Arguments are taken one after another, so
what comes first decides between asking for help and making a mistake.
-/

namespace AmstradCpc.CommandLine

structure Arguments where
  settings : Settings := {}
  /-- Slots with the paths of their ROMs, as they were given. -/
  roms : List (UInt8 × String) := []
  /-- The snapshot to load. -/
  snapshot : Option String := none
  screenshot : Option String := none
  saveSnapshot : Option String := none
  /-- The settings file. -/
  config : Option String := none
  /-- The text to type, and the frame to begin at. -/
  typed : Option String := none
  typeAt : Option Nat := none
  verbosity : Nat := 0
  deriving Repr, Inhabited

/-- Why arguments are not run. -/
inductive Halt
  | help
  | version
  | misuse
  deriving DecidableEq, Repr, Inhabited

namespace Arguments

/-! ## Values -/

/-- Fills a setting that must not be there yet. -/
def once {α : Type} (old new : Option α) : Option (Option α) :=
  match old, new with
  | none, some v => some (some v)
  | _, _ => none

/-- A path, which is not empty. -/
def path? (value : String) : Option String := if value.isEmpty then none else some value

/-- A number below a limit. -/
def number? (limit : Nat) (value : String) : Option Nat :=
  match Numeral.integer? value.toList with
  | some (.ofNat n) => if n < limit then some n else none
  | _ => none

def refresh? : String → Option Nat
  | "50" => some 50
  | "60" => some 60
  | _ => none

/-- A slot, an equals sign, and the path of its ROM. -/
def rom? (value : String) : Option (UInt8 × String) :=
  let cs := value.toList
  match cs.dropWhile (· != '=') with
  | [] => none
  | _ :: path => do
    let slot ← Numeral.natural? 10 0x100 (trimBlanks (cs.takeWhile (· != '=')))
    return (slot.toUInt8, String.ofList path)

/-! ## Options -/

/-- Gives an option its value. -/
def set (name value : String) (a : Arguments) : Option Arguments := do
  let s := a.settings
  match name with
  | "model" => return { a with settings.model := ← once s.model (Model.ofNumber? value) }
  | "monitor" => return { a with settings.monitor := ← once s.monitor (Monitor.ofName? value) }
  | "keyboard" => return { a with settings.keyboard := ← once s.keyboard (layoutNamed? value) }
  | "refresh" => return { a with settings.refresh := ← once s.refresh (refresh? value) }
  | "manufacturer" =>
    return { a with settings.manufacturer := ← once s.manufacturer (manufacturerNamed? value) }
  | "ram" => return { a with settings.ram := ← once s.ram (number? 0x10000 value) }
  | "system-rom" => return { a with settings.systemRom := ← once s.systemRom (path? value) }
  | "rom" => return { a with roms := a.roms ++ [← rom? value] }
  | "snapshot" => return { a with snapshot := ← once a.snapshot (path? value) }
  | "drive-a" => return { a with settings.driveA := ← once s.driveA (path? value) }
  | "drive-b" => return { a with settings.driveB := ← once s.driveB (path? value) }
  | "frames" => return { a with settings.frames := ← once s.frames (number? 0x100000000 value) }
  | "screenshot" => return { a with screenshot := ← once a.screenshot (path? value) }
  | "save-snapshot" => return { a with saveSnapshot := ← once a.saveSnapshot (path? value) }
  | "config" => return { a with config := ← once a.config (path? value) }
  | "type" => return { a with typed := ← once a.typed (some value) }
  | "type-at" =>
    let frame := Numeral.natural? 10 0x10000000000000000 value.toList
    return { a with typeAt := ← once a.typeAt frame }
  | _ => none

/-- Turns on a switch. -/
def switch (name : String) (a : Arguments) : Except Halt Arguments :=
  match name with
  | "verbose" | "v" => .ok { a with verbosity := a.verbosity + 1 }
  | "help" | "h" => .error .help
  | "version" | "V" => .error .version
  | _ => .error .misuse

/-- The names of the switches. -/
def switches : List String := ["verbose", "help", "version"]

/-! ## Arguments -/

/-- What an argument looks like. -/
inductive Shape
  /-- The mark that no options follow. -/
  | terminator
  | long (name : String) (value : Option String)
  | short (names : List Char)
  | plain
  deriving DecidableEq, Repr, Inhabited

def Shape.ofArgument (argument : String) : Shape :=
  match argument.toList with
  | ['-', '-'] => .terminator
  | '-' :: '-' :: cs =>
    match cs.dropWhile (· != '=') with
    | [] => .long (String.ofList cs) none
    | _ :: value => .long (String.ofList (cs.takeWhile (· != '='))) (some (String.ofList value))
  | '-' :: c :: cs => .short (c :: cs)
  | _ => .plain

/-- Reads arguments on top of those already read. -/
def parseFrom : List String → Arguments → Except Halt Arguments
  | [], a => .ok a
  | argument :: rest, a =>
    match Shape.ofArgument argument, rest with
    | .terminator, [] => .ok a
    | .long name (some value), rest =>
      match a.set name value with
      | some a => parseFrom rest a
      | none => .error .misuse
    | .long name none, [] => if name ∈ switches then a.switch name else .error .misuse
    | .long name none, value :: rest =>
      if name ∈ switches then
        match a.switch name with
        | .ok a => parseFrom (value :: rest) a
        | .error e => .error e
      else if Shape.ofArgument value = .plain then
        match a.set name value with
        | some a => parseFrom rest a
        | none => .error .misuse
      else .error .misuse
    | .short names, rest =>
      match names.foldlM (fun a c => a.switch c.toString) a with
      | .ok a => parseFrom rest a
      | .error e => .error e
    | _, _ => .error .misuse

def parse (arguments : List String) : Except Halt Arguments := parseFrom arguments {}

end Arguments

end AmstradCpc.CommandLine
