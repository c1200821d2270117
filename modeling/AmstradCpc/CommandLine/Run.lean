import AmstradCpc.CommandLine.Arguments
import AmstradCpc.CommandLine.Host
import AmstradCpc.Machine.Drives
import AmstradCpc.Machine.Frame
import AmstradCpc.Machine.Snapshots

/-!
# The command

The command builds a machine, puts disks and a snapshot into it, types a text, runs it for a number
of frames, and saves what came out. There is no window, so every frame is drawn and no clock
matters. It stops at the first thing that fails.
-/

namespace AmstradCpc.CommandLine

/-- A part of the command, which may fail with a message. -/
abbrev Job (m : Type → Type) := ExceptT String m

variable {m : Type → Type} [Monad m] [Host m]

/-! ## Files and messages -/

/-- Reads a file, and fails with a message made from the host's. -/
def readFile (path : String) (failure : String → String) : Job m ByteArray :=
  ExceptT.adapt failure (.mk (Host.readFile path))

def report (line : String) : Job m Unit := ExceptT.lift (Host.report line)

/-- Shows the notices of a machine: warnings, and the others if the user asked for them. -/
def showNotices (verbosity : Nat) (machine : Machine) : Job m Machine := do
  let (notices, machine) := machine.takeNotices
  for n in notices do
    if n.isWarning || verbosity != 0 then report n.logLine
  return machine

/-! ## Configuration -/

/-- The settings file, if there is one. -/
def loadSettings : Option String → Job m SettingsFile
  | none => return {}
  | some path => do
    let failure (cause : String) : String := "Bad config file: " ++ fileMessage path cause
    match SettingsFile.parse? (← readFile path failure) with
    | some f => return f
    | none => throw (failure "not a settings file")

/-- The slots of a settings file, in the order of their names. -/
def fileSlots (roms : List (String × String)) : Job m (List (UInt8 × String)) :=
  (roms.mergeSort fun a b => !(b.1 < a.1)).mapM fun (slot, path) =>
    match Numeral.natural? 10 0x100 slot.toList with
    | some n => return (n.toUInt8, path)
    | none => throw ("Bad ROM slot '" ++ slot ++ "' in config file")

/-- The ROMs in the order of their slots. Of several for one slot the last counts. -/
def inSlotOrder (roms : List (UInt8 × String)) : List (UInt8 × String) :=
  let latest := roms.reverse
  (List.range 0x100).filterMap fun n =>
    (latest.lookup n.toUInt8).map fun path => (n.toUInt8, path)

def refreshRate : Option Nat → Job m Refresh
  | none => return .hz50
  | some n =>
    match Refresh.ofHertz? n with
    | some r => return r
    | none => throw ("Refresh must be 50 or 60, got " ++ toString n)

/-- The configuration of the machine. Arguments come before the settings file. -/
def configure (args : Arguments) (file : SettingsFile) : Job m Config := do
  let s := args.settings.orElse file.settings
  let some romPath := s.systemRom
    | throw "No system ROM: pass --system-rom <file> or set system_rom in the config file"
  let readRom (what path : String) : Job m ByteArray :=
    readFile path fun e => "Failed to read " ++ what ++ " " ++ fileMessage path e
  let systemRom ← readRom "system ROM" romPath
  let refresh ← refreshRate s.refresh
  let roms := inSlotOrder ((← fileSlots file.roms) ++ args.roms)
  let upperRoms ← roms.mapM fun (slot, path) => do return (slot, ← readRom "ROM" path)
  return {
    model := s.model.getD .cpc6128
    monitor := s.monitor.getD .colour
    refresh
    keyboard := s.keyboard.getD .qwerty
    manufacturer := s.manufacturer.getD .amstrad
    ramKb? := s.ram
    systemRom
    upperRoms
    frameSkip := false }

/-! ## The machine -/

def start (verbosity : Nat) (config : Config) : Job m Machine :=
  match Machine.build config with
  | .ok machine => showNotices verbosity machine
  | .error e => throw ("Failed to start: " ++ e.message)

/-- Puts a disk into a drive, if there is one for it. -/
def insertDisk (verbosity : Nat) (d : Floppy.DriveNumber) (path? : Option String)
    (machine : Machine) : Job m Machine := do
  match path? with
  | none => return machine
  | some path =>
    let failure (cause : String) : String := "Failed to insert disk: " ++ fileMessage path cause
    match machine.insertImage d path (← readFile path failure) with
    | .error e => throw (failure e.message)
    | .ok machine =>
      let machine ← showNotices verbosity machine
      report (machine.driveDescription d)
      return machine

def loadSnapshot (verbosity : Nat) (path? : Option String) (machine : Machine) : Job m Machine := do
  match path? with
  | none => return machine
  | some path =>
    let file ← readFile path fun e => "Failed to load snapshot: " ++ fileMessage path e
    let (loaded, machine) := machine.loadSnapshot path file
    let machine ← showNotices verbosity machine
    match loaded with
    | .error e => throw ("Failed to load snapshot: " ++ e.message)
    | .ok () =>
      report ("Loaded snapshot: " ++ path)
      return machine

/-- Queues a text, in which a backslash and an `n` stand for the RETURN key. -/
def typeText (text? : Option String) (frame : Nat) (machine : Machine) : Machine :=
  match text? with
  | none => machine
  | some text =>
    let text := text.replace "\\n" "\n"
    let queue := (machine.queue.type machine.config.keyboard text (machine.frameCount + frame)).2
    { machine with queue }

def runFrames (verbosity : Nat) : Nat → Machine → Job m Machine
  | 0, machine => return machine
  | n + 1, machine => do
    let machine ← showNotices verbosity (machine.tick 0).2
    runFrames verbosity n machine

/-! ## Results -/

def saveScreenshot (path? : Option String) (machine : Machine) : Job m Unit := do
  match path? with
  | none => return
  | some path =>
    ExceptT.adapt ("Screenshot error: " ++ ·) (.mk (Host.writePicture path machine.framebuffer))
    report ("Screenshot saved to " ++ path)

def saveSnapshot (verbosity : Nat) (path? : Option String) (machine : Machine) : Job m Machine := do
  match path? with
  | none => return machine
  | some path =>
    ExceptT.adapt (fun e => "Snapshot error: " ++ fileMessage path e)
      (.mk (Host.writeFile path machine.saveSna))
    let machine ← showNotices verbosity (machine.notify (.snapshotSaved path))
    report ("Snapshot saved to " ++ path)
    return machine

/-! ## The whole command -/

def run (args : Arguments) : Job m Unit := do
  let file ← loadSettings args.config
  let s := args.settings.orElse file.settings
  let machine ← start args.verbosity (← configure args file)
  let machine ← insertDisk args.verbosity .a s.driveA machine
  let machine ← insertDisk args.verbosity .b s.driveB machine
  let machine ← loadSnapshot args.verbosity args.snapshot machine
  let machine := typeText args.typed (args.typeAt.getD 100) machine
  report machine.description
  let machine ← runFrames args.verbosity (s.frames.getD 200) machine
  saveScreenshot args.screenshot machine
  let machine ← saveSnapshot args.verbosity args.saveSnapshot machine
  report machine.statisticsText

/-- What the options are. -/
def usage : String :=
  "\n".intercalate
    ["Amstrad CPC 464/664/6128 emulator (headless).", "",
      "Usage: emu-cpc [OPTIONS]", "",
      "Options:",
      "      --model <464|664|6128>",
      "      --monitor <colour|green|grey>",
      "      --keyboard <qwerty|azerty>   keyboard layout used for --type",
      "      --refresh <50|60>            refresh rate in Hz",
      "      --manufacturer <NAME>        name shown by the firmware at power-on",
      "      --ram <KB>                   64 to 576, a multiple of 64",
      "      --system-rom <FILE>          32K system ROM (OS followed by BASIC)",
      "      --rom <SLOT=FILE>            upper ROM in a slot (repeatable)",
      "      --snapshot <FILE>            snapshot to load after reset",
      "      --drive-a <FILE>             disk image for drive A",
      "      --drive-b <FILE>             disk image for drive B",
      "      --frames <N>                 frames to run [default: 200]",
      "      --screenshot <FILE>          PNG to save after the last frame",
      "      --save-snapshot <FILE>       snapshot to save after the last frame",
      "      --config <FILE>              settings file, which flags override",
      "      --type <TEXT>                text to type (use \\n for Return)",
      "      --type-at <FRAME>            frame at which to start typing [default: 100]",
      "  -v, --verbose                    more messages",
      "  -h, --help",
      "  -V, --version"]

/-- Runs the command and gives its exit code: 1 if it failed, 2 if it was misused. -/
def execute (arguments : List String) : m UInt32 := do
  match Arguments.parse arguments with
  | .error .help =>
    Host.print usage
    return 0
  | .error .version =>
    Host.print "emu-cpc 0.1.0"
    return 0
  | .error .misuse =>
    Host.report "error: invalid arguments; for more information, try '--help'"
    return 2
  | .ok args =>
    match ← (run args : Job m Unit).run with
    | .ok () => return 0
    | .error e =>
      Host.report e
      return 1

end AmstradCpc.CommandLine
