import AmstradCpc.Keyboard.Queue
import AmstradCpc.Machine.Notice
import AmstradCpc.Mainboard
import AmstradCpc.Screen.Framebuffer

/-!
# Machine

A whole machine: the CPU on its mainboard, the canvas that its picture is drawn on, and the keys
that wait to be pressed.
-/

namespace AmstradCpc

/-- Frames since the last reset. -/
structure Statistics where
  frames : Nat := 0
  rendered : Nat := 0
  skipped : Nat := 0
  deriving DecidableEq, Repr, Inhabited

structure Machine where
  system : Z80.System Mainboard
  config : Config
  framebuffer : Framebuffer
  /-- Frames completed. -/
  frameCount : Nat := 0
  queue : KeyQueue := {}
  /-- When the last frame ended, in nanoseconds of any clock. -/
  lastFrame : Option Nat := none
  statistics : Statistics := {}
  /-- Notices that nobody has taken yet. -/
  notices : Array Notice := #[]

namespace Machine

@[inline] def cpu (m : Machine) : Z80.Cpu := m.system.cpu

@[inline] def board (m : Machine) : Mainboard := m.system.bus

@[inline] def mapBoard (f : Mainboard → Mainboard) (m : Machine) : Machine :=
  { m with system.bus := f m.system.bus }

@[inline] def mapCpu (f : Z80.Cpu → Z80.Cpu) (m : Machine) : Machine :=
  { m with system.cpu := f m.system.cpu }

def notify (n : Notice) (m : Machine) : Machine := { m with notices := m.notices.push n }

/-- Takes the notices. -/
def takeNotices (m : Machine) : List Notice × Machine :=
  (m.notices.toList, { m with notices := #[] })

/-! ## Descriptions -/

/-- The machine in one line. -/
def description (m : Machine) : String :=
  let slots := ", ".intercalate (m.board.memory.populatedSlots.map fun slot => toString slot.toNat)
  m.config.model.name ++ ", " ++ toString m.board.memory.ramKb ++ " KB RAM, " ++
    m.config.monitor.name ++ " monitor, " ++ toString m.config.refresh.hertz ++ " Hz, " ++
    m.config.keyboard.name ++ " keyboard, " ++ m.config.manufacturer.name ++ "; upper ROMs: " ++
    slots

/-- A drive in one line. -/
def driveDescription (n : Floppy.DriveNumber) (m : Machine) : String :=
  let drive := m.board.fdc.drive n
  let motor := "motor " ++ if m.board.fdc.motor then "on" else "off"
  match drive.disk with
  | none => n.letter ++ ": empty, " ++ motor
  | some disk =>
    n.letter ++ ": " ++ toString disk.cylinders ++ " cyl, " ++ toString disk.sides ++ " side" ++
      (if disk.sides = 1 then "" else "s") ++ ", cylinder " ++ toString drive.cylinder.toNat ++
      ", " ++ motor ++ (if disk.extended then ", extended" else "") ++
      if disk.modified then ", modified" else ""

/-- The drive of a number in one line. -/
def numberedDriveDescription (n : Nat) (m : Machine) : String :=
  match Floppy.DriveNumber.ofNat? n with
  | some drive => m.driveDescription drive
  | none => "drive " ++ toString n ++ ": not fitted"

/-- The counters since the last reset in one line. -/
def statisticsText (m : Machine) : String :=
  "frames " ++ toString m.statistics.frames ++ ", rendered " ++ toString m.statistics.rendered ++
    ", skipped " ++ toString m.statistics.skipped ++ ", interrupts " ++
    toString m.board.interrupts ++ ", T-states " ++ toString m.cpu.tStates

/-! ## Building and resetting -/

/-- The memory of a configuration. -/
def buildMemory (config : Config) : Except MemoryError Memory := do
  let memory ← Memory.build config.ramKb config.systemRom
  config.upperRoms.foldlM (fun m (slot, image) => m.loadUpperRom slot image) memory

/-- Power-on state. The RAM and the disks stay. -/
def reset (m : Machine) : Machine :=
  { system := { m.system with cpu := m.cpu.reset, bus := m.board.reset }
    config := m.config
    framebuffer := m.framebuffer.clear
    notices := m.notices }

/-- A machine of a configuration, after power-on. -/
def build (config : Config) : Except MemoryError Machine := do
  let memory ← buildMemory config
  let board : Mainboard :=
    { memory, manufacturer := config.manufacturer.code, refresh50 := config.refresh = .hz50 }
  let m : Machine := reset
    { system := { cpu := {}, bus := board }
      config
      framebuffer := .blank config.pixelFormat config.monitor }
  return m.notify (.ready m.description)

/-- Exchanges the memory for that of another configuration, and resets. -/
def rebuild (config : Config) (m : Machine) : Except MemoryError Machine := do
  let memory ← buildMemory config
  let m := reset { m.mapBoard fun b => { b with memory } with config }
  return m.notify (.ready m.description)

/-! ## Settings -/

def setModel (model : Model) (m : Machine) : Except MemoryError Machine :=
  m.rebuild { m.config with model }

def setRam (ramKb? : Option Nat) (m : Machine) : Except MemoryError Machine :=
  m.rebuild { m.config with ramKb? }

def setMonitor (monitor : Monitor) (m : Machine) : Machine :=
  { m with config.monitor := monitor, framebuffer := m.framebuffer.setMonitor monitor }

def setRefresh (refresh : Refresh) (m : Machine) : Machine :=
  { m with config.refresh := refresh, system.bus.refresh50 := refresh = .hz50 }

def setKeyboard (layout : KeyboardLayout) (m : Machine) : Machine :=
  { m with config.keyboard := layout }

def setManufacturer (manufacturer : Manufacturer) (m : Machine) : Machine :=
  { m.mapBoard (·.setManufacturer manufacturer.code) with config.manufacturer := manufacturer }

def setPixelFormat (format : PixelFormat) (m : Machine) : Machine :=
  { m with config.pixelFormat := format, framebuffer := m.framebuffer.setFormat format }

def setFrameSkip (on : Bool) (m : Machine) : Machine := { m with config.frameSkip := on }

/-! ## Keys -/

def mapKeyboard (f : Keyboard → Keyboard) (m : Machine) : Machine :=
  m.mapBoard fun b => { b with keyboard := f b.keyboard }

/-- Types a text from the frame at hand on, and gives the frame at which that is done. -/
def typeText (text : String) (m : Machine) : Nat × Machine :=
  let (frame, queue) := m.queue.type m.config.keyboard text m.frameCount
  (frame, { m with queue })

end Machine

end AmstradCpc
