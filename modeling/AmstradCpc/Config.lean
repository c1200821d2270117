import AmstradCpc.Keyboard.Layout
import AmstradCpc.Screen.PixelFormat

/-!
# Configuration

The choices that make up a machine: its model, what is fitted to it, and how its picture is stored.
-/

namespace AmstradCpc

inductive Model
  | cpc464 | cpc664 | cpc6128
  deriving DecidableEq, Repr, Inhabited

namespace Model

def all : List Model := [.cpc464, .cpc664, .cpc6128]

/-- The number that tells the models apart. -/
def number : Model → String
  | .cpc464 => "464"
  | .cpc664 => "664"
  | .cpc6128 => "6128"

def ofNumber? (number : String) : Option Model := all.find? (·.number == number)

def name : Model → String
  | .cpc464 => "CPC 464"
  | .cpc664 => "CPC 664"
  | .cpc6128 => "CPC 6128"

/-- The RAM it is sold with, in KB. -/
def standardRamKb : Model → Nat
  | .cpc464 | .cpc664 => 64
  | .cpc6128 => 128

/-- The model's number in snapshots. -/
def snapshotType : Model → UInt8
  | .cpc464 => 0
  | .cpc664 => 1
  | .cpc6128 => 2

def ofSnapshotType? : UInt8 → Option Model
  | 0 => some .cpc464
  | 1 => some .cpc664
  | 2 => some .cpc6128
  | _ => none

theorem ofSnapshotType_snapshotType (m : Model) : ofSnapshotType? m.snapshotType = some m := by
  cases m <;> rfl

end Model

/-- The refresh rate of the monitor, as a strap on the board tells it. -/
inductive Refresh
  | hz50 | hz60
  deriving DecidableEq, Repr, Inhabited

namespace Refresh

def hertz : Refresh → Nat
  | .hz50 => 50
  | .hz60 => 60

def ofHertz? : Nat → Option Refresh
  | 50 => some .hz50
  | 60 => some .hz60
  | _ => none

/-- Microseconds in a frame. -/
def frameMicros : Refresh → Nat
  | .hz50 => 20000
  | .hz60 => 16667

end Refresh

/-- The maker whose name the firmware shows at power-on, as three straps on the board tell it. -/
inductive Manufacturer
  | isp | triumph | saisho | solavox | awa | schneider | orion | amstrad
  deriving DecidableEq, Repr, Inhabited

namespace Manufacturer

def all : List Manufacturer :=
  [.isp, .triumph, .saisho, .solavox, .awa, .schneider, .orion, .amstrad]

def name : Manufacturer → String
  | .isp => "Isp"
  | .triumph => "Triumph"
  | .saisho => "Saisho"
  | .solavox => "Solavox"
  | .awa => "Awa"
  | .schneider => "Schneider"
  | .orion => "Orion"
  | .amstrad => "Amstrad"

def ofName? (name : String) : Option Manufacturer := all.find? (·.name == name)

/-- The straps as a number of three bits. -/
def code : Manufacturer → UInt8
  | .orion => 0
  | .awa => 1
  | .solavox => 2
  | .saisho => 3
  | .triumph => 4
  | .schneider => 5
  | .isp => 6
  | .amstrad => 7

end Manufacturer

structure Config where
  model : Model
  monitor : Monitor := .colour
  refresh : Refresh := .hz50
  keyboard : KeyboardLayout := .qwerty
  manufacturer : Manufacturer := .amstrad
  /-- RAM in KB, or none for what the model is sold with. -/
  ramKb? : Option Nat := none
  /-- The operating system, then BASIC. -/
  systemRom : ByteArray
  /-- Upper ROMs, each with its slot. -/
  upperRoms : List (UInt8 × ByteArray) := []
  pixelFormat : PixelFormat := .xrgb8888
  /-- Leave out the picture of a frame that came late. -/
  frameSkip : Bool := true
  deriving Inhabited

/-- The RAM in KB. -/
def Config.ramKb (c : Config) : Nat := c.ramKb?.getD c.model.standardRamKb

end AmstradCpc
