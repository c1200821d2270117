/-!
# Gate Array

The Gate Array holds the 17 inks, the screen mode, the ROM enables and the RAM configuration, and
it counts scanlines to make the interrupts. The two top bits of a written byte pick the register.

A line counter advances once in every scanline. At 52 it starts over and the interrupt line goes up,
six times in a frame of 312 lines; a second counter numbers these groups of 52 lines, and group 0
carries the vertical sync. An acknowledge takes the line down and clears bit 5 of the line counter,
which pushes the next interrupt back if it came late.
-/

namespace AmstradCpc

/-- The register a write reaches. -/
inductive GateRegister
  | pen | ink | romConfig | ramConfig
  deriving DecidableEq, Repr, Inhabited

def GateRegister.name : GateRegister → String
  | .pen => "Pen"
  | .ink => "Ink"
  | .romConfig => "RomConfig"
  | .ramConfig => "RamConfig"

structure GateArray where
  pen : UInt8 := 0
  /-- Hardware colours of pens 0 to 15, then of the border. -/
  inks : Vector UInt8 17 := .replicate 17 0x14
  /-- Bits 1 and 0 are the screen mode, bit 2 hides the lower ROM, bit 3 the upper one. -/
  romConfig : UInt8 := 0
  /-- Bits 2 to 0 are the configuration, bits 5 to 3 the page of 64 KB it banks in. -/
  ramConfig : UInt8 := 0
  lineCounter : UInt8 := 0
  group : UInt8 := 0
  intRequest : Bool := false
  deriving DecidableEq, Repr, Inhabited

namespace GateArray

def linesPerInterrupt : UInt8 := 52

def interruptsPerFrame : UInt8 := 6

/-- The pen that colours the border. -/
def border : UInt8 := 16

/-- A write to the Gate Array port. Bit 4 of a ROM configuration restarts the line counter and
drops the interrupt request. -/
def write (v : UInt8) (ga : GateArray) : GateRegister × GateArray :=
  match v >>> 6 with
  | 0 => (.pen, { ga with pen := if v &&& 0x10 != 0 then border else v &&& 0x0F })
  | 1 => (.ink, { ga with inks := ga.inks.setIfInBounds ga.pen.toNat (v &&& 0x1F) })
  | 2 =>
    let ga := { ga with romConfig := v &&& 0x0F }
    (.romConfig, if v &&& 0x10 != 0 then { ga with lineCounter := 0, intRequest := false } else ga)
  | _ => (.ramConfig, { ga with ramConfig := v &&& 0x3F })

/-- Counts a scanline. The answer tells whether it raised the interrupt. -/
def scanline (ga : GateArray) : Bool × GateArray :=
  let line := ga.lineCounter + 1
  if line < linesPerInterrupt then (false, { ga with lineCounter := line })
  else
    (true, { ga with
      lineCounter := 0
      group := (ga.group + 1) % interruptsPerFrame
      intRequest := true })

/-- The CPU acknowledges the interrupt. -/
def acknowledge (ga : GateArray) : GateArray :=
  { ga with intRequest := false, lineCounter := ga.lineCounter &&& 0x1F }

/-- The vertical sync is up during the first group of a frame. -/
def vsync (ga : GateArray) : Bool := ga.group == 0

def ink (ga : GateArray) (pen : Nat) : UInt8 := ga.inks[pen % 17]

def mode (ga : GateArray) : UInt8 := ga.romConfig &&& 3

def lowerRomEnabled (ga : GateArray) : Bool := ga.romConfig &&& 0x04 == 0

def upperRomEnabled (ga : GateArray) : Bool := ga.romConfig &&& 0x08 == 0

/-- Loads the registers with arbitrary bytes, each brought into its range. The group stays. -/
def restore (ga : GateArray) (pen : UInt8) (inks : Vector UInt8 17)
    (romConfig ramConfig lineCounter : UInt8) (intRequest : Bool) : GateArray :=
  { ga with
    pen := if pen < border then pen else border
    inks := inks.map (· &&& 0x1F)
    romConfig := romConfig &&& 0x0F
    ramConfig := ramConfig &&& 0x3F
    lineCounter := lineCounter % linesPerInterrupt
    intRequest }

end GateArray

end AmstradCpc
