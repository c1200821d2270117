import AmstradCpc.Crtc
import AmstradCpc.Floppy.Controller
import AmstradCpc.GateArray
import AmstradCpc.Keyboard
import AmstradCpc.Memory
import AmstradCpc.Ppi
import AmstradCpc.Psg
import AmstradCpc.Z80.Bus

/-!
# Mainboard

All that the CPU reaches over its bus: the memory, the chips, the keyboard and a few straps.

Ports are decoded by single address lines. A device answers whenever its line is low, whatever the
others are, so one access can reach several devices:

* A15: the Gate Array, which can be written only;
* A14: the CRTC, where A9 and A8 tell select, write, status and read apart;
* A13: the selection of the upper ROM, which can be written only;
* A12: the printer, which can be written only;
* A11: the parallel interface, where A9 and A8 are the port;
* A10: the expansion bus, which has the floppy disk controller where A7 is low too.

They are visited in this order. What a read yields is the answer of the last device, or zero if
there is none.

The parallel interface leads on to the sound generator, whose control pins are bits 7 and 6 of port
C, and through that to the keyboard, whose line is in bits 3 to 0 of port C.

Every poll is a scanline, which the Gate Array counts.
-/

namespace AmstradCpc

structure Mainboard where
  memory : Memory
  gateArray : GateArray := {}
  crtc : Crtc := {}
  ppi : Ppi := {}
  psg : Psg := {}
  fdc : Floppy.Controller := {}
  keyboard : Keyboard := {}
  /-- The straps that name the maker, three bits. -/
  manufacturer : UInt8 := 7
  /-- The strap for a refresh rate of 50 Hz. -/
  refresh50 : Bool := true
  /-- The level from the cassette. -/
  cassetteIn : Bool := false
  /-- Up also when there is no printer. -/
  printerBusy : Bool := true
  expansionPresent : Bool := false
  /-- The byte last written to the printer. -/
  printerData : UInt8 := 0
  /-- Interrupts raised since power-on. -/
  interrupts : Nat := 0
  /-- Vertical syncs begun since power-on. -/
  vsyncGroups : Nat := 0
  deriving Inhabited

namespace Mainboard

/-! ## The host's side -/

/-- Works out the banks anew. -/
def remap (b : Mainboard) : Mainboard :=
  { b with memory := b.memory.remap b.gateArray.romConfig b.gateArray.ramConfig }

/-- Power-on state. The RAM, the disks and the straps stay. -/
def reset (b : Mainboard) : Mainboard :=
  remap { b with
    memory := b.memory.selectUpperRom 0
    gateArray := {}
    crtc := {}
    ppi := b.ppi.reset
    psg := b.psg.reset
    fdc := b.fdc.reset
    keyboard := b.keyboard.releaseAll
    printerData := 0
    interrupts := 0
    vsyncGroups := 0 }

def setManufacturer (code : UInt8) (b : Mainboard) : Mainboard :=
  { b with manufacturer := code &&& 7 }

/-! ## Levels between the chips -/

/-- The levels on port B of the parallel interface. -/
def portBInput (b : Mainboard) : UInt8 :=
  (b.manufacturer <<< 1) |||
    (if b.gateArray.vsync then 0x01 else 0) |||
    (if b.refresh50 then 0x10 else 0) |||
    (if b.expansionPresent then 0x20 else 0) |||
    (if b.printerBusy then 0x40 else 0) |||
    (if b.cassetteIn then 0x80 else 0)

/-- The line of the keyboard that is selected. -/
def keyboardLine (b : Mainboard) : UInt8 := b.ppi.portCOutput &&& 0x0F

/-- What the control pins ask of the sound generator. -/
def psgFunction (b : Mainboard) : PsgFunction :=
  .ofPins (b.ppi.portCOutput &&& 0x80 != 0) (b.ppi.portCOutput &&& 0x40 != 0)

/-- Brings up the levels on port A of the parallel interface: what the sound generator drives, which
may be the keyboard line on its own port A, or else ones. -/
def drivePortA (b : Mainboard) : Mainboard :=
  if b.psgFunction = .read then
    let psg := { b.psg with portAInput := b.keyboard.read b.keyboardLine.toNat }
    { b with psg, ppi.externalA := psg.read }
  else { b with ppi.externalA := 0xFF }

/-! ## Writing to devices -/

def writeGateArray (v : UInt8) (b : Mainboard) : Mainboard :=
  let (register, gateArray) := b.gateArray.write v
  let b := { b with gateArray }
  match register with
  | .romConfig | .ramConfig => b.remap
  | .pen | .ink => b

/-- Selects a register, or writes the selected one. -/
def writeCrtc (function v : UInt8) (b : Mainboard) : Mainboard :=
  match function with
  | 0 => { b with crtc := b.crtc.select v }
  | 1 => { b with crtc := b.crtc.write v }
  | _ => b

def writeRomSelect (v : UInt8) (b : Mainboard) : Mainboard :=
  remap { b with memory := b.memory.selectUpperRom v }

def writePrinter (v : UInt8) (b : Mainboard) : Mainboard := { b with printerData := v }

/-- Any write but one to port B goes on to the sound generator, which sees port A on its bus. -/
def writePpi (port : PpiPort) (v : UInt8) (b : Mainboard) : Mainboard :=
  let b := { b with ppi := b.ppi.write port v }
  match port with
  | .b => b
  | .a | .c | .control =>
    { b with psg := (b.psg.cycle b.psgFunction b.ppi.portAOutput).2 }

/-- With A8 low this is the motor switch, with A8 and A0 high the data register. -/
def writeExpansion (port : UInt16) (v : UInt8) (b : Mainboard) : Mainboard :=
  if port &&& 0x0080 != 0 then b
  else if port &&& 0x0100 == 0 then { b with fdc := b.fdc.setMotor (v &&& 1 != 0) }
  else if port &&& 0x0001 == 0 then b
  else { b with fdc := b.fdc.write v }

/-! ## Reading from devices -/

/-- Reads the status or the selected register. -/
def readCrtc (function : UInt8) (b : Mainboard) : UInt8 :=
  match function with
  | 2 => b.crtc.status
  | 3 => b.crtc.read
  | _ => 0

def readPpi (port : PpiPort) (b : Mainboard) : UInt8 × Mainboard :=
  let b := match port with
    | .a => b.drivePortA
    | .b => { b with ppi.externalB := b.portBInput }
    | .c | .control => b
  (b.ppi.read port, b)

/-- With A8 high this is the data register or, where A0 is low, the status. -/
def readExpansion (port : UInt16) (b : Mainboard) : UInt8 × Mainboard :=
  if port &&& 0x0080 != 0 then (0, b)
  else if port &&& 0x0100 == 0 then (0, b)
  else if port &&& 0x0001 == 0 then (b.fdc.status, b)
  else
    let (v, fdc) := b.fdc.read
    (v, { b with fdc })

/-! ## Ports -/

/-- An address line is low. -/
@[inline] def low (port line : UInt16) : Bool := port &&& line == 0

/-- Address lines 9 and 8. -/
def functionOf (port : UInt16) : UInt8 := ((port >>> 8) &&& 3).toUInt8

def output (port : UInt16) (v : UInt8) (b : Mainboard) : Mainboard :=
  let function := functionOf port
  let b := if low port 0x8000 then b.writeGateArray v else b
  let b := if low port 0x4000 then b.writeCrtc function v else b
  let b := if low port 0x2000 then b.writeRomSelect v else b
  let b := if low port 0x1000 then b.writePrinter v else b
  let b := if low port 0x0800 then b.writePpi (.ofBits function) v else b
  if low port 0x0400 then b.writeExpansion port v else b

def input (port : UInt16) (b : Mainboard) : UInt8 × Mainboard :=
  let function := functionOf port
  let v := if low port 0x4000 then b.readCrtc function else 0
  let (v, b) := if low port 0x0800 then b.readPpi (.ofBits function) else (v, b)
  if low port 0x0400 then b.readExpansion port else (v, b)

/-! ## The bus -/

/-- Counts a scanline. -/
def scanline (b : Mainboard) : Mainboard :=
  let (raised, gateArray) := b.gateArray.scanline
  let b := { b with gateArray }
  if raised then
    { b with
      interrupts := b.interrupts + 1
      vsyncGroups := if gateArray.vsync then b.vsyncGroups + 1 else b.vsyncGroups }
  else b

instance : Z80.Bus Mainboard where
  read a b := (b.memory.read a, b)
  write a v b := { b with memory := b.memory.write a v }
  input := input
  output := output
  acknowledge b := (0xFF, { b with gateArray := b.gateArray.acknowledge })

instance : Z80.InterruptSource Mainboard where
  poll b :=
    let b := b.scanline
    (if b.gateArray.intRequest then .maskable else .none, b)

theorem pureReads : Z80.Bus.PureReads Mainboard := fun _ _ => rfl

end Mainboard

end AmstradCpc
