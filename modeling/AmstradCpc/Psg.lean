/-!
# Sound generator

The AY-3-8910 as the CPU sees it: sixteen registers, each as wide as it is, reached over a bus of
two control pins, and two ports of eight pins. Tone, noise and envelope are shown as decoded
registers; no sound is made.
-/

namespace AmstradCpc

/-- What the control pins ask of the chip. -/
inductive PsgFunction
  | inactive
  /-- Drive the selected register onto the bus. -/
  | read
  /-- Latch the bus into the selected register. -/
  | write
  /-- Latch the bus into the register address. -/
  | address
  deriving DecidableEq, Repr, Inhabited

def PsgFunction.name : PsgFunction → String
  | .inactive => "Inactive"
  | .read => "Read"
  | .write => "Write"
  | .address => "Address"

def PsgFunction.ofPins (bdir bc1 : Bool) : PsgFunction :=
  match bdir, bc1 with
  | false, false => .inactive
  | false, true => .read
  | true, false => .write
  | true, true => .address

structure Psg where
  regs : Vector UInt8 16 := .replicate 16 0
  selected : UInt8 := 0
  /-- Levels that other hardware puts on the pins of each port. -/
  portAInput : UInt8 := 0xFF
  portBInput : UInt8 := 0xFF
  deriving DecidableEq, Repr, Inhabited

/-- The settings of one channel. -/
structure PsgChannel where
  tonePeriod : UInt16
  toneEnabled : Bool
  noiseEnabled : Bool
  /-- The fixed amplitude, or none when the channel follows the envelope. -/
  amplitude : Option UInt8
  deriving DecidableEq, Repr, Inhabited

namespace Psg

/-- The bits each register keeps. -/
def widths : Vector UInt8 16 :=
  #v[0xFF, 0x0F, 0xFF, 0x0F, 0xFF, 0x0F, 0x1F, 0xFF, 0x1F, 0x1F, 0x1F, 0xFF, 0xFF, 0x0F, 0xFF,
    0xFF]

/-- Clears the registers. The levels on the ports are not the chip's to change. -/
def reset (psg : Psg) : Psg := { psg with regs := .replicate 16 0, selected := 0 }

/-! ## Register access -/

def select (v : UInt8) (psg : Psg) : Psg := { psg with selected := v &&& 0x0F }

/-- Loads a register; its number counts modulo 16. -/
def setRegister (n : Nat) (v : UInt8) (psg : Psg) : Psg :=
  { psg with regs := psg.regs.set (n % 16) (v &&& widths[n % 16]) (Nat.mod_lt n (by decide)) }

/-- A register's content; its number counts modulo 16. -/
def register (psg : Psg) (n : Nat) : UInt8 := psg.regs[n % 16]

def write (v : UInt8) (psg : Psg) : Psg := psg.setRegister psg.selected.toNat v

/-- The mixer register, which also holds the direction of the ports. -/
def mixer (psg : Psg) : UInt8 := psg.regs[7]

/-- Reads the selected register. A port that the mixer makes an input reads its pins. -/
def read (psg : Psg) : UInt8 :=
  if psg.selected == 14 && psg.mixer &&& 0x40 == 0 then psg.portAInput
  else if psg.selected == 15 && psg.mixer &&& 0x80 == 0 then psg.portBInput
  else psg.register psg.selected.toNat

/-- One bus cycle, with the byte that the chip drives onto the bus in a read. -/
def cycle (function : PsgFunction) (data : UInt8) (psg : Psg) : Option UInt8 × Psg :=
  match function with
  | .inactive => (none, psg)
  | .read => (some psg.read, psg)
  | .write => (none, psg.write data)
  | .address => (none, psg.select data)

/-! ## Decoded settings -/

/-- A channel's settings; its number counts modulo 3. Mixer bits are active low. -/
def channel (psg : Psg) (n : Nat) : PsgChannel :=
  let n := n % 3
  let level := psg.register (8 + n)
  { tonePeriod := (psg.register (2 * n + 1)).toUInt16 <<< 8 ||| (psg.register (2 * n)).toUInt16
    toneEnabled := psg.mixer &&& (1 <<< n.toUInt8) == 0
    noiseEnabled := psg.mixer &&& (8 <<< n.toUInt8) == 0
    amplitude := if level &&& 0x10 != 0 then none else some level }

def noisePeriod (psg : Psg) : UInt8 := psg.regs[6]

def envelopePeriod (psg : Psg) : UInt16 := psg.regs[12].toUInt16 <<< 8 ||| psg.regs[11].toUInt16

def envelopeShape (psg : Psg) : UInt8 := psg.regs[13]

end Psg

end AmstradCpc
