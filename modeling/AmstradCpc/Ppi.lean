/-!
# Parallel interface

The 8255 has three ports and a control register. A control byte with bit 7 up sets the direction of
the ports and clears their latches; with bit 7 down it sets or resets one bit of port C. Only simple
input and output are modelled. Port C has a direction for each half.
-/

namespace AmstradCpc

structure Ppi where
  portA : UInt8 := 0
  portB : UInt8 := 0
  portC : UInt8 := 0
  /-- At power-on every port is an input. -/
  control : UInt8 := 0x9B
  /-- Levels that other hardware drives onto the pins of each port. -/
  externalA : UInt8 := 0xFF
  externalB : UInt8 := 0xFF
  externalC : UInt8 := 0xFF
  deriving DecidableEq, Repr, Inhabited

/-- The four addresses of the chip. -/
inductive PpiPort
  | a | b | c | control
  deriving DecidableEq, Repr, Inhabited

def PpiPort.ofBits (n : UInt8) : PpiPort :=
  match n &&& 3 with
  | 0 => .a
  | 1 => .b
  | 2 => .c
  | _ => .control

namespace Ppi

/-- Power-on state. The external levels are not the chip's to change. -/
def reset (ppi : Ppi) : Ppi := { ppi with portA := 0, portB := 0, portC := 0, control := 0x9B }

/-! ## Directions -/

def portAIsInput (ppi : Ppi) : Bool := ppi.control &&& 0x10 != 0

def portBIsInput (ppi : Ppi) : Bool := ppi.control &&& 0x02 != 0

/-- The bits of port C that are inputs. -/
def portCInputs (ppi : Ppi) : UInt8 :=
  (if ppi.control &&& 0x08 != 0 then 0xF0 else 0) |||
    (if ppi.control &&& 0x01 != 0 then 0x0F else 0)

/-- What the chip drives on port A; input pins float high. -/
def portAOutput (ppi : Ppi) : UInt8 := if ppi.portAIsInput then 0xFF else ppi.portA

/-- What the chip drives on port C; input pins float high. -/
def portCOutput (ppi : Ppi) : UInt8 := ppi.portC ||| ppi.portCInputs

/-! ## Access -/

/-- An input reads the external levels, an output its latch. The control register reads as ones. -/
def read (ppi : Ppi) : PpiPort → UInt8
  | .a => if ppi.portAIsInput then ppi.externalA else ppi.portA
  | .b => if ppi.portBIsInput then ppi.externalB else ppi.portB
  | .c => (ppi.externalC &&& ppi.portCInputs) ||| (ppi.portC &&& ~~~ppi.portCInputs)
  | .control => 0xFF

def writeControl (v : UInt8) (ppi : Ppi) : Ppi :=
  if v &&& 0x80 != 0 then { ppi with control := v, portA := 0, portB := 0, portC := 0 }
  else
    let bit := (1 : UInt8) <<< ((v >>> 1) &&& 7)
    { ppi with portC := if v &&& 1 != 0 then ppi.portC ||| bit else ppi.portC &&& ~~~bit }

/-- A write to an input port changes the latch, which shows when the port turns around. -/
def write (port : PpiPort) (v : UInt8) (ppi : Ppi) : Ppi :=
  match port with
  | .a => { ppi with portA := v }
  | .b => { ppi with portB := v }
  | .c => { ppi with portC := v }
  | .control => ppi.writeControl v

/-- Loads latches and directions without the effects of a control write. -/
def restore (ppi : Ppi) (a b c control : UInt8) : Ppi :=
  { ppi with portA := a, portB := b, portC := c, control := control ||| 0x80 }

end Ppi

end AmstradCpc
