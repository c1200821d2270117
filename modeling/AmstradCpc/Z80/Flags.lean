/-!
# Flag bits

The flag register holds sign, zero, half carry, parity or overflow, subtract and carry, and two
undocumented copies of result bits 5 and 3. This module names the bits and gives the flags that
depend on a result byte alone.
-/

namespace AmstradCpc.Z80

/-! ## The bits -/

namespace Flag

/-- Sign: bit 7 of the result. -/
def sign : UInt8 := 0x80

def zero : UInt8 := 0x40

/-- Undocumented copy of result bit 5. -/
def y : UInt8 := 0x20

/-- Carry out of bit 3. -/
def half : UInt8 := 0x10

/-- Undocumented copy of result bit 3. -/
def x : UInt8 := 0x08

/-- Parity or overflow, depending on the instruction. -/
def parity : UInt8 := 0x04

/-- The last operation was a subtraction. -/
def subtract : UInt8 := 0x02

def carry : UInt8 := 0x01

/-- The two undocumented bits together. -/
def xy : UInt8 := 0x28

/-- The bits that most rotates, `SCF` and 16-bit additions leave alone. -/
def signZeroParity : UInt8 := 0xC4

end Flag

/-- The bits of `mask`, if the condition holds. -/
@[inline] def flagIf (condition : Bool) (mask : UInt8) : UInt8 := if condition then mask else 0

/-- Whether the flags in `mask`, a single bit, are up in `f`. -/
@[inline] def hasFlag (f mask : UInt8) : Bool := f &&& mask != 0

/-! ## Flags of a result byte -/

/-- Whether an even number of bits is up: each fold halves the width and keeps the parity. -/
def evenParity (v : UInt8) : Bool :=
  let v := v ^^^ (v >>> 4)
  let v := v ^^^ (v >>> 2)
  let v := v ^^^ (v >>> 1)
  v &&& 1 == 0

/-- Sign, zero, and the two undocumented bits of a result. -/
def resultFlags (v : UInt8) : UInt8 := (v &&& (Flag.sign ||| Flag.xy)) ||| flagIf (v == 0) Flag.zero

/-- Those of `resultFlags` with the parity of the result. -/
def parityFlags (v : UInt8) : UInt8 := resultFlags v ||| flagIf (evenParity v) Flag.parity

end AmstradCpc.Z80
