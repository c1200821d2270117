/-!
# The bus seen by the CPU

The Z80 reaches memory and devices over a bus: two address spaces of 16 bits, and the cycle that
acknowledges an interrupt. Any access may change the bus, a read too. A source of interrupts is
polled once in every instruction period.
-/

namespace AmstradCpc.Z80

/-- Memory, ports, and the interrupt acknowledge cycle, which yields the byte on the data lines. -/
class Bus (β : Type) where
  read : UInt16 → β → UInt8 × β
  write : UInt16 → UInt8 → β → β
  input : UInt16 → β → UInt8 × β
  output : UInt16 → UInt8 → β → β
  acknowledge : β → UInt8 × β

/-- What a poll asks of the CPU. -/
inductive InterruptRequest
  | none | maskable | nonMaskable
  deriving DecidableEq, Repr, Inhabited

class InterruptSource (β : Type) where
  poll : β → InterruptRequest × β

/-- The byte at an address, as a read would see it. -/
@[inline] def Bus.peek {β : Type} [Bus β] (bus : β) (a : UInt16) : UInt8 := (Bus.read a bus).1

/-- A bus on which reading memory changes nothing. -/
def Bus.PureReads (β : Type) [Bus β] : Prop := ∀ (a : UInt16) (bus : β), (Bus.read a bus).2 = bus

end AmstradCpc.Z80
