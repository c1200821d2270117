import AmstradCpc.Z80.Bus

/-!
# A flat memory with scripted ports

The plainest system the CPU can drive: 64 KB of RAM, ports that always answer the same, and a list
of answers for interrupt polls. The bus records what the CPU does to it, memory reads excepted.
Main statement: a read sees the last byte written to its address (`FlatMemory.read_write`).
-/

namespace AmstradCpc.Z80

/-! ## Memory -/

/-- The 64 KB, one byte for every address. -/
structure FlatMemory where
  bytes : ByteArray
  size_eq : bytes.size = 0x10000

namespace FlatMemory

theorem lt_size (m : FlatMemory) (a : UInt16) : a.toNat < m.bytes.size := by
  rw [m.size_eq]
  exact a.toNat_lt

/-- Memory full of zeros. -/
def zeros : FlatMemory where
  bytes := ⟨Array.replicate 0x10000 0⟩
  size_eq := Array.size_replicate

instance : Inhabited FlatMemory := ⟨zeros⟩

@[inline] def read (m : FlatMemory) (a : UInt16) : UInt8 := m.bytes.get a.toNat (m.lt_size a)

@[inline] def write (m : FlatMemory) (a : UInt16) (v : UInt8) : FlatMemory where
  bytes := m.bytes.set a.toNat v (m.lt_size a)
  size_eq := (Array.size_set _).trans m.size_eq

theorem read_zeros (a : UInt16) : zeros.read a = 0 :=
  Array.getElem_replicate _

theorem read_write (m : FlatMemory) (a b : UInt16) (v : UInt8) :
    (m.write a v).read b = if a = b then v else m.read b := by
  refine (Array.getElem_set (m.lt_size a) ((m.write a v).lt_size b)).trans ?_
  simp only [UInt16.toNat_inj]
  rfl

end FlatMemory

/-! ## The bus -/

/-- What the CPU did to the bus. -/
inductive BusEvent
  | write (a : UInt16) (v : UInt8)
  | input (port : UInt16) (v : UInt8)
  | output (port : UInt16) (v : UInt8)
  | acknowledge
  deriving DecidableEq, Repr, Inhabited

structure FlatBus where
  memory : FlatMemory := .zeros
  /-- Ports with the answers they give. -/
  ports : List (UInt16 × UInt8) := []
  /-- What the other ports answer. -/
  floating : UInt16 → UInt8 := fun _ => 0xFF
  /-- The byte on the data lines when an interrupt is acknowledged. -/
  data : UInt8 := 0xFF
  /-- Answers of the coming polls; after them, none. -/
  polls : List InterruptRequest := []
  pollCount : Nat := 0
  events : Array BusEvent := #[]

namespace FlatBus

@[inline] def record (bus : FlatBus) (e : BusEvent) : FlatBus :=
  { bus with events := bus.events.push e }

/-- What a port answers. -/
def answer (bus : FlatBus) (port : UInt16) : UInt8 :=
  (bus.ports.lookup port).getD (bus.floating port)

instance : Bus FlatBus where
  read a bus := (bus.memory.read a, bus)
  write a v bus := { bus.record (.write a v) with memory := bus.memory.write a v }
  input port bus := (bus.answer port, bus.record (.input port (bus.answer port)))
  output port v bus := bus.record (.output port v)
  acknowledge bus := (bus.data, bus.record .acknowledge)

instance : InterruptSource FlatBus where
  poll bus := (bus.polls.headD .none,
    { bus with polls := bus.polls.tail, pollCount := bus.pollCount + 1 })

theorem pureReads : Bus.PureReads FlatBus := fun _ _ => rfl

end FlatBus

end AmstradCpc.Z80
