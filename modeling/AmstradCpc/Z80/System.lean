import AmstradCpc.Text.Hex
import AmstradCpc.Z80.Bus
import AmstradCpc.Z80.Cpu

/-!
# A CPU on a bus

`System β` is a CPU with the bus it drives. This module has the accesses that instructions are made
of: opcode and operand fetches, words in memory, and the stack. Every one takes the system and
returns it, so the order of the accesses is the order of the text.
-/

namespace AmstradCpc.Z80

/-- A hole in the `ED` page that was executed: the byte and the address of its prefix. -/
structure UndefinedOpcode where
  opcode : UInt8
  address : UInt16
  deriving DecidableEq, Repr, Inhabited

def UndefinedOpcode.message (u : UndefinedOpcode) : String :=
  "undefined opcode ED " ++ Hex.text 2 u.opcode.toNat ++ " at " ++ Hex.text 4 u.address.toNat ++
    ", treated as NOP"

/-- A CPU, the bus it drives, and the undefined opcodes it has met. -/
structure System (β : Type) where
  cpu : Cpu
  bus : β
  undefined : Array UndefinedOpcode := #[]

namespace System

variable {β : Type}

@[inline] def regs (s : System β) : Registers := s.cpu.regs

@[inline] def mapRegs (f : Registers → Registers) (s : System β) : System β :=
  { s with cpu.regs := f s.cpu.regs }

/-- Records which page the opcode came from. -/
@[inline] def decodedIn (context : DecodeContext) (s : System β) : System β :=
  { s with cpu.context := context }

variable [Bus β]

/-! ## Single accesses -/

@[inline] def read (a : UInt16) (s : System β) : UInt8 × System β :=
  let (v, bus) := Bus.read a s.bus
  (v, { s with bus })

@[inline] def write (a : UInt16) (v : UInt8) (s : System β) : System β :=
  { s with bus := Bus.write a v s.bus }

@[inline] def input (port : UInt16) (s : System β) : UInt8 × System β :=
  let (v, bus) := Bus.input port s.bus
  (v, { s with bus })

@[inline] def output (port : UInt16) (v : UInt8) (s : System β) : System β :=
  { s with bus := Bus.output port v s.bus }

/-! ## Fetches -/

/-- Reads the byte at `PC` and moves on. -/
@[specialize] def fetchByte (s : System β) : UInt8 × System β :=
  let (v, s) := s.read s.regs.pc
  (v, s.mapRegs fun r => { r with pc := r.pc + 1 })

/-- Fetches an opcode byte, which also counts in the refresh register. -/
@[specialize] def fetchOpcode (s : System β) : UInt8 × System β :=
  let (v, s) := s.fetchByte
  (v, { s with cpu := s.cpu.countFetch })

/-- Fetches a word, low byte first. -/
@[specialize] def fetchWord (s : System β) : UInt16 × System β :=
  let (lo, s) := s.fetchByte
  let (hi, s) := s.fetchByte
  (word hi lo, s)

/-! ## Words and the stack -/

@[specialize] def readWord (a : UInt16) (s : System β) : UInt16 × System β :=
  let (lo, s) := s.read a
  let (hi, s) := s.read (a + 1)
  (word hi lo, s)

@[specialize] def writeWord (a w : UInt16) (s : System β) : System β :=
  (s.write a (loByte w)).write (a + 1) (hiByte w)

/-- Pushes a word, high byte first. -/
@[specialize] def push (w : UInt16) (s : System β) : System β :=
  let sp := s.regs.sp
  let s := (s.write (sp - 1) (hiByte w)).write (sp - 2) (loByte w)
  s.mapRegs fun r => { r with sp := sp - 2 }

@[specialize] def pop (s : System β) : UInt16 × System β :=
  let sp := s.regs.sp
  let (w, s) := s.readWord sp
  (w, s.mapRegs fun r => { r with sp := sp + 2 })

/-- Continues at `a`, which the address latch also sees. -/
@[inline] def goTo (a : UInt16) (s : System β) : System β :=
  s.mapRegs fun r => { r with pc := a, wz := a }

/-- The address of a memory operand: `HL`, or the index pair plus a displacement fetched from the
instruction, which the address latch also sees. -/
@[specialize] def operandAddress (x : Index) (s : System β) : UInt16 × System β :=
  match x with
  | .hl => (s.regs.hl, s)
  | x =>
    let (d, s) := s.fetchByte
    let a := s.regs.index x + signExtend d
    (a, s.mapRegs fun r => { r with wz := a })

end System

end AmstradCpc.Z80
