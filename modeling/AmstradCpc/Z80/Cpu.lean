import AmstradCpc.Z80.Bus
import AmstradCpc.Z80.Registers
import AmstradCpc.Z80.Timing

/-!
# The state of the CPU

Registers, the interrupt latches, and the counters. Requests are latched until they are accepted:
`Cpu.acceptance` says which one, if any, the next step takes. An `EI` holds a maskable request off
for one step, and a prefix cut short by another one holds every request off until an opcode is
reached.
-/

namespace AmstradCpc.Z80

/-- T-states from one poll to the next unless set otherwise: a scanline of 64 microseconds. -/
def defaultPeriod : Int := 256

structure Cpu where
  regs : Registers := {}
  /-- T-states from one interrupt poll to the next. -/
  period : Int := defaultPeriod
  /-- T-states left until the next poll; an overshoot makes it negative. -/
  countdown : Int := defaultPeriod
  /-- The last step executed `EI`. -/
  eiDelay : Bool := false
  /-- The last step was a prefix that another prefix cut short. -/
  inPrefix : Bool := false
  intPending : Bool := false
  nmiPending : Bool := false
  context : DecodeContext := .base
  tStates : Nat := 0
  /-- Opcode fetches, prefixes included. -/
  m1Cycles : Nat := 0
  deriving DecidableEq, Repr, Inhabited

namespace Cpu

/-- Sets the period, at least 1, and starts a new one. -/
def setPeriod (cpu : Cpu) (t : Int) : Cpu :=
  let period := max t 1
  { cpu with period, countdown := period }

/-- The power-on state: `AF` and `SP` hold ones, all else zeros. The period stays. -/
def reset (cpu : Cpu) : Cpu :=
  { regs := { a := 0xFF, f := 0xFF, sp := 0xFFFF }
    period := cpu.period
    countdown := cpu.period }

/-! ## Requests -/

/-- Whether a maskable request would be taken at the next step. -/
def ready (cpu : Cpu) : Bool := cpu.regs.iff1 && !cpu.eiDelay && !cpu.inPrefix

/-- Latches a maskable request. -/
def interrupt (cpu : Cpu) : Cpu := { cpu with intPending := true }

/-- Drops a latched maskable request. -/
def clearInterrupt (cpu : Cpu) : Cpu := { cpu with intPending := false }

def nmi (cpu : Cpu) : Cpu := { cpu with nmiPending := true }

/-- Latches what a poll asks for. -/
def latch (cpu : Cpu) : InterruptRequest → Cpu
  | .none => cpu
  | .maskable => cpu.interrupt
  | .nonMaskable => cpu.nmi

/-- What the next step accepts. -/
inductive Acceptance
  | none | maskable | nonMaskable
  deriving DecidableEq, Repr, Inhabited

def acceptance (cpu : Cpu) : Acceptance :=
  if cpu.inPrefix then .none
  else if cpu.nmiPending then .nonMaskable
  else if cpu.intPending && cpu.regs.iff1 && !cpu.eiDelay then .maskable
  else .none

/-- Counts an opcode fetch. -/
@[inline] def countFetch (cpu : Cpu) : Cpu :=
  { cpu with regs := cpu.regs.refresh, m1Cycles := cpu.m1Cycles + 1 }

end Cpu

end AmstradCpc.Z80
