import AmstradCpc.Z80.Execute

/-!
# Steps and periods

A step accepts a request, idles in `HALT`, or executes one instruction, and costs at least four
T-states (`System.four_le_step`). `System.runPeriod` takes steps until the instruction period is
used up and then polls the bus once. An overshoot is charged to the next period.
-/

namespace AmstradCpc.Z80

/-- The context of an instruction behind `DD` or `FD`. -/
def Index.context : Index → DecodeContext
  | .hl => .base
  | .ix => .dd
  | .iy => .fd

/-- The context of a `CB` opcode behind `DD` or `FD`. -/
def Index.bitContext : Index → DecodeContext
  | .hl => .cb
  | .ix => .ddcb
  | .iy => .fdcb

theorem Instr.four_le_cost (i : Instr) : 4 ≤ i.cost := by cases i <;> simp [Instr.cost]

theorem MemoryInstr.four_le_cost (m : MemoryInstr) : 4 ≤ m.cost := by
  cases m <;> simp [MemoryInstr.cost]

theorem BitInstr.four_le_cost (i : BitInstr) : 4 ≤ i.cost := by
  unfold BitInstr.cost
  split <;> decide

theorem BitOp.four_le_indexedCost (op : BitOp) : 4 ≤ op.indexedCost := by
  cases op <;> simp [BitOp.indexedCost]

theorem Extended.four_le_cost (i : Extended) : 4 ≤ i.cost := by
  cases i <;> simp [Extended.cost]

namespace System

variable {β : Type} [Bus β]

/-! ## Accepting requests -/

/-- Leaves `HALT` and counts the cycle in which a request is accepted. -/
@[inline] def enterService (s : System β) : System β :=
  let s := { s with cpu := s.cpu.countFetch }
  s.mapRegs fun r => { r with halted := false }

@[specialize] def acceptNonMaskable (s : System β) : Nat × System β :=
  let s := { s.enterService with cpu.nmiPending := false }
  let s := s.mapRegs fun r => { r with iff2 := r.iff1, iff1 := false }
  (11, (s.push s.regs.pc).goTo 0x0066)

/-- In mode 2 the byte on the bus completes the address of a vector, in mode 0 it is taken for a
restart, in mode 1 it is ignored. -/
@[specialize] def acceptMaskable (s : System β) : Nat × System β :=
  let s := { s.enterService with cpu.intPending := false }
  let s := s.mapRegs fun r => { r with iff1 := false, iff2 := false }
  let (data, bus) := Bus.acknowledge s.bus
  let s := { s with bus }
  let s := s.push s.regs.pc
  if s.regs.im == 2 then
    let (a, s) := s.readWord (word s.regs.i data)
    (19, s.goTo a)
  else if s.regs.im == 0 then (13, s.goTo (data &&& 0x38).toUInt16)
  else (13, s.goTo 0x0038)

/-! ## Instructions -/

/-- Executes `DD CB d xx`: neither the displacement nor the opcode counts as an opcode fetch. -/
@[specialize] def bitIndexed (x : Index) (s : System β) : Nat × System β :=
  let (a, s) := s.operandAddress x
  let (op, s) := s.fetchByte
  let i := BitInstr.decode op
  (i.op.indexedCost, i.execIndexed a (s.decodedIn x.bitContext))

/-- The instruction after `DD` or `FD`. Another prefix, `CB` excepted, cuts this one short: it is
left in memory and decoded afresh by the next step. -/
@[specialize] def indexed (x : Index) (s : System β) : Nat × System β :=
  let (next, s) := s.read s.regs.pc
  if (Opcode.decode next).cancelsIndex then (indexCost, { s with cpu.inPrefix := true })
  else
    let (op, s) := s.fetchOpcode
    match Opcode.decode op with
    | .plain i =>
      let (extra, s) := i.exec x (s.decodedIn x.context)
      (indexCost + i.cost + extra, s)
    | .memory m =>
      let (a, s) := (s.decodedIn x.context).operandAddress x
      (indexCost + m.cost + m.displacementCost, m.exec a s)
    | .bitPage => s.bitIndexed x
    | _ => (indexCost, s.decodedIn x.context)

@[specialize] def bitPage (s : System β) : Nat × System β :=
  let (op, s) := s.fetchOpcode
  let i := BitInstr.decode op
  (i.cost, i.exec (s.decodedIn .cb))

@[specialize] def extendedPage (s : System β) : Nat × System β :=
  let (op, s) := s.fetchOpcode
  let i := Extended.decode op
  let (extra, s) := i.exec op (s.decodedIn .ed)
  (i.cost + extra, s)

/-- Fetches and executes one instruction. -/
@[specialize] def instruction (s : System β) : Nat × System β :=
  let (op, s) := s.fetchOpcode
  match Opcode.decode op with
  | .plain i =>
    let (extra, s) := i.exec .hl (s.decodedIn .base)
    (i.cost + extra, s)
  | .memory m => (m.cost, m.exec s.regs.hl (s.decodedIn .base))
  | .bitPage => s.bitPage
  | .extendedPage => s.extendedPage
  | .indexPage x => s.indexed x

/-! ## Steps -/

/-- Accepts a request, idles in `HALT`, or executes an instruction. -/
@[specialize] def act (acceptance : Cpu.Acceptance) (s : System β) : Nat × System β :=
  match acceptance with
  | .nonMaskable => s.acceptNonMaskable
  | .maskable => s.acceptMaskable
  | .none =>
    if s.regs.halted then (4, { s with cpu := s.cpu.countFetch })
    else s.instruction

/-- One step, with the T-states it took. -/
@[specialize] def step (s : System β) : Nat × System β :=
  let acceptance := s.cpu.acceptance
  let (t, s) := act acceptance { s with cpu.eiDelay := false, cpu.inPrefix := false }
  (t, { s with cpu.tStates := s.cpu.tStates + t })

theorem four_le_indexed (x : Index) (s : System β) : 4 ≤ (s.indexed x).1 := by
  unfold indexed
  dsimp only
  split
  · exact Nat.le_refl 4
  · split
    · exact Nat.le_trans (Nat.le_add_right 4 _) (Nat.le_add_right _ _)
    · exact Nat.le_trans (Nat.le_add_right 4 _) (Nat.le_add_right _ _)
    · exact BitOp.four_le_indexedCost _
    · exact Nat.le_refl 4

theorem four_le_instruction (s : System β) : 4 ≤ s.instruction.1 := by
  unfold instruction
  dsimp only
  split
  · exact Nat.le_trans (Instr.four_le_cost _) (Nat.le_add_right _ _)
  · exact MemoryInstr.four_le_cost _
  · exact BitInstr.four_le_cost _
  · exact Nat.le_trans (Extended.four_le_cost _) (Nat.le_add_right _ _)
  · exact four_le_indexed _ _

/-- A step costs at least four T-states, whatever the bus answers. -/
theorem four_le_step (s : System β) : 4 ≤ s.step.1 := by
  simp only [step, act]
  split
  · exact (by decide : 4 ≤ 11)
  · simp only [acceptMaskable]
    split
    · exact (by decide : 4 ≤ 19)
    · split <;> exact (by decide : 4 ≤ 13)
  · split
    · exact Nat.le_refl 4
    · exact four_le_instruction _

/-! ## Periods -/

/-- Steps until `left` T-states are used up. Returns the T-states taken, on top of `elapsed`, and
how many are left, which is zero or less. -/
@[specialize] def runFor (left : Int) (elapsed : Nat) (s : System β) : Nat × Int × System β :=
  let r := s.step
  if left - r.1 ≤ 0 then (elapsed + r.1, left - r.1, r.2)
  else runFor (left - r.1) (elapsed + r.1) r.2
termination_by left.toNat
decreasing_by
  have := four_le_step s
  omega

/-- Runs until the instruction period is used up, then polls the bus once. Returns the T-states
taken. -/
@[specialize] def runPeriod [InterruptSource β] (s : System β) : Nat × System β :=
  let countdown := s.cpu.countdown
  let (elapsed, left, s) := runFor countdown 0 s
  let (request, bus) := InterruptSource.poll s.bus
  let cpu := s.cpu.latch request
  (elapsed, { s with bus, cpu := { cpu with countdown := left + cpu.period } })

end System

end AmstradCpc.Z80
