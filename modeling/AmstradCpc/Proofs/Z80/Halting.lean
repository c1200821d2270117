import AmstradCpc.Proofs.Z80.PureSteps

/-!
# The halt latch

Accepting a request takes the halt latch down and `HALT` puts it up; no other instruction touches it
(`Instr.halted_exec` and its neighbours). So on a bus where reads change nothing, a CPU that halts
sits just behind the byte of its `HALT`, and stays there while it idles
(`System.BehindHalt.step`).
-/

namespace AmstradCpc.Z80

/-- The byte of `HALT`. -/
def haltByte : UInt8 := 0x76

theorem Opcode.decode_halt_iff : ∀ op, decode op = .plain .halt ↔ op = haltByte := by decide +kernel

/-! ## The latch in the registers -/

namespace Registers

variable (r : Registers)

@[simp] theorem halted_setIndex (x : Index) (w : UInt16) :
    (r.setIndex x w).halted = r.halted := by
  cases x <;> rfl

@[simp] theorem halted_set (x : Index) (reg : Register) (v : UInt8) :
    (r.set x reg v).halted = r.halted := by
  cases reg <;> simp [set]

@[simp] theorem halted_setPair (x : Index) (p : Pair) (w : UInt16) :
    (r.setPair x p w).halted = r.halted := by
  cases p <;> simp [setPair, setBC, setDE]

@[simp] theorem halted_setStackPair (x : Index) (p : StackPair) (w : UInt16) :
    (r.setStackPair x p w).halted = r.halted := by
  cases p <;> simp [setStackPair, setBC, setDE, setAF]

@[simp] theorem halted_addToIndex (x : Index) (p : Pair) :
    (Instr.addToIndex x p r).halted = r.halted := by
  simp [Instr.addToIndex]

@[simp] theorem halted_execRegister (op : BitOp) (reg : Register) :
    (BitInstr.execRegister op reg r).halted = r.halted := by
  simp only [BitInstr.execRegister]
  split <;> simp

end Registers

/-! ## Accesses -/

namespace System

section Plain

variable {β : Type} (s : System β)

@[simp] theorem halted_mapRegs (f : Registers → Registers) :
    (s.mapRegs f).regs.halted = (f s.regs).halted := rfl

@[simp] theorem halted_goTo (a : UInt16) : (s.goTo a).regs.halted = s.regs.halted := rfl

@[simp] theorem halted_jumpBy (e : UInt8) :
    (Instr.jumpBy e s).regs.halted = s.regs.halted := rfl

end Plain

variable {β : Type} [Bus β] (s : System β)

@[simp] theorem halted_read (a : UInt16) : (s.read a).2.regs.halted = s.regs.halted := rfl

@[simp] theorem halted_write (a : UInt16) (v : UInt8) :
    (s.write a v).regs.halted = s.regs.halted := rfl

@[simp] theorem halted_input (p : UInt16) : (s.input p).2.regs.halted = s.regs.halted := rfl

@[simp] theorem halted_output (p : UInt16) (v : UInt8) :
    (s.output p v).regs.halted = s.regs.halted := rfl

@[simp] theorem halted_fetchByte : s.fetchByte.2.regs.halted = s.regs.halted := rfl

@[simp] theorem halted_fetchOpcode : s.fetchOpcode.2.regs.halted = s.regs.halted := rfl

@[simp] theorem halted_fetchWord : s.fetchWord.2.regs.halted = s.regs.halted := rfl

@[simp] theorem halted_readWord (a : UInt16) : (s.readWord a).2.regs.halted = s.regs.halted := rfl

@[simp] theorem halted_writeWord (a w : UInt16) :
    (s.writeWord a w).regs.halted = s.regs.halted := rfl

@[simp] theorem halted_push (w : UInt16) : (s.push w).regs.halted = s.regs.halted := rfl

@[simp] theorem halted_pop : s.pop.2.regs.halted = s.regs.halted := rfl

@[simp] theorem halted_operandAddress (x : Index) :
    (s.operandAddress x).2.regs.halted = s.regs.halted := by
  cases x <;> rfl

end System

/-! ## Instructions -/

section Instructions

variable {β : Type} [Bus β] (s : System β)

/-- Every instruction but `HALT` leaves the latch as it is. -/
theorem Instr.halted_exec {i : Instr} (hi : i ≠ .halt) (x : Index) :
    (i.exec x s).2.regs.halted = s.regs.halted := by
  cases i with
  | halt => exact absurd rfl hi
  | enable => rfl
  -- one map of the registers, in which the latch is not touched
  | exchangeAF | exchangeMain | exchangeDEHL | alu op reg | aluByte op | rotateA op | complement
  | setCarry | flipCarry => rfl
  -- taken or not
  | decJump | jumpRelativeIf cc | jumpIf cc | callIf cc | retIf cc =>
    simp only [exec]
    split <;> simp
  | _ => simp [exec]

theorem MemoryInstr.halted_exec (m : MemoryInstr) (a : UInt16) :
    (m.exec a s).regs.halted = s.regs.halted := by
  cases m with
  | alu op => rfl
  | _ => simp [exec]

theorem BitInstr.halted_execMemory (op : BitOp) (a : UInt16) (source : UInt8) :
    (execMemory op a source s).2.regs.halted = s.regs.halted := by
  simp only [execMemory]
  split <;> rfl

theorem BitInstr.halted_exec (i : BitInstr) : (i.exec s).regs.halted = s.regs.halted := by
  simp only [exec]
  split
  · simp
  · exact halted_execMemory ..

theorem BitInstr.halted_execIndexed (i : BitInstr) (a : UInt16) :
    (i.execIndexed a s).regs.halted = s.regs.halted := by
  simp only [execIndexed]
  split
  · rw [System.halted_mapRegs, Registers.halted_set, halted_execMemory]
  · exact halted_execMemory ..

-- A block instruction maps the registers once more where it repeats.
theorem Extended.halted_repeat {β : Type} {c : Bool} {t : Nat} {f g : Registers → Registers}
    {s : System β} (hf : (f s.regs).halted = s.regs.halted)
    (hg : ∀ r, (g r).halted = r.halted) :
    (if c then (t, (s.mapRegs f).mapRegs g) else (0, s.mapRegs f)).2.regs.halted =
      s.regs.halted := by
  split
  · exact (hg _).trans hf
  · exact hf

theorem Extended.halted_exec (i : Extended) (opcode : UInt8) :
    (i.exec opcode s).2.regs.halted = s.regs.halted := by
  cases i with
  | block op d repeats => cases op <;> exact halted_repeat rfl fun _ => rfl
  | mode n | undefined | negate | loadAI | loadAR | rotateRight | rotateLeft => rfl
  | subPair p | addPair p => rfl
  | input target => cases target <;> simp [exec]
  | _ => simp [exec]

end Instructions

namespace System

variable {β : Type} [Bus β] (s : System β)

theorem halted_bitIndexed (x : Index) : (s.bitIndexed x).2.regs.halted = s.regs.halted := by
  simp only [bitIndexed, BitInstr.halted_execIndexed, regs_decodedIn, halted_fetchByte,
    halted_operandAddress]

theorem halted_bitPage : s.bitPage.2.regs.halted = s.regs.halted := by
  simp only [bitPage, BitInstr.halted_exec, regs_decodedIn, halted_fetchOpcode]

theorem halted_extendedPage : s.extendedPage.2.regs.halted = s.regs.halted := by
  simp only [extendedPage, Extended.halted_exec, regs_decodedIn, halted_fetchOpcode]

theorem halted_enterHandler (data : UInt8) :
    (s.enterHandler data).2.regs.halted = s.regs.halted := by
  simp only [enterHandler]
  split
  · rfl
  · split <;> rfl

/-! ## Behind `HALT` -/

/-- A halted CPU sits just behind the byte of `HALT`. -/
def BehindHalt : Prop :=
  s.regs.halted = true → Bus.peek s.bus (s.regs.pc - 1) = haltByte

-- It is so if the CPU is not halted.
theorem BehindHalt.of_running {s : System β} (h : s.regs.halted = false) : s.BehindHalt := by
  intro hh
  rw [h] at hh
  cases hh

-- It depends on the registers and on what memory reads as.
theorem BehindHalt.congr {s s' : System β} (h : s.BehindHalt) (hregs : s'.regs = s.regs)
    (hpeek : ∀ a, Bus.peek s'.bus a = Bus.peek s.bus a) : s'.BehindHalt := by
  unfold BehindHalt
  rw [hregs, hpeek]
  exact h

/-- An instruction that is executed behind its opcode byte `op`, with the program counter past it. -/
theorem behindHalt_exec {i : Instr} {op : UInt8} (hop : Opcode.decode op = .plain i) {x : Index}
    (hruns : s.regs.halted = false) (hbyte : Bus.peek s.bus (s.regs.pc - 1) = op) :
    (i.exec x s).2.BehindHalt := by
  by_cases hi : i = .halt
  · subst hi
    intro _
    -- `HALT` puts the latch up and touches nothing else
    show Bus.peek s.bus (s.regs.pc - 1) = haltByte
    rw [hbyte]
    exact (Opcode.decode_halt_iff op).mp hop
  · exact .of_running ((Instr.halted_exec s hi x).trans hruns)

section PureReads

variable (hpure : Bus.PureReads β)

include hpure

theorem behindHalt_indexed (x : Index) (hruns : s.regs.halted = false) :
    (s.indexed x).2.BehindHalt := by
  simp only [indexed, read_of_pure hpure, fetchOpcode_of_pure hpure]
  split
  · exact .of_running hruns
  · split
    case h_1 i hi =>
      refine behindHalt_exec _ hi hruns ?_
      show Bus.peek s.bus (s.regs.pc + 1 - 1) = _
      rw [UInt16.add_sub_cancel]
    case h_2 m hm =>
      exact .of_running ((MemoryInstr.halted_exec ..).trans ((halted_operandAddress ..).trans hruns))
    case h_3 => exact .of_running ((halted_bitIndexed ..).trans hruns)
    case h_4 => exact .of_running hruns

theorem behindHalt_instruction (hruns : s.regs.halted = false) :
    s.instruction.2.BehindHalt := by
  simp only [instruction, fetchOpcode_of_pure hpure]
  split
  case h_1 i hi =>
    refine behindHalt_exec _ hi hruns ?_
    show Bus.peek s.bus (s.regs.pc + 1 - 1) = _
    rw [UInt16.add_sub_cancel]
  case h_2 m hm => exact .of_running ((MemoryInstr.halted_exec ..).trans hruns)
  case h_3 => exact .of_running ((halted_bitPage _).trans hruns)
  case h_4 => exact .of_running ((halted_extendedPage _).trans hruns)
  case h_5 x hx => exact behindHalt_indexed _ hpure x hruns

/-- A step leaves a halted CPU just behind `HALT`, whether it halts now or idles. -/
theorem BehindHalt.step {s : System β} (h : s.BehindHalt) : s.step.2.BehindHalt := by
  rw [step_eq]
  show (s.beginStep.act s.cpu.acceptance).2.BehindHalt
  cases s.cpu.acceptance with
  | nonMaskable => exact .of_running rfl
  | maskable =>
    simp only [act, acceptMaskable_eq]
    exact .of_running (halted_enterHandler ..)
  | none =>
    simp only [act]
    split
    -- idling, the CPU refreshes memory and stays where it is
    · exact h
    · exact behindHalt_instruction _ hpure (Bool.eq_false_of_not_eq_true ‹_›)

/-- `HALT` moves on to the byte behind it and puts the latch up. -/
theorem step_halt {s : System β} (h : s.Fetches) (hop : Bus.peek s.bus s.regs.pc = haltByte) :
    s.step.2.regs = { s.regs.fetched with halted := true } ∧
      s.step.2.cpu.nmiPending = s.cpu.nmiPending := by
  have hhalt : Opcode.decode (Bus.peek s.bus s.regs.pc) = .plain .halt :=
    (Opcode.decode_halt_iff _).mpr hop
  have hinstruction := instruction_of_plain hpure s.beginStep hhalt
  rw [step_of_fetches s h, hinstruction]
  exact ⟨rfl, rfl⟩

end PureReads

/-! ## Idling -/

/-- The CPU idles in `HALT` and accepts no request. -/
structure Asleep (s : System β) : Prop where
  halted : s.regs.halted = true
  iff1 : s.regs.iff1 = false
  nmiPending : s.cpu.nmiPending = false

theorem Asleep.step_eq {s : System β} (h : s.Asleep) :
    s.step = (4, { s.beginStep with cpu := s.beginStep.cpu.countFetch }.charge 4) := by
  have hnone : s.cpu.acceptance = .none := by
    unfold Cpu.acceptance
    rw [h.nmiPending, show s.cpu.regs.iff1 = false from h.iff1]
    simp
  have hact : s.beginStep.act .none =
      (4, { s.beginStep with cpu := s.beginStep.cpu.countFetch }) := if_pos h.halted
  rw [System.step_eq, hnone, hact]

theorem Asleep.step {s : System β} (h : s.Asleep) : s.step.2.Asleep := by
  rw [h.step_eq]
  exact ⟨h.halted, h.iff1, h.nmiPending⟩

end System

end AmstradCpc.Z80
