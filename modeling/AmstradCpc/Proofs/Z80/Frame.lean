import AmstradCpc.Proofs.Z80.BusMap

/-!
# What instructions leave alone

An instruction changes registers, the latches of the last step and the count of fetches, and nothing
else in the CPU. The interrupt mode is the one register whose values are limited, so it is followed
too: `Cpu.frame` keeps the mode and all that is not a register, and `System.frame_instruction` says
that an instruction leaves it as it is or sets one of the three modes.
-/

namespace AmstradCpc.Z80

/-- The interrupt mode, the period with its countdown, the request latches and the T-states counted
so far. -/
def Cpu.frame (c : Cpu) : Cpu :=
  { c with
    regs := { im := c.regs.im }, eiDelay := false, inPrefix := false, context := .base
    m1Cycles := 0 }

/-- The same CPU in another interrupt mode. -/
def Cpu.withMode (n : UInt8) (c : Cpu) : Cpu := { c with regs.im := n }

/-! ## The interrupt mode in the registers -/

namespace Registers

variable (r : Registers)

@[simp] theorem im_setIndex (x : Index) (w : UInt16) : (r.setIndex x w).im = r.im := by
  cases x <;> rfl

@[simp] theorem im_set (x : Index) (reg : Register) (v : UInt8) : (r.set x reg v).im = r.im := by
  cases reg <;> simp [set]

@[simp] theorem im_setPair (x : Index) (p : Pair) (w : UInt16) : (r.setPair x p w).im = r.im := by
  cases p <;> simp [setPair, setBC, setDE]

@[simp] theorem im_setStackPair (x : Index) (p : StackPair) (w : UInt16) :
    (r.setStackPair x p w).im = r.im := by
  cases p <;> simp [setStackPair, setBC, setDE, setAF]

@[simp] theorem im_addToIndex (x : Index) (p : Pair) : (Instr.addToIndex x p r).im = r.im := by
  simp [Instr.addToIndex]

@[simp] theorem im_execRegister (op : BitOp) (reg : Register) :
    (BitInstr.execRegister op reg r).im = r.im := by
  simp only [BitInstr.execRegister]
  split <;> simp

end Registers

/-! ## Accesses -/

namespace System

section Plain

variable {β : Type} (s : System β)

theorem frame_mapRegs {f : Registers → Registers} (h : (f s.regs).im = s.regs.im) :
    (s.mapRegs f).cpu.frame = s.cpu.frame := by
  show { s.cpu.frame with regs := { im := (f s.regs).im } } = _
  rw [h]
  rfl

@[simp] theorem frame_decodedIn (c : DecodeContext) : (s.decodedIn c).cpu.frame = s.cpu.frame := rfl

@[simp] theorem frame_goTo (a : UInt16) : (s.goTo a).cpu.frame = s.cpu.frame := rfl

end Plain

variable {β : Type} [Bus β] (s : System β)

@[simp] theorem cpu_read (a : UInt16) : (s.read a).2.cpu = s.cpu := rfl

@[simp] theorem cpu_write (a : UInt16) (v : UInt8) : (s.write a v).cpu = s.cpu := rfl

@[simp] theorem cpu_input (p : UInt16) : (s.input p).2.cpu = s.cpu := rfl

@[simp] theorem cpu_output (p : UInt16) (v : UInt8) : (s.output p v).cpu = s.cpu := rfl

@[simp] theorem frame_fetchByte : s.fetchByte.2.cpu.frame = s.cpu.frame := rfl

@[simp] theorem frame_fetchOpcode : s.fetchOpcode.2.cpu.frame = s.cpu.frame := rfl

@[simp] theorem frame_fetchWord : s.fetchWord.2.cpu.frame = s.cpu.frame := rfl

@[simp] theorem cpu_readWord (a : UInt16) : (s.readWord a).2.cpu = s.cpu := rfl

@[simp] theorem cpu_writeWord (a w : UInt16) : (s.writeWord a w).cpu = s.cpu := rfl

@[simp] theorem frame_push (w : UInt16) : (s.push w).cpu.frame = s.cpu.frame := rfl

@[simp] theorem frame_pop : s.pop.2.cpu.frame = s.cpu.frame := rfl

@[simp] theorem frame_operandAddress (x : Index) :
    (s.operandAddress x).2.cpu.frame = s.cpu.frame := by
  cases x <;> rfl

end System

/-! ## Instructions -/

@[simp] theorem Instr.frame_jumpBy {β : Type} (e : UInt8) (s : System β) :
    (jumpBy e s).cpu.frame = s.cpu.frame := rfl

-- A block transfer ends with registers that differ in nothing the frame keeps, whether or not the
-- program counter is put back on it.
theorem Extended.frame_repeat {β : Type} {c : Bool} {t : Nat} {f g : Registers → Registers}
    {s : System β}
    (hf : (f s.regs).im = s.regs.im) (hg : ∀ r, (g r).im = r.im) :
    (if c then (t, (s.mapRegs f).mapRegs g) else (0, s.mapRegs f)).2.cpu.frame = s.cpu.frame := by
  split
  · rw [System.frame_mapRegs _ (hg _), System.frame_mapRegs _ hf]
  · rw [System.frame_mapRegs _ hf]

section Instructions

variable {β : Type} [Bus β] (s : System β)

@[simp] theorem Instr.frame_exec (i : Instr) (x : Index) :
    (i.exec x s).2.cpu.frame = s.cpu.frame := by
  cases i with
  | enable => rfl
  -- one map of the registers, in which the mode is not touched
  | exchangeAF | exchangeMain | exchangeDEHL | alu op reg | rotateA op | complement | setCarry
  | flipCarry => exact System.frame_mapRegs s rfl
  | aluByte op => exact System.frame_mapRegs s.fetchByte.2 rfl
  | decJump =>
    simp only [exec]
    split
    · rw [frame_jumpBy, System.frame_mapRegs _ rfl, System.frame_fetchByte]
    · rw [System.frame_mapRegs _ rfl, System.frame_fetchByte]
  -- taken or not
  | jumpRelativeIf cc | jumpIf cc | callIf cc | retIf cc =>
    simp only [exec]
    split <;> simp [System.frame_mapRegs]
  | _ => simp [exec, System.frame_mapRegs]

@[simp] theorem MemoryInstr.frame_exec (m : MemoryInstr) (a : UInt16) :
    (m.exec a s).cpu.frame = s.cpu.frame := by
  cases m with
  | alu op => exact System.frame_mapRegs (s.read a).2 rfl
  | _ => simp [exec, System.frame_mapRegs]

@[simp] theorem BitInstr.frame_execMemory (op : BitOp) (a : UInt16) (source : UInt8) :
    (execMemory op a source s).2.cpu.frame = s.cpu.frame := by
  simp only [execMemory]
  split <;> simp [System.frame_mapRegs]

@[simp] theorem BitInstr.frame_exec (i : BitInstr) : (i.exec s).cpu.frame = s.cpu.frame := by
  simp only [exec]
  split <;> simp [System.frame_mapRegs]

@[simp] theorem BitInstr.frame_execIndexed (i : BitInstr) (a : UInt16) :
    (i.execIndexed a s).cpu.frame = s.cpu.frame := by
  simp only [execIndexed]
  split <;> simp [System.frame_mapRegs]

theorem Extended.frame_block (op : BlockOp) (d : Direction) (repeats : Bool) (opcode : UInt8) :
    ((Extended.block op d repeats).exec opcode s).2.cpu.frame = s.cpu.frame := by
  cases op with
  | load => exact frame_repeat rfl fun _ => rfl
  | compare => exact frame_repeat rfl fun _ => rfl
  | input => exact frame_repeat rfl fun _ => rfl
  | output => exact frame_repeat rfl fun _ => rfl

-- Of the `ED` page one instruction changes the frame, and only the interrupt mode in it.
theorem Extended.frame_exec (i : Extended) (opcode : UInt8) :
    (i.exec opcode s).2.cpu.frame =
      match i with
      | .mode n => s.cpu.frame.withMode n
      | _ => s.cpu.frame := by
  cases i with
  | block op d repeats => exact frame_block s op d repeats opcode
  | mode n => rfl
  | input target => cases target <;> simp [exec, System.frame_mapRegs]
  | subPair p | addPair p =>
    simp only [exec, arithmetic, Registers.setHL]
    exact System.frame_mapRegs s rfl
  | loadAI | loadAR =>
    simp only [exec, loadAccumulator]
    exact System.frame_mapRegs s rfl
  | rotateRight | rotateLeft => rfl
  | _ => simp [exec, System.frame_mapRegs]

end Instructions

-- The `ED` page has no more than the three interrupt modes.
theorem Extended.mode_le {op n : UInt8} (h : Extended.decode op = .mode n) : n ≤ 2 := by
  -- the rows of the page in turn: only the seventh of them has modes
  revert h
  simp only [decode, decode1, decode2]
  split
  · split
    case h_7 =>
      split <;> intro h <;> cases h <;> decide
    case h_8 =>
      split <;> intro h <;> cases h
    all_goals try split
    all_goals intro h; cases h
  · split
    · intro h
      cases h
    · split <;> intro h <;> cases h
  · intro h
    cases h

/-! ## Steps -/

namespace System

variable {β : Type} [Bus β] (s : System β)

@[simp] theorem frame_bitIndexed (x : Index) : (s.bitIndexed x).2.cpu.frame = s.cpu.frame := by
  simp only [bitIndexed, BitInstr.frame_execIndexed, frame_decodedIn, frame_fetchByte,
    frame_operandAddress]

@[simp] theorem frame_indexed (x : Index) : (s.indexed x).2.cpu.frame = s.cpu.frame := by
  simp only [indexed]
  split
  · rfl
  · split <;> simp

@[simp] theorem frame_bitPage : s.bitPage.2.cpu.frame = s.cpu.frame := by
  simp only [bitPage, BitInstr.frame_exec, frame_decodedIn, frame_fetchOpcode]

theorem frame_extendedPage :
    ∃ n, (n = s.regs.im ∨ n ≤ 2) ∧ s.extendedPage.2.cpu.frame = s.cpu.frame.withMode n := by
  have h := Extended.frame_exec (s.fetchOpcode.2.decodedIn .ed)
    (Extended.decode s.fetchOpcode.1) s.fetchOpcode.1
  rw [frame_decodedIn, frame_fetchOpcode] at h
  cases hi : Extended.decode s.fetchOpcode.1 with
  | mode n =>
    rw [hi] at h
    refine ⟨n, .inr (Extended.mode_le hi), ?_⟩
    simp only [extendedPage, hi]
    exact h
  | _ =>
    rw [hi] at h
    refine ⟨s.regs.im, .inl rfl, ?_⟩
    simp only [extendedPage, hi]
    exact h

/-- The frame after an instruction: as before, or in one of the three interrupt modes. -/
theorem frame_instruction :
    ∃ n, (n = s.regs.im ∨ n ≤ 2) ∧ s.instruction.2.cpu.frame = s.cpu.frame.withMode n := by
  -- every page but `ED` leaves the frame as it is
  have same {c : Cpu} (h : c.frame = s.cpu.frame) :
      ∃ n, (n = s.regs.im ∨ n ≤ 2) ∧ c.frame = s.cpu.frame.withMode n :=
    ⟨s.regs.im, .inl rfl, h⟩
  simp only [instruction]
  split
  · exact same (by simp)
  · exact same (by simp)
  · exact same (by simp)
  · exact s.fetchOpcode.2.frame_extendedPage
  · exact same (by simp)

-- No instruction touches a latched request.
theorem intPending_instruction : s.instruction.2.cpu.intPending = s.cpu.intPending := by
  obtain ⟨n, -, h⟩ := s.frame_instruction
  have hp := congrArg Cpu.intPending h
  exact hp

theorem im_instruction : s.instruction.2.regs.im = s.regs.im ∨ s.instruction.2.regs.im ≤ 2 := by
  obtain ⟨n, hn, h⟩ := s.frame_instruction
  have him : s.instruction.2.cpu.frame.regs.im = n := by rw [h]; rfl
  have : s.instruction.2.regs.im = n := him
  rw [this]
  exact hn

/-! ## Requests and modes over a step -/

theorem intPending_of_frame {c c' : Cpu} (h : c.frame = c'.frame) : c.intPending = c'.intPending := by
  have hp : c.frame.intPending = c'.frame.intPending := by rw [h]
  exact hp

theorem im_of_frame {c c' : Cpu} (h : c.frame = c'.frame) : c.regs.im = c'.regs.im := by
  have hp : c.frame.regs.im = c'.frame.regs.im := by rw [h]
  exact hp

theorem frame_acceptNonMaskable :
    s.acceptNonMaskable.2.cpu.frame =
      Cpu.frame { s.cpu.countFetch with nmiPending := false } := by
  simp only [acceptNonMaskable, frame_goTo, frame_push]
  rw [frame_mapRegs _ rfl]
  rfl

theorem frame_enterHandler (data : UInt8) : (s.enterHandler data).2.cpu.frame = s.cpu.frame := by
  simp only [enterHandler]
  split
  · simp
  · split <;> simp

theorem intPending_acknowledged : s.acknowledged.2.cpu.intPending = false := rfl

theorem im_acknowledged : s.acknowledged.2.cpu.regs.im = s.cpu.regs.im := rfl

theorem intPending_act (acceptance : Cpu.Acceptance) :
    (s.act acceptance).2.cpu.intPending = (s.cpu.intPending && acceptance != .maskable) := by
  cases acceptance with
  | nonMaskable =>
    simp only [act]
    rw [intPending_of_frame s.frame_acceptNonMaskable]
    exact (Bool.and_true _).symm
  | maskable =>
    -- the acknowledge takes the latch down, and what follows does not touch it
    simp only [act, acceptMaskable_eq]
    rw [intPending_of_frame (frame_enterHandler _ _), intPending_acknowledged]
    exact (Bool.and_false _).symm
  | none =>
    simp only [act]
    split
    · exact (Bool.and_true _).symm
    · rw [intPending_instruction]
      exact (Bool.and_true _).symm

theorem im_act (acceptance : Cpu.Acceptance) :
    (s.act acceptance).2.regs.im = s.regs.im ∨ (s.act acceptance).2.regs.im ≤ 2 := by
  cases acceptance with
  | nonMaskable =>
    simp only [act]
    refine .inl ((im_of_frame s.frame_acceptNonMaskable).trans ?_)
    rfl
  | maskable =>
    simp only [act, acceptMaskable_eq]
    exact .inl ((im_of_frame (frame_enterHandler _ _)).trans s.im_acknowledged)
  | none =>
    simp only [act]
    split
    · exact .inl rfl
    · exact s.im_instruction

/-- A step drops the latched request if it accepts it, and touches it in no other case. -/
theorem intPending_step :
    s.step.2.cpu.intPending = (s.cpu.intPending && s.cpu.acceptance != .maskable) :=
  s.beginStep.intPending_act s.cpu.acceptance

theorem im_step : s.step.2.regs.im = s.regs.im ∨ s.step.2.regs.im ≤ 2 :=
  s.beginStep.im_act s.cpu.acceptance

end System

end AmstradCpc.Z80
