import AmstradCpc.Proofs.Z80.Frame

/-!
# The registers that no operand names

The interrupt register, the refresh counter, the flip-flops, the interrupt mode and the halt latch
are out of reach of operands: seven instructions change them, and all others leave them alone
(`Instr.unnamed_exec`, `Extended.unnamed_exec`).
-/

namespace AmstradCpc.Z80

/-- The registers with all those set to zero that operands name. -/
def Registers.unnamed (r : Registers) : Registers where
  i := r.i
  r := r.r
  iff1 := r.iff1
  iff2 := r.iff2
  im := r.im
  halted := r.halted

/-! ## Operands -/

namespace Registers

variable (r : Registers)

/-- The fields that operands name are not among them. -/
theorem unnamed_named (a f b c d e h l a' f' b' c' d' e' h' l' : UInt8)
    (ix iy sp pc wz : UInt16) :
    { r with a, f, b, c, d, e, h, l, a', f', b', c', d', e', h', l', ix, iy, sp, pc, wz }.unnamed =
      r.unnamed := rfl

@[simp] theorem unnamed_setIndex (x : Index) (w : UInt16) :
    (r.setIndex x w).unnamed = r.unnamed := by
  cases x <;> rfl

@[simp] theorem unnamed_set (x : Index) (reg : Register) (v : UInt8) :
    (r.set x reg v).unnamed = r.unnamed := by
  cases reg with
  | h | l => exact unnamed_setIndex r x _
  | _ => rfl

@[simp] theorem unnamed_setPair (x : Index) (p : Pair) (w : UInt16) :
    (r.setPair x p w).unnamed = r.unnamed := by
  cases p with
  | hl => exact unnamed_setIndex r x w
  | _ => rfl

@[simp] theorem unnamed_setStackPair (x : Index) (p : StackPair) (w : UInt16) :
    (r.setStackPair x p w).unnamed = r.unnamed := by
  cases p with
  | hl => exact unnamed_setIndex r x w
  | _ => rfl

@[simp] theorem unnamed_addToIndex (x : Index) (p : Pair) :
    (Instr.addToIndex x p r).unnamed = r.unnamed :=
  (unnamed_named ..).trans (unnamed_setIndex r x _)

@[simp] theorem unnamed_execRegister (op : BitOp) (reg : Register) :
    (BitInstr.execRegister op reg r).unnamed = r.unnamed := by
  simp only [BitInstr.execRegister]
  split
  · exact unnamed_set _ _ reg _
  · rfl

end Registers

/-! ## Instructions -/

/-- What an instruction does to the registers that no operand names. -/
def Instr.onUnnamed (i : Instr) (r : Registers) : Registers :=
  match i with
  | halt => { r with halted := true }
  | disable => { r with iff1 := false, iff2 := false }
  | enable => { r with iff1 := true, iff2 := true }
  | _ => r

/-- The same for the `ED` page. Two of its instructions take the accumulator `a`. -/
def Extended.onUnnamed (i : Extended) (a : UInt8) (r : Registers) : Registers :=
  match i with
  | ret => { r with iff1 := r.iff2 }
  | mode n => { r with im := n }
  | loadIA => { r with i := a }
  | loadRA => { r with r := a }
  | _ => r

section Instructions

variable {β : Type} [Bus β] (s : System β)

theorem System.unnamed_call (w a : UInt16) :
    ((s.push w).goTo a).regs.unnamed = s.regs.unnamed :=
  Registers.unnamed_named s.regs ..

theorem Instr.unnamed_exec (i : Instr) (x : Index) :
    (i.exec x s).2.regs.unnamed = i.onUnnamed s.regs.unnamed := by
  cases i with
  | exchangeStack =>
    exact (Registers.unnamed_named ..).trans (Registers.unnamed_setIndex s.regs x _)
  | loadPair p => exact Registers.unnamed_setPair s.fetchWord.2.regs x p _
  | addPair p => exact Registers.unnamed_addToIndex s.regs x p
  | incPair p | decPair p => exact Registers.unnamed_setPair s.regs x p _
  | loadIndex =>
    exact (Registers.unnamed_named ..).trans
      (Registers.unnamed_setIndex s.fetchWord.2.regs x _)
  | inc reg | dec reg =>
    exact (Registers.unnamed_named ..).trans (Registers.unnamed_set s.regs x reg _)
  | load reg _ => exact Registers.unnamed_set s.regs x reg _
  | loadByte reg => exact Registers.unnamed_set s.fetchByte.2.regs x reg _
  | pop p => exact Registers.unnamed_setStackPair s.pop.2.regs x p _
  -- taken or not
  | decJump | jumpRelativeIf cc | jumpIf cc | retIf cc =>
    simp only [exec]
    split <;> exact Registers.unnamed_named s.regs ..
  | callIf cc =>
    simp only [exec]
    split
    · exact (s.fetchWord.2.unnamed_call _ _).trans (Registers.unnamed_named s.regs ..)
    · exact Registers.unnamed_named s.regs ..
  | call => exact (s.fetchWord.2.unnamed_call _ _).trans (Registers.unnamed_named s.regs ..)
  | nop | halt | disable | enable => rfl
  | _ => exact Registers.unnamed_named s.regs ..

theorem MemoryInstr.unnamed_exec (m : MemoryInstr) (a : UInt16) :
    (m.exec a s).regs.unnamed = s.regs.unnamed := by
  cases m with
  | load dst => exact Registers.unnamed_set s.regs .hl dst _
  | _ => rfl

theorem BitInstr.unnamed_execMemory (op : BitOp) (a : UInt16) (source : UInt8) :
    (execMemory op a source s).2.regs.unnamed = s.regs.unnamed := by
  simp only [execMemory]
  split <;> rfl

theorem BitInstr.unnamed_exec (i : BitInstr) : (i.exec s).regs.unnamed = s.regs.unnamed := by
  simp only [exec]
  split
  · exact Registers.unnamed_execRegister s.regs i.op _
  · exact unnamed_execMemory ..

theorem BitInstr.unnamed_execIndexed (i : BitInstr) (a : UInt16) :
    (i.execIndexed a s).regs.unnamed = s.regs.unnamed := by
  simp only [execIndexed]
  split
  · exact (Registers.unnamed_set _ _ _ _).trans (unnamed_execMemory ..)
  · exact unnamed_execMemory ..

theorem Extended.unnamed_exec (i : Extended) (opcode : UInt8) :
    (i.exec opcode s).2.regs.unnamed = i.onUnnamed s.regs.a s.regs.unnamed := by
  cases i with
  | input target =>
    cases target with
    | some reg =>
      exact (Registers.unnamed_named ..).trans (Registers.unnamed_set s.regs .hl reg _)
    | none => rfl
  | loadPair p =>
    exact (Registers.unnamed_named ..).trans
      (Registers.unnamed_setPair s.fetchWord.2.regs .hl p _)
  -- a block instruction maps the registers once more where it repeats
  | block op d repeats =>
    cases op <;> simp only [exec, blockLoad, blockCompare, blockInput, blockOutput] <;>
      split <;> exact Registers.unnamed_named s.regs ..
  | ret | mode n | loadIA | loadRA | undefined => rfl
  | _ => exact Registers.unnamed_named s.regs ..

end Instructions

end AmstradCpc.Z80
