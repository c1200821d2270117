import AmstradCpc.Z80.Step

/-!
# Instructions on an index pair

An index prefix puts an index pair in the place of `HL`. For an instruction without a memory operand
this is an exchange: to run it on the index pair is to exchange the pair with `HL`, to run it on
`HL`, and to exchange the two again (`Instr.exec_prefixed`). Only two instructions name `HL` in
another way than as an operand, `EX DE,HL` and `EXX`, and for them it is not so.
-/

namespace AmstradCpc.Z80

/-! ## Registers -/

namespace Registers

variable (x : Index) (r : Registers)

/-- The registers with `HL` and an index pair exchanged. -/
def exchangeIndex (r : Registers) : Registers := (r.setHL (r.index x)).setIndex x r.hl

/-- The registers that an instruction finds behind a prefix, when `r` are those it would find
without one: the exchange, and one more fetch counted. -/
def prefixed (r : Registers) : Registers := (r.exchangeIndex x).refresh

@[simp] theorem index_prefixed : (r.prefixed x).index x = r.hl := by
  cases x <;> simp [prefixed, exchangeIndex, setIndex, setHL, index, hl, refresh]

theorem setIndex_prefixed (w : UInt16) :
    (r.prefixed x).setIndex x w = (r.setHL w).prefixed x := by
  cases x <;> simp [prefixed, exchangeIndex, setIndex, setHL, index, hl, refresh]

-- What is no part of an index pair, the exchange does not touch.
@[simp] theorem a_prefixed : (r.prefixed x).a = r.a := by cases x <;> rfl

@[simp] theorem f_prefixed : (r.prefixed x).f = r.f := by cases x <;> rfl

@[simp] theorem b_prefixed : (r.prefixed x).b = r.b := by cases x <;> rfl

@[simp] theorem sp_prefixed : (r.prefixed x).sp = r.sp := by cases x <;> rfl

@[simp] theorem pc_prefixed : (r.prefixed x).pc = r.pc := by cases x <;> rfl

@[simp] theorem get_prefixed (reg : Register) : (r.prefixed x).get x reg = r.get .hl reg := by
  cases reg with
  | h | l =>
    simp only [get, index_prefixed]
    rfl
  | _ => cases x <;> rfl

theorem set_prefixed (reg : Register) (v : UInt8) :
    (r.prefixed x).set x reg v = (r.set .hl reg v).prefixed x := by
  cases reg with
  | h | l =>
    simp only [set, index_prefixed, setIndex_prefixed]
    rfl
  | _ => cases x <;> rfl

@[simp] theorem getPair_prefixed (p : Pair) : (r.prefixed x).getPair x p = r.getPair .hl p := by
  cases p with
  | hl => exact index_prefixed x r
  | _ => cases x <;> rfl

theorem setPair_prefixed (p : Pair) (w : UInt16) :
    (r.prefixed x).setPair x p w = (r.setPair .hl p w).prefixed x := by
  cases p with
  | hl => exact setIndex_prefixed x r w
  | _ => cases x <;> rfl

@[simp] theorem getStackPair_prefixed (p : StackPair) :
    (r.prefixed x).getStackPair x p = r.getStackPair .hl p := by
  cases p with
  | hl => exact index_prefixed x r
  | _ => cases x <;> rfl

theorem setStackPair_prefixed (p : StackPair) (w : UInt16) :
    (r.prefixed x).setStackPair x p w = (r.setStackPair .hl p w).prefixed x := by
  cases p with
  | hl => exact setIndex_prefixed x r w
  | _ => cases x <;> rfl

@[simp] theorem holds_prefixed (cc : Condition) : (r.prefixed x).holds cc = r.holds cc := by
  cases x <;> rfl

@[simp] theorem pointer_prefixed (p : Pointer) :
    Instr.pointer p (r.prefixed x) = Instr.pointer p r := by
  cases x <;> cases p <;> rfl

theorem setIndex_wz_prefixed (w v : UInt16) :
    { (r.prefixed x).setIndex x w with wz := v } =
      prefixed x { r.setIndex .hl w with wz := v } := by
  rw [setIndex_prefixed]
  cases x <;> rfl

theorem set_f_prefixed (reg : Register) (v f : UInt8) :
    { (r.prefixed x).set x reg v with f := f } = prefixed x { r.set .hl reg v with f := f } := by
  rw [set_prefixed]
  cases x <;> rfl

theorem accumulate_prefixed (op : AluOp) (v : UInt8) :
    Instr.accumulate op v (r.prefixed x) = (Instr.accumulate op v r).prefixed x := by
  cases x <;> rfl

theorem addToIndex_prefixed (p : Pair) :
    Instr.addToIndex x p (r.prefixed x) = (Instr.addToIndex .hl p r).prefixed x := by
  simp only [Instr.addToIndex, index_prefixed, getPair_prefixed, setIndex_prefixed, f_prefixed]
  cases x <;> rfl

end Registers

/-! ## Accesses -/

namespace System

section Plain

variable {β : Type} (x : Index) (s : System β)

/-- The system that an instruction finds behind a prefix, when `s` is the one it would find without
it. -/
def prefixed : System β :=
  { s with
    cpu.regs := s.regs.prefixed x, cpu.m1Cycles := s.cpu.m1Cycles + 1, cpu.context := x.context }

@[simp] theorem regs_prefixed : (s.prefixed x).regs = s.regs.prefixed x := rfl

theorem mapRegs_prefixed {f g : Registers → Registers}
    (h : g (s.regs.prefixed x) = (f s.regs).prefixed x) :
    (s.prefixed x).mapRegs g = (s.mapRegs f).prefixed x := by
  simp only [mapRegs, prefixed, regs] at h ⊢
  rw [h]

@[simp] theorem goTo_prefixed (a : UInt16) : (s.prefixed x).goTo a = (s.goTo a).prefixed x := by
  cases x <;> rfl

@[simp] theorem jumpBy_prefixed (e : UInt8) :
    Instr.jumpBy e (s.prefixed x) = (Instr.jumpBy e s).prefixed x := by
  cases x <;> rfl

end Plain

variable {β : Type} [Bus β] (x : Index) (s : System β)

@[simp] theorem read_prefixed (a : UInt16) :
    (s.prefixed x).read a = ((s.read a).1, (s.read a).2.prefixed x) := rfl

@[simp] theorem write_prefixed (a : UInt16) (v : UInt8) :
    (s.prefixed x).write a v = (s.write a v).prefixed x := rfl

@[simp] theorem input_prefixed (port : UInt16) :
    (s.prefixed x).input port = ((s.input port).1, (s.input port).2.prefixed x) := rfl

@[simp] theorem output_prefixed (port : UInt16) (v : UInt8) :
    (s.prefixed x).output port v = (s.output port v).prefixed x := rfl

@[simp] theorem fetchByte_prefixed :
    (s.prefixed x).fetchByte = (s.fetchByte.1, s.fetchByte.2.prefixed x) := by
  cases x <;> rfl

@[simp] theorem fetchWord_prefixed :
    (s.prefixed x).fetchWord = (s.fetchWord.1, s.fetchWord.2.prefixed x) := by
  simp only [fetchWord, fetchByte_prefixed]

@[simp] theorem readWord_prefixed (a : UInt16) :
    (s.prefixed x).readWord a = ((s.readWord a).1, (s.readWord a).2.prefixed x) := rfl

@[simp] theorem writeWord_prefixed (a w : UInt16) :
    (s.prefixed x).writeWord a w = (s.writeWord a w).prefixed x := rfl

@[simp] theorem push_prefixed (w : UInt16) : (s.prefixed x).push w = (s.push w).prefixed x := by
  cases x <;> rfl

@[simp] theorem pop_prefixed : (s.prefixed x).pop = (s.pop.1, s.pop.2.prefixed x) := by
  cases x <;> rfl

end System

/-! ## Instructions -/

open Registers AmstradCpc.Z80.System in
theorem Instr.exec_prefixed {β : Type} [Bus β] (x : Index) (s : System β) {i : Instr}
    (hde : i ≠ .exchangeDEHL) (hmain : i ≠ .exchangeMain) :
    i.exec x (s.prefixed x) = ((i.exec .hl s).1, (i.exec .hl s).2.prefixed x) := by
  -- most instructions end with a map of the registers
  have map (s : System β) {f g : Registers → Registers}
      (h : ∀ r, g (r.prefixed x) = (f r).prefixed x) (n : Nat) :
      (n, (s.prefixed x).mapRegs g) = (n, (s.mapRegs f).prefixed x) :=
    congrArg _ (mapRegs_prefixed x s (h s.regs))
  cases i with
  | exchangeDEHL => exact absurd rfl hde
  | exchangeMain => exact absurd rfl hmain
  | nop => rfl
  | halt | exchangeAF | rotateA op | decimalAdjust | complement | setCarry | flipCarry | disable =>
    exact map s (fun r => by cases x <;> rfl) 0
  | enable =>
    have hflipFlops := mapRegs_prefixed x s (f := fun r => { r with iff1 := true, iff2 := true })
      (g := fun r => { r with iff1 := true, iff2 := true }) (by cases x <;> rfl)
    exact congrArg (fun t : System β => (0, { t with cpu.eiDelay := true })) hflipFlops
  | exchangeStack =>
    simp only [exec, regs_prefixed, sp_prefixed, readWord_prefixed, index_prefixed,
      writeWord_prefixed]
    exact map _ (fun r => setIndex_wz_prefixed x r _ _) 0
  | loadPair p =>
    simp only [exec, fetchWord_prefixed]
    exact map _ (fun r => setPair_prefixed x r p _) 0
  | addPair p => exact map s (fun r => addToIndex_prefixed x r p) 0
  | incPair p | decPair p => exact map s (fun r => by rw [getPair_prefixed, setPair_prefixed]) 0
  | storeAt p =>
    simp only [exec, regs_prefixed, pointer_prefixed, a_prefixed, write_prefixed]
    exact map _ (fun r => by cases x <;> rfl) 0
  | loadFrom p =>
    simp only [exec, regs_prefixed, pointer_prefixed, read_prefixed]
    exact map _ (fun r => by cases x <;> rfl) 0
  | storeIndex =>
    simp only [exec, fetchWord_prefixed, regs_prefixed, index_prefixed, writeWord_prefixed]
    exact map _ (fun r => by cases x <;> rfl) 0
  | loadIndex =>
    simp only [exec, fetchWord_prefixed, readWord_prefixed]
    exact map _ (fun r => setIndex_wz_prefixed x r _ _) 0
  | storeA =>
    simp only [exec, fetchWord_prefixed, regs_prefixed, a_prefixed, write_prefixed]
    exact map _ (fun r => by cases x <;> rfl) 0
  | loadA =>
    simp only [exec, fetchWord_prefixed, read_prefixed]
    exact map _ (fun r => by cases x <;> rfl) 0
  | loadSP | jumpIndex =>
    exact map s (fun r => by
      rw [index_prefixed]
      cases x <;> rfl) 0
  | inc reg | dec reg =>
    exact map s (fun r => by
      simp only [get_prefixed, f_prefixed]
      exact set_f_prefixed x r reg _ _) 0
  | loadByte reg =>
    simp only [exec, fetchByte_prefixed]
    exact map _ (fun r => set_prefixed x r reg _) 0
  | load dst src => exact map s (fun r => by rw [get_prefixed, set_prefixed]) 0
  | alu op reg =>
    exact map s (f := fun r => accumulate op (r.get .hl reg) r) (fun r => by
      rw [get_prefixed, accumulate_prefixed]) 0
  | aluByte op =>
    simp only [exec, fetchByte_prefixed]
    exact map _ (fun r => accumulate_prefixed x r op _) 0
  | decJump =>
    have hcount := mapRegs_prefixed x s.fetchByte.2 (f := fun r => { r with b := r.b - 1 })
      (g := fun r => { r with b := r.b - 1 }) (by cases x <;> rfl)
    simp only [exec, fetchByte_prefixed, hcount, regs_prefixed, b_prefixed, jumpBy_prefixed]
    split <;> rfl
  | jumpRelative => simp only [exec, fetchByte_prefixed, jumpBy_prefixed]
  | jumpRelativeIf cc =>
    simp only [exec, fetchByte_prefixed, regs_prefixed, holds_prefixed, jumpBy_prefixed]
    split <;> rfl
  | jump => simp only [exec, fetchWord_prefixed, goTo_prefixed]
  | jumpIf cc =>
    simp only [exec, fetchWord_prefixed, regs_prefixed, holds_prefixed, goTo_prefixed]
    split
    · rfl
    · exact map _ (fun r => by cases x <;> rfl) 0
  | call =>
    simp only [exec, fetchWord_prefixed, regs_prefixed, pc_prefixed, push_prefixed, goTo_prefixed]
  | callIf cc =>
    simp only [exec, fetchWord_prefixed, regs_prefixed, pc_prefixed, holds_prefixed, push_prefixed,
      goTo_prefixed]
    split
    · rfl
    · exact map _ (fun r => by cases x <;> rfl) 0
  | ret => simp only [exec, pop_prefixed, goTo_prefixed]
  | retIf cc =>
    simp only [exec, regs_prefixed, holds_prefixed, pop_prefixed, goTo_prefixed]
    split <;> rfl
  | restart a => simp only [exec, regs_prefixed, pc_prefixed, push_prefixed, goTo_prefixed]
  | push p => simp only [exec, regs_prefixed, getStackPair_prefixed, push_prefixed]
  | pop p =>
    simp only [exec, pop_prefixed]
    exact map _ (fun r => setStackPair_prefixed x r p _) 0
  | output =>
    simp only [exec, fetchByte_prefixed, regs_prefixed, a_prefixed, output_prefixed]
    exact map _ (fun r => by cases x <;> rfl) 0
  | input =>
    simp only [exec, fetchByte_prefixed, regs_prefixed, a_prefixed, input_prefixed]
    exact map _ (fun r => by cases x <;> rfl) 0

end AmstradCpc.Z80
