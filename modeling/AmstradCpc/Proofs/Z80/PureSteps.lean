import AmstradCpc.Proofs.Z80.Latches
import AmstradCpc.Z80.FlatBus

/-!
# Steps on a bus where reads change nothing

On such a bus a fetch is a look at memory, so an instruction is known by the bytes at the program
counter. On the flat bus this gives what single steps do to the registers and the memory: a pass of
`LDIR` or `LDDR`, the service of a maskable request in mode 1, and the `EI` and `RET` that end a
handler.
-/

namespace AmstradCpc.Z80

/-! ## Registers -/

namespace Registers

variable (r : Registers)

/-- The registers after the fetch of an opcode. -/
def fetched (r : Registers) : Registers := { r.refresh with pc := r.pc + 1 }

@[simp] theorem pc_fetched : r.fetched.pc = r.pc + 1 := rfl

@[simp] theorem bc_fetched : r.fetched.bc = r.bc := rfl

@[simp] theorem de_fetched : r.fetched.de = r.de := rfl

@[simp] theorem hl_fetched : r.fetched.hl = r.hl := rfl

/-- The registers after the acknowledge cycle of a maskable request. -/
def acknowledged (r : Registers) : Registers :=
  { r.refresh with halted := false, iff1 := false, iff2 := false }

@[simp] theorem pc_acknowledged : r.acknowledged.pc = r.pc := rfl

@[simp] theorem sp_acknowledged : r.acknowledged.sp = r.sp := rfl

@[simp] theorem im_acknowledged : r.acknowledged.im = r.im := rfl

/-- The registers at the handler of mode 1. -/
def atHandler (r : Registers) : Registers :=
  { r.acknowledged with sp := r.sp - 2, pc := 0x0038, wz := 0x0038 }

/-- The registers after `EI`. -/
def enabled (r : Registers) : Registers := { r.fetched with iff1 := true, iff2 := true }

/-- The registers after `RET` to `a`. -/
def returned (a : UInt16) (r : Registers) : Registers :=
  { r.fetched with sp := r.sp + 2, pc := a, wz := a }

end Registers

namespace System

/-! ## Pure reads -/

/-- The state behind the fetch of an opcode. -/
def fetched {β : Type} (s : System β) : System β :=
  { s with cpu := Cpu.countFetch { s.cpu with regs.pc := s.regs.pc + 1 } }

section PureReads

variable {β : Type} [Bus β] (hpure : Bus.PureReads β) (s : System β)

include hpure

theorem read_of_pure (a : UInt16) : s.read a = (Bus.peek s.bus a, s) := by
  show (_, ({ s with bus := (Bus.read a s.bus).2 } : System β)) = _
  rw [hpure]
  rfl

theorem fetchByte_of_pure :
    s.fetchByte = (Bus.peek s.bus s.regs.pc, s.mapRegs fun r => { r with pc := r.pc + 1 }) := by
  rw [fetchByte, read_of_pure hpure]

theorem fetchOpcode_of_pure : s.fetchOpcode = (Bus.peek s.bus s.regs.pc, s.fetched) := by
  rw [fetchOpcode, fetchByte_of_pure hpure]
  rfl

theorem operandAddress_of_pure {x : Index} (hx : x ≠ .hl) :
    s.operandAddress x =
      (s.regs.index x + signExtend (Bus.peek s.bus s.regs.pc), s.mapRegs fun r =>
        { r with
          pc := r.pc + 1
          wz := s.regs.index x + signExtend (Bus.peek s.bus s.regs.pc) }) := by
  cases x with
  | hl => exact absurd rfl hx
  | ix | iy =>
    simp only [operandAddress, fetchByte_of_pure hpure]
    rfl

theorem instruction_of_plain {i : Instr}
    (hi : Opcode.decode (Bus.peek s.bus s.regs.pc) = .plain i) :
    s.instruction =
      (i.cost + (i.exec .hl (s.fetched.decodedIn .base)).1,
        (i.exec .hl (s.fetched.decodedIn .base)).2) := by
  simp only [instruction, fetchOpcode_of_pure hpure, hi]

theorem instruction_of_memory {m : MemoryInstr}
    (hm : Opcode.decode (Bus.peek s.bus s.regs.pc) = .memory m) :
    s.instruction = (m.cost, m.exec s.regs.hl (s.fetched.decodedIn .base)) := by
  simp only [instruction, fetchOpcode_of_pure hpure, hm]
  rfl

end PureReads

section Plain

variable {β : Type} (s : System β)

@[simp] theorem regs_mapRegs (g : Registers → Registers) : (s.mapRegs g).regs = g s.regs := rfl

@[simp] theorem bus_mapRegs (g : Registers → Registers) : (s.mapRegs g).bus = s.bus := rfl

@[simp] theorem regs_beginStep : s.beginStep.regs = s.regs := rfl

@[simp] theorem bus_beginStep : s.beginStep.bus = s.bus := rfl

@[simp] theorem regs_fetched : s.fetched.regs = s.regs.fetched := rfl

@[simp] theorem bus_fetched : s.fetched.bus = s.bus := rfl

@[simp] theorem regs_decodedIn (c : DecodeContext) : (s.decodedIn c).regs = s.regs := rfl

@[simp] theorem bus_decodedIn (c : DecodeContext) : (s.decodedIn c).bus = s.bus := rfl

@[simp] theorem regs_goTo (a : UInt16) : (s.goTo a).regs = { s.regs with pc := a, wz := a } := rfl

@[simp] theorem bus_goTo (a : UInt16) : (s.goTo a).bus = s.bus := rfl

@[simp] theorem regs_charge (t : Nat) : (s.charge t).regs = s.regs := rfl

@[simp] theorem bus_charge (t : Nat) : (s.charge t).bus = s.bus := rfl

/-- The state in which an instruction of the `ED` page starts. -/
def atExtended (s : System β) : System β := s.beginStep.fetched.fetched.decodedIn .ed

@[simp] theorem regs_atExtended : s.atExtended.regs = s.regs.fetched.fetched := rfl

@[simp] theorem bus_atExtended : s.atExtended.bus = s.bus := rfl

end Plain

theorem step_of_extended {β : Type} [Bus β] (hpure : Bus.PureReads β) {s : System β}
    (h : s.Fetches) (hfirst : Bus.peek s.bus s.regs.pc = 0xED) {i : Extended}
    (hi : Extended.decode (Bus.peek s.bus (s.regs.pc + 1)) = i) :
    let pass := i.exec (Bus.peek s.bus (s.regs.pc + 1)) s.atExtended
    s.step = (i.cost + pass.1, pass.2.charge (i.cost + pass.1)) := by
  have hpage : Opcode.decode (Bus.peek s.bus s.regs.pc) = .extendedPage := by
    rw [hfirst]
    rfl
  rw [step_of_fetches s h]
  simp only [instruction, fetchOpcode_of_pure hpure, regs_beginStep, bus_beginStep, hpage,
    extendedPage, regs_fetched, bus_fetched, Registers.pc_fetched, hi]
  rfl

end System

/-! ## A pass of a block transfer -/

namespace FlatBus

variable (bus : FlatBus)

theorem peek_write (a b : UInt16) (v : UInt8) :
    Bus.peek (Bus.write a v bus) b = if a = b then v else Bus.peek bus b :=
  FlatMemory.read_write bus.memory a b v

theorem peek_acknowledge (a : UInt16) : Bus.peek (Bus.acknowledge bus).2 a = Bus.peek bus a := rfl

end FlatBus

/-- The second byte of `LDIR` and `LDDR`. -/
def Direction.repeatedLoad : Direction → UInt8
  | .up => 0xB0
  | .down => 0xB8

theorem Extended.decode_repeatedLoad (d : Direction) :
    decode d.repeatedLoad = .block .load d true := by
  cases d <;> rfl

/-- The registers after `LDIR` or `LDDR` has copied the byte `v`: unless the count has come to zero,
the program counter is back on the instruction. -/
def Registers.afterLoad (d : Direction) (v : UInt8) (r : Registers) : Registers :=
  let r := Extended.loadRegisters d v r
  if r.bc = 0 then r else { r with pc := r.pc - 2, wz := r.pc - 1 }

theorem Extended.blockLoad_repeated (d : Direction) (s : System FlatBus) :
    (blockLoad d true s).2.regs = s.regs.afterLoad d (Bus.peek s.bus s.regs.hl) ∧
      (blockLoad d true s).2.bus = Bus.write s.regs.de (Bus.peek s.bus s.regs.hl) s.bus := by
  simp only [blockLoad, System.read_of_pure FlatBus.pureReads, Bool.true_and, bne_iff_ne, ne_eq,
    Registers.afterLoad]
  -- the count that the transfer tests is the one in the new registers
  by_cases hbc : (loadRegisters d (Bus.peek s.bus s.regs.hl) s.regs).bc = 0
  · have hlast : (((s.write s.regs.de (Bus.peek s.bus s.regs.hl)).mapRegs
      (loadRegisters d (Bus.peek s.bus s.regs.hl))).regs.bc = 0) := hbc
    simp only [hbc, hlast, not_true, if_true, if_false]
    exact ⟨rfl, rfl⟩
  · have hmore : ¬ (((s.write s.regs.de (Bus.peek s.bus s.regs.hl)).mapRegs
      (loadRegisters d (Bus.peek s.bus s.regs.hl))).regs.bc = 0) := hbc
    simp only [hbc, hmore, not_false_iff, if_true, if_false]
    exact ⟨rfl, rfl⟩

namespace System

variable {s : System FlatBus}

theorem step_repeatedLoad {d : Direction} (h : s.Fetches)
    (hfirst : Bus.peek s.bus s.regs.pc = 0xED)
    (hsecond : Bus.peek s.bus (s.regs.pc + 1) = d.repeatedLoad) :
    s.step.2.regs = s.regs.fetched.fetched.afterLoad d (Bus.peek s.bus s.regs.hl) ∧
      s.step.2.bus = Bus.write s.regs.de (Bus.peek s.bus s.regs.hl) s.bus := by
  have hload : Extended.decode (Bus.peek s.bus (s.regs.pc + 1)) = .block .load d true := by
    rw [hsecond, Extended.decode_repeatedLoad]
  have hpass := Extended.blockLoad_repeated d s.atExtended
  simp only [regs_atExtended, bus_atExtended, Registers.hl_fetched, Registers.de_fetched] at hpass
  rw [step_of_extended FlatBus.pureReads h hfirst hload]
  exact hpass

/-! ## The service of a request -/

theorem step_enable (h : s.Fetches) (hop : Bus.peek s.bus s.regs.pc = 0xFB) :
    s.step.2.regs = s.regs.enabled ∧ s.step.2.bus = s.bus ∧ s.step.2.cpu.eiDelay = true := by
  have hei : Opcode.decode (Bus.peek s.bus s.regs.pc) = .plain .enable := by
    rw [hop]
    rfl
  have hinstruction := instruction_of_plain FlatBus.pureReads s.beginStep hei
  rw [step_of_fetches s h, hinstruction]
  exact ⟨rfl, rfl, rfl⟩

/-- The word on top of the stack. -/
def topOfStack (s : System FlatBus) : UInt16 :=
  word (Bus.peek s.bus (s.regs.sp + 1)) (Bus.peek s.bus s.regs.sp)

theorem exec_ret (s : System FlatBus) :
    (Instr.ret.exec .hl s).2.regs =
        { s.regs with sp := s.regs.sp + 2, pc := s.topOfStack, wz := s.topOfStack } ∧
      (Instr.ret.exec .hl s).2.bus = s.bus := by
  simp only [Instr.exec, pop, readWord, read_of_pure FlatBus.pureReads]
  exact ⟨rfl, rfl⟩

theorem step_ret (h : s.Fetches) (hop : Bus.peek s.bus s.regs.pc = 0xC9) :
    s.step.2.regs = s.regs.returned s.topOfStack ∧ s.step.2.bus = s.bus := by
  have hret : Opcode.decode (Bus.peek s.bus s.regs.pc) = .plain .ret := by
    rw [hop]
    rfl
  have hinstruction := instruction_of_plain FlatBus.pureReads s.beginStep hret
  obtain ⟨hregs, hbus⟩ := exec_ret (s.beginStep.fetched.decodedIn .base)
  have htop : (s.beginStep.fetched.decodedIn .base).topOfStack = s.topOfStack := rfl
  rw [step_of_fetches s h, hinstruction, regs_charge, bus_charge, hregs, hbus, htop]
  exact ⟨rfl, rfl⟩

theorem regs_push (s : System FlatBus) (w : UInt16) :
    (s.push w).regs = { s.regs with sp := s.regs.sp - 2 } := rfl

theorem bus_push (s : System FlatBus) (w : UInt16) :
    (s.push w).bus = Bus.write (s.regs.sp - 2) (loByte w)
      (Bus.write (s.regs.sp - 1) (hiByte w) s.bus) := rfl

theorem regs_acknowledged (s : System FlatBus) :
    s.beginStep.acknowledged.2.regs = s.regs.acknowledged := rfl

theorem bus_acknowledged (s : System FlatBus) :
    s.beginStep.acknowledged.2.bus = (Bus.acknowledge s.bus).2 := rfl

theorem step_acceptMaskable (h : s.cpu.acceptance = .maskable) (him : s.regs.im = 1) :
    s.step.2.regs = s.regs.atHandler ∧
      s.step.2.bus =
        Bus.write (s.regs.sp - 2) (loByte s.regs.pc)
          (Bus.write (s.regs.sp - 1) (hiByte s.regs.pc) (Bus.acknowledge s.bus).2) := by
  have h2 : ¬ ((1 : UInt8) == 2) = true := by decide
  have h0 : ¬ ((1 : UInt8) == 0) = true := by decide
  rw [step_eq, h]
  simp only [act, acceptMaskable_eq, enterHandler, regs_push, bus_push, regs_acknowledged,
    bus_acknowledged, Registers.im_acknowledged, Registers.pc_acknowledged,
    Registers.sp_acknowledged, him, h2, h0, Bool.false_eq_true, if_false, regs_charge,
    bus_charge, regs_goTo, bus_goTo, Registers.atHandler, and_self]

end System

end AmstradCpc.Z80
