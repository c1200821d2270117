import AmstradCpc.Proofs.Z80.Latches

/-!
# Instructions and pending requests

What an instruction does is the same whatever requests are latched, and it leaves the latches as
they are (`System.instruction_withRequests`).
-/

namespace AmstradCpc.Z80

namespace System

section Plain

variable {β : Type} (m n : Bool) (s : System β)

/-- The system with the latches of the maskable and the non-maskable request as given. -/
def withRequests (m n : Bool) (s : System β) : System β :=
  { s with cpu := { s.cpu with intPending := m, nmiPending := n } }

@[simp] theorem regs_withRequests : (s.withRequests m n).regs = s.regs := rfl

@[simp] theorem mapRegs_withRequests (f : Registers → Registers) :
    (s.withRequests m n).mapRegs f = (s.mapRegs f).withRequests m n := rfl

@[simp] theorem decodedIn_withRequests (c : DecodeContext) :
    (s.withRequests m n).decodedIn c = (s.decodedIn c).withRequests m n := rfl

end Plain

variable {β : Type} [Bus β] (m n : Bool) (s : System β)

@[simp] theorem read_withRequests (a : UInt16) :
    (s.withRequests m n).read a = ((s.read a).1, (s.read a).2.withRequests m n) := rfl

@[simp] theorem write_withRequests (a : UInt16) (v : UInt8) :
    (s.withRequests m n).write a v = (s.write a v).withRequests m n := rfl

@[simp] theorem input_withRequests (port : UInt16) :
    (s.withRequests m n).input port = ((s.input port).1, (s.input port).2.withRequests m n) := rfl

@[simp] theorem output_withRequests (port : UInt16) (v : UInt8) :
    (s.withRequests m n).output port v = (s.output port v).withRequests m n := rfl

@[simp] theorem fetchByte_withRequests :
    (s.withRequests m n).fetchByte = (s.fetchByte.1, s.fetchByte.2.withRequests m n) := rfl

@[simp] theorem fetchOpcode_withRequests :
    (s.withRequests m n).fetchOpcode = (s.fetchOpcode.1, s.fetchOpcode.2.withRequests m n) := rfl

@[simp] theorem fetchWord_withRequests :
    (s.withRequests m n).fetchWord = (s.fetchWord.1, s.fetchWord.2.withRequests m n) := rfl

@[simp] theorem operandAddress_withRequests (x : Index) :
    (s.withRequests m n).operandAddress x =
      ((s.operandAddress x).1, (s.operandAddress x).2.withRequests m n) := by
  cases x <;> rfl

end System

section Instructions

variable {β : Type} [Bus β] (m n : Bool) (s : System β)

-- A branch and a repetition ask the registers.
theorem Instr.exec_withRequests (i : Instr) (x : Index) :
    i.exec x (s.withRequests m n) = ((i.exec x s).1, (i.exec x s).2.withRequests m n) := by
  cases i with
  | decJump | jumpRelativeIf cc | jumpIf cc | callIf cc | retIf cc =>
    simp -implicitDefEqProofs only [exec, System.fetchByte_withRequests,
      System.fetchWord_withRequests, System.mapRegs_withRequests, System.regs_withRequests]
    split <;> rfl
  | _ => rfl

theorem MemoryInstr.exec_withRequests (i : MemoryInstr) (a : UInt16) :
    i.exec a (s.withRequests m n) = (i.exec a s).withRequests m n := by
  cases i <;> rfl

theorem BitInstr.execMemory_withRequests (op : BitOp) (a : UInt16) (source : UInt8) :
    execMemory op a source (s.withRequests m n) =
      ((execMemory op a source s).1, (execMemory op a source s).2.withRequests m n) := by
  simp only [execMemory, System.read_withRequests, System.regs_withRequests,
    System.mapRegs_withRequests]
  split <;> rfl

theorem BitInstr.exec_withRequests (i : BitInstr) :
    i.exec (s.withRequests m n) = (i.exec s).withRequests m n := by
  simp only [exec, execMemory_withRequests, System.regs_withRequests, System.mapRegs_withRequests]
  split <;> rfl

theorem BitInstr.execIndexed_withRequests (i : BitInstr) (a : UInt16) :
    i.execIndexed a (s.withRequests m n) = (i.execIndexed a s).withRequests m n := by
  simp only [execIndexed, execMemory_withRequests, System.mapRegs_withRequests]
  split <;> rfl

theorem Extended.exec_withRequests (i : Extended) (opcode : UInt8) :
    i.exec opcode (s.withRequests m n) =
      ((i.exec opcode s).1, (i.exec opcode s).2.withRequests m n) := by
  cases i with
  | block op d repeats =>
    cases op <;>
      simp -implicitDefEqProofs only [exec, blockLoad, blockCompare, blockInput, blockOutput,
        System.read_withRequests, System.write_withRequests, System.input_withRequests,
        System.output_withRequests, System.mapRegs_withRequests, System.regs_withRequests] <;>
      split <;> rfl
  | _ => rfl

end Instructions

namespace System

variable {β : Type} [Bus β] (m n : Bool) (s : System β)

theorem bitIndexed_withRequests (x : Index) :
    (s.withRequests m n).bitIndexed x =
      ((s.bitIndexed x).1, (s.bitIndexed x).2.withRequests m n) := by
  simp only [bitIndexed, operandAddress_withRequests, fetchByte_withRequests,
    decodedIn_withRequests, BitInstr.execIndexed_withRequests]

theorem bitPage_withRequests :
    (s.withRequests m n).bitPage = (s.bitPage.1, s.bitPage.2.withRequests m n) := by
  simp only [bitPage, fetchOpcode_withRequests, decodedIn_withRequests,
    BitInstr.exec_withRequests]

theorem extendedPage_withRequests :
    (s.withRequests m n).extendedPage = (s.extendedPage.1, s.extendedPage.2.withRequests m n) := by
  simp only [extendedPage, fetchOpcode_withRequests, decodedIn_withRequests,
    Extended.exec_withRequests]

theorem indexed_withRequests (x : Index) :
    (s.withRequests m n).indexed x = ((s.indexed x).1, (s.indexed x).2.withRequests m n) := by
  simp only [indexed, read_withRequests, regs_withRequests, fetchOpcode_withRequests,
    decodedIn_withRequests, operandAddress_withRequests, Instr.exec_withRequests,
    MemoryInstr.exec_withRequests, bitIndexed_withRequests]
  split
  · rfl
  · split <;> rfl

theorem instruction_withRequests :
    (s.withRequests m n).instruction = (s.instruction.1, s.instruction.2.withRequests m n) := by
  simp only [instruction, fetchOpcode_withRequests, decodedIn_withRequests, regs_withRequests,
    Instr.exec_withRequests, MemoryInstr.exec_withRequests, bitPage_withRequests,
    extendedPage_withRequests, indexed_withRequests]
  split <;> rfl

end System

end AmstradCpc.Z80
