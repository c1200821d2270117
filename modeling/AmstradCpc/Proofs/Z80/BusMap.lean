import AmstradCpc.Z80.Step

/-!
# Runs on two buses

Instructions know nothing of the bus but what its accesses answer. So a map between two buses that
every access goes through carries a run on the one to the run on the other, with the same T-states
and the same CPU (`System.step_map`, `System.runPeriod_map`). The inclusion of the bus states that
satisfy a predicate is such a map, which turns "every access keeps the predicate" into "every
instruction keeps it" (`System.instruction_keeps`, `System.step_keeps`).
-/

namespace AmstradCpc.Z80

variable {β γ : Type} [Bus β] [Bus γ]

/-! ## Maps between buses -/

/-- The accesses that instructions are made of go through `π`. -/
class AccessHom (π : β → γ) : Prop where
  read : ∀ a b, Bus.read a (π b) = ((Bus.read a b).1, π (Bus.read a b).2)
  write : ∀ a v b, Bus.write a v (π b) = π (Bus.write a v b)
  input : ∀ p b, Bus.input p (π b) = ((Bus.input p b).1, π (Bus.input p b).2)
  output : ∀ p v b, Bus.output p v (π b) = π (Bus.output p v b)

/-- The acknowledge cycle goes through `π` too. -/
class BusHom (π : β → γ) : Prop extends AccessHom π where
  acknowledge : ∀ b, Bus.acknowledge (π b) = ((Bus.acknowledge b).1, π (Bus.acknowledge b).2)

namespace System

section Plain

variable {β γ : Type} (π : β → γ) (s : System β)

/-- The same CPU on another bus. -/
def map : System γ := { cpu := s.cpu, bus := π s.bus, undefined := s.undefined }

@[simp] theorem cpu_map : (s.map π).cpu = s.cpu := rfl

@[simp] theorem bus_map : (s.map π).bus = π s.bus := rfl

@[simp] theorem regs_map : (s.map π).regs = s.regs := rfl

@[simp] theorem mapRegs_map (f : Registers → Registers) :
    (s.map π).mapRegs f = (s.mapRegs f).map π := rfl

@[simp] theorem decodedIn_map (c : DecodeContext) :
    (s.map π).decodedIn c = (s.decodedIn c).map π := rfl

@[simp] theorem goTo_map (a : UInt16) : (s.map π).goTo a = (s.goTo a).map π := rfl

@[simp] theorem enterService_map : (s.map π).enterService = s.enterService.map π := rfl

end Plain

/-! ## Accesses -/

variable (π : β → γ) [AccessHom π] (s : System β)

@[simp] theorem read_map (a : UInt16) :
    (s.map π).read a = ((s.read a).1, (s.read a).2.map π) := by
  simp only [System.read, map, AccessHom.read]

@[simp] theorem write_map (a : UInt16) (v : UInt8) :
    (s.map π).write a v = (s.write a v).map π := by
  simp only [System.write, map, AccessHom.write]

@[simp] theorem input_map (p : UInt16) :
    (s.map π).input p = ((s.input p).1, (s.input p).2.map π) := by
  simp only [System.input, map, AccessHom.input]

@[simp] theorem output_map (p : UInt16) (v : UInt8) :
    (s.map π).output p v = (s.output p v).map π := by
  simp only [System.output, map, AccessHom.output]

@[simp] theorem fetchByte_map : (s.map π).fetchByte = (s.fetchByte.1, s.fetchByte.2.map π) := by
  simp only [fetchByte, regs_map, read_map, mapRegs_map]

@[simp] theorem fetchOpcode_map :
    (s.map π).fetchOpcode = (s.fetchOpcode.1, s.fetchOpcode.2.map π) := by
  simp only [fetchOpcode, fetchByte_map]
  rfl

@[simp] theorem fetchWord_map : (s.map π).fetchWord = (s.fetchWord.1, s.fetchWord.2.map π) := by
  simp only [fetchWord, fetchByte_map]

@[simp] theorem readWord_map (a : UInt16) :
    (s.map π).readWord a = ((s.readWord a).1, (s.readWord a).2.map π) := by
  simp only [readWord, read_map]

@[simp] theorem writeWord_map (a w : UInt16) :
    (s.map π).writeWord a w = (s.writeWord a w).map π := by
  simp only [writeWord, write_map]

@[simp] theorem push_map (w : UInt16) : (s.map π).push w = (s.push w).map π := by
  simp only [push, regs_map, write_map, mapRegs_map]

@[simp] theorem pop_map : (s.map π).pop = (s.pop.1, s.pop.2.map π) := by
  simp only [pop, regs_map, readWord_map, mapRegs_map]

@[simp] theorem operandAddress_map (x : Index) :
    (s.map π).operandAddress x = ((s.operandAddress x).1, (s.operandAddress x).2.map π) := by
  cases x with
  | hl => rfl
  | ix => simp only [operandAddress, fetchByte_map, regs_map, mapRegs_map]
  | iy => simp only [operandAddress, fetchByte_map, regs_map, mapRegs_map]

end System

/-! ## Instructions -/

section Instructions

variable (π : β → γ) [AccessHom π] (s : System β)

@[simp] theorem Instr.exec_map (i : Instr) (x : Index) :
    i.exec x (s.map π) = ((i.exec x s).1, (i.exec x s).2.map π) := by
  cases i with
  | enable => rfl
  | decJump =>
    simp only [exec, System.fetchByte_map, System.mapRegs_map, System.regs_map]
    split <;> simp [jumpBy]
  | jumpRelative => simp [exec, jumpBy]
  | jumpRelativeIf cc =>
    simp only [exec, System.fetchByte_map, System.regs_map]
    split <;> simp [jumpBy]
  | jumpIf cc | callIf cc =>
    simp only [exec, System.fetchWord_map, System.regs_map]
    split <;> simp
  | retIf cc => by_cases h : s.regs.holds cc <;> simp [exec, h]
  | _ => simp [exec]

@[simp] theorem MemoryInstr.exec_map (m : MemoryInstr) (a : UInt16) :
    m.exec a (s.map π) = (m.exec a s).map π := by
  cases m <;> simp [exec]

@[simp] theorem BitInstr.execMemory_map (op : BitOp) (a : UInt16) (source : UInt8) :
    execMemory op a source (s.map π) =
      ((execMemory op a source s).1, (execMemory op a source s).2.map π) := by
  simp only [execMemory, System.read_map, System.regs_map, System.mapRegs_map]
  split <;> simp

@[simp] theorem BitInstr.exec_map (i : BitInstr) : i.exec (s.map π) = (i.exec s).map π := by
  simp only [exec]
  split <;> simp

@[simp] theorem BitInstr.execIndexed_map (i : BitInstr) (a : UInt16) :
    i.execIndexed a (s.map π) = (i.execIndexed a s).map π := by
  simp only [execIndexed, execMemory_map]
  split <;> simp

@[simp] theorem Extended.blockLoad_map (d : Direction) (repeats : Bool) :
    blockLoad d repeats (s.map π) =
      ((blockLoad d repeats s).1, (blockLoad d repeats s).2.map π) := by
  simp only [blockLoad, System.read_map, System.write_map, System.mapRegs_map, System.regs_map]
  split <;> rfl

@[simp] theorem Extended.blockCompare_map (d : Direction) (repeats : Bool) :
    blockCompare d repeats (s.map π) =
      ((blockCompare d repeats s).1, (blockCompare d repeats s).2.map π) := by
  simp only [blockCompare, System.read_map, System.mapRegs_map, System.regs_map]
  split <;> rfl

@[simp] theorem Extended.blockInput_map (d : Direction) (repeats : Bool) :
    blockInput d repeats (s.map π) =
      ((blockInput d repeats s).1, (blockInput d repeats s).2.map π) := by
  simp only [blockInput, System.input_map, System.write_map, System.mapRegs_map, System.regs_map]
  split <;> rfl

@[simp] theorem Extended.blockOutput_map (d : Direction) (repeats : Bool) :
    blockOutput d repeats (s.map π) =
      ((blockOutput d repeats s).1, (blockOutput d repeats s).2.map π) := by
  simp only [blockOutput, System.read_map, System.output_map, System.mapRegs_map, System.regs_map]
  split <;> rfl

@[simp] theorem Extended.exec_map (i : Extended) (opcode : UInt8) :
    i.exec opcode (s.map π) = ((i.exec opcode s).1, (i.exec opcode s).2.map π) := by
  cases i with
  | block op d repeats => cases op <;> simp [exec]
  | undefined => rfl
  | _ => simp [exec]

end Instructions

/-! ## Steps and periods -/

namespace System

section Steps

variable (π : β → γ) [AccessHom π] (s : System β)

@[simp] theorem bitIndexed_map (x : Index) :
    (s.map π).bitIndexed x = ((s.bitIndexed x).1, (s.bitIndexed x).2.map π) := by
  simp only [bitIndexed, operandAddress_map, fetchByte_map, decodedIn_map,
    BitInstr.execIndexed_map]

@[simp] theorem indexed_map (x : Index) :
    (s.map π).indexed x = ((s.indexed x).1, (s.indexed x).2.map π) := by
  simp only [indexed, regs_map, read_map, fetchOpcode_map]
  split
  · rfl
  · split <;> simp

@[simp] theorem bitPage_map : (s.map π).bitPage = (s.bitPage.1, s.bitPage.2.map π) := by
  simp only [bitPage, fetchOpcode_map, decodedIn_map, BitInstr.exec_map]

@[simp] theorem extendedPage_map :
    (s.map π).extendedPage = (s.extendedPage.1, s.extendedPage.2.map π) := by
  simp only [extendedPage, fetchOpcode_map, decodedIn_map, Extended.exec_map]

@[simp] theorem instruction_map :
    (s.map π).instruction = (s.instruction.1, s.instruction.2.map π) := by
  simp only [instruction, fetchOpcode_map]
  split <;> simp

@[simp] theorem acceptNonMaskable_map :
    (s.map π).acceptNonMaskable = (s.acceptNonMaskable.1, s.acceptNonMaskable.2.map π) := by
  simp only [acceptNonMaskable, enterService_map]
  rw [← goTo_map, ← push_map]
  rfl

end Steps

/-- The service of a maskable request up to the byte that the acknowledge cycle yields. -/
def acknowledged (s : System β) : UInt8 × System β :=
  let s := { s.enterService with cpu.intPending := false }
  let s := s.mapRegs fun r => { r with iff1 := false, iff2 := false }
  ((Bus.acknowledge s.bus).1, { s with bus := (Bus.acknowledge s.bus).2 })

/-- The rest of the service: the return address goes to the stack, the CPU to the handler. -/
def enterHandler (data : UInt8) (s : System β) : Nat × System β :=
  let s := s.push s.regs.pc
  if s.regs.im == 2 then
    let (a, s) := s.readWord (word s.regs.i data)
    (19, s.goTo a)
  else if s.regs.im == 0 then (13, s.goTo (data &&& 0x38).toUInt16)
  else (13, s.goTo 0x0038)

theorem acceptMaskable_eq (s : System β) :
    s.acceptMaskable = s.acknowledged.2.enterHandler s.acknowledged.1 := rfl

/-- The latches of the last step, taken down. -/
def beginStep (s : System β) : System β := { s with cpu.eiDelay := false, cpu.inPrefix := false }

/-- Counts the T-states of a step. -/
def charge (t : Nat) (s : System β) : System β := { s with cpu.tStates := s.cpu.tStates + t }

theorem step_eq (s : System β) :
    s.step = ((s.beginStep.act s.cpu.acceptance).1,
      (s.beginStep.act s.cpu.acceptance).2.charge (s.beginStep.act s.cpu.acceptance).1) := rfl

theorem runFor_of_nonpos (s : System β) {left : Int} (h : left - s.step.1 ≤ 0) (elapsed : Nat) :
    runFor left elapsed s = (elapsed + s.step.1, left - s.step.1, s.step.2) := by
  rw [runFor, if_pos h]

theorem runFor_of_pos (s : System β) {left : Int} (h : ¬ left - s.step.1 ≤ 0) (elapsed : Nat) :
    runFor left elapsed s = runFor (left - s.step.1) (elapsed + s.step.1) s.step.2 := by
  rw [runFor, if_neg h]

@[simp] theorem enterHandler_map (π : β → γ) [AccessHom π] (s : System β) (data : UInt8) :
    (s.map π).enterHandler data = ((s.enterHandler data).1, (s.enterHandler data).2.map π) := by
  simp only [enterHandler, push_map, regs_map]
  split
  · simp
  · split <;> simp

section Runs

variable (π : β → γ) [BusHom π] (s : System β)

@[simp] theorem acknowledged_map :
    (s.map π).acknowledged = (s.acknowledged.1, s.acknowledged.2.map π) := by
  have h : Bus.acknowledge (π s.bus) = _ := BusHom.acknowledge s.bus
  show ((Bus.acknowledge (π s.bus)).1, System.mk _ (Bus.acknowledge (π s.bus)).2 _) = _
  rw [h]
  rfl

@[simp] theorem act_map (acceptance : Cpu.Acceptance) :
    (s.map π).act acceptance = ((s.act acceptance).1, (s.act acceptance).2.map π) := by
  cases acceptance with
  | nonMaskable => exact acceptNonMaskable_map π s
  | maskable => simp only [act, acceptMaskable_eq, acknowledged_map, enterHandler_map]
  | none =>
    simp only [act, regs_map, instruction_map]
    split <;> rfl

theorem step_map : (s.map π).step = (s.step.1, s.step.2.map π) := by
  -- what a step does around its act touches the CPU only
  have hb : (s.map π).beginStep = s.beginStep.map π := rfl
  have hc (t : Nat) (r : System β) : (r.map π).charge t = (r.charge t).map π := rfl
  simp only [step_eq, hb, cpu_map, act_map, hc]

theorem runFor_map (left : Int) (elapsed : Nat) :
    runFor left elapsed (s.map π) =
      ((runFor left elapsed s).1, (runFor left elapsed s).2.1,
        (runFor left elapsed s).2.2.map π) := by
  induction left, elapsed, s using runFor.induct with
  | case1 left elapsed s r h =>
    -- both runs stop after the same step, since it costs the same on both buses
    have h' : left - (s.map π).step.1 ≤ 0 := by rw [step_map]; exact h
    rw [runFor_of_nonpos _ h', runFor_of_nonpos _ h, step_map]
  | case2 left elapsed s r h ih =>
    have h' : ¬ left - (s.map π).step.1 ≤ 0 := by rw [step_map]; exact h
    rw [runFor_of_pos _ h', runFor_of_pos _ h, step_map]
    exact ih

/-- A run of one instruction period is the same on both buses if the polls are. -/
theorem runPeriod_map [InterruptSource β] [InterruptSource γ]
    (hpoll : ∀ b : β, InterruptSource.poll (π b) =
      ((InterruptSource.poll b).1, π (InterruptSource.poll b).2)) :
    (s.map π).runPeriod = (s.runPeriod.1, s.runPeriod.2.map π) := by
  simp only [runPeriod, cpu_map, runFor_map, bus_map, hpoll]
  rfl

end Runs

/-! ## Predicates that every access keeps -/

/-- The accesses of instructions keep a predicate on the bus. -/
structure AccessKeeps (P : β → Prop) : Prop where
  read : ∀ a b, P b → P (Bus.read a b).2
  write : ∀ a v b, P b → P (Bus.write a v b)
  input : ∀ p b, P b → P (Bus.input p b).2
  output : ∀ p v b, P b → P (Bus.output p v b)

/-- The bus states that satisfy a predicate, as a bus whose acknowledge cycle does nothing. -/
@[reducible] def subBus {P : β → Prop} (h : AccessKeeps P) : Bus { b // P b } where
  read a b := ((Bus.read a b.1).1, ⟨(Bus.read a b.1).2, h.read a b.1 b.2⟩)
  write a v b := ⟨Bus.write a v b.1, h.write a v b.1 b.2⟩
  input p b := ((Bus.input p b.1).1, ⟨(Bus.input p b.1).2, h.input p b.1 b.2⟩)
  output p v b := ⟨Bus.output p v b.1, h.output p v b.1 b.2⟩
  acknowledge b := (0, b)

/-- What every access keeps is kept by all that can be said of every bus alike. -/
theorem bus_keeps {P : β → Prop} (h : AccessKeeps P)
    (f : (γ : Type) → [Bus γ] → System γ → System γ)
    (hf : ∀ (γ : Type) [Bus γ] (π : γ → β) [AccessHom π] (s : System γ),
      f β (s.map π) = (f γ s).map π)
    (s : System β) (hs : P s.bus) : P (f β s).bus := by
  -- run on the bus of states that satisfy the predicate, and forget the proofs they carry
  let _ := subBus h
  have : AccessHom (Subtype.val : { b // P b } → β) :=
    ⟨fun _ _ => rfl, fun _ _ _ => rfl, fun _ _ => rfl, fun _ _ _ => rfl⟩
  have hmap := hf { b // P b } Subtype.val ⟨s.cpu, ⟨s.bus, hs⟩, s.undefined⟩
  have hbus := congrArg System.bus hmap
  rw [bus_map] at hbus
  show P (f β (System.map Subtype.val ⟨s.cpu, ⟨s.bus, hs⟩, s.undefined⟩)).bus
  rw [hbus]
  exact Subtype.property _

theorem instruction_keeps {P : β → Prop} (h : AccessKeeps P) (s : System β) (hs : P s.bus) :
    P s.instruction.2.bus :=
  bus_keeps h (fun _ _ s => s.instruction.2)
    (fun _ _ π _ s => congrArg Prod.snd (instruction_map π s)) s hs

theorem acceptNonMaskable_keeps {P : β → Prop} (h : AccessKeeps P) (s : System β)
    (hs : P s.bus) : P s.acceptNonMaskable.2.bus :=
  bus_keeps h (fun _ _ s => s.acceptNonMaskable.2)
    (fun _ _ π _ s => congrArg Prod.snd (acceptNonMaskable_map π s)) s hs

theorem enterHandler_keeps {P : β → Prop} (h : AccessKeeps P) (data : UInt8) (s : System β)
    (hs : P s.bus) : P (s.enterHandler data).2.bus :=
  bus_keeps h (fun _ _ s => (s.enterHandler data).2)
    (fun _ _ π _ s => congrArg Prod.snd (enterHandler_map π s data)) s hs

-- A step that accepts a maskable request keeps what holds behind the acknowledge cycle.
theorem step_keeps_of_maskable {P : β → Prop} (h : AccessKeeps P) {s : System β}
    (hacc : s.cpu.acceptance = .maskable) (hs : P (Bus.acknowledge s.bus).2) : P s.step.2.bus := by
  -- behind the acknowledge cycle only the stack and the vector are accessed
  rw [step_eq, hacc]
  exact enterHandler_keeps h _ _ hs

-- Every other step makes accesses only.
theorem step_keeps_of_not_maskable {P : β → Prop} (h : AccessKeeps P) {s : System β}
    (hacc : s.cpu.acceptance ≠ .maskable) (hs : P s.bus) : P s.step.2.bus := by
  rw [step_eq]
  show P (s.beginStep.act s.cpu.acceptance).2.bus
  cases ha : s.cpu.acceptance with
  | nonMaskable => exact acceptNonMaskable_keeps h _ hs
  | maskable => exact absurd ha hacc
  | none =>
    simp only [act]
    split
    · exact hs
    · exact instruction_keeps h _ hs

/-- A step keeps what every access and the acknowledge cycle keep. -/
theorem step_keeps {P : β → Prop} (h : AccessKeeps P)
    (hack : ∀ b, P b → P (Bus.acknowledge b).2) (s : System β) (hs : P s.bus) :
    P s.step.2.bus := by
  by_cases hacc : s.cpu.acceptance = .maskable
  · exact step_keeps_of_maskable h hacc (hack _ hs)
  · exact step_keeps_of_not_maskable h hacc hs

-- Whatever a step keeps holds after a run once it holds behind the first step.
theorem runFor_keeps_of_step {P : System β → Prop} (h : ∀ s, P s → P s.step.2) (left : Int)
    (elapsed : Nat) (s : System β) (hs : P s.step.2) : P (runFor left elapsed s).2.2 := by
  induction left, elapsed, s using runFor.induct with
  | case1 left elapsed s r hl =>
    rw [runFor_of_nonpos _ hl]
    exact hs
  | case2 left elapsed s r hl ih =>
    rw [runFor_of_pos _ hl]
    exact ih (h _ hs)

theorem runFor_keeps {P : System β → Prop} (h : ∀ s, P s → P s.step.2) (left : Int)
    (elapsed : Nat) (s : System β) (hs : P s) : P (runFor left elapsed s).2.2 :=
  runFor_keeps_of_step h left elapsed s (h s hs)

end System

end AmstradCpc.Z80
