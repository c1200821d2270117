import AmstradCpc.Proofs.Z80.Calls
import Mathlib.Data.FinEnum

/-!
# The latches of a step

Two latches last from one step to the next: the one that `EI` sets, and the one that a prefix sets
when another prefix cuts it short. Only those two things set them (`System.eiDelay_step`,
`System.inPrefix_step`), which is said here by the bytes that the step fetches, and no instruction
touches anything else outside the registers (`Instr.outside_exec` and its neighbours).
-/

namespace AmstradCpc.Z80

/-! ## Prefix bytes -/

/-- The byte turns `HL` into an index pair. -/
def IsIndexPrefix (b : UInt8) : Prop := b = 0xDD ∨ b = 0xFD

/-- The byte cancels an index prefix in front of it. -/
def CancelsPrefix (b : UInt8) : Prop := b = 0xDD ∨ b = 0xED ∨ b = 0xFD

instance (b : UInt8) : Decidable (IsIndexPrefix b) := inferInstanceAs (Decidable (_ ∨ _))

instance (b : UInt8) : Decidable (CancelsPrefix b) := inferInstanceAs (Decidable (_ ∨ _))

namespace Opcode

theorem decode_enable_iff : ∀ op, decode op = .plain .enable ↔ op = 0xFB := by decide +kernel

theorem decode_indexPage_iff :
    ∀ op, (∃ x, decode op = .indexPage x) ↔ IsIndexPrefix op := by
  have h (op : UInt8) : (∃ x, decode op = .indexPage x) ↔
      decode op = .indexPage .hl ∨ decode op = .indexPage .ix ∨ decode op = .indexPage .iy := by
    constructor
    · rintro ⟨x, hx⟩
      cases x <;> simp [hx]
    · rintro (hx | hx | hx) <;> exact ⟨_, hx⟩
  simp only [h]
  decide +kernel

theorem cancelsIndex_decode_iff :
    ∀ op, cancelsIndex (decode op) = true ↔ CancelsPrefix op := by decide +kernel

end Opcode

/-! ## Outside the registers -/

/-- All of the CPU but its registers. -/
def Cpu.outside (c : Cpu) : Cpu := { c with regs := {} }

namespace System

section Plain

variable {β : Type} (s : System β)

@[simp] theorem outside_mapRegs (f : Registers → Registers) :
    (s.mapRegs f).cpu.outside = s.cpu.outside := rfl

@[simp] theorem outside_goTo (a : UInt16) : (s.goTo a).cpu.outside = s.cpu.outside := rfl

@[simp] theorem outside_jumpBy (e : UInt8) : (Instr.jumpBy e s).cpu.outside = s.cpu.outside := rfl

end Plain

variable {β : Type} [Bus β] (s : System β)

@[simp] theorem outside_fetchByte : s.fetchByte.2.cpu.outside = s.cpu.outside := rfl

@[simp] theorem outside_fetchWord : s.fetchWord.2.cpu.outside = s.cpu.outside := rfl

@[simp] theorem outside_push (w : UInt16) : (s.push w).cpu.outside = s.cpu.outside := rfl

@[simp] theorem outside_pop : s.pop.2.cpu.outside = s.cpu.outside := rfl

@[simp] theorem outside_operandAddress (x : Index) :
    (s.operandAddress x).2.cpu.outside = s.cpu.outside := by
  cases x <;> rfl

end System

section Instructions

variable {β : Type} [Bus β] (s : System β)

/-- Every instruction but `EI` keeps to the registers. -/
theorem Instr.outside_exec {i : Instr} (hi : i ≠ .enable) (x : Index) :
    (i.exec x s).2.cpu.outside = s.cpu.outside := by
  cases i with
  | enable => exact absurd rfl hi
  -- taken or not
  | decJump | jumpRelativeIf cc | jumpIf cc | callIf cc | retIf cc =>
    simp only [exec]
    split <;> simp
  | _ => simp [exec]

@[simp] theorem MemoryInstr.outside_exec (m : MemoryInstr) (a : UInt16) :
    (m.exec a s).cpu.outside = s.cpu.outside := by
  cases m <;> simp [exec]

@[simp] theorem BitInstr.outside_execMemory (op : BitOp) (a : UInt16) (source : UInt8) :
    (execMemory op a source s).2.cpu.outside = s.cpu.outside := by
  simp only [execMemory]
  split <;> simp

@[simp] theorem BitInstr.outside_exec (i : BitInstr) :
    (i.exec s).cpu.outside = s.cpu.outside := by
  simp only [exec]
  split <;> simp

@[simp] theorem BitInstr.outside_execIndexed (i : BitInstr) (a : UInt16) :
    (i.execIndexed a s).cpu.outside = s.cpu.outside := by
  simp only [execIndexed]
  split <;> simp

-- A block instruction maps the registers once more where it repeats.
theorem Extended.outside_repeat {β : Type} {c : Bool} {t : Nat} {f : Registers → Registers}
    (s : System β) : (if c then (t, s.mapRegs f) else (0, s)).2.cpu.outside = s.cpu.outside := by
  split <;> rfl

@[simp] theorem Extended.outside_exec (i : Extended) (opcode : UInt8) :
    (i.exec opcode s).2.cpu.outside = s.cpu.outside := by
  cases i with
  | block op d repeats => cases op <;> exact outside_repeat _
  | undefined => rfl
  | _ => simp [exec]

end Instructions

/-! ## The latches -/

/-- The latches that the next step takes down. -/
def Cpu.shadows (c : Cpu) : Bool × Bool := (c.eiDelay, c.inPrefix)

theorem Cpu.shadows_of_outside {c c' : Cpu} (h : c.outside = c'.outside) :
    c.shadows = c'.shadows := by
  have heiDelay := congrArg Cpu.eiDelay h
  have hinPrefix := congrArg Cpu.inPrefix h
  exact Prod.ext heiDelay hinPrefix

namespace System

variable {β : Type} [Bus β] (s : System β)

/-- The byte at the program counter, and the bus behind the fetch. -/
def firstByte : UInt8 × β := Bus.read s.regs.pc s.bus

/-- The byte after it, as an index prefix looks at it. -/
def nextByte : UInt8 × β := Bus.read (s.regs.pc + 1) s.firstByte.2

/-- The same byte, as it is fetched when it does not cancel the prefix. On a bus where a read
changes something it may be another one. -/
def secondByte : UInt8 × β := Bus.read (s.regs.pc + 1) s.nextByte.2

/-- The bytes are an index prefix that another prefix cuts short. -/
def AtCutPrefix : Prop := IsIndexPrefix s.firstByte.1 ∧ CancelsPrefix s.nextByte.1

/-- The bytes are `EI`, or `EI` behind an index prefix. -/
def AtEnable : Prop :=
  s.firstByte.1 = 0xFB ∨
    IsIndexPrefix s.firstByte.1 ∧ ¬ CancelsPrefix s.nextByte.1 ∧ s.secondByte.1 = 0xFB

instance : Decidable s.AtCutPrefix := inferInstanceAs (Decidable (_ ∧ _))

instance : Decidable s.AtEnable := inferInstanceAs (Decidable (_ ∨ _))

@[simp] theorem shadows_fetchByte : s.fetchByte.2.cpu.shadows = s.cpu.shadows := rfl

@[simp] theorem shadows_fetchOpcode : s.fetchOpcode.2.cpu.shadows = s.cpu.shadows := rfl

@[simp] theorem shadows_operandAddress (x : Index) :
    (s.operandAddress x).2.cpu.shadows = s.cpu.shadows := by
  cases x <;> rfl

omit [Bus β] in
@[simp] theorem shadows_decodedIn (c : DecodeContext) :
    (s.decodedIn c).cpu.shadows = s.cpu.shadows := rfl

theorem shadows_exec (i : Instr) (x : Index) :
    (i.exec x s).2.cpu.shadows = (s.cpu.eiDelay || i = .enable, s.cpu.inPrefix) := by
  by_cases hi : i = .enable
  · subst hi
    simp only [decide_true, Bool.or_true]
    rfl
  · rw [Cpu.shadows_of_outside (Instr.outside_exec s hi x), decide_eq_false hi, Bool.or_false]
    rfl

@[simp] theorem shadows_bitIndexed (x : Index) :
    (s.bitIndexed x).2.cpu.shadows = s.cpu.shadows := by
  simp only [bitIndexed, Cpu.shadows_of_outside (BitInstr.outside_execIndexed _ _ _),
    shadows_decodedIn, shadows_fetchByte, shadows_operandAddress]

@[simp] theorem shadows_bitPage : s.bitPage.2.cpu.shadows = s.cpu.shadows := by
  simp only [bitPage, Cpu.shadows_of_outside (BitInstr.outside_exec _ _), shadows_decodedIn,
    shadows_fetchOpcode]

@[simp] theorem shadows_extendedPage : s.extendedPage.2.cpu.shadows = s.cpu.shadows := by
  simp only [extendedPage, Cpu.shadows_of_outside (Extended.outside_exec _ _ _),
    shadows_decodedIn, shadows_fetchOpcode]

-- Behind an index prefix. Of the instructions there only `EI` sets a latch.
theorem shadows_indexed (x : Index) :
    (s.indexed x).2.cpu.shadows =
      if CancelsPrefix (s.read s.regs.pc).1 then (s.cpu.eiDelay, true)
      else (s.cpu.eiDelay || (s.read s.regs.pc).2.fetchOpcode.1 = 0xFB, s.cpu.inPrefix) := by
  have hcancels := Opcode.cancelsIndex_decode_iff (s.read s.regs.pc).1
  have henable := Opcode.decode_enable_iff (s.read s.regs.pc).2.fetchOpcode.1
  simp only [indexed, hcancels]
  split
  · rfl
  · cases hi : Opcode.decode (s.read s.regs.pc).2.fetchOpcode.1 with
    | plain i =>
      simp only [hi, Opcode.plain.injEq] at henable ⊢
      simp only [shadows_exec, henable]
      rfl
    | _ =>
      simp only [hi, reduceCtorEq, false_iff] at henable ⊢
      simp [henable, Cpu.shadows_of_outside (MemoryInstr.outside_exec _ _ _),
        Cpu.shadows_of_outside (outside_operandAddress _ _)]
      rfl

theorem shadows_instruction :
    s.instruction.2.cpu.shadows =
      (s.cpu.eiDelay || s.AtEnable, s.cpu.inPrefix || s.AtCutPrefix) := by
  have hpage := Opcode.decode_indexPage_iff s.firstByte.1
  have henable := Opcode.decode_enable_iff s.firstByte.1
  have hop : s.fetchOpcode.1 = s.firstByte.1 := rfl
  simp only [instruction, hop, AtEnable, AtCutPrefix]
  cases hi : Opcode.decode s.firstByte.1 with
  | indexPage x =>
    have hpre : IsIndexPrefix s.firstByte.1 := hpage.mp ⟨x, hi⟩
    have hfirst : s.firstByte.1 ≠ 0xFB := by
      rintro h
      rw [henable.mpr h] at hi
      cases hi
    simp only [shadows_indexed, hpre, hfirst, true_and, false_or]
    by_cases hnext : CancelsPrefix s.nextByte.1
    · have hread : CancelsPrefix (s.fetchOpcode.2.read s.fetchOpcode.2.regs.pc).1 := hnext
      simp only [hread, hnext, if_true, not_true, false_and, decide_false, Bool.or_false,
        decide_true, Bool.or_true]
      rfl
    · have hread : ¬ CancelsPrefix (s.fetchOpcode.2.read s.fetchOpcode.2.regs.pc).1 := hnext
      simp only [hread, hnext, if_false, not_false_iff, true_and, decide_false, Bool.or_false]
      rfl
  | plain i =>
    have hpre : ¬ IsIndexPrefix s.firstByte.1 := by
      simp [← hpage, hi]
    simp only [hi, Opcode.plain.injEq] at henable
    simp only [shadows_exec, henable, hpre, false_and, or_false, decide_false, Bool.or_false]
    rfl
  | _ =>
    have hpre : ¬ IsIndexPrefix s.firstByte.1 := by
      simp [← hpage, hi]
    simp only [hi, reduceCtorEq, false_iff] at henable
    simp [henable, hpre, Cpu.shadows_of_outside (MemoryInstr.outside_exec _ _ _)]
    rfl

/-! ## Steps -/

/-- The step fetches an instruction: it accepts no request, and the CPU is not halted. -/
def Fetches : Prop := s.cpu.acceptance = .none ∧ s.regs.halted = false

instance : Decidable s.Fetches := inferInstanceAs (Decidable (_ ∧ _))

theorem step_of_fetches (h : s.Fetches) :
    s.step = (s.beginStep.instruction.1,
      s.beginStep.instruction.2.charge s.beginStep.instruction.1) := by
  have hruns : ¬ s.beginStep.regs.halted = true := by
    rw [Bool.not_eq_true]
    exact h.2
  rw [step_eq, h.1]
  simp only [act, if_neg hruns]

theorem shadows_enterHandler (data : UInt8) :
    (s.enterHandler data).2.cpu.shadows = s.cpu.shadows := by
  simp only [enterHandler]
  split
  · rfl
  · split <;> rfl

/-- After a step the latches tell what it has fetched. -/
theorem shadows_step :
    s.step.2.cpu.shadows =
      (decide (s.Fetches ∧ s.AtEnable), decide (s.Fetches ∧ s.AtCutPrefix)) := by
  rw [step_eq]
  show (s.beginStep.act s.cpu.acceptance).2.cpu.shadows = _
  cases hacc : s.cpu.acceptance with
  | nonMaskable =>
    have hfetches : ¬ s.Fetches := fun h => by simp [h.1] at hacc
    simp only [hfetches, false_and, decide_false]
    rfl
  | maskable =>
    have hfetches : ¬ s.Fetches := fun h => by simp [h.1] at hacc
    simp only [act, acceptMaskable_eq, shadows_enterHandler, hfetches, false_and, decide_false]
    rfl
  | none =>
    simp only [act]
    by_cases hhalted : s.regs.halted = true
    · have hfetches : ¬ s.Fetches := fun h => by simp [h.2] at hhalted
      have hidle : s.beginStep.regs.halted = true := hhalted
      simp only [hidle, if_true, hfetches, false_and, decide_false]
      rfl
    · have hfetches : s.Fetches := ⟨hacc, Bool.eq_false_of_not_eq_true hhalted⟩
      have hruns : ¬ s.beginStep.regs.halted = true := hhalted
      rw [if_neg hruns, shadows_instruction]
      simp only [hfetches, true_and]
      rfl

theorem eiDelay_step : s.step.2.cpu.eiDelay = true ↔ s.Fetches ∧ s.AtEnable := by
  have h := congrArg Prod.fst s.shadows_step
  simp only [Cpu.shadows] at h
  rw [h, decide_eq_true_eq]

theorem inPrefix_step : s.step.2.cpu.inPrefix = true ↔ s.Fetches ∧ s.AtCutPrefix := by
  have h := congrArg Prod.snd s.shadows_step
  simp only [Cpu.shadows] at h
  rw [h, decide_eq_true_eq]

theorem nmiPending_step :
    s.step.2.cpu.nmiPending = (s.cpu.nmiPending && s.cpu.acceptance != .nonMaskable) := by
  rw [step_eq]
  show (s.beginStep.act s.cpu.acceptance).2.cpu.nmiPending = _
  cases s.cpu.acceptance with
  | nonMaskable =>
    have h := congrArg Cpu.nmiPending s.beginStep.frame_acceptNonMaskable
    exact h.trans (Bool.and_false _).symm
  | maskable =>
    have h := congrArg Cpu.nmiPending
      (frame_enterHandler s.beginStep.acknowledged.2 s.beginStep.acknowledged.1)
    exact h.trans (Bool.and_true _).symm
  | none =>
    simp only [act]
    split
    · exact (Bool.and_true _).symm
    · obtain ⟨n, -, h⟩ := s.beginStep.frame_instruction
      exact (congrArg Cpu.nmiPending h).trans (Bool.and_true _).symm

end System

end AmstradCpc.Z80
