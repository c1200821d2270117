import AmstradCpc.Proofs.Z80.Acceptance
import AmstradCpc.Proofs.Z80.UnnamedRegisters

/-!
# Refresh and opcode fetches

Two counters go up with every opcode fetch: the low seven bits of the refresh register, and the
count of cycles. A step makes two fetches if it executes an instruction behind a prefix, and one
whatever else it does (`System.m1Cycles_step`). No instruction but `LD R,A` touches the refresh
register in another way, so over a run the two counters agree (`refreshed_afterCalls`).
-/

namespace AmstradCpc.Z80

/-! ## The two counters -/

/-- The refresh register and the number of fetches. -/
def Cpu.counters (c : Cpu) : UInt8 × Nat := (c.regs.r, c.m1Cycles)

/-- The counters after a fetch. -/
def fetchedOnce (c : UInt8 × Nat) : UInt8 × Nat := ((c.1 &&& 0x80) ||| ((c.1 + 1) &&& 0x7F), c.2 + 1)

theorem counters_of_unnamed {c c' : Cpu} (hregs : c.regs.unnamed = c'.regs.unnamed)
    (hout : c.outside = c'.outside) : c.counters = c'.counters := by
  have hr := congrArg Registers.r hregs
  have hcycles := congrArg Cpu.m1Cycles hout
  exact Prod.ext hr hcycles

section Instructions

variable {β : Type} [Bus β] (s : System β)

theorem Instr.counters_exec (i : Instr) (x : Index) :
    (i.exec x s).2.cpu.counters = s.cpu.counters := by
  have hr : (i.exec x s).2.regs.r = s.regs.r := by
    have hunnamed := congrArg Registers.r (Instr.unnamed_exec s i x)
    cases i <;> exact hunnamed
  have hcycles : (i.exec x s).2.cpu.m1Cycles = s.cpu.m1Cycles := by
    by_cases hi : i = .enable
    · subst hi
      rfl
    · have hout := congrArg Cpu.m1Cycles (Instr.outside_exec s hi x)
      exact hout
  exact Prod.ext hr hcycles

theorem MemoryInstr.counters_exec (m : MemoryInstr) (a : UInt16) :
    (m.exec a s).cpu.counters = s.cpu.counters :=
  counters_of_unnamed (MemoryInstr.unnamed_exec s m a) (MemoryInstr.outside_exec s m a)

theorem BitInstr.counters_exec (i : BitInstr) : (i.exec s).cpu.counters = s.cpu.counters :=
  counters_of_unnamed (BitInstr.unnamed_exec s i) (BitInstr.outside_exec s i)

theorem BitInstr.counters_execIndexed (i : BitInstr) (a : UInt16) :
    (i.execIndexed a s).cpu.counters = s.cpu.counters :=
  counters_of_unnamed (BitInstr.unnamed_execIndexed s i a) (BitInstr.outside_execIndexed s i a)

/-- Of the `ED` page one instruction loads the refresh register. -/
theorem Extended.counters_exec (i : Extended) (opcode : UInt8) :
    (i.exec opcode s).2.cpu.counters =
      if i = .loadRA then (s.regs.a, s.cpu.m1Cycles) else s.cpu.counters := by
  have hunnamed := congrArg Registers.r (Extended.unnamed_exec s i opcode)
  have hcycles := congrArg Cpu.m1Cycles (Extended.outside_exec s i opcode)
  cases i <;> exact Prod.ext hunnamed hcycles

end Instructions

/-! ## Steps -/

namespace Opcode

theorem decode_bitPage_iff : ∀ op, decode op = .bitPage ↔ op = 0xCB := by decide +kernel

theorem decode_extendedPage_iff : ∀ op, decode op = .extendedPage ↔ op = 0xED := by decide +kernel

end Opcode

theorem Extended.decode_loadRA_iff : ∀ op, decode op = .loadRA ↔ op = 0x4F := by decide +kernel

namespace System

variable {β : Type} [Bus β] (s : System β)

/-- The bytes are an instruction behind a prefix, on any of the pages. -/
def AtPrefixed : Prop :=
  s.firstByte.1 = 0xCB ∨ s.firstByte.1 = 0xED ∨
    IsIndexPrefix s.firstByte.1 ∧ ¬ CancelsPrefix s.nextByte.1

/-- The bytes are `LD R,A`. -/
def AtLoadRefresh : Prop := s.firstByte.1 = 0xED ∧ s.nextByte.1 = 0x4F

instance : Decidable s.AtPrefixed := inferInstanceAs (Decidable (_ ∨ _))

instance : Decidable s.AtLoadRefresh := inferInstanceAs (Decidable (_ ∧ _))

theorem counters_operandAddress (x : Index) :
    (s.operandAddress x).2.cpu.counters = s.cpu.counters := by
  cases x <;> rfl

theorem counters_indexed (x : Index) :
    (s.indexed x).2.cpu.counters =
      if CancelsPrefix (s.read s.regs.pc).1 then s.cpu.counters
      else fetchedOnce s.cpu.counters := by
  have hcancels := Opcode.cancelsIndex_decode_iff (s.read s.regs.pc).1
  simp only [indexed, hcancels]
  split
  · rfl
  · split
    · exact Instr.counters_exec ..
    · exact (MemoryInstr.counters_exec ..).trans (counters_operandAddress ..)
    · exact (BitInstr.counters_execIndexed ..).trans (counters_operandAddress ..)
    · rfl

theorem counters_extendedPage :
    s.extendedPage.2.cpu.counters =
      if s.fetchOpcode.1 = 0x4F then (s.regs.a, s.cpu.m1Cycles + 1)
      else fetchedOnce s.cpu.counters := by
  have hload := Extended.decode_loadRA_iff s.fetchOpcode.1
  simp only [extendedPage, Extended.counters_exec, hload]
  rfl

theorem counters_instruction :
    s.instruction.2.cpu.counters =
      if s.AtLoadRefresh then (s.regs.a, s.cpu.m1Cycles + 2)
      else if s.AtPrefixed then fetchedOnce (fetchedOnce s.cpu.counters)
      else fetchedOnce s.cpu.counters := by
  have hbit := Opcode.decode_bitPage_iff s.firstByte.1
  have hextended := Opcode.decode_extendedPage_iff s.firstByte.1
  have hindex := Opcode.decode_indexPage_iff s.firstByte.1
  have hop : s.fetchOpcode.1 = s.firstByte.1 := rfl
  simp only [instruction, hop, AtLoadRefresh, AtPrefixed]
  -- the page of the first byte settles all the conditions but for the byte behind it
  cases hi : Opcode.decode s.firstByte.1 with
  | plain i =>
    simp only [hi, reduceCtorEq, exists_false, false_iff] at hbit hextended hindex
    simp only [hbit, hextended, hindex, false_and, or_self, if_false]
    exact Instr.counters_exec ..
  | memory m =>
    simp only [hi, reduceCtorEq, exists_false, false_iff] at hbit hextended hindex
    simp only [hbit, hextended, hindex, false_and, or_self, if_false]
    exact MemoryInstr.counters_exec ..
  | bitPage =>
    simp only [hi, reduceCtorEq, false_iff, true_iff] at hbit hextended
    simp only [hbit, true_or, if_true]
    exact BitInstr.counters_exec ..
  | extendedPage =>
    simp only [hi, true_iff] at hextended
    simp only [hextended, true_and, true_or, or_true, if_true, counters_extendedPage]
    rfl
  | indexPage x =>
    have hpage := hindex.mp ⟨x, hi⟩
    simp only [hi, reduceCtorEq, false_iff] at hbit hextended
    simp only [hbit, hextended, hpage, false_and, true_and, false_or, if_false, counters_indexed]
    by_cases hnext : CancelsPrefix s.nextByte.1
    · have hread : CancelsPrefix (s.fetchOpcode.2.read s.fetchOpcode.2.regs.pc).1 := hnext
      simp only [hread, hnext, if_true, not_true, if_false]
      rfl
    · have hread : ¬ CancelsPrefix (s.fetchOpcode.2.read s.fetchOpcode.2.regs.pc).1 := hnext
      simp only [hread, hnext, if_false, not_false_iff, if_true]
      rfl

theorem counters_enterHandler (data : UInt8) :
    (s.enterHandler data).2.cpu.counters = s.cpu.counters := by
  simp only [enterHandler]
  split
  · rfl
  · split <;> rfl

/-- After a step the counters tell how many fetches it made. -/
theorem counters_step :
    s.step.2.cpu.counters =
      if s.Fetches ∧ s.AtLoadRefresh then (s.regs.a, s.cpu.m1Cycles + 2)
      else if s.Fetches ∧ s.AtPrefixed then fetchedOnce (fetchedOnce s.cpu.counters)
      else fetchedOnce s.cpu.counters := by
  by_cases hfetches : s.Fetches
  · rw [step_of_fetches s hfetches]
    simp only [hfetches, true_and]
    exact s.beginStep.counters_instruction
  · simp only [hfetches, false_and, if_false]
    rw [step_eq]
    show (s.beginStep.act s.cpu.acceptance).2.cpu.counters = _
    cases hacc : s.cpu.acceptance with
    | nonMaskable => rfl
    | maskable =>
      simp only [act, acceptMaskable_eq, counters_enterHandler]
      rfl
    | none =>
      have hhalted : s.beginStep.regs.halted = true := by
        by_contra h
        exact hfetches ⟨hacc, Bool.eq_false_of_not_eq_true h⟩
      simp only [act, hhalted, if_true]
      rfl

/-- The next step executes an instruction behind a prefix. -/
def ExecutesPrefixed : Prop :=
  (¬ s.AcceptsMaskable ∧ ¬ s.AcceptsNonMaskable ∧ s.regs.halted = false) ∧ s.AtPrefixed

/-- The next step executes `LD R,A`. -/
def ExecutesLoadRefresh : Prop :=
  (¬ s.AcceptsMaskable ∧ ¬ s.AcceptsNonMaskable ∧ s.regs.halted = false) ∧ s.AtLoadRefresh

variable {s}

theorem m1Cycles_step (h : s.ExecutesPrefixed) :
    s.step.2.cpu.m1Cycles = s.cpu.m1Cycles + 2 := by
  have hcounters := congrArg Prod.snd s.counters_step
  rw [ExecutesPrefixed, ← fetches_iff] at h
  rw [if_pos h] at hcounters
  split at hcounters <;> exact hcounters

theorem m1Cycles_step_of_not (h : ¬ s.ExecutesPrefixed) :
    s.step.2.cpu.m1Cycles = s.cpu.m1Cycles + 1 := by
  have hcounters := congrArg Prod.snd s.counters_step
  rw [ExecutesPrefixed, ← fetches_iff] at h
  have hload : ¬ (s.Fetches ∧ s.AtLoadRefresh) := fun hl => h ⟨hl.1, .inr (.inl hl.2.1)⟩
  rw [if_neg hload, if_neg h] at hcounters
  exact hcounters

end System

/-! ## Runs -/

/-- Between two states the refresh register has counted the fetches, in its low seven bits. -/
structure Cpu.Refreshed (c c' : Cpu) : Prop where
  le : c.m1Cycles ≤ c'.m1Cycles
  high : c'.regs.r &&& 0x80 = c.regs.r &&& 0x80
  low : c'.regs.r.toNat % 0x80 = (c.regs.r.toNat + (c'.m1Cycles - c.m1Cycles)) % 0x80

namespace Cpu.Refreshed

variable {c c' c'' : Cpu}

theorem of_counters_eq (h : c'.counters = c.counters) : c.Refreshed c' := by
  have hr : c'.regs.r = c.regs.r := congrArg Prod.fst h
  have hcycles : c'.m1Cycles = c.m1Cycles := congrArg Prod.snd h
  refine ⟨hcycles.ge, by rw [hr], ?_⟩
  rw [hr, hcycles, Nat.sub_self, Nat.add_zero]

theorem of_fetchedOnce (h : c'.counters = fetchedOnce c.counters) : c.Refreshed c' := by
  have hhigh : ∀ r : UInt8, ((r &&& 0x80) ||| ((r + 1) &&& 0x7F)) &&& 0x80 = r &&& 0x80 := by
    decide +kernel
  have hlow : ∀ r : UInt8,
      ((r &&& 0x80) ||| ((r + 1) &&& 0x7F)).toNat % 0x80 = (r.toNat + 1) % 0x80 := by
    decide +kernel
  have hr : c'.regs.r = (c.regs.r &&& 0x80) ||| ((c.regs.r + 1) &&& 0x7F) := congrArg Prod.fst h
  have hcycles : c'.m1Cycles = c.m1Cycles + 1 := congrArg Prod.snd h
  refine ⟨by omega, by rw [hr, hhigh], ?_⟩
  rw [hr, hlow, hcycles, Nat.add_sub_cancel_left]

theorem trans (h : c.Refreshed c') (h' : c'.Refreshed c'') : c.Refreshed c'' := by
  have hle := h.le
  have hle' := h'.le
  have hlow := h.low
  have hlow' := h'.low
  exact ⟨hle.trans hle', h'.high.trans h.high, by omega⟩

end Cpu.Refreshed

section Runs

variable {β : Type} [Bus β] {s : System β}

-- An instruction behind a prefix is two fetches, one after the other.
theorem System.refreshed_step (h : ¬ s.ExecutesLoadRefresh) : s.cpu.Refreshed s.step.2.cpu := by
  have hcounters := s.counters_step
  rw [ExecutesLoadRefresh, ← fetches_iff] at h
  rw [if_neg h] at hcounters
  split at hcounters
  · have hmiddle : s.cpu.countFetch.counters = fetchedOnce s.cpu.counters := rfl
    rw [← hmiddle] at hcounters
    exact (Cpu.Refreshed.of_fetchedOnce hmiddle).trans (.of_fetchedOnce hcounters)
  · exact .of_fetchedOnce hcounters

theorem refreshed_apply {c : CpuCall} (hreset : c ≠ .reset)
    (hload : c = .step → ¬ s.ExecutesLoadRefresh) : s.cpu.Refreshed (c.apply s).cpu := by
  cases c with
  | step => exact System.refreshed_step (hload rfl)
  | reset => exact absurd rfl hreset
  | interrupt | nmi | clearInterrupt => exact .of_counters_eq rfl

/-- In a run of any steps and requests each step fetches twice if it executes an instruction behind
a prefix, and once if it executes another one, idles, ends at a cut prefix or accepts a request. If
the run does not execute `LD R,A`, the refresh register counts these fetches modulo 128 and keeps
its highest bit. -/
theorem refreshed_afterCalls (s : System β) {calls : List CpuCall} (hreset : .reset ∉ calls) :
    (∀ v ∈ visits calls s, v.1 = .step →
      (v.2.ExecutesPrefixed → v.2.step.2.cpu.m1Cycles = v.2.cpu.m1Cycles + 2) ∧
      (¬ v.2.ExecutesPrefixed → v.2.step.2.cpu.m1Cycles = v.2.cpu.m1Cycles + 1)) ∧
    ((∀ v ∈ visits calls s, v.1 = .step → ¬ v.2.ExecutesLoadRefresh) →
      s.cpu.Refreshed (afterCalls calls s).cpu) := by
  refine ⟨fun v _ _ => ⟨System.m1Cycles_step, System.m1Cycles_step_of_not⟩, fun hload => ?_⟩
  induction calls using List.reverseRecOn with
  | nil => exact .of_counters_eq rfl
  | append_singleton calls c ih =>
    simp only [visits_concat, List.mem_append, List.mem_singleton] at hload hreset
    rw [not_or] at hreset
    rw [afterCalls_concat]
    have hbefore := ih hreset.1 fun v hv => hload v (.inl hv)
    exact hbefore.trans (refreshed_apply (Ne.symm hreset.2) (hload _ (.inr rfl)))

end Runs

/-- Memory that holds the program `SET 1,E` throughout. -/
@[reducible] def settingBits : Bus Unit where
  read _ b := (0xCB, b)
  write _ _ b := b
  input _ b := (0xFF, b)
  output _ _ b := b
  acknowledge b := (0xFF, b)

-- Two instructions with a non-maskable request between them: five fetches, which wrap the counter.
theorem refreshed_afterCalls_wrapped :
    let _ : Bus Unit := settingBits
    let s : System Unit := { cpu := { regs := { r := 0xFE } }, bus := () }
    let calls := [CpuCall.step, .nmi, .step, .step]
    .reset ∉ calls ∧ (∀ v ∈ visits calls s, v.1 = .step → ¬ v.2.ExecutesLoadRefresh) ∧
      s.cpu.Refreshed (afterCalls calls s).cpu ∧ (afterCalls calls s).cpu.m1Cycles = 5 ∧
      (afterCalls calls s).regs.r = 0x83 := by
  intro _ s calls
  have hload : ∀ v ∈ visits calls s, v.1 = .step → ¬ v.2.ExecutesLoadRefresh := by
    rintro v - - ⟨-, hfirst, -⟩
    cases hfirst
  exact ⟨by decide, hload, (refreshed_afterCalls s (by decide)).2 hload, by decide, by decide⟩

end AmstradCpc.Z80
