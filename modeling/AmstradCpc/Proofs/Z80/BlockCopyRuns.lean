import AmstradCpc.Proofs.Z80.BlockCopy
import AmstradCpc.Proofs.Z80.Carries
import AmstradCpc.Proofs.Z80.Periods

/-!
# Block copies from the first pass to the last

An `LDIR` or `LDDR` that nothing disturbs makes one pass for each byte. What the passes come to is
said here without them: memory is that of as many single copies, one after another
(`FlatMemory.copied`), so a byte that has been copied can be copied again where source and
destination overlap; the pointers have moved on and the count is zero; and every pass but the last
costs five T-states more than the last (`System.steps_blockCopy`).
-/

namespace AmstradCpc.Z80

/-! ## Copied memory -/

/-- The address `n` steps away. -/
def Direction.moved (n : ℕ) (a : UInt16) : Direction → UInt16
  | .up => a + .ofNat n
  | .down => a - .ofNat n

theorem Direction.moved_zero (d : Direction) (a : UInt16) : d.moved 0 a = a := by
  cases d with
  | up => exact UInt16.add_zero a
  | down => exact UInt16.sub_zero a

theorem Direction.moved_succ (d : Direction) (n : ℕ) (a : UInt16) :
    d.moved (n + 1) a = d.moved n (d.step a) := by
  have hone : UInt16.ofNat (n + 1) = 1 + .ofNat n := by
    rw [UInt16.ofNat_add, UInt16.add_comm]
    rfl
  cases d with
  | up =>
    show a + .ofNat (n + 1) = a + 1 + .ofNat n
    rw [hone, UInt16.add_assoc]
  | down =>
    show a - .ofNat (n + 1) = a - 1 - .ofNat n
    rw [hone]
    grind

/-- Memory after `n` bytes have been copied one by one, from the addresses that begin at `source`
to those that begin at `target`. -/
def FlatMemory.copied (d : Direction) : ℕ → UInt16 → UInt16 → FlatMemory → FlatMemory
  | 0, _, _, m => m
  | n + 1, source, target, m =>
    copied d n (d.step source) (d.step target) (m.write target (m.read source))

/-! ## Flags -/

-- The flags that a copy keeps, and those that are clear after its last pass.
def keptFlags : List UInt8 := [Flag.sign, Flag.zero, Flag.carry]

def clearedFlags : List UInt8 := [Flag.half, Flag.subtract, Flag.parity]

section Flags

variable (d : Direction) (v : UInt8) (r : Registers) {m : UInt8}

theorem Registers.f_fetched : r.fetched.f = r.f := rfl

theorem Registers.f_afterLoad :
    (r.afterLoad d v).f =
      (r.f &&& (Flag.sign ||| Flag.zero ||| Flag.carry)) ||| Extended.blockXY (v + r.a) |||
        flagIf (r.bc - 1 != 0) Flag.parity := by
  unfold afterLoad
  dsimp only
  split <;> rfl

theorem hasFlag_blockXY (n : UInt8) (hx : Flag.x &&& m = 0) (hy : Flag.y &&& m = 0) :
    hasFlag (Extended.blockXY n) m = false := by
  unfold Extended.blockXY
  rw [hasFlag_or, hasFlag_mask_apart _ hx, hasFlag_mask_apart _ hy]
  rfl

theorem Registers.hasFlag_afterLoad (hx : Flag.x &&& m = 0) (hy : Flag.y &&& m = 0) :
    hasFlag (r.afterLoad d v).f m =
      (hasFlag (r.f &&& (Flag.sign ||| Flag.zero ||| Flag.carry)) m ||
        (r.bc - 1 != 0 && hasFlag Flag.parity m)) := by
  rw [f_afterLoad, hasFlag_or, hasFlag_or, hasFlag_blockXY _ hx hy, hasFlag_flagIf, Bool.or_false]

theorem Registers.hasFlag_kept (hm : m ∈ keptFlags) :
    hasFlag (r.afterLoad d v).f m = hasFlag r.f m := by
  have hall : ∀ m ∈ keptFlags, Flag.x &&& m = 0 ∧ Flag.y &&& m = 0 ∧ Flag.parity &&& m = 0 ∧
      (Flag.sign ||| Flag.zero ||| Flag.carry) &&& m = m := by decide +kernel
  obtain ⟨hx, hy, hparity, hown⟩ := hall m hm
  rw [hasFlag_afterLoad d v r hx hy, hasFlag_apart hparity, Bool.and_false, Bool.or_false,
    hasFlag_mask_within _ hown]

theorem Registers.hasFlag_cleared (hm : m ∈ clearedFlags) (hlast : r.bc - 1 = 0) :
    hasFlag (r.afterLoad d v).f m = false := by
  have hall : ∀ m ∈ clearedFlags, Flag.x &&& m = 0 ∧ Flag.y &&& m = 0 ∧
      (Flag.sign ||| Flag.zero ||| Flag.carry) &&& m = 0 := by decide +kernel
  obtain ⟨hx, hy, happart⟩ := hall m hm
  rw [hasFlag_afterLoad d v r hx hy, hasFlag_mask_apart _ happart, hlast]
  rfl

end Flags

namespace System

/-! ## One pass -/

/-- An `LDIR` or `LDDR` is about to run. No request is latched, and it does not copy over itself. -/
structure PlainCopy (d : Direction) (s : System FlatBus) : Prop where
  intPending : s.cpu.intPending = false
  nmiPending : s.cpu.nmiPending = false
  running : s.regs.halted = false
  first : Bus.peek s.bus s.regs.pc = 0xED
  second : Bus.peek s.bus (s.regs.pc + 1) = d.repeatedLoad
  destination : ∀ i < s.copyLength,
    d.moved i s.regs.de ≠ s.regs.pc ∧ d.moved i s.regs.de ≠ s.regs.pc + 1

variable {d : Direction} {s t : System FlatBus}

theorem fst_blockLoad (d : Direction) (s : System FlatBus) :
    (Extended.blockLoad d true s).1 = if s.regs.bc - 1 = 0 then 0 else jumpPenalty := by
  have hbc (v : UInt8) : ((s.write s.regs.de v).mapRegs (Extended.loadRegisters d v)).regs.bc =
      s.regs.bc - 1 := Registers.bc_loadRegisters d v s.regs
  simp only [Extended.blockLoad, read_of_pure FlatBus.pureReads, hbc, Bool.true_and, bne_iff_ne,
    ne_eq]
  by_cases hlast : s.regs.bc - 1 = 0
  · rw [if_neg (not_not_intro hlast), if_pos hlast]
  · rw [if_pos hlast, if_neg hlast]

theorem cost_repeatedLoad (h : s.Fetches) (hfirst : Bus.peek s.bus s.regs.pc = 0xED)
    (hsecond : Bus.peek s.bus (s.regs.pc + 1) = d.repeatedLoad) :
    s.step.1 = if s.regs.bc - 1 = 0 then 16 else 21 := by
  have hload : Extended.decode (Bus.peek s.bus (s.regs.pc + 1)) = .block .load d true := by
    rw [hsecond, Extended.decode_repeatedLoad]
  have hcost : (Extended.blockLoad d true s.atExtended).1 =
      if s.regs.bc - 1 = 0 then 0 else jumpPenalty := fst_blockLoad d _
  rw [step_of_extended FlatBus.pureReads h hfirst hload]
  dsimp only [Extended.exec]
  rw [hcost]
  split <;> rfl

theorem PlainCopy.fetches (h : PlainCopy d s) : s.Fetches := by
  apply fetches_of_not_maskable _ h.nmiPending h.running
  intro hmaskable
  have hpending := ((acceptance_maskable_iff _).mp hmaskable).1
  rw [h.intPending] at hpending
  cases hpending

theorem PlainCopy.passed (h : PlainCopy d s) : s.Passed d s.step.2 := by
  obtain ⟨hregs, hbus⟩ := step_repeatedLoad h.fetches h.first h.second
  refine ⟨hregs, hbus, ?_⟩
  rw [nmiPending_step, h.nmiPending]
  rfl

theorem PlainCopy.avoids (h : PlainCopy d s) :
    s.regs.de ≠ s.regs.pc ∧ s.regs.de ≠ s.regs.pc + 1 := by
  have hfirst := h.destination 0 copyLength_pos
  rwa [d.moved_zero] at hfirst

-- Another pass finds the same two bytes in front of it, and one address fewer to copy to.
theorem PlainCopy.step (h : PlainCopy d s) (hmore : s.step.2.regs.bc ≠ 0) :
    PlainCopy d s.step.2 := by
  have hpass := h.passed
  have hpc : s.step.2.regs.pc = s.regs.pc := by rw [hpass.pc, if_neg hmore]
  have hlength := copyLength_eq hpass.bc hmore
  have hcontrol := hpass.control
  simp only [Registers.control, Prod.mk.injEq] at hcontrol
  exact
    { intPending := by rw [intPending_step, h.intPending, Bool.false_and]
      nmiPending := hpass.nonMaskable.trans h.nmiPending
      running := hcontrol.2.1.trans h.running
      first := by rw [hpc, hpass.peek h.avoids.1, h.first]
      second := by rw [hpc, hpass.peek h.avoids.2, h.second]
      destination := fun i hi => by
        rw [hpc, hpass.de, ← d.moved_succ]
        exact h.destination (i + 1) (by omega) }

/-! ## The run -/

/-- What a copy of `n` bytes has made of `s`. -/
structure Copied (d : Direction) (n : ℕ) (s t : System FlatBus) : Prop where
  pc : t.regs.pc = s.regs.pc + 2
  memory : t.bus.memory = s.bus.memory.copied d n s.regs.hl s.regs.de
  hl : t.regs.hl = d.moved n s.regs.hl
  de : t.regs.de = d.moved n s.regs.de
  bc : t.regs.bc = 0
  kept : ∀ m ∈ keptFlags, hasFlag t.regs.f m = hasFlag s.regs.f m
  cleared : ∀ m ∈ clearedFlags, hasFlag t.regs.f m = false

theorem read_memory (s : System FlatBus) (a : UInt16) :
    s.bus.memory.read a = Bus.peek s.bus a := rfl

theorem Passed.memory (h : s.Passed d t) :
    t.bus.memory = s.bus.memory.write s.regs.de (s.bus.memory.read s.regs.hl) := by
  rw [h.bus]
  rfl

theorem Passed.kept (h : s.Passed d t) {m : UInt8} (hm : m ∈ keptFlags) :
    hasFlag t.regs.f m = hasFlag s.regs.f m := by
  rw [h.regs, Registers.hasFlag_kept _ _ _ hm, Registers.f_fetched, Registers.f_fetched]

theorem Passed.copied_last (h : s.Passed d t) (hlast : t.regs.bc = 0) : Copied d 1 s t where
  pc := by rw [h.pc, if_pos hlast]
  memory := h.memory
  hl := by rw [h.hl, d.moved_succ, d.moved_zero]
  de := by rw [h.de, d.moved_succ, d.moved_zero]
  bc := hlast
  kept m hm := h.kept hm
  cleared m hm := by
    have hcount : s.regs.fetched.fetched.bc - 1 = 0 := by
      rw [Registers.bc_fetched, Registers.bc_fetched, ← h.bc, hlast]
    rw [h.regs, Registers.hasFlag_cleared _ _ _ hm hcount]

theorem Passed.copied_more {t' : System FlatBus} {n : ℕ} (h : s.Passed d t) (hmore : t.regs.bc ≠ 0)
    (hrest : Copied d n t t') : Copied d (n + 1) s t' where
  pc := by rw [hrest.pc, h.pc, if_neg hmore]
  memory := by
    rw [hrest.memory, h.memory, h.hl, h.de]
    rfl
  hl := by rw [hrest.hl, h.hl, d.moved_succ]
  de := by rw [hrest.de, h.de, d.moved_succ]
  bc := hrest.bc
  kept m hm := (hrest.kept m hm).trans (h.kept hm)
  cleared := hrest.cleared

-- By induction on the bytes to copy, each pass one step.
theorem PlainCopy.steps {n : ℕ} (h : PlainCopy d s) (hn : s.copyLength = n + 1) :
    (∀ i ≤ n, (System.steps i s).2.regs.pc = s.regs.pc) ∧
      Copied d (n + 1) s (System.steps (n + 1) s).2 ∧ (System.steps (n + 1) s).1 = 21 * n + 16 := by
  induction n generalizing s with
  | zero =>
    have hlast : s.step.2.regs.bc = 0 := by
      by_contra hmore
      have hlength := copyLength_eq h.passed.bc hmore
      have hpos := s.step.2.copyLength_pos
      omega
    have hcost := cost_repeatedLoad h.fetches h.first h.second
    rw [if_pos (h.passed.bc.symm.trans hlast)] at hcost
    refine ⟨fun i hi => ?_, h.passed.copied_last hlast, hcost⟩
    rw [Nat.le_zero.mp hi]
    rfl
  | succ n ih =>
    have hmore : s.step.2.regs.bc ≠ 0 := fun hlast => by
      have hlength := copyLength_last h.passed.bc hlast
      omega
    have hlength := copyLength_eq h.passed.bc hmore
    obtain ⟨hpc, hcopied, hcost⟩ := ih (h.step hmore) (by omega)
    have hfirst := cost_repeatedLoad h.fetches h.first h.second
    rw [← h.passed.bc, if_neg hmore] at hfirst
    have hback : s.step.2.regs.pc = s.regs.pc := by rw [h.passed.pc, if_neg hmore]
    refine ⟨fun i hi => ?_, h.passed.copied_more hmore hcopied, ?_⟩
    · cases i with
      | zero => rfl
      | succ i => exact (hpc i (Nat.le_of_succ_le_succ hi)).trans hback
    · show s.step.1 + (System.steps (n + 1) s.step.2).1 = 21 * (n + 1) + 16
      rw [hfirst, hcost]
      omega

/-- `LDIR` and `LDDR` take a step for each byte and leave the instruction with the last. Memory is
then that of as many single copies, and the registers are those at the end of the copy. -/
theorem steps_blockCopy (h : PlainCopy d s) :
    (∀ i < s.copyLength, (System.steps i s).2.regs.pc = s.regs.pc) ∧
      Copied d s.copyLength s (System.steps s.copyLength s).2 ∧
      (System.steps s.copyLength s).1 = 21 * (s.copyLength - 1) + 16 := by
  obtain ⟨n, hn⟩ := Nat.exists_eq_add_one_of_ne_zero (Nat.ne_of_gt s.copyLength_pos)
  obtain ⟨hpc, hcopied, hcost⟩ := h.steps hn
  rw [hn]
  exact ⟨fun i hi => hpc i (Nat.le_of_lt_succ hi), hcopied, hcost⟩

/-- An `LDIR` of three bytes, from `0x5000` to the next address. -/
def spreading : System FlatBus where
  cpu := { regs := { pc := 0x4000, c := 3, d := 0x50, e := 1, h := 0x50, f := 0xFF } }
  bus := { memory :=
    ((FlatMemory.zeros.write 0x4000 0xED).write 0x4001 0xB0).write 0x5000 7 }

theorem peek_spreading (a : UInt16) : Bus.peek spreading.bus a =
    if 0x5000 = a then 7 else if 0x4001 = a then 0xB0 else if 0x4000 = a then 0xED else 0 := by
  show (((FlatMemory.zeros.write 0x4000 0xED).write 0x4001 0xB0).write 0x5000 7).read a = _
  simp only [FlatMemory.read_write, FlatMemory.read_zeros]

-- Each copied byte is the next one to copy.
theorem steps_blockCopy_spreading :
    PlainCopy .up spreading ∧ (System.steps 3 spreading).1 = 58 ∧
      (System.steps 3 spreading).2.regs.pc = 0x4002 ∧
      Bus.peek (System.steps 3 spreading).2.bus 0x5003 = 7 := by
  have hlength : spreading.copyLength = 3 := by decide
  have hpc : spreading.regs.pc = 0x4000 := rfl
  have hde : spreading.regs.de = 0x5001 := by decide
  have hhl : spreading.regs.hl = 0x5000 := by decide
  have hcopy : PlainCopy .up spreading :=
    { intPending := rfl
      nmiPending := rfl
      running := rfl
      first := by rw [hpc, peek_spreading]; rfl
      second := by rw [hpc, peek_spreading]; rfl
      destination := by
        rw [hlength, hde, hpc]
        decide }
  obtain ⟨-, hcopied, hcost⟩ := steps_blockCopy hcopy
  rw [hlength] at hcopied hcost
  have hspread (m : FlatMemory) : (m.copied .up 3 0x5000 0x5001).read 0x5003 = m.read 0x5000 := by
    simp [FlatMemory.copied, FlatMemory.read_write, Direction.step]
  have hbyte : Bus.peek (System.steps 3 spreading).2.bus 0x5003 = 7 := by
    rw [← read_memory, hcopied.memory, hhl, hde, hspread, read_memory, peek_spreading]
    rfl
  exact ⟨hcopy, hcost, hcopied.pc.trans (by rw [hpc]; rfl), hbyte⟩

end System

end AmstradCpc.Z80
