import AmstradCpc.Proofs.Z80.BlockCopyRuns
import AmstradCpc.Proofs.Z80.Halting

/-!
# Passes of a block instruction

A repeating block instruction is one step after another: a pass that leaves something to do puts the
program counter back and costs 21 T-states, and the last one costs 16. What the four kinds of block
have in common is said here, on any bus where reads change nothing: the step as what the instruction
does behind its two bytes (`System.Repeating.step_eq`), and the way from one pass to all of them
(`System.steps_of_passes`).
-/

namespace AmstradCpc.Z80

/-! ## Counters -/

/-- How often a counter with `size` values is counted down until it is zero: a counter that starts
with zero goes through all of them. -/
def passCount (size count : ℕ) : ℕ := if count = 0 then size else count

theorem passCount_pos {size count : ℕ} (hsize : 0 < size) : 0 < passCount size count := by
  unfold passCount
  split <;> omega

theorem passCount_le {size count : ℕ} (hcount : count < size) : passCount size count ≤ size := by
  unfold passCount
  split <;> omega

theorem eq_mod_iff_eq_passCount {size count i : ℕ} (hcount : count < size) (hpos : 0 < i)
    (hi : i ≤ passCount size count) : count = i % size ↔ i = passCount size count := by
  unfold passCount at hi ⊢
  split at hi
  · next h =>
    rw [if_pos h, h]
    obtain rfl | hlt := Nat.eq_or_lt_of_le hi
    · simp
    · rw [Nat.mod_eq_of_lt hlt]
      omega
  · next h =>
    rw [if_neg h, Nat.mod_eq_of_lt (by omega)]
    exact eq_comm

-- A counter is zero after the last pass and no other.
theorem UInt16.sub_ofNat_eq_zero_iff (w : UInt16) {i : ℕ} (hpos : 0 < i)
    (hi : i ≤ passCount 0x10000 w.toNat) :
    w - .ofNat i = 0 ↔ i = passCount 0x10000 w.toNat := by
  rw [UInt16.sub_eq_iff_eq_add, UInt16.zero_add, ← UInt16.toNat_inj, UInt16.toNat_ofNat']
  exact eq_mod_iff_eq_passCount w.toNat_lt hpos hi

theorem UInt8.sub_ofNat_eq_zero_iff (b : UInt8) {i : ℕ} (hpos : 0 < i)
    (hi : i ≤ passCount 0x100 b.toNat) :
    b - .ofNat i = 0 ↔ i = passCount 0x100 b.toNat := by
  rw [UInt8.sub_eq_iff_eq_add, UInt8.zero_add, ← UInt8.toNat_inj, UInt8.toNat_ofNat']
  exact eq_mod_iff_eq_passCount b.toNat_lt hpos hi

theorem UInt16.sub_ofNat_eq (w : UInt16) {i : ℕ} (hi : i ≤ passCount 0x10000 w.toNat) :
    w - .ofNat i = .ofNat (passCount 0x10000 w.toNat - i) := by
  have hw : UInt16.ofNat (passCount 0x10000 w.toNat) = w := by
    unfold passCount
    split
    · next h => exact (UInt16.toNat_inj.mp h).symm
    · exact UInt16.ofNat_toNat
  rw [UInt16.ofNat_sub hi, hw]

-- One pass more.
theorem UInt16.sub_ofNat_sub_one (w : UInt16) (i : ℕ) : w - .ofNat i - 1 = w - .ofNat (i + 1) := by
  have hone : UInt16.ofNat (i + 1) = .ofNat i + 1 := UInt16.ofNat_add i 1
  rw [hone]
  grind

theorem UInt8.sub_ofNat_sub_one (b : UInt8) (i : ℕ) : b - .ofNat i - 1 = b - .ofNat (i + 1) := by
  have hone : UInt8.ofNat (i + 1) = .ofNat i + 1 := UInt8.ofNat_add i 1
  rw [hone]
  grind

theorem Direction.step_moved (d : Direction) (i : ℕ) (a : UInt16) :
    d.step (d.moved i a) = d.moved (i + 1) a := by
  cases d with
  | up =>
    have hone : UInt16.ofNat (i + 1) = .ofNat i + 1 := UInt16.ofNat_add i 1
    show a + .ofNat i + 1 = a + .ofNat (i + 1)
    rw [hone, UInt16.add_assoc]
  | down => exact UInt16.sub_ofNat_sub_one a i

/-! ## Registers -/

-- Behind both bytes of the instruction, and back on the first.
theorem Registers.pc_fetched_fetched (r : Registers) : r.fetched.fetched.pc = r.pc + 2 :=
  UInt16.add_assoc r.pc 1 1

theorem Registers.pc_rewound (r : Registers) : r.fetched.fetched.pc - 2 = r.pc := by
  rw [pc_fetched_fetched]
  exact UInt16.add_sub_cancel r.pc 2

/-! ## Bytes -/

/-- The second byte of the instruction that does `op` with a block, in a direction. -/
def BlockOp.repeated (d : Direction) (op : BlockOp) : UInt8 :=
  match d, op with
  | .up, .load => 0xB0
  | .up, .compare => 0xB1
  | .up, .input => 0xB2
  | .up, .output => 0xB3
  | .down, .load => 0xB8
  | .down, .compare => 0xB9
  | .down, .input => 0xBA
  | .down, .output => 0xBB

theorem Extended.decode_repeated (d : Direction) (op : BlockOp) :
    decode (op.repeated d) = .block op d true := by
  cases d <;> cases op <;> rfl

namespace System

/-! ## One pass -/

section Plain

variable {β : Type}

/-- No request is latched, and the CPU is not halted. -/
structure Undisturbed (s : System β) : Prop where
  intPending : s.cpu.intPending = false
  nmiPending : s.cpu.nmiPending = false
  running : s.regs.halted = false

theorem Undisturbed.fetches {s : System β} (h : s.Undisturbed) : s.Fetches := by
  refine ⟨?_, h.running⟩
  unfold Cpu.acceptance
  rw [h.intPending, h.nmiPending]
  simp

end Plain

section Passes

variable {β : Type} [Bus β] {op : BlockOp} {d : Direction} {s : System β}

/-- A block instruction that repeats itself is about to run. -/
structure Repeating (op : BlockOp) (d : Direction) (s : System β) : Prop extends Undisturbed s where
  first : Bus.peek s.bus s.regs.pc = 0xED
  second : Bus.peek s.bus (s.regs.pc + 1) = op.repeated d

theorem Repeating.step_eq (hpure : Bus.PureReads β) (h : Repeating op d s) :
    let pass := (Extended.block op d true).exec (op.repeated d) s.atExtended
    s.step = (16 + pass.1, pass.2.charge (16 + pass.1)) := by
  have hdecode : Extended.decode (Bus.peek s.bus (s.regs.pc + 1)) = .block op d true := by
    rw [h.second, Extended.decode_repeated]
  have hstep := step_of_extended hpure h.fetches h.first hdecode
  rw [h.second] at hstep
  exact hstep

-- Nothing comes up during a pass either.
theorem Repeating.undisturbed_step (hpure : Bus.PureReads β) (h : Repeating op d s) :
    s.step.2.Undisturbed where
  intPending := by rw [intPending_step, h.intPending, Bool.false_and]
  nmiPending := by rw [nmiPending_step, h.nmiPending, Bool.false_and]
  running := by
    rw [h.step_eq hpure]
    exact (Extended.halted_exec _ _ _).trans h.running

/-! ## All passes -/

theorem steps_succ (i : ℕ) (s : System β) :
    steps (i + 1) s = ((steps i s).1 + (steps i s).2.step.1, (steps i s).2.step.2) := by
  induction i generalizing s with
  | zero =>
    show (s.step.1 + 0, s.step.2) = (0 + s.step.1, s.step.2)
    rw [Nat.add_comm]
  | succ i ih =>
    show (s.step.1 + (steps (i + 1) s.step.2).1, (steps (i + 1) s.step.2).2) = _
    rw [ih s.step.2]
    exact Prod.ext (Nat.add_assoc ..).symm rfl

-- What every pass but the last keeps, with one more pass counted, holds in front of each of them.
theorem steps_of_passes {P : ℕ → System β → Prop} {m : ℕ} (hstart : P 0 s)
    (hpass : ∀ i t, i + 1 < m → P i t → t.step.1 = 21 ∧ P (i + 1) t.step.2) :
    ∀ i < m, P i (steps i s).2 ∧ (steps i s).1 = 21 * i := by
  intro i
  induction i with
  | zero => exact fun _ => ⟨hstart, rfl⟩
  | succ i ih =>
    intro hi
    obtain ⟨hnow, hcost⟩ := ih (by omega)
    obtain ⟨hmore, hnext⟩ := hpass i _ hi hnow
    rw [steps_succ]
    refine ⟨hnext, ?_⟩
    show (steps i s).1 + (steps i s).2.step.1 = 21 * (i + 1)
    omega

end Passes

end System

end AmstradCpc.Z80
