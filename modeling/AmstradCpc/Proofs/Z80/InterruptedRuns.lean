import AmstradCpc.Proofs.Z80.Acceptance
import AmstradCpc.Proofs.Z80.PureSteps
import Mathlib.Algebra.BigOperators.Group.Finset.Piecewise

/-!
# Runs under interrupts

A run on the flat bus in which requests are made at given boundaries between its steps. When the
handler is `EI` and `RET`, serving a request takes three steps, and what they leave behind is a
refresh counter further on, another address in the latch, and a return address in the two bytes
below the stack pointer (`System.agrees_of_service`). Each service uses up a request
(`System.outstanding_succ`), so a run with finitely many of them gets on.
-/

namespace AmstradCpc.Z80

/-! ## Registers -/

namespace Registers

/-- The registers are the same but for the refresh counter and the address latch. -/
def Same (r r' : Registers) : Prop := r = { r' with wz := r.wz, r := r.r }

variable {r r' : Registers}

theorem Same.fetched (h : r.Same r') : r.fetched.Same r'.fetched := by
  unfold Same at h ⊢
  rw [h]
  rfl

theorem Same.trans {r'' : Registers} (h : r.Same r') (h' : r'.Same r'') : r.Same r'' := by
  unfold Same at h h' ⊢
  rw [h, h']

-- The three steps of a service leave no more behind than the refresh counter and the address latch.
theorem same_returned (hiff1 : r.iff1 = true) (hiff2 : r.iff2 = true) (hhalted : r.halted = false) :
    (r.atHandler.enabled.returned r.pc).Same r := by
  obtain ⟨⟩ := r
  simp only at hiff1 hiff2 hhalted
  subst hiff1 hiff2 hhalted
  simp [Same, atHandler, enabled, returned, Registers.fetched, acknowledged, refresh]

end Registers

namespace System

/-! ## Runs under interrupts -/

section Runs

variable (requests : Finset ℕ) (s : System FlatBus)

/-- Requests an interrupt at the boundary in front of step `k` if it is one of `requests`. -/
def raised (k : ℕ) (s : System FlatBus) : System FlatBus :=
  if k ∈ requests then { s with cpu := s.cpu.interrupt } else s

/-- The state after `k` steps. -/
def interruptedRun (s : System FlatBus) : ℕ → System FlatBus
  | 0 => s
  | k + 1 => (raised requests k (interruptedRun s k)).step.2

/-- The state in which step `k` starts. -/
def boundary (k : ℕ) : System FlatBus := raised requests k (interruptedRun requests s k)

/-- Step `k` executes the instruction that the run has started with. -/
def RepeatsAt (k : ℕ) : Prop :=
  (boundary requests s k).Fetches ∧ (boundary requests s k).regs.pc = s.regs.pc

/-- Step `k` is the last pass of a block instruction: it leaves the program counter behind the
instruction, and the passes before it have left it there. -/
structure FinishesAt (k : ℕ) : Prop where
  pass : RepeatsAt requests s k
  leaves : (interruptedRun requests s (k + 1)).regs.pc = s.regs.pc + 2
  repeats : ∀ j < k, RepeatsAt requests s j →
    (interruptedRun requests s (j + 1)).regs.pc = s.regs.pc

variable {requests s} {k : ℕ}

@[simp] theorem regs_raised : (raised requests k s).regs = s.regs := by
  unfold raised
  split <;> rfl

@[simp] theorem bus_raised : (raised requests k s).bus = s.bus := by
  unfold raised
  split <;> rfl

@[simp] theorem nmiPending_raised :
    (raised requests k s).cpu.nmiPending = s.cpu.nmiPending := by
  unfold raised
  split <;> rfl

@[simp] theorem eiDelay_raised : (raised requests k s).cpu.eiDelay = s.cpu.eiDelay := by
  unfold raised
  split <;> rfl

@[simp] theorem inPrefix_raised : (raised requests k s).cpu.inPrefix = s.cpu.inPrefix := by
  unfold raised
  split <;> rfl

theorem intPending_raised :
    (raised requests k s).cpu.intPending = (s.cpu.intPending || decide (k ∈ requests)) := by
  unfold raised
  split
  · next h => simp [h, Cpu.interrupt]
  · next h => simp [h]

theorem boundary_regs : (boundary requests s k).regs = (interruptedRun requests s k).regs :=
  regs_raised

theorem boundary_bus : (boundary requests s k).bus = (interruptedRun requests s k).bus :=
  bus_raised

/-- The requests still to come from boundary `k` on, and the one that is latched. -/
def outstanding (requests : Finset ℕ) (s : System FlatBus) (k : ℕ) : ℕ :=
  (requests.filter (k ≤ ·)).card + (interruptedRun requests s k).cpu.intPending.toNat

theorem card_filter_le (requests : Finset ℕ) (k : ℕ) :
    (requests.filter (k ≤ ·)).card =
      (requests.filter (k + 1 ≤ ·)).card + (decide (k ∈ requests)).toNat := by
  have hk : (decide (k ∈ requests)).toNat = ∑ i ∈ requests, if i = k then 1 else 0 := by
    rw [Finset.sum_ite_eq']
    split <;> simp [*]
  rw [hk, Finset.card_filter, Finset.card_filter, ← Finset.sum_add_distrib]
  refine Finset.sum_congr rfl fun i _ => ?_
  split_ifs <;> omega

-- A step serves one of them or none.
theorem outstanding_succ (requests : Finset ℕ) (s : System FlatBus) (k : ℕ) :
    outstanding requests s (k + 1) +
        (if (boundary requests s k).cpu.acceptance = .maskable then 1 else 0) ≤
      outstanding requests s k := by
  have hpending : (interruptedRun requests s (k + 1)).cpu.intPending = _ :=
    intPending_step (boundary requests s k)
  have hraised : (boundary requests s k).cpu.intPending = _ := intPending_raised
  have hlatch : ((interruptedRun requests s k).cpu.intPending || decide (k ∈ requests)).toNat ≤
      (interruptedRun requests s k).cpu.intPending.toNat + (decide (k ∈ requests)).toNat := by
    cases (interruptedRun requests s k).cpu.intPending <;> cases decide (k ∈ requests) <;> decide
  rw [outstanding, outstanding, card_filter_le requests k, hpending]
  split
  · next hacc =>
    have hlatched := ((acceptance_maskable_iff _).mp hacc).1
    rw [hraised] at hlatched
    rw [hlatched] at hlatch
    simp only [hacc, bne_self_eq_false, Bool.and_false, Bool.toNat_false]
    simp only [Bool.toNat_true] at hlatch
    omega
  · next hacc =>
    rw [bne_iff_ne.mpr hacc, Bool.and_true, hraised]
    omega

theorem outstanding_add_le (requests : Finset ℕ) (s : System FlatBus) (k : ℕ) :
    ∀ n, outstanding requests s (k + n) ≤ outstanding requests s k
  | 0 => Nat.le_refl _
  | n + 1 =>
    (Nat.le_of_add_right_le (outstanding_succ requests s (k + n))).trans
      (outstanding_add_le requests s k n)

end Runs

/-! ## Service -/

/-- The two bytes below the stack pointer, where a return address goes. -/
def stackBytes (s : System FlatBus) : List UInt16 := [s.regs.sp - 1, s.regs.sp - 2]

/-- The CPU runs with interrupts enabled in mode 1, and the handler is `EI` and `RET`, out of the
way of the stack. -/
structure Interruptible (s : System FlatBus) : Prop where
  running : s.regs.halted = false
  nonMaskable : s.cpu.nmiPending = false
  mode : s.regs.im = 1
  iff1 : s.regs.iff1 = true
  iff2 : s.regs.iff2 = true
  enable : Bus.peek s.bus 0x0038 = 0xFB
  ret : Bus.peek s.bus 0x0039 = 0xC9
  handler : 0x0038 ∉ s.stackBytes ∧ 0x0039 ∉ s.stackBytes

/-- The two systems have the same registers, the refresh counter and the address latch excepted, and
the same memory, the two bytes below the stack pointer excepted. -/
structure Agrees (t s : System FlatBus) : Prop where
  regs : t.regs.Same s.regs
  nonMaskable : t.cpu.nmiPending = s.cpu.nmiPending
  memory : ∀ a ∉ s.stackBytes, Bus.peek t.bus a = Bus.peek s.bus a

section Service

variable {requests : Finset ℕ} {s t r : System FlatBus} {k : ℕ}

theorem fetches_of_not_maskable (hacc : s.cpu.acceptance ≠ .maskable)
    (hnmi : s.cpu.nmiPending = false) (hhalted : s.regs.halted = false) : s.Fetches := by
  refine ⟨?_, hhalted⟩
  cases h : s.cpu.acceptance with
  | none => rfl
  | maskable => exact absurd h hacc
  | nonMaskable =>
    rw [((acceptance_nonMaskable_iff s).mp h).1] at hnmi
    cases hnmi

theorem fetches_of_disabled (hiff1 : s.regs.iff1 = false) (hnmi : s.cpu.nmiPending = false)
    (hhalted : s.regs.halted = false) : s.Fetches := by
  refine fetches_of_not_maskable (fun hacc => ?_) hnmi hhalted
  rw [((acceptance_maskable_iff s).mp hacc).2.1] at hiff1
  cases hiff1

theorem fetches_of_eiDelay (hdelay : s.cpu.eiDelay = true) (hnmi : s.cpu.nmiPending = false)
    (hhalted : s.regs.halted = false) : s.Fetches := by
  refine fetches_of_not_maskable (fun hacc => ?_) hnmi hhalted
  rw [((acceptance_maskable_iff s).mp hacc).2.2.2.1] at hdelay
  cases hdelay

theorem peek_service {bus : FlatBus} {sp : UInt16} {pc : UInt16} {a : UInt16}
    (ha : a ∉ [sp - 1, sp - 2]) :
    Bus.peek (Bus.write (sp - 2) (loByte pc)
      (Bus.write (sp - 1) (hiByte pc) (Bus.acknowledge bus).2)) a = Bus.peek bus a := by
  simp only [List.mem_cons, List.not_mem_nil, or_false, not_or] at ha
  rw [FlatBus.peek_write, if_neg (Ne.symm ha.2), FlatBus.peek_write, if_neg (Ne.symm ha.1),
    FlatBus.peek_acknowledge]

theorem Interruptible.of_agrees (h : Agrees t r) (hr : r.Interruptible) : t.Interruptible := by
  have hregs := h.regs
  have hstack : t.stackBytes = r.stackBytes := by
    unfold stackBytes
    rw [hregs]
  exact
    { running := by rw [hregs]; exact hr.running
      nonMaskable := by rw [h.nonMaskable, hr.nonMaskable]
      mode := by rw [hregs]; exact hr.mode
      iff1 := by rw [hregs]; exact hr.iff1
      iff2 := by rw [hregs]; exact hr.iff2
      enable := by rw [h.memory _ hr.handler.1, hr.enable]
      ret := by rw [h.memory _ hr.handler.2, hr.ret]
      handler := by rw [hstack]; exact hr.handler }

theorem Agrees.trans (h : Agrees t s) (h' : Agrees s r) : Agrees t r := by
  have hstack : s.stackBytes = r.stackBytes := by
    unfold stackBytes
    rw [h'.regs]
  refine ⟨h.regs.trans h'.regs, h.nonMaskable.trans h'.nonMaskable, fun a ha => ?_⟩
  rw [h.memory a (hstack ▸ ha), h'.memory a ha]

/-- The service of a request takes three steps: the acknowledge, `EI` and `RET`. The last is safe
from a request that has come meanwhile, and so the stack is no deeper than one address. -/
theorem agrees_of_service (requests : Finset ℕ) (i j : ℕ) (ht : t.Interruptible)
    (hacc : t.cpu.acceptance = .maskable) :
    (raised requests i t.step.2).regs.pc = 0x0038 ∧
      (raised requests j (raised requests i t.step.2).step.2).regs.pc = 0x0039 ∧
      (raised requests j (raised requests i t.step.2).step.2).step.2.Agrees t := by
  obtain ⟨hregs₁, hbus₁⟩ := step_acceptMaskable hacc ht.mode
  have hmemory (a : UInt16) (ha : a ∉ t.stackBytes) :
      Bus.peek t.step.2.bus a = Bus.peek t.bus a := by
    rw [hbus₁]
    exact peek_service ha
  have hnmi₁ : (raised requests i t.step.2).cpu.nmiPending = false := by
    rw [nmiPending_raised, nmiPending_step, ht.nonMaskable]
    rfl
  -- the next step finds interrupts disabled
  generalize hu : raised requests i t.step.2 = u at *
  have huregs : u.regs = t.regs.atHandler := by rw [← hu, regs_raised, hregs₁]
  have hubus : u.bus = t.step.2.bus := by rw [← hu, bus_raised]
  have hufetches : u.Fetches :=
    fetches_of_disabled (by rw [huregs]; rfl) hnmi₁ (by rw [huregs]; rfl)
  have hupc : u.regs.pc = 0x0038 := by rw [huregs]; rfl
  obtain ⟨hregs₂, hbus₂, hdelay⟩ := step_enable hufetches (by
    rw [hupc, hubus, hmemory _ ht.handler.1, ht.enable])
  have hnmi₂ : (raised requests j u.step.2).cpu.nmiPending = false := by
    rw [nmiPending_raised, nmiPending_step, hnmi₁]
    rfl
  -- and the one after it `EI` just executed
  generalize hw : raised requests j u.step.2 = w at *
  have hwregs : w.regs = t.regs.atHandler.enabled := by rw [← hw, regs_raised, hregs₂, huregs]
  have hwbus : w.bus = t.step.2.bus := by rw [← hw, bus_raised, hbus₂, hubus]
  have hwfetches : w.Fetches :=
    fetches_of_eiDelay (by rw [← hw, eiDelay_raised, hdelay]) hnmi₂ (by rw [hwregs]; rfl)
  have hwpc : w.regs.pc = 0x0039 := by rw [hwregs]; rfl
  obtain ⟨hregs₃, hbus₃⟩ := step_ret hwfetches (by
    rw [hwpc, hwbus, hmemory _ ht.handler.2, ht.ret])
  have htop : w.topOfStack = t.regs.pc := by
    have hsp : w.regs.sp = t.regs.sp - 2 := by rw [hwregs]; rfl
    have hnext : t.regs.sp - 2 + 1 = t.regs.sp - 1 := by grind
    have hne : t.regs.sp - 2 ≠ t.regs.sp - 1 := by grind
    rw [topOfStack, hwbus, hbus₁, hsp, hnext, FlatBus.peek_write, FlatBus.peek_write,
      FlatBus.peek_write, if_pos rfl, if_neg hne, if_pos rfl, word_hiByte_loByte]
  refine ⟨hupc, hwpc, ?_, ?_, fun a ha => ?_⟩
  · rw [hregs₃, htop, hwregs]
    exact Registers.same_returned ht.iff1 ht.iff2 ht.running
  · rw [nmiPending_step, hnmi₂, ht.nonMaskable]
    rfl
  · rw [hbus₃, hwbus, hmemory a ha]

end Service

end System

end AmstradCpc.Z80
