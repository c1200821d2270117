import AmstradCpc.Proofs.Z80.InterruptedRuns

/-!
# Block copies under interrupts

`LDIR` and `LDDR` are made of passes: each copies a byte and puts the program counter back on the
instruction until the count is zero. So a request can be served between any two passes, and the
return address leads back to the next one. `System.blockCopy_interrupted` compares a copy under
interrupts with one that is left alone. The two are followed side by side (`System.Synced`): a step
of the former either begins a service, which uses up a request, or makes a pass along with the
latter.
-/

namespace AmstradCpc.Z80

/-! ## Registers -/

namespace Registers

variable (d : Direction) (v : UInt8) (r : Registers)

theorem bc_loadRegisters : (Extended.loadRegisters d v r).bc = r.bc - 1 := by
  simp [Extended.loadRegisters, setBC, bc]

theorem bc_afterLoad : (r.afterLoad d v).bc = r.bc - 1 := by
  rw [afterLoad]
  split <;> exact bc_loadRegisters d v r

theorem de_afterLoad : (r.afterLoad d v).de = d.step r.de := by
  rw [afterLoad]
  split <;> simp [Extended.loadRegisters, setBC, setDE, de]

theorem hl_afterLoad : (r.afterLoad d v).hl = d.step r.hl := by
  rw [afterLoad]
  split <;> simp [Extended.loadRegisters, setBC, setDE, setHL, hl]

/-- The registers that the service of a request depends on. -/
def control (r : Registers) : UInt16 × Bool × UInt8 × Bool × Bool :=
  (r.sp, r.halted, r.im, r.iff1, r.iff2)

theorem control_fetched : r.fetched.control = r.control := rfl

theorem control_afterLoad : (r.afterLoad d v).control = r.control := by
  rw [afterLoad]
  split <;> rfl

theorem pc_afterLoad : (r.afterLoad d v).pc = if r.bc - 1 = 0 then r.pc else r.pc - 2 := by
  simp only [afterLoad, bc_loadRegisters]
  split <;> rfl

variable {r} {r' : Registers}

theorem Same.afterLoad (h : r.Same r') : (r.afterLoad d v).Same (r'.afterLoad d v) := by
  unfold Same at h ⊢
  generalize r.wz = w at h
  generalize r.r = c at h
  subst h
  have hbc : (Extended.loadRegisters d v { r' with wz := w, r := c }).bc =
    (Extended.loadRegisters d v r').bc := rfl
  simp only [Registers.afterLoad, hbc]
  split <;> rfl

end Registers

namespace System

/-! ## Passes -/

/-- The number of bytes to copy: a count of zero means all of memory. -/
def copyLength (s : System FlatBus) : ℕ := if s.regs.bc = 0 then 0x10000 else s.regs.bc.toNat

/-- The two bytes of the instruction, and the two of the handler. -/
def codeBytes (s : System FlatBus) : List UInt16 := [s.regs.pc, s.regs.pc + 1, 0x0038, 0x0039]

/-- An `LDIR` or `LDDR` is about to run. It copies over neither itself, nor the handler, nor a
return address, and does not copy a return address either. -/
structure BlockCopy (d : Direction) (s : System FlatBus) : Prop extends Interruptible s where
  first : Bus.peek s.bus s.regs.pc = 0xED
  second : Bus.peek s.bus (s.regs.pc + 1) = d.repeatedLoad
  instruction : s.regs.pc ∉ s.stackBytes ∧ s.regs.pc + 1 ∉ s.stackBytes
  destination : ∀ i < s.copyLength, d.step^[i] s.regs.de ∉ s.codeBytes ++ s.stackBytes
  source : ∀ i < s.copyLength, d.step^[i] s.regs.hl ∉ s.stackBytes

section Passes

variable {d : Direction} {s t : System FlatBus}

theorem copyLength_pos : 0 < s.copyLength := by
  unfold copyLength
  split
  · decide
  · next h => exact Nat.pos_of_ne_zero fun h0 => h (UInt16.toNat_inj.mp h0)

-- A pass counts down; after the last one the count is zero, not all of memory.
theorem copyLength_eq (hbc : t.regs.bc = s.regs.bc - 1) (hmore : t.regs.bc ≠ 0) :
    s.copyLength = t.copyLength + 1 := by
  rw [copyLength, copyLength, if_neg hmore, hbc]
  split
  · next h =>
    rw [h]
    rfl
  · next h =>
    have hpos : s.regs.bc.toNat ≠ 0 := fun h0 => h (UInt16.toNat_inj.mp h0)
    have hlt := s.regs.bc.toNat_lt
    rw [UInt16.toNat_sub]
    simp only [UInt16.toNat_one]
    omega

theorem copyLength_last (hbc : t.regs.bc = s.regs.bc - 1) (hlast : t.regs.bc = 0) :
    s.copyLength = 1 := by
  have hone : s.regs.bc = 1 := by grind
  rw [copyLength, hone]
  rfl

/-- What a pass leaves: the copied byte, the pointers moved, the count one less, and the rest of the
registers that matter to the next pass. -/
structure Passed (d : Direction) (s t : System FlatBus) : Prop where
  regs : t.regs = s.regs.fetched.fetched.afterLoad d (Bus.peek s.bus s.regs.hl)
  bus : t.bus = Bus.write s.regs.de (Bus.peek s.bus s.regs.hl) s.bus
  nonMaskable : t.cpu.nmiPending = s.cpu.nmiPending

theorem BlockCopy.passed (h : BlockCopy d s) (hfetches : s.Fetches) : s.Passed d s.step.2 := by
  obtain ⟨hregs, hbus⟩ := step_repeatedLoad hfetches h.first h.second
  refine ⟨hregs, hbus, ?_⟩
  rw [nmiPending_step, h.nonMaskable]
  rfl

section Passed

variable (h : s.Passed d t)
include h

theorem Passed.bc : t.regs.bc = s.regs.bc - 1 := by
  rw [h.regs, Registers.bc_afterLoad, Registers.bc_fetched, Registers.bc_fetched]

theorem Passed.de : t.regs.de = d.step s.regs.de := by
  rw [h.regs, Registers.de_afterLoad, Registers.de_fetched, Registers.de_fetched]

theorem Passed.hl : t.regs.hl = d.step s.regs.hl := by
  rw [h.regs, Registers.hl_afterLoad, Registers.hl_fetched, Registers.hl_fetched]

theorem Passed.control : t.regs.control = s.regs.control := by
  rw [h.regs, Registers.control_afterLoad, Registers.control_fetched, Registers.control_fetched]

theorem Passed.sp : t.regs.sp = s.regs.sp := congrArg Prod.fst h.control

theorem Passed.stackBytes : t.stackBytes = s.stackBytes := by
  rw [System.stackBytes, h.sp]
  rfl

theorem Passed.pc : t.regs.pc = if t.regs.bc = 0 then s.regs.pc + 2 else s.regs.pc := by
  have hbehind : s.regs.pc + 1 + 1 = s.regs.pc + 2 := by grind
  have hback : s.regs.pc + 2 - 2 = s.regs.pc := by grind
  rw [h.bc, h.regs, Registers.pc_afterLoad]
  simp only [Registers.pc_fetched, Registers.bc_fetched, hbehind, hback]

theorem Passed.peek {a : UInt16} (ha : s.regs.de ≠ a) : Bus.peek t.bus a = Bus.peek s.bus a := by
  rw [h.bus, FlatBus.peek_write, if_neg ha]

end Passed

theorem BlockCopy.avoids (h : BlockCopy d s) {a : UInt16} (ha : a ∈ s.codeBytes) :
    s.regs.de ≠ a := by
  rintro rfl
  exact h.destination 0 copyLength_pos (List.mem_append_left _ ha)

theorem Passed.interruptible (hpass : s.Passed d t) (h : BlockCopy d s) : t.Interruptible := by
  have hcontrol := hpass.control
  simp only [Registers.control, Prod.mk.injEq] at hcontrol
  obtain ⟨-, hhalted, him, hiff1, hiff2⟩ := hcontrol
  exact
    { running := by rw [hhalted, h.running]
      nonMaskable := by rw [hpass.nonMaskable, h.nonMaskable]
      mode := by rw [him, h.mode]
      iff1 := by rw [hiff1, h.iff1]
      iff2 := by rw [hiff2, h.iff2]
      enable := by rw [hpass.peek (h.avoids (by simp [codeBytes])), h.enable]
      ret := by rw [hpass.peek (h.avoids (by simp [codeBytes])), h.ret]
      handler := by rw [hpass.stackBytes]; exact h.handler }

theorem Passed.blockCopy (hpass : s.Passed d t) (h : BlockCopy d s) (hmore : t.regs.bc ≠ 0) :
    BlockCopy d t := by
  have hpc : t.regs.pc = s.regs.pc := by rw [hpass.pc, if_neg hmore]
  have hlength := copyLength_eq hpass.bc hmore
  have hcode : t.codeBytes = s.codeBytes := by rw [codeBytes, hpc]; rfl
  exact
    { hpass.interruptible h with
      first := by rw [hpc, hpass.peek (h.avoids (by simp [codeBytes])), h.first]
      second := by rw [hpc, hpass.peek (h.avoids (by simp [codeBytes])), h.second]
      instruction := by rw [hpc, hpass.stackBytes]; exact h.instruction
      destination := fun i hi => by
        rw [hpass.de, hcode, hpass.stackBytes, ← Function.iterate_succ_apply]
        exact h.destination (i + 1) (by omega)
      source := fun i hi => by
        rw [hpass.hl, hpass.stackBytes, ← Function.iterate_succ_apply]
        exact h.source (i + 1) (by omega) }

theorem BlockCopy.of_agrees (hagrees : Agrees t s) (h : BlockCopy d s) : BlockCopy d t := by
  have hregs := hagrees.regs
  have hpc : t.regs.pc = s.regs.pc := by rw [hregs]
  have hde : t.regs.de = s.regs.de := by rw [hregs]; rfl
  have hhl : t.regs.hl = s.regs.hl := by rw [hregs]; rfl
  have hlength : t.copyLength = s.copyLength := by rw [copyLength, hregs]; rfl
  have hcode : t.codeBytes = s.codeBytes := by rw [codeBytes, hpc]; rfl
  have hstack : t.stackBytes = s.stackBytes := by rw [stackBytes, hregs]; rfl
  exact
    { Interruptible.of_agrees hagrees h.toInterruptible with
      first := by rw [hpc, hagrees.memory _ h.instruction.1, h.first]
      second := by rw [hpc, hagrees.memory _ h.instruction.2, h.second]
      instruction := by rw [hpc, hstack]; exact h.instruction
      destination := by rw [hlength, hde, hcode, hstack]; exact h.destination
      source := by rw [hlength, hhl, hstack]; exact h.source }

-- The same byte goes to the same place, and it is not a return address.
theorem Agrees.pass {s' t' : System FlatBus} (hagrees : Agrees t s) (h : BlockCopy d s)
    (hs : s.Passed d s') (ht : t.Passed d t') : Agrees t' s' := by
  have hde : t.regs.de = s.regs.de := by rw [hagrees.regs]; rfl
  have hhl : t.regs.hl = s.regs.hl := by rw [hagrees.regs]; rfl
  have hbyte : Bus.peek t.bus t.regs.hl = Bus.peek s.bus s.regs.hl := by
    rw [hhl]
    exact hagrees.memory _ (h.source 0 copyLength_pos)
  refine ⟨?_, ?_, fun a ha => ?_⟩
  · rw [hs.regs, ht.regs, hbyte]
    exact hagrees.regs.fetched.fetched.afterLoad d _
  · rw [hs.nonMaskable, ht.nonMaskable, hagrees.nonMaskable]
  · rw [hs.stackBytes] at ha
    rw [hs.bus, ht.bus, FlatBus.peek_write, FlatBus.peek_write, hbyte, hde, hagrees.memory a ha]

end Passes

/-! ## Runs -/

/-- The same system with no request latched. -/
def unrequested (s : System FlatBus) : System FlatBus := { s with cpu := s.cpu.clearInterrupt }

section Runs

variable {d : Direction} {requests : Finset ℕ} {s : System FlatBus} {k i : ℕ}

theorem agrees_unrequested : s.Agrees s.unrequested := ⟨rfl, rfl, fun _ _ => rfl⟩

-- Nothing interrupts a run without requests.
theorem intPending_unrequested (s : System FlatBus) :
    ∀ i, (interruptedRun ∅ s.unrequested i).cpu.intPending = false
  | 0 => rfl
  | i + 1 => by
    have hstep := intPending_step (interruptedRun ∅ s.unrequested i)
    rw [intPending_unrequested s i, Bool.false_and] at hstep
    exact hstep

theorem fetches_unrequested (h : (interruptedRun ∅ s.unrequested i).Interruptible) :
    (interruptedRun ∅ s.unrequested i).Fetches := by
  refine fetches_of_not_maskable (fun hacc => ?_) h.nonMaskable h.running
  have hpending := ((acceptance_maskable_iff _).mp hacc).1
  rw [intPending_unrequested] at hpending
  cases hpending

theorem agrees_boundary (requests : Finset ℕ) (s : System FlatBus) (k : ℕ) :
    (boundary requests s k).Agrees (interruptedRun requests s k) := by
  refine ⟨?_, nmiPending_raised, fun a _ => ?_⟩
  · rw [boundary_regs]
    rfl
  · rw [boundary_bus]

/-- After `k` steps the run under interrupts stands where the one without stands after `i`. Both
have passes of the block instruction left, and what passes they have made have led back to it. -/
structure Synced (d : Direction) (requests : Finset ℕ) (s : System FlatBus) (k i : ℕ) : Prop where
  copying : BlockCopy d (interruptedRun ∅ s.unrequested i)
  start : (interruptedRun ∅ s.unrequested i).regs.pc = s.regs.pc
  stack : (interruptedRun ∅ s.unrequested i).regs.sp = s.regs.sp
  count : i + (interruptedRun ∅ s.unrequested i).copyLength = s.copyLength
  agrees : (interruptedRun requests s k).Agrees (interruptedRun ∅ s.unrequested i)
  repeats : ∀ j < k, RepeatsAt requests s j →
    (interruptedRun requests s (j + 1)).regs.pc = s.regs.pc
  undisturbed : ∀ j < i, (interruptedRun ∅ s.unrequested (j + 1)).regs.pc = s.regs.pc

theorem BlockCopy.synced (h : BlockCopy d s) (requests : Finset ℕ) :
    Synced d requests s 0 0 where
  copying := { h with }
  start := rfl
  stack := rfl
  count := Nat.zero_add _
  agrees := agrees_unrequested
  repeats j hj := absurd hj (Nat.not_lt_zero j)
  undisturbed j hj := absurd hj (Nat.not_lt_zero j)

section Synced

variable (h : Synced d requests s k i)
include h

theorem Synced.boundary :
    (boundary requests s k).Agrees (interruptedRun ∅ s.unrequested i) :=
  (agrees_boundary requests s k).trans h.agrees

theorem Synced.serve (hacc : (System.boundary requests s k).cpu.acceptance = .maskable) :
    Synced d requests s (k + 3) i := by
  have hinterruptible := Interruptible.of_agrees h.boundary h.copying.toInterruptible
  obtain ⟨hpc₁, hpc₂, hagrees⟩ := agrees_of_service requests (k + 1) (k + 2) hinterruptible hacc
  have hstart := h.copying.first
  rw [h.start] at hstart
  refine { h with agrees := hagrees.trans h.boundary, repeats := fun j hj hrepeats => ?_ }
  -- the three steps of the service are no passes
  obtain hj | rfl | rfl | rfl : j < k ∨ j = k ∨ j = k + 1 ∨ j = k + 2 := by omega
  · exact h.repeats j hj hrepeats
  · rw [hrepeats.1.1] at hacc
    cases hacc
  · have hpc : s.regs.pc = 0x0038 := hrepeats.2.symm.trans hpc₁
    rw [hpc, h.copying.enable] at hstart
    exact absurd hstart (by decide)
  · have hpc : s.regs.pc = 0x0039 := hrepeats.2.symm.trans hpc₂
    rw [hpc, h.copying.ret] at hstart
    exact absurd hstart (by decide)

theorem Synced.passed (hacc : (System.boundary requests s k).cpu.acceptance ≠ .maskable) :
    (interruptedRun ∅ s.unrequested i).Passed d (interruptedRun ∅ s.unrequested (i + 1)) ∧
      (System.boundary requests s k).Passed d (interruptedRun requests s (k + 1)) := by
  have hcopying := BlockCopy.of_agrees h.boundary h.copying
  exact ⟨h.copying.passed (fetches_unrequested h.copying.toInterruptible),
    hcopying.passed (fetches_of_not_maskable hacc hcopying.nonMaskable hcopying.running)⟩

theorem Synced.agrees_succ (hacc : (System.boundary requests s k).cpu.acceptance ≠ .maskable) :
    (interruptedRun requests s (k + 1)).Agrees (interruptedRun ∅ s.unrequested (i + 1)) :=
  h.boundary.pass h.copying (h.passed hacc).1 (h.passed hacc).2

theorem Synced.pass (hacc : (System.boundary requests s k).cpu.acceptance ≠ .maskable)
    (hmore : (interruptedRun ∅ s.unrequested (i + 1)).regs.bc ≠ 0) :
    Synced d requests s (k + 1) (i + 1) := by
  have hpass := (h.passed hacc).1
  have hagrees := h.agrees_succ hacc
  have hstart : (interruptedRun ∅ s.unrequested (i + 1)).regs.pc = s.regs.pc := by
    rw [hpass.pc, if_neg hmore, h.start]
  have hcount := copyLength_eq hpass.bc hmore
  refine ⟨hpass.blockCopy h.copying hmore, hstart, hpass.sp.trans h.stack, ?_, hagrees,
    fun j hj hrepeats => ?_, fun j hj => ?_⟩
  · have hsum := h.count
    omega
  · obtain hj | rfl : j < k ∨ j = k := by omega
    · exact h.repeats j hj hrepeats
    · rw [hagrees.regs]
      exact hstart
  · obtain hj | rfl : j < i ∨ j = i := by omega
    · exact h.undisturbed j hj
    · exact hstart

theorem Synced.finish (hacc : (System.boundary requests s k).cpu.acceptance ≠ .maskable)
    (hlast : (interruptedRun ∅ s.unrequested (i + 1)).regs.bc = 0) :
    FinishesAt requests s k ∧ FinishesAt ∅ s.unrequested i := by
  have hpass := (h.passed hacc).1
  have hagrees := h.agrees_succ hacc
  have hend : (interruptedRun ∅ s.unrequested (i + 1)).regs.pc = s.regs.pc + 2 := by
    rw [hpass.pc, if_pos hlast, h.start]
  have hcopying := BlockCopy.of_agrees h.boundary h.copying
  have hpc : (System.boundary requests s k).regs.pc = s.regs.pc := by
    rw [h.boundary.regs]
    exact h.start
  constructor
  · refine ⟨⟨fetches_of_not_maskable hacc hcopying.nonMaskable hcopying.running, hpc⟩, ?_,
      h.repeats⟩
    rw [hagrees.regs]
    exact hend
  · exact ⟨⟨fetches_unrequested h.copying.toInterruptible, h.start⟩, hend,
      fun j hj _ => h.undisturbed j hj⟩

end Synced

-- By induction on the passes and the requests to come: a step that does not make a pass begins the
-- service of a request.
theorem Synced.exists_last (h : Synced d requests s k i) :
    ∃ k' i', Synced d requests s k' i' ∧
      (System.boundary requests s k').cpu.acceptance ≠ .maskable ∧
      (interruptedRun ∅ s.unrequested (i' + 1)).regs.bc = 0 := by
  generalize hn :
    outstanding requests s k + (interruptedRun ∅ s.unrequested i).copyLength = n
  induction n using Nat.strong_induction_on generalizing k i with
  | _ n ih =>
    have hstep := outstanding_succ requests s k
    by_cases hacc : (System.boundary requests s k).cpu.acceptance = .maskable
    · have hlater : outstanding requests s (k + 3) ≤ outstanding requests s (k + 1) :=
        outstanding_add_le requests s (k + 1) 2
      rw [if_pos hacc] at hstep
      exact ih _ (by omega) (h.serve hacc) rfl
    · by_cases hlast : (interruptedRun ∅ s.unrequested (i + 1)).regs.bc = 0
      · exact ⟨k, i, h, hacc, hlast⟩
      · have hlength := copyLength_eq (h.passed hacc).1.bc hlast
        exact ih _ (by omega) (h.pass hacc hlast) rfl

-- A pass leaves neither latch up.
theorem latches_of_first (hfirst : Bus.peek s.bus s.regs.pc = 0xED) :
    s.step.2.cpu.eiDelay = false ∧ s.step.2.cpu.inPrefix = false := by
  have hindex : ¬ IsIndexPrefix s.firstByte.1 := by
    show ¬ IsIndexPrefix (Bus.peek s.bus s.regs.pc)
    rw [hfirst]
    decide
  constructor
  · rw [← Bool.not_eq_true, eiDelay_step]
    rintro ⟨-, henable | ⟨hpre, -⟩⟩
    · have hbyte : s.firstByte.1 = 0xED := hfirst
      rw [hbyte] at henable
      exact absurd henable (by decide)
    · exact hindex hpre
  · rw [← Bool.not_eq_true, inPrefix_step]
    rintro ⟨-, hpre, -⟩
    exact hindex hpre

/-- Whatever requests are made while an `LDIR` or `LDDR` runs, its last pass comes, and leaves the
registers and the memory as the copy does that is left alone and takes one step for each byte. The
refresh counter, the address latch and the two bytes below the stack pointer are excepted. If a
request is latched then, it is served at once, and that changes no more. -/
theorem blockCopy_interrupted (h : BlockCopy d s) (requests : Finset ℕ) :
    let alone := interruptedRun ∅ s.unrequested s.copyLength
    FinishesAt ∅ s.unrequested (s.copyLength - 1) ∧ alone.regs.sp = s.regs.sp ∧
      ∃ k, FinishesAt requests s k ∧ (interruptedRun requests s (k + 1)).Agrees alone ∧
        ((boundary requests s (k + 1)).cpu.intPending = true →
          (interruptedRun requests s (k + 4)).Agrees alone) := by
  obtain ⟨k, i, hsynced, hacc, hlast⟩ := (h.synced requests).exists_last
  have hpass := (hsynced.passed hacc).1
  have hcount : s.copyLength = i + 1 := by
    rw [← hsynced.count, copyLength_last hpass.bc hlast]
  obtain ⟨hfinish, hfinish₀⟩ := hsynced.finish hacc hlast
  have hagrees := hsynced.agrees_succ hacc
  rw [hcount]
  refine ⟨hfinish₀, hpass.sp.trans hsynced.stack, k, hfinish, hagrees, fun hpending => ?_⟩
  have hnext := (agrees_boundary requests s (k + 1)).trans hagrees
  have hready := Interruptible.of_agrees hnext (hpass.interruptible hsynced.copying)
  have hcopying := BlockCopy.of_agrees hsynced.boundary hsynced.copying
  obtain ⟨hdelay, hcut⟩ := latches_of_first hcopying.first
  have hserved : (boundary requests s (k + 1)).cpu.acceptance = .maskable := by
    rw [acceptance_maskable_iff]
    exact ⟨hpending, hready.iff1, hready.nonMaskable, eiDelay_raised.trans hdelay,
      inPrefix_raised.trans hcut⟩
  exact (agrees_of_service requests (k + 2) (k + 3) hready hserved).2.2.trans hnext

/-- An `LDIR` of two bytes, with requests before the first pass, in the handler, and after `RET`. -/
theorem blockCopy_interrupted_thrice :
    let s : System FlatBus :=
      { cpu :=
          { regs :=
              { pc := 0x4000, sp := 0xC000, c := 2, d := 0x60, h := 0x50
                iff1 := true, iff2 := true, im := 1 } }
        bus :=
          { memory := (((FlatMemory.zeros.write 0x0038 0xFB).write 0x0039 0xC9).write
              0x4000 0xED).write 0x4001 0xB0 } }
    let alone := interruptedRun ∅ s.unrequested s.copyLength
    BlockCopy .up s ∧ FinishesAt ∅ s.unrequested (s.copyLength - 1) ∧
      alone.regs.sp = s.regs.sp ∧
      ∃ k, FinishesAt {0, 1, 3} s k ∧ (interruptedRun {0, 1, 3} s (k + 1)).Agrees alone ∧
        ((boundary {0, 1, 3} s (k + 1)).cpu.intPending = true →
          (interruptedRun {0, 1, 3} s (k + 4)).Agrees alone) := by
  intro s alone
  have hread (a : UInt16) : Bus.peek s.bus a =
      if 0x4001 = a then 0xB0 else if 0x4000 = a then 0xED
      else if 0x0039 = a then 0xC9 else if 0x0038 = a then 0xFB else 0 := by
    show ((((FlatMemory.zeros.write 0x0038 0xFB).write 0x0039 0xC9).write
      0x4000 0xED).write 0x4001 0xB0).read a = _
    simp only [FlatMemory.read_write, FlatMemory.read_zeros]
  have hcopy : BlockCopy .up s :=
    { running := rfl
      nonMaskable := rfl
      mode := rfl
      iff1 := rfl
      iff2 := rfl
      enable := by rw [hread]; decide
      ret := by rw [hread]; decide
      handler := by decide
      first := by rw [hread]; decide
      second := by rw [hread]; decide
      instruction := by decide
      destination := by decide
      source := by decide }
  exact ⟨hcopy, blockCopy_interrupted hcopy {0, 1, 3}⟩

end Runs

end System

end AmstradCpc.Z80
