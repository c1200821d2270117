import AmstradCpc.Proofs.Z80.Calls
import AmstradCpc.Z80.FlatBus

/-!
# T-states over many periods

A step costs between 4 and 23 T-states, whatever the bus answers (`System.step_cost`). So a period
ends after finitely many steps and is overshot by at most 22 T-states, and as the overshoot is
charged to the next period it does not add up: `System.periods_exact` gives the T-states of any
number of periods.
-/

namespace AmstradCpc.Z80

/-! ## The cost of a step -/

section Costs

variable {β : Type} [Bus β] (s : System β)

-- What a taken branch or another pass adds is added at most.
theorem fst_ite_le {α : Type} {c : Prop} [Decidable c] (penalty : Nat) (a b : α) :
    (if c then (penalty, a) else (0, b)).1 ≤ penalty := by
  split
  · exact Nat.le_refl _
  · exact Nat.zero_le _

theorem Instr.cost_add_le (i : Instr) (x : Index) : i.cost + (i.exec x s).1 ≤ 19 := by
  cases i with
  | decJump => exact Nat.le_trans (Nat.add_le_add_left (fst_ite_le jumpPenalty _ _) 8) (by decide)
  | jumpRelativeIf cc =>
    exact Nat.le_trans (Nat.add_le_add_left (fst_ite_le jumpPenalty _ _) 7) (by decide)
  | jumpIf cc => exact Nat.le_trans (Nat.add_le_add_left (fst_ite_le 0 _ _) 10) (by decide)
  | callIf cc =>
    exact Nat.le_trans (Nat.add_le_add_left (fst_ite_le callPenalty _ _) 10) (by decide)
  | retIf cc =>
    exact Nat.le_trans (Nat.add_le_add_left (fst_ite_le returnPenalty _ _) 5) (by decide)
  | _ => simp [exec, cost]

theorem MemoryInstr.cost_add_le (m : MemoryInstr) : m.cost + m.displacementCost ≤ 19 := by
  cases m <;> simp [cost, displacementCost]

theorem BitInstr.cost_le (i : BitInstr) : i.cost ≤ 15 := by
  unfold cost
  split <;> decide

theorem BitOp.indexedCost_le (op : BitOp) : op.indexedCost ≤ 23 := by
  cases op <;> simp [indexedCost]

theorem Extended.cost_add_le (i : Extended) (opcode : UInt8) :
    i.cost + (i.exec opcode s).1 ≤ 21 := by
  cases i with
  | block op d repeats =>
    have hpass : ((block op d repeats).exec opcode s).1 ≤ jumpPenalty := by
      cases op with
      | load => exact fst_ite_le jumpPenalty _ _
      | compare => exact fst_ite_le jumpPenalty _ _
      | input => exact fst_ite_le jumpPenalty _ _
      | output => exact fst_ite_le jumpPenalty _ _
    exact Nat.add_le_add_left hpass 16
  | _ => simp [exec, cost]

namespace System

-- The dearest are `EX (SP),IX` and what changes the byte at `IX+d`.
theorem indexed_le (x : Index) : (s.indexed x).1 ≤ 23 := by
  unfold indexed
  dsimp only
  split
  · exact (by decide : 4 ≤ 23)
  · split
    · rw [Nat.add_assoc]
      exact Nat.add_le_add_left (Instr.cost_add_le _ _ _) 4
    · rw [Nat.add_assoc]
      exact Nat.add_le_add_left (MemoryInstr.cost_add_le _) 4
    · exact BitOp.indexedCost_le _
    · exact (by decide : 4 ≤ 23)

theorem instruction_le : s.instruction.1 ≤ 23 := by
  unfold instruction
  dsimp only
  split
  · exact Nat.le_trans (Instr.cost_add_le _ _ _) (by decide)
  · exact Nat.le_trans (Nat.le_add_right _ _) (Nat.le_trans (MemoryInstr.cost_add_le _) (by decide))
  · exact Nat.le_trans (BitInstr.cost_le _) (by decide)
  · exact Nat.le_trans (Extended.cost_add_le _ _ _) (by decide)
  · exact indexed_le _ _

/-- The bounds of a step's cost. -/
theorem step_cost : 4 ≤ s.step.1 ∧ s.step.1 ≤ 23 := by
  refine ⟨four_le_step s, ?_⟩
  simp only [step, act]
  split
  · exact (by decide : 11 ≤ 23)
  · simp only [acceptMaskable]
    split
    · exact (by decide : 19 ≤ 23)
    · split <;> exact (by decide : 13 ≤ 23)
  · split
    · exact (by decide : 4 ≤ 23)
    · exact instruction_le _

end System

end Costs

/-! ## Steps in a row -/

namespace System

variable {β : Type} [Bus β] (s : System β)

/-- The T-states of some steps, and the system behind them. -/
def steps : Nat → System β → Nat × System β
  | 0, s => (0, s)
  | k + 1, s => (s.step.1 + (steps k s.step.2).1, (steps k s.step.2).2)

theorem steps_one : steps 1 s = s.step := rfl

-- A run ends: the T-states left get fewer with every step. While some are left a step is taken, so
-- the last one uses up one of them at least and no more than 22 others.
theorem runFor_eq_steps (left : Int) (elapsed : Nat) : ∃ k,
    runFor left elapsed s =
      (elapsed + (steps (k + 1) s).1, left - (steps (k + 1) s).1, (steps (k + 1) s).2) ∧
    left ≤ (steps (k + 1) s).1 ∧ (0 < left → ((steps (k + 1) s).1 : Int) ≤ left + 22) := by
  induction left, elapsed, s using runFor.induct with
  | case1 left elapsed s r hl =>
    have hcost := s.step_cost
    have hleft : left - s.step.1 ≤ 0 := hl
    refine ⟨0, runFor_of_nonpos s hl elapsed, ?_⟩
    rw [steps_one]
    omega
  | case2 left elapsed s r hl ih =>
    obtain ⟨k, hrun, hused, hover⟩ := ih
    have hleft : ¬ left - s.step.1 ≤ 0 := hl
    have hsum : (steps (k + 1 + 1) s).1 = s.step.1 + (steps (k + 1) s.step.2).1 := rfl
    have hlast : (steps (k + 1 + 1) s).2 = (steps (k + 1) s.step.2).2 := rfl
    dsimp only [r] at hrun hused hover
    refine ⟨k + 1, ?_, by omega, by omega⟩
    rw [runFor_of_pos s hl, hrun, hlast, hsum, Nat.add_assoc]
    congr 2
    omega

/-! ## The counters of the CPU -/

theorem clock_of_frame {c c' : Cpu} (h : c.frame = c'.frame) :
    c.period = c'.period ∧ c.tStates = c'.tStates := by
  have hperiod : c.frame.period = c'.frame.period := by rw [h]
  have htStates : c.frame.tStates = c'.frame.tStates := by rw [h]
  exact ⟨hperiod, htStates⟩

theorem clock_acknowledged :
    s.acknowledged.2.cpu.period = s.cpu.period ∧ s.acknowledged.2.cpu.tStates = s.cpu.tStates := by
  simp only [acknowledged, enterService, mapRegs, Cpu.countFetch, and_self]

theorem clock_act (acceptance : Cpu.Acceptance) :
    (s.act acceptance).2.cpu.period = s.cpu.period ∧
      (s.act acceptance).2.cpu.tStates = s.cpu.tStates := by
  cases acceptance with
  | nonMaskable =>
    have hclock := clock_of_frame s.frame_acceptNonMaskable
    exact hclock
  | maskable =>
    obtain ⟨hperiod, htStates⟩ :=
      clock_of_frame (frame_enterHandler s.acknowledged.2 s.acknowledged.1)
    simp only [act, acceptMaskable_eq]
    exact ⟨hperiod.trans s.clock_acknowledged.1, htStates.trans s.clock_acknowledged.2⟩
  | none =>
    simp only [act]
    split
    · exact ⟨rfl, rfl⟩
    · -- an instruction changes no more of the frame than the interrupt mode
      obtain ⟨n, -, hframe⟩ := s.frame_instruction
      have hperiod := congrArg Cpu.period hframe
      have htStates := congrArg Cpu.tStates hframe
      exact ⟨hperiod, htStates⟩

theorem clock_step :
    s.step.2.cpu.period = s.cpu.period ∧ s.step.2.cpu.tStates = s.cpu.tStates + s.step.1 := by
  obtain ⟨hperiod, htStates⟩ := s.beginStep.clock_act s.cpu.acceptance
  exact ⟨hperiod, congrArg (· + s.step.1) htStates⟩

theorem clock_steps (k : Nat) :
    (steps k s).2.cpu.period = s.cpu.period ∧
      (steps k s).2.cpu.tStates = s.cpu.tStates + (steps k s).1 := by
  induction k generalizing s with
  | zero => exact ⟨rfl, rfl⟩
  | succ k ih =>
    obtain ⟨hperiod, htStates⟩ := s.clock_step
    obtain ⟨hperiod', htStates'⟩ := ih s.step.2
    refine ⟨hperiod'.trans hperiod, htStates'.trans ?_⟩
    rw [htStates, Nat.add_assoc]
    rfl

/-! ## One period -/

section Poll

variable [InterruptSource β]

/-- A period is some steps and a poll, and it charges what it took to the countdown. -/
structure EndsAfter (k : Nat) (s : System β) : Prop where
  elapsed : s.runPeriod.1 = (steps k s).1
  bus : s.runPeriod.2.bus = (InterruptSource.poll (steps k s).2.bus).2
  countdown : s.runPeriod.2.cpu.countdown = s.cpu.countdown - (steps k s).1 + s.cpu.period
  period : s.runPeriod.2.cpu.period = s.cpu.period
  tStates : s.runPeriod.2.cpu.tStates = s.cpu.tStates + (steps k s).1

theorem endsAfter_runPeriod : ∃ k, EndsAfter (k + 1) s ∧ s.cpu.countdown ≤ s.runPeriod.1 ∧
    (0 < s.cpu.countdown → (s.runPeriod.1 : Int) ≤ s.cpu.countdown + 22) := by
  obtain ⟨k, hrun, hused, hover⟩ := runFor_eq_steps s s.cpu.countdown 0
  obtain ⟨hperiod, htStates⟩ := s.clock_steps (k + 1)
  -- a request that is latched does not touch the counters
  have hlatch (c : Cpu) (r : InterruptRequest) :
      (c.latch r).period = c.period ∧ (c.latch r).tStates = c.tStates := by
    cases r <;> exact ⟨rfl, rfl⟩
  have helapsed : s.runPeriod.1 = (steps (k + 1) s).1 := by
    simp only [runPeriod, hrun, Nat.zero_add]
  refine ⟨k, ⟨helapsed, ?_, ?_, ?_, ?_⟩, ?_⟩
  · simp only [runPeriod, hrun]
  · simp only [runPeriod, hrun, hlatch, hperiod]
  · simp only [runPeriod, hrun, hlatch, hperiod]
  · simp only [runPeriod, hrun, hlatch, htStates]
  · rw [helapsed]
    exact ⟨hused, hover⟩

/-- The system on a bus that begins to write its calls down. -/
def traced : System (Traced β) :=
  { cpu := s.cpu, bus := { bus := s.bus }, undefined := s.undefined }

/-- The calls on the bus during the next period. -/
def periodCalls : List BusCall := s.traced.runPeriod.2.bus.calls

-- Steps do not poll, as instructions and acknowledge cycles have no way to.
theorem periodCalls_eq : ∃ calls, s.periodCalls = calls ++ [.poll] ∧ .poll ∉ calls := by
  have hcall (c : BusCall) (t : Traced β) (hc : c ≠ .poll) (ht : .poll ∉ t.calls) :
      .poll ∉ (t.call c).calls := by
    show .poll ∉ t.calls ++ [c]
    rw [List.mem_append, List.mem_singleton]
    exact not_or.mpr ⟨ht, hc.symm⟩
  have hstep (r : System (Traced β)) (hr : .poll ∉ r.bus.calls) : .poll ∉ r.step.2.bus.calls :=
    step_keeps (P := fun t => .poll ∉ t.calls) (Traced.accessKeeps fun c t _ hc => hcall c t hc)
      (fun t => hcall .acknowledge t (by simp)) r hr
  exact ⟨_, rfl, runFor_keeps (P := fun r => .poll ∉ r.bus.calls) hstep s.cpu.countdown 0 s.traced
    (by simp [traced])⟩

-- The calls written down are those that the bus goes through.
theorem replay_periodCalls : replay s.periodCalls s.bus = s.runPeriod.2.bus := by
  have hfrom : s.traced.runPeriod.2.bus.From s.bus :=
    runPeriod_keeps (P := Traced.From s.bus) (fun c _ ht => ht.call c) s.traced rfl
  have herase := congrArg System.bus s.traced.runPeriod_erase
  exact hfrom.symm.trans herase

/-! ## Many periods -/

/-- The T-states of some periods, and the system behind them. -/
def periods : Nat → System β → Nat × System β
  | 0, s => (0, s)
  | n + 1, s => ((periods n s).1 + (periods n s).2.runPeriod.1, (periods n s).2.runPeriod.2)

/-- What holds behind `n` periods of `p` T-states each: the countdown lacks what has been overshot
so far, which is less than a step, and all else is accounted for. -/
structure OnTime (p : Int) (n elapsed : Nat) (s : System β) : Prop where
  period : s.cpu.period = p
  elapsed : (elapsed : Int) = n * p + (p - s.cpu.countdown)
  early : s.cpu.countdown ≤ p
  late : p ≤ s.cpu.countdown + 22

theorem OnTime.runPeriod {p : Int} {n elapsed : Nat} {s : System β} (h : OnTime p n elapsed s)
    (hp : 23 ≤ p) : OnTime p (n + 1) (elapsed + s.runPeriod.1) s.runPeriod.2 := by
  obtain ⟨hperiod, helapsed, hearly, hlate⟩ := h
  obtain ⟨k, hend, hused, hover⟩ := s.endsAfter_runPeriod
  have hcountdown := hend.countdown
  rw [← hend.elapsed, hperiod] at hcountdown
  have hnext : ((n + 1 : Nat) : Int) * p = n * p + p := by
    rw [Int.natCast_add, Int.add_mul]
    omega
  refine ⟨hend.period.trans hperiod, ?_, ?_, ?_⟩
  · rw [hnext]
    omega
  · omega
  · omega

theorem onTime_periods {p : Int} (hp : 23 ≤ p) (hperiod : s.cpu.period = p)
    (hcountdown : s.cpu.countdown = p) (n : Nat) : OnTime p n (s.periods n).1 (s.periods n).2 := by
  induction n with
  | zero =>
    show OnTime p 0 0 s
    exact ⟨hperiod, by omega, by omega, by omega⟩
  | succ n ih => exact ih.runPeriod hp

theorem tStates_periods (n : Nat) :
    (s.periods n).2.cpu.tStates = s.cpu.tStates + (s.periods n).1 := by
  induction n with
  | zero => rfl
  | succ n ih =>
    obtain ⟨k, hend, -⟩ := (s.periods n).2.endsAfter_runPeriod
    refine hend.tStates.trans ?_
    rw [ih, ← hend.elapsed, Nat.add_assoc]
    rfl

/-- A CPU at the beginning of a period of at least 23 T-states runs on time for ever, whatever the
program does and the bus answers. Each period ends, after finitely many steps, with its only poll;
`n` of them take `n * p` T-states and what the last step overshoots, at most 22. -/
theorem periods_exact {p : Int} (hp : 23 ≤ p) (hperiod : s.cpu.period = p)
    (hcountdown : s.cpu.countdown = p) (n : Nat) :
    (∀ r : System β, 4 ≤ r.step.1 ∧ r.step.1 ≤ 23) ∧
      (∀ i < n, ∃ k, EndsAfter (k + 1) (s.periods i).2) ∧
      (∀ i < n, ∃ calls, (s.periods i).2.periodCalls = calls ++ [.poll] ∧ .poll ∉ calls ∧
        replay (calls ++ [.poll]) (s.periods i).2.bus = (s.periods (i + 1)).2.bus) ∧
      n * p ≤ (s.periods n).1 ∧ ((s.periods n).1 : Int) ≤ n * p + 22 ∧
      ((s.periods n).1 : Int) = n * p + p - (s.periods n).2.cpu.countdown ∧
      (s.periods n).2.cpu.tStates = s.cpu.tStates + (s.periods n).1 := by
  obtain ⟨-, helapsed, hearly, hlate⟩ := s.onTime_periods hp hperiod hcountdown n
  refine ⟨step_cost, fun i _ => ?_, fun i _ => ?_, by omega, by omega, by omega,
    s.tStates_periods n⟩
  · obtain ⟨k, hend, -⟩ := (s.periods i).2.endsAfter_runPeriod
    exact ⟨k, hend⟩
  · obtain ⟨calls, hcalls, hpoll⟩ := (s.periods i).2.periodCalls_eq
    refine ⟨calls, hcalls, hpoll, ?_⟩
    rw [← hcalls]
    exact (s.periods i).2.replay_periodCalls

/-- The CPU as it is after power-on, with the period of a scanline, over a frame. -/
theorem periods_exact_frame :
    let s : System FlatBus := { cpu := {}, bus := {} }
    (23 : Int) ≤ 256 ∧ s.cpu.period = 256 ∧ s.cpu.countdown = 256 ∧
      312 * 256 ≤ (s.periods 312).1 ∧ (s.periods 312).1 ≤ 312 * 256 + 22 ∧
      (s.periods 312).2.cpu.tStates = (s.periods 312).1 := by
  intro s
  have hperiod : s.cpu.period = 256 := rfl
  have hcountdown : s.cpu.countdown = 256 := rfl
  obtain ⟨-, -, -, hmin, hmax, -, htStates⟩ :=
    s.periods_exact (by decide : (23 : Int) ≤ 256) hperiod hcountdown 312
  refine ⟨by decide, hperiod, hcountdown, by omega, by omega, ?_⟩
  rw [htStates]
  exact Nat.zero_add _

end Poll

end System

end AmstradCpc.Z80
