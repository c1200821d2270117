import AmstradCpc.Proofs.Machine.Scanlines
import AmstradCpc.Proofs.Z80.Halting

/-!
# What a frame raises

A frame polls the bus 312 times, once in each scanline. That makes room for six interrupts and for
one vertical sync, however the program acknowledges them and wherever it restarts the line counter;
and as 312 is six times 52, a frame in which nothing sets the counter back has all of them and ends
with the counters where they were (`Machine.tick_raises`).
-/

namespace AmstradCpc

open Z80 (BusCall Traced replay)

namespace Machine

/-! ## The calls of a frame -/

theorem board_tick (now : Nat) (m : Machine) :
    (m.tick now).2.board = replay m.frameCalls m.processKeys.board := by
  let start : Z80.System (Traced Mainboard) :=
    { m.processKeys.system with bus := { bus := m.processKeys.board } }
  have hfrom : (tracedLines linesPerFrame start).bus.From m.processKeys.board :=
    tracedLines_keeps (P := Traced.From m.processKeys.board) (fun c _ ht => ht.call c) _ rfl
  have herase := congrArg Z80.System.bus (tracedLines_erase linesPerFrame start)
  have hboard : (m.tick now).2.board = (runLines linesPerFrame m.processKeys.system).bus :=
    (tick_system now m).2.1
  exact hboard.trans (herase.symm.trans hfrom)

-- Steps do not poll, and the scanline ends with a poll.
theorem polls_tracedLine (s : Z80.System (Traced Mainboard)) :
    (tracedLine s).bus.calls.count .poll = s.bus.calls.count .poll + 1 := by
  let P (t : Traced Mainboard) : Prop := t.calls.count .poll = s.bus.calls.count .poll
  have hcall (c : BusCall) (t : Traced Mainboard) (hc : c ≠ .poll) (ht : P t) : P (t.call c) := by
    show (t.calls ++ [c]).count .poll = _
    have hnone : [c].count .poll = 0 := List.count_eq_zero_of_not_mem (by simpa using hc.symm)
    rw [List.count_append, hnone]
    exact ht
  have hstep (r : Z80.System (Traced Mainboard)) (hr : P r.bus) : P r.step.2.bus :=
    Z80.System.step_keeps (Traced.accessKeeps fun c t _ hc => hcall c t hc)
      (fun t => hcall .acknowledge t (by simp)) r hr
  have hrun := Z80.System.runFor_keeps (P := fun r => P r.bus) hstep s.cpu.countdown 0 s rfl
  show (_ ++ [BusCall.poll]).count .poll = _
  rw [List.count_append, hrun]
  rfl

theorem polls_tracedLines (n : Nat) (s : Z80.System (Traced Mainboard)) :
    (tracedLines n s).bus.calls.count .poll = s.bus.calls.count .poll + n := by
  induction n generalizing s with
  | zero => rfl
  | succ n ih =>
    show (tracedLines n (tracedLine s)).bus.calls.count .poll = _
    rw [ih, polls_tracedLine, Nat.add_assoc, Nat.add_comm 1]

theorem polls_frameCalls (m : Machine) : m.frameCalls.count .poll = 312 := by
  unfold frameCalls
  rw [polls_tracedLines]
  rfl

/-- The report has the counts before the frame taken off those behind it. -/
theorem report_tick (now : Nat) (m : Machine) :
    (m.tick now).1.interrupts = (m.tick now).2.board.interrupts - m.processKeys.board.interrupts ∧
      (m.tick now).1.vsyncGroups =
        (m.tick now).2.board.vsyncGroups - m.processKeys.board.vsyncGroups := ⟨rfl, rfl⟩

/-! ## Machines of a host -/

/-- The machines that a host can get, whatever it does: beside its actions it can exchange the memory
and make calls on the bus, load the Gate Array, and change all else at will. -/
inductive Hosted : Machine → Prop
  | build {config : Config} {m : Machine} (h : Machine.build config = .ok m) : Hosted m
  | act {m : Machine} (h : Hosted m) (a : Action) : Hosted (a.apply m)
  | rebuild {config : Config} {m m' : Machine} (h : Hosted m) (hm : m.rebuild config = .ok m') :
      Hosted m'
  | call {m : Machine} (h : Hosted m) (c : BusCall) : Hosted (m.mapBoard c.apply)
  | restoreGateArray {m : Machine} (h : Hosted m) (pen : UInt8) (inks : Vector UInt8 17)
      (romConfig ramConfig lineCounter : UInt8) (intRequest : Bool) :
      Hosted (m.mapBoard fun b => { b with
        gateArray := b.gateArray.restore pen inks romConfig ramConfig lineCounter intRequest })
  | elsewhere {m m' : Machine} (h : Hosted m) (hga : m'.board.gateArray = m.board.gateArray) :
      Hosted m'

theorem Reachable.hosted {config : Config} {m : Machine} (h : Reachable config m) : Hosted m := by
  induction h with
  | build h => exact .build h
  | act _ a ih => exact .act ih a

theorem gateArray_apply {m : Machine} (h : m.board.gateArray.Valid) (a : Action) :
    (a.apply m).board.gateArray.Valid := by
  rcases a.apply_cases m with ⟨now, ha⟩ | ha | ⟨s, notices, -, -, ha⟩ | ⟨_, _, _, _, ha⟩ <;> rw [ha]
  · rw [board_tick]
    exact (tally (b := m.processKeys.board) h 0 m.frameCalls).valid
  · exact GateArray.valid_powerOn
  · -- a machine is reset before it is brought into the state of a snapshot
    exact GateArray.valid_restore GateArray.valid_powerOn ..
  · exact h

theorem Hosted.valid {m : Machine} (h : Hosted m) : m.board.gateArray.Valid := by
  induction h with
  | build h => exact (build_ok h).2.2.2.valid.board.gateArray
  | act _ a ih => exact gateArray_apply ih a
  | rebuild _ hm =>
    obtain ⟨mem, -, hm⟩ := bind_ok hm
    cases hm
    exact GateArray.valid_powerOn
  | @call m _ c ih => exact (tally (b := m.board) ih 0 [c]).valid
  | restoreGateArray _ => exact GateArray.valid_restore ‹_› ..
  | elsewhere _ hga ih =>
    rw [hga]
    exact ih

/-! ## Idle CPUs -/

-- A CPU that is asleep behind the first step of a scanline is so at its end.
theorem asleep_runLine {s : Z80.System Mainboard} (h : s.step.2.Asleep) : (runLine s).Asleep := by
  have hrun := Z80.System.runFor_keeps_of_step (fun _ hr => Z80.System.Asleep.step hr)
    s.cpu.countdown 0 s h
  obtain ⟨hregs, hnmi, -⟩ := runLine_end s
  exact ⟨hregs ▸ hrun.halted, hregs ▸ hrun.iff1, hnmi ▸ hrun.nmiPending⟩

/-- The CPU is asleep, and nothing but polls has been called so far. -/
structure Idle (s : Z80.System (Traced Mainboard)) : Prop where
  asleep : (s.map Traced.bus).Asleep
  polls : ∀ c ∈ s.bus.calls, c = .poll

theorem Idle.step {s : Z80.System (Traced Mainboard)} (h : Idle s) : Idle s.step.2 := by
  have hasleep := h.asleep.step
  rw [Z80.System.step_map] at hasleep
  refine ⟨hasleep, ?_⟩
  -- a CPU that is asleep calls nothing
  have hs : s.Asleep := ⟨h.asleep.halted, h.asleep.iff1, h.asleep.nmiPending⟩
  rw [hs.step_eq]
  exact h.polls

theorem Idle.tracedLine {s : Z80.System (Traced Mainboard)} (h : Idle s) : Idle (tracedLine s) := by
  have hrun := Z80.System.runFor_keeps (fun _ hr => Idle.step hr) s.cpu.countdown 0 s h
  constructor
  · rw [tracedLine_erase]
    exact asleep_runLine h.asleep.step
  · -- the scanline ends with a poll
    intro c hc
    rcases List.mem_append.mp hc with hc | hc
    · exact hrun.polls c hc
    · exact List.mem_singleton.mp hc

theorem Idle.tracedLines {s : Z80.System (Traced Mainboard)} (h : Idle s) (n : Nat) :
    Idle (tracedLines n s) := by
  induction n generalizing s with
  | zero => exact h
  | succ n ih => exact ih h.tracedLine

theorem undisturbed_of_idle {m : Machine} (hhalted : m.cpu.regs.halted = true)
    (hiff1 : m.cpu.regs.iff1 = false) (hnmi : m.cpu.nmiPending = false) :
    Undisturbed m.frameCalls m.processKeys.board := by
  let start : Z80.System (Traced Mainboard) :=
    { m.processKeys.system with bus := { bus := m.processKeys.board } }
  have hstart : Idle start := ⟨⟨hhalted, hiff1, hnmi⟩, fun c hc => by cases hc⟩
  have hpolls : ∀ c ∈ m.frameCalls, c = .poll := (hstart.tracedLines linesPerFrame).polls
  intro before c after hcalls
  have hmem : c ∈ m.frameCalls := by
    rw [hcalls]
    exact List.mem_append_right _ List.mem_cons_self
  rw [hpolls c hmem]
  rfl

/-! ## Frames -/

/-- A frame counts 312 scanlines, raises six interrupts at most, any two of them 52 scanlines apart,
and begins one vertical sync at most. If nothing sets the line counter back it raises all six, begins
the vertical sync, and leaves the counters where they were. -/
theorem tick_raises {m : Machine} (h : Hosted m) (now : Nat) :
    let board := m.processKeys.board
    let raised := raises 0 m.frameCalls board
    ((m.tick now).2.board = replay m.frameCalls board ∧ m.frameCalls.count .poll = 312) ∧
      ((m.tick now).1.interrupts = raised.length ∧ raised.length ≤ 6) ∧
      raised.Pairwise (fun r later => r.line + 52 ≤ later.line) ∧
      ((m.tick now).1.vsyncGroups = vsyncs raised ∧ vsyncs raised ≤ 1) ∧
      (Undisturbed m.frameCalls board →
        (m.tick now).1.interrupts = 6 ∧ (m.tick now).1.vsyncGroups = 1 ∧
          (m.tick now).2.board.gateArray.lineCounter = m.board.gateArray.lineCounter ∧
          (m.tick now).2.board.gateArray.group = m.board.gateArray.group) := by
  intro board raised
  have hvalid : board.gateArray.Valid := h.valid
  have hboard : (m.tick now).2.board = replay m.frameCalls board := board_tick now m
  have hpolls := m.polls_frameCalls
  have htally := tally hvalid 0 m.frameCalls
  have hlines := htally.lines_le
  have hgroups := htally.group
  have hinterrupts := htally.interrupts
  have hvsyncs := htally.vsyncGroups
  have hbegun := hvalid.lineCounter
  have hgroup := hvalid.group
  have hgroup' := htally.valid.group
  rw [hpolls] at hlines
  -- 51 lines before the frame and 312 in it do not make 7 times 52
  have hsix : raised.length ≤ 6 := by
    show (raises 0 m.frameCalls board).length ≤ 6
    omega
  have hone : vsyncs raised ≤ 1 := by
    have : (raises 0 m.frameCalls board).length ≤ 6 := hsix
    show vsyncs (raises 0 m.frameCalls board) ≤ 1
    omega
  obtain ⟨hreport, hreport'⟩ := m.report_tick now
  rw [hboard, hinterrupts] at hreport
  rw [hboard, hvsyncs] at hreport'
  have hcount : (m.tick now).1.interrupts = raised.length :=
    hreport.trans (Nat.add_sub_cancel_left ..)
  have hcount' : (m.tick now).1.vsyncGroups = vsyncs raised :=
    hreport'.trans (Nat.add_sub_cancel_left ..)
  refine ⟨⟨hboard, hpolls⟩, ⟨hcount, hsix⟩, htally.spaced, ⟨hcount', hone⟩, fun hcalm => ?_⟩
  have hexact := htally.lines_eq hcalm
  have hended := htally.valid.lineCounter
  rw [hpolls] at hexact
  have hall : (raises 0 m.frameCalls board).length = 6 := by omega
  have hsync : vsyncs (raises 0 m.frameCalls board) = 1 := by omega
  refine ⟨hcount.trans hall, hcount'.trans hsync, ?_, ?_⟩
  · rw [hboard]
    refine UInt8.toNat_inj.mp ?_
    show (replay m.frameCalls board).gateArray.lineCounter.toNat = board.gateArray.lineCounter.toNat
    omega
  · rw [hboard]
    refine UInt8.toNat_inj.mp ?_
    show (replay m.frameCalls board).gateArray.group.toNat = board.gateArray.group.toNat
    omega

/-- A machine that idles with interrupts disabled, the line counter 51 lines ahead: its first scanline
raises an interrupt, and it has the six of a frame all the same. -/
theorem tick_raises_idle : ∃ m,
    Hosted m ∧ m.board.gateArray.lineCounter = 51 ∧ Undisturbed m.frameCalls m.processKeys.board ∧
      (m.tick 0).1.interrupts = 6 ∧ (m.tick 0).1.vsyncGroups = 1 ∧
      (m.tick 0).2.board.gateArray.lineCounter = 51 := by
  obtain ⟨built, hbuilt⟩ : ∃ m, Machine.build
      { model := .cpc464, systemRom := ⟨Array.replicate 0x8000 0⟩ } = .ok m :=
    exists_build (Nat.le_refl 64) (by decide) (by decide) Array.size_replicate (by simp)
  let board := { built.board with
    gateArray := built.board.gateArray.restore 0 (.replicate 17 0) 0 0 51 false }
  let m : Machine := { built with system := { cpu := { regs := { halted := true } }, bus := board } }
  have hm : Hosted m :=
    .elsewhere (.restoreGateArray (.build hbuilt) 0 (.replicate 17 0) 0 0 51 false) rfl
  have hline : m.board.gateArray.lineCounter = 51 := rfl
  have hcalm : Undisturbed m.frameCalls m.processKeys.board := undisturbed_of_idle rfl rfl rfl
  obtain ⟨-, -, -, -, hall⟩ := tick_raises hm 0
  obtain ⟨hinterrupts, hvsyncs, hend, -⟩ := hall hcalm
  exact ⟨m, hm, hline, hcalm, hinterrupts, hvsyncs, hend.trans hline⟩

end Machine

end AmstradCpc
