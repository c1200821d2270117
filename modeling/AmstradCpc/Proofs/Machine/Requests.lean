import AmstradCpc.Proofs.Machine.SnapshotRoundTrip
import AmstradCpc.Proofs.Mainboard.Devices
import AmstradCpc.Proofs.Z80.Calls

/-!
# Requests and acknowledge cycles

A maskable request is kept twice: by the Gate Array, which makes it, and by the CPU, which latches it
at the end of a scanline. A program can withdraw the request in between, by a ROM configuration with
bit 4, but the CPU hears of that no earlier than at the end of the scanline.

So an acknowledge cycle finds the request still up just when nothing has withdrawn it since the last
poll (`Machine.acknowledge_requested_iff`).
-/

namespace AmstradCpc

open Z80 (BusCall Traced replay)

/-! ## Withdrawals -/

/-- The call makes the Gate Array take its request back. -/
def Z80.BusCall.withdraws : BusCall → Bool
  | .output port v => Mainboard.low port 0x8000 && v >>> 6 == 2 && v &&& 0x10 != 0
  | _ => false

/-- Whether a request has been withdrawn since the last poll. -/
def withdrawn (calls : List BusCall) : Bool :=
  calls.foldl (fun before c => if c = .poll then false else before || c.withdraws) false

theorem withdrawn_concat (calls : List BusCall) (c : BusCall) :
    withdrawn (calls ++ [c]) = if c = .poll then false else withdrawn calls || c.withdraws := by
  unfold withdrawn
  rw [List.foldl_append]
  rfl

theorem GateArray.intRequest_write (v : UInt8) (ga : GateArray) :
    (ga.write v).2.intRequest = (ga.intRequest && !(v >>> 6 == 2 && v &&& 0x10 != 0)) := by
  -- of the five kinds of write only the fourth one touches the request
  rcases ga.write_cases v with ⟨h, hw⟩ | ⟨h, hw⟩ | ⟨h, hv, hw⟩ | ⟨h, hv, hw⟩ | ⟨h, hw⟩ <;>
    rw [hw, h]
  · simp
  · simp
  · simp [hv]
  · simp [hv]
  · simp

/-- Between two polls only a withdrawal takes the request down, apart from the acknowledge. -/
theorem Mainboard.intRequest_apply (b : Mainboard) {c : BusCall} (hack : c ≠ .acknowledge)
    (hpoll : c ≠ .poll) :
    (c.apply b).gateArray.intRequest = (b.gateArray.intRequest && !c.withdraws) := by
  cases c with
  | read a => exact (Bool.and_true _).symm
  | write a v => exact (Bool.and_true _).symm
  | input port =>
    show (b.input port).2.gateArray.intRequest = _
    rw [Mainboard.gateArray_input]
    exact (Bool.and_true _).symm
  | output port v =>
    show (b.output port v).gateArray.intRequest = _
    rw [Mainboard.gateArray_output]
    cases hl : Mainboard.low port 0x8000 with
    | false => simp [BusCall.withdraws, hl]
    | true =>
      rw [if_pos rfl, GateArray.intRequest_write]
      simp [BusCall.withdraws, hl]
  | acknowledge => exact absurd rfl hack
  | poll => exact absurd rfl hpoll

/-! ## Calls in step with the board -/

/-- The request is up unless it has been withdrawn. -/
def Tracks (t : Traced Mainboard) : Prop := t.bus.gateArray.intRequest = !withdrawn t.calls

theorem Tracks.call {t : Traced Mainboard} (h : Tracks t) {c : BusCall} (hack : c ≠ .acknowledge)
    (hpoll : c ≠ .poll) : Tracks (t.call c) := by
  show (c.apply t.bus).gateArray.intRequest = !withdrawn (t.calls ++ [c])
  rw [Mainboard.intRequest_apply _ hack hpoll, withdrawn_concat, if_neg hpoll, h, Bool.not_or]

-- An element of a list with one more is the last one, or in the list already.
theorem split_concat {α : Type} {calls before after : List α} {c x : α}
    (h : calls ++ [c] = before ++ x :: after) :
    (calls = before ∧ c = x) ∨ ∃ rest, calls = before ++ x :: rest := by
  rcases List.eq_nil_or_concat after with rfl | ⟨rest, last, rfl⟩
  · exact .inl (List.append_singleton_inj.mp h)
  · rw [List.concat_eq_append, ← List.cons_append, ← List.append_assoc] at h
    exact .inr ⟨rest, List.append_inj_left' h rfl⟩

/-- Every acknowledge cycle so far has found the request up just when nothing had withdrawn it. -/
structure Answered (b : Mainboard) (t : Traced Mainboard) : Prop where
  start : t.From b
  found : ∀ before after, t.calls = before ++ .acknowledge :: after →
    ((replay before b).gateArray.intRequest = true ↔ withdrawn before = false)

namespace Answered

variable {b : Mainboard} {t : Traced Mainboard}

theorem call (h : Answered b t) {c : BusCall} (hack : c ≠ .acknowledge) : Answered b (t.call c) where
  start := h.start.call c
  found before after hcalls := by
    rcases split_concat hcalls with ⟨-, hc⟩ | ⟨rest, hcalls⟩
    · exact absurd hc hack
    · exact h.found before rest hcalls

theorem acknowledge (h : Answered b t) (htracks : Tracks t) : Answered b (t.call .acknowledge) where
  start := h.start.call .acknowledge
  found before after hcalls := by
    rcases split_concat hcalls with ⟨hbefore, -⟩ | ⟨rest, hcalls⟩
    · -- what this cycle finds is the board after the calls so far
      have hstart : t.bus = replay t.calls b := h.start
      rw [← hbefore, ← hstart, htracks, Bool.not_eq_true']
    · exact h.found before rest hcalls

end Answered

/-! ## Scanlines -/

/-- What holds between two steps: a request that the CPU has latched is up, unless it has been
withdrawn. -/
structure Following (b : Mainboard) (s : Z80.System (Traced Mainboard)) : Prop where
  answered : Answered b s.bus
  tracks : s.cpu.intPending = true → Tracks s.bus

namespace Following

variable {b : Mainboard} {s : Z80.System (Traced Mainboard)}

theorem step (h : Following b s) : Following b s.step.2 := by
  have hpending := s.intPending_step
  by_cases hacc : s.cpu.acceptance = .maskable
  · -- the request is latched, so what the acknowledge finds is known; then it is latched no more
    have hlatched : s.cpu.intPending = true := by
      unfold Z80.Cpu.acceptance at hacc
      grind
    have hkeeps : Z80.System.AccessKeeps (Answered b) :=
      Traced.accessKeeps fun _ _ hack _ ht => ht.call hack
    refine ⟨Z80.System.step_keeps_of_maskable hkeeps hacc
      (h.answered.acknowledge (h.tracks hlatched)), ?_⟩
    intro hp
    simp [hpending, hacc] at hp
  · -- the step makes accesses only, and latches nothing
    have hkeeps : Z80.System.AccessKeeps fun t => Answered b t ∧ (s.cpu.intPending = true → Tracks t) :=
      Traced.accessKeeps fun _ _ hack hpoll ht =>
        ⟨ht.1.call hack, fun hp => (ht.2 hp).call hack hpoll⟩
    obtain ⟨hanswered, htracks⟩ :=
      Z80.System.step_keeps_of_not_maskable hkeeps hacc ⟨h.answered, h.tracks⟩
    refine ⟨hanswered, fun hp => htracks ?_⟩
    rw [hpending] at hp
    exact (Bool.and_eq_true_iff.mp hp).1

end Following

namespace Machine

/-- A scanline on a board whose calls are written down. -/
def tracedLine (s : Z80.System (Traced Mainboard)) : Z80.System (Traced Mainboard) :=
  { s.runPeriod.2 with cpu := (dropStaleRequest (s.runPeriod.2.map Traced.bus)).cpu }

def tracedLines : Nat → Z80.System (Traced Mainboard) → Z80.System (Traced Mainboard)
  | 0, s => s
  | n + 1, s => tracedLines n (tracedLine s)

/-- The calls on the bus during the next frame. -/
def frameCalls (m : Machine) : List BusCall :=
  (tracedLines linesPerFrame { m.processKeys.system with bus := { bus := m.processKeys.board } }).bus.calls

-- Writing the calls down changes nothing.
theorem tracedLine_erase (s : Z80.System (Traced Mainboard)) :
    (tracedLine s).map Traced.bus = runLine (s.map Traced.bus) := by
  -- dropping a request changes the CPU and nothing else
  have hdrop (r : Z80.System Mainboard) :
      { r with cpu := (dropStaleRequest r).cpu } = dropStaleRequest r := by
    unfold dropStaleRequest
    split <;> rfl
  unfold runLine
  rw [← Z80.System.runPeriod_erase]
  exact hdrop (s.runPeriod.2.map Traced.bus)

theorem tracedLines_erase (n : Nat) (s : Z80.System (Traced Mainboard)) :
    (tracedLines n s).map Traced.bus = runLines n (s.map Traced.bus) := by
  induction n generalizing s with
  | zero => rfl
  | succ n ih =>
    show (tracedLines n (tracedLine s)).map Traced.bus = runLines n (runLine (s.map Traced.bus))
    rw [ih, tracedLine_erase]

-- What every call keeps holds after any scanlines.
theorem tracedLines_keeps {P : Traced Mainboard → Prop} (h : ∀ c t, P t → P (t.call c)) (n : Nat)
    {s : Z80.System (Traced Mainboard)} (hs : P s.bus) : P (tracedLines n s).bus := by
  induction n generalizing s with
  | zero => exact hs
  | succ n ih => exact ih (Z80.System.runPeriod_keeps h s hs)

theorem following_tracedLine {b : Mainboard} {s : Z80.System (Traced Mainboard)}
    (h : Following b s) : Following b (tracedLine s) := by
  have hrun := Z80.System.runFor_keeps (fun _ hr => Following.step hr) s.cpu.countdown 0 s h
  refine ⟨hrun.answered.call (by simp : BusCall.poll ≠ .acknowledge), fun hp => ?_⟩
  -- behind the poll nothing is withdrawn, and what is still latched the Gate Array requests
  have hstep : InStep ((tracedLine s).map Traced.bus) := by
    rw [tracedLine_erase]
    exact inStep_runLine _
  have hup : (tracedLine s).bus.bus.gateArray.intRequest = true := by
    rw [← hp]
    exact hstep.symm
  have hpoll : (tracedLine s).bus.calls = _ ++ [.poll] := rfl
  unfold Tracks
  rw [hup, hpoll, withdrawn_concat, if_pos rfl]
  rfl

theorem following_tracedLines {b : Mainboard} (n : Nat) {s : Z80.System (Traced Mainboard)}
    (h : Following b s) : Following b (tracedLines n s) := by
  induction n generalizing s with
  | zero => exact h
  | succ n ih => exact ih (following_tracedLine h)

/-! ## Frames -/

/-- A request that can be taken when a frame begins is acknowledged before anything else. -/
theorem frameCalls_of_maskable {m : Machine} (h : m.cpu.acceptance = .maskable) :
    ∃ after, m.frameCalls = .acknowledge :: after := by
  let start : Z80.System (Traced Mainboard) :=
    { m.processKeys.system with bus := { bus := m.processKeys.board } }
  have hgrows (c : BusCall) (t : Traced Mainboard) (ht : [.acknowledge] <+: t.calls) :
      [.acknowledge] <+: (t.call c).calls :=
    ht.trans (Traced.prefix_call c t)
  -- it is the first call of the first step, and later calls go behind it
  have hfirst : [.acknowledge] <+: start.step.2.bus.calls :=
    Z80.System.step_keeps_of_maskable (Traced.accessKeeps fun c t _ _ => hgrows c t)
      (s := start) h (List.prefix_refl _)
  have hline : [.acknowledge] <+: (tracedLine start).bus.calls :=
    Z80.System.runPeriod_keeps_of_step hgrows start hfirst
  obtain ⟨after, hafter⟩ : [.acknowledge] <+: m.frameCalls := tracedLines_keeps hgrows 311 hline
  exact ⟨after, hafter.symm⟩

/-- A frame leaves the board that its calls lead to, and each of its acknowledge cycles finds the
request up just when the program has not withdrawn it since the last poll. -/
theorem acknowledge_requested_iff {config : Config} {m : Machine} (h : Reachable config m)
    (now : Nat) :
    (m.tick now).2.board = replay m.frameCalls m.processKeys.board ∧
      ∀ before after, m.frameCalls = before ++ .acknowledge :: after →
        ((replay before m.processKeys.board).gateArray.intRequest = true ↔
          withdrawn before = false) := by
  let start : Z80.System (Traced Mainboard) :=
    { m.processKeys.system with bus := { bus := m.processKeys.board } }
  -- a frame begins with no calls, and with the CPU and the Gate Array in step
  have hinStep : m.cpu.intPending = m.board.gateArray.intRequest := h.sound.inStep
  have hstart : Following m.processKeys.board start := by
    refine ⟨⟨rfl, fun before after hcalls => ?_⟩, fun hp => ?_⟩
    · cases before <;> cases hcalls
    · show m.board.gateArray.intRequest = true
      rw [← hinStep]
      exact hp
  have hframe := following_tracedLines linesPerFrame hstart
  have herase := congrArg Z80.System.bus (tracedLines_erase linesPerFrame start)
  refine ⟨?_, hframe.answered.found⟩
  have hboard : (m.tick now).2.board = (runLines linesPerFrame m.processKeys.system).bus :=
    (tick_system now m).2.1
  exact hboard.trans (herase.symm.trans hframe.answered.start)

/-- A machine that was saved with a request up acknowledges it at once when it is loaded and run. -/
theorem acknowledge_requested_iff_loaded : ∃ m after,
    Reachable { model := .cpc464, systemRom := ⟨Array.replicate 0x8000 0⟩ } m ∧
      m.frameCalls = .acknowledge :: after ∧ m.processKeys.board.gateArray.intRequest = true := by
  obtain ⟨built, hbuilt⟩ : ∃ m, Machine.build
      { model := .cpc464, systemRom := ⟨Array.replicate 0x8000 0⟩ } = .ok m :=
    exists_build (Nat.le_refl 64) (by decide) (by decide) Array.size_replicate (by simp)
  have hr := Reachable.build hbuilt
  -- the snapshot of a machine that may be interrupted, with the request up
  let s : Snapshot :=
    { built.capture with cpu := { built.capture.cpu with iff1 := true }, intRequest := true }
  have hload := hr.sound.loadSna_toBytes hr.ramKb.2.1 (s := s) rfl hr.sound.im_and
    hr.sound.valid.board.ramSize
  have hm := hr.loadSna hload
  have hacc (m : Machine) : (m.restore s).cpu.acceptance = .maskable := rfl
  obtain ⟨after, hcalls⟩ := frameCalls_of_maskable (hacc _)
  refine ⟨_, after, hm, hcalls, ?_⟩
  exact ((acknowledge_requested_iff hm 0).2 [] after hcalls).mpr rfl

end Machine

end AmstradCpc
