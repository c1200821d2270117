import AmstradCpc.Proofs.Machine.Requests

/-!
# Scanlines and the interrupts they raise

The Gate Array raises an interrupt when its line counter reaches 52. A scanline takes the counter up
by one and nothing else takes it up, so 52 scanlines at least lie between two interrupts, and the
counter, together with 52 lines for each interrupt, never gets ahead of the scanlines that were
counted (`lineCounter_replay_le`). It keeps up with them as long as nothing sets it back
(`lineCounter_replay_eq`).
-/

namespace AmstradCpc

open Z80 (BusCall replay)

/-! ## The line counter -/

namespace GateArray

theorem lineCounter_write_le (v : UInt8) (ga : GateArray) :
    (ga.write v).2.lineCounter.toNat ≤ ga.lineCounter.toNat := by
  -- of the five kinds of write only the fourth one touches the counter
  rcases ga.write_cases v with ⟨-, hw⟩ | ⟨-, hw⟩ | ⟨-, -, hw⟩ | ⟨-, -, hw⟩ | ⟨-, hw⟩
  case inr.inr.inr.inl =>
    rw [hw]
    exact Nat.zero_le _
  all_goals exact Nat.le_of_eq (congrArg (fun w => w.2.lineCounter.toNat) hw)

theorem lineCounter_write_eq {v : UInt8} (h : (v >>> 6 == 2 && v &&& 0x10 != 0) = false)
    (ga : GateArray) : (ga.write v).2.lineCounter = ga.lineCounter := by
  rcases ga.write_cases v with ⟨-, hw⟩ | ⟨-, hw⟩ | ⟨-, -, hw⟩ | ⟨hv, hv', hw⟩ | ⟨-, hw⟩ <;> rw [hw]
  simp [hv, hv'] at h

theorem group_write (v : UInt8) (ga : GateArray) : (ga.write v).2.group = ga.group := by
  rcases ga.write_cases v with ⟨-, hw⟩ | ⟨-, hw⟩ | ⟨-, -, hw⟩ | ⟨-, -, hw⟩ | ⟨-, hw⟩ <;> rw [hw]

-- Bit 5 is worth 32, so clearing it leaves the remainder by 32.
theorem toNat_lineCounter_acknowledge (ga : GateArray) :
    ga.acknowledge.lineCounter.toNat = ga.lineCounter.toNat % 32 := by
  have hmask := Nat.and_two_pow_sub_one_eq_mod ga.lineCounter.toNat 5
  show (ga.lineCounter &&& 0x1F).toNat = _
  rw [UInt8.toNat_and]
  exact hmask

/-- A scanline either takes the counter up by one, or it is the 52nd and begins the next group. -/
theorem scanline_cases {ga : GateArray} (h : ga.Valid) :
    (ga.scanline.1 = false ∧ ga.scanline.2.lineCounter.toNat = ga.lineCounter.toNat + 1 ∧
      ga.scanline.2.group = ga.group) ∨
    (ga.scanline.1 = true ∧ ga.lineCounter.toNat = 51 ∧ ga.scanline.2.lineCounter.toNat = 0 ∧
      ga.scanline.2.group.toNat = (ga.group.toNat + 1) % 6) := by
  have hlimit := h.lineCounter
  have hgroup := h.group
  have hline : (ga.lineCounter + 1).toNat = ga.lineCounter.toNat + 1 := by
    rw [UInt8.toNat_add]
    show (ga.lineCounter.toNat + 1) % 256 = _
    omega
  unfold scanline
  dsimp only
  split
  case isTrue => exact .inl ⟨rfl, hline, rfl⟩
  case isFalse hlast =>
    have hreached : ¬ (ga.lineCounter + 1).toNat < 52 := hlast
    have hnext : ((ga.group + 1) % 6).toNat = (ga.group.toNat + 1) % 6 := by
      rw [UInt8.toNat_mod, UInt8.toNat_add]
      show (ga.group.toNat + 1) % 256 % 6 = _
      omega
    exact .inr ⟨rfl, by omega, rfl, hnext⟩

end GateArray

/-! ## What calls count -/

namespace Mainboard

/-- The interrupts raised and the vertical syncs begun since power-on. -/
def counts (b : Mainboard) : Nat × Nat := (b.interrupts, b.vsyncGroups)

-- A device that is visited only if its line is low
theorem counts_visit (isLow : Bool) {f : Mainboard → Mainboard} (hf : ∀ b, (f b).counts = b.counts)
    (b : Mainboard) : (if isLow then f b else b).counts = b.counts := by
  cases isLow with
  | false => rfl
  | true => exact hf b

theorem counts_writeGateArray (v : UInt8) (b : Mainboard) :
    (b.writeGateArray v).counts = b.counts := by
  unfold writeGateArray
  dsimp only
  split <;> rfl

theorem counts_writeCrtc (f v : UInt8) (b : Mainboard) : (b.writeCrtc f v).counts = b.counts := by
  unfold writeCrtc
  split <;> rfl

theorem counts_writePpi (port : PpiPort) (v : UInt8) (b : Mainboard) :
    (b.writePpi port v).counts = b.counts := by
  cases port <;> rfl

theorem counts_writeExpansion (port : UInt16) (v : UInt8) (b : Mainboard) :
    (b.writeExpansion port v).counts = b.counts := by
  unfold writeExpansion
  split
  · rfl
  · split
    · rfl
    · split <;> rfl

theorem counts_readPpi (port : PpiPort) (b : Mainboard) : (b.readPpi port).2.counts = b.counts := by
  cases port with
  | a =>
    show b.drivePortA.counts = b.counts
    unfold drivePortA
    split <;> rfl
  | b | c | control => rfl

theorem counts_readExpansion (port : UInt16) (b : Mainboard) :
    (b.readExpansion port).2.counts = b.counts := by
  unfold readExpansion
  split
  · rfl
  · split
    · rfl
    · split <;> rfl

theorem counts_output (port : UInt16) (v : UInt8) (b : Mainboard) :
    (b.output port v).counts = b.counts := by
  have hselect (b : Mainboard) : (b.writeRomSelect v).counts = b.counts := rfl
  have hprinter (b : Mainboard) : (b.writePrinter v).counts = b.counts := rfl
  unfold output
  dsimp only
  rw [counts_visit (low port 0x0400) (counts_writeExpansion port v),
    counts_visit (low port 0x0800) (counts_writePpi _ v), counts_visit (low port 0x1000) hprinter,
    counts_visit (low port 0x2000) hselect, counts_visit (low port 0x4000) (counts_writeCrtc _ v),
    counts_visit (low port 0x8000) (counts_writeGateArray v)]

theorem counts_input (port : UInt16) (b : Mainboard) : (b.input port).2.counts = b.counts := by
  have hppi (v : UInt8) : (if low port 0x0800 then b.readPpi (.ofBits (functionOf port))
      else (v, b)).2.counts = b.counts := by
    split
    · exact counts_readPpi _ b
    · rfl
  unfold input
  dsimp only
  split
  · exact (counts_readExpansion port _).trans (hppi _)
  · exact hppi _

/-- What a scanline does to the counts. -/
theorem counts_scanline (b : Mainboard) : b.scanline.counts =
    if b.gateArray.scanline.1 then
      (b.interrupts + 1, b.vsyncGroups + if b.gateArray.scanline.2.vsync then 1 else 0)
    else b.counts := by
  unfold scanline
  dsimp only
  split
  · unfold counts
    dsimp only
    split <;> rfl
  · rfl

theorem gateArray_scanline (b : Mainboard) : b.scanline.gateArray = b.gateArray.scanline.2 := by
  unfold scanline
  dsimp only
  split <;> rfl

end Mainboard

/-- The call takes the line counter back: a restart, or an acknowledge that clears bit 5. -/
def Z80.BusCall.setsBack (c : BusCall) (b : Mainboard) : Bool :=
  match c with
  | .acknowledge => 32 ≤ b.gateArray.lineCounter
  | c => c.withdraws

/-- No call but a poll takes the line counter up, and only one that sets it back takes it down. -/
structure Steady (c : BusCall) (b : Mainboard) : Prop where
  le : (c.apply b).gateArray.lineCounter.toNat ≤ b.gateArray.lineCounter.toNat
  eq : c.setsBack b = false → (c.apply b).gateArray.lineCounter = b.gateArray.lineCounter
  group : (c.apply b).gateArray.group = b.gateArray.group
  counts : (c.apply b).counts = b.counts
  valid : (c.apply b).gateArray.Valid

theorem steady_of_same {c : BusCall} {b : Mainboard} (h : b.gateArray.Valid)
    (hga : (c.apply b).gateArray = b.gateArray) (hcounts : (c.apply b).counts = b.counts) :
    Steady c b where
  le := Nat.le_of_eq (by rw [hga])
  eq _ := by rw [hga]
  group := by rw [hga]
  counts := hcounts
  valid := by
    rw [hga]
    exact h

theorem steady_output {b : Mainboard} (h : b.gateArray.Valid) (port : UInt16) (v : UInt8) :
    Steady (.output port v) b := by
  have hga := b.gateArray_output port v
  have hcounts := b.counts_output port v
  cases hlow : Mainboard.low port 0x8000 with
  | false =>
    rw [hlow] at hga
    exact steady_of_same h hga hcounts
  | true =>
    rw [hlow] at hga
    have hwrite : (BusCall.apply b (.output port v)).gateArray = (b.gateArray.write v).2 := hga
    refine ⟨?_, fun hback => ?_, ?_, hcounts, ?_⟩
    · rw [hwrite]
      exact b.gateArray.lineCounter_write_le v
    · have hv : (v >>> 6 == 2 && v &&& 0x10 != 0) = false := by
        simpa [BusCall.setsBack, BusCall.withdraws, hlow] using hback
      rw [hwrite]
      exact b.gateArray.lineCounter_write_eq hv
    · rw [hwrite]
      exact b.gateArray.group_write v
    · rw [hwrite]
      exact h.write v

theorem steady_acknowledge {b : Mainboard} (h : b.gateArray.Valid) : Steady .acknowledge b := by
  have hline := b.gateArray.toNat_lineCounter_acknowledge
  refine ⟨?_, fun hback => ?_, rfl, rfl, h.acknowledge⟩
  · show b.gateArray.acknowledge.lineCounter.toNat ≤ _
    rw [hline]
    exact Nat.mod_le _ 32
  · have hearly : ¬ 32 ≤ b.gateArray.lineCounter.toNat := of_decide_eq_false hback
    apply UInt8.toNat_inj.mp
    show b.gateArray.acknowledge.lineCounter.toNat = _
    rw [hline]
    omega

theorem steady_of_ne_poll {b : Mainboard} (h : b.gateArray.Valid) {c : BusCall} (hc : c ≠ .poll) :
    Steady c b := by
  cases c with
  | read a => exact steady_of_same h rfl rfl
  | write a v => exact steady_of_same h rfl rfl
  | input port => exact steady_of_same h (b.gateArray_input port) (b.counts_input port)
  | output port v => exact steady_output h port v
  | acknowledge => exact steady_acknowledge h
  | poll => exact absurd rfl hc

theorem gateArray_poll (b : Mainboard) :
    (BusCall.poll.apply b).gateArray = b.gateArray.scanline.2 := b.gateArray_scanline

theorem counts_poll (b : Mainboard) : (BusCall.poll.apply b).counts =
    if b.gateArray.scanline.1 then
      (b.interrupts + 1, b.vsyncGroups + if b.gateArray.scanline.2.vsync then 1 else 0)
    else b.counts := b.counts_scanline

/-! ## Interrupts raised -/

/-- An interrupt that is raised: the scanline, counted from the first one, and whether a vertical
sync begins with it. -/
structure Raise where
  line : Nat
  vsync : Bool
  deriving DecidableEq, Repr

/-- The interrupts that are raised during some calls, the first poll of which is scanline `line`. -/
def raises (line : Nat) : List BusCall → Mainboard → List Raise
  | [], _ => []
  | .poll :: calls, b =>
    if b.gateArray.scanline.1 then
      ⟨line, b.gateArray.scanline.2.vsync⟩ :: raises (line + 1) calls (BusCall.poll.apply b)
    else raises (line + 1) calls (BusCall.poll.apply b)
  | c :: calls, b => raises line calls (c.apply b)

/-- No call sets the line counter back. -/
def Undisturbed (calls : List BusCall) (b : Mainboard) : Prop :=
  ∀ before c after, calls = before ++ c :: after → c.setsBack (replay before b) = false

theorem Undisturbed.head {c : BusCall} {calls : List BusCall} {b : Mainboard}
    (h : Undisturbed (c :: calls) b) : c.setsBack b = false := h [] c calls rfl

theorem Undisturbed.tail {c : BusCall} {calls : List BusCall} {b : Mainboard}
    (h : Undisturbed (c :: calls) b) : Undisturbed calls (c.apply b) :=
  fun before c' after hcalls => h (c :: before) c' after (congrArg (c :: ·) hcalls)

/-- The raises that begin a vertical sync. -/
def vsyncs (raises : List Raise) : Nat := raises.countP (·.vsync)

theorem raises_cons_of_ne_poll {c : BusCall} (hc : c ≠ .poll) (line : Nat) (calls : List BusCall)
    (b : Mainboard) : raises line (c :: calls) b = raises line calls (c.apply b) := by
  cases c with
  | poll => exact absurd rfl hc
  | read | write | input | output | acknowledge => rfl

/-- What some calls add up to, the first poll of which is scanline `line`. -/
structure Tally (line : Nat) (calls : List BusCall) (b : Mainboard) : Prop where
  /-- The line counter, with 52 lines for each interrupt, never gets ahead of the scanlines. -/
  lines_le : (replay calls b).gateArray.lineCounter.toNat + 52 * (raises line calls b).length ≤
    b.gateArray.lineCounter.toNat + calls.count .poll
  lines_eq : Undisturbed calls b →
    (replay calls b).gateArray.lineCounter.toNat + 52 * (raises line calls b).length =
      b.gateArray.lineCounter.toNat + calls.count .poll
  /-- Every sixth group begins a vertical sync. -/
  group : (replay calls b).gateArray.group.toNat + 6 * vsyncs (raises line calls b) =
    b.gateArray.group.toNat + (raises line calls b).length
  interrupts : (replay calls b).interrupts = b.interrupts + (raises line calls b).length
  vsyncGroups : (replay calls b).vsyncGroups = b.vsyncGroups + vsyncs (raises line calls b)
  /-- The first interrupt is not raised before the counter can reach 52. -/
  early : ∀ r ∈ raises line calls b, line + 51 ≤ r.line + b.gateArray.lineCounter.toNat
  spaced : (raises line calls b).Pairwise fun r later => r.line + 52 ≤ later.line
  valid : (replay calls b).gateArray.Valid

namespace Tally

variable {line : Nat} {calls : List BusCall} {b : Mainboard}

theorem nil (h : b.gateArray.Valid) : Tally line [] b where
  lines_le := Nat.le_refl _
  lines_eq _ := rfl
  group := rfl
  interrupts := rfl
  vsyncGroups := rfl
  early _ hr := by cases hr
  spaced := .nil
  valid := h

theorem cons {c : BusCall} (hc : c ≠ .poll) (hsteady : Steady c b)
    (h : Tally line calls (c.apply b)) : Tally line (c :: calls) b := by
  have hle := hsteady.le
  have hraises := raises_cons_of_ne_poll hc line calls b
  have hpolls : (c :: calls).count .poll = calls.count .poll := List.count_cons_of_ne hc
  have hinterrupts : (c.apply b).interrupts = b.interrupts := congrArg Prod.fst hsteady.counts
  have hvsyncs : (c.apply b).vsyncGroups = b.vsyncGroups := congrArg Prod.snd hsteady.counts
  refine ⟨?_, ?_, ?_, ?_, ?_, ?_, ?_, h.valid⟩
  · have hlines := h.lines_le
    rw [hraises, hpolls, Z80.replay_cons]
    omega
  · intro hcalm
    have hlines := h.lines_eq hcalm.tail
    rw [hsteady.eq hcalm.head] at hlines
    rw [hraises, hpolls]
    exact hlines
  · have hgroup := h.group
    rw [hsteady.group] at hgroup
    rw [hraises]
    exact hgroup
  · rw [hraises, ← hinterrupts]
    exact h.interrupts
  · rw [hraises, ← hvsyncs]
    exact h.vsyncGroups
  · intro r hr
    rw [hraises] at hr
    have hearly := h.early r hr
    omega
  · rw [hraises]
    exact h.spaced

-- What a poll leaves undisturbed is the calls behind it.
theorem count_poll_cons (calls : List BusCall) :
    (BusCall.poll :: calls).count .poll = calls.count .poll + 1 := List.count_cons_self

theorem counted (hscan : b.gateArray.scanline.1 = false)
    (hline : b.gateArray.scanline.2.lineCounter.toNat = b.gateArray.lineCounter.toNat + 1)
    (hgroup : b.gateArray.scanline.2.group = b.gateArray.group)
    (h : Tally (line + 1) calls (BusCall.poll.apply b)) : Tally line (.poll :: calls) b := by
  have hraises : raises line (.poll :: calls) b =
      raises (line + 1) calls (BusCall.poll.apply b) := by
    rw [raises, hscan]
    rfl
  have hcounts := counts_poll b
  rw [hscan] at hcounts
  have hinterrupts : (BusCall.poll.apply b).interrupts = b.interrupts := congrArg Prod.fst hcounts
  have hvsyncs : (BusCall.poll.apply b).vsyncGroups = b.vsyncGroups := congrArg Prod.snd hcounts
  have hnext : (BusCall.poll.apply b).gateArray.lineCounter.toNat =
      b.gateArray.lineCounter.toNat + 1 := by
    rw [gateArray_poll]
    exact hline
  refine ⟨?_, ?_, ?_, ?_, ?_, ?_, ?_, h.valid⟩
  · have hlines := h.lines_le
    rw [hraises, count_poll_cons, Z80.replay_cons]
    omega
  · intro hcalm
    have hlines := h.lines_eq hcalm.tail
    rw [hraises, count_poll_cons, Z80.replay_cons]
    omega
  · have htally := h.group
    rw [gateArray_poll, hgroup] at htally
    rw [hraises]
    exact htally
  · rw [hraises, ← hinterrupts]
    exact h.interrupts
  · rw [hraises, ← hvsyncs]
    exact h.vsyncGroups
  · intro r hr
    rw [hraises] at hr
    have hearly := h.early r hr
    omega
  · rw [hraises]
    exact h.spaced

theorem raised (hscan : b.gateArray.scanline.1 = true)
    (hlast : b.gateArray.lineCounter.toNat = 51)
    (hline : b.gateArray.scanline.2.lineCounter.toNat = 0)
    (hgroup : b.gateArray.scanline.2.group.toNat = (b.gateArray.group.toNat + 1) % 6)
    (hsix : b.gateArray.group.toNat < 6)
    (h : Tally (line + 1) calls (BusCall.poll.apply b)) : Tally line (.poll :: calls) b := by
  have hraises : raises line (.poll :: calls) b =
      ⟨line, b.gateArray.scanline.2.vsync⟩ ::
        raises (line + 1) calls (BusCall.poll.apply b) := by
    rw [raises, hscan]
    rfl
  have hvsync : vsyncs (raises line (.poll :: calls) b) =
      vsyncs (raises (line + 1) calls (BusCall.poll.apply b)) +
        if b.gateArray.scanline.2.vsync then 1 else 0 := by
    rw [hraises]
    exact List.countP_cons
  have hlength : (raises line (.poll :: calls) b).length =
      (raises (line + 1) calls (BusCall.poll.apply b)).length + 1 := by
    rw [hraises]
    rfl
  have hcounts := counts_poll b
  rw [hscan] at hcounts
  have hinterrupts : (BusCall.poll.apply b).interrupts = b.interrupts + 1 :=
    congrArg Prod.fst hcounts
  have hvsyncs : (BusCall.poll.apply b).vsyncGroups =
      b.vsyncGroups + if b.gateArray.scanline.2.vsync then 1 else 0 := congrArg Prod.snd hcounts
  have hzero : (BusCall.poll.apply b).gateArray.lineCounter.toNat = 0 := by
    rw [gateArray_poll]
    exact hline
  refine ⟨?_, ?_, ?_, ?_, ?_, ?_, ?_, h.valid⟩
  · have hlines := h.lines_le
    rw [hlength, count_poll_cons, Z80.replay_cons]
    omega
  · intro hcalm
    have hlines := h.lines_eq hcalm.tail
    rw [hlength, count_poll_cons, Z80.replay_cons]
    omega
  · have htally := h.group
    rw [gateArray_poll, hgroup] at htally
    -- group 0 is the one behind group 5
    have hwrap : b.gateArray.scanline.2.vsync = decide (b.gateArray.group.toNat = 5) := by
      unfold GateArray.vsync
      rw [Bool.eq_iff_iff, beq_iff_eq, decide_eq_true_iff, ← UInt8.toNat_inj, hgroup]
      show (b.gateArray.group.toNat + 1) % 6 = 0 ↔ _
      omega
    rw [hvsync, hlength, Z80.replay_cons, hwrap]
    by_cases hfive : b.gateArray.group.toNat = 5
    · simp only [hfive, decide_true, if_true] at htally ⊢
      omega
    · simp only [hfive, decide_false, Bool.false_eq_true, if_false]
      omega
  · have htally := h.interrupts
    rw [hlength, Z80.replay_cons, htally, hinterrupts]
    omega
  · have htally := h.vsyncGroups
    rw [hvsync, Z80.replay_cons, htally, hvsyncs]
    omega
  · intro r hr
    rw [hraises] at hr
    rcases List.mem_cons.mp hr with rfl | hr
    · dsimp only
      omega
    · have hearly := h.early r hr
      omega
  · rw [hraises]
    refine List.Pairwise.cons (fun r hr => ?_) h.spaced
    have hearly := h.early r hr
    dsimp only
    omega

end Tally

/-- Whatever the calls are, they add up. -/
theorem tally {b : Mainboard} (h : b.gateArray.Valid) (line : Nat) (calls : List BusCall) :
    Tally line calls b := by
  induction calls generalizing line b with
  | nil => exact .nil h
  | cons c calls ih =>
    by_cases hc : c = .poll
    · subst hc
      have hnext : (BusCall.poll.apply b).gateArray.Valid := by
        rw [gateArray_poll]
        exact h.scanline
      rcases b.gateArray.scanline_cases h with ⟨hscan, hline, hgroup⟩ | ⟨hscan, hlast, hline, hgroup⟩
      · exact .counted hscan hline hgroup (ih hnext (line + 1))
      · exact .raised hscan hlast hline hgroup h.group (ih hnext (line + 1))
    · have hsteady := steady_of_ne_poll h hc
      exact .cons hc hsteady (ih hsteady.valid line)

end AmstradCpc
