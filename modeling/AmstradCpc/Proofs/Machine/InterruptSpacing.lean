import AmstradCpc.Proofs.Machine.HaltedMachines

/-!
# From an acknowledge to the next interrupt

An acknowledge clears bit 5 of the line counter. A counter that has got to 32 or more loses 32 lines
by that, and one that has not goes on as it was. So the next interrupt is at least 52 lines away,
less what is left of the counter: 32 lines or more if the remainder by 32 is 20 at most, but only 21
after an acknowledge in line 31 (`Machine.spaced_after_acknowledge`).

What becomes of the counter depends on what the Gate Array is told, and that is read off the calls
on the bus, frame after frame (`Machine.gateArray_foldl_apply`).
-/

namespace AmstradCpc

open Z80 (BusCall Traced replay)

/-! ## Signals -/

/-- What the Gate Array is told. -/
inductive GateSignal
  | write (v : UInt8)
  | scanline
  | acknowledge
  | reset
  deriving DecidableEq, Repr

/-- What a call on the bus tells the Gate Array. -/
def Z80.BusCall.signal? : BusCall → Option GateSignal
  | .output port v => if Mainboard.low port 0x8000 then some (.write v) else none
  | .acknowledge => some .acknowledge
  | .poll => some .scanline
  | .read _ | .write _ _ | .input _ => none

namespace GateArray

def receive (ga : GateArray) : GateSignal → GateArray
  | .write v => (ga.write v).2
  | .scanline => ga.scanline.2
  | .acknowledge => ga.acknowledge
  | .reset => {}

/-- The Gate Array after some signals. -/
def after (signals : List GateSignal) (ga : GateArray) : GateArray := signals.foldl receive ga

/-- The signal takes the line counter back. -/
def SetsBack (ga : GateArray) : GateSignal → Prop
  | .write v => (v >>> 6 == 2 && v &&& 0x10 != 0) = true
  | .scanline => ga.scanline.1 = true
  | .acknowledge => 32 ≤ ga.lineCounter.toNat
  | .reset => True

/-- No signal takes the line counter back. -/
def CountsOn : List GateSignal → GateArray → Prop
  | [], _ => True
  | s :: signals, ga => ¬ ga.SetsBack s ∧ CountsOn signals (ga.receive s)

section Signals

variable {ga : GateArray}

theorem after_cons (s : GateSignal) (signals : List GateSignal) (ga : GateArray) :
    ga.after (s :: signals) = (ga.receive s).after signals := rfl

theorem after_append (signals later : List GateSignal) (ga : GateArray) :
    ga.after (signals ++ later) = (ga.after signals).after later :=
  List.foldl_append

theorem Valid.receive (h : ga.Valid) (s : GateSignal) : (ga.receive s).Valid := by
  cases s with
  | write v => exact h.write v
  | scanline => exact h.scanline
  | acknowledge => exact h.acknowledge
  | reset => exact valid_powerOn

theorem Valid.after (h : ga.Valid) (signals : List GateSignal) : (ga.after signals).Valid := by
  induction signals generalizing ga with
  | nil => exact h
  | cons s signals ih => exact ih (h.receive s)

/-- The scanline that raises is the one that finds the counter at 51. -/
theorem scanline_raises_iff (h : ga.Valid) : ga.scanline.1 = true ↔ ga.lineCounter.toNat = 51 := by
  have hlimit := h.scanline.lineCounter
  rcases ga.scanline_cases h with ⟨hscan, hline, -⟩ | ⟨hscan, hline, -⟩ <;> rw [hscan]
  · exact iff_of_false Bool.false_ne_true (by omega)
  · exact iff_of_true rfl hline

/-- No signal but a scanline takes the counter up. -/
theorem lineCounter_receive_le (h : ga.Valid) (s : GateSignal) :
    (ga.receive s).lineCounter.toNat ≤ ga.lineCounter.toNat + [s].count .scanline := by
  cases s with
  | write v => exact ga.lineCounter_write_le v
  | scanline =>
    show ga.scanline.2.lineCounter.toNat ≤ ga.lineCounter.toNat + 1
    rcases ga.scanline_cases h with ⟨-, hline, -⟩ | ⟨-, -, hline, -⟩ <;> omega
  | acknowledge =>
    show ga.acknowledge.lineCounter.toNat ≤ ga.lineCounter.toNat
    rw [toNat_lineCounter_acknowledge]
    exact Nat.mod_le _ _
  | reset => exact Nat.zero_le _

theorem lineCounter_receive_eq (h : ga.Valid) {s : GateSignal} (hback : ¬ ga.SetsBack s) :
    (ga.receive s).lineCounter.toNat = ga.lineCounter.toNat + [s].count .scanline := by
  cases s with
  | write v => exact congrArg UInt8.toNat (ga.lineCounter_write_eq (Bool.eq_false_iff.mpr hback))
  | scanline =>
    show ga.scanline.2.lineCounter.toNat = ga.lineCounter.toNat + 1
    rcases ga.scanline_cases h with ⟨-, hline, -⟩ | ⟨hscan, -⟩
    · exact hline
    · exact absurd hscan hback
  | acknowledge =>
    show ga.acknowledge.lineCounter.toNat = ga.lineCounter.toNat
    have hearly : ¬ 32 ≤ ga.lineCounter.toNat := hback
    rw [toNat_lineCounter_acknowledge]
    omega
  | reset => exact absurd trivial hback

theorem count_scanline_cons (s : GateSignal) (signals : List GateSignal) :
    (s :: signals).count .scanline = [s].count .scanline + signals.count .scanline :=
  (List.count_append : ([s] ++ signals).count _ = _)

theorem lineCounter_after_le (h : ga.Valid) (signals : List GateSignal) :
    (ga.after signals).lineCounter.toNat ≤ ga.lineCounter.toNat + signals.count .scanline := by
  induction signals generalizing ga with
  | nil => exact Nat.le_refl _
  | cons s signals ih =>
    have hfirst := lineCounter_receive_le h s
    have hrest : ((ga.receive s).after signals).lineCounter.toNat ≤ _ := ih (h.receive s)
    have hcount := count_scanline_cons s signals
    show ((ga.receive s).after signals).lineCounter.toNat ≤ _
    omega

theorem lineCounter_after_eq (h : ga.Valid) {signals : List GateSignal}
    (hcounts : ga.CountsOn signals) :
    (ga.after signals).lineCounter.toNat = ga.lineCounter.toNat + signals.count .scanline := by
  induction signals generalizing ga with
  | nil => rfl
  | cons s signals ih =>
    have hfirst := lineCounter_receive_eq h hcounts.1
    have hrest : ((ga.receive s).after signals).lineCounter.toNat = _ := ih (h.receive s) hcounts.2
    have hcount := count_scanline_cons s signals
    show ((ga.receive s).after signals).lineCounter.toNat = _
    omega

-- Before line 52 scanlines do nothing but count.
theorem countsOn_scanlines (h : ga.Valid) {n : Nat} (hn : ga.lineCounter.toNat + n < 52) :
    ga.CountsOn (List.replicate n .scanline) := by
  induction n generalizing ga with
  | zero => exact trivial
  | succ n ih =>
    have hback : ¬ ga.SetsBack .scanline := fun hraises => by
      have hlast := (scanline_raises_iff h).mp hraises
      omega
    have hline : (ga.receive .scanline).lineCounter.toNat = ga.lineCounter.toNat + 1 :=
      lineCounter_receive_eq h hback
    exact ⟨hback, ih (h.receive .scanline) (by omega)⟩

end Signals

end GateArray

/-! ## Machines -/

theorem Mainboard.gateArray_replay (calls : List BusCall) (b : Mainboard) :
    (replay calls b).gateArray = b.gateArray.after (calls.filterMap BusCall.signal?) := by
  induction calls generalizing b with
  | nil => rfl
  | cons c calls ih =>
    rw [Z80.replay_cons, ih]
    cases c with
    | read a | write a v | acknowledge => rfl
    | input port =>
      show (b.input port).2.gateArray.after _ = _
      rw [Mainboard.gateArray_input]
      rfl
    | output port v =>
      show (b.output port v).gateArray.after _ = _
      rw [Mainboard.gateArray_output]
      cases hlow : Mainboard.low port 0x8000 with
      | false =>
        have hnone : (BusCall.output port v).signal? = none := if_neg (by simp [hlow])
        rw [List.filterMap_cons_none hnone]
        rfl
      | true =>
        have hwrite : (BusCall.output port v).signal? = some (.write v) := if_pos hlow
        rw [List.filterMap_cons_some hwrite]
        rfl
    | poll =>
      rw [gateArray_poll]
      rfl

namespace Machine

/-- The host loads a snapshot, which brings a counter of its own. -/
def Action.Loads : Action → Prop
  | .loadSna _ => True
  | _ => False

/-- What the Gate Array is told during an action. -/
def Action.signals (m : Machine) : Action → List GateSignal
  | .tick _ => m.frameCalls.filterMap BusCall.signal?
  | .reset => [.reset]
  | _ => []

/-- What the Gate Array is told while the host acts. -/
def signals : List Action → Machine → List GateSignal
  | [], _ => []
  | a :: actions, m => a.signals m ++ signals actions (a.apply m)

theorem gateArray_action {a : Action} (h : ¬ a.Loads) (m : Machine) :
    (a.apply m).board.gateArray = m.board.gateArray.after (a.signals m) := by
  cases a with
  | tick now =>
    show (m.tick now).2.board.gateArray = _
    rw [board_tick, Mainboard.gateArray_replay]
    rfl
  | reset => rfl
  | loadSna file => exact absurd trivial h
  | key | releaseKeys | queueKey | typeText | insertDisk => rfl
  | removeDisk n =>
    show (m.removeDisk n).2.board.gateArray = _
    unfold removeDisk
    split
    · rfl
    · dsimp only
      split <;> rfl

/-- While the host acts, the Gate Array is what the signals make of it. -/
theorem gateArray_foldl_apply {actions : List Action} (h : ∀ a ∈ actions, ¬ a.Loads)
    (m : Machine) : (actions.foldl Action.apply m).board.gateArray =
      m.board.gateArray.after (signals actions m) := by
  induction actions generalizing m with
  | nil => rfl
  | cons a actions ih =>
    rw [List.foldl_cons, ih fun a ha => h a (List.mem_cons_of_mem _ ha),
      gateArray_action (h a List.mem_cons_self), ← GateArray.after_append]
    rfl

/-- After an acknowledge in line `n` the next interrupt is at least 52 lines away, less the
remainder of `n` by 32, whatever the program and the host do short of loading a snapshot: at least
21 lines, and 32 if that remainder is 20 at most. If nothing takes the counter back it is just so far
away. -/
theorem spaced_after_acknowledge {m : Machine} (h : Hosted m) {actions : List Action}
    (hloads : ∀ a ∈ actions, ¬ a.Loads) :
    let ga := m.board.gateArray
    (actions.foldl Action.apply m).board.gateArray = ga.after (signals actions m) ∧
      ∀ before between later,
        signals actions m = before ++ .acknowledge :: (between ++ .scanline :: later) →
        let n := (ga.after before).lineCounter.toNat
        let atLast := ga.after (before ++ .acknowledge :: between)
        let lines := between.count .scanline + 1
        n < 52 ∧
          (atLast.scanline.1 = true →
            52 - n % 32 ≤ lines ∧ 21 ≤ lines ∧ (n % 32 ≤ 20 → 32 ≤ lines)) ∧
          ((ga.after before).acknowledge.CountsOn between →
            (atLast.scanline.1 = true ↔ lines = 52 - n % 32)) := by
  intro ga
  refine ⟨gateArray_foldl_apply hloads m, fun before between later _ => ?_⟩
  intro n atLast lines
  have hbefore : (ga.after before).Valid := h.valid.after before
  have hatLast : atLast.Valid := h.valid.after _
  have hacknowledged : (ga.after before).acknowledge.lineCounter.toNat = n % 32 :=
    (ga.after before).toNat_lineCounter_acknowledge
  have hlast : atLast = (ga.after before).acknowledge.after between :=
    GateArray.after_append before _ ga
  rw [GateArray.scanline_raises_iff hatLast, hlast]
  refine ⟨hbefore.lineCounter, fun hraises => ?_, fun hcounts => ?_⟩
  · have hline := GateArray.lineCounter_after_le hbefore.acknowledge between
    rw [hraises, hacknowledged] at hline
    show 52 - n % 32 ≤ between.count .scanline + 1 ∧ 21 ≤ between.count .scanline + 1 ∧
      (n % 32 ≤ 20 → 32 ≤ between.count .scanline + 1)
    omega
  · rw [GateArray.lineCounter_after_eq hbefore.acknowledge hcounts, hacknowledged]
    show _ ↔ between.count .scanline + 1 = 52 - n % 32
    omega

/-! ## A late acknowledge -/

/-- The CPU is asleep, and the Gate Array has been told of an acknowledge and of `n` scanlines. -/
structure Serviced (n : Nat) (s : Z80.System (Traced Mainboard)) : Prop where
  asleep : (s.map Traced.bus).Asleep
  signals : s.bus.calls.filterMap BusCall.signal? = .acknowledge :: List.replicate n .scanline

section Serviced

variable {n : Nat} {s : Z80.System (Traced Mainboard)}

theorem Serviced.step (h : Serviced n s) : Serviced n s.step.2 := by
  have hasleep := h.asleep.step
  rw [Z80.System.step_map] at hasleep
  refine ⟨hasleep, ?_⟩
  -- a CPU that is asleep calls nothing
  have hs : s.Asleep := ⟨h.asleep.halted, h.asleep.iff1, h.asleep.nmiPending⟩
  rw [hs.step_eq]
  exact h.signals

theorem serviced_tracedLine (h : Serviced n (Z80.System.runFor s.cpu.countdown 0 s).2.2) :
    Serviced (n + 1) (tracedLine s) := by
  constructor
  · obtain ⟨hregs, hnmi, -⟩ := runLine_end (s.map Traced.bus)
    rw [Z80.System.runFor_map] at hregs hnmi
    rw [tracedLine_erase]
    exact ⟨(congrArg _ hregs).trans h.asleep.halted, (congrArg _ hregs).trans h.asleep.iff1,
      hnmi.trans h.asleep.nmiPending⟩
  · -- the scanline ends with a poll
    show (_ ++ [BusCall.poll]).filterMap BusCall.signal? = _
    rw [List.filterMap_append, h.signals, List.replicate_succ', List.cons_append]
    rfl

theorem Serviced.tracedLines (h : Serviced n s) (k : Nat) :
    Serviced (n + k) (tracedLines k s) := by
  induction k generalizing n s with
  | zero => exact h
  | succ k ih =>
    have hline : Serviced (n + 1) (tracedLine s) :=
      serviced_tracedLine (Z80.System.runFor_keeps (fun _ hr => Serviced.step hr) _ _ s h)
    have hlines := ih hline
    rw [Nat.add_right_comm] at hlines
    exact hlines

/-- A handler that is a `HALT` puts the CPU to sleep. -/
theorem serviced_halt (h : s.Fetches) (hop : s.bus.bus.memory.read s.regs.pc = Z80.haltByte)
    (hiff1 : s.regs.iff1 = false) (hnmi : s.cpu.nmiPending = false)
    (hsignals : s.bus.calls.filterMap BusCall.signal? = [.acknowledge]) :
    Serviced 0 s.step.2 := by
  constructor
  · have hplain : (s.map Traced.bus).Fetches := h
    obtain ⟨hregs, hpending⟩ := Z80.System.step_halt Mainboard.pureReads hplain hop
    rw [Z80.System.step_map] at hregs hpending
    refine ⟨(congrArg _ hregs).trans rfl, (congrArg _ hregs).trans hiff1, hpending.trans hnmi⟩
  · -- it calls for its opcode only
    have hhalt : Z80.Opcode.decode s.beginStep.fetchOpcode.1 = .plain .halt :=
      (Z80.Opcode.decode_halt_iff _).mpr hop
    have hcalls : s.step.2.bus.calls = s.bus.calls ++ [.read s.regs.pc] := by
      rw [Z80.System.step_of_fetches s h]
      unfold Z80.System.instruction
      dsimp only
      rw [hhalt]
      rfl
    rw [hcalls, List.filterMap_append, hsignals]
    rfl

end Serviced

/-- A frame in whose first two steps the CPU takes a request and falls asleep has no signals but the
acknowledge and its scanlines. -/
theorem signals_frameCalls {m : Machine} {first : Z80.System (Traced Mainboard)}
    (hfirst : first = { m.processKeys.system with bus := { bus := m.processKeys.board } })
    (hline : first.step.1 < first.cpu.countdown) (h : Serviced 0 first.step.2.step.2) :
    m.frameCalls.filterMap BusCall.signal? =
      .acknowledge :: List.replicate 312 .scanline := by
  have hrun : Serviced 0 (Z80.System.runFor first.cpu.countdown 0 first).2.2 := by
    rw [Z80.System.runFor_of_pos first (by omega)]
    exact Z80.System.runFor_keeps_of_step (fun _ hr => Serviced.step hr) _ _ _ h
  subst hfirst
  exact ((serviced_tracedLine hrun).tracedLines 311).signals

end Machine

theorem Memory.lowerRom_write (a : UInt16) (v : UInt8) (mem : Memory) :
    (mem.write a v).lowerRom = mem.lowerRom := by
  unfold Memory.write
  dsimp only
  split <;> rfl

-- The lower ROM shows in the first quadrant where it is enabled.
theorem Refines.read_lowerRom {r c : UInt8} {mem : Memory} {m : BankedMemory}
    (h : Refines r c mem m) {f : Nat → UInt8} (hrom : IsRom mem.lowerRom f) {a : UInt16}
    (ha : BankedMemory.quadrant a = 0) (hr : r &&& 0x04 = 0) :
    mem.read a = f (BankedMemory.offset a) := by
  have hoffset : BankedMemory.offset a < mem.lowerRom.size := by
    rw [hrom.1]
    exact Nat.mod_lt _ (by decide)
  rw [h.read_eq]
  unfold BankedMemory.read
  rw [if_pos ⟨ha, h.romConfig ▸ hr⟩]
  exact (h.lowerRom.2 _ hoffset).symm.trans (hrom.2 _ hoffset)

namespace Machine

/-- The snapshot of a machine whose line counter has got to 31 with a request up, and that may be
interrupted. -/
def lateSnapshot : Snapshot where
  cpu := { iff1 := true, im := 1 }
  lineCounter := 31
  intRequest := true

/-- A machine whose ROM is full of `HALT` acknowledges the request of the snapshot at once, and then
sleeps. -/
theorem exists_lateAcknowledge : ∃ m,
    Reachable { model := .cpc464, systemRom := ⟨Array.replicate 0x8000 0x76⟩ } m ∧
      m.board.gateArray.lineCounter = 31 ∧
      signals [.tick 0] m = .acknowledge ::
        (List.replicate 20 .scanline ++ .scanline :: List.replicate 291 .scanline) := by
  obtain ⟨built, hbuilt⟩ : ∃ m, Machine.build
      { model := .cpc464, systemRom := ⟨Array.replicate 0x8000 0x76⟩ } = .ok m :=
    exists_build (Nat.le_refl 64) (by decide) (by decide) Array.size_replicate (by simp)
  -- loading may leave a notice, and changes no more of the machine first
  obtain ⟨loaded, hload, hsystem⟩ : ∃ loaded : Machine,
      built.loadSna lateSnapshot.toBytes = .ok (loaded.restore lateSnapshot) ∧
        loaded.system = built.system := by
    have hnotify (notice? : Option Notice) :
        (notice?.elim built fun n => built.notify n).system = built.system := by
      cases notice? <;> rfl
    exact ⟨_, loadSna_toBytes rfl rfl rfl (Nat.zero_le _), hnotify _⟩
  have hm := (Reachable.build hbuilt).loadSna hload
  obtain ⟨M, hM⟩ := hm.banked
  have hperiod : loaded.cpu.period = 256 := by
    obtain ⟨mem, -, hm⟩ := bind_ok hbuilt
    cases hm
    exact congrArg (·.cpu.period) hsystem
  have hlower (ramKb : Nat) (rom : ByteArray) :
      ((BankedMemory.powerOn ramKb rom).installAll []).reset.lowerRom =
        fun i => rom.data.getD i 0 := rfl
  have hbus : loaded.board = built.board := congrArg (·.bus) hsystem
  have hrom := (banked_build hbuilt).lowerRom
  rw [hlower, ← hbus] at hrom
  refine ⟨_, hm, rfl, ?_⟩
  let first : Z80.System (Traced Mainboard) :=
    { (loaded.restore lateSnapshot).processKeys.system with
      bus := { bus := (loaded.restore lateSnapshot).processKeys.board } }
  have hline : first.step.1 < first.cpu.countdown := by
    have hcost : first.step.1 = 13 := rfl
    have hcountdown : first.cpu.countdown = loaded.cpu.period := rfl
    rw [hcost, hcountdown, hperiod]
    decide
  have hserviced : Serviced 0 first.step.2.step.2 := by
    refine serviced_halt ⟨rfl, rfl⟩ ?_ rfl rfl rfl
    -- the return address is pushed, which is no matter of the ROM
    have hpushed : first.step.2.bus.bus.memory.lowerRom = loaded.board.memory.lowerRom :=
      (Memory.lowerRom_write _ _ _).trans (Memory.lowerRom_write _ _ _)
    have hfrom : first.step.2.bus.From (loaded.restore lateSnapshot).board :=
      Z80.System.step_keeps (Traced.accessKeeps fun c _ _ _ ht => ht.call c)
        (fun _ ht => ht.call .acknowledge) first rfl
    obtain ⟨M', hM'⟩ := hM.replay first.step.2.bus.calls
    rw [← hfrom] at hM'
    rw [← hpushed] at hrom
    have hpc : first.step.2.regs.pc = 0x0038 := rfl
    have hconfig : first.step.2.bus.bus.gateArray.romConfig = 0 := rfl
    rw [hpc, Refines.read_lowerRom hM' hrom rfl (by rw [hconfig]; rfl)]
    simp [Z80.haltByte, BankedMemory.offset]
  exact (List.append_nil _).trans (signals_frameCalls rfl hline hserviced)

-- The acknowledge leaves a counter of 31 as it is, and 20 lines later it stands at 51.
theorem countsOn_lateAcknowledge {ga : GateArray} (h : ga.Valid) (hline : ga.lineCounter = 31) :
    ga.acknowledge.lineCounter.toNat = 31 ∧
      ga.acknowledge.CountsOn (List.replicate 20 .scanline) := by
  have hleft : ga.acknowledge.lineCounter.toNat = 31 := by
    rw [ga.toNat_lineCounter_acknowledge, hline]
    rfl
  exact ⟨hleft, GateArray.countsOn_scanlines h.acknowledge (by omega)⟩

/-- A machine that acknowledges in line 31 is interrupted again in the 21st line after that. -/
theorem spaced_after_acknowledge_late : ∃ m,
    Reachable { model := .cpc464, systemRom := ⟨Array.replicate 0x8000 0x76⟩ } m ∧
      signals [.tick 0] m = .acknowledge ::
        (List.replicate 20 .scanline ++ .scanline :: List.replicate 291 .scanline) ∧
      (m.board.gateArray.after (.acknowledge :: List.replicate 20 .scanline)).scanline.1 = true := by
  obtain ⟨m, hm, hline, hsignals⟩ := exists_lateAcknowledge
  have hcounts := (countsOn_lateAcknowledge hm.hosted.valid hline).2
  have hloads : ∀ a ∈ [Action.tick 0], ¬ a.Loads := by
    intro a ha
    rw [List.mem_singleton.mp ha]
    exact id
  obtain ⟨-, hspaced⟩ := spaced_after_acknowledge hm.hosted hloads
  obtain ⟨-, -, hexact⟩ := hspaced [] _ _ hsignals
  have hlines : (List.replicate 20 GateSignal.scanline).count .scanline + 1 =
      52 - m.board.gateArray.lineCounter.toNat % 32 := by
    rw [hline]
    decide
  exact ⟨m, hm, hsignals, (hexact hcounts).mpr hlines⟩

/-- It is not so that the next interrupt is always 32 lines away. -/
theorem not_spaced_by_32 : ¬ ∀ (config : Config) (m : Machine) (actions : List Action),
    Reachable config m → (∀ a ∈ actions, ¬ a.Loads) → ∀ before between later,
      signals actions m = before ++ .acknowledge :: (between ++ .scanline :: later) →
      (m.board.gateArray.after (before ++ .acknowledge :: between)).scanline.1 = true →
      32 ≤ between.count .scanline + 1 := by
  intro hclaim
  obtain ⟨m, hm, hline, hsignals⟩ := exists_lateAcknowledge
  have hvalid := hm.hosted.valid
  obtain ⟨hleft, hcounts⟩ := countsOn_lateAcknowledge hvalid hline
  have hraises :
      (m.board.gateArray.after (.acknowledge :: List.replicate 20 .scanline)).scanline.1 = true := by
    have hlast := GateArray.lineCounter_after_eq hvalid.acknowledge hcounts
    rw [hleft, List.count_replicate_self] at hlast
    rw [GateArray.scanline_raises_iff (hvalid.after _), GateArray.after_cons]
    exact hlast
  have hlines := hclaim _ m [.tick 0] hm (by simp [Action.Loads]) [] _ _ hsignals hraises
  exact absurd hlines (by decide)

end Machine

end AmstradCpc
