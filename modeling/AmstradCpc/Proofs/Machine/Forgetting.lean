import AmstradCpc.Machine.Inspect
import AmstradCpc.Proofs.Machine.HaltedMachines
import AmstradCpc.Proofs.Machine.OperatedMachines
import AmstradCpc.Proofs.Mainboard.Levels

/-!
# Snapshots forget

Two machines of one kind (`Machine.Alike`) may have any history. A snapshot either loads into both or
into none, and once it has been loaded they differ in no more than the levels that are driven anew,
the notices that nobody has taken, and the time of their last frame (`Machine.known`). None of these
can be told: whatever the two are asked in turn, they give the same answers.
-/

namespace AmstradCpc

open Mainboard (float)
open Z80 (System)

attribute [ext] Mainboard Ppi Psg FrameReport Machine Z80.System

namespace Machine

variable {m m' : Machine}

/-- What there is to know of a machine: all but the levels that are driven anew, the notices that
nobody has taken, and the time of the last frame. -/
def known (m : Machine) : Machine :=
  { m.mapBoard (·.floating) with notices := #[], lastFrame := none }

/-! ## Questions -/

/-- What a machine is asked: to run a frame, to make a call on a port, or for a value. -/
inductive Question
  | tick
  | input (port : UInt16)
  | output (port : UInt16) (v : UInt8)
  | query (path : String)

inductive Answer
  | frame (report : FrameReport)
  | byte (v : UInt8)
  | done
  | value (v : Option Value)

/-- The answer to a question, on a host where frame `n` ends at `clock n`. -/
def answer (clock : Nat → Nat) (m : Machine) : Question → Answer × Machine
  | .tick =>
    let (report, m) := m.tick (clock m.frameCount)
    (.frame report, m)
  | .input port =>
    let (v, board) := m.board.input port
    (.byte v, m.mapBoard fun _ => board)
  | .output port v => (.done, m.mapBoard (·.output port v))
  | .query path => (.value (m.query path), m)

/-- The answers to some questions, one after the other. -/
def answers (clock : Nat → Nat) (m : Machine) : List Question → List Answer × Machine
  | [] => ([], m)
  | q :: questions =>
    let (a, m) := m.answer clock q
    let (rest, m) := m.answers clock questions
    (a :: rest, m)

/-! ## Frames -/

theorem runLine_float {s s' : System Mainboard} (h : s.map float = s'.map float) :
    (runLine s).map float = (runLine s').map float := by
  have hperiod : s.runPeriod.2.map float = s'.runPeriod.2.map float := by
    have hs := System.runPeriod_map float s Mainboard.poll_float
    have hs' := System.runPeriod_map float s' Mainboard.poll_float
    rw [h, hs'] at hs
    exact (Prod.mk.inj hs).2.symm
  -- that a request is stale shows with floating levels too
  let drop (r : System FloatingBoard) : System FloatingBoard :=
    if r.cpu.intPending && !r.bus.board.gateArray.intRequest then
      { r with cpu := r.cpu.clearInterrupt }
    else r
  have hdrop (r : System Mainboard) : (dropStaleRequest r).map float = drop (r.map float) := by
    unfold dropStaleRequest
    exact apply_ite (System.map float) ..
  unfold runLine
  rw [hdrop, hdrop, hperiod]

theorem runLines_float (n : Nat) {s s' : System Mainboard} (h : s.map float = s'.map float) :
    (runLines n s).map float = (runLines n s').map float := by
  induction n generalizing s s' with
  | zero => exact h
  | succ n ih => exact ih (runLine_float h)

-- Without frame skipping every picture is drawn, at any time.
theorem endFrame_known (hskip : m.config.frameSkip = false) (now : Nat) :
    (m.collectUndefined.endFrame now).1 = true ∧
      (m.collectUndefined.endFrame now).2.known =
        (m.known.collectUndefined.endFrame 0).2.known := by
  have hdue (m : Machine) (h : m.config.frameSkip = false) (now : Nat) : m.frameDue now = true := by
    unfold frameDue
    rw [h]
    rfl
  unfold endFrame
  rw [hdue m.collectUndefined hskip, hdue m.known.collectUndefined hskip]
  exact ⟨rfl, rfl⟩

-- Another system for both, with the same CPU and what the same board has with floating levels.
theorem known_withSystem (h : m.known = m'.known) {s s' : System Mainboard}
    (hs : s.map float = s'.map float) :
    ({ m with system := s } : Machine).known = ({ m' with system := s' } : Machine).known :=
  congrArg₂ (fun k (t : System FloatingBoard) =>
    ({ k with system := t.map FloatingBoard.board } : Machine)) h hs

theorem known_withBoard (h : m.known = m'.known) {b b' : Mainboard} (hb : b.float = b'.float) :
    (m.mapBoard fun _ => b).known = (m'.mapBoard fun _ => b').known :=
  congrArg₂ (fun k (f : FloatingBoard) => (k.mapBoard fun _ => f.board : Machine)) h hb

theorem system_float (h : m.known = m'.known) : m.system.map float = m'.system.map float := by
  have hsystem : m.known.system = m'.known.system := congrArg system h
  exact congrArg (System.map FloatingBoard.mk) hsystem

/-- What is known of a machine decides its frame. -/
theorem tick_known (h : m.known = m'.known) (hskip : m.config.frameSkip = false) (now now' : Nat) :
    (m.tick now).1 = (m'.tick now').1 ∧ (m.tick now).2.known = (m'.tick now').2.known := by
  have hconfig : m.known.config = m'.known.config := congrArg config h
  have hskip' : m'.config.frameSkip = false := (congrArg Config.frameSkip hconfig).symm.trans hskip
  have hkeys : m.processKeys.known = m'.processKeys.known := congrArg processKeys h
  have hlines := known_withSystem hkeys (runLines_float linesPerFrame (system_float hkeys))
  obtain ⟨hdrawn, hend⟩ := endFrame_known
    (m := { m.processKeys with system := runLines linesPerFrame m.processKeys.system }) hskip now
  obtain ⟨hdrawn', hend'⟩ := endFrame_known
    (m := { m'.processKeys with system := runLines linesPerFrame m'.processKeys.system }) hskip' now'
  rw [hlines, ← hend'] at hend
  -- the counters before the frame and behind it are known
  have hcounters {k k' : Machine} (h : k.known = k'.known) :
      k.known.board.interrupts = k'.known.board.interrupts ∧
        k.known.board.vsyncGroups = k'.known.board.vsyncGroups := by
    rw [h]
    exact ⟨rfl, rfl⟩
  obtain ⟨hinterrupts, hvsyncs⟩ := hcounters hkeys
  obtain ⟨hinterrupts', hvsyncs'⟩ := hcounters hend
  refine ⟨FrameReport.ext ?_ ?_ ?_, hend⟩
  · rw [(report_tick now m).1, (report_tick now' m').1]
    exact congrArg₂ (· - ·) hinterrupts' hinterrupts
  · rw [(report_tick now m).2, (report_tick now' m').2]
    exact congrArg₂ (· - ·) hvsyncs' hvsyncs
  · exact hdrawn.trans hdrawn'.symm

-- No value tells of more.
theorem query_known (m : Machine) (path : String) : m.known.query path = m.query path := rfl

/-- What is known of a machine decides its answers. -/
theorem answer_known (h : m.known = m'.known) (hskip : m.config.frameSkip = false)
    (clock clock' : Nat → Nat) (q : Question) :
    (m.answer clock q).1 = (m'.answer clock' q).1 ∧
      (m.answer clock q).2.known = (m'.answer clock' q).2.known ∧
      (m.answer clock q).2.config = m.config := by
  have hboard : m.board.float = m'.board.float := congrArg System.bus (system_float h)
  cases q with
  | tick =>
    obtain ⟨hreport, hknown⟩ := tick_known h hskip (clock m.frameCount) (clock' m'.frameCount)
    exact ⟨congrArg Answer.frame hreport, hknown, (tick_system _ m).2.2⟩
  | input port =>
    have hanswers : Z80.Bus.input port m.board.float = _ := Z80.AccessHom.input port m.board
    rw [hboard, Z80.AccessHom.input] at hanswers
    obtain ⟨hbyte, hnext⟩ := Prod.mk.inj hanswers
    exact ⟨congrArg Answer.byte hbyte.symm, known_withBoard h hnext.symm, rfl⟩
  | output port v =>
    have hnext : Z80.Bus.output port v m.board.float = _ := Z80.AccessHom.output port v m.board
    rw [hboard, Z80.AccessHom.output] at hnext
    exact ⟨rfl, known_withBoard h hnext.symm, rfl⟩
  | query path =>
    have hvalue : m.known.query path = m'.known.query path := congrArg (query · path) h
    rw [query_known, query_known] at hvalue
    exact ⟨congrArg Answer.value hvalue, h, rfl⟩

theorem answers_known (h : m.known = m'.known) (hskip : m.config.frameSkip = false)
    (clock clock' : Nat → Nat) (questions : List Question) :
    (m.answers clock questions).1 = (m'.answers clock' questions).1 ∧
      (m.answers clock questions).2.known = (m'.answers clock' questions).2.known := by
  induction questions generalizing m m' with
  | nil => exact ⟨rfl, h⟩
  | cons q questions ih =>
    obtain ⟨hanswer, hnext, hconfig⟩ := answer_known h hskip clock clock' q
    obtain ⟨hrest, hlast⟩ := ih hnext (hconfig ▸ hskip)
    exact ⟨congrArg₂ List.cons hanswer hrest, hlast⟩

/-! ## Loading -/

/-- Two machines of one kind: they have the same configuration and period, the same ROMs and disks,
and a host has set the same straps and levels. -/
structure Alike (m m' : Machine) : Prop where
  config : m.config = m'.config
  period : m.cpu.period = m'.cpu.period
  lowerRom : m.board.memory.lowerRom = m'.board.memory.lowerRom
  upperRoms : m.board.memory.upperRoms = m'.board.memory.upperRoms
  disks : ∀ n, (m.board.fdc.drive n).disk = (m'.board.fdc.drive n).disk
  manufacturer : m.board.manufacturer = m'.board.manufacturer
  refresh50 : m.board.refresh50 = m'.board.refresh50
  cassetteIn : m.board.cassetteIn = m'.board.cassetteIn
  printerBusy : m.board.printerBusy = m'.board.printerBusy
  expansionPresent : m.board.expansionPresent = m'.board.expansionPresent
  portC : m.board.ppi.externalC = m'.board.ppi.externalC
  portB : m.board.psg.portBInput = m'.board.psg.portBInput

-- The sound generator of a snapshot has the registers of the snapshot, and its pins are as they were.
theorem psg_restore_floating {psg psg' : Psg} (h : psg.portBInput = psg'.portBInput)
    (selected : UInt8) (regs : Vector UInt8 16) :
    (restorePsg selected regs psg.reset).floating =
      (restorePsg selected regs psg'.reset).floating := by
  have hpins (psg : Psg) : (restorePsg selected regs psg).portBInput = psg.portBInput :=
    List.foldlRecOn (motive := fun p : Psg => p.portBInput = psg.portBInput) _ _ rfl
      fun _ hp _ _ => hp
  have hregs (psg : Psg) : (restorePsg selected regs psg).regs = _ :=
    Psg.regs_foldl_setRegister regs (List.finRange 16) psg
  refine Psg.ext ?_ rfl rfl ?_
  · exact (hregs psg.reset).trans (hregs psg'.reset).symm
  · exact (hpins psg.reset).trans (h.trans (hpins psg'.reset).symm)

namespace Alike

theorem fdc_restore (h : m.Alike m') (s : Snapshot) :
    (m.restore s).board.fdc = (m'.restore s).board.fdc := by
  have hdrive (n : Floppy.DriveNumber) :
      (m.board.fdc.drive n).home = (m'.board.fdc.drive n).home :=
    congrArg (fun disk => ({ disk } : Floppy.Drive)) (h.disks n)
  exact congrArg₂ (fun driveA driveB =>
    ({ driveA, driveB, motor := s.motor } : Floppy.Controller)) (hdrive .a) (hdrive .b)

theorem memory_restore (h : m.Alike m')
    (hsize : m.board.memory.ram.size = m'.board.memory.ram.size) (s : Snapshot) :
    (m.restore s).board.memory = (m'.restore s).board.memory := by
  let loaded (mem : Memory) : Memory := (mem.selectUpperRom s.romSelect).loadRam s.ram
  have hram : (loaded m.board.memory).ram = (loaded m'.board.memory).ram :=
    congrArg (fun size => s.ram ++ (⟨Array.replicate (size - s.ram.size) 0⟩ : ByteArray)) hsize
  show (loaded m.board.memory).remap _ _ = (loaded m'.board.memory).remap _ _
  exact Memory.remap_congr hram h.lowerRom h.upperRoms rfl _ _

theorem board_restore (h : m.Alike m')
    (hsize : m.board.memory.ram.size = m'.board.memory.ram.size) (s : Snapshot) :
    (m.restore s).board.floating = (m'.restore s).board.floating := by
  have hppi : (m.restore s).board.floating.ppi = (m'.restore s).board.floating.ppi :=
    Ppi.ext rfl rfl rfl rfl rfl rfl h.portC
  have hpsg : (m.restore s).board.floating.psg = (m'.restore s).board.floating.psg :=
    psg_restore_floating h.portB s.psgSelected s.psgRegs
  exact Mainboard.ext (h.memory_restore hsize s) rfl rfl hppi hpsg (h.fdc_restore s) rfl
    h.manufacturer h.refresh50 h.cassetteIn h.printerBusy h.expansionPresent rfl rfl rfl

/-- Brought into the state of one snapshot, both are known to be the same. -/
theorem restore_known (h : m.Alike m') (hm : m.Fitted) (hm' : m'.Fitted) (s : Snapshot) :
    (m.restore s).known = (m'.restore s).known := by
  have hsize : m.board.memory.ram.size = m'.board.memory.ram.size := by
    rw [hm.ramSize, hm'.ramSize, h.config]
  have hcpu : (m.restore s).cpu = (m'.restore s).cpu := by
    rw [cpu_restore, cpu_restore]
    unfold Z80.Cpu.reset
    rw [h.period]
  have hundefined : m.system.undefined = m'.system.undefined := by
    rw [hm.undefined, hm'.undefined]
  have hcanvas : m.framebuffer.clear = m'.framebuffer.clear := by
    unfold Framebuffer.clear
    rw [hm.format, hm.monitor, hm'.format, hm'.monitor, h.config]
  exact Machine.ext (System.ext hcpu (h.board_restore hsize s) hundefined) h.config hcanvas
    rfl rfl rfl rfl rfl

end Alike

-- Whether a file can be loaded depends on the file and the size of the RAM.
theorem loadSna_cases (hsize : m.board.memory.ram.size = m'.board.memory.ram.size)
    (file : ByteArray) :
    (∃ e, m.loadSna file = .error e ∧ m'.loadSna file = .error e) ∨
      ∃ s, m.loadSna file =
          .ok (((modelNotice s m.config.model).elim m fun n => m.notify n).restore s) ∧
        m'.loadSna file =
          .ok (((modelNotice s m'.config.model).elim m' fun n => m'.notify n).restore s) := by
  have hkb : m'.board.memory.ramKb = m.board.memory.ramKb := by
    unfold Memory.ramKb
    rw [hsize]
  unfold Machine.loadSna
  rw [hkb]
  split
  case h_1 e => exact .inl ⟨_, rfl, rfl⟩
  case h_2 s hs =>
    dsimp only
    split
    · exact .inl ⟨_, rfl, rfl⟩
    · exact .inr ⟨s, rfl, rfl⟩

-- A notice that is given while a snapshot is loaded is no part of what is known.
theorem known_restore (s : Snapshot) (notice : Option Notice) (m : Machine) :
    ((notice.elim m fun n => m.notify n).restore s).known = (m.restore s).known := by
  cases notice <;> rfl

/-- A file that does not load into one of two machines of a kind does not load into the other, and
changes neither. One that does makes them the same but for the levels that are driven anew, the
notices, and the time of the last frame; and from then on they give the same answers to all that they
are asked, whatever the times at which their frames end. -/
theorem loadSna_forgets (h : Operated m) (h' : Operated m') (halike : m.Alike m')
    (hskip : m.config.frameSkip = false) (file : ByteArray) :
    (∃ e, m.loadSna file = .error e ∧ m'.loadSna file = .error e ∧
        (Action.loadSna file).apply m = m ∧ (Action.loadSna file).apply m' = m') ∨
      ∃ l l', m.loadSna file = .ok l ∧ m'.loadSna file = .ok l' ∧ l.known = l'.known ∧
        ∀ (clock clock' : Nat → Nat) (questions : List Question),
          (l.answers clock questions).1 = (l'.answers clock' questions).1 ∧
            (l.answers clock questions).2.known = (l'.answers clock' questions).2.known := by
  have hsize : m.board.memory.ram.size = m'.board.memory.ram.size := by
    rw [h.fitted.ramSize, h'.fitted.ramSize, halike.config]
  rcases loadSna_cases hsize file with ⟨e, hload, hload'⟩ | ⟨s, hload, hload'⟩
  · refine .inl ⟨e, hload, hload', ?_, ?_⟩
    · simp only [Action.apply, hload]
    · simp only [Action.apply, hload']
  · have hgiven := known_restore s (modelNotice s m.config.model) m
    have hgiven' := known_restore s (modelNotice s m'.config.model) m'
    have hknown := hgiven.trans ((halike.restore_known h.fitted h'.fitted s).trans hgiven'.symm)
    refine .inr ⟨_, _, hload, hload', hknown, fun clock clock' questions => ?_⟩
    exact answers_known hknown ((congrArg (·.config.frameSkip) hgiven).trans hskip) clock clock'
      questions

-- A load leaves the level on port A as it is.
theorem externalA_loadSna {file : ByteArray} {l : Machine} (h : m.loadSna file = .ok l) :
    l.board.ppi.externalA = m.board.ppi.externalA := by
  obtain ⟨s, -, -, rfl⟩ := loadSna_ok h
  cases modelNotice s m.config.model <;> rfl

/-- A machine that was only just built, and one with another past that has left another level on
port A. The level survives the load, but there is no telling. -/
theorem loadSna_forgets_portA : ∃ m m' l l' : Machine, Operated m ∧ Operated m' ∧
    m.loadSna (Snapshot.toBytes { ppiControl := 0x9B }) = .ok l ∧
    m'.loadSna (Snapshot.toBytes { ppiControl := 0x9B }) = .ok l' ∧
    l.board.ppi.externalA = 0xFF ∧ l'.board.ppi.externalA = 0 ∧
    (l.answers id [.tick, .query "ppi.a", .input 0xF400]).1 =
      (l'.answers (fun _ => 0) [.tick, .query "ppi.a", .input 0xF400]).1 := by
  obtain ⟨built, hbuilt⟩ : ∃ m, Machine.build
      { model := .cpc464, systemRom := ⟨Array.replicate 0x8000 0⟩, frameSkip := false } = .ok m :=
    exists_build (Nat.le_refl 64) (by decide) (by decide) Array.size_replicate (by simp)
  have hlevel : built.board.ppi.externalA = 0xFF ∧ built.config.frameSkip = false := by
    obtain ⟨mem, -, hm⟩ := bind_ok hbuilt
    cases hm
    exact ⟨rfl, rfl⟩
  have hm : Operated built := .build hbuilt
  have hm' := hm.hold { built.cpu with regs.pc := 0x1234, intPending := true }
    { built.board with
      ppi := { built.board.ppi with portA := 0x55, externalA := 0 }
      psg := built.board.psg.select 14
      printerData := 0x41 } {} #[] hm.fitted.whole rfl
  obtain ⟨e, herror, -⟩ | ⟨l, l', hl, hl', -, hanswers⟩ :=
    loadSna_forgets hm hm' ⟨rfl, rfl, rfl, rfl, fun _ => rfl, rfl, rfl, rfl, rfl, rfl, rfl, rfl⟩
      hlevel.2 (Snapshot.toBytes { ppiControl := 0x9B })
  · have hload := loadSna_toBytes (m := built) (s := { ppiControl := 0x9B }) rfl rfl rfl
      (Nat.zero_le _)
    rw [hload] at herror
    cases herror
  · exact ⟨_, _, l, l', hm, hm', hl, hl', (externalA_loadSna hl).trans hlevel.1,
      externalA_loadSna hl', (hanswers _ _ _).1⟩

end Machine

end AmstradCpc
