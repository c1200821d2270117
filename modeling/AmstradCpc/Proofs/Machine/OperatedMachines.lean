import AmstradCpc.Proofs.Machine.BankedMachines

/-!
# Machines in operation

A host can do more to a machine than run it: it turns the settings, and it has hold of the CPU, the
board and the queue of keys. `Machine.Operated` are the machines that it can get in all these ways.
The configuration and the canvas are out of its hands but for the settings, so the machines remain
what their configuration says: `Machine.Operated.fitted`.
-/

namespace AmstradCpc

open Z80 (BusCall replay)

/-! ## Memory -/

namespace Mainboard

variable (b : Mainboard)

@[simp] theorem fittings_writeGateArray (v : UInt8) :
    (b.writeGateArray v).memory.fittings = b.memory.fittings := by
  unfold writeGateArray
  dsimp only
  split <;> rfl

@[simp] theorem fittings_writeRomSelect (v : UInt8) :
    (b.writeRomSelect v).memory.fittings = b.memory.fittings :=
  rfl

-- No call changes the size of the RAM, or the ROMs.
theorem fittings_call (c : BusCall) : (c.apply b).memory.fittings = b.memory.fittings := by
  cases c with
  | read a => rfl
  | write a v =>
    show (b.memory.write a v).fittings = b.memory.fittings
    unfold Memory.write
    dsimp only
    split
    · exact congrArg (·, b.memory.lowerRom, b.memory.upperRoms) (Array.size_set _)
    · rfl
  | input port => exact congrArg Memory.fittings (b.memory_input port)
  | output port v =>
    show (b.output port v).memory.fittings = b.memory.fittings
    simp [output, apply_ite Memory.fittings]
  | acknowledge => rfl
  | poll => exact congrArg Memory.fittings b.memory_scanline

theorem fittings_replay (calls : List BusCall) :
    (replay calls b).memory.fittings = b.memory.fittings :=
  Z80.replay_keeps (P := fun b' : Mainboard => b'.memory.fittings = b.memory.fittings)
    (fun c b' hb => (b'.fittings_call c).trans hb) calls rfl

end Mainboard

namespace Machine

/-! ## What else a host does -/

/-- A setting that a host can turn. -/
inductive Setting
  | model (model : Model)
  | ram (ramKb? : Option Nat)
  | monitor (monitor : Monitor)
  | refresh (refresh : Refresh)
  | keyboard (layout : KeyboardLayout)
  | manufacturer (manufacturer : Manufacturer)
  | pixelFormat (format : PixelFormat)
  | frameSkip (on : Bool)

/-- The machine with another setting. One that cannot be had changes nothing. -/
def Setting.apply (m : Machine) : Setting → Machine
  | .model new => (m.setModel new).toOption.getD m
  | .ram ramKb? => (m.setRam ramKb?).toOption.getD m
  | .monitor new => m.setMonitor new
  | .refresh new => m.setRefresh new
  | .keyboard layout => m.setKeyboard layout
  | .manufacturer new => m.setManufacturer new
  | .pixelFormat format => m.setPixelFormat format
  | .frameSkip on => m.setFrameSkip on

/-- The machines that a host can get. It has hold of the CPU, the board and the queue of keys, and can
leave anything there but a memory that is not whole or has RAM of another size, which is a setting. -/
inductive Operated : Machine → Prop
  | build {config : Config} {m : Machine} (h : Machine.build config = .ok m) : Operated m
  | act {m : Machine} (h : Operated m) (a : Action) : Operated (a.apply m)
  | set {m : Machine} (h : Operated m) (s : Setting) : Operated (s.apply m)
  | hold {m : Machine} (h : Operated m) (cpu : Z80.Cpu) (board : Mainboard) (queue : KeyQueue)
      (notices : Array Notice) (hwhole : board.memory.Whole)
      (hram : board.memory.ram.size = m.board.memory.ram.size) :
      Operated { m with system := { m.system with cpu, bus := board }, queue, notices }

/-- The memory is whole, the RAM and the canvas are those of the configuration, and all undefined
opcodes are collected. -/
structure Fitted (m : Machine) : Prop where
  whole : m.board.memory.Whole
  ramSize : m.board.memory.ram.size = m.config.ramKb * 1024
  format : m.framebuffer.format = m.config.pixelFormat
  monitor : m.framebuffer.monitor = m.config.monitor
  undefined : m.system.undefined = #[]

namespace Fitted

variable {m m' : Machine}

theorem reset (h : m.Fitted) : m.reset.Fitted := { h with whole := h.whole.of_fittings rfl }

-- A rebuilt machine has the canvas that it had.
theorem rebuild {config : Config} (h : m.Fitted) (hm : m.rebuild config = .ok m')
    (hformat : config.pixelFormat = m.config.pixelFormat)
    (hmonitor : config.monitor = m.config.monitor) : m'.Fitted := by
  obtain ⟨mem, hmem, hm⟩ := bind_ok hm
  obtain ⟨-, -, -, hram⟩ := buildMemory_ok hmem
  have hexchanged : Fitted { m.mapBoard fun b => { b with memory := mem } with config } :=
    ⟨(banked_buildMemory hmem).whole, hram, h.format.trans hformat.symm,
      h.monitor.trans hmonitor.symm, h.undefined⟩
  cases hm
  exact { hexchanged.reset with }

-- At the end of a frame the canvas is drawn on, and the undefined opcodes are collected.
theorem endFrame (hwhole : m.board.memory.Whole)
    (hram : m.board.memory.ram.size = m.config.ramKb * 1024)
    (hformat : m.framebuffer.format = m.config.pixelFormat)
    (hmonitor : m.framebuffer.monitor = m.config.monitor) (now : Nat) :
    (m.collectUndefined.endFrame now).2.Fitted := by
  unfold Machine.endFrame
  dsimp only
  split <;> exact ⟨hwhole, hram, hformat, hmonitor, rfl⟩

theorem tick (h : m.Fitted) (now : Nat) : (m.tick now).2.Fitted := by
  have hboard : (runLines linesPerFrame m.processKeys.system).bus = _ :=
    (tick_system now m).2.1.symm.trans (board_tick now m)
  have hfittings : (runLines linesPerFrame m.processKeys.system).bus.memory.fittings =
      m.board.memory.fittings := by
    rw [hboard, Mainboard.fittings_replay]
    rfl
  have hsize := congrArg Prod.fst hfittings
  exact endFrame (m := { m.processKeys with system := runLines linesPerFrame m.processKeys.system })
    (h.whole.of_fittings hfittings) (hsize.trans h.ramSize) h.format h.monitor now

theorem restore (h : m.Fitted) {s : Snapshot} (hfits : s.ram.size ≤ m.board.memory.ram.size) :
    (m.restore s).Fitted := by
  have hfittings := fittings_restore hfits
  have hsize := congrArg Prod.fst hfittings
  exact ⟨h.whole.of_fittings hfittings, hsize.trans h.ramSize, h.format, h.monitor, h.undefined⟩

theorem apply (h : m.Fitted) (a : Action) : (a.apply m).Fitted := by
  rcases a.apply_cases m with ⟨now, ha⟩ | ha | ⟨s, notices, -, hfits, ha⟩ | ⟨_, _, _, _, ha⟩ <;>
    rw [ha]
  · exact h.tick now
  · exact h.reset
  · have hnotices : Fitted { m with notices } := { h with }
    exact hnotices.restore hfits
  · exact { h with }

theorem set (h : m.Fitted) (s : Setting) : (s.apply m).Fitted := by
  cases s with
  | model new =>
    show ((m.setModel new).toOption.getD m).Fitted
    cases hm : m.setModel new with
    | ok m' => exact h.rebuild hm rfl rfl
    | error e => exact h
  | ram ramKb? =>
    show ((m.setRam ramKb?).toOption.getD m).Fitted
    cases hm : m.setRam ramKb? with
    | ok m' => exact h.rebuild hm rfl rfl
    | error e => exact h
  | monitor new => exact { h with monitor := rfl }
  | refresh new => exact { h with }
  | keyboard layout => exact { h with }
  | manufacturer new => exact { h with }
  | pixelFormat format =>
    show (m.setPixelFormat format).Fitted
    have hcanvas : (m.framebuffer.setFormat format).format = format ∧
        (m.framebuffer.setFormat format).monitor = m.framebuffer.monitor := by
      unfold Framebuffer.setFormat
      split
      case isTrue hsame => exact ⟨hsame.symm, rfl⟩
      case isFalse => exact ⟨rfl, rfl⟩
    exact { h with format := hcanvas.1, monitor := hcanvas.2.trans h.monitor }
  | frameSkip on => exact { h with }

end Fitted

/-- Every machine that a host can get is fitted as its configuration says. -/
theorem Operated.fitted {m : Machine} (h : Operated m) : m.Fitted := by
  induction h with
  | @build config _ h =>
    obtain ⟨mem, hmem, hm⟩ := bind_ok h
    obtain ⟨-, -, -, hram⟩ := buildMemory_ok hmem
    let board : Mainboard :=
      { memory := mem, manufacturer := config.manufacturer.code, refresh50 := config.refresh = .hz50 }
    have hfresh : Fitted
        { system := { cpu := {}, bus := board }
          config, framebuffer := .blank config.pixelFormat config.monitor } :=
      ⟨(banked_buildMemory hmem).whole, hram, rfl, rfl, rfl⟩
    cases hm
    exact { hfresh.reset with }
  | act _ a ih => exact ih.apply a
  | set _ s ih => exact ih.set s
  | hold _ cpu board queue notices hwhole hram ih =>
    exact { ih with whole := hwhole, ramSize := hram.trans ih.ramSize }

end Machine

end AmstradCpc
