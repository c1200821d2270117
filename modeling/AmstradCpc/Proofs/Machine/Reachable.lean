import AmstradCpc.Machine.Drives
import AmstradCpc.Machine.Frame
import AmstradCpc.Machine.Snapshots
import AmstradCpc.Proofs.Mainboard.Banking
import AmstradCpc.Proofs.Mainboard.Registers
import AmstradCpc.Proofs.Snapshot.Codec
import AmstradCpc.Proofs.Z80.Frame

/-!
# Reachable machines

A host builds a machine and then runs frames, resets it, loads snapshots, works its keys and
exchanges its disks, in any order. `Machine.Sound` is what holds of every machine that it can get
this way: the model and the size of the RAM are those it was built with, the chips are in range, and
between two calls of the host the CPU has latched a request just when the Gate Array makes one.
-/

namespace AmstradCpc.Machine

/-! ## What a host does -/

/-- What a host does to a machine. -/
inductive Action
  /-- Run a frame that ends at `now`. -/
  | tick (now : Nat)
  | reset
  | loadSna (file : ByteArray)
  /-- Press or release the keys of a mask on a line of the keyboard. -/
  | key (line : Nat) (mask : UInt8) (pressed : Bool)
  | releaseKeys
  | queueKey (e : KeyEvent)
  | typeText (text : String)
  | insertDisk (d : Floppy.DriveNumber) (disk : Disk)
  | removeDisk (n : Nat)

/-- The machine after an action. A snapshot that cannot be loaded changes nothing. -/
def Action.apply (m : Machine) : Action → Machine
  | .tick now => (m.tick now).2
  | .reset => m.reset
  | .loadSna file =>
    match m.loadSna file with
    | .ok m => m
    | .error _ => m
  | .key line mask pressed => m.mapKeyboard (·.change line mask pressed)
  | .releaseKeys => m.mapKeyboard (·.releaseAll)
  | .queueKey e => { m with queue := m.queue.push e }
  | .typeText text => (m.typeText text).2
  | .insertDisk d disk => m.insertDisk d disk
  | .removeDisk n => (m.removeDisk n).2

/-- The machines that a host can get from a configuration. -/
inductive Reachable (config : Config) : Machine → Prop
  | build {m : Machine} (h : Machine.build config = .ok m) : Reachable config m
  | act {m : Machine} (h : Reachable config m) (a : Action) : Reachable config (a.apply m)

/-! ## Runs of scanlines -/

/-- Ranges of the chips and of the interrupt mode, which every scanline keeps. -/
structure SystemValid (size : Nat) (s : Z80.System Mainboard) : Prop where
  board : s.bus.Valid size
  im : s.regs.im ≤ 3

/-- The CPU has latched a request just when the Gate Array makes one. -/
def InStep (s : Z80.System Mainboard) : Prop := s.cpu.intPending = s.bus.gateArray.intRequest

-- Behind the last step of a scanline the board counts it, and the CPU at most latches a maskable
-- request or drops one.
theorem runLine_end (s : Z80.System Mainboard) :
    (runLine s).regs = (Z80.System.runFor s.cpu.countdown 0 s).2.2.regs ∧
      (runLine s).cpu.nmiPending = (Z80.System.runFor s.cpu.countdown 0 s).2.2.cpu.nmiPending ∧
      (runLine s).bus = (Z80.System.runFor s.cpu.countdown 0 s).2.2.bus.scanline := by
  have hlatch (cpu : Z80.Cpu) (c : Bool) :
      (cpu.latch (if c then .maskable else .none)).regs = cpu.regs ∧
        (cpu.latch (if c then .maskable else .none)).nmiPending = cpu.nmiPending := by
    cases c <;> exact ⟨rfl, rfl⟩
  have hdrop (r : Z80.System Mainboard) :
      (dropStaleRequest r).regs = r.regs ∧
        (dropStaleRequest r).cpu.nmiPending = r.cpu.nmiPending ∧
        (dropStaleRequest r).bus = r.bus := by
    unfold dropStaleRequest
    split <;> exact ⟨rfl, rfl, rfl⟩
  obtain ⟨hregs, hnmi, hbus⟩ := hdrop s.runPeriod.2
  exact ⟨hregs.trans (hlatch _ _).1, hnmi.trans (hlatch _ _).2, hbus⟩

namespace SystemValid

variable {size : Nat} {s : Z80.System Mainboard}

theorem step (h : SystemValid size s) : SystemValid size s.step.2 where
  board := Z80.System.step_keeps (Mainboard.Valid.accessKeeps size)
    (fun _ hb => hb.acknowledge) s h.board
  im := by
    rcases s.im_step with him | him
    · rw [him]
      exact h.im
    · exact UInt8.le_trans him (by decide)

theorem runLine (h : SystemValid size s) : SystemValid size (runLine s) := by
  have hrun := Z80.System.runFor_keeps (fun _ hs => SystemValid.step hs) s.cpu.countdown 0 s h
  obtain ⟨hregs, -, hbus⟩ := runLine_end s
  constructor
  · rw [hbus]
    exact hrun.board.scanline
  · rw [hregs]
    exact hrun.im

theorem runLines (n : Nat) (h : SystemValid size s) : SystemValid size (runLines n s) := by
  induction n generalizing s with
  | zero => exact h
  | succ n ih => exact ih h.runLine

end SystemValid

/-- Each scanline ends with the CPU and the Gate Array in step: the poll latches a request that is
made, and one that is not made is dropped. -/
theorem inStep_runLine (s : Z80.System Mainboard) : InStep (runLine s) := by
  -- what the Gate Array requests at the poll is latched, whatever was latched before
  have hlatch : s.runPeriod.2.bus.gateArray.intRequest = true →
      s.runPeriod.2.cpu.intPending = true := by
    intro h
    have h' : (Mainboard.scanline _).gateArray.intRequest = true := h
    show (Z80.Cpu.latch _ (if _ then _ else _)).intPending = true
    rw [if_pos h']
    rfl
  unfold runLine dropStaleRequest InStep
  split
  case isTrue h =>
    rw [Bool.and_eq_true, Bool.not_eq_true'] at h
    exact h.2.symm
  case isFalse h =>
    -- nothing was dropped, so the two agree already
    cases hr : s.runPeriod.2.bus.gateArray.intRequest with
    | true => exact hlatch hr
    | false => simpa [hr] using h

theorem inStep_runLines (n : Nat) (s : Z80.System Mainboard) : InStep (runLines (n + 1) s) := by
  induction n generalizing s with
  | zero => exact inStep_runLine s
  | succ n ih => exact ih (runLine s)

/-! ## Sound machines -/

/-- What holds of every machine of a configuration, whatever its host does. -/
structure Sound (config : Config) (m : Machine) : Prop where
  model : m.config.model = config.model
  valid : SystemValid (config.ramKb * 1024) m.system
  inStep : InStep m.system

theorem bind_ok {ε α β : Type} {x : Except ε α} {f : α → Except ε β} {b : β}
    (h : x >>= f = .ok b) : ∃ a, x = .ok a ∧ f a = .ok b := by
  cases x with
  | error e => cases h
  | ok a => exact ⟨a, rfl, h⟩

theorem ram_loadUpperRoms {roms : List (UInt8 × ByteArray)} {mem mem' : Memory}
    (h : roms.foldlM (fun m (slot, image) => m.loadUpperRom slot image) mem = .ok mem') :
    mem'.ram = mem.ram := by
  induction roms generalizing mem with
  | nil =>
    cases h
    rfl
  | cons rom roms ih =>
    rw [List.foldlM_cons] at h
    obtain ⟨next, hnext, hrest⟩ := bind_ok h
    have hload : mem.loadUpperRom rom.1 rom.2 = .ok next := hnext
    rw [ih hrest]
    -- a ROM that is accepted goes into its slot and nowhere else
    unfold Memory.loadUpperRom at hload
    split at hload
    · cases hload
    · cases hload
      rfl

-- The memory of a configuration, and what it takes to build it.
theorem buildMemory_ok {config : Config} {mem : Memory} (h : buildMemory config = .ok mem) :
    64 ≤ config.ramKb ∧ config.ramKb ≤ 576 ∧ config.ramKb % 64 = 0 ∧
      mem.ram.size = config.ramKb * 1024 := by
  obtain ⟨base, hbase, hroms⟩ := bind_ok h
  obtain ⟨hmin, hmax, hpages, -, rfl⟩ := Memory.build_ok hbase
  refine ⟨hmin, hmax, hpages, ?_⟩
  rw [ram_loadUpperRoms hroms]
  exact Array.size_replicate

theorem sound_reset {config : Config} {m : Machine} (hmodel : m.config.model = config.model)
    (hram : m.board.memory.ram.size = config.ramKb * 1024) : m.reset.Sound config where
  model := hmodel
  valid := ⟨Mainboard.valid_reset hram, (by decide : (0 : UInt8) ≤ 3)⟩
  inStep := rfl

theorem build_ok {config : Config} {m : Machine} (h : Machine.build config = .ok m) :
    64 ≤ config.ramKb ∧ config.ramKb ≤ 576 ∧ config.ramKb % 64 = 0 ∧ m.Sound config := by
  obtain ⟨mem, hmem, hm⟩ := bind_ok h
  obtain ⟨hmin, hmax, hpages, hram⟩ := buildMemory_ok hmem
  refine ⟨hmin, hmax, hpages, ?_⟩
  cases hm
  let board : Mainboard :=
    { memory := mem, manufacturer := config.manufacturer.code, refresh50 := config.refresh = .hz50 }
  exact { sound_reset (m := {
    system := { cpu := {}, bus := board }
    config, framebuffer := .blank config.pixelFormat config.monitor }) rfl hram with }

-- Of the system, drawing, counting and taking notices touch only the list of undefined opcodes.
theorem endFrame_system (now : Nat) (m : Machine) :
    (m.collectUndefined.endFrame now).2.system.cpu = m.system.cpu ∧
      (m.collectUndefined.endFrame now).2.system.bus = m.system.bus ∧
      (m.collectUndefined.endFrame now).2.config = m.config := by
  unfold endFrame
  dsimp only
  split <;> exact ⟨rfl, rfl, rfl⟩

/-- A frame is 312 scanlines after the keys that are due. -/
theorem tick_system (now : Nat) (m : Machine) :
    (m.tick now).2.system.cpu = (runLines linesPerFrame m.processKeys.system).cpu ∧
      (m.tick now).2.system.bus = (runLines linesPerFrame m.processKeys.system).bus ∧
      (m.tick now).2.config = m.config :=
  endFrame_system now { m.processKeys with system := runLines linesPerFrame m.processKeys.system }

theorem SystemValid.tick {size : Nat} {m : Machine} (h : SystemValid size m.system) (now : Nat) :
    SystemValid size (m.tick now).2.system := by
  -- the keys that are due reach the keyboard only
  have hkeys : SystemValid size m.processKeys.system := ⟨{ h.board with }, h.im⟩
  have hlines := hkeys.runLines linesPerFrame
  obtain ⟨hcpu, hbus, -⟩ := tick_system now m
  constructor
  · rw [hbus]
    exact hlines.board
  · show (m.tick now).2.system.cpu.regs.im ≤ 3
    rw [hcpu]
    exact hlines.im

/-! ## Restoring -/

theorem valid_restoreCrtc {crtc : Crtc} (h : crtc.Valid) (selected : UInt8)
    (regs : Vector UInt8 18) : (restoreCrtc selected regs crtc).Valid :=
  List.foldlRecOn (motive := Crtc.Valid) _ _ (h.select selected)
    fun _ hc i _ => hc.setRegister i.val regs[i]

theorem valid_restorePsg {psg : Psg} (h : psg.Valid) (selected : UInt8)
    (regs : Vector UInt8 16) : (restorePsg selected regs psg).Valid :=
  (List.foldlRecOn (motive := Psg.Valid) _ _ h
    fun _ hp i _ => hp.setRegister i.val regs[i]).select selected

-- Whatever bytes a snapshot has, the chips come into their ranges.
theorem valid_restoreBoard {size : Nat} {b : Mainboard} (h : b.Valid size) {s : Snapshot}
    (hram : s.ram.size ≤ size) : (restoreBoard s b).Valid size where
  ramSize := by
    show (s.ram ++ ⟨Array.replicate (b.memory.ram.size - s.ram.size) 0⟩ : ByteArray).size = size
    rw [ByteArray.size_append, h.ramSize]
    show s.ram.size + (Array.replicate _ _).size = size
    rw [Array.size_replicate]
    omega
  gateArray := GateArray.valid_restore h.gateArray ..
  crtc := valid_restoreCrtc h.crtc ..
  psg := valid_restorePsg h.psg ..
  ppi := Ppi.valid_restore ..

-- The machine is reset before, so it need not have been in range.
theorem systemValid_restore {size : Nat} {m : Machine} (hsize : m.board.memory.ram.size = size)
    {s : Snapshot} (him : s.cpu.im ≤ 3) (hram : s.ram.size ≤ size) :
    SystemValid size (m.restore s).system where
  board := valid_restoreBoard (Mainboard.valid_reset hsize) hram
  im := by
    unfold Machine.restore
    dsimp only [mapCpu]
    show Z80.Registers.im (Z80.Cpu.regs (if _ then _ else _)) ≤ 3
    split <;> exact him

-- A file that is loaded holds a snapshot whose dump fits.
theorem loadSna_ok {m m' : Machine} {file : ByteArray} (h : m.loadSna file = .ok m') :
    ∃ s, Snapshot.ofBytes file = .ok s ∧ s.ram.size ≤ m.board.memory.ram.size ∧
      m' = ((modelNotice s m.config.model).elim m fun n => m.notify n).restore s := by
  unfold Machine.loadSna at h
  split at h
  case h_1 => cases h
  case h_2 s hs =>
    dsimp only at h
    split at h
    case isTrue => cases h
    case isFalse hfits =>
      refine ⟨s, hs, ?_, (Except.ok.inj h).symm⟩
      have hkb : m.board.memory.ramKb = m.board.memory.ram.size / 1024 := rfl
      rw [Snapshot.size_ram_of_ofBytes hs]
      omega

/-- The machine with other keys, disks and notices. -/
def withOther (keyboard : Keyboard) (fdc : Floppy.Controller) (queue : KeyQueue)
    (notices : Array Notice) (m : Machine) : Machine :=
  { m.mapBoard fun b => { b with keyboard, fdc } with queue, notices }

/-- All that an action can do to a machine: run a frame, reset it, bring it into the state of a
snapshot that fits, or change its keys, disks and notices. -/
theorem Action.apply_cases (a : Action) (m : Machine) :
    (∃ now, a.apply m = (m.tick now).2) ∨
    a.apply m = m.reset ∨
    (∃ (s : Snapshot) (notices : Array Notice), s.cpu.im ≤ 3 ∧
      s.ram.size ≤ m.board.memory.ram.size ∧ a.apply m = { m with notices }.restore s) ∨
    ∃ keyboard fdc queue notices, a.apply m = m.withOther keyboard fdc queue notices := by
  cases a with
  | tick now => exact .inl ⟨now, rfl⟩
  | reset => exact .inr (.inl rfl)
  | loadSna file =>
    cases hload : m.loadSna file with
    | ok m' =>
      obtain ⟨s, hs, hfits, rfl⟩ := loadSna_ok hload
      have hnotices : (modelNotice s m.config.model).elim m (fun n => m.notify n) =
          { m with
            notices := (modelNotice s m.config.model).elim m.notices fun n => m.notices.push n } := by
        cases modelNotice s m.config.model <;> rfl
      simp only [apply, hload, hnotices]
      exact .inr (.inr (.inl ⟨s, _, Snapshot.im_le_of_ofBytes hs, hfits, rfl⟩))
    | error e =>
      simp only [apply, hload]
      exact .inr (.inr (.inr ⟨m.board.keyboard, m.board.fdc, m.queue, m.notices, rfl⟩))
  -- what a key or a disk changes, and the rest of the four as it was
  | key line mask pressed => exact .inr (.inr (.inr ⟨_, m.board.fdc, m.queue, m.notices, rfl⟩))
  | releaseKeys => exact .inr (.inr (.inr ⟨_, m.board.fdc, m.queue, m.notices, rfl⟩))
  | queueKey e => exact .inr (.inr (.inr ⟨m.board.keyboard, m.board.fdc, _, m.notices, rfl⟩))
  | typeText text => exact .inr (.inr (.inr ⟨m.board.keyboard, m.board.fdc, _, m.notices, rfl⟩))
  | insertDisk d disk =>
    exact .inr (.inr (.inr ⟨m.board.keyboard, _, m.queue, m.notices, rfl⟩))
  | removeDisk n =>
    refine .inr (.inr (.inr ?_))
    show ∃ keyboard fdc queue notices,
      (Machine.removeDisk n m).2 = m.withOther keyboard fdc queue notices
    unfold Machine.removeDisk
    split
    · exact ⟨m.board.keyboard, m.board.fdc, m.queue, m.notices, rfl⟩
    · dsimp only
      -- with or without a notice that changes were lost
      split
      · exact ⟨m.board.keyboard, _, m.queue, _, rfl⟩
      · exact ⟨m.board.keyboard, _, m.queue, m.notices, rfl⟩

-- A machine can be built whose system ROM has 32 KB and whose upper ROMs have no more than 16 KB.
theorem exists_build {config : Config} (hmin : 64 ≤ config.ramKb) (hmax : config.ramKb ≤ 576)
    (hpages : config.ramKb % 64 = 0) (hrom : config.systemRom.size = 0x8000)
    (hroms : ∀ rom ∈ config.upperRoms, rom.2.size ≤ 0x4000) :
    ∃ m, Machine.build config = .ok m := by
  -- no upper ROM is refused
  have hload (roms : List (UInt8 × ByteArray)) (h : ∀ rom ∈ roms, rom.2.size ≤ 0x4000)
      (mem : Memory) :
      ∃ mem', roms.foldlM (fun m (slot, image) => m.loadUpperRom slot image) mem = .ok mem' := by
    induction roms generalizing mem with
    | nil => exact ⟨mem, rfl⟩
    | cons rom roms ih =>
      have hsize : ¬ Memory.bankSize < rom.2.size := Nat.not_lt.mpr (h rom List.mem_cons_self)
      obtain ⟨next, hnext⟩ : ∃ next, mem.loadUpperRom rom.1 rom.2 = .ok next := by
        unfold Memory.loadUpperRom
        rw [if_neg hsize]
        exact ⟨_, rfl⟩
      obtain ⟨mem', hmem'⟩ := ih (fun rom hmem => h rom (List.mem_cons_of_mem _ hmem)) next
      refine ⟨mem', ?_⟩
      rw [List.foldlM_cons]
      show (mem.loadUpperRom rom.1 rom.2 >>= fun next => _) = _
      rw [hnext]
      exact hmem'
  obtain ⟨base, hbase⟩ := Memory.exists_build hmin hmax hpages hrom
  obtain ⟨mem, hmem⟩ := hload config.upperRoms hroms base
  have hbuild : buildMemory config = .ok mem := by
    unfold buildMemory
    rw [hbase]
    exact hmem
  unfold Machine.build
  rw [hbuild]
  exact ⟨_, rfl⟩

namespace Sound

variable {config : Config} {m : Machine}

theorem ramKb_eq (h : m.Sound config) : m.board.memory.ramKb = config.ramKb := by
  show m.system.bus.memory.ram.size / 1024 = config.ramKb
  rw [h.valid.board.ramSize, Nat.mul_div_cancel _ (by decide)]

theorem tick (h : m.Sound config) (now : Nat) : (m.tick now).2.Sound config := by
  obtain ⟨hcpu, hbus, hconfig⟩ := tick_system now m
  have hinStep := inStep_runLines 311 m.processKeys.system
  refine ⟨hconfig ▸ h.model, h.valid.tick now, ?_⟩
  unfold InStep
  rw [hcpu, hbus]
  exact hinStep

theorem restore (h : m.Sound config) {s : Snapshot} (him : s.cpu.im ≤ 3)
    (hram : s.ram.size ≤ config.ramKb * 1024) : (m.restore s).Sound config where
  model := h.model
  valid := systemValid_restore h.valid.board.ramSize him hram
  inStep := by
    show Z80.Cpu.intPending (if s.intRequest then _ else _) = s.intRequest
    cases s.intRequest <;> rfl

/-- No action of the host makes a sound machine unsound. -/
theorem apply (h : m.Sound config) (a : Action) : (a.apply m).Sound config := by
  rcases a.apply_cases m with
    ⟨now, ha⟩ | ha | ⟨s, notices, him, hfits, ha⟩ | ⟨keyboard, fdc, queue, notices, ha⟩ <;> rw [ha]
  · exact h.tick now
  · exact sound_reset h.model h.valid.board.ramSize
  · have hnotices : Sound config { m with notices } := { h with }
    exact hnotices.restore him (h.valid.board.ramSize ▸ hfits)
  · -- the chips in question are not touched
    exact ⟨h.model, ⟨{ h.valid.board with }, h.valid.im⟩, h.inStep⟩

end Sound

-- A snapshot that can be loaded leads to a machine that can be reached.
theorem Reachable.loadSna {config : Config} {m m' : Machine} (h : Reachable config m)
    {file : ByteArray} (hload : m.loadSna file = .ok m') : Reachable config m' := by
  have hact := h.act (.loadSna file)
  simp only [Action.apply, hload] at hact
  exact hact

-- The size of the RAM is one that can be built.
theorem Reachable.ramKb {config : Config} {m : Machine} (h : Reachable config m) :
    64 ≤ config.ramKb ∧ config.ramKb ≤ 576 ∧ config.ramKb % 64 = 0 := by
  induction h with
  | build h =>
    obtain ⟨hmin, hmax, hpages, -⟩ := build_ok h
    exact ⟨hmin, hmax, hpages⟩
  | act _ _ ih => exact ih

/-- Every machine that a host can get is sound. -/
theorem Reachable.sound {config : Config} {m : Machine} (h : Reachable config m) :
    m.Sound config := by
  induction h with
  | build h => exact (build_ok h).2.2.2
  | act _ a ih => exact ih.apply a

end AmstradCpc.Machine
