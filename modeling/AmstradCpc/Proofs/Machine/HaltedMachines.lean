import AmstradCpc.Proofs.Machine.BankedMachines

/-!
# Halted machines

Whatever a host does with a machine, its CPU is halted only just behind the byte of a `HALT`
(`Machine.Reachable.behindHalt`), through every bank it may be in. Snapshots rely on that: they do
not tell that the CPU is halted, but are taken with the program counter back on the `HALT`, and a
machine that loads one halts again in its first step (`Machine.halted_reloaded`).
-/

namespace AmstradCpc

-- Tables that are up to date come out of another `remap` as they are.
theorem Memory.Mapped.remap_eq {r c : UInt8} {m : Memory} (h : m.Mapped r c) : m.remap r c = m := by
  have hreads := h.reads
  have hwrites := h.writes
  cases m
  simp only [Memory.remap] at hreads hwrites ⊢
  rw [← hreads, ← hwrites]

-- What `remap` works out does not depend on the tables that were there.
theorem Memory.remap_congr {m m' : Memory} (hram : m.ram = m'.ram)
    (hlower : m.lowerRom = m'.lowerRom) (hupper : m.upperRoms = m'.upperRoms)
    (hselect : m.romSelect = m'.romSelect) (r c : UInt8) : m.remap r c = m'.remap r c := by
  cases m
  cases m'
  cases hram
  cases hlower
  cases hupper
  cases hselect
  rfl

/-- The registers of a halted CPU, put back on its `HALT` to run it again. -/
def Z80.Registers.beforeHalt (r : Z80.Registers) : Z80.Registers :=
  { r with pc := r.pc - 1, wz := 0, halted := false }

-- `HALT` undoes that, but for the refresh counter and the address latch.
theorem Z80.Registers.halted_again {r : Registers} (h : r.halted = true) :
    { r.beforeHalt.fetched with halted := true } = { r with r := r.refresh.r, wz := 0 } := by
  simp only [beforeHalt, fetched, refresh, UInt16.sub_add_cancel, h]

namespace Machine

variable {config : Config} {m other : Machine}

/-! ## Runs -/

theorem behindHalt_runLine {s : Z80.System Mainboard} (h : s.BehindHalt) :
    (runLine s).BehindHalt := by
  have hrun := Z80.System.runFor_keeps
    (fun _ hr => Z80.System.BehindHalt.step Mainboard.pureReads hr) s.cpu.countdown 0 s h
  obtain ⟨hregs, -, hbus⟩ := runLine_end s
  refine hrun.congr hregs fun a => ?_
  rw [Mainboard.peek_eq, Mainboard.peek_eq, hbus, Mainboard.memory_scanline]

theorem behindHalt_runLines (n : Nat) {s : Z80.System Mainboard} (h : s.BehindHalt) :
    (runLines n s).BehindHalt := by
  induction n generalizing s with
  | zero => exact h
  | succ n ih => exact ih (behindHalt_runLine h)

theorem behindHalt_tick (h : m.system.BehindHalt) (now : Nat) :
    (m.tick now).2.system.BehindHalt := by
  -- keys that are pressed are no matter of the memory
  have hkeys : m.processKeys.system.BehindHalt := h.congr rfl fun _ => rfl
  obtain ⟨hcpu, hbus, -⟩ := tick_system now m
  refine (behindHalt_runLines linesPerFrame hkeys).congr ?_ fun a => ?_
  · show (m.tick now).2.system.cpu.regs = _
    rw [hcpu]
    rfl
  · rw [hbus]

-- The CPU of a snapshot: a request that comes with it does not touch the registers.
theorem cpu_restore (s : Snapshot) (m : Machine) :
    (m.restore s).cpu =
      { m.cpu.reset with
        regs := restoreRegisters s.cpu m.cpu.reset.regs
        intPending := s.intRequest } := by
  cases hs : s.intRequest <;> simp only [restore, hs, Bool.false_eq_true, if_false, if_true] <;> rfl

-- It is not halted.
theorem running_restore (s : Snapshot) (m : Machine) : (m.restore s).cpu.regs.halted = false := by
  rw [cpu_restore]
  rfl

/-- A halted CPU sits just behind the byte of `HALT`. -/
theorem Reachable.behindHalt (h : Reachable config m) : m.system.BehindHalt := by
  induction h with
  | build h =>
    obtain ⟨mem, -, hm⟩ := bind_ok h
    cases hm
    exact .of_running rfl
  | @act m _ a ih =>
    rcases a.apply_cases m with ⟨now, ha⟩ | ha | ⟨s, notices, -, -, ha⟩ | ⟨_, _, _, _, ha⟩ <;> rw [ha]
    · exact behindHalt_tick ih now
    · exact .of_running rfl
    · exact .of_running (running_restore ..)
    · exact ih.congr rfl fun _ => rfl

/-! ## Loading again -/

-- A snapshot of a machine is from its own model.
theorem modelNotice_capture (m : Machine) : modelNotice m.capture m.config.model = none := by
  have htype : Model.ofSnapshotType? m.capture.cpcType = some m.config.model :=
    Model.ofSnapshotType_snapshotType _
  unfold modelNotice
  rw [htype]
  exact (if_neg (by decide : ¬ Snapshot.writtenVersion < 2)).trans (if_pos rfl)

-- The file of a reachable machine loads into any machine of its model with as much RAM.
theorem Reachable.loadSna_saveSna (h : Reachable config m)
    (hmodel : other.config.model = m.config.model)
    (hsize : other.board.memory.ram.size = m.board.memory.ram.size) :
    other.loadSna m.saveSna = .ok (other.restore m.capture) := by
  obtain ⟨-, hmax, -⟩ := h.ramKb
  have hram : m.capture.ram.size = config.ramKb * 1024 := h.sound.valid.board.ramSize
  have hkb : m.capture.ramKb.toNat = config.ramKb := Snapshot.ramKb_of_size (by omega) hram
  have hfits : m.capture.ramKb.toNat ≤ other.board.memory.ramKb := by
    have hother : other.board.memory.ramKb = other.board.memory.ram.size / 1024 := rfl
    have hsame : m.board.memory.ram.size = config.ramKb * 1024 := hram
    omega
  have hload := loadSna_toBytes (m := other) (s := m.capture) rfl h.sound.im_and
    (by rw [hram, hkb]) hfits
  rw [hmodel, modelNotice_capture] at hload
  exact hload

-- With the same ROMs, all of the memory comes back.
theorem Reachable.memory_restore (h : Reachable config m)
    (hsize : other.board.memory.ram.size = m.board.memory.ram.size)
    (hlower : other.board.memory.lowerRom = m.board.memory.lowerRom)
    (hupper : other.board.memory.upperRoms = m.board.memory.upperRoms) :
    (other.restore m.capture).board.memory = m.board.memory := by
  obtain ⟨M, hM⟩ := h.banked
  have hga := h.sound.valid.board.gateArray.restore_eq other.board.reset.gateArray
  have hrom := congrArg GateArray.romConfig hga
  have hconfig := congrArg GateArray.ramConfig hga
  -- the bytes and the selection are those of the snapshot, and so are the configurations
  let loaded := (other.board.reset.memory.selectUpperRom m.board.memory.romSelect).loadRam
    m.board.memory.ram
  have hram : loaded.ram = m.board.memory.ram :=
    ram_loadRam hsize
  calc (other.restore m.capture).board.memory
      = loaded.remap m.board.gateArray.romConfig m.board.gateArray.ramConfig :=
        congrArg₂ (fun r c => loaded.remap r c) hrom hconfig
    _ = m.board.memory.remap m.board.gateArray.romConfig m.board.gateArray.ramConfig :=
        Memory.remap_congr hram hlower hupper rfl _ _
    _ = m.board.memory := hM.mapped.remap_eq

-- A halted CPU is captured a byte back.
theorem regs_restore_of_halted (h : m.cpu.regs.halted = true) :
    (other.restore m.capture).cpu.regs = m.cpu.regs.beforeHalt := by
  have hpc : m.capture.cpu.pc = m.cpu.regs.pc - 1 := if_pos h
  have hregs : restoreRegisters m.capture.cpu other.cpu.reset.regs =
      { m.cpu.regs.beforeHalt with pc := m.capture.cpu.pc } := rfl
  rw [cpu_restore]
  show restoreRegisters m.capture.cpu other.cpu.reset.regs = _
  rw [hregs, hpc]
  rfl

-- A machine that has just loaded a snapshot accepts nothing unless a request comes with it.
theorem acceptance_restore (s : Snapshot) (m : Machine)
    (h : s.intRequest = true → s.cpu.iff1 = false) : (m.restore s).cpu.acceptance = .none := by
  have hnone : (s.intRequest && s.cpu.iff1) = false := by
    cases hs : s.intRequest with
    | false => rfl
    | true => exact h hs
  rw [cpu_restore]
  show (if s.intRequest && s.cpu.iff1 && true then Z80.Cpu.Acceptance.maskable else .none) = .none
  rw [hnone]
  rfl

/-- The CPU of a reachable machine that is halted reads the byte of `HALT` just before its program
counter. Its snapshot loads into every machine of the same model, with as much RAM and the same
ROMs; unless a request is pending that interrupts, that machine is halted again after one step, and
of its registers only the refresh counter and the address latch differ. -/
theorem halted_reloaded (h : Reachable config m) (hhalted : m.cpu.regs.halted = true) :
    Z80.Bus.peek m.board (m.cpu.regs.pc - 1) = 0x76 ∧
    ∀ other : Machine, other.config.model = m.config.model →
      other.board.memory.ram.size = m.board.memory.ram.size →
      other.board.memory.lowerRom = m.board.memory.lowerRom →
      other.board.memory.upperRoms = m.board.memory.upperRoms →
      (m.cpu.intPending = true → m.cpu.regs.iff1 = false) →
      ∃ loaded, other.loadSna m.saveSna = .ok loaded ∧
        loaded.system.step.2.regs.halted = true ∧
        loaded.system.step.2.regs =
          { m.cpu.regs with
            r := loaded.system.step.2.regs.r
            wz := loaded.system.step.2.regs.wz } := by
  have hbyte : Z80.Bus.peek m.board (m.cpu.regs.pc - 1) = Z80.haltByte := h.behindHalt hhalted
  refine ⟨hbyte, fun other hmodel hsize hlower hupper hpending => ?_⟩
  refine ⟨_, h.loadSna_saveSna hmodel hsize, ?_⟩
  have hregs : (other.restore m.capture).system.regs = m.cpu.regs.beforeHalt :=
    regs_restore_of_halted hhalted
  have hmem := h.memory_restore hsize hlower hupper
  have hnone : (other.restore m.capture).cpu.acceptance = .none := by
    refine acceptance_restore m.capture other fun hrequest => hpending ?_
    exact h.sound.inStep.trans hrequest
  generalize other.restore m.capture = loaded at *
  -- the byte that it fetches is the one that halted the saved machine
  have hfetches : loaded.system.Fetches := ⟨hnone, by rw [hregs]; rfl⟩
  have hop : Z80.Bus.peek loaded.system.bus loaded.system.regs.pc = Z80.haltByte := by
    show loaded.board.memory.read loaded.system.regs.pc = _
    rw [hmem, hregs]
    exact hbyte
  have hstep := (Z80.System.step_halt Mainboard.pureReads hfetches hop).1
  rw [hregs, Z80.Registers.halted_again hhalted] at hstep
  rw [hstep]
  exact ⟨hhalted, rfl⟩

-- A CPU that falls asleep in the first step of a frame sleeps through it.
theorem asleep_tick (now : Nat) (h : m.processKeys.system.step.2.Asleep) :
    (m.tick now).2.cpu.regs.halted = true ∧ (m.tick now).2.cpu.regs.iff1 = false := by
  have hlines (n : Nat) {s : Z80.System Mainboard} (hs : s.step.2.Asleep) :
      (runLines (n + 1) s).Asleep := by
    induction n generalizing s with
    | zero => exact asleep_runLine hs
    | succ n ih => exact ih (asleep_runLine hs).step
  have hframe : (runLines linesPerFrame m.processKeys.system).Asleep := hlines 311 h
  obtain ⟨hcpu, -, -⟩ := tick_system now m
  show (m.tick now).2.system.cpu.regs.halted = true ∧ (m.tick now).2.system.cpu.regs.iff1 = false
  rw [hcpu]
  exact ⟨hframe.halted, hframe.iff1⟩

/-- A machine whose ROM is full of `HALT` is halted after a frame, and again once it has been reset
and its snapshot has been loaded. -/
theorem halted_reloaded_after_reset : ∃ m loaded,
    Reachable { model := .cpc464, systemRom := ⟨Array.replicate 0x8000 0x76⟩ } m ∧
      m.cpu.regs.halted = true ∧ Z80.Bus.peek m.board (m.cpu.regs.pc - 1) = 0x76 ∧
      m.reset.loadSna m.saveSna = .ok loaded ∧ loaded.cpu.regs.halted = false ∧
      loaded.system.step.2.regs.halted = true := by
  obtain ⟨built, hbuilt⟩ : ∃ m, Machine.build
      { model := .cpc464, systemRom := ⟨Array.replicate 0x8000 0x76⟩ } = .ok m :=
    exists_build (Nat.le_refl 64) (by decide) (by decide) Array.size_replicate (by simp)
  -- the first byte that it fetches is the first one of its ROM
  have hrom (ramKb : Nat) (rom : ByteArray) :
      ((BankedMemory.powerOn ramKb rom).installAll []).reset.read 0 = rom.data.getD 0 0 :=
    if_pos ⟨rfl, (by decide : (0 : UInt8) &&& 0x04 = 0)⟩
  have hcpu : built.system.cpu = Z80.Cpu.reset {} := by
    obtain ⟨mem, -, hm⟩ := bind_ok hbuilt
    cases hm
    rfl
  have hop : Z80.Bus.peek built.processKeys.system.bus built.processKeys.system.regs.pc =
      Z80.haltByte := by
    have hpc : built.processKeys.system.regs.pc = 0 := congrArg (·.regs.pc) hcpu
    rw [hpc]
    refine (Refines.read_eq (banked_build hbuilt) 0).trans ((hrom _ _).trans ?_)
    simp [Z80.haltByte]
  have hfetches : built.processKeys.system.Fetches := by
    constructor
    · exact (congrArg Z80.Cpu.acceptance hcpu).trans rfl
    · exact congrArg (·.regs.halted) hcpu
  obtain ⟨hregs, hnmi⟩ := Z80.System.step_halt Mainboard.pureReads hfetches hop
  have hasleep : built.processKeys.system.step.2.Asleep := by
    refine ⟨by rw [hregs], ?_, hnmi.trans (congrArg (·.nmiPending) hcpu)⟩
    rw [hregs]
    exact congrArg (·.regs.iff1) hcpu
  obtain ⟨hhalted, hiff1⟩ := asleep_tick 0 hasleep
  have hm : Reachable _ (built.tick 0).2 := (Reachable.build hbuilt).act (.tick 0)
  obtain ⟨hbyte, hreload⟩ := halted_reloaded hm hhalted
  obtain ⟨loaded, hload, hagain, -⟩ :=
    hreload (built.tick 0).2.reset rfl rfl rfl rfl fun _ => hiff1
  have hruns : loaded.cpu.regs.halted = false := by
    obtain ⟨s, -, -, rfl⟩ := loadSna_ok hload
    exact running_restore ..
  exact ⟨_, loaded, hm, hhalted, hbyte, hload, hruns, hagain⟩

end Machine

end AmstradCpc
