import AmstradCpc.Proofs.Machine.OperatedMachines
import AmstradCpc.Proofs.Screen.Painter

/-!
# No snapshot breaks a machine

A snapshot may have any bytes in its header, a program that runs from it makes any calls, and a host
may have left anything in the chips before. All the same the registers of the chips stay in their
ranges and the banks inside their buffers (`Mainboard.InRange`), so that no look-up leaves its table,
no counter of a byte overflows and every access to memory finds its byte (`Mainboard.Faultless`). Main
statement: `Machine.loaded_inRange`.
-/

namespace AmstradCpc

open Z80 (BusCall replay)

/-! ## Banks inside their buffers -/

namespace Refines

variable {r c : UInt8} {mem : Memory} {m : BankedMemory}

theorem quadrant_last : ∀ q : Fin 4,
    Memory.quadrant (q.val * 0x4000 + 0x3FFF).toUInt16 = q ∧
      ((q.val * 0x4000 + 0x3FFF).toUInt16 &&& 0x3FFF).toNat = 0x3FFF := by
  decide

-- The last address of a quadrant is banked to a byte that is installed, so the bank ends there.
theorem ramBank_fits (h : Refines r c mem m) (q : Fin 4) :
    ((Memory.ramBanks mem.ram.size c).get q).buffer = .ram ∧
      ((Memory.ramBanks mem.ram.size c).get q).offset + 0x4000 ≤ mem.ram.size := by
  have hbuffer : ((Memory.ramBanks mem.ram.size c).get q).buffer = .ram := by
    show (Memory.ramBanks mem.ram.size c)[q].buffer = .ram
    unfold Memory.ramBanks
    simp
  obtain ⟨hquadrant, hoffset⟩ := quadrant_last q
  have hposition := h.position_eq (q.val * 0x4000 + 0x3FFF).toUInt16
  have hlt := BankedMemory.place_lt (m := m) (q.val * 0x4000 + 0x3FFF).toUInt16 h.enough h.pages
  rw [hquadrant, Memory.Bank.position, hoffset] at hposition
  rw [← hposition, ← h.ramSize] at hlt
  exact ⟨hbuffer, by omega⟩

theorem readBank_fits (h : Refines r c mem m) (q : Fin 4) :
    (mem.readBanks.get q).offset + 0x4000 ≤ (mem.buffer (mem.readBanks.get q).buffer).size := by
  obtain ⟨rom, f, hrom, -, hi⟩ := h.exists_shown
  obtain ⟨hbuffer, hfits⟩ := h.ramBank_fits q
  rw [h.mapped.reads, Memory.readBank_remap]
  split
  · -- the upper ROM that shows
    show 0 + 0x4000 ≤ (mem.upperRoms[(mem.shownSlot mem.romSelect).toFin].getD .empty).size
    rw [hrom]
    exact Nat.le_of_eq hi.1.symm
  · split
    · exact Nat.le_of_eq h.lowerRom.1.symm
    · rw [hbuffer]
      exact hfits

theorem writeBank_fits (h : Refines r c mem m) (q : Fin 4) :
    (mem.writeBanks.get q).buffer = .ram ∧ (mem.writeBanks.get q).offset + 0x4000 ≤ mem.ram.size := by
  rw [h.mapped.writes]
  exact h.ramBank_fits q

end Refines

/-! ## Boards -/

namespace Mainboard

/-- The registers are no wider than they are meant to be, and the banks lie inside their buffers. -/
structure InRange (b : Mainboard) : Prop where
  pen : b.gateArray.pen ≤ 16
  inks : ∀ i : Fin 17, b.gateArray.inks.get i ≤ 31
  lineCounter : b.gateArray.lineCounter < 52
  group : b.gateArray.group < 6
  lastRaster : b.crtc.register 9 ≤ 31
  crtc : ∀ i : Fin 18, b.crtc.regs.get i &&& Crtc.widths.get i = b.crtc.regs.get i
  psg : ∀ i : Fin 16, b.psg.regs.get i &&& Psg.widths.get i = b.psg.regs.get i
  control : b.ppi.control &&& 0x80 = 0x80
  psgSelected : b.psg.selected < 16
  readBanks : ∀ q : Fin 4, (b.memory.readBanks.get q).offset + 0x4000 ≤
    (b.memory.buffer (b.memory.readBanks.get q).buffer).size
  writeBanks : ∀ q : Fin 4, (b.memory.writeBanks.get q).buffer = .ram ∧
    (b.memory.writeBanks.get q).offset + 0x4000 ≤ b.memory.ram.size

/-- No look-up leaves its table, no counter of a byte overflows, every access to memory finds its
byte, and the picture can be painted. -/
structure Faultless (b : Mainboard) : Prop where
  ink : b.gateArray.pen.toNat < 17
  psgRegister : b.psg.selected.toNat < 16
  lineCounter : b.gateArray.lineCounter.toNat + 1 < 0x100
  group : b.gateArray.group.toNat + 1 < 0x100
  scanlines : b.crtc.scanlinesPerRow < 0x100
  read : ∀ a : UInt16, ∃ h, b.memory.read a =
    (b.memory.buffer (b.memory.readBanks.get (Memory.quadrant a)).buffer).get
      (Memory.Bank.position (b.memory.readBanks.get (Memory.quadrant a)) a) h
  write : ∀ (a : UInt16) (v : UInt8), ∃ h, b.memory.write a v =
    { b.memory with
      ram := b.memory.ram.set
        (Memory.Bank.position (b.memory.writeBanks.get (Memory.quadrant a)) a) v h }
  videoRead : ∀ a : UInt16, ∃ h, b.memory.videoRead a = b.memory.ram.get a.toNat h
  paint : ∀ fb : Framebuffer, fb.Sized →
    ∃ fb', Painter.paint b.crtc b.gateArray b.memory fb = some fb'

variable {b : Mainboard} {size : Nat}

-- A byte that a mask leaves alone is no larger than the mask.
theorem le_of_and_eq {v mask : UInt8} (h : v &&& mask = v) : v ≤ mask := by
  rw [← h, UInt8.le_iff_toNat_le, UInt8.toNat_and]
  exact Nat.and_le_right

theorem inRange_of_valid (h : b.Valid size) {M : BankedMemory} (hM : b.Banked M) : b.InRange where
  pen := h.gateArray.pen
  inks i := le_of_and_eq (h.gateArray.inks i.val i.isLt)
  lineCounter := h.gateArray.lineCounter
  group := h.gateArray.group
  lastRaster := by
    have hwidth : b.crtc.register 9 &&& 0x1F = b.crtc.register 9 := h.crtc.regs 9 (by decide)
    exact le_of_and_eq hwidth
  crtc i := h.crtc.regs i.val i.isLt
  psg i := h.psg.regs i.val i.isLt
  control := by
    rw [← h.ppi.control, UInt8.and_comm]
    have hall : ∀ n : Fin 256, 0x80 &&& (UInt8.ofFin n ||| 0x80) = 0x80 := by decide +kernel
    exact hall b.ppi.control.toFin
  psgSelected := by
    have hle : b.psg.selected ≤ 0x0F := le_of_and_eq h.psg.selected
    exact UInt8.lt_of_le_of_lt hle (by decide)
  readBanks := Refines.readBank_fits hM
  writeBanks := Refines.writeBank_fits hM

theorem InRange.faultless (h : b.InRange) (hcrtc : b.crtc.Valid)
    (hram : 0x10000 ≤ b.memory.ram.size) : b.Faultless where
  ink := Nat.lt_succ_of_le h.pen
  psgRegister := h.psgSelected
  lineCounter := by
    have hlt : b.gateArray.lineCounter.toNat < 52 := h.lineCounter
    omega
  group := by
    have hlt : b.gateArray.group.toNat < 6 := h.group
    omega
  scanlines := by
    have hle : (b.crtc.register 9).toNat ≤ 31 := h.lastRaster
    show (b.crtc.register 9).toNat + 1 < 0x100
    omega
  read a := by
    have hoffset : (a &&& 0x3FFF).toNat < 0x4000 := by
      rw [Memory.toNat_offset]
      exact Nat.mod_lt _ (by decide)
    have hfits := h.readBanks (Memory.quadrant a)
    have hlt : Memory.Bank.position (b.memory.readBanks.get (Memory.quadrant a)) a <
        (b.memory.buffer (b.memory.readBanks.get (Memory.quadrant a)).buffer).size := by
      unfold Memory.Bank.position
      omega
    exact ⟨hlt, dif_pos hlt⟩
  write a v := by
    have hoffset : (a &&& 0x3FFF).toNat < 0x4000 := by
      rw [Memory.toNat_offset]
      exact Nat.mod_lt _ (by decide)
    have hfits := (h.writeBanks (Memory.quadrant a)).2
    have hlt : Memory.Bank.position (b.memory.writeBanks.get (Memory.quadrant a)) a <
        b.memory.ram.size := by
      unfold Memory.Bank.position
      omega
    exact ⟨hlt, dif_pos hlt⟩
  videoRead a := by
    have hlt : a.toNat < b.memory.ram.size := Nat.lt_of_lt_of_le a.toNat_lt hram
    exact ⟨hlt, dif_pos hlt⟩
  paint fb hfb := Painter.exists_paint hcrtc b.gateArray hram hfb

-- One call, and then any calls, keep the chips in their ranges.
theorem Valid.call (h : b.Valid size) (c : BusCall) : Valid size (c.apply b) := by
  cases c with
  | read a => exact (Valid.accessKeeps size).read a b h
  | write a v => exact (Valid.accessKeeps size).write a v b h
  | input port => exact h.input port
  | output port v => exact h.output port v
  | acknowledge => exact h.acknowledge
  | poll => exact h.poll

theorem Valid.replay (h : b.Valid size) (calls : List BusCall) : Valid size (replay calls b) :=
  Z80.replay_keeps (P := Valid size) (fun c _ hb => hb.call c) calls h

end Mainboard

/-! ## Machines -/

namespace Machine

variable {size : Nat} {m : Machine}

/-- The boards that a machine passes through in its next frame: the one that it has, and those
between two calls of the frame. -/
def Passes (m : Machine) (b : Mainboard) : Prop :=
  b = m.board ∨ ∃ calls, calls <+: m.frameCalls ∧ b = replay calls m.processKeys.board

/-- The machine after frames that end at these times. -/
def frames (times : List Nat) (m : Machine) : Machine :=
  times.foldl (fun m now => (m.tick now).2) m

/-- The chips are in their ranges, the tables of banks are up to date, and the canvas has the size of
its format. -/
structure Safe (size : Nat) (m : Machine) : Prop where
  system : SystemValid size m.system
  banked : ∃ M, m.board.Banked M
  sized : m.framebuffer.Sized

namespace Safe

/-- A snapshot makes any machine safe that its host can get. -/
theorem restore (h : Operated m) {s : Snapshot} (him : s.cpu.im ≤ 3)
    (hfits : s.ram.size ≤ m.board.memory.ram.size) :
    (m.restore s).Safe m.board.memory.ram.size where
  system := systemValid_restore rfl him hfits
  banked := banked_restore h.fitted.whole hfits
  sized := Framebuffer.sized_blank ..

theorem tick (h : m.Safe size) (now : Nat) : (m.tick now).2.Safe size where
  system := h.system.tick now
  banked := by
    obtain ⟨M, hM⟩ := h.banked
    rw [board_tick]
    exact Mainboard.Banked.replay (b := m.processKeys.board) hM _
  sized := by
    -- the picture is drawn or left as it was
    unfold Machine.tick endFrame
    dsimp only
    split
    · exact Framebuffer.sized_showing ..
    · exact h.sized

theorem frames (h : m.Safe size) (times : List Nat) : (m.frames times).Safe size := by
  induction times generalizing m with
  | nil => exact h
  | cons now times ih => exact ih (h.tick now)

/-- Every board that a safe machine passes through is in range, and nothing goes wrong on it. -/
theorem passes (h : m.Safe size) {b : Mainboard} (hb : m.Passes b) : b.InRange ∧ b.Faultless := by
  have hvalid := h.system.board
  obtain ⟨M, hM⟩ := h.banked
  -- the chips and the banks, in either case
  have hboth : b.Valid size ∧ ∃ M, b.Banked M := by
    rcases hb with rfl | ⟨calls, -, rfl⟩
    · exact ⟨hvalid, M, hM⟩
    · have hkeys : m.processKeys.board.Valid size := { hvalid with }
      have hMkeys : m.processKeys.board.Banked M := hM
      exact ⟨hkeys.replay calls, hMkeys.replay calls⟩
  obtain ⟨hb, M', hM'⟩ := hboth
  have hrange := Mainboard.inRange_of_valid hb hM'
  exact ⟨hrange, hrange.faultless hb.crtc (Refines.whole hM').enough⟩

end Safe

/-- After a file has been loaded and any number of frames have been run, every board that the machine
passes through is in range and nothing goes wrong on it, and its canvas is one that can be painted. -/
theorem loaded_inRange (h : Operated m) {file : ByteArray} {loaded : Machine}
    (hload : m.loadSna file = .ok loaded) (times : List Nat) :
    (loaded.frames times).framebuffer.Sized ∧
      ∀ b, (loaded.frames times).Passes b → b.InRange ∧ b.Faultless := by
  have hloaded : loaded.Safe m.board.memory.ram.size := by
    obtain ⟨s, hs, hfits, rfl⟩ := loadSna_ok hload
    have him := Snapshot.im_le_of_ofBytes hs
    -- a notice does not matter
    cases modelNotice s m.config.model with
    | none => exact Safe.restore h him hfits
    | some notice =>
      have hsafe := Safe.restore h him hfits
      exact { hsafe with }
  have hrun := hloaded.frames times
  exact ⟨hrun.sized, fun b hb => hrun.passes hb⟩

/-- A snapshot that has ones in every register, and no RAM. -/
theorem loaded_inRange_ones : ∃ m loaded,
    Machine.build { model := .cpc464, systemRom := ⟨Array.replicate 0x8000 0⟩ } = .ok m ∧
      m.loadSna (Snapshot.toBytes {
        cpu := { im := 3 }, pen := 0xFF, inks := .replicate 17 0xFF
        romConfig := 0xFF, ramConfig := 0xFF, crtcSelected := 0xFF, crtcRegs := .replicate 18 0xFF
        romSelect := 0xFF, portA := 0xFF, portB := 0xFF, portC := 0xFF, ppiControl := 0xFF
        psgSelected := 0xFF, psgRegs := .replicate 16 0xFF, lineCounter := 0xFF
        intRequest := true }) = .ok loaded ∧
      loaded.board.gateArray.pen = 16 ∧ loaded.board.gateArray.lineCounter = 47 ∧
      ∀ b, (loaded.frames [0, 1]).Passes b → b.InRange ∧ b.Faultless := by
  obtain ⟨built, hbuilt⟩ : ∃ m, Machine.build
      { model := .cpc464, systemRom := ⟨Array.replicate 0x8000 0⟩ } = .ok m :=
    exists_build (Nat.le_refl 64) (by decide) (by decide) Array.size_replicate (by simp)
  have hload := loadSna_toBytes (m := built) (s := {
    cpu := { im := 3 }, pen := 0xFF, inks := .replicate 17 0xFF
    romConfig := 0xFF, ramConfig := 0xFF, crtcSelected := 0xFF, crtcRegs := .replicate 18 0xFF
    romSelect := 0xFF, portA := 0xFF, portB := 0xFF, portC := 0xFF, ppiControl := 0xFF
    psgSelected := 0xFF, psgRegs := .replicate 16 0xFF, lineCounter := 0xFF
    intRequest := true }) rfl rfl rfl (Nat.zero_le _)
  have hrange := (loaded_inRange (.build hbuilt) hload [0, 1]).2
  exact ⟨built, _, hbuilt, hload, rfl, rfl, hrange⟩

end Machine

end AmstradCpc
