import AmstradCpc.Proofs.Mainboard.Devices
import AmstradCpc.Proofs.Z80.BusMap

/-!
# Registers in their range

Every chip masks what is written to it, so its registers hold no more bits than they are wide. What
a snapshot restores is masked too; in a state within these ranges that changes nothing.

`Mainboard.Valid` says that all chips of a board are in range and how large its RAM is, and every
call on the board keeps it.
-/

namespace AmstradCpc

/-! ## Chips -/

-- Masking twice is masking once.
theorem UInt8.and_mask (v mask : UInt8) : v &&& mask &&& mask = v &&& mask := by
  rw [UInt8.and_assoc, UInt8.and_self]

namespace GateArray

/-- The registers are in the range of a write to them. -/
structure Valid (ga : GateArray) : Prop where
  pen : ga.pen.toNat ≤ 16
  inks : ∀ (i : Nat) (h : i < 17), ga.inks[i] &&& 0x1F = ga.inks[i]
  romConfig : ga.romConfig &&& 0x0F = ga.romConfig
  ramConfig : ga.ramConfig &&& 0x3F = ga.ramConfig
  lineCounter : ga.lineCounter.toNat < 52
  group : ga.group.toNat < 6

theorem valid_powerOn : Valid {} where
  pen := by decide
  inks := by decide
  romConfig := by decide
  ramConfig := by decide
  lineCounter := by decide
  group := by decide

theorem Valid.write {ga : GateArray} (h : ga.Valid) (v : UInt8) : (ga.write v).2.Valid := by
  rcases write_cases v ga with
    ⟨-, hw⟩ | ⟨-, hw⟩ | ⟨-, -, hw⟩ | ⟨-, -, hw⟩ | ⟨-, hw⟩ <;> rw [hw]
  · -- the border, or a number of four bits
    refine { h with pen := ?_ }
    dsimp only
    split
    · decide
    · rw [UInt8.toNat_and]
      exact Nat.le_trans Nat.and_le_right (by decide)
  · -- five bits for one pen, and the other pens as they were
    refine { h with inks := fun i hi => ?_ }
    dsimp only
    rw [Vector.getElem_setIfInBounds]
    split
    · exact UInt8.and_mask v 0x1F
    · exact h.inks i hi
  · exact { h with romConfig := UInt8.and_mask v 0x0F }
  · exact { h with romConfig := UInt8.and_mask v 0x0F, lineCounter := (by decide : 0 < 52) }
  · exact { h with ramConfig := UInt8.and_mask v 0x3F }

theorem Valid.acknowledge {ga : GateArray} (h : ga.Valid) : ga.acknowledge.Valid := by
  refine { h with lineCounter := ?_ }
  show (ga.lineCounter &&& 0x1F).toNat < 52
  rw [UInt8.toNat_and]
  exact Nat.lt_of_le_of_lt Nat.and_le_right (by decide)

theorem Valid.scanline {ga : GateArray} (h : ga.Valid) : ga.scanline.2.Valid := by
  unfold GateArray.scanline
  dsimp only
  split
  case isTrue hl => exact { h with lineCounter := hl }
  case isFalse =>
    -- line 52 starts over, and the next of six groups begins
    refine { h with lineCounter := (by decide : 0 < 52), group := ?_ }
    show ((ga.group + 1) % 6).toNat < 6
    rw [UInt8.toNat_mod]
    exact Nat.mod_lt _ (by decide)

theorem valid_restore {ga : GateArray} (h : ga.Valid) (pen : UInt8) (inks : Vector UInt8 17)
    (romConfig ramConfig lineCounter : UInt8) (intRequest : Bool) :
    (ga.restore pen inks romConfig ramConfig lineCounter intRequest).Valid where
  pen := by
    show (if pen < border then pen else border).toNat ≤ 16
    split
    case isTrue hp => exact Nat.le_of_lt hp
    case isFalse => decide
  inks i hi := by
    show (inks.map (· &&& 0x1F))[i] &&& 0x1F = (inks.map (· &&& 0x1F))[i]
    rw [Vector.getElem_map]
    exact UInt8.and_mask _ _
  romConfig := UInt8.and_mask _ _
  ramConfig := UInt8.and_mask _ _
  lineCounter := by
    show (lineCounter % 52).toNat < 52
    rw [UInt8.toNat_mod]
    exact Nat.mod_lt _ (by decide)
  group := h.group

end GateArray

namespace Crtc

/-- The registers hold no more bits than they are wide. -/
structure Valid (crtc : Crtc) : Prop where
  selected : crtc.selected &&& 0x1F = crtc.selected
  regs : ∀ (i : Nat) (h : i < 18), crtc.regs[i] &&& widths[i] = crtc.regs[i]

theorem valid_powerOn : Valid {} where
  selected := by decide
  regs := by decide

theorem Valid.select {crtc : Crtc} (h : crtc.Valid) (v : UInt8) : (crtc.select v).Valid :=
  { h with selected := UInt8.and_mask v 0x1F }

theorem Valid.setRegister {crtc : Crtc} (h : crtc.Valid) (n : Nat) (v : UInt8) :
    (crtc.setRegister n v).Valid := by
  unfold Crtc.setRegister
  split
  case isTrue hn =>
    refine { h with regs := fun i hi => ?_ }
    dsimp only
    rw [Vector.getElem_set]
    split
    case isTrue hni =>
      subst hni
      exact UInt8.and_mask _ _
    case isFalse => exact h.regs i hi
  case isFalse => exact h

theorem Valid.write {crtc : Crtc} (h : crtc.Valid) (v : UInt8) : (crtc.write v).Valid := by
  unfold Crtc.write
  split
  · exact h.setRegister _ v
  · exact h

end Crtc

namespace Psg

/-- The registers hold no more bits than they are wide. -/
structure Valid (psg : Psg) : Prop where
  selected : psg.selected &&& 0x0F = psg.selected
  regs : ∀ (i : Nat) (h : i < 16), psg.regs[i] &&& widths[i] = psg.regs[i]

theorem valid_reset (psg : Psg) : psg.reset.Valid where
  selected := UInt8.zero_and
  regs i hi := by
    show (Vector.replicate 16 0)[i] &&& widths[i] = (Vector.replicate 16 0)[i]
    rw [Vector.getElem_replicate]
    exact UInt8.zero_and

theorem Valid.select {psg : Psg} (h : psg.Valid) (v : UInt8) : (psg.select v).Valid :=
  { h with selected := UInt8.and_mask v 0x0F }

theorem Valid.setRegister {psg : Psg} (h : psg.Valid) (n : Nat) (v : UInt8) :
    (psg.setRegister n v).Valid := by
  refine { h with regs := fun i hi => ?_ }
  unfold Psg.setRegister
  dsimp only
  rw [Vector.getElem_set]
  split
  case isTrue hni =>
    subst hni
    exact UInt8.and_mask _ _
  case isFalse => exact h.regs i hi

theorem Valid.cycle {psg : Psg} (h : psg.Valid) (f : PsgFunction) (data : UInt8) :
    (psg.cycle f data).2.Valid := by
  cases f with
  | inactive | read => exact h
  | write => exact h.setRegister _ data
  | address => exact h.select data

end Psg

namespace Ppi

/-- The control register holds a mode, which has bit 7 up. -/
structure Valid (ppi : Ppi) : Prop where
  control : ppi.control ||| 0x80 = ppi.control

theorem valid_reset (ppi : Ppi) : ppi.reset.Valid := ⟨(by decide : (0x9B : UInt8) ||| 0x80 = 0x9B)⟩

theorem or_mode {v : UInt8} (h : v &&& 0x80 ≠ 0) : v ||| 0x80 = v := by
  -- no lemma relates the two operations, but there are only 256 bytes
  have hall : ∀ n : Fin 256,
      UInt8.ofFin n &&& 0x80 ≠ 0 → UInt8.ofFin n ||| 0x80 = UInt8.ofFin n := by
    decide +kernel
  exact hall v.toFin h

theorem Valid.write {ppi : Ppi} (h : ppi.Valid) (port : PpiPort) (v : UInt8) :
    (ppi.write port v).Valid := by
  cases port with
  | a | b | c => exact ⟨h.control⟩
  | control =>
    unfold Ppi.write writeControl
    dsimp only
    -- a byte with bit 7 up is a mode, any other one sets a bit of port C
    split
    case isTrue hv => exact ⟨or_mode (bne_iff_ne.mp hv)⟩
    case isFalse => exact ⟨h.control⟩

theorem valid_restore (ppi : Ppi) (a b c control : UInt8) : (ppi.restore a b c control).Valid := by
  refine ⟨?_⟩
  show control ||| 0x80 ||| 0x80 = control ||| 0x80
  rw [UInt8.or_assoc, UInt8.or_self]

end Ppi

/-! ## The board -/

namespace Mainboard

/-- All chips are in range, and the RAM has `size` bytes. -/
structure Valid (size : Nat) (b : Mainboard) : Prop where
  ramSize : b.memory.ram.size = size
  gateArray : b.gateArray.Valid
  crtc : b.crtc.Valid
  psg : b.psg.Valid
  ppi : b.ppi.Valid

variable {size : Nat} {b b' : Mainboard}

-- A reset brings every chip into range, whatever it held.
theorem valid_reset (h : b.memory.ram.size = size) : b.reset.Valid size where
  ramSize := h
  gateArray := GateArray.valid_powerOn
  crtc := Crtc.valid_powerOn
  psg := Psg.valid_reset _
  ppi := Ppi.valid_reset _

namespace Valid

theorem writeGateArray (h : b.Valid size) (v : UInt8) : (b.writeGateArray v).Valid size := by
  have hb : ({ b with gateArray := (b.gateArray.write v).2 } : Mainboard).Valid size :=
    { h with gateArray := h.gateArray.write v }
  unfold Mainboard.writeGateArray
  dsimp only
  split <;> exact { hb with }

theorem writeCrtc (h : b.Valid size) (f v : UInt8) : (b.writeCrtc f v).Valid size := by
  unfold Mainboard.writeCrtc
  split
  · exact { h with crtc := h.crtc.select v }
  · exact { h with crtc := h.crtc.write v }
  · exact h

theorem writePpi (h : b.Valid size) (port : PpiPort) (v : UInt8) :
    (b.writePpi port v).Valid size := by
  have hb : ({ b with ppi := b.ppi.write port v } : Mainboard).Valid size :=
    { h with ppi := h.ppi.write port v }
  cases port with
  | b => exact hb
  | a | c | control => exact { hb with psg := h.psg.cycle _ _ }

theorem writeExpansion (h : b.Valid size) (port : UInt16) (v : UInt8) :
    (b.writeExpansion port v).Valid size := by
  unfold Mainboard.writeExpansion
  split
  · exact h
  · split
    · exact { h with }
    · split
      · exact h
      · exact { h with }

theorem readPpi (h : b.Valid size) (port : PpiPort) : (b.readPpi port).2.Valid size := by
  cases port with
  | a =>
    show b.drivePortA.Valid size
    unfold drivePortA
    split
    · exact { h with psg := { h.psg with }, ppi := { h.ppi with } }
    · exact { h with ppi := { h.ppi with } }
  | b => exact { h with ppi := { h.ppi with } }
  | c | control => exact h

theorem readExpansion (h : b.Valid size) (port : UInt16) :
    (b.readExpansion port).2.Valid size := by
  unfold Mainboard.readExpansion
  split
  · exact h
  · split
    · exact h
    · split
      · exact h
      · exact { h with }

theorem ite {c : Prop} [Decidable c] (h : b.Valid size) (h' : b'.Valid size) :
    (if c then b' else b).Valid size := by
  split
  · exact h'
  · exact h

theorem output (h : b.Valid size) (port : UInt16) (v : UInt8) : (b.output port v).Valid size := by
  -- the devices in the order in which they are visited, each only if its line is low
  have h := h.ite (c := low port 0x8000) (h.writeGateArray v)
  have h := h.ite (c := low port 0x4000) (h.writeCrtc (functionOf port) v)
  have hselect (b : Mainboard) (h : b.Valid size) : (b.writeRomSelect v).Valid size := { h with }
  have h := h.ite (c := low port 0x2000) (hselect _ h)
  have hprinter (b : Mainboard) (h : b.Valid size) : (b.writePrinter v).Valid size := { h with }
  have h := h.ite (c := low port 0x1000) (hprinter _ h)
  have h := h.ite (c := low port 0x0800) (h.writePpi (.ofBits (functionOf port)) v)
  exact h.ite (c := low port 0x0400) (h.writeExpansion port v)

theorem input (h : b.Valid size) (port : UInt16) : (b.input port).2.Valid size := by
  have hppi : (if low port 0x0800 then b.readPpi (.ofBits (functionOf port))
      else ((if low port 0x4000 then b.readCrtc (functionOf port) else 0), b)).2.Valid size := by
    split
    · exact h.readPpi _
    · exact h
  unfold Mainboard.input
  dsimp only
  split
  · exact hppi.readExpansion port
  · exact hppi

theorem acknowledge (h : b.Valid size) : (Z80.Bus.acknowledge b).2.Valid size :=
  { h with gateArray := h.gateArray.acknowledge }

theorem scanline (h : b.Valid size) : b.scanline.Valid size := by
  have hb : ({ b with gateArray := b.gateArray.scanline.2 } : Mainboard).Valid size :=
    { h with gateArray := h.gateArray.scanline }
  unfold Mainboard.scanline
  dsimp only
  split
  · exact { hb with }
  · exact hb

theorem poll (h : b.Valid size) : (Z80.InterruptSource.poll b).2.Valid size := h.scanline

-- No access of an instruction leaves the ranges.
theorem accessKeeps (size : Nat) : Z80.System.AccessKeeps (Valid size) where
  read _ _ h := h
  write a v b h := by
    -- a write past the end is dropped, any other one replaces a byte
    refine { h with ramSize := ?_ }
    show (b.memory.write a v).ram.size = size
    unfold Memory.write
    dsimp only
    split
    · exact (Array.size_set _).trans h.ramSize
    · exact h.ramSize
  input port _ h := h.input port
  output port v _ h := h.output port v

end Valid

end Mainboard

end AmstradCpc
