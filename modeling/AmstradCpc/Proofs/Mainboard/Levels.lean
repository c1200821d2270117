import AmstradCpc.Proofs.Mainboard.Devices
import AmstradCpc.Proofs.Z80.BusMap

/-!
# Levels that are driven anew

Three levels on pins outlive the call that drove them there: those on ports A and B of the parallel
interface, and the line of the keyboard on port A of the sound generator. No program learns anything
from them, since each is driven anew before it is read (`Mainboard.readPpi_floating`).

So a board is as good as one whose levels float high behind every call. That one is a bus of its own,
`FloatingBoard`, and `Mainboard.float` maps runs on the one to runs on the other.
-/

namespace AmstradCpc

/-! ## Chips -/

namespace Ppi

/-- The chip with the levels on ports A and B floating high. -/
def floating (ppi : Ppi) : Ppi := { ppi with externalA := 0xFF, externalB := 0xFF }

theorem write_floating (port : PpiPort) (v : UInt8) (ppi : Ppi) :
    ppi.floating.write port v = (ppi.write port v).floating := by
  cases port with
  | a | b | c => rfl
  | control =>
    show ppi.floating.writeControl v = (ppi.writeControl v).floating
    unfold writeControl
    split <;> rfl

end Ppi

namespace Psg

/-- The chip with the levels on port A floating high. -/
def floating (psg : Psg) : Psg := { psg with portAInput := 0xFF }

-- What the chip latches comes off its bus, and not off its pins.
theorem cycle_floating (f : PsgFunction) (data : UInt8) (psg : Psg) :
    (psg.floating.cycle f data).2 = (psg.cycle f data).2.floating := by
  cases f <;> rfl

end Psg

namespace Mainboard

/-- The board with the three levels floating high. -/
def floating (b : Mainboard) : Mainboard := { b with ppi := b.ppi.floating, psg := b.psg.floating }

variable (b : Mainboard)

@[simp] theorem floating_floating : b.floating.floating = b.floating := rfl

/-! ## Writing to devices -/

theorem writeGateArray_floating (v : UInt8) :
    b.floating.writeGateArray v = (b.writeGateArray v).floating := by
  have hga : b.floating.gateArray = b.gateArray := rfl
  unfold writeGateArray
  rw [hga]
  cases b.gateArray.write v with
  | mk register ga => cases register <;> rfl

theorem writeCrtc_floating (f v : UInt8) :
    b.floating.writeCrtc f v = (b.writeCrtc f v).floating := by
  unfold writeCrtc
  split <;> rfl

theorem writePpi_floating (port : PpiPort) (v : UInt8) :
    b.floating.writePpi port v = (b.writePpi port v).floating := by
  have hppi : b.floating.ppi.write port v = (b.ppi.write port v).floating :=
    Ppi.write_floating port v b.ppi
  unfold writePpi
  rw [hppi]
  -- neither the control pins nor the bus of the sound generator depend on the levels
  have hcycle : (b.floating.psg.cycle _ _).2 = _ :=
    Psg.cycle_floating ({ b with ppi := b.ppi.write port v } : Mainboard).psgFunction
      (b.ppi.write port v).portAOutput b.psg
  cases port with
  | b => rfl
  | a | c | control => exact congrArg (fun psg => ({ b with ppi := _, psg } : Mainboard)) hcycle

theorem writeExpansion_floating (port : UInt16) (v : UInt8) :
    b.floating.writeExpansion port v = (b.writeExpansion port v).floating := by
  unfold writeExpansion
  split
  · rfl
  · split
    · rfl
    · split <;> rfl

-- A device that is visited only under a condition.
theorem ite_floating {c : Prop} [Decidable c] {f : Mainboard → Mainboard}
    (h : f b.floating = (f b).floating) :
    (if c then f b.floating else b.floating) = (if c then f b else b).floating := by
  split
  · exact h
  · rfl

theorem output_floating (port : UInt16) (v : UInt8) :
    b.floating.output port v = (b.output port v).floating := by
  unfold output
  dsimp only
  rw [ite_floating _ (writeGateArray_floating _ _)]
  rw [ite_floating _ (writeCrtc_floating _ _ _)]
  rw [ite_floating (f := writeRomSelect v) _ rfl]
  rw [ite_floating (f := writePrinter v) _ rfl]
  rw [ite_floating _ (writePpi_floating _ _ _)]
  exact ite_floating _ (writeExpansion_floating _ _ _)

/-! ## Reading from devices -/

/-- Each level is driven anew before it is read. -/
theorem readPpi_floating (port : PpiPort) :
    (b.floating.readPpi port).1 = (b.readPpi port).1 ∧
      (b.floating.readPpi port).2.floating = (b.readPpi port).2.floating := by
  cases port with
  | a =>
    show b.floating.drivePortA.ppi.read .a = b.drivePortA.ppi.read .a ∧
      b.floating.drivePortA.floating = b.drivePortA.floating
    have hpins : b.floating.psgFunction = b.psgFunction := rfl
    unfold drivePortA
    rw [hpins]
    split <;> exact ⟨rfl, rfl⟩
  | b | c | control => exact ⟨rfl, rfl⟩

theorem readExpansion_floating (port : UInt16) :
    b.floating.readExpansion port =
      ((b.readExpansion port).1, (b.readExpansion port).2.floating) := by
  unfold readExpansion
  split
  · rfl
  · split
    · rfl
    · split <;> rfl

theorem input_floating (port : UInt16) :
    (b.floating.input port).1 = (b.input port).1 ∧
      (b.floating.input port).2.floating = (b.input port).2.floating := by
  -- the devices up to the parallel interface, and then the expansion bus
  let first (b : Mainboard) : UInt8 × Mainboard :=
    if low port 0x0800 then b.readPpi (.ofBits (functionOf port))
    else (if low port 0x4000 then b.readCrtc (functionOf port) else 0, b)
  let last (r : UInt8 × Mainboard) : UInt8 × Mainboard :=
    if low port 0x0400 then r.2.readExpansion port else r
  have hfirst : (first b.floating).1 = (first b).1 ∧
      (first b.floating).2.floating = (first b).2.floating := by
    dsimp only [first]
    split
    · exact b.readPpi_floating _
    · exact ⟨rfl, rfl⟩
  have hlast {r r' : UInt8 × Mainboard} (h : r.1 = r'.1 ∧ r.2.floating = r'.2.floating) :
      (last r).1 = (last r').1 ∧ (last r).2.floating = (last r').2.floating := by
    dsimp only [last]
    split
    · have hexpansion := congrArg (readExpansion port) h.2
      rw [readExpansion_floating, readExpansion_floating] at hexpansion
      exact Prod.mk.inj hexpansion
    · exact h
  exact hlast hfirst

/-! ## The bus -/

theorem scanline_floating : b.floating.scanline = b.scanline.floating := by
  unfold scanline
  dsimp only
  show (if b.gateArray.scanline.1 then _ else _) = _
  split <;> rfl

end Mainboard

/-- A board whose three levels float high behind every call. -/
structure FloatingBoard where
  board : Mainboard

namespace FloatingBoard

instance : Z80.Bus FloatingBoard where
  read a f := ((Z80.Bus.read a f.board).1, ⟨(Z80.Bus.read a f.board).2.floating⟩)
  write a v f := ⟨(Z80.Bus.write a v f.board).floating⟩
  input port f := ((Z80.Bus.input port f.board).1, ⟨(Z80.Bus.input port f.board).2.floating⟩)
  output port v f := ⟨(Z80.Bus.output port v f.board).floating⟩
  acknowledge f := ((Z80.Bus.acknowledge f.board).1, ⟨(Z80.Bus.acknowledge f.board).2.floating⟩)

instance : Z80.InterruptSource FloatingBoard where
  poll f := ((Z80.InterruptSource.poll f.board).1, ⟨(Z80.InterruptSource.poll f.board).2.floating⟩)

end FloatingBoard

namespace Mainboard

/-- Lets the levels float. -/
def float (b : Mainboard) : FloatingBoard := ⟨b.floating⟩

instance : Z80.BusHom float where
  read a b := rfl
  write a v b := rfl
  input port b := by
    obtain ⟨hanswer, hboard⟩ := b.input_floating port
    exact Prod.ext hanswer (congrArg FloatingBoard.mk hboard)
  output port v b := by
    have hboard : (b.floating.output port v).floating = (b.output port v).floating := by
      rw [output_floating, floating_floating]
    exact congrArg FloatingBoard.mk hboard
  acknowledge b := rfl

theorem poll_float (b : Mainboard) :
    Z80.InterruptSource.poll b.float =
      ((Z80.InterruptSource.poll b).1, (Z80.InterruptSource.poll b).2.float) := by
  have hline := b.scanline_floating
  show ((if b.floating.scanline.gateArray.intRequest then _ else _),
    FloatingBoard.mk b.floating.scanline.floating) = _
  rw [hline]
  rfl

end Mainboard

end AmstradCpc
