/-!
# CRTC

The 6845 makes the addresses of the display from 18 registers, of which the host selects one and
then reads or writes it. This module has the register file and the address arithmetic of the raster.
Every register keeps only as many bits as it is wide.
-/

namespace AmstradCpc

/-- The registers of the firmware's screen. -/
def Crtc.powerOnRegisters : Vector UInt8 18 :=
  #v[63, 40, 46, 0x8E, 38, 0, 25, 30, 0, 7, 0, 0, 0x30, 0, 0, 0, 0, 0]

structure Crtc where
  /-- The selected register; 18 to 31 address nothing. -/
  selected : UInt8 := 0
  regs : Vector UInt8 18 := Crtc.powerOnRegisters
  deriving DecidableEq, Repr, Inhabited

namespace Crtc

/-- The chip's type as snapshots number it. -/
def chipType : UInt8 := 0

/-- The bits each register keeps. -/
def widths : Vector UInt8 18 :=
  #v[0xFF, 0xFF, 0xFF, 0xFF, 0x7F, 0x1F, 0x7F, 0x7F, 0xF3, 0x1F, 0x7F, 0x1F, 0x3F, 0xFF, 0x3F,
    0xFF, 0x3F, 0xFF]

/-! ## Register access -/

def select (v : UInt8) (crtc : Crtc) : Crtc := { crtc with selected := v &&& 0x1F }

/-- Loads a register, if there is one of that number. -/
def setRegister (n : Nat) (v : UInt8) (crtc : Crtc) : Crtc :=
  if h : n < 18 then { crtc with regs := crtc.regs.set n (v &&& widths[n]) } else crtc

/-- Writes the selected register. The light pen registers cannot be written. -/
def write (v : UInt8) (crtc : Crtc) : Crtc :=
  if crtc.selected < 16 then crtc.setRegister crtc.selected.toNat v else crtc

/-- A register's content, whether the host can read it or not. -/
def register (crtc : Crtc) (n : Nat) : UInt8 := crtc.regs[n]?.getD 0

/-- What the host reads: the cursor and light pen registers, and zero for all others. -/
def read (crtc : Crtc) : UInt8 :=
  if 14 ≤ crtc.selected && crtc.selected ≤ 17 then crtc.register crtc.selected.toNat else 0

/-- This chip has no status port; the lines float low. -/
def status (_ : Crtc) : UInt8 := 0

/-! ## Screen geometry -/

/-- Characters in a row. -/
def horizontalDisplayed (crtc : Crtc) : Nat := crtc.regs[1].toNat

/-- Rows of characters. -/
def verticalDisplayed (crtc : Crtc) : Nat := crtc.regs[6].toNat

def scanlinesPerRow (crtc : Crtc) : Nat := crtc.regs[9].toNat + 1

/-- Where the display starts, from registers 12 and 13. -/
def startAddress (crtc : Crtc) : UInt16 :=
  (crtc.regs[12].toUInt16 <<< 8) ||| crtc.regs[13].toUInt16

/-- The 14-bit address of a character. -/
def characterAddress (crtc : Crtc) (row col : UInt16) : UInt16 :=
  (crtc.startAddress + row * crtc.regs[1].toUInt16 + col) &&& 0x3FFF

/-- The byte that the machine fetches for a character's address and a raster line within its row:
bits 13 and 12 of the address select 16 KB, the raster line 2 KB of it, bits 9 to 0 a word. -/
def videoAddress (ma : UInt16) (ra : UInt8) : UInt16 :=
  ((ma &&& 0x3000) <<< 2) ||| ((ra.toUInt16 &&& 7) <<< 11) ||| ((ma &&& 0x03FF) <<< 1)

end Crtc

end AmstradCpc
