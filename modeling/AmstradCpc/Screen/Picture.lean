import AmstradCpc.Crtc
import AmstradCpc.GateArray
import AmstradCpc.GateArray.Pixels
import AmstradCpc.Memory
import AmstradCpc.Screen.Framebuffer

/-!
# The picture

What the machine shows on the canvas, worked out from the registers of the CRTC, the inks and the
screen memory at the end of a frame. The displayed area lies where the positions of the sync pulses
put it, and the border is all around it.

A character is two bytes of screen memory and 16 pixels wide, whatever the mode. Because the sync
position moves the display by whole characters, the canvas divides into rows of 48 cells, each of
which shows one character or the border.
-/

namespace AmstradCpc.Picture

/-! ## Places -/

/-- Cells in a row of the canvas. -/
def cells : Nat := 48

/-- The scanline of the display that a row of the canvas shows. The firmware's register 7 is 30,
which puts the first one on row 36; each character row less moves it down by as much. -/
def line? (crtc : Crtc) (y : Nat) : Option Nat :=
  let height := crtc.scanlinesPerRow
  let top := 36 + 30 * height
  let line := y + (crtc.register 7).toNat * height
  if top ≤ line ∧ line - top < crtc.verticalDisplayed * height then some (line - top) else none

/-- The column of the display that a cell shows. The firmware's register 2 is 46, which puts the
first one into cell 4. -/
def column? (crtc : Crtc) (cell : Nat) : Option Nat :=
  let column := cell + (crtc.register 2).toNat
  if 50 ≤ column ∧ column - 50 < crtc.horizontalDisplayed then some (column - 50) else none

/-- Where the first of the two bytes for a scanline and a column of the display is. -/
def address (crtc : Crtc) (line column : Nat) : UInt16 :=
  let height := crtc.scanlinesPerRow
  Crtc.videoAddress (crtc.characterAddress (line / height).toUInt16 column.toUInt16)
    (line % height).toUInt8

/-! ## Pixels -/

/-- The pens of the eight pixels that a byte covers. In modes with fewer pixels each is wider. -/
def pens (mode b : UInt8) : List UInt8 :=
  (Pixels.decode mode b).flatMap (List.replicate (8 / Pixels.count mode))

/-- Encoded pixels. -/
def pixels (format : PixelFormat) (monitor : Monitor) (ga : GateArray) (pens : List UInt8) :
    ByteArray :=
  ⟨(pens.flatMap fun pen => format.bytes (format.encode monitor (ga.ink pen.toNat))).toArray⟩

/-- What is drawn with: the encoded pixels of every byte, and of a cell of the border. -/
structure Brushes where
  screen : Vector ByteArray 256
  border : ByteArray

def Brushes.of (format : PixelFormat) (monitor : Monitor) (ga : GateArray) : Brushes where
  screen := .ofFn fun b => pixels format monitor ga (pens ga.mode b.val.toUInt8)
  border := pixels format monitor ga (List.replicate 16 GateArray.border)

/-- Draws a cell of a row. -/
@[inline] def drawCell (brushes : Brushes) (crtc : Crtc) (memory : Memory) (line? : Option Nat)
    (out : ByteArray) (cell : Nat) : ByteArray :=
  match line?, column? crtc cell with
  | some line, some column =>
    let a := address crtc line column
    out ++ brushes.screen[(memory.videoRead a).toFin] ++
      brushes.screen[(memory.videoRead (a + 1)).toFin]
  | _, _ => out ++ brushes.border

def drawRow (brushes : Brushes) (crtc : Crtc) (memory : Memory) (out : ByteArray) (y : Nat) :
    ByteArray :=
  (List.range cells).foldl (drawCell brushes crtc memory (line? crtc y)) out

/-- The whole canvas. -/
def draw (format : PixelFormat) (monitor : Monitor) (crtc : Crtc) (ga : GateArray)
    (memory : Memory) : ByteArray :=
  (List.range Framebuffer.height).foldl (drawRow (.of format monitor ga) crtc memory)
    (ByteArray.emptyWithCapacity (Framebuffer.width * Framebuffer.height * format.bytesPerPixel))

end AmstradCpc.Picture
