import AmstradCpc.Screen.PixelFormat

/-!
# Framebuffer

The canvas, a window of 768 by 272 pixels onto the monitor, stored row by row in one of the pixel
formats. It is wide enough for a full screen with its border.
-/

namespace AmstradCpc

structure Framebuffer where
  format : PixelFormat
  monitor : Monitor
  data : ByteArray
  deriving Inhabited

namespace Framebuffer

def width : Nat := 768

def height : Nat := 272

/-- Bytes in a row. -/
def stride (fb : Framebuffer) : Nat := width * fb.format.bytesPerPixel

/-- A canvas of zeros. -/
def blank (format : PixelFormat) (monitor : Monitor) : Framebuffer where
  format
  monitor
  data := ⟨Array.replicate (width * height * format.bytesPerPixel) 0⟩

def clear (fb : Framebuffer) : Framebuffer := blank fb.format fb.monitor

/-- Switches the monitor. What is on the canvas keeps its codes. -/
def setMonitor (monitor : Monitor) (fb : Framebuffer) : Framebuffer := { fb with monitor }

/-- Switches the pixel format. The canvas of another format is blank. -/
def setFormat (format : PixelFormat) (fb : Framebuffer) : Framebuffer :=
  if format = fb.format then fb else blank format fb.monitor

/-- What the monitor shows for a hardware colour, as `0x00RRGGBB`. -/
def palette (fb : Framebuffer) (hardware : UInt8) : UInt32 := Palette.rgb fb.monitor hardware

/-! ## Pixels -/

def byte (fb : Framebuffer) (i : Nat) : UInt8 :=
  if h : i < fb.data.size then fb.data.get i h else 0

/-- The code at position `i` of the data. -/
def codeAt (fb : Framebuffer) (i : Nat) : UInt32 :=
  match fb.format with
  | .indexed8 => (fb.byte i).toUInt32
  | .rgb565 => (fb.byte i).toUInt32 ||| ((fb.byte (i + 1)).toUInt32 <<< 8)
  | .xrgb8888 =>
    (fb.byte i).toUInt32 ||| ((fb.byte (i + 1)).toUInt32 <<< 8) |||
      ((fb.byte (i + 2)).toUInt32 <<< 16) ||| ((fb.byte (i + 3)).toUInt32 <<< 24)

/-- The colour at position `i` of the data. -/
def colourAt (fb : Framebuffer) (i : Nat) : UInt32 := fb.format.decode fb.monitor (fb.codeAt i)

/-- The colour of the pixel at column `x` of row `y`. -/
def pixel (fb : Framebuffer) (x y : Nat) : UInt32 :=
  fb.colourAt (y * fb.stride + x * fb.format.bytesPerPixel)

/-- Adds a colour as three bytes: red, green and blue. -/
@[inline] def pushRgb (out : ByteArray) (colour : UInt32) : ByteArray :=
  ((out.push (colour >>> 16).toUInt8).push (colour >>> 8).toUInt8).push colour.toUInt8

/-- The colours of the canvas, row by row, with three bytes for each pixel. -/
def toRgb (fb : Framebuffer) : ByteArray :=
  (List.range (width * height)).foldl
    (fun out n => pushRgb out (fb.colourAt (n * fb.format.bytesPerPixel)))
    (ByteArray.emptyWithCapacity (width * height * 3))

end Framebuffer

end AmstradCpc
