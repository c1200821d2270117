import AmstradCpc.GateArray.Palette

/-!
# Pixel formats

How a hardware colour is stored as a pixel: as its number, or as what the monitor shows for it, in
16 or in 32 bits. A pixel's code is stored low byte first.
-/

namespace AmstradCpc

inductive PixelFormat
  /-- A byte with the hardware colour. -/
  | indexed8
  /-- Red, green and blue in 5, 6 and 5 bits. -/
  | rgb565
  /-- Red, green and blue in a byte each, and a byte of zeros. -/
  | xrgb8888
  deriving DecidableEq, Repr, Inhabited

namespace PixelFormat

def all : List PixelFormat := [.indexed8, .rgb565, .xrgb8888]

def name : PixelFormat → String
  | .indexed8 => "Indexed8"
  | .rgb565 => "Rgb565"
  | .xrgb8888 => "Xrgb8888"

def bytesPerPixel : PixelFormat → Nat
  | .indexed8 => 1
  | .rgb565 => 2
  | .xrgb8888 => 4

/-- The code of a hardware colour. -/
def encode (format : PixelFormat) (monitor : Monitor) (hardware : UInt8) : UInt32 :=
  let colour := Palette.rgb monitor hardware
  match format with
  | .indexed8 => (hardware &&& 0x1F).toUInt32
  | .rgb565 =>
    let (r, g, b) := ((colour >>> 16) &&& 0xFF, (colour >>> 8) &&& 0xFF, colour &&& 0xFF)
    ((r >>> 3) <<< 11) ||| ((g >>> 2) <<< 5) ||| (b >>> 3)
  | .xrgb8888 => colour

/-- The bytes of a code. -/
def bytes (format : PixelFormat) (code : UInt32) : List UInt8 :=
  match format with
  | .indexed8 => [code.toUInt8]
  | .rgb565 => [code.toUInt8, (code >>> 8).toUInt8]
  | .xrgb8888 =>
    [code.toUInt8, (code >>> 8).toUInt8, (code >>> 16).toUInt8, (code >>> 24).toUInt8]

/-- The colour of a code, as `0x00RRGGBB`. The narrow guns of 16 bits are spread over the whole
range. -/
def decode (format : PixelFormat) (monitor : Monitor) (code : UInt32) : UInt32 :=
  match format with
  | .indexed8 => Palette.rgb monitor code.toUInt8
  | .rgb565 =>
    let (r, g, b) := ((code >>> 11) &&& 0x1F, (code >>> 5) &&& 0x3F, code &&& 0x1F)
    (((r <<< 3) ||| (r >>> 2)) <<< 16) ||| (((g <<< 2) ||| (g >>> 4)) <<< 8) |||
      ((b <<< 3) ||| (b >>> 2))
  | .xrgb8888 => code

theorem length_bytes (format : PixelFormat) (code : UInt32) :
    (format.bytes code).length = format.bytesPerPixel := by
  cases format <;> rfl

end PixelFormat

end AmstradCpc
