/-!
# Palette

The Gate Array drives each gun of the monitor at one of three levels, which makes 27 colours.
Software names them by 32 hardware numbers, five of them doubles; the firmware numbers the colours
`9 * green + 3 * red + blue` with levels 0 to 2. A monochrome monitor shows the luminance.
-/

namespace AmstradCpc

inductive Monitor
  | colour | green | grey
  deriving DecidableEq, Repr, Inhabited

def Monitor.all : List Monitor := [.colour, .green, .grey]

def Monitor.name : Monitor → String
  | .colour => "colour"
  | .green => "green"
  | .grey => "grey"

def Monitor.ofName? (name : String) : Option Monitor := all.find? (·.name == name)

namespace Palette

/-- Firmware number of each hardware number. -/
def hardwareToFirmware : Vector UInt8 32 :=
  #v[13, 13, 19, 25, 1, 7, 10, 16, 7, 25, 24, 26, 6, 8, 15, 17,
    1, 19, 18, 20, 0, 2, 9, 11, 4, 22, 21, 23, 3, 5, 12, 14]

/-- Hardware number of each firmware number. -/
def firmwareToHardware : Vector UInt8 27 :=
  #v[0x14, 0x04, 0x15, 0x1C, 0x18, 0x1D, 0x0C, 0x05, 0x0D, 0x16, 0x06, 0x17, 0x1E, 0x00, 0x1F,
    0x0E, 0x07, 0x0F, 0x12, 0x02, 0x13, 0x1A, 0x19, 0x1B, 0x0A, 0x03, 0x0B]

/-- Levels of the red, green and blue gun for a firmware number. -/
def levels (firmware : UInt8) : UInt8 × UInt8 × UInt8 :=
  let n := firmware % 27
  (n / 3 % 3, n / 9, n % 3)

/-- Output of a gun at a level. -/
def intensity (level : UInt8) : UInt32 :=
  match level with
  | 0 => 0x00
  | 1 => 0x80
  | _ => 0xFF

/-- The firmware number of a hardware number, of which only the five low bits count. -/
def firmware (hardware : UInt8) : UInt8 := hardwareToFirmware[hardware.toNat % 32]

/-- What a monitor shows for a hardware number, as `0x00RRGGBB`. The weights of the luminance are
in 256ths; the green phosphor adds a little red and blue. -/
def rgb (monitor : Monitor) (hardware : UInt8) : UInt32 :=
  let (r, g, b) := levels (firmware hardware)
  let (r, g, b) := (intensity r, intensity g, intensity b)
  let luma := (r * 77 + g * 150 + b * 29) >>> 8
  match monitor with
  | .colour => (r <<< 16) ||| (g <<< 8) ||| b
  | .green => ((luma >>> 2) <<< 16) ||| (luma <<< 8) ||| (luma >>> 2)
  | .grey => (luma <<< 16) ||| (luma <<< 8) ||| luma

theorem firmware_firmwareToHardware :
    ∀ n : Fin 27, firmware firmwareToHardware[n] = n.val.toUInt8 := by decide

end Palette

end AmstradCpc
