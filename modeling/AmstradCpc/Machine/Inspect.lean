import AmstradCpc.Machine
import AmstradCpc.Text.Numeral
import AmstradCpc.Z80.Inspect

/-!
# Looking into a machine

The state of the chips and bytes of memory by name. A name is a path: the chip, a dot, and what to
look at.
-/

namespace AmstradCpc.Machine

/-- The names that `query` knows. -/
def queryPaths : List String :=
  ["cpu.<z80_paths>", "crtc.r<0-17>", "crtc.selected", "crtc.registers", "ga.pen", "ga.inks",
    "ga.mode", "ga.rom_config", "ga.ram_config", "ga.line_counter", "ga.int_request", "ga.vsync",
    "ppi.a", "ppi.b", "ppi.c", "ppi.control", "psg.selected", "psg.registers", "fdc.msr",
    "fdc.motor", "memory.<address>", "frame_count", "rom_select"]

/-- Reads an address, which is hexadecimal behind `0x` or `&` and else decimal. -/
def address? (text : List Char) : Option UInt16 :=
  let n := match text with
    | '0' :: 'x' :: hex => Numeral.natural? 16 0x10000 hex
    | '0' :: 'X' :: hex => Numeral.natural? 16 0x10000 hex
    | '&' :: hex => Numeral.natural? 16 0x10000 hex
    | decimal => Numeral.natural? 10 0x10000 decimal
  n.map Nat.toUInt16

def queryCrtc (crtc : Crtc) (path : String) : Option Value :=
  match path with
  | "selected" => some (.u8 crtc.selected)
  | "registers" => some (.bytes crtc.regs.toList)
  | _ => do
    let n ← match path.toList with
      | 'r' :: number => Numeral.natural? 10 18 number
      | _ => none
    return .u8 (crtc.register n)

def queryGateArray (ga : GateArray) (path : String) : Option Value :=
  match path with
  | "pen" => some (.u8 ga.pen)
  | "inks" => some (.bytes ga.inks.toList)
  | "mode" => some (.u8 ga.mode)
  | "rom_config" => some (.u8 ga.romConfig)
  | "ram_config" => some (.u8 ga.ramConfig)
  | "line_counter" => some (.u8 ga.lineCounter)
  | "int_request" => some (.bool ga.intRequest)
  | "vsync" => some (.bool ga.vsync)
  | _ => none

/-- Port B shows its levels, the other ports their latches. -/
def queryPpi (b : Mainboard) (path : String) : Option Value :=
  match path with
  | "a" => some (.u8 b.ppi.portA)
  | "b" => some (.u8 b.portBInput)
  | "c" => some (.u8 b.ppi.portC)
  | "control" => some (.u8 b.ppi.control)
  | _ => none

def queryPsg (psg : Psg) (path : String) : Option Value :=
  match path with
  | "selected" => some (.u8 psg.selected)
  | "registers" => some (.bytes psg.regs.toList)
  | _ => none

def queryFdc (fdc : Floppy.Controller) (path : String) : Option Value :=
  match path with
  | "msr" => some (.u8 fdc.status)
  | "motor" => some (.bool fdc.motor)
  | _ => none

/-- Splits a path at its first dot. -/
def splitPath (path : String) : String × Option String :=
  let cs := path.toList
  match cs.dropWhile (· != '.') with
  | [] => (path, none)
  | _ :: rest => (String.ofList (cs.takeWhile (· != '.')), some (String.ofList rest))

/-- The value with the given name, if there is one. -/
def query (m : Machine) (path : String) : Option Value :=
  let b := m.board
  match splitPath path with
  | ("cpu", some rest) => m.cpu.query rest
  | ("crtc", some rest) => queryCrtc b.crtc rest
  | ("ga", some rest) => queryGateArray b.gateArray rest
  | ("ppi", some rest) => queryPpi b rest
  | ("psg", some rest) => queryPsg b.psg rest
  | ("fdc", some rest) => queryFdc b.fdc rest
  | ("memory", some rest) => (address? rest.toList).map fun a => .u8 (b.memory.read a)
  | ("frame_count", none) => some (.u64 m.frameCount.toUInt64)
  | ("rom_select", none) => some (.u8 b.memory.romSelect)
  | _ => none

end AmstradCpc.Machine
