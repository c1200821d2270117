import AmstradCpc.Value
import AmstradCpc.Z80.Cpu

/-!
# Looking into the CPU

Registers, flags and counters by name.
-/

namespace AmstradCpc.Z80.Registers

/-- Sets the register, or the flip-flop, with the given name. A name with a prime is in the shadow
set. Another name changes nothing. -/
def setNamed (r : Registers) (name : String) (n : Nat) : Registers :=
  let b := n.toUInt8
  let w := n.toUInt16
  match name with
  | "a" => { r with a := b }
  | "f" => { r with f := b }
  | "b" => { r with b := b }
  | "c" => { r with c := b }
  | "d" => { r with d := b }
  | "e" => { r with e := b }
  | "h" => { r with h := b }
  | "l" => { r with l := b }
  | "i" => { r with i := b }
  | "r" => { r with r := b }
  | "im" => { r with im := b }
  | "af" => r.setAF w
  | "bc" => r.setBC w
  | "de" => r.setDE w
  | "hl" => r.setHL w
  | "ix" => { r with ix := w }
  | "iy" => { r with iy := w }
  | "sp" => { r with sp := w }
  | "pc" => { r with pc := w }
  | "wz" => { r with wz := w }
  | "af'" => { r with a' := hiByte w, f' := loByte w }
  | "bc'" => { r with b' := hiByte w, c' := loByte w }
  | "de'" => { r with d' := hiByte w, e' := loByte w }
  | "hl'" => { r with h' := hiByte w, l' := loByte w }
  | "iff1" => { r with iff1 := n != 0 }
  | "iff2" => { r with iff2 := n != 0 }
  | "halted" => { r with halted := n != 0 }
  | _ => r

end AmstradCpc.Z80.Registers

namespace AmstradCpc.Z80.Cpu

/-- The names that `query` knows, in the order they are listed in. -/
def queryPaths : List String :=
  ["pc", "sp", "a", "f", "b", "c", "d", "e", "h", "l", "af", "bc", "de", "hl", "af'", "bc'",
    "de'", "hl'", "ix", "iy", "i", "r", "wz", "im", "iff1", "iff2", "halted", "flags.s",
    "flags.z", "flags.h", "flags.pv", "flags.n", "flags.c", "iperiod", "t_states", "m1_cycles"]

/-- The value with the given name, if there is one. -/
def query (cpu : Cpu) (path : String) : Option Value :=
  let r := cpu.regs
  let flag (mask : UInt8) : Option Value := some (.bool (hasFlag r.f mask))
  match path with
  | "pc" => some (.u16 r.pc)
  | "sp" => some (.u16 r.sp)
  | "a" => some (.u8 r.a)
  | "f" => some (.u8 r.f)
  | "b" => some (.u8 r.b)
  | "c" => some (.u8 r.c)
  | "d" => some (.u8 r.d)
  | "e" => some (.u8 r.e)
  | "h" => some (.u8 r.h)
  | "l" => some (.u8 r.l)
  | "af" => some (.u16 r.af)
  | "bc" => some (.u16 r.bc)
  | "de" => some (.u16 r.de)
  | "hl" => some (.u16 r.hl)
  | "af'" => some (.u16 (word r.a' r.f'))
  | "bc'" => some (.u16 (word r.b' r.c'))
  | "de'" => some (.u16 (word r.d' r.e'))
  | "hl'" => some (.u16 (word r.h' r.l'))
  | "ix" => some (.u16 r.ix)
  | "iy" => some (.u16 r.iy)
  | "i" => some (.u8 r.i)
  | "r" => some (.u8 r.r)
  | "wz" => some (.u16 r.wz)
  | "im" => some (.u8 r.im)
  | "iff1" => some (.bool r.iff1)
  | "iff2" => some (.bool r.iff2)
  | "halted" => some (.bool r.halted)
  | "flags.s" => flag Flag.sign
  | "flags.z" => flag Flag.zero
  | "flags.h" => flag Flag.half
  | "flags.pv" => flag Flag.parity
  | "flags.n" => flag Flag.subtract
  | "flags.c" => flag Flag.carry
  | "iperiod" => some (.u32 cpu.period.toNat.toUInt32)
  | "t_states" => some (.u64 cpu.tStates.toUInt64)
  | "m1_cycles" => some (.u64 cpu.m1Cycles.toUInt64)
  | _ => none

end AmstradCpc.Z80.Cpu
