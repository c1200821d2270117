import AmstradCpc.Z80.System

/-!
# Execution

What every instruction does. Each function takes the system after the opcode has been fetched; those
of instructions with a variable cost also return the T-states to add to the listed ones.
-/

namespace AmstradCpc.Z80

variable {β : Type} [Bus β]

/-! ## The unprefixed page -/

namespace Instr

/-- The accumulator operation `op` with operand `v`. -/
@[inline] def accumulate (op : AluOp) (v : UInt8) (r : Registers) : Registers :=
  let res := op.apply r.a v r.f
  { r with a := res.value, f := res.flags }

/-- A rotate of `RLCA`, `RRCA`, `RLA` and `RRA`, which leaves sign, zero and parity alone. -/
def rotateAccumulator (op : ShiftOp) (r : Registers) : Registers :=
  let res := op.apply r.a r.f
  { r with
    a := res.value
    f := (r.f &&& Flag.signZeroParity) ||| (res.value &&& Flag.xy) ||| (res.flags &&& Flag.carry) }

def addToIndex (x : Index) (p : Pair) (r : Registers) : Registers :=
  let hl := r.index x
  let sum := add16 hl (r.getPair x p)
  { r.setIndex x sum.value with
    wz := hl + 1
    f := (r.f &&& Flag.signZeroParity) ||| sum.flags }

def complementA (r : Registers) : Registers :=
  let a := ~~~r.a
  { r with
    a
    f := (r.f &&& (Flag.signZeroParity ||| Flag.carry)) ||| Flag.half ||| Flag.subtract |||
      (a &&& Flag.xy) }

/-- Sets the carry: `SCF`. -/
def raiseCarry (r : Registers) : Registers :=
  { r with f := (r.f &&& Flag.signZeroParity) ||| Flag.carry ||| (r.a &&& Flag.xy) }

/-- Complements the carry: `CCF`. The old carry goes to half carry. -/
def invertCarry (r : Registers) : Registers :=
  let old := r.f &&& Flag.carry
  { r with
    f := (r.f &&& Flag.signZeroParity) ||| (old <<< 4) ||| (old ^^^ Flag.carry) |||
      (r.a &&& Flag.xy) }

/-- What the address latch holds after `A` was stored at `a`. -/
@[inline] def storeLatch (acc : UInt8) (a : UInt16) : UInt16 := word acc (loByte (a + 1))

/-- The address of a pointer pair. -/
@[inline] def pointer (p : Pointer) (r : Registers) : UInt16 :=
  match p with
  | .bc => r.bc
  | .de => r.de

/-- A relative jump by `e`, counted from the next instruction. -/
@[inline] def jumpBy (e : UInt8) (s : System β) : System β := s.goTo (s.regs.pc + signExtend e)

/-- Executes an instruction with `x` in the place of `HL`. Returns what a taken branch adds. -/
@[specialize] def exec (i : Instr) (x : Index) (s : System β) : Nat × System β :=
  match i with
  | nop => (0, s)
  | halt => (0, s.mapRegs fun r => { r with halted := true })
  | exchangeAF => (0, s.mapRegs Registers.exchangeAF)
  | exchangeMain => (0, s.mapRegs Registers.exchangeMain)
  | exchangeDEHL => (0, s.mapRegs Registers.exchangeDEHL)
  | exchangeStack =>
    let sp := s.regs.sp
    let (w, s) := s.readWord sp
    let s := s.writeWord sp (s.regs.index x)
    (0, s.mapRegs fun r => { r.setIndex x w with wz := w })
  | loadPair p =>
    let (w, s) := s.fetchWord
    (0, s.mapRegs fun r => r.setPair x p w)
  | addPair p => (0, s.mapRegs (addToIndex x p))
  | incPair p => (0, s.mapRegs fun r => r.setPair x p (r.getPair x p + 1))
  | decPair p => (0, s.mapRegs fun r => r.setPair x p (r.getPair x p - 1))
  | storeAt p =>
    let a := pointer p s.regs
    let acc := s.regs.a
    (0, (s.write a acc).mapRegs fun r => { r with wz := storeLatch acc a })
  | loadFrom p =>
    let a := pointer p s.regs
    let (v, s) := s.read a
    (0, s.mapRegs fun r => { r with a := v, wz := a + 1 })
  | storeIndex =>
    let (a, s) := s.fetchWord
    let s := s.writeWord a (s.regs.index x)
    (0, s.mapRegs fun r => { r with wz := a + 1 })
  | loadIndex =>
    let (a, s) := s.fetchWord
    let (w, s) := s.readWord a
    (0, s.mapRegs fun r => { r.setIndex x w with wz := a + 1 })
  | storeA =>
    let (a, s) := s.fetchWord
    let acc := s.regs.a
    (0, (s.write a acc).mapRegs fun r => { r with wz := storeLatch acc a })
  | loadA =>
    let (a, s) := s.fetchWord
    let (v, s) := s.read a
    (0, s.mapRegs fun r => { r with a := v, wz := a + 1 })
  | loadSP => (0, s.mapRegs fun r => { r with sp := r.index x })
  | inc reg =>
    (0, s.mapRegs fun r =>
      let res := inc8 (r.get x reg)
      { r.set x reg res.value with f := (r.f &&& Flag.carry) ||| res.flags })
  | dec reg =>
    (0, s.mapRegs fun r =>
      let res := dec8 (r.get x reg)
      { r.set x reg res.value with f := (r.f &&& Flag.carry) ||| res.flags })
  | loadByte reg =>
    let (v, s) := s.fetchByte
    (0, s.mapRegs fun r => r.set x reg v)
  | load dst src => (0, s.mapRegs fun r => r.set x dst (r.get x src))
  | alu op reg => (0, s.mapRegs fun r => accumulate op (r.get x reg) r)
  | aluByte op =>
    let (v, s) := s.fetchByte
    (0, s.mapRegs (accumulate op v))
  | rotateA op => (0, s.mapRegs (rotateAccumulator op))
  | decimalAdjust =>
    (0, s.mapRegs fun r =>
      let res := Z80.decimalAdjust r.a r.f
      { r with a := res.value, f := res.flags })
  | complement => (0, s.mapRegs complementA)
  | setCarry => (0, s.mapRegs raiseCarry)
  | flipCarry => (0, s.mapRegs invertCarry)
  | decJump =>
    let (e, s) := s.fetchByte
    let s := s.mapRegs fun r => { r with b := r.b - 1 }
    if s.regs.b != 0 then (jumpPenalty, jumpBy e s) else (0, s)
  | jumpRelative =>
    let (e, s) := s.fetchByte
    (0, jumpBy e s)
  | jumpRelativeIf cc =>
    let (e, s) := s.fetchByte
    if s.regs.holds cc then (jumpPenalty, jumpBy e s) else (0, s)
  | jump =>
    let (a, s) := s.fetchWord
    (0, s.goTo a)
  | jumpIf cc =>
    let (a, s) := s.fetchWord
    if s.regs.holds cc then (0, s.goTo a) else (0, s.mapRegs fun r => { r with wz := a })
  | jumpIndex => (0, s.mapRegs fun r => { r with pc := r.index x })
  | call =>
    let (a, s) := s.fetchWord
    (0, (s.push s.regs.pc).goTo a)
  | callIf cc =>
    let (a, s) := s.fetchWord
    if s.regs.holds cc then (callPenalty, (s.push s.regs.pc).goTo a)
    else (0, s.mapRegs fun r => { r with wz := a })
  | ret =>
    let (a, s) := s.pop
    (0, s.goTo a)
  | retIf cc =>
    if s.regs.holds cc then
      let (a, s) := s.pop
      (returnPenalty, s.goTo a)
    else (0, s)
  | restart a => (0, (s.push s.regs.pc).goTo a.toUInt16)
  | push p => (0, s.push (s.regs.getStackPair x p))
  | pop p =>
    let (w, s) := s.pop
    (0, s.mapRegs fun r => r.setStackPair x p w)
  | output =>
    let (n, s) := s.fetchByte
    let acc := s.regs.a
    (0, (s.output (word acc n) acc).mapRegs fun r => { r with wz := word acc (n + 1) })
  | input =>
    let (n, s) := s.fetchByte
    let port := word s.regs.a n
    let (v, s) := s.input port
    (0, s.mapRegs fun r => { r with a := v, wz := port + 1 })
  | disable => (0, s.mapRegs fun r => { r with iff1 := false, iff2 := false })
  | enable =>
    let s := s.mapRegs fun r => { r with iff1 := true, iff2 := true }
    (0, { s with cpu.eiDelay := true })

end Instr

namespace MemoryInstr

/-- Executes an instruction whose memory operand is at `a`. The registers it names are never part
of an index pair. -/
@[specialize] def exec (m : MemoryInstr) (a : UInt16) (s : System β) : System β :=
  match m with
  | inc =>
    let (v, s) := s.read a
    let res := inc8 v
    (s.write a res.value).mapRegs fun r => { r with f := (r.f &&& Flag.carry) ||| res.flags }
  | dec =>
    let (v, s) := s.read a
    let res := dec8 v
    (s.write a res.value).mapRegs fun r => { r with f := (r.f &&& Flag.carry) ||| res.flags }
  | loadByte =>
    let (v, s) := s.fetchByte
    s.write a v
  | load dst =>
    let (v, s) := s.read a
    s.mapRegs fun r => r.set .hl dst v
  | store src => s.write a (s.regs.get .hl src)
  | alu op =>
    let (v, s) := s.read a
    s.mapRegs (Instr.accumulate op v)

end MemoryInstr

/-! ## The `CB` page -/

namespace BitOp

/-- Flags of `BIT n,v`; the undocumented bits come from `source`. -/
def testFlags (n v source f : UInt8) : UInt8 :=
  let tested := v &&& (1 <<< n)
  (f &&& Flag.carry) ||| Flag.half ||| (source &&& Flag.xy) |||
    flagIf (tested == 0) (Flag.zero ||| Flag.parity) ||| (tested &&& Flag.sign)

/-- The operation on `v` with old flags `f`: the new flags, and the byte to write back unless it
only tests. -/
def apply (op : BitOp) (v source f : UInt8) : UInt8 × Option UInt8 :=
  match op with
  | shift op =>
    let res := op.apply v f
    (res.flags, some res.value)
  | test n => (testFlags n v source f, none)
  | reset n => (f, some (v &&& ~~~(1 <<< n)))
  | set n => (f, some (v ||| (1 <<< n)))

end BitOp

namespace BitInstr

/-- A `CB` operation on a register. -/
def execRegister (op : BitOp) (reg : Register) (r : Registers) : Registers :=
  let v := r.get .hl reg
  let (f, result) := op.apply v v r.f
  let r := { r with f }
  match result with
  | some v => r.set .hl reg v
  | none => r

/-- A `CB` operation on the byte at `a`. A test takes its undocumented flags from `source`. Returns
the byte written, if any. -/
@[specialize] def execMemory (op : BitOp) (a : UInt16) (source : UInt8) (s : System β) :
    Option UInt8 × System β :=
  let (v, s) := s.read a
  let (f, result) := op.apply v source s.regs.f
  let s := s.mapRegs fun r => { r with f }
  match result with
  | some v => (some v, s.write a v)
  | none => (none, s)

/-- Executes `CB xx`. -/
@[specialize] def exec (i : BitInstr) (s : System β) : System β :=
  match i.target with
  | some reg => s.mapRegs (execRegister i.op reg)
  | none => (execMemory i.op s.regs.hl (hiByte s.regs.wz) s).2

/-- Executes `DD CB d xx`: works on the byte at `a` and copies what it wrote to the register it
names. -/
@[specialize] def execIndexed (i : BitInstr) (a : UInt16) (s : System β) : System β :=
  let (written, s) := execMemory i.op a (hiByte a) s
  match i.target, written with
  | some reg, some v => s.mapRegs fun r => r.set .hl reg v
  | _, _ => s

end BitInstr

/-! ## The `ED` page -/

namespace Extended

/-- Puts `PC` back on the instruction so that it runs again. -/
@[inline] def rewind (r : Registers) : Registers := { r with pc := r.pc - 2 }

/-- The undocumented bits of a block transfer or search: bits 3 and 1 of `n`. -/
@[inline] def blockXY (n : UInt8) : UInt8 := (n &&& Flag.x) ||| ((n <<< 4) &&& Flag.y)

/-- The registers of `LDI` and relatives, after the byte `v` has been copied. -/
def loadRegisters (d : Direction) (v : UInt8) (r : Registers) : Registers :=
  let bc := r.bc - 1
  let r := ((r.setHL (d.step r.hl)).setDE (d.step r.de)).setBC bc
  { r with
    f := (r.f &&& (Flag.sign ||| Flag.zero ||| Flag.carry)) ||| blockXY (v + r.a) |||
      flagIf (bc != 0) Flag.parity }

/-- The registers of `CPI` and relatives, after the byte `v` has been read. -/
def compareRegisters (d : Direction) (v : UInt8) (r : Registers) : Registers :=
  let result := r.a - v
  let half := (r.a ^^^ v ^^^ result) &&& Flag.half
  let bc := r.bc - 1
  let r := (r.setHL (d.step r.hl)).setBC bc
  { r with
    wz := d.step r.wz
    f := (r.f &&& Flag.carry) ||| Flag.subtract ||| half |||
      (resultFlags result &&& (Flag.sign ||| Flag.zero)) |||
      blockXY (result - flagIf (half != 0) 1) ||| flagIf (bc != 0) Flag.parity }

/-- Flags of a block transfer from or to a port: `b` is the new count, `v` the byte, `addend` what
the chip adds to it. -/
def transferFlags (b v addend : UInt8) : UInt8 :=
  let overflow := v.toNat + addend.toNat > 0xFF
  resultFlags b ||| flagIf (v &&& 0x80 != 0) Flag.subtract |||
    flagIf overflow (Flag.half ||| Flag.carry) |||
    flagIf (evenParity (((v + addend) &&& 7) ^^^ b)) Flag.parity

/-- Executes `LDI`, `LDD`, `LDIR`, `LDDR`. -/
@[specialize] def blockLoad (d : Direction) (repeats : Bool) (s : System β) : Nat × System β :=
  let (v, s) := s.read s.regs.hl
  let s := (s.write s.regs.de v).mapRegs (loadRegisters d v)
  if repeats && s.regs.bc != 0 then
    (jumpPenalty, s.mapRegs fun r => { rewind r with wz := r.pc - 1 })
  else (0, s)

/-- Executes `CPI`, `CPD`, `CPIR`, `CPDR`. -/
@[specialize] def blockCompare (d : Direction) (repeats : Bool) (s : System β) : Nat × System β :=
  let (v, s) := s.read s.regs.hl
  let s := s.mapRegs (compareRegisters d v)
  if repeats && s.regs.bc != 0 && s.regs.a != v then
    (jumpPenalty, s.mapRegs fun r => { rewind r with wz := r.pc - 1 })
  else (0, s)

/-- Executes `INI`, `IND`, `INIR`, `INDR`. -/
@[specialize] def blockInput (d : Direction) (repeats : Bool) (s : System β) : Nat × System β :=
  let bc := s.regs.bc
  let (v, s) := s.input bc
  let s := (s.write s.regs.hl v).mapRegs fun r =>
    let b := r.b - 1
    { r.setHL (d.step r.hl) with
      b
      wz := d.step bc
      f := transferFlags b v (loByte (d.step r.c.toUInt16)) }
  if repeats && s.regs.b != 0 then (jumpPenalty, s.mapRegs rewind) else (0, s)

/-- Executes `OUTI`, `OUTD`, `OTIR`, `OTDR`. The port sees the count already reduced. -/
@[specialize] def blockOutput (d : Direction) (repeats : Bool) (s : System β) : Nat × System β :=
  let (v, s) := s.read s.regs.hl
  let s := s.mapRegs fun r => { r with b := r.b - 1 }
  let bc := s.regs.bc
  let s := (s.output bc v).mapRegs fun r =>
    let r := r.setHL (d.step r.hl)
    { r with wz := d.step bc, f := transferFlags r.b v r.l }
  if repeats && s.regs.b != 0 then (jumpPenalty, s.mapRegs rewind) else (0, s)

/-- A 16-bit operation on `HL`. -/
@[inline] def arithmetic (result : AluResult16) (r : Registers) : Registers :=
  { r.setHL result.value with wz := r.hl + 1, f := result.flags }

/-- The registers after `A` is loaded from the interrupt or refresh register; parity shows the
second flip-flop. -/
@[inline] def loadAccumulator (v : UInt8) (r : Registers) : Registers :=
  { r with
    a := v
    f := (r.f &&& Flag.carry) ||| resultFlags v ||| flagIf r.iff2 Flag.parity }

/-- The registers of `RRD` and `RLD`, after the byte in memory has been exchanged. -/
@[inline] def rotateDigits (a : UInt8) (r : Registers) : Registers :=
  { r with a, f := (r.f &&& Flag.carry) ||| parityFlags a, wz := r.hl + 1 }

/-- Executes an instruction of the `ED` page. Returns what repeating it adds. -/
@[specialize] def exec (i : Extended) (opcode : UInt8) (s : System β) : Nat × System β :=
  match i with
  | input target =>
    let bc := s.regs.bc
    let (v, s) := s.input bc
    (0, s.mapRegs fun r =>
      let r := match target with
        | some reg => r.set .hl reg v
        | none => r
      { r with wz := bc + 1, f := (r.f &&& Flag.carry) ||| parityFlags v })
  | output source =>
    let bc := s.regs.bc
    let v := match source with
      | some reg => s.regs.get .hl reg
      | none => 0
    (0, (s.output bc v).mapRegs fun r => { r with wz := bc + 1 })
  | subPair p =>
    (0, s.mapRegs fun r => arithmetic (sbc16 r.hl (r.getPair .hl p) (hasFlag r.f Flag.carry)) r)
  | addPair p =>
    (0, s.mapRegs fun r => arithmetic (adc16 r.hl (r.getPair .hl p) (hasFlag r.f Flag.carry)) r)
  | storePair p =>
    let (a, s) := s.fetchWord
    let s := s.writeWord a (s.regs.getPair .hl p)
    (0, s.mapRegs fun r => { r with wz := a + 1 })
  | loadPair p =>
    let (a, s) := s.fetchWord
    let (w, s) := s.readWord a
    (0, s.mapRegs fun r => { r.setPair .hl p w with wz := a + 1 })
  | negate =>
    (0, s.mapRegs fun r =>
      let res := sub8 0 r.a false
      { r with a := res.value, f := res.flags })
  | ret =>
    let s := s.mapRegs fun r => { r with iff1 := r.iff2 }
    let (a, s) := s.pop
    (0, s.goTo a)
  | mode n => (0, s.mapRegs fun r => { r with im := n })
  | loadIA => (0, s.mapRegs fun r => { r with i := r.a })
  | loadRA => (0, s.mapRegs fun r => { r with r := r.a })
  | loadAI => (0, s.mapRegs fun r => loadAccumulator r.i r)
  | loadAR => (0, s.mapRegs fun r => loadAccumulator r.r r)
  | rotateRight =>
    let hl := s.regs.hl
    let (v, s) := s.read hl
    let a := s.regs.a
    let s := s.write hl ((a <<< 4) ||| (v >>> 4))
    (0, s.mapRegs (rotateDigits ((a &&& 0xF0) ||| (v &&& 0x0F))))
  | rotateLeft =>
    let hl := s.regs.hl
    let (v, s) := s.read hl
    let a := s.regs.a
    let s := s.write hl ((v <<< 4) ||| (a &&& 0x0F))
    (0, s.mapRegs (rotateDigits ((v >>> 4) ||| (a &&& 0xF0))))
  | block .load d repeats => blockLoad d repeats s
  | block .compare d repeats => blockCompare d repeats s
  | block .input d repeats => blockInput d repeats s
  | block .output d repeats => blockOutput d repeats s
  | undefined =>
    (0, { s with undefined := s.undefined.push { opcode, address := s.regs.pc - 2 } })

end Extended

end AmstradCpc.Z80
