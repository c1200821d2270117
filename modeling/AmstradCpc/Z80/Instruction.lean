import AmstradCpc.Z80.Alu
import AmstradCpc.Z80.Registers

/-!
# Instructions and their opcodes

An opcode splits into three fields: bits 7 and 6 pick a block, bits 5 to 3 and bits 2 to 0 an
operation and its operands. The four prefix bytes lead to further pages. `Opcode.decode` reads the
unprefixed page, `BitInstr.decode` the `CB` page and `Extended.decode` the `ED` page; all three are
total, as every byte means something to the chip.

Instructions that work on memory at `HL` are kept apart as `MemoryInstr`: a `DD` or `FD` in front
moves their operand to `IX+d` or `IY+d` and leaves the registers they name alone, while in every
other instruction it replaces `HL` itself.
-/

namespace AmstradCpc.Z80

/-! ## Operand fields -/

/-- The register with a three-bit code; code 6 is the memory operand. -/
def Register.ofBits (n : UInt8) : Option Register :=
  match n with
  | 0 => some .b
  | 1 => some .c
  | 2 => some .d
  | 3 => some .e
  | 4 => some .h
  | 5 => some .l
  | 6 => none
  | _ => some .a

def Pair.ofBits (n : UInt8) : Pair :=
  match n with
  | 0 => .bc
  | 1 => .de
  | 2 => .hl
  | _ => .sp

def StackPair.ofBits (n : UInt8) : StackPair :=
  match n with
  | 0 => .bc
  | 1 => .de
  | 2 => .hl
  | _ => .af

def Condition.ofBits (n : UInt8) : Condition :=
  match n with
  | 0 => .nz
  | 1 => .z
  | 2 => .nc
  | 3 => .c
  | 4 => .po
  | 5 => .pe
  | 6 => .p
  | _ => .m

def AluOp.ofBits (n : UInt8) : AluOp :=
  match n with
  | 0 => .add
  | 1 => .adc
  | 2 => .sub
  | 3 => .sbc
  | 4 => .and
  | 5 => .xor
  | 6 => .or
  | _ => .cp

def ShiftOp.ofBits (n : UInt8) : ShiftOp :=
  match n with
  | 0 => .rlc
  | 1 => .rrc
  | 2 => .rl
  | 3 => .rr
  | 4 => .sla
  | 5 => .sra
  | 6 => .sll
  | _ => .srl

/-! ## The unprefixed page -/

/-- The two pairs that `LD A,(rr)` and `LD (rr),A` address memory with. -/
inductive Pointer
  | bc | de
  deriving DecidableEq, Repr, Inhabited

/-- Instructions without a memory operand at `HL`. -/
inductive Instr
  | nop
  | halt
  | exchangeAF
  | exchangeMain
  | exchangeDEHL
  | exchangeStack
  | loadPair (p : Pair)
  | addPair (p : Pair)
  | incPair (p : Pair)
  | decPair (p : Pair)
  | storeAt (p : Pointer)
  | loadFrom (p : Pointer)
  | storeIndex
  | loadIndex
  | storeA
  | loadA
  | loadSP
  | inc (r : Register)
  | dec (r : Register)
  | loadByte (r : Register)
  | load (dst src : Register)
  | alu (op : AluOp) (r : Register)
  | aluByte (op : AluOp)
  /-- The rotates `RLCA`, `RRCA`, `RLA`, `RRA`. -/
  | rotateA (op : ShiftOp)
  | decimalAdjust
  | complement
  | setCarry
  | flipCarry
  | decJump
  | jumpRelative
  | jumpRelativeIf (cc : Condition)
  | jump
  | jumpIf (cc : Condition)
  | jumpIndex
  | call
  | callIf (cc : Condition)
  | ret
  | retIf (cc : Condition)
  | restart (address : UInt8)
  | push (p : StackPair)
  | pop (p : StackPair)
  | output
  | input
  | disable
  | enable
  deriving DecidableEq, Repr, Inhabited

/-- Instructions with a memory operand at `HL`, or at `IX+d` or `IY+d`. -/
inductive MemoryInstr
  | inc
  | dec
  | loadByte
  | load (dst : Register)
  | store (src : Register)
  | alu (op : AluOp)
  deriving DecidableEq, Repr, Inhabited

/-- What a byte of the unprefixed page stands for. -/
inductive Opcode
  | plain (i : Instr)
  | memory (m : MemoryInstr)
  /-- The prefix `CB`. -/
  | bitPage
  /-- The prefix `ED`. -/
  | extendedPage
  /-- The prefixes `DD` and `FD`. -/
  | indexPage (x : Index)
  deriving DecidableEq, Repr, Inhabited

namespace Opcode

/-- Block 0: immediate loads, 16-bit arithmetic, relative jumps, accumulator operations. -/
def decode0 (y z : UInt8) : Opcode :=
  match z with
  | 0 =>
    match y with
    | 0 => .plain .nop
    | 1 => .plain .exchangeAF
    | 2 => .plain .decJump
    | 3 => .plain .jumpRelative
    | _ => .plain (.jumpRelativeIf (.ofBits (y &&& 3)))
  | 1 =>
    if y &&& 1 == 0 then .plain (.loadPair (.ofBits (y >>> 1)))
    else .plain (.addPair (.ofBits (y >>> 1)))
  | 2 =>
    match y with
    | 0 => .plain (.storeAt .bc)
    | 1 => .plain (.loadFrom .bc)
    | 2 => .plain (.storeAt .de)
    | 3 => .plain (.loadFrom .de)
    | 4 => .plain .storeIndex
    | 5 => .plain .loadIndex
    | 6 => .plain .storeA
    | _ => .plain .loadA
  | 3 =>
    if y &&& 1 == 0 then .plain (.incPair (.ofBits (y >>> 1)))
    else .plain (.decPair (.ofBits (y >>> 1)))
  | 4 =>
    match Register.ofBits y with
    | some r => .plain (.inc r)
    | none => .memory .inc
  | 5 =>
    match Register.ofBits y with
    | some r => .plain (.dec r)
    | none => .memory .dec
  | 6 =>
    match Register.ofBits y with
    | some r => .plain (.loadByte r)
    | none => .memory .loadByte
  | _ =>
    match y with
    | 0 => .plain (.rotateA .rlc)
    | 1 => .plain (.rotateA .rrc)
    | 2 => .plain (.rotateA .rl)
    | 3 => .plain (.rotateA .rr)
    | 4 => .plain .decimalAdjust
    | 5 => .plain .complement
    | 6 => .plain .setCarry
    | _ => .plain .flipCarry

/-- Block 1: loads between registers; memory to memory is `HALT`. -/
def decode1 (y z : UInt8) : Opcode :=
  match Register.ofBits y, Register.ofBits z with
  | some dst, some src => .plain (.load dst src)
  | some dst, none => .memory (.load dst)
  | none, some src => .memory (.store src)
  | none, none => .plain .halt

/-- Block 3: jumps, calls, the stack, and everything left over. -/
def decode3 (y z : UInt8) : Opcode :=
  match z with
  | 0 => .plain (.retIf (.ofBits y))
  | 1 =>
    match y with
    | 1 => .plain .ret
    | 3 => .plain .exchangeMain
    | 5 => .plain .jumpIndex
    | 7 => .plain .loadSP
    | _ => .plain (.pop (.ofBits (y >>> 1)))
  | 2 => .plain (.jumpIf (.ofBits y))
  | 3 =>
    match y with
    | 0 => .plain .jump
    | 1 => .bitPage
    | 2 => .plain .output
    | 3 => .plain .input
    | 4 => .plain .exchangeStack
    | 5 => .plain .exchangeDEHL
    | 6 => .plain .disable
    | _ => .plain .enable
  | 4 => .plain (.callIf (.ofBits y))
  | 5 =>
    match y with
    | 1 => .plain .call
    | 3 => .indexPage .ix
    | 5 => .extendedPage
    | 7 => .indexPage .iy
    | _ => .plain (.push (.ofBits (y >>> 1)))
  | 6 => .plain (.aluByte (.ofBits y))
  | _ => .plain (.restart (y <<< 3))

def decode (op : UInt8) : Opcode :=
  let y := (op >>> 3) &&& 7
  let z := op &&& 7
  match op >>> 6 with
  | 0 => decode0 y z
  | 1 => decode1 y z
  | 2 =>
    match Register.ofBits z with
    | some r => .plain (.alu (.ofBits y) r)
    | none => .memory (.alu (.ofBits y))
  | _ => decode3 y z

/-- Whether a byte after `DD` or `FD` cancels it, so that decoding starts afresh. -/
def cancelsIndex : Opcode → Bool
  | .indexPage _ => true
  | .extendedPage => true
  | _ => false

end Opcode

/-! ## The `CB` page -/

/-- What a `CB` opcode does to its operand byte. -/
inductive BitOp
  | shift (op : ShiftOp)
  | test (n : UInt8)
  | reset (n : UInt8)
  | set (n : UInt8)
  deriving DecidableEq, Repr, Inhabited

/-- A `CB` opcode: the operation, and its register unless it works on memory. -/
structure BitInstr where
  op : BitOp
  target : Option Register
  deriving DecidableEq, Repr, Inhabited

def BitInstr.decode (op : UInt8) : BitInstr :=
  let y := (op >>> 3) &&& 7
  { target := Register.ofBits (op &&& 7)
    op :=
      match op >>> 6 with
      | 0 => .shift (.ofBits y)
      | 1 => .test y
      | 2 => .reset y
      | _ => .set y }

/-! ## The `ED` page -/

/-- Which way a block instruction walks. -/
inductive Direction
  | up | down
  deriving DecidableEq, Repr, Inhabited

/-- One step in a direction. -/
@[inline] def Direction.step (d : Direction) (w : UInt16) : UInt16 :=
  match d with
  | .up => w + 1
  | .down => w - 1

/-- What a block instruction does with each byte. -/
inductive BlockOp
  | load | compare | input | output
  deriving DecidableEq, Repr, Inhabited

/-- The instructions of the `ED` page. -/
inductive Extended
  /-- Input, `IN r,(C)`; without a register only the flags change. -/
  | input (r : Option Register)
  /-- Output, `OUT (C),r`; without a register a zero goes out. -/
  | output (r : Option Register)
  | subPair (p : Pair)
  | addPair (p : Pair)
  | storePair (p : Pair)
  | loadPair (p : Pair)
  | negate
  /-- The returns `RETN` and `RETI`. -/
  | ret
  | mode (n : UInt8)
  | loadIA
  | loadRA
  | loadAI
  | loadAR
  | rotateRight
  | rotateLeft
  | block (op : BlockOp) (d : Direction) (repeats : Bool)
  /-- A hole in the page: does nothing. -/
  | undefined
  deriving DecidableEq, Repr, Inhabited

namespace Extended

/-- Block 1 of the page. -/
def decode1 (y z : UInt8) : Extended :=
  match z with
  | 0 => .input (Register.ofBits y)
  | 1 => .output (Register.ofBits y)
  | 2 => if y &&& 1 == 0 then .subPair (.ofBits (y >>> 1)) else .addPair (.ofBits (y >>> 1))
  | 3 => if y &&& 1 == 0 then .storePair (.ofBits (y >>> 1)) else .loadPair (.ofBits (y >>> 1))
  | 4 => .negate
  | 5 => .ret
  | 6 =>
    match y &&& 3 with
    | 2 => .mode 1
    | 3 => .mode 2
    | _ => .mode 0
  | _ =>
    match y with
    | 0 => .loadIA
    | 1 => .loadRA
    | 2 => .loadAI
    | 3 => .loadAR
    | 4 => .rotateRight
    | 5 => .rotateLeft
    | _ => .undefined

/-- Block 2 of the page: bit 4 repeats, bit 3 walks down. -/
def decode2 (y z : UInt8) : Extended :=
  if y < 4 then .undefined
  else
    let d := if y &&& 1 == 0 then Direction.up else .down
    let repeats := y &&& 2 != 0
    match z with
    | 0 => .block .load d repeats
    | 1 => .block .compare d repeats
    | 2 => .block .input d repeats
    | 3 => .block .output d repeats
    | _ => .undefined

def decode (op : UInt8) : Extended :=
  let y := (op >>> 3) &&& 7
  let z := op &&& 7
  match op >>> 6 with
  | 1 => decode1 y z
  | 2 => decode2 y z
  | _ => .undefined

end Extended

end AmstradCpc.Z80
