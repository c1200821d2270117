import AmstradCpc.Z80.Flags

/-!
# Arithmetic and logic

The operations of the Z80 on bytes and words, each with the flags it produces. Carries and borrows
are found in `Nat`, where sums do not wrap. Half carry is bit 4 of `a ^ b ^ result`. Overflow of an
addition means operands of one sign and a result of the other; of a subtraction, operands of
different signs and a result with the sign of the subtrahend.
-/

namespace AmstradCpc.Z80

/-- A result byte and the flags that go with it. -/
structure AluResult where
  value : UInt8
  flags : UInt8
  deriving DecidableEq, Repr, Inhabited

/-- A result word and the flags that go with it. -/
structure AluResult16 where
  value : UInt16
  flags : UInt8
  deriving DecidableEq, Repr, Inhabited

/-- The eight accumulator operations, in the order of opcode bits 5 to 3. -/
inductive AluOp
  | add | adc | sub | sbc | and | xor | or | cp
  deriving DecidableEq, Repr, Inhabited

/-- The eight rotates and shifts, in the order of opcode bits 5 to 3. `sll` shifts a one in. -/
inductive ShiftOp
  | rlc | rrc | rl | rr | sla | sra | sll | srl
  deriving DecidableEq, Repr, Inhabited

/-! ## Bytes -/

def add8 (a b : UInt8) (carry : Bool) : AluResult :=
  let value := a + b + (if carry then 1 else 0)
  let overflow := (a ^^^ b) &&& 0x80 == 0 && (a ^^^ value) &&& 0x80 != 0
  { value
    flags := resultFlags value ||| ((a ^^^ b ^^^ value) &&& Flag.half) |||
      flagIf overflow Flag.parity |||
      flagIf (a.toNat + b.toNat + carry.toNat > 0xFF) Flag.carry }

def sub8 (a b : UInt8) (borrow : Bool) : AluResult :=
  let value := a - b - (if borrow then 1 else 0)
  let overflow := (a ^^^ b) &&& 0x80 != 0 && (a ^^^ value) &&& 0x80 != 0
  { value
    flags := Flag.subtract ||| resultFlags value ||| ((a ^^^ b ^^^ value) &&& Flag.half) |||
      flagIf overflow Flag.parity |||
      flagIf (a.toNat < b.toNat + borrow.toNat) Flag.carry }

/-- Compare, `CP`: a subtraction that keeps the accumulator; its undocumented bits come from the
operand. -/
def cp8 (a b : UInt8) : AluResult :=
  let r := sub8 a b false
  { value := a, flags := (r.flags &&& ~~~Flag.xy) ||| (b &&& Flag.xy) }

def and8 (a b : UInt8) : AluResult :=
  let value := a &&& b
  { value, flags := parityFlags value ||| Flag.half }

def or8 (a b : UInt8) : AluResult :=
  let value := a ||| b
  { value, flags := parityFlags value }

def xor8 (a b : UInt8) : AluResult :=
  let value := a ^^^ b
  { value, flags := parityFlags value }

/-- Increment, `INC`. The caller keeps the carry. -/
def inc8 (a : UInt8) : AluResult :=
  let value := a + 1
  { value
    flags := resultFlags value ||| ((a ^^^ value) &&& Flag.half) |||
      flagIf (value == 0x80) Flag.parity }

/-- Decrement, `DEC`. The caller keeps the carry. -/
def dec8 (a : UInt8) : AluResult :=
  let value := a - 1
  { value
    flags := Flag.subtract ||| resultFlags value ||| ((a ^^^ value) &&& Flag.half) |||
      flagIf (value == 0x7F) Flag.parity }

/-- The accumulator operation `op` on `a` and `b` with the old flags `f`. -/
def AluOp.apply (op : AluOp) (a b f : UInt8) : AluResult :=
  match op with
  | .add => add8 a b false
  | .adc => add8 a b (hasFlag f Flag.carry)
  | .sub => sub8 a b false
  | .sbc => sub8 a b (hasFlag f Flag.carry)
  | .and => and8 a b
  | .xor => xor8 a b
  | .or => or8 a b
  | .cp => cp8 a b

/-- The rotate or shift `op` on `v` with the old flags `f`. The bit that leaves becomes carry. -/
def ShiftOp.apply (op : ShiftOp) (v f : UInt8) : AluResult :=
  let carryIn := f &&& Flag.carry
  let left (low : UInt8) : AluResult :=
    let value := (v <<< 1) ||| low
    { value, flags := parityFlags value ||| (v >>> 7) }
  let right (high : UInt8) : AluResult :=
    let value := (v >>> 1) ||| high
    { value, flags := parityFlags value ||| (v &&& 1) }
  match op with
  | .rlc => left (v >>> 7)
  | .rrc => right (v <<< 7)
  | .rl => left carryIn
  | .rr => right (carryIn <<< 7)
  | .sla => left 0
  | .sra => right (v &&& 0x80)
  | .sll => left 1
  | .srl => right 0

/-! ## Decimal adjustment -/

/-- Decimal adjust, `DAA`: corrects the accumulator after an addition or a subtraction of packed
decimals. A digit is corrected by 6 when it carried or is above 9. -/
def decimalAdjust (a f : UInt8) : AluResult :=
  let carry := hasFlag f Flag.carry
  let half := hasFlag f Flag.half
  let subtract := hasFlag f Flag.subtract
  let low := a &&& 0x0F
  let fixLow := half || low > 9
  let fixHigh := carry || a > 0x99
  let correction := flagIf fixLow 0x06 ||| flagIf fixHigh 0x60
  let value := if subtract then a - correction else a + correction
  let newHalf := if subtract then half && low < 6 else low > 9
  { value
    flags := parityFlags value ||| flagIf subtract Flag.subtract ||| flagIf newHalf Flag.half |||
      flagIf fixHigh Flag.carry }

/-! ## Words -/

/-- Half carry of a word operation: the carry out of bit 11. -/
@[inline] def halfCarry16 (a b value : UInt16) : UInt8 :=
  ((a ^^^ b ^^^ value) >>> 8).toUInt8 &&& Flag.half

/-- The sum of `ADD HL,rr`. The caller keeps sign, zero and parity. -/
def add16 (a b : UInt16) : AluResult16 :=
  let value := a + b
  { value
    flags := ((value >>> 8).toUInt8 &&& Flag.xy) ||| halfCarry16 a b value |||
      flagIf (a.toNat + b.toNat > 0xFFFF) Flag.carry }

/-- Sign, zero and the undocumented bits of a word. -/
@[inline] def resultFlags16 (value : UInt16) : UInt8 :=
  ((value >>> 8).toUInt8 &&& (Flag.sign ||| Flag.xy)) ||| flagIf (value == 0) Flag.zero

/-- The sum of `ADC HL,rr`. -/
def adc16 (a b : UInt16) (carry : Bool) : AluResult16 :=
  let value := a + b + (if carry then 1 else 0)
  let overflow := (a ^^^ b) &&& 0x8000 == 0 && (a ^^^ value) &&& 0x8000 != 0
  { value
    flags := resultFlags16 value ||| halfCarry16 a b value ||| flagIf overflow Flag.parity |||
      flagIf (a.toNat + b.toNat + carry.toNat > 0xFFFF) Flag.carry }

/-- The difference of `SBC HL,rr`. -/
def sbc16 (a b : UInt16) (borrow : Bool) : AluResult16 :=
  let value := a - b - (if borrow then 1 else 0)
  let overflow := (a ^^^ b) &&& 0x8000 != 0 && (a ^^^ value) &&& 0x8000 != 0
  { value
    flags := Flag.subtract ||| resultFlags16 value ||| halfCarry16 a b value |||
      flagIf overflow Flag.parity ||| flagIf (a.toNat < b.toNat + borrow.toNat) Flag.carry }

end AmstradCpc.Z80
