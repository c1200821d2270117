import AmstradCpc.Word
import AmstradCpc.Z80.Flags

/-!
# The register set

The programmer's registers, and the internal state that shows in results: the address latch `wz`,
the interrupt flip-flops, the interrupt mode and the halt latch. `Index` says which register pair an
instruction means by `HL`: a `DD` or `FD` byte in front of it turns that into `IX` or `IY`.
-/

namespace AmstradCpc.Z80

/-- The registers. A name with a prime is in the shadow set. -/
structure Registers where
  a : UInt8 := 0
  f : UInt8 := 0
  b : UInt8 := 0
  c : UInt8 := 0
  d : UInt8 := 0
  e : UInt8 := 0
  h : UInt8 := 0
  l : UInt8 := 0
  a' : UInt8 := 0
  f' : UInt8 := 0
  b' : UInt8 := 0
  c' : UInt8 := 0
  d' : UInt8 := 0
  e' : UInt8 := 0
  h' : UInt8 := 0
  l' : UInt8 := 0
  ix : UInt16 := 0
  iy : UInt16 := 0
  sp : UInt16 := 0
  pc : UInt16 := 0
  /-- The address latch. It shows in the flags of `BIT n,(HL)`. -/
  wz : UInt16 := 0
  i : UInt8 := 0
  /-- The refresh counter: its low seven bits count opcode fetches. -/
  r : UInt8 := 0
  iff1 : Bool := false
  iff2 : Bool := false
  /-- The interrupt mode, 0 to 2. -/
  im : UInt8 := 0
  halted : Bool := false
  deriving DecidableEq, Repr, Inhabited

/-- What an instruction means by `HL`. -/
inductive Index
  | hl | ix | iy
  deriving DecidableEq, Repr, Inhabited

/-- The byte registers an instruction can name. -/
inductive Register
  | b | c | d | e | h | l | a
  deriving DecidableEq, Repr, Inhabited

/-- The register pairs an instruction can name. -/
inductive Pair
  | bc | de | hl | sp
  deriving DecidableEq, Repr, Inhabited

/-- The register pairs that go to the stack. -/
inductive StackPair
  | bc | de | hl | af
  deriving DecidableEq, Repr, Inhabited

/-- The branch conditions. -/
inductive Condition
  | nz | z | nc | c | po | pe | p | m
  deriving DecidableEq, Repr, Inhabited

namespace Registers

/-! ## Pairs -/

@[inline] def af (r : Registers) : UInt16 := word r.a r.f
@[inline] def bc (r : Registers) : UInt16 := word r.b r.c
@[inline] def de (r : Registers) : UInt16 := word r.d r.e
@[inline] def hl (r : Registers) : UInt16 := word r.h r.l

@[inline] def setAF (r : Registers) (w : UInt16) : Registers :=
  { r with a := hiByte w, f := loByte w }

@[inline] def setBC (r : Registers) (w : UInt16) : Registers :=
  { r with b := hiByte w, c := loByte w }

@[inline] def setDE (r : Registers) (w : UInt16) : Registers :=
  { r with d := hiByte w, e := loByte w }

@[inline] def setHL (r : Registers) (w : UInt16) : Registers :=
  { r with h := hiByte w, l := loByte w }

/-- The pair that stands for `HL`. -/
def index (r : Registers) : Index → UInt16
  | .hl => r.hl
  | .ix => r.ix
  | .iy => r.iy

def setIndex (r : Registers) (x : Index) (w : UInt16) : Registers :=
  match x with
  | .hl => r.setHL w
  | .ix => { r with ix := w }
  | .iy => { r with iy := w }

/-! ## Operands -/

/-- A byte register. With an index pair, `H` and `L` are the halves of that pair. -/
def get (r : Registers) (x : Index) : Register → UInt8
  | .b => r.b
  | .c => r.c
  | .d => r.d
  | .e => r.e
  | .h => hiByte (r.index x)
  | .l => loByte (r.index x)
  | .a => r.a

def set (r : Registers) (x : Index) (reg : Register) (v : UInt8) : Registers :=
  match reg with
  | .b => { r with b := v }
  | .c => { r with c := v }
  | .d => { r with d := v }
  | .e => { r with e := v }
  | .h => r.setIndex x (word v (loByte (r.index x)))
  | .l => r.setIndex x (word (hiByte (r.index x)) v)
  | .a => { r with a := v }

def getPair (r : Registers) (x : Index) : Pair → UInt16
  | .bc => r.bc
  | .de => r.de
  | .hl => r.index x
  | .sp => r.sp

def setPair (r : Registers) (x : Index) (p : Pair) (w : UInt16) : Registers :=
  match p with
  | .bc => r.setBC w
  | .de => r.setDE w
  | .hl => r.setIndex x w
  | .sp => { r with sp := w }

def getStackPair (r : Registers) (x : Index) : StackPair → UInt16
  | .bc => r.bc
  | .de => r.de
  | .hl => r.index x
  | .af => r.af

def setStackPair (r : Registers) (x : Index) (p : StackPair) (w : UInt16) : Registers :=
  match p with
  | .bc => r.setBC w
  | .de => r.setDE w
  | .hl => r.setIndex x w
  | .af => r.setAF w

/-- Whether the flags satisfy a branch condition. -/
def holds (r : Registers) : Condition → Bool
  | .nz => !hasFlag r.f Flag.zero
  | .z => hasFlag r.f Flag.zero
  | .nc => !hasFlag r.f Flag.carry
  | .c => hasFlag r.f Flag.carry
  | .po => !hasFlag r.f Flag.parity
  | .pe => hasFlag r.f Flag.parity
  | .p => !hasFlag r.f Flag.sign
  | .m => hasFlag r.f Flag.sign

/-! ## Exchanges and refresh -/

/-- The exchange `EX AF,AF'`. -/
def exchangeAF (r : Registers) : Registers :=
  { r with a := r.a', f := r.f', a' := r.a, f' := r.f }

/-- The exchange `EXX`. -/
def exchangeMain (r : Registers) : Registers :=
  { r with
    b := r.b', c := r.c', d := r.d', e := r.e', h := r.h', l := r.l'
    b' := r.b, c' := r.c, d' := r.d, e' := r.e, h' := r.h, l' := r.l }

/-- The exchange `EX DE,HL`. -/
def exchangeDEHL (r : Registers) : Registers :=
  { r with d := r.h, e := r.l, h := r.d, l := r.e }

/-- Counts one opcode fetch in the low seven bits of `R`. -/
@[inline] def refresh (r : Registers) : Registers :=
  { r with r := (r.r &&& 0x80) ||| ((r.r + 1) &&& 0x7F) }

end Registers

end AmstradCpc.Z80
