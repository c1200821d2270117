import AmstradCpc.Z80.Instruction

/-!
# T-states

The cost of each instruction in T-states. A conditional instruction is listed with the cost of the
branch not taken; what a taken branch or a repeated block step adds is named here and charged by
the instruction itself. A `DD` or `FD` byte costs 4, fetching a displacement and adding it 8, or 5
where the addition overlaps the fetch of an immediate byte.
-/

namespace AmstradCpc.Z80

/-- Which page the last opcode was decoded from. -/
inductive DecodeContext
  | base | cb | dd | ed | fd | ddcb | fdcb
  deriving DecidableEq, Repr, Inhabited

def DecodeContext.name : DecodeContext → String
  | .base => "base"
  | .cb => "cb"
  | .dd => "dd"
  | .ed => "ed"
  | .fd => "fd"
  | .ddcb => "ddcb"
  | .fdcb => "fdcb"

def Instr.cost : Instr → Nat
  | .nop | .halt | .exchangeAF | .exchangeMain | .exchangeDEHL => 4
  | .exchangeStack => 19
  | .loadPair _ => 10
  | .addPair _ => 11
  | .incPair _ | .decPair _ | .loadSP => 6
  | .storeAt _ | .loadFrom _ => 7
  | .storeIndex | .loadIndex => 16
  | .storeA | .loadA => 13
  | .inc _ | .dec _ | .load _ _ | .alu _ _ | .rotateA _ => 4
  | .decimalAdjust | .complement | .setCarry | .flipCarry => 4
  | .loadByte _ | .aluByte _ => 7
  | .decJump => 8
  | .jumpRelative => 12
  | .jumpRelativeIf _ => 7
  | .jump | .jumpIf _ | .callIf _ | .ret | .pop _ => 10
  | .jumpIndex | .disable | .enable => 4
  | .call => 17
  | .retIf _ => 5
  | .restart _ | .push _ | .output | .input => 11

def MemoryInstr.cost : MemoryInstr → Nat
  | .inc | .dec => 11
  | .loadByte => 10
  | .load _ | .store _ | .alu _ => 7

/-- What the displacement adds to a memory operand at `IX+d`. -/
def MemoryInstr.displacementCost : MemoryInstr → Nat
  | .loadByte => 5
  | _ => 8

/-- The cost of a `DD` or `FD` byte. -/
def indexCost : Nat := 4

def BitInstr.cost (i : BitInstr) : Nat :=
  match i.target, i.op with
  | some _, _ => 8
  | none, .test _ => 12
  | none, _ => 15

/-- The cost of a `CB` operation at `IX+d`, all four bytes. -/
def BitOp.indexedCost : BitOp → Nat
  | .test _ => 20
  | _ => 23

def Extended.cost : Extended → Nat
  | .input _ | .output _ => 12
  | .subPair _ | .addPair _ => 15
  | .storePair _ | .loadPair _ => 20
  | .negate | .mode _ | .undefined => 8
  | .ret => 14
  | .loadIA | .loadRA | .loadAI | .loadAR => 9
  | .rotateRight | .rotateLeft => 18
  | .block _ _ _ => 16

/-! ## Penalties -/

/-- Added by a relative jump that is taken, and by a block instruction that repeats. -/
def jumpPenalty : Nat := 5

def callPenalty : Nat := 7

def returnPenalty : Nat := 6

/-! ## The cost of an opcode byte -/

/-- The cost of `op` on a page. The prefix bytes lead to other pages: they cost nothing on the
unprefixed page, and after `DD` or `FD` only what that first byte cost, `CB` excepted. -/
def cycles (context : DecodeContext) (op : UInt8) : Nat :=
  match context with
  | .base =>
    match Opcode.decode op with
    | .plain i => i.cost
    | .memory m => m.cost
    | _ => 0
  | .dd | .fd =>
    match Opcode.decode op with
    | .plain i => indexCost + i.cost
    | .memory m => indexCost + m.cost + m.displacementCost
    | .bitPage => 0
    | _ => indexCost
  | .cb => (BitInstr.decode op).cost
  | .ed => (Extended.decode op).cost
  | .ddcb | .fdcb => (BitInstr.decode op).op.indexedCost

end AmstradCpc.Z80
