import AmstradCpc.Proofs.Z80.PrefixedSteps

/-!
# Bit operations behind an index prefix

A `DD CB d` or `FD CB d` in front of a `CB` opcode makes it work on the byte at the index pair plus
the displacement. That is what the opcode for the byte at `HL` does where `HL` and the address latch
hold that address, and then `HL` is as before. Unless the opcode only tests a bit, the byte that was
written goes to the register that the opcode names as well, `H` and `L` included
(`System.step_indexedBit`).
-/

namespace AmstradCpc.Z80

/-! ## Opcodes -/

/-- The `CB` opcodes that test a bit and write nothing. -/
def TestsBit (op : UInt8) : Prop := 0x40 ≤ op ∧ op < 0x80

instance (op : UInt8) : Decidable (TestsBit op) := inferInstanceAs (Decidable (_ ∧ _))

/-- The `CB` opcode that does the same to the byte at `HL`. -/
def onMemory (op : UInt8) : UInt8 := (op &&& 0xF8) ||| 6

-- Two fetches count two in the low seven bits.
theorem Registers.r_refresh_refresh (r : Registers) :
    r.refresh.refresh.r = (r.r &&& 0x80) ||| ((r.r + 2) &&& 0x7F) := by
  show ((((r.r &&& 0x80) ||| ((r.r + 1) &&& 0x7F)) &&& 0x80) |||
    ((((r.r &&& 0x80) ||| ((r.r + 1) &&& 0x7F)) + 1) &&& 0x7F)) = _
  generalize r.r = n
  revert n
  decide +kernel

/-- An operation that tests a bit. -/
def BitOp.isTest : BitOp → Bool
  | .test _ => true
  | _ => false

namespace BitInstr

theorem decode_onMemory : ∀ op, decode (onMemory op) = { op := (decode op).op, target := none } := by
  decide +kernel

theorem isTest_decode_iff : ∀ op, (decode op).op.isTest = true ↔ TestsBit op := by decide +kernel

theorem indexedCost_decode (op : UInt8) :
    (decode op).op.indexedCost = if TestsBit op then 20 else 23 := by
  simp only [← isTest_decode_iff op]
  cases (decode op).op <;> rfl

theorem apply_decode_eq_none_iff (op v source f : UInt8) :
    ((decode op).op.apply v source f).2 = none ↔ TestsBit op := by
  rw [← isTest_decode_iff op]
  cases (decode op).op <;> simp [BitOp.apply, BitOp.isTest]

/-- The registers after the byte `v` has been written, which goes to the register that the opcode
names too. -/
def copied (op : UInt8) (v : Option UInt8) (r : Registers) : Registers :=
  match Register.ofBits (op &&& 7), v with
  | some reg, some v => r.set .hl reg v
  | _, _ => r

theorem wz_pc_r_copied (op : UInt8) (v : Option UInt8) (r : Registers) :
    (copied op v r).wz = r.wz ∧ (copied op v r).pc = r.pc ∧ (copied op v r).r = r.r := by
  unfold copied
  cases Register.ofBits (op &&& 7) with
  | none => exact ⟨rfl, rfl, rfl⟩
  | some reg =>
    cases v with
    | none => exact ⟨rfl, rfl, rfl⟩
    | some v => cases reg <;> exact ⟨rfl, rfl, rfl⟩

section Memory

variable {β : Type} [Bus β] (hpure : Bus.PureReads β) {a : UInt16} {s : System β} {op : BitOp}
  {source f : UInt8} {w : Option UInt8}

include hpure

theorem execMemory_of_pure (happly : op.apply (Bus.peek s.bus a) source s.regs.f = (f, w)) :
    execMemory op a source s =
      (w, { s.mapRegs fun r => { r with f } with bus := Bus.store a w s.bus }) := by
  simp only [execMemory, System.read_of_pure hpure, happly]
  cases w <;> rfl

theorem execIndexed_of_pure {opcode : UInt8}
    (happly : (decode opcode).op.apply (Bus.peek s.bus a) (hiByte a) s.regs.f = (f, w)) :
    (decode opcode).execIndexed a s =
      { s.mapRegs fun r => copied opcode w { r with f } with bus := Bus.store a w s.bus } := by
  have htarget : (decode opcode).target = Register.ofBits (opcode &&& 7) := rfl
  simp only [execIndexed, execMemory_of_pure hpure happly, htarget, copied]
  cases Register.ofBits (opcode &&& 7) with
  | none => rfl
  | some reg => cases w <;> rfl

end Memory

end BitInstr

namespace System

section Indexed

variable {β : Type} [Bus β] (hpure : Bus.PureReads β) (x : Index) (s : System β)

/-- The `CB` opcode behind the prefix and the displacement. -/
def bitOpcode (s : System β) : UInt8 := Bus.peek s.bus (s.regs.pc + 3)

/-- The state in which the operation starts, its operand address computed. -/
def atBit (x : Index) (s : System β) : System β :=
  (s.beginStep.fetched.fetched.decodedIn x.bitContext).mapRegs fun r =>
    { r with pc := s.regs.pc + 4, wz := s.displaced x }

theorem bus_atBit : (s.atBit x).bus = s.bus := by
  simp only [atBit, bus_mapRegs, bus_decodedIn, bus_fetched, bus_beginStep]

theorem cpu_atBit : (s.atBit x).cpu =
    { s.cpu with
      regs := { s.cpu.regs.fetched.fetched with pc := s.cpu.regs.pc + 4, wz := s.displaced x }
      eiDelay := false
      inPrefix := false
      context := x.bitContext
      m1Cycles := s.cpu.m1Cycles + 2 } := by
  simp only [atBit, mapRegs, decodedIn, fetched, beginStep, Cpu.countFetch, Registers.fetched,
    Registers.refresh, regs]

theorem regs_atBit : (s.atBit x).regs =
    { s.regs.fetched.fetched with pc := s.regs.pc + 4, wz := s.displaced x } := by
  rw [regs, cpu_atBit, regs]

theorem f_atBit : (s.atBit x).regs.f = s.regs.f := by
  simp only [regs_atBit, Registers.fetched, Registers.refresh]

include hpure

theorem indexed_of_bitPage (hx : x ≠ .hl)
    (hpage : Opcode.decode (Bus.peek s.bus s.regs.pc) = .bitPage) :
    let a := s.regs.index x + signExtend (Bus.peek s.bus (s.regs.pc + 1))
    let i := BitInstr.decode (Bus.peek s.bus (s.regs.pc + 1 + 1))
    s.indexed x =
      (i.op.indexedCost, i.execIndexed a ((s.fetched.decodedIn x.bitContext).mapRegs fun r =>
        { r with pc := r.pc + 1 + 1, wz := a })) := by
  simp only [indexed, read_of_pure hpure, hpage, Opcode.cancelsIndex, Bool.false_eq_true, if_false,
    fetchOpcode_of_pure hpure, bitIndexed, operandAddress_of_pure hpure _ hx,
    fetchByte_of_pure hpure]
  cases x <;> rfl

theorem instruction_atBit (hpre : x.Prefixes (Bus.peek s.bus s.regs.pc))
    (hpage : s.prefixedOpcode = 0xCB) :
    s.beginStep.instruction =
      ((BitInstr.decode s.bitOpcode).op.indexedCost,
        (BitInstr.decode s.bitOpcode).execIndexed (s.displaced x) (s.atBit x)) := by
  have hbehind : s.regs.pc + 1 + 1 + 1 = s.regs.pc + 3 := by
    rw [UInt16.add_assoc, UInt16.add_assoc]
    rfl
  have hend : s.regs.pc + 1 + 1 + 1 + 1 = s.regs.pc + 4 := by
    rw [UInt16.add_assoc, UInt16.add_assoc, UInt16.add_assoc]
    rfl
  have hcb : Opcode.decode (Bus.peek s.beginStep.fetched.bus s.beginStep.fetched.regs.pc) =
      .bitPage := by
    rw [show Bus.peek s.beginStep.fetched.bus s.beginStep.fetched.regs.pc = 0xCB from hpage]
    rfl
  have hindexed := indexed_of_bitPage hpure x s.beginStep.fetched hpre.ne_hl hcb
  simp only [displaced_eq] at hindexed
  rw [instruction_of_prefixes hpure s.beginStep hpre, hindexed, bitOpcode, ← hbehind, atBit, ← hend]
  rfl

end Indexed

section Plain

variable {γ : Type} [Bus γ] {x : Index} {op f : UInt8} {p : System γ}

/-- The state in which an operation of the `CB` page starts. -/
def atPlainBit (p : System γ) : System γ := p.beginStep.fetched.fetched.decodedIn .cb

omit [Bus γ] in
theorem cpu_atPlainBit (p : System γ) : p.atPlainBit.cpu =
    { p.cpu with
      regs := p.cpu.regs.fetched.fetched
      eiDelay := false
      inPrefix := false
      context := .cb
      m1Cycles := p.cpu.m1Cycles + 2 } := by
  simp only [atPlainBit, decodedIn, fetched, beginStep, Cpu.countFetch, Registers.fetched,
    Registers.refresh, regs]

theorem instruction_atPlainBit (hpure : Bus.PureReads γ) (hfirst : Bus.peek p.bus p.regs.pc = 0xCB)
    (hsecond : Bus.peek p.bus (p.regs.pc + 1) = onMemory op) :
    p.beginStep.instruction =
      ((BitInstr.decode (onMemory op)).cost,
        (BitInstr.execMemory (BitInstr.decode op).op p.regs.hl (hiByte p.regs.wz)
          p.atPlainBit).2) := by
  have hpage : Opcode.decode (Bus.peek p.bus p.regs.pc) = .bitPage := by
    rw [hfirst]
    rfl
  simp only [instruction, fetchOpcode_of_pure hpure, regs_beginStep, bus_beginStep, hpage, bitPage,
    regs_fetched, bus_fetched, Registers.pc_fetched, hsecond, BitInstr.exec,
    BitInstr.decode_onMemory]
  rfl

end Plain

section Compared

variable {β γ : Type} [Bus β] [Bus γ] {x : Index} {s : System β} {p : System γ}

/-- The same CPU in front of the opcode for the byte at `HL`, in another place and on another bus.
`HL` and the address latch hold the displaced address, and the same byte is there. -/
structure PlainBit (x : Index) (s : System β) (p : System γ) : Prop where
  cpu : p.cpu =
    { s.cpu with
      regs := { s.regs.setHL (s.displaced x) with wz := s.displaced x, pc := p.regs.pc } }
  first : Bus.peek p.bus p.regs.pc = 0xCB
  second : Bus.peek p.bus (p.regs.pc + 1) = onMemory s.bitOpcode
  operand : Bus.peek p.bus (s.displaced x) = Bus.peek s.bus (s.displaced x)

/-- The step from `s` is that from `p`, with `HL` as before and then the byte `v`, if there is one,
in the register that the opcode names too. -/
structure FollowsBit (x : Index) (s : System β) (p : System γ) (v : Option UInt8) : Prop where
  plainBus : p.step.2.bus = Bus.store (s.displaced x) v p.bus
  bus : s.step.2.bus = Bus.store (s.displaced x) v s.bus
  cpu : s.step.2.cpu =
    { p.step.2.cpu with
      regs := BitInstr.copied s.bitOpcode v
        { p.step.2.regs with h := s.regs.h, l := s.regs.l, pc := s.regs.pc + 4 }
      context := x.bitContext
      tStates := s.cpu.tStates + s.step.1 }

variable {f : UInt8} {w : Option UInt8}

theorem step_atBit (hpure : Bus.PureReads β) (h : s.Fetches)
    (hpre : x.Prefixes (Bus.peek s.bus s.regs.pc)) (hpage : s.prefixedOpcode = 0xCB)
    (happly : (BitInstr.decode s.bitOpcode).op.apply (Bus.peek s.bus (s.displaced x))
      (hiByte (s.displaced x)) s.regs.f = (f, w)) :
    let t := if TestsBit s.bitOpcode then 20 else 23
    s.step =
      (t, ({ (s.atBit x).mapRegs fun r => BitInstr.copied s.bitOpcode w { r with f } with
        bus := Bus.store (s.displaced x) w s.bus } : System β).charge t) := by
  have hoperation : (BitInstr.decode s.bitOpcode).op.apply
      (Bus.peek (s.atBit x).bus (s.displaced x)) (hiByte (s.displaced x)) (s.atBit x).regs.f =
      (f, w) := by
    rw [bus_atBit, f_atBit, happly]
  have hexec := BitInstr.execIndexed_of_pure hpure hoperation
  rw [step_of_fetches s h, instruction_atBit hpure x s hpre hpage, hexec,
    BitInstr.indexedCost_decode, bus_atBit]

section Plain

variable (hplain : s.PlainBit x p)

include hplain

theorem PlainBit.fetches (h : s.Fetches) : p.Fetches := by
  unfold Fetches regs at h ⊢
  rw [hplain.cpu]
  exact h

theorem PlainBit.regs : p.regs =
    { s.regs.setHL (s.displaced x) with wz := s.displaced x, pc := p.regs.pc } :=
  congrArg Cpu.regs hplain.cpu

theorem PlainBit.hl : p.regs.hl = s.displaced x := by
  rw [hplain.regs]
  exact word_hiByte_loByte _

theorem PlainBit.step_eq (hpure : Bus.PureReads γ) (h : s.Fetches)
    (happly : (BitInstr.decode s.bitOpcode).op.apply (Bus.peek s.bus (s.displaced x))
      (hiByte (s.displaced x)) s.regs.f = (f, w)) :
    let t := (BitInstr.decode (onMemory s.bitOpcode)).cost
    p.step =
      (t, ({ p.atPlainBit.mapRegs fun r => { r with f } with
        bus := Bus.store (s.displaced x) w p.bus } : System γ).charge t) := by
  have hwz : p.regs.wz = s.displaced x := by rw [hplain.regs]
  have hf : p.atPlainBit.regs.f = s.regs.f := by
    show p.regs.f = s.regs.f
    rw [hplain.regs]
    rfl
  have hoperand : Bus.peek p.atPlainBit.bus (s.displaced x) = Bus.peek s.bus (s.displaced x) :=
    hplain.operand
  have hoperation : (BitInstr.decode s.bitOpcode).op.apply
      (Bus.peek p.atPlainBit.bus (s.displaced x)) (hiByte (s.displaced x)) p.atPlainBit.regs.f =
      (f, w) := by
    rw [hoperand, hf, happly]
  rw [step_of_fetches p (hplain.fetches h), instruction_atPlainBit hpure hplain.first hplain.second,
    hplain.hl, hwz, BitInstr.execMemory_of_pure hpure hoperation]
  rfl

end Plain

theorem followsBit (hs : Bus.PureReads β) (hp : Bus.PureReads γ) (h : s.Fetches)
    (hpre : x.Prefixes (Bus.peek s.bus s.regs.pc)) (hpage : s.prefixedOpcode = 0xCB)
    (hplain : s.PlainBit x p)
    (happly : (BitInstr.decode s.bitOpcode).op.apply (Bus.peek s.bus (s.displaced x))
      (hiByte (s.displaced x)) s.regs.f = (f, w)) : s.FollowsBit x p w := by
  have hstep := step_atBit hs h hpre hpage happly
  have hpstep := hplain.step_eq hp h happly
  refine ⟨?_, ?_, ?_⟩
  · rw [hpstep]
    rfl
  · rw [hstep]
    rfl
  · rw [hstep, hpstep]
    simp only [charge, mapRegs, cpu_atBit, cpu_atPlainBit, hplain.cpu, Registers.fetched,
      Registers.refresh, Registers.setHL]
    rfl

end Compared

/-! ## Steps -/

/-- `RLC (IX-2)`, with the opcode that also names `H`. -/
def rotating : System FlatBus where
  cpu := { regs := { h := 0x50, ix := 0x4000 } }
  bus := { memory :=
    ((((FlatMemory.zeros.write 0 0xDD).write 1 0xCB).write 2 0xFE).write 3 0x04).write 0x3FFE 0x81 }

/-- `RLC (HL)` for the same byte. -/
def rotatingPlain : System FlatBus where
  cpu := { regs := { h := 0x3F, l := 0xFE, ix := 0x4000, wz := 0x3FFE } }
  bus := { memory := ((FlatMemory.zeros.write 0 0xCB).write 1 0x06).write 0x3FFE 0x81 }

theorem peek_rotating (a : UInt16) : Bus.peek rotating.bus a =
    if 0x3FFE = a then 0x81 else if 3 = a then 0x04 else if 2 = a then 0xFE
    else if 1 = a then 0xCB else if 0 = a then 0xDD else 0 := by
  show (((((FlatMemory.zeros.write 0 0xDD).write 1 0xCB).write 2 0xFE).write 3 0x04).write
    0x3FFE 0x81).read a = _
  simp only [FlatMemory.read_write, FlatMemory.read_zeros]

theorem peek_rotatingPlain (a : UInt16) : Bus.peek rotatingPlain.bus a =
    if 0x3FFE = a then 0x81 else if 1 = a then 0x06 else if 0 = a then 0xCB else 0 := by
  show (((FlatMemory.zeros.write 0 0xCB).write 1 0x06).write 0x3FFE 0x81).read a = _
  simp only [FlatMemory.read_write, FlatMemory.read_zeros]

end System

end AmstradCpc.Z80
